import SiphonSigtran.M2pa.LinkLedger

/-!
# What a changeover needs of a link

A failure sets aside all the link held, with the number of the last message accepted. Nothing but a
start or a retrieval touches what was set aside, nothing but a message accepted changes that number,
and a link that is not aligned hands nothing over. The outcomes of one operation compose to those of
several.
-/

namespace SiphonSigtran.M2pa

/-- An action that neither hands an MSU over nor says that the link failed. -/
def Action.plain : Action → Bool
  | .deliver _ | .outOfService _ => false
  | _ => true

theorem not_deliver_of_plain {out : List Action} (h : out.all Action.plain = true) (msu : Msu) :
    .deliver msu ∉ out := fun hmem => absurd (List.all_eq_true.mp h _ hmem) (by simp [Action.plain])

theorem not_outOfService_of_plain {out : List Action} (h : out.all Action.plain = true)
    (reason : Failure) : .outOfService reason ∉ out :=
  fun hmem => absurd (List.all_eq_true.mp h _ hmem) (by simp [Action.plain])

namespace Link

variable {codec : Codec}

/-- The link waits, sends, fails or hands an MSU over. Only a link that waits is as good as before
for a failure that comes after. -/
inductive Outcome (l : Link) : Option ℕ → Link × List Action → Prop
  | waits {fsn : Option ℕ} {r : Link × List Action}
      (hs : r.1.state = .outOfService ↔ l.state = .outOfService)
      (hr : r.1.retrievable = l.retrievable) (hn : r.1.fsnIn = l.fsnIn)
      (hleave : r.1.leave = l.leave) (hout : r.2.all Action.plain = true) : Outcome l fsn r
  | moves {fsn : Option ℕ} {r : Link × List Action}
      (hs : r.1.state = .outOfService ↔ l.state = .outOfService)
      (hr : r.1.retrievable = l.retrievable) (hn : r.1.fsnIn = l.fsnIn)
      (hout : r.2.all Action.plain = true) : Outcome l fsn r
  | failed {fsn : Option ℕ} {r : Link × List Action} (h : l.state ≠ .outOfService)
      (hs : r.1.state = .outOfService) (hr : r.1.retrievable = some l.leave)
      (hn : r.1.fsnIn = l.fsnIn) (hd : ∀ msu, .deliver msu ∉ r.2) : Outcome l fsn r
  | delivers {fsn : ℕ} {r : Link × List Action} (before : List Action) (msu : Msu)
      (h : l.state ≠ .outOfService) (ha : r.1.isAligned = true)
      (hr : r.1.retrievable = l.retrievable) (hn : r.1.fsnIn = fsn % 0x1000000)
      (hb : before.all Action.plain = true) (hout : r.2 = before ++ [.deliver msu]) :
      Outcome l (some fsn) r

theorem Outcome.rfl (l : Link) (fsn : Option ℕ) : Outcome l fsn (l, []) :=
  .waits Iff.rfl (Eq.refl _) (Eq.refl _) (Eq.refl _) (Eq.refl _)

theorem plain_sendFrame (m : M2paMessage) (stream : ℕ) (si : Option ℕ) :
    (sendFrame codec m stream si).all Action.plain = true := by
  unfold sendFrame
  split <;> rfl

theorem plain_sendStatus (l : Link) (status : Status) (stream : ℕ) :
    (l.sendStatus codec status stream).all Action.plain = true := plain_sendFrame _ _ _

theorem plain_armT7 (l : Link) (now : ℕ) : (l.armT7 now).all Action.plain = true := by
  unfold armT7
  split <;> rfl

theorem not_deliver_failActions (l : Link) (reason : Failure) (msu : Msu) :
    .deliver msu ∉ l.failActions codec reason := by
  have hplain : (l.sendStatus codec .outOfService statusStream).all Action.plain = true :=
    plain_sendStatus l .outOfService statusStream
  have hstatus := not_deliver_of_plain hplain msu
  unfold failActions
  split <;> simp [Timer.all, hstatus]

theorem outcome_failed {l : Link} (h : l.state ≠ .outOfService) (fsn : Option ℕ)
    (reason : Failure) :
    Outcome l fsn (l.failed, l.failActions codec reason) :=
  .failed h rfl rfl rfl (not_deliver_failActions l reason)

theorem FailMove.outcome {l : Link} {reason : Failure} {r : Link × List Action}
    (h : FailMove codec l reason r) (fsn : Option ℕ) : Outcome l fsn r := by
  cases h with
  | out _ => exact .rfl l fsn
  | failed hs => exact outcome_failed hs fsn reason

theorem FailMove.state {l : Link} {reason : Failure} {r : Link × List Action}
    (h : FailMove codec l reason r) : r.1.state = .outOfService := by
  cases h with
  | out hs => exact hs
  | failed _ => rfl

theorem TransmitMove.plain {l : Link} {msu : Msu} {now : ℕ} {r : Link × List Action}
    (h : TransmitMove codec l msu now r) : r.2.all Action.plain = true := by
  cases h with
  | sent frame _ => split <;> rfl
  | refused _ => rfl

theorem QueueMove.plain {now : ℕ} {queue : List Msu} {l : Link} {r : Link × List Action}
    (h : QueueMove codec now queue l r) : r.2.all Action.plain = true := by
  induction h with
  | nil l => rfl
  | cons hfirst _ ih => rw [List.all_append, hfirst.plain, ih, Bool.and_self]

/-- What is sent on a link fails it on no account. -/
theorem SendMove.moves {l : Link} {msu : Msu} {now : ℕ} {r : Link × List Action}
    (h : SendMove codec l msu now r) :
    (r.1.state = .outOfService ↔ l.state = .outOfService) ∧ r.1.retrievable = l.retrievable ∧
      r.1.fsnIn = l.fsnIn ∧ r.2.all Action.plain = true := by
  cases h with
  | transmitted _ _ ht =>
    obtain ⟨fsnOut, ackDue, unacked, hr⟩ := ht.frame
    rw [hr]
    exact ⟨Iff.rfl, rfl, rfl, ht.plain⟩
  | congested _ _ _ => exact ⟨Iff.rfl, rfl, rfl, rfl⟩
  | queued _ _ _ => exact ⟨Iff.rfl, rfl, rfl, rfl⟩
  | refused _ => exact ⟨Iff.rfl, rfl, rfl, rfl⟩

theorem SendMove.outcome {l : Link} {msu : Msu} {now : ℕ} {r : Link × List Action}
    (h : SendMove codec l msu now r) (fsn : Option ℕ) : Outcome l fsn r := by
  obtain ⟨hs, hr, hn, hout⟩ := h.moves
  exact .moves hs hr hn hout

theorem AcknowledgeMove.outcome {l : Link} {bsn now : ℕ} {strict : Bool}
    {a : Link × List Action × Bool} (h : AcknowledgeMove codec l bsn strict now a)
    (fsn : Option ℕ) :
    Outcome l fsn (a.1, a.2.1) := by
  cases h with
  | ignored _ _ => exact .rfl l fsn
  | abnormal _ _ _ => exact .moves Iff.rfl rfl rfl rfl
  | faulty _ _ _ hf =>
    cases hf with
    | out _ => exact .moves Iff.rfl rfl rfl rfl
    | failed hs =>
      refine .failed hs rfl rfl rfl fun msu hmem => ?_
      rcases List.mem_cons.mp hmem with heq | hmem
      · cases heq
      · exact not_deliver_failActions l _ msu hmem
  | repeated watch _ _ => exact .moves Iff.rfl rfl rfl rfl
  | advanced watch _ _ =>
    refine .moves Iff.rfl rfl rfl ?_
    dsimp only
    split
    · exact plain_armT7 _ now
    · rfl

/-- An acknowledgement in order says nothing of a failure. -/
theorem AcknowledgeMove.plain {l : Link} {bsn now : ℕ} {strict : Bool}
    {a : Link × List Action × Bool} (h : AcknowledgeMove codec l bsn strict now a)
    (ha : a.2.2 = true) : a.2.1.all Action.plain = true := by
  cases h with
  | ignored _ _ => rfl
  | abnormal _ _ _ => cases ha
  | faulty _ _ _ _ => cases ha
  | repeated _ _ _ => rfl
  | advanced _ _ _ =>
    dsimp only
    split
    · exact plain_armT7 _ now
    · rfl

theorem ReceiveMove.outcome {l : Link} {bsn fsn now : ℕ} {message : UserDataMessage}
    {r : Link × List Action} (h : ReceiveMove codec l bsn fsn message now r)
    (haligned : l.isAligned = true) : Outcome l (some fsn) r := by
  have hstarted : l.state ≠ .outOfService := by
    intro hs
    simp [isAligned, hs] at haligned
  cases h with
  | discarded ha _ => exact ha.outcome fsn
  | empty ha _ _ => exact ha.outcome fsn
  | outOfSequence ha hok _ _ =>
    obtain ⟨acked, unacked, watch, hl⟩ := ha.frame_of_accepted hok
    refine .moves ?_ ?_ ?_ (by rw [List.all_append, ha.plain hok]; rfl) <;> rw [hl]
  | delivered ha hok _ _ =>
    obtain ⟨acked, unacked, watch, hl⟩ := ha.frame_of_accepted hok
    refine .delivers _ message.msu hstarted ?_ ?_ rfl (ha.plain hok) rfl
    · simpa [isAligned, hl] using haligned
    · rw [hl]

/-- A link that enters service first. -/
theorem Outcome.entered {l : Link} {fsn : Option ℕ} {r : Link × List Action}
    (hs : l.state ≠ .outOfService) (h : Outcome l.enterService.1 fsn r) :
    Outcome l fsn (r.1, l.enterService.2 ++ r.2) := by
  have hout : ∀ out : List Action, out.all Action.plain = true →
      (l.enterService.2 ++ out).all Action.plain = true := by
    intro out hplain
    rw [List.all_append, hplain]
    rfl
  have hstate : l.enterService.1.state = .outOfService ↔ l.state = .outOfService := by
    constructor
    · intro hno
      cases hno
    · intro hno
      exact absurd hno hs
  cases h with
  | waits hst hr hn hleave hplain =>
    exact .waits (hst.trans hstate) hr hn hleave (hout _ hplain)
  | moves hst hr hn hplain => exact .moves (hst.trans hstate) hr hn (hout _ hplain)
  | failed _ hst hr hn hd =>
    refine .failed hs hst hr hn fun msu hmem => ?_
    rcases List.mem_append.mp hmem with hmem | hmem
    · simp [enterService] at hmem
    · exact hd msu hmem
  | delivers before msu _ ha hr hn hb heq =>
    refine .delivers (l.enterService.2 ++ before) msu hs ha hr hn (hout _ hb) ?_
    rw [heq, List.append_assoc]

theorem DataMove.outcome {l : Link} {bsn fsn now : ℕ} {message : UserDataMessage}
    {r : Link × List Action} (h : DataMove codec l bsn fsn message now r) :
    Outcome l (some fsn) r := by
  cases h with
  | refused _ _ =>
    refine .waits Iff.rfl rfl rfl rfl ?_
    dsimp only
    split <;> rfl
  | enter hs hr => exact (hr.outcome rfl).entered (by simp [hs])
  | received ha hr => exact hr.outcome ha

/-- A timer that runs out fails the link, or leaves what it holds as it is. -/
theorem TimeoutMove.leaves {l : Link} {timer : Timer} {now : ℕ} {r : Link × List Action}
    (h : TimeoutMove codec l timer now r) :
    (∃ reason, l.state ≠ .outOfService ∧ r = (l.failed, l.failActions codec reason)) ∨
      (r.1.state = .outOfService ↔ l.state = .outOfService) ∧ r.1.retrievable = l.retrievable ∧
        r.1.fsnIn = l.fsnIn ∧ r.1.leave = l.leave ∧ r.2.all Action.plain = true := by
  have hsaid : ∀ status, (l.sendStatus codec status statusStream).all Action.plain = true :=
    fun status => plain_sendStatus l status statusStream
  cases h with
  | stale _ => exact .inr ⟨Iff.rfl, rfl, rfl, rfl, rfl⟩
  | failed reason hs => exact .inl ⟨reason, hs, rfl⟩
  | ready hs _ _ =>
    refine .inr ⟨by simp [hs], rfl, rfl, rfl, ?_⟩
    simp [List.all_append, hsaid, Action.plain]
  | enter hs _ _ =>
    refine .inr ⟨by simp [hs, enterService], rfl, rfl, rfl, ?_⟩
    simp [List.all_append, hsaid, Action.plain, enterService]
  | repeatProving _ _ =>
    refine .inr ⟨Iff.rfl, rfl, rfl, rfl, ?_⟩
    simp [List.all_append, hsaid, Action.plain]
  | rearm _ _ _ => exact .inr ⟨Iff.rfl, rfl, rfl, rfl, plain_armT7 l now⟩

theorem EndBusyMove.outcome {l : Link} {now : ℕ} {r : Link × List Action}
    (h : EndBusyMove codec l now r) (fsn : Option ℕ) : Outcome l fsn r := by
  cases h with
  | idle _ => exact .rfl l fsn
  | flushed _ _ hq =>
    obtain ⟨fsnOut, ackDue, unacked, hr⟩ := hq.frame rfl
    refine .moves ?_ ?_ ?_ ?_
    · rw [hr]
      rfl
    · rw [hr]
      rfl
    · rw [hr]
      rfl
    · simp only [restartT7, List.all_append, List.all_cons, hq.plain]
      split <;> rfl
  | cleared _ _ => exact .moves Iff.rfl rfl rfl rfl

/-- A recovery of the peer after its BSN was applied. -/
theorem ResumeMove.moves {l : Link} {now : ℕ} {r : Link × List Action}
    (h : ResumeMove codec l now r) :
    r.1.state = .inService ∧ r.1.retrievable = l.retrievable ∧ r.1.fsnIn = l.fsnIn ∧
      r.2.all Action.plain = true := by
  have hsaid : (l.resumeActions codec).all Action.plain = true := by
    simp only [resumeActions, List.all_append, plain_sendStatus]
    split <;> rfl
  cases h with
  | busy _ => exact ⟨rfl, rfl, rfl, hsaid⟩
  | flushed _ hq =>
    obtain ⟨fsnOut, ackDue, unacked, hr⟩ := hq.frame rfl
    refine ⟨?_, ?_, ?_, by rw [List.all_append, hsaid, hq.plain]; rfl⟩ <;> rw [hr] <;> rfl

theorem StatusMove.outcome {l : Link} {status : Status} {bsn now : ℕ} {r : Link × List Action}
    (h : StatusMove codec l now status bsn r) (fsn : Option ℕ) : Outcome l fsn r := by
  cases h with
  | ignored _ _ _ => exact .rfl l fsn
  | align _ _ hs _ =>
    refine .moves ?_ ?_ ?_ ?_
    · simp [Link.align, hs]
    · simp only [Link.align]
      split <;> rfl
    · simp only [Link.align]
      split <;> rfl
    · simp [Link.align, List.all_append, plain_sendStatus, Action.plain]
  | prove _ _ hs _ =>
    refine .moves ?_ ?_ ?_ rfl
    · simp [Link.prove, hs]
    · simp only [Link.prove]
      split <;> rfl
    · simp only [Link.prove]
      split <;> rfl
  | failed _ _ hs _ => exact outcome_failed hs fsn .peerStatus
  | startOver _ hs => exact .moves (by simp [hs]) rfl rfl rfl
  | shorten _ hs => exact .moves Iff.rfl rfl rfl rfl
  | noteReady _ hs => exact .moves Iff.rfl rfl rfl rfl
  | enter _ hs =>
    refine .moves (by simp [hs, enterService]) rfl rfl ?_
    simp [List.all_append, plain_sendStatus, Action.plain, enterService]
  | outage _ hs =>
    refine .moves ?_ rfl rfl rfl
    rcases hs with hs | hs <;> simp [hs]
  | busy _ _ _ =>
    refine .moves Iff.rfl rfl rfl ?_
    dsimp only
    split <;> rfl
  | stillBusy _ _ _ => exact .rfl l fsn
  | busyEnded _ _ hr => exact hr.outcome fsn
  | acknowledge _ _ ha => exact ha.outcome fsn
  | recover _ hs ha hr =>
    obtain ⟨acked, unacked, watch, hl⟩ := ha.frame_of_accepted ha.accepted
    obtain ⟨hst, hret, hn, hout⟩ := hr.moves
    refine .moves (by simp [hst, hs]) ?_ ?_ ?_
    · rw [hret, hl]
    · rw [hn, hl]
    · rw [List.all_append, ha.plain ha.accepted, hout]
      rfl

/-! ## What an outcome keeps -/

theorem Outcome.fresh {l : Link} {fsn : Option ℕ} {r : Link × List Action} (h : Outcome l fsn r)
    (hf : l.Fresh) : r.1.Fresh := by
  intro hs
  cases h with
  | waits hst hr _ _ _ => rw [hr, hf (fun hout => hs (hst.mpr hout))]
  | moves hst hr _ _ => rw [hr, hf (fun hout => hs (hst.mpr hout))]
  | failed _ hst _ _ _ => exact absurd hst hs
  | delivers _ _ hl _ hr _ _ _ => rw [hr, hf hl]

/-- A link out of service stays so, and keeps what it has set aside. -/
theorem Outcome.out {l : Link} {fsn : Option ℕ} {r : Link × List Action} (h : Outcome l fsn r)
    (hs : l.state = .outOfService) :
    r.1.state = .outOfService ∧ r.1.retrievable = l.retrievable := by
  cases h with
  | waits hst hr _ _ _ => exact ⟨hst.mpr hs, hr⟩
  | moves hst hr _ _ => exact ⟨hst.mpr hs, hr⟩
  | failed hl _ _ _ _ => exact absurd hs hl
  | delivers _ _ hl _ _ _ _ _ => exact absurd hs hl

theorem Outcome.plain_of_out {l : Link} {fsn : Option ℕ} {r : Link × List Action}
    (h : Outcome l fsn r) (hs : l.state = .outOfService) : r.2.all Action.plain = true := by
  cases h with
  | waits _ _ _ _ hout => exact hout
  | moves _ _ _ hout => exact hout
  | failed hl _ _ _ _ => exact absurd hs hl
  | delivers _ _ hl _ _ _ _ _ => exact absurd hs hl

/-- A link that fails sets all it held aside. -/
theorem Outcome.setAside {l : Link} {fsn : Option ℕ} {r : Link × List Action} (h : Outcome l fsn r)
    (hl : l.state ≠ .outOfService) (hs : r.1.state = .outOfService) :
    r.1.retrievable = some l.leave := by
  cases h with
  | waits hst _ _ _ _ => exact absurd (hst.mp hs) hl
  | moves hst _ _ _ => exact absurd (hst.mp hs) hl
  | failed _ _ hr _ _ => exact hr
  | delivers _ _ _ ha _ _ _ _ => simp [isAligned, hs] at ha

theorem Outcome.aligned {l : Link} {fsn : Option ℕ} {r : Link × List Action} (h : Outcome l fsn r)
    {msu : Msu} (hd : .deliver msu ∈ r.2) : r.1.isAligned = true := by
  cases h with
  | waits _ _ _ _ hout => exact absurd hd (not_deliver_of_plain hout msu)
  | moves _ _ _ hout => exact absurd hd (not_deliver_of_plain hout msu)
  | failed _ _ _ _ hno => exact absurd hd (hno msu)
  | delivers _ _ _ ha _ _ _ _ => exact ha

theorem Outcome.reported {l : Link} {fsn : Option ℕ} {r : Link × List Action} (h : Outcome l fsn r)
    {reason : Failure} (hd : .outOfService reason ∈ r.2) : r.1.state = .outOfService := by
  cases h with
  | waits _ _ _ _ hout => exact absurd hd (not_outOfService_of_plain hout reason)
  | moves _ _ _ hout => exact absurd hd (not_outOfService_of_plain hout reason)
  | failed _ hs _ _ _ => exact hs
  | delivers before msu _ _ _ _ hb hout =>
    rw [hout] at hd
    rcases List.mem_append.mp hd with hd | hd
    · exact absurd hd (not_outOfService_of_plain hb reason)
    · simp at hd

/-- The number of the last message accepted changes with a message handed over only. -/
theorem Outcome.number {l : Link} {fsn : Option ℕ} {r : Link × List Action} (h : Outcome l fsn r) :
    (∃ n msu, fsn = some n ∧ .deliver msu ∈ r.2 ∧ r.1.fsnIn = n % 0x1000000) ∨
      (∀ msu, .deliver msu ∉ r.2) ∧ r.1.fsnIn = l.fsnIn := by
  cases h with
  | waits _ _ hn _ hout => exact .inr ⟨not_deliver_of_plain hout, hn⟩
  | moves _ _ hn hout => exact .inr ⟨not_deliver_of_plain hout, hn⟩
  | failed _ _ _ hn hd => exact .inr ⟨hd, hn⟩
  | delivers before msu _ _ _ hn _ hout => exact .inl ⟨_, msu, Eq.refl _, by simp [hout], hn⟩

/-- What a failure sets aside is named by the number of the last message accepted. -/
def Named (l : Link) : Prop := ∀ held, l.retrievable = some held → held.bsnt = l.fsnIn

theorem Outcome.named {l : Link} {fsn : Option ℕ} {r : Link × List Action} (h : Outcome l fsn r)
    (hf : l.Fresh) (hl : l.Named) : r.1.Named := by
  intro held hheld
  cases h with
  | waits _ hr hn _ _ => rw [hn, hl held (hr ▸ hheld)]
  | moves _ hr hn _ => rw [hn, hl held (hr ▸ hheld)]
  | failed _ _ hr hn _ =>
    obtain rfl : l.leave = held := Option.some.inj (hr ▸ hheld)
    exact hn.symm
  | delivers _ _ hst _ hr _ _ _ =>
    rw [hr, hf hst] at hheld
    cases hheld

theorem Named.bsnt {l : Link} (h : l.Named) : l.bsnt = l.fsnIn := by
  unfold Link.bsnt
  split
  next held hheld => exact h held hheld
  next => rfl

/-! ## Several operations -/

/-- A link that only waited is as good as before. -/
theorem Outcome.after_wait {l l' : Link} {fsn : Option ℕ} {out : List Action}
    {r : Link × List Action}
    (hs : l'.state = .outOfService ↔ l.state = .outOfService)
    (hr : l'.retrievable = l.retrievable) (hn : l'.fsnIn = l.fsnIn) (hleave : l'.leave = l.leave)
    (hout : out.all Action.plain = true) (h : Outcome l' fsn r) :
    Outcome l fsn (r.1, out ++ r.2) := by
  cases h with
  | waits hst hret hnum hl hplain =>
    exact .waits (hst.trans hs) (hret.trans hr) (hnum.trans hn) (hl.trans hleave)
      (by rw [List.all_append, hout, hplain]; rfl)
  | moves hst hret hnum hplain =>
    exact .moves (hst.trans hs) (hret.trans hr) (hnum.trans hn)
      (by rw [List.all_append, hout, hplain]; rfl)
  | failed hl hst hret hnum hd =>
    refine .failed (fun hno => hl (hs.mpr hno)) hst (hret.trans (by rw [hleave])) (hnum.trans hn) ?_
    intro msu hmem
    rcases List.mem_append.mp hmem with hmem | hmem
    · exact not_deliver_of_plain hout msu hmem
    · exact hd msu hmem
  | delivers before msu hl ha hret hnum hb heq =>
    refine .delivers (out ++ before) msu (fun hno => hl (hs.mpr hno)) ha (hret.trans hr) hnum
      (by rw [List.all_append, hout, hb]; rfl) ?_
    rw [heq, List.append_assoc]

/-- What comes after a failure changes nothing of it. -/
theorem Outcome.after_failure {l l' : Link} {fsn : Option ℕ} {out : List Action}
    {r : Link × List Action} (hl : l.state ≠ .outOfService) (hs : l'.state = .outOfService)
    (hr : l'.retrievable = some l.leave) (hn : l'.fsnIn = l.fsnIn)
    (hd : ∀ msu, .deliver msu ∉ out) (h : Outcome l' fsn r) : Outcome l fsn (r.1, out ++ r.2) := by
  obtain ⟨hst, hret⟩ := h.out hs
  have hnone : ∀ msu, .deliver msu ∉ r.2 := by
    intro msu hmem
    have haligned := h.aligned hmem
    simp [isAligned, hst] at haligned
  refine .failed hl hst (hret.trans hr) ?_ fun msu hmem => ?_
  · obtain ⟨-, msu, -, hmem, -⟩ | ⟨-, hnum⟩ := h.number
    · exact absurd hmem (hnone msu)
    · exact hnum.trans hn
  · rcases List.mem_append.mp hmem with hmem | hmem
    · exact hd msu hmem
    · exact hnone msu hmem

/-- A timer runs out before whatever else. -/
theorem Outcome.after_timeout {l : Link} {timer : Timer} {now : ℕ} {fsn : Option ℕ}
    {q r : Link × List Action}
    (hq : TimeoutMove codec l timer now q) (h : Outcome q.1 fsn r) :
    Outcome l fsn (r.1, q.2 ++ r.2) := by
  obtain ⟨reason, hs, rfl⟩ | ⟨hs, hr, hn, hleave, hout⟩ := hq.leaves
  · exact h.after_failure hs (failed_state l) (Eq.refl _) (Eq.refl _)
      (not_deliver_failActions l reason)
  · exact h.after_wait hs hr hn hleave hout

end Link

end SiphonSigtran.M2pa
