import SiphonSigtran.Lib.Machine
import SiphonSigtran.Lib.Serial
import SiphonSigtran.M2pa.LinkMoves

/-!
# Receive side of a link

From one start to the next a link delivers the messages `0, 1, 2, …` of its peer,
and every frame it sends carries the number of the last delivered one. Once the
due acknowledgement is flushed that number has been sent on the data stream, and
one empty message at most was spent on it. The peer is arbitrary.
-/

namespace SiphonSigtran.M2pa

open Lib.Serial

namespace Link

open Lib.Machine

variable {codec : Codec}

/-! ## Counters -/

/-- The counters of a link are 24-bit numbers. -/
structure Counted (l : Link) : Prop where
  acked_lt : l.acked < 0x1000000
  fsnIn_lt : l.fsnIn < 0x1000000
  fsnOut_lt : l.fsnOut < 0x1000000

theorem Counted.of_eq {l l' : Link} (h : l.Counted) (hacked : l'.acked = l.acked)
    (hin : l'.fsnIn = l.fsnIn) (hout : l'.fsnOut = l.fsnOut) : l'.Counted :=
  ⟨hacked ▸ h.acked_lt, hin ▸ h.fsnIn_lt, hout ▸ h.fsnOut_lt⟩

theorem Counted.failed {l : Link} (h : l.Counted) : l.failed.Counted := h.of_eq rfl rfl rfl

theorem FailMove.counted {l : Link} {reason : Failure} {r : Link × List Action}
    (h : FailMove codec l reason r) (hc : l.Counted) : r.1.Counted := by
  cases h with
  | out _ => exact hc
  | failed _ => exact hc.failed

theorem TransmitMove.counted {l : Link} {msu : Msu} {now : ℕ} {r : Link × List Action}
    (h : TransmitMove codec l msu now r) (hc : l.Counted) : r.1.Counted := by
  cases h with
  | sent frame _ => exact ⟨hc.acked_lt, hc.fsnIn_lt, Nat.mod_lt _ (by decide)⟩
  | refused _ => exact hc

theorem QueueMove.counted {now : ℕ} {queue : List Msu} {l : Link} {r : Link × List Action}
    (h : QueueMove codec now queue l r) (hc : l.Counted) : r.1.Counted := by
  induction h with
  | nil l => exact hc
  | cons hfirst _ ih => exact ih (hfirst.counted (hc.of_eq rfl rfl rfl))

theorem AcknowledgeMove.counted {l : Link} {bsn now : ℕ} {strict : Bool}
    {a : Link × List Action × Bool} (h : AcknowledgeMove codec l bsn strict now a)
    (hc : l.Counted) : a.1.Counted := by
  cases h with
  | ignored _ _ => exact hc
  | abnormal _ _ _ => exact hc.of_eq rfl rfl rfl
  | faulty _ _ _ hf => exact hf.counted hc
  | repeated _ _ _ => exact hc.of_eq rfl rfl rfl
  | advanced _ _ _ => exact ⟨Nat.mod_lt _ (by decide), hc.fsnIn_lt, hc.fsnOut_lt⟩

theorem ReceiveMove.counted {l : Link} {bsn fsn now : ℕ} {message : UserDataMessage}
    {r : Link × List Action} (h : ReceiveMove codec l bsn fsn message now r) (hc : l.Counted) :
    r.1.Counted := by
  cases h with
  | discarded ha _ => exact ha.counted hc
  | empty ha _ _ => exact ha.counted hc
  | outOfSequence ha _ _ _ => exact ha.counted hc
  | delivered ha _ _ _ =>
    have hack := ha.counted hc
    exact ⟨hack.acked_lt, Nat.mod_lt _ (by decide), hack.fsnOut_lt⟩

theorem ResumeMove.counted {l : Link} {now : ℕ} {r : Link × List Action}
    (h : ResumeMove codec l now r) (hc : l.Counted) : r.1.Counted := by
  have hresumed : l.resumed.Counted := ⟨hc.acked_lt, hc.fsnIn_lt, hc.acked_lt⟩
  cases h with
  | busy _ => exact hresumed
  | flushed _ hf => exact hf.counted hresumed

theorem StatusMove.counted {l : Link} {status : Status} {bsn now : ℕ} {r : Link × List Action}
    (h : StatusMove codec l now status bsn r) (hc : l.Counted) : r.1.Counted := by
  cases h with
  | ignored _ _ _ => exact hc
  | align _ _ _ _ => refine hc.of_eq ?_ ?_ ?_ <;> unfold Link.align <;> split <;> rfl
  | prove _ _ _ _ => refine hc.of_eq ?_ ?_ ?_ <;> unfold Link.prove <;> split <;> rfl
  | failed _ _ _ _ => exact hc.failed
  | startOver _ _ => exact hc.of_eq rfl rfl rfl
  | shorten _ _ => exact hc.of_eq rfl rfl rfl
  | noteReady _ _ => exact hc.of_eq rfl rfl rfl
  | enter _ _ => exact hc.of_eq rfl rfl rfl
  | outage _ _ => exact hc.of_eq rfl rfl rfl
  | busy _ _ _ => exact hc.of_eq rfl rfl rfl
  | stillBusy _ _ _ => exact hc
  | busyEnded _ _ hr =>
    cases hr with
    | idle _ => exact hc
    | flushed _ _ hf => exact hf.counted (hc.of_eq rfl rfl rfl)
    | cleared _ _ => exact hc.of_eq rfl rfl rfl
  | acknowledge _ _ ha => exact ha.counted hc
  | recover _ _ ha hr => exact hr.counted (ha.counted hc)

/-- Every call keeps the counters in range. -/
theorem StepMove.counted {l : Link} {now : ℕ} {call : Call} {r : Link × List Action}
    (h : StepMove codec l now call r) (hc : l.Counted) : r.1.Counted := by
  cases h with
  | established => exact hc
  | startIgnored _ => exact hc
  | started _ =>
    have hmask : seqMask < 0x1000000 := by decide
    exact ⟨hmask, hmask, hmask⟩
  | fail _ hm => exact hm.counted hc
  | retrieve _ => exact hc.of_eq rfl rfl rfl
  | detach => exact hc.of_eq rfl rfl rfl
  | abandon => exact hc.of_eq rfl rfl rfl
  | send _ hm =>
    cases hm with
    | transmitted _ _ ht => exact ht.counted hc
    | congested _ _ _ => exact hc
    | queued _ _ _ => exact hc.of_eq rfl rfl rfl
    | refused _ => exact hc
  | timeout _ hm =>
    cases hm with
    | stale _ => exact hc
    | failed _ _ => exact hc.failed
    | ready _ _ _ => exact hc.of_eq rfl rfl rfl
    | enter _ _ _ => exact hc.of_eq rfl rfl rfl
    | repeatProving _ _ => exact hc
    | rearm _ _ _ => exact hc
  | onStatus _ _ hm => exact hm.counted hc
  | onData _ _ _ hm =>
    cases hm with
    | refused _ _ => exact hc
    | enter _ hr => exact hr.counted (hc.of_eq rfl rfl rfl)
    | received _ hr => exact hr.counted hc
  | flushIgnored _ => exact hc.of_eq rfl rfl rfl
  | flushed _ _ => exact hc.of_eq rfl rfl rfl

/-! ## What each operation sends and delivers -/

/-- The action delivers nothing, and a frame it sends carries this BSN. -/
def Acknowledges (codec : Codec) (bsn : ℕ) : Action → Prop
  | .send frame _ _ => ∃ m, codec.decode frame = some m ∧ m.bsn = bsn
  | .deliver _ => False
  | _ => True

variable {bsn : ℕ}

@[simp] theorem acknowledges_start (t : Timer) (n : ℕ) :
    Acknowledges codec bsn (.start t n) := trivial
@[simp] theorem acknowledges_stop (t : Timer) : Acknowledges codec bsn (.stop t) := trivial
@[simp] theorem acknowledges_inService : Acknowledges codec bsn .inService := trivial
@[simp] theorem acknowledges_outOfService (r : Failure) :
    Acknowledges codec bsn (.outOfService r) := trivial
@[simp] theorem acknowledges_remoteProcessorOutage (b : Bool) :
    Acknowledges codec bsn (.remoteProcessorOutage b) := trivial
@[simp] theorem acknowledges_discarded (r : Discard) (n : ℕ) :
    Acknowledges codec bsn (.discarded r n) := trivial

theorem Counted.acknowledges_sendStatus {l : Link} (h : l.Counted) (codec : Codec)
    (status : Status) (stream : ℕ) :
    ∀ a ∈ l.sendStatus codec status stream, Acknowledges codec l.fsnIn a := by
  have hsendable : (M2paMessage.linkStatus l.fsnIn l.fsnOut status).Sendable :=
    ⟨Nat.le_of_lt_succ h.fsnIn_lt, Nat.le_of_lt_succ h.fsnOut_lt⟩
  unfold sendStatus sendFrame
  split
  next frame hframe =>
    simp only [List.mem_singleton, forall_eq]
    exact ⟨_, codec.decode_encode hsendable hframe, rfl⟩
  next => simp

theorem acknowledges_armT7 (l : Link) (now : ℕ) :
    ∀ a ∈ l.armT7 now, Acknowledges codec bsn a := by
  unfold armT7
  split <;> simp

theorem Counted.acknowledges_failActions {l : Link} (h : l.Counted) (codec : Codec)
    (reason : Failure) : ∀ a ∈ l.failActions codec reason, Acknowledges codec l.fsnIn a := by
  have hstatus := h.acknowledges_sendStatus codec .outOfService statusStream
  unfold failActions
  split
  · simp [Timer.all]
  · simpa [Timer.all, or_imp, forall_and] using hstatus

/-- User Data is sent, which carries the BSN. -/
def SendsData (out : List Action) : Prop := ∃ frame si, .send frame dataStream si ∈ out

theorem SendsData.append_left {xs : List Action} (h : SendsData xs) (ys : List Action) :
    SendsData (xs ++ ys) := by
  obtain ⟨frame, si, hmem⟩ := h
  exact ⟨frame, si, List.mem_append_left ys hmem⟩

theorem SendsData.append_right {ys : List Action} (h : SendsData ys) (xs : List Action) :
    SendsData (xs ++ ys) := by
  obtain ⟨frame, si, hmem⟩ := h
  exact ⟨frame, si, List.mem_append_right xs hmem⟩

/-- A result that delivers nothing: what it sends acknowledges what was delivered, and a due
acknowledgement stays due, is sent with User Data, or goes with the service. -/
structure Receipted (codec : Codec) (l : Link) (r : Link × List Action) : Prop where
  acknowledges : ∀ a ∈ r.2, Acknowledges codec l.fsnIn a
  fsnIn : r.1.fsnIn = l.fsnIn
  started : r.1.state ≠ .outOfService → l.state ≠ .outOfService
  left : r.1.isAligned = false → r.1.state ≠ .outOfService → l.isAligned = false
  due : r.1.ackDue = true → l.ackDue = true
  settled : r.1.isAligned = true → l.ackDue = true → r.1.ackDue = true ∨ SendsData r.2

theorem Receipted.rfl (l : Link) : Receipted codec l (l, []) :=
  ⟨by simp, Eq.refl _, id, fun h _ => h, id, fun _ h => .inl h⟩

/-- A result with the due acknowledgement of before, for a link that stays started. -/
theorem Receipted.of_due {l : Link} {r : Link × List Action}
    (hout : ∀ a ∈ r.2, Acknowledges codec l.fsnIn a) (hin : r.1.fsnIn = l.fsnIn)
    (hs : l.state ≠ .outOfService) (ha : r.1.isAligned = false → l.isAligned = false)
    (hdue : r.1.ackDue = l.ackDue) : Receipted codec l r :=
  ⟨hout, hin, fun _ => hs, fun h _ => ha h, fun h => hdue ▸ h, fun _ h => .inl (hdue ▸ h)⟩

/-- A result in the state of before. -/
theorem Receipted.of_state {l : Link} {r : Link × List Action}
    (hout : ∀ a ∈ r.2, Acknowledges codec l.fsnIn a) (hin : r.1.fsnIn = l.fsnIn)
    (hs : r.1.state = l.state) (hdue : r.1.ackDue = l.ackDue) : Receipted codec l r :=
  ⟨hout, hin, fun h => hs ▸ h, fun h _ => by simpa [isAligned, hs] using h, fun h => hdue ▸ h,
    fun _ h => .inl (hdue ▸ h)⟩

theorem Counted.receipted_failed {l : Link} (h : l.Counted) (reason : Failure) :
    Receipted codec l (l.failed, l.failActions codec reason) :=
  ⟨h.acknowledges_failActions codec reason, Eq.refl _, fun hs => absurd (Eq.refl _) hs,
    fun _ hs => absurd (Eq.refl _) hs, fun hd => by simp [Link.failed] at hd,
    fun ha => by simp at ha⟩

theorem FailMove.receipted {l : Link} {reason : Failure} {r : Link × List Action}
    (h : FailMove codec l reason r) (hc : l.Counted) : Receipted codec l r := by
  cases h with
  | out _ => exact .rfl l
  | failed _ => exact hc.receipted_failed reason

/-- User Data carries the BSN: sending it leaves no acknowledgement due. -/
structure Transmits (codec : Codec) (l : Link) (r : Link × List Action) : Prop where
  acknowledges : ∀ a ∈ r.2, Acknowledges codec l.fsnIn a
  fsnIn : r.1.fsnIn = l.fsnIn
  state : r.1.state = l.state
  due : r.1.ackDue = l.ackDue ∨ r.1.ackDue = false ∧ SendsData r.2

theorem TransmitMove.transmits {l : Link} {msu : Msu} {now : ℕ} {r : Link × List Action}
    (h : TransmitMove codec l msu now r) (hc : l.Counted) : Transmits codec l r := by
  cases h with
  | sent frame hframe =>
    have hsendable :
        (M2paMessage.userData l.fsnIn ((l.fsnOut + 1) % 0x1000000) ⟨0, msu⟩).Sendable :=
      ⟨Nat.le_of_lt_succ hc.fsnIn_lt, Nat.le_of_lt_succ (Nat.mod_lt _ (by decide)), rfl⟩
    have hsent : Acknowledges codec l.fsnIn (.send frame dataStream (serviceIndicator msu)) :=
      ⟨_, codec.decode_encode hsendable hframe, rfl⟩
    refine ⟨?_, rfl, rfl, .inr ⟨rfl, frame, serviceIndicator msu, by simp⟩⟩
    split <;> simpa using hsent
  | refused _ => exact ⟨by simp, rfl, rfl, .inl rfl⟩

theorem QueueMove.transmits {now : ℕ} {queue : List Msu} {l : Link} {r : Link × List Action}
    (h : QueueMove codec now queue l r) (hc : l.Counted) : Transmits codec l r := by
  induction h with
  | nil l => exact ⟨by simp, rfl, rfl, .inl rfl⟩
  | @cons _ rest l first others hfirst _ ih =>
    have hpopped : { l with unsent := rest }.Counted := hc.of_eq rfl rfl rfl
    have hfirstc := hfirst.counted hpopped
    have ht := hfirst.transmits hpopped
    have hrest := ih hfirstc
    have hin : first.1.fsnIn = l.fsnIn := ht.fsnIn
    refine ⟨?_, hrest.fsnIn.trans hin, hrest.state.trans ht.state, ?_⟩
    · intro a ha
      rcases List.mem_append.mp ha with ha | ha
      · exact ht.acknowledges a ha
      · rw [← hin]
        exact hrest.acknowledges a ha
    · obtain hlater | ⟨hlater, hsent⟩ := hrest.due
      · obtain hnow | ⟨hnow, hsent⟩ := ht.due
        · exact .inl (hlater.trans hnow)
        · exact .inr ⟨hlater.trans hnow, hsent.append_left _⟩
      · exact .inr ⟨hlater, hsent.append_right _⟩

theorem Transmits.receipted {l : Link} {r : Link × List Action} (h : Transmits codec l r) :
    Receipted codec l r := by
  refine ⟨h.acknowledges, h.fsnIn, fun hs => h.state ▸ hs,
    fun ha _ => by simpa [isAligned, h.state] using ha, fun hd => ?_, fun _ hd => ?_⟩
  · obtain hdue | ⟨hdue, -⟩ := h.due
    · exact hdue ▸ hd
    · simp [hdue] at hd
  · obtain hdue | ⟨-, hsent⟩ := h.due
    · exact .inl (hdue ▸ hd)
    · exact .inr hsent

/-- A result after actions of the link that change nothing but say the same. -/
theorem Receipted.after {l l' : Link} {out : List Action} {r : Link × List Action}
    (h : Receipted codec l' r) (hout : ∀ a ∈ out, Acknowledges codec l.fsnIn a)
    (hin : l'.fsnIn = l.fsnIn) (hs : l.state ≠ .outOfService)
    (ha : l.isAligned = true → l'.isAligned = true)
    (hdue : l'.ackDue = l.ackDue) : Receipted codec l (r.1, out ++ r.2) := by
  refine ⟨?_, h.fsnIn.trans hin, fun _ => hs, fun hleft hs' => ?_, fun hd => hdue ▸ h.due hd,
    fun haligned hd => ?_⟩
  · intro a hmem
    rcases List.mem_append.mp hmem with hmem | hmem
    · exact hout a hmem
    · rw [← hin]
      exact h.acknowledges a hmem
  · have hbefore := h.left hleft hs'
    by_contra hb
    simp [ha (by simpa using hb)] at hbefore
  · obtain hstill | hsent := h.settled haligned (hdue ▸ hd)
    · exact .inl hstill
    · exact .inr (hsent.append_right out)

theorem SendMove.receipted {l : Link} {msu : Msu} {now : ℕ} {r : Link × List Action}
    (h : SendMove codec l msu now r) (hc : l.Counted) : Receipted codec l r := by
  cases h with
  | transmitted _ _ ht => exact (ht.transmits hc).receipted
  | congested _ _ _ => exact .of_state (by simp) rfl rfl rfl
  | queued _ _ _ => exact .of_state (by simp) rfl rfl rfl
  | refused _ => exact .of_state (by simp) rfl rfl rfl

theorem AcknowledgeMove.receipted {l : Link} {bsn now : ℕ} {strict : Bool}
    {a : Link × List Action × Bool} (h : AcknowledgeMove codec l bsn strict now a)
    (hc : l.Counted) : Receipted codec l (a.1, a.2.1) := by
  cases h with
  | ignored _ _ => exact .rfl l
  | abnormal _ _ _ => exact .of_state (by simp) rfl rfl rfl
  | faulty _ _ _ hf =>
    have hfailed := hf.receipted hc
    refine ⟨?_, hfailed.fsnIn, hfailed.started, hfailed.left, hfailed.due, fun ha hd => ?_⟩
    · simpa using hfailed.acknowledges
    · obtain hstill | hsent := hfailed.settled ha hd
      · exact .inl hstill
      · exact .inr (hsent.append_right [.discarded .rxAbnormalBsn 1])
  | repeated _ _ _ => exact .of_state (by simp) rfl rfl rfl
  | advanced _ _ _ =>
    refine .of_state ?_ rfl rfl rfl
    split
    · exact acknowledges_armT7 _ now
    · simp

theorem TimeoutMove.receipted {l : Link} {timer : Timer} {now : ℕ} {r : Link × List Action}
    (h : TimeoutMove codec l timer now r) (hc : l.Counted) : Receipted codec l r := by
  have hstatus := hc.acknowledges_sendStatus codec
  cases h with
  | stale _ => exact .rfl l
  | failed reason _ => exact hc.receipted_failed reason
  | ready hs _ _ =>
    refine .of_due ?_ rfl (by simp [hs]) (fun _ => by simp [isAligned, hs]) rfl
    simpa [or_imp, forall_and] using hstatus .ready statusStream
  | enter hs _ _ =>
    refine .of_due ?_ rfl (by simp [hs]) (fun ha => by simp [isAligned, enterService] at ha) rfl
    simpa [or_imp, forall_and, enterService] using hstatus .ready statusStream
  | repeatProving _ _ =>
    refine .of_state ?_ rfl rfl rfl
    simpa [or_imp, forall_and] using hstatus l.provingStatus statusStream
  | rearm _ _ _ => exact .of_state (acknowledges_armT7 l now) rfl rfl rfl

theorem EndBusyMove.receipted {l : Link} {now : ℕ} {r : Link × List Action}
    (h : EndBusyMove codec l now r) (hc : l.Counted) : Receipted codec l r := by
  cases h with
  | idle _ => exact .rfl l
  | @flushed r _ hs hf =>
    have hrestarted : ({ l with remoteBusy := false }.restartT7 now).1.Counted :=
      hc.of_eq rfl rfl rfl
    refine ((hf.transmits hrestarted).receipted).after ?_ rfl (by simp [hs]) id rfl
    simp only [restartT7]
    split <;> simp
  | cleared _ _ => exact .of_state (by simp) rfl rfl rfl

theorem ResumeMove.receipted {l : Link} {now : ℕ} {r : Link × List Action}
    (h : ResumeMove codec l now r) (hc : l.Counted) (hs : l.state ≠ .outOfService) :
    Receipted codec l r := by
  have hresumed : l.resumed.Counted := ⟨hc.acked_lt, hc.fsnIn_lt, hc.acked_lt⟩
  have hout : ∀ a ∈ l.resumeActions codec, Acknowledges codec l.fsnIn a := by
    have hstatus := hresumed.acknowledges_sendStatus codec .ready dataStream
    intro a ha
    unfold resumeActions at ha
    simp only [List.mem_append] at ha
    rcases ha with ha | ha | ha
    · split at ha <;> simp at ha
      rw [ha]
      trivial
    · exact hstatus a ha
    · rw [List.mem_singleton.mp ha]
      trivial
  cases h with
  | busy _ => exact .of_due hout rfl hs (fun ha => by simp [isAligned, resumed] at ha) rfl
  | flushed _ hf =>
    exact ((hf.transmits hresumed).receipted).after hout rfl hs (fun _ => rfl) rfl

theorem Counted.receipted_align {l : Link} (h : l.Counted) (hs : l.state = .notAligned)
    (status : Status) : Receipted codec l (l.align codec status) := by
  have hin : (l.align codec status).1.fsnIn = l.fsnIn := by
    unfold Link.align
    split <;> rfl
  have hafter : (l.align codec status).1.Counted := by
    refine h.of_eq ?_ hin ?_ <;> unfold Link.align <;> split <;> rfl
  refine .of_due ?_ hin (by simp [hs]) (fun _ => by simp [isAligned, hs]) ?_
  · have hstatus := hafter.acknowledges_sendStatus codec (l.align codec status).1.provingStatus
      statusStream
    change ∀ a ∈ .stop .t2 ::
      (l.align codec status).1.sendStatus codec (l.align codec status).1.provingStatus
        statusStream ++ [.start .t3 (l.align codec status).1.timers.t3], _
    rw [← hin]
    simpa [or_imp, forall_and] using hstatus
  · unfold Link.align
    split <;> rfl

theorem StatusMove.receipted {l : Link} {status : Status} {bsn now : ℕ}
    {r : Link × List Action} (h : StatusMove codec l now status bsn r) (hc : l.Counted) :
    Receipted codec l r := by
  cases h with
  | ignored _ _ _ => exact .rfl l
  | align _ _ hs _ => exact hc.receipted_align hs status
  | prove _ _ hs _ =>
    refine .of_due (by simp [Link.prove]) ?_ (by simp [hs])
      (fun _ => by simp [isAligned, hs]) ?_ <;> unfold Link.prove <;> split <;> rfl
  | failed _ _ _ _ => exact hc.receipted_failed _
  | startOver _ hs =>
    exact .of_due (by simp) rfl (by simp [hs]) (fun _ => by simp [isAligned, hs]) rfl
  | shorten _ _ => exact .of_state (by simp) rfl rfl rfl
  | noteReady _ _ => exact .of_state (by simp) rfl rfl rfl
  | enter _ hs =>
    refine .of_due ?_ rfl (by simp [hs]) (fun ha => by simp [isAligned, enterService] at ha) rfl
    simpa [or_imp, forall_and, enterService] using
      hc.acknowledges_sendStatus codec .ready statusStream
  | outage _ hs =>
    exact .of_due (by simp) rfl (by rcases hs with hs | hs <;> simp [hs])
      (fun ha => by simp [isAligned] at ha) rfl
  | busy _ _ _ =>
    refine .of_state ?_ rfl rfl rfl
    split <;> simp
  | stillBusy _ _ _ => exact .rfl l
  | busyEnded _ _ hr => exact hr.receipted hc
  | acknowledge _ _ ha => exact ha.receipted hc
  | recover _ hs ha hr =>
    have hack := ha.receipted hc
    obtain ⟨acked, unacked, watch, hl⟩ := ha.frame_of_accepted ha.accepted
    exact (hr.receipted (ha.counted hc) (by simp [hl, hs])).after hack.acknowledges hack.fsnIn
      (by simp [hs]) (fun haligned => by rw [hl]; exact haligned) (by rw [hl])

/-- A message delivered: in sequence, with a BSN accepted, at a link in service. -/
structure Delivers (codec : Codec) (l : Link) (bsn fsn : ℕ) (message : UserDataMessage)
    (r : Link × List Action) : Prop where
  out : ∃ before, r.2 = before ++ [.deliver message.msu] ∧
    ∀ a ∈ before, Acknowledges codec l.fsnIn a
  accepts : l.Accepts bsn
  next : fsn % 0x1000000 = (l.fsnIn + 1) % 0x1000000
  fsnIn : r.1.fsnIn = fsn % 0x1000000
  due : r.1.ackDue = true
  aligned : r.1.isAligned = true
  started : l.state ≠ .outOfService

theorem AcknowledgeMove.accepts {l : Link} {bsn now : ℕ} {a : Link × List Action × Bool}
    (h : AcknowledgeMove codec l bsn true now a) (ha : a.2.2 = true) : l.Accepts bsn := by
  cases h with
  | ignored _ hs => cases hs
  | abnormal _ _ _ => cases ha
  | faulty _ _ _ _ => cases ha
  | repeated _ haccepts _ => exact haccepts
  | advanced _ haccepts _ => exact haccepts

theorem ReceiveMove.receipted_or_delivers {l : Link} {bsn fsn now : ℕ}
    {message : UserDataMessage} {r : Link × List Action}
    (h : ReceiveMove codec l bsn fsn message now r) (hc : l.Counted)
    (haligned : l.isAligned = true) :
    Receipted codec l r ∨ Delivers codec l bsn fsn message r := by
  cases h with
  | discarded ha _ => exact .inl (ha.receipted hc)
  | empty ha _ _ => exact .inl (ha.receipted hc)
  | outOfSequence ha _ _ _ =>
    have hack := ha.receipted hc
    refine .inl ⟨?_, hack.fsnIn, hack.started, hack.left, hack.due, fun hafter hd => ?_⟩
    · simpa [or_imp, forall_and] using hack.acknowledges
    · obtain hstill | hsent := hack.settled hafter hd
      · exact .inl hstill
      · exact .inr (hsent.append_left _)
  | delivered ha hok _ hf =>
    have hack := ha.receipted hc
    obtain ⟨acked, unacked, watch, hl⟩ := ha.frame_of_accepted hok
    have hin : _ = l.fsnIn := hack.fsnIn
    refine .inr ⟨⟨_, rfl, hack.acknowledges⟩, ha.accepts hok, ?_, rfl, rfl, ?_, ?_⟩
    · rw [hf, hin]
    · simpa [isAligned, hl] using haligned
    · rintro hs
      simp [isAligned, hs] at haligned

theorem DataMove.receipted_or_delivers {l : Link} {bsn fsn now : ℕ} {message : UserDataMessage}
    {r : Link × List Action} (h : DataMove codec l bsn fsn message now r) (hc : l.Counted) :
    Receipted codec l r ∨ Delivers codec l bsn fsn message r := by
  cases h with
  | refused _ _ =>
    refine .inl (.of_state ?_ rfl rfl rfl)
    split <;> simp
  | @enter r hs hr =>
    have hentered : l.enterService.1.Counted := hc.of_eq rfl rfl rfl
    have hsaid : ∀ a ∈ l.enterService.2, Acknowledges codec l.fsnIn a := by simp [enterService]
    obtain hreceived | hdelivered := hr.receipted_or_delivers hentered rfl
    · exact .inl (hreceived.after hsaid rfl (by simp [hs]) (fun _ => rfl) rfl)
    · obtain ⟨before, hout, hbefore⟩ := hdelivered.out
      refine .inr ⟨⟨l.enterService.2 ++ before, ?_, ?_⟩, hdelivered.accepts, hdelivered.next,
        hdelivered.fsnIn, hdelivered.due, hdelivered.aligned, by simp [hs]⟩
      · rw [hout, List.append_assoc]
      · exact List.forall_mem_append.mpr ⟨hsaid, hbefore⟩
  | received ha hr => exact hr.receipted_or_delivers hc ha

/-! ## Runs -/

/-- The FSN a call brings. -/
def Call.fsn : Call → ℕ
  | .onData _ fsn _ => fsn % 0x1000000
  | _ => 0

/-- What an observer keeps from one start to the next: the FSNs of the messages delivered,
and since the last of them whether a frame with its FSN left on the data stream, whether
encoding refused a frame, and how many frames a flush sent. -/
structure Receipt where
  fsns : List ℕ
  told : Bool
  refused : Bool
  empties : ℕ
  deriving DecidableEq

def Receipt.start : Receipt := ⟨[], false, false, 0⟩

/-- The FSN of the last message delivered, all ones before the first. -/
def Receipt.last (g : Receipt) : ℕ := Lib.Serial.last 0x1000000 g.fsns.length

def noteAction (codec : Codec) (call : Call) (g : Receipt) : Action → Receipt
  | .deliver _ => ⟨g.fsns ++ [call.fsn], false, false, 0⟩
  | .send frame stream _ =>
    { g with
      told := g.told || (stream = dataStream &&
        (codec.decode frame).map M2paMessage.bsn = some g.last)
      empties := if call = .flushAck then g.empties + 1 else g.empties }
  | .discarded .encode _ => { g with refused := true }
  | _ => g

/-- The observer before the actions of a call. -/
def reopen (g : Receipt) (l : Link) (call : Call) : Receipt :=
  if call = .start ∧ l.state = .outOfService then .start else g

def noteReceipt (codec : Codec) (g : Receipt) (l : Link) (e : Event) (r : Link × List Action) :
    Receipt := r.2.foldl (noteAction codec e.call) (reopen g l e.call)

/-- Each frame carries the FSN of the message delivered last before it. -/
def CarryLast (codec : Codec) (call : Call) : Receipt → List Action → Prop
  | _, [] => True
  | g, a :: out =>
    (∀ frame stream si, a = .send frame stream si →
        (codec.decode frame).map M2paMessage.bsn = some g.last) ∧
      CarryLast codec call (noteAction codec call g a) out

/-- The deliveries and frames of a call. -/
structure Receives (codec : Codec) (p : Link × Receipt) (e : Event) : Prop where
  caused : ∀ msu, .deliver msu ∈ (step codec p.1 e).2 → ∃ bsn fsn message,
    e.call = .onData bsn fsn message ∧ message.msu = msu ∧ p.1.Accepts bsn ∧
      (step codec p.1 e).1.isAligned = true
  carried : CarryLast codec e.call (reopen p.2 p.1 e.call) (step codec p.1 e).2

/-- The deliveries since the start, and the acknowledgement of the last of them. -/
structure InReceipt (p : Link × Receipt) (call : Call) : Prop where
  fsns : p.2.fsns = (List.range p.2.fsns.length).map (· % 0x1000000)
  once : ∀ i j (hij : i < j) (hj : j < p.2.fsns.length), j - i < 0x1000000 →
    p.2.fsns[i] ≠ p.2.fsns[j]
  told : call = .flushAck → p.1.isAligned = true → p.2.fsns ≠ [] →
    p.2.told = true ∨ p.2.refused = true
  empties_le : p.2.empties ≤ 1
  empties_zero : p.2.fsns = [] → p.2.empties = 0

/-- What carries the receipt over a run. -/
structure Due (p : Link × Receipt) : Prop where
  counted : p.1.Counted
  fsnIn : p.1.fsnIn = p.2.last
  fsns : p.2.fsns = (List.range p.2.fsns.length).map (· % 0x1000000)
  idle : p.1.isAligned = false → p.1.state ≠ .outOfService → p.2.fsns = []
  due : p.1.isAligned = true → p.2.fsns ≠ [] →
    p.1.ackDue = true ∨ p.2.told = true ∨ p.2.refused = true
  fresh : p.1.ackDue = true → p.2.fsns ≠ [] ∧ p.2.empties = 0
  empties_le : p.2.empties ≤ 1
  empties_zero : p.2.fsns = [] → p.2.empties = 0

/-- What an observer keeps of actions that deliver nothing. -/
structure Kept (call : Call) (g g' : Receipt) : Prop where
  fsns : g'.fsns = g.fsns
  told : g.told = true → g'.told = true
  refused : g.refused = true → g'.refused = true
  empties : call ≠ .flushAck → g'.empties = g.empties

theorem Kept.rfl (call : Call) (g : Receipt) : Kept call g g :=
  ⟨Eq.refl _, id, id, fun _ => Eq.refl _⟩

theorem Kept.trans {call : Call} {g g' g'' : Receipt} (h : Kept call g g')
    (h' : Kept call g' g'') : Kept call g g'' :=
  ⟨h'.fsns.trans h.fsns, fun ht => h'.told (h.told ht), fun hr => h'.refused (h.refused hr),
    fun hc => (h'.empties hc).trans (h.empties hc)⟩

theorem Kept.last {call : Call} {g g' : Receipt} (h : Kept call g g') : g'.last = g.last := by
  unfold Receipt.last
  rw [h.fsns]

theorem noteAction_kept {call : Call} {a : Action} {g : Receipt}
    (h : Acknowledges codec g.last a) : Kept call g (noteAction codec call g a) := by
  cases a with
  | send frame stream si =>
    refine ⟨rfl, fun ht => by simp [noteAction, ht], id, fun hc => ?_⟩
    simp [noteAction, hc]
  | deliver msu => exact h.elim
  | discarded reason count =>
    cases reason with
    | encode => exact ⟨rfl, id, fun _ => rfl, fun _ => rfl⟩
    | _ => exact .rfl call g
  | start timer count => exact .rfl call g
  | stop timer => exact .rfl call g
  | inService => exact .rfl call g
  | outOfService reason => exact .rfl call g
  | remoteProcessorOutage on => exact .rfl call g

/-- Actions that deliver nothing leave the deliveries as they are, and what they send is
remembered. -/
theorem noteActions_kept {call : Call} {out : List Action} {g : Receipt}
    (h : ∀ a ∈ out, Acknowledges codec g.last a) :
    Kept call g (out.foldl (noteAction codec call) g) ∧ CarryLast codec call g out ∧
      (SendsData out → (out.foldl (noteAction codec call) g).told = true) := by
  induction out generalizing g with
  | nil => exact ⟨.rfl call g, trivial, by simp [SendsData]⟩
  | cons a out ih =>
    obtain ⟨ha, hout⟩ := List.forall_mem_cons.mp h
    have hkept : Kept call g (noteAction codec call g a) := noteAction_kept ha
    obtain ⟨hlater, hcarry, hsent⟩ := ih (by rw [hkept.last]; exact hout)
    refine ⟨hkept.trans hlater, ⟨?_, hcarry⟩, ?_⟩
    · rintro frame stream si rfl
      obtain ⟨m, hdecode, hbsn⟩ := ha
      rw [hdecode, Option.map_some, hbsn]
    · rintro ⟨frame, si, hmem⟩
      obtain rfl | hmem := List.mem_cons.mp hmem
      · obtain ⟨m, hdecode, hbsn⟩ := ha
        exact hlater.told (by simp [noteAction, hdecode, hbsn])
      · exact hsent ⟨frame, si, hmem⟩

/-- A result that delivers nothing keeps the receipt, if the call is no start and no flush. -/
theorem Receipted.keepsDue {l : Link} {g : Receipt} {call : Call} {r : Link × List Action}
    (h : Receipted codec l r) (hd : Due (l, g)) (hc : r.1.Counted) (hcall : call ≠ .flushAck) :
    Due (r.1, r.2.foldl (noteAction codec call) g) ∧ CarryLast codec call g r.2 := by
  have hlast : l.fsnIn = g.last := hd.fsnIn
  obtain ⟨hkept, hcarry, hsent⟩ := @noteActions_kept codec call _ _ (hlast ▸ h.acknowledges)
  refine ⟨⟨hc, ?_, ?_, ?_, ?_, ?_, ?_, ?_⟩, hcarry⟩
  · rw [hkept.last]
    exact h.fsnIn.trans hlast
  · rw [hkept.fsns]
    exact hd.fsns
  · intro hleft hs
    rw [hkept.fsns]
    exact hd.idle (h.left hleft hs) (h.started hs)
  · intro haligned hne
    rw [hkept.fsns] at hne
    have hs : r.1.state ≠ .outOfService := by
      intro hs
      simp [isAligned, hs] at haligned
    have hbefore : l.isAligned = true := by
      by_contra hb
      exact hne (hd.idle (by simpa using hb) (h.started hs))
    obtain hdue | htold | hrefused := hd.due hbefore hne
    · obtain hstill | hnow := h.settled haligned hdue
      · exact .inl hstill
      · exact .inr (.inl (hsent hnow))
    · exact .inr (.inl (hkept.told htold))
    · exact .inr (.inr (hkept.refused hrefused))
  · intro hdue
    rw [hkept.fsns, hkept.empties hcall]
    exact hd.fresh (h.due hdue)
  · rw [hkept.empties hcall]
    exact hd.empties_le
  · rw [hkept.fsns, hkept.empties hcall]
    exact hd.empties_zero

theorem carryLast_append {call : Call} {xs ys : List Action} {g : Receipt} :
    CarryLast codec call g (xs ++ ys) ↔
      CarryLast codec call g xs ∧ CarryLast codec call (xs.foldl (noteAction codec call) g) ys := by
  induction xs generalizing g with
  | nil => simp [CarryLast]
  | cons a xs ih => simp only [List.cons_append, CarryLast, List.foldl_cons, ih, and_assoc]

/-- The receipt of a message delivered is the next one. -/
theorem Delivers.keepsDue {l : Link} {g : Receipt} {bsn fsn : ℕ} {message : UserDataMessage}
    {r : Link × List Action} (h : Delivers codec l bsn fsn message r) (hd : Due (l, g))
    (hc : r.1.Counted) :
    Due (r.1, r.2.foldl (noteAction codec (.onData bsn fsn message)) g) ∧
      CarryLast codec (.onData bsn fsn message) g r.2 := by
  obtain ⟨before, hout, hbefore⟩ := h.out
  have hlast : l.fsnIn = g.last := hd.fsnIn
  obtain ⟨hkept, hcarry, -⟩ :=
    @noteActions_kept codec (.onData bsn fsn message) _ _ (hlast ▸ hbefore)
  have hnext : fsn % 0x1000000 = last 0x1000000 (g.fsns.length + 1) := by
    rw [h.next, hlast]
    exact last_add_one g.fsns.length
  have hnote : r.2.foldl (noteAction codec (.onData bsn fsn message)) g =
      ⟨g.fsns ++ [fsn % 0x1000000], false, false, 0⟩ := by
    rw [hout, List.foldl_append, List.foldl_cons, List.foldl_nil]
    simp only [noteAction, hkept.fsns, Call.fsn]
  rw [hnote]
  refine ⟨⟨hc, ?_, ?_, ?_, ?_, ?_, ?_, ?_⟩, ?_⟩
  · rw [h.fsnIn, hnext]
    simp [Receipt.last]
  · have hnumber : fsn % 0x1000000 = g.fsns.length % 0x1000000 := by
      rw [hnext, last_succ (by decide)]
    simp only [List.length_append, List.length_singleton, List.range_succ, List.map_append,
      List.map_cons, List.map_nil, hnumber]
    rw [← hd.fsns]
  · intro hleft
    simp [h.aligned] at hleft
  · exact fun _ _ => .inl h.due
  · exact fun _ => ⟨by simp, rfl⟩
  · exact Nat.zero_le 1
  · exact fun _ => rfl
  · rw [hout, carryLast_append]
    exact ⟨hcarry, by simp, trivial⟩

theorem acknowledges_startActions {l : Link} (h : l.started.Counted) (codec : Codec) :
    ∀ a ∈ l.startActions codec, Acknowledges codec seqMask a := by
  have hstatus := h.acknowledges_sendStatus codec .alignment statusStream
  rw [show l.started.fsnIn = seqMask from rfl] at hstatus
  unfold startActions
  split <;> simpa [or_imp, forall_and] using hstatus

/-- A started link has nothing received. -/
theorem Due.started (l : Link) (hc : l.started.Counted) :
    Due (l.started, (l.startActions codec).foldl (noteAction codec .start) .start) ∧
      CarryLast codec .start .start (l.startActions codec) := by
  have hmask : Receipt.start.last = seqMask := by decide
  obtain ⟨hkept, hcarry, -⟩ :=
    @noteActions_kept codec .start _ .start (hmask ▸ acknowledges_startActions hc codec)
  have hfsns := hkept.fsns
  have hempties := hkept.empties (by simp)
  refine ⟨⟨hc, ?_, ?_, fun _ _ => hfsns, fun _ hne => absurd hfsns hne, fun hdue => ?_, ?_,
    fun _ => hempties⟩, hcarry⟩
  · rw [hkept.last, hmask]
    rfl
  · rw [hfsns]
    rfl
  · simp [Link.started] at hdue
  · rw [hempties]
    exact Nat.zero_le 1

/-- A flush sends the due acknowledgement, unless encoding refuses it. -/
theorem Due.flushed {l : Link} {g : Receipt} (hd : Due (l, g)) (hdue : l.ackDue = true) :
    Due ({ l with ackDue := false },
        (sendFrame codec (.userData l.fsnIn l.fsnOut .empty) dataStream none).foldl
          (noteAction codec .flushAck) g) ∧
      CarryLast codec .flushAck g
        (sendFrame codec (.userData l.fsnIn l.fsnOut .empty) dataStream none) := by
  have hc : { l with ackDue := false }.Counted := hd.counted.of_eq rfl rfl rfl
  have hlast : l.fsnIn = g.last := hd.fsnIn
  have hsendable : (M2paMessage.userData l.fsnIn l.fsnOut .empty).Sendable :=
    ⟨Nat.le_of_lt_succ hd.counted.fsnIn_lt, Nat.le_of_lt_succ hd.counted.fsnOut_lt, rfl⟩
  obtain ⟨hne, hempties⟩ := hd.fresh hdue
  unfold sendFrame
  split
  next frame hframe =>
    have hbsn : (codec.decode frame).map M2paMessage.bsn = some g.last := by
      rw [codec.decode_encode hsendable hframe, ← hlast]
      rfl
    refine ⟨⟨hc, hd.fsnIn, hd.fsns, hd.idle, fun _ _ => .inr (.inl ?_), by simp, ?_, ?_⟩,
      ?_, trivial⟩
    · simp [noteAction, hbsn]
    · simp only [List.foldl_cons, List.foldl_nil, noteAction, if_pos]
      rw [hempties]
    · exact fun hnone => absurd hnone hne
    · rintro frame' stream si hsend
      obtain ⟨rfl, -, -⟩ := Action.send.inj hsend
      exact hbsn
  next =>
    exact ⟨⟨hc, hd.fsnIn, hd.fsns, hd.idle, fun _ _ => .inr (.inr rfl), by simp, hd.empties_le,
      hd.empties_zero⟩, by simp, trivial⟩

/-- Every call that neither starts the link nor flushes it keeps what was received, or
delivers the next message. -/
theorem StepMove.receipted_or_delivers {l : Link} {now : ℕ} {call : Call}
    {r : Link × List Action} (h : StepMove codec l now call r) (hc : l.Counted)
    (hstart : ¬ (call = .start ∧ l.state = .outOfService)) (hflush : call ≠ .flushAck) :
    Receipted codec l r ∨ ∃ bsn fsn message, call = .onData bsn fsn message ∧
      Delivers codec l bsn fsn message r := by
  cases h with
  | established => exact .inl (.of_state (hc.acknowledges_sendStatus codec _ _) rfl rfl rfl)
  | startIgnored _ => exact .inl (.rfl l)
  | started hs => exact absurd ⟨rfl, hs⟩ hstart
  | fail _ hm => exact .inl (hm.receipted hc)
  | retrieve _ => exact .inl (.of_state (by simp) rfl rfl rfl)
  | detach => exact .inl (.of_state (by simp) rfl rfl rfl)
  | abandon => exact .inl (.of_state (by simp) rfl rfl rfl)
  | send _ hm => exact .inl (hm.receipted hc)
  | timeout _ hm => exact .inl (hm.receipted hc)
  | onStatus _ _ hm => exact .inl (hm.receipted hc)
  | onData bsn fsn message hm =>
    obtain hr | hdelivers := hm.receipted_or_delivers hc
    · exact .inl hr
    · exact .inr ⟨bsn, fsn, message, rfl, hdelivers⟩
  | flushIgnored _ => exact absurd rfl hflush
  | flushed _ _ => exact absurd rfl hflush

theorem StepMove.of_start {l : Link} {now : ℕ} {r : Link × List Action}
    (h : StepMove codec l now .start r) (hs : l.state = .outOfService) :
    r = (l.started, l.startActions codec) := by
  cases h with
  | startIgnored hs' => exact absurd hs hs'
  | started _ => rfl

theorem StepMove.keepsDue {l : Link} {g : Receipt} {now : ℕ} {call : Call}
    {r : Link × List Action} (h : StepMove codec l now call r) (hd : Due (l, g)) :
    Due (r.1, r.2.foldl (noteAction codec call) (reopen g l call)) ∧
      CarryLast codec call (reopen g l call) r.2 := by
  have hc := h.counted hd.counted
  by_cases hstart : call = .start ∧ l.state = .outOfService
  · rw [show reopen g l call = .start from if_pos hstart]
    obtain ⟨rfl, hs⟩ := hstart
    obtain rfl := h.of_start hs
    exact Due.started l hc
  · rw [show reopen g l call = g from if_neg hstart]
    by_cases hflush : call = .flushAck
    · subst hflush
      cases h with
      | flushIgnored hi =>
        refine ⟨⟨hc, hd.fsnIn, hd.fsns, hd.idle, fun ha hne => ?_, by simp, hd.empties_le,
          hd.empties_zero⟩, trivial⟩
        obtain hdue | hsaid := hd.due ha hne
        · obtain hi | hi := hi
          · exact absurd (hdue.symm.trans hi) (by simp)
          · exact absurd (ha.symm.trans hi) (by simp)
        · exact .inr hsaid
      | flushed hdue _ => exact hd.flushed hdue
    · obtain hr | ⟨bsn, fsn, message, rfl, hdelivers⟩ :=
        h.receipted_or_delivers hd.counted hstart hflush
      · exact hr.keepsDue hd hc hflush
      · exact hdelivers.keepsDue hd hc

theorem Due.once {p : Link × Receipt} (h : Due p) (i j : ℕ) (hij : i < j)
    (hj : j < p.2.fsns.length) (hnear : j - i < 0x1000000) : p.2.fsns[i] ≠ p.2.fsns[j] := by
  have hnumber (k : ℕ) (hk : k < p.2.fsns.length) : p.2.fsns[k] = k % 0x1000000 := by
    have hget := List.getElem_of_eq h.fsns hk
    simpa using hget
  rw [hnumber i (by omega), hnumber j hj]
  omega

theorem Due.inReceipt {p : Link × Receipt} (h : Due p) {call : Call}
    (hflush : call = .flushAck → p.1.ackDue = false) : InReceipt p call where
  fsns := h.fsns
  once := h.once
  told := fun hc ha hne =>
    (h.due ha hne).resolve_left fun hdue => absurd (hdue.symm.trans (hflush hc)) (by simp)
  empties_le := h.empties_le
  empties_zero := h.empties_zero

theorem StepMove.flush {l : Link} {now : ℕ} {r : Link × List Action}
    (h : StepMove codec l now .flushAck r) : r.1.ackDue = false := by
  cases h with
  | flushIgnored _ => rfl
  | flushed _ _ => rfl

/-- What a call delivers the peer sent with it, in sequence and with an accepted BSN. -/
theorem StepMove.caused {l : Link} {now : ℕ} {call : Call} {r : Link × List Action}
    (h : StepMove codec l now call r) (hc : l.Counted) {msu : Msu} (hmem : .deliver msu ∈ r.2) :
    ∃ bsn fsn message, call = .onData bsn fsn message ∧ message.msu = msu ∧ l.Accepts bsn ∧
      r.1.isAligned = true := by
  by_cases hstart : call = .start ∧ l.state = .outOfService
  · have hcounted := h.counted hc
    obtain ⟨rfl, hs⟩ := hstart
    obtain rfl := h.of_start hs
    exact (acknowledges_startActions hcounted codec _ hmem).elim
  · by_cases hflush : call = .flushAck
    · subst hflush
      cases h with
      | flushIgnored _ => simp at hmem
      | flushed _ _ =>
        unfold sendFrame at hmem
        split at hmem <;> simp at hmem
    · obtain hr | ⟨bsn, fsn, message, rfl, hdelivers⟩ :=
        h.receipted_or_delivers hc hstart hflush
      · exact (hr.acknowledges _ hmem).elim
      · obtain ⟨before, hout, hbefore⟩ := hdelivers.out
        rw [hout, List.mem_append] at hmem
        obtain hmem | hmem := hmem
        · exact (hbefore _ hmem).elim
        · obtain rfl : msu = message.msu := by simpa using hmem
          exact ⟨bsn, fsn, message, rfl, rfl, hdelivers.accepts, hdelivers.aligned⟩

theorem due_new (timers : LinkTimers) (proving : Proving) (txQueue : ℕ) :
    Due (new timers proving txQueue, .start) := by
  have hmask : seqMask < 0x1000000 := by decide
  have hlast : seqMask = Receipt.start.last := by decide
  exact ⟨⟨hmask, hmask, hmask⟩, hlast, rfl, fun _ _ => rfl,
    fun ha => by simp [new, isAligned] at ha,
    fun hd => by simp [new] at hd, Nat.zero_le 1, fun _ => rfl⟩

/-- In every run the deliveries of a link are the messages `0, 1, 2, …` of its peer since
the last start, each with an accepted BSN and in service; every frame carries the FSN of the
last one delivered; and once the due acknowledgement is flushed that FSN has left on the
data stream, with one empty message at most. -/
theorem receives_in_sequence (codec : Codec) (timers : LinkTimers) (proving : Proving)
    (txQueue : ℕ) (events : List Event) :
    Along (watch (step codec) (noteReceipt codec))
      (fun p e => Receives codec p e ∧
        InReceipt (watch (step codec) (noteReceipt codec) p e) e.call)
      (new timers proving txQueue, .start) events := by
  refine @along_of_invariant _ _ _ Due (fun _ _ => True) _ ?_ ?_ _
    (due_new timers proving txQueue) events ?_
  · intro p e hd _
    exact ((step_move codec p.1 e).keepsDue hd).1
  · intro p e hd _
    have hmove := step_move codec p.1 e
    obtain ⟨hdue, hcarry⟩ := hmove.keepsDue hd
    refine ⟨⟨fun msu hmem => hmove.caused hd.counted hmem, hcarry⟩, hdue.inReceipt ?_⟩
    intro hcall
    rw [hcall] at hmove
    exact hmove.flush
  · exact along_trivial _ events

end Link

end SiphonSigtran.M2pa
