import SiphonSigtran.M2pa.LinkSequence

/-!
# Account of the MSUs of a link

Every MSU given to `send` is at every moment acknowledged, in the link, in what a
failure left for retrieval, handed over, or in a count of the transmit side. The
ledger is kept by an observer from the calls, the actions and what the calls
return. What `retrieve` takes out of the buffers without handing it over, as
confirmed by the far end or past confirming, has a column of its own.
-/

namespace SiphonSigtran.M2pa

open Lib.Serial

/-- The MSUs that an action gives up on the transmit side, encoding apart. -/
def Action.lost : Action → ℕ
  | .discarded .txNotInService n | .discarded .txCongestion n
  | .discarded .txFlushedByPeer n | .discarded .txLostOnFailure n => n
  | _ => 0

def Action.refused : Action → ℕ
  | .discarded .encode n => n
  | _ => 0

def lostCount (out : List Action) : ℕ := (out.map Action.lost).sum
def refusedCount (out : List Action) : ℕ := (out.map Action.refused).sum

@[simp] theorem lostCount_nil : lostCount [] = 0 := rfl
@[simp] theorem lostCount_append (xs ys : List Action) :
    lostCount (xs ++ ys) = lostCount xs + lostCount ys := by simp [lostCount]
@[simp] theorem lostCount_cons (a : Action) (xs : List Action) :
    lostCount (a :: xs) = a.lost + lostCount xs := by simp [lostCount]
@[simp] theorem lostCount_ite (p : Prop) [Decidable p] (xs ys : List Action) :
    lostCount (if p then xs else ys) = if p then lostCount xs else lostCount ys :=
  apply_ite _ _ _ _

@[simp] theorem refusedCount_nil : refusedCount [] = 0 := rfl
@[simp] theorem refusedCount_append (xs ys : List Action) :
    refusedCount (xs ++ ys) = refusedCount xs + refusedCount ys := by simp [refusedCount]
@[simp] theorem refusedCount_cons (a : Action) (xs : List Action) :
    refusedCount (a :: xs) = a.refused + refusedCount xs := by simp [refusedCount]
@[simp] theorem refusedCount_ite (p : Prop) [Decidable p] (xs ys : List Action) :
    refusedCount (if p then xs else ys) = if p then refusedCount xs else refusedCount ys :=
  apply_ite _ _ _ _

attribute [simp] Action.lost Action.refused

/-- Retrieval sorts what was held into the MSUs to resend, the confirmed ones and the
unconfirmed ones. -/
theorem Retrievable.retrieve_length (held : Retrievable) (fsnc : Option ℕ) :
    (held.retrieve fsnc).resend.length + (held.retrieve fsnc).confirmed +
      (held.retrieve fsnc).unconfirmed.length = held.len := by
  unfold Retrievable.retrieve Retrievable.len
  dsimp only
  split
  case h_1 f _ =>
    have hsplit := @List.length_eq_length_filter_add _ held.unacked
      fun u => decide (seqDistance held.acked u.1 > seqDistance held.acked (f % 0x1000000))
    simp only [List.length_append, List.length_map, List.length_nil]
    simp only [decide_not]
    omega
  case h_2 =>
    simp only [List.length_map]
    omega

namespace Link

open Lib.Machine

variable {codec : Codec}

/-- What a failure left for retrieval, as a count. -/
def heldCount (l : Link) : ℕ := (l.retrievable.map Retrievable.len).getD 0

/-- The MSUs in the link. -/
def holding (l : Link) : ℕ := l.unacked.length + l.unsent.length + l.heldCount

/-! ## What each operation does to the account -/

@[simp] theorem lostCount_sendFrame (m : M2paMessage) (stream : ℕ) (si : Option ℕ) :
    lostCount (sendFrame codec m stream si) = 0 := by
  unfold sendFrame
  split <;> rfl

@[simp] theorem lostCount_sendStatus (l : Link) (status : Status) (stream : ℕ) :
    lostCount (l.sendStatus codec status stream) = 0 := lostCount_sendFrame _ _ _

@[simp] theorem lostCount_armT7 (l : Link) (now : ℕ) : lostCount (l.armT7 now) = 0 := by
  unfold armT7
  split <;> rfl

@[simp] theorem lostCount_failActions (l : Link) (reason : Failure) :
    lostCount (l.failActions codec reason) = 0 := by
  simp [failActions, Timer.all]

theorem heldCount_none {l : Link} (h : l.retrievable = none) : l.heldCount = 0 := by
  simp [heldCount, h]

/-- A failure moves what the link holds to where it is retrieved from. -/
theorem holding_failed {l : Link} (h : l.retrievable = none) : l.failed.holding = l.holding := by
  simp [holding, heldCount, h, failed, leave, Retrievable.len]

theorem FailMove.holding {l : Link} {reason : Failure} {r : Link × List Action}
    (h : FailMove codec l reason r) (hret : l.state ≠ .outOfService → l.retrievable = none) :
    r.1.holding = l.holding ∧ lostCount r.2 = 0 := by
  cases h with
  | out _ => exact ⟨rfl, rfl⟩
  | failed hs => exact ⟨holding_failed (hret hs), by simp⟩

theorem TransmitMove.holding {l : Link} {msu : Msu} {now : ℕ} {r : Link × List Action}
    (h : TransmitMove codec l msu now r) :
    r.1.holding + refusedCount r.2 = l.holding + 1 ∧ lostCount r.2 = 0 := by
  cases h with
  | sent frame _ =>
    constructor
    · simp [Link.holding, heldCount, Link.transmitted]
      omega
    · simp
  | refused _ => exact ⟨rfl, rfl⟩

theorem holding_pop (l : Link) (rest : List Msu) :
    { l with unsent := rest }.holding + l.unsent.length = l.holding + rest.length := by
  simp only [holding, heldCount]
  omega

theorem QueueMove.holding {now : ℕ} {queue : List Msu} {l : Link} {r : Link × List Action}
    (h : QueueMove codec now queue l r) (hl : l.unsent = queue) :
    r.1.holding + refusedCount r.2 = l.holding ∧ lostCount r.2 = 0 := by
  induction h with
  | nil l => exact ⟨rfl, rfl⟩
  | @cons msu rest l first others hfirst _ ih =>
    obtain ⟨hcount, hlost⟩ := hfirst.holding
    have hrest : first.1.unsent = rest := by
      obtain ⟨fsnOut, ackDue, unacked, hr⟩ := hfirst.frame
      rw [hr]
    obtain ⟨ihcount, ihlost⟩ := ih hrest
    have hpop := holding_pop l rest
    rw [hl, List.length_cons] at hpop
    refine ⟨?_, by simp [hlost, ihlost]⟩
    change others.1.holding + refusedCount (first.2 ++ others.2) = l.holding
    rw [refusedCount_append]
    omega

theorem SendMove.holding {l : Link} {msu : Msu} {now : ℕ} {r : Link × List Action}
    (h : SendMove codec l msu now r) :
    r.1.holding + lostCount r.2 + refusedCount r.2 = l.holding + 1 := by
  cases h with
  | transmitted _ _ ht =>
    obtain ⟨hcount, hlost⟩ := ht.holding
    omega
  | congested _ _ _ => rfl
  | queued _ _ _ =>
    simp [Link.holding, heldCount]
    omega
  | refused _ => rfl

/-- The MSUs that a BSN acknowledges. -/
def acknowledgedBy (l : Link) (bsn : ℕ) : ℕ :=
  if l.Accepts bsn then seqDistance l.acked (bsn % 0x1000000) else 0

theorem AcknowledgeMove.holding {l : Link} {bsn now : ℕ} {strict : Bool}
    {a : Link × List Action × Bool} (h : AcknowledgeMove codec l bsn strict now a)
    (hn : l.Numbered) (hw : l.InWindow) (hs : l.state ≠ .outOfService)
    (hret : l.state ≠ .outOfService → l.retrievable = none) :
    a.1.holding + l.acknowledgedBy bsn = l.holding ∧ lostCount a.2.1 = 0 := by
  unfold acknowledgedBy
  cases h with
  | ignored ha _ => exact ⟨by rw [if_neg ha]; rfl, rfl⟩
  | abnormal ha _ _ => exact ⟨by rw [if_neg ha]; rfl, rfl⟩
  | faulty ha _ _ hf =>
    obtain ⟨hcount, hlost⟩ := hf.holding hret
    exact ⟨by rw [if_neg ha]; exact hcount, by simp [hlost]⟩
  | repeated _ ha hstep => exact ⟨by rw [if_pos ha, hstep]; rfl, rfl⟩
  | advanced _ ha _ =>
    have hk : seqDistance l.acked (bsn % 0x1000000) ≤ l.unacked.length := by
      rw [← hn.outstanding hw hs]
      exact ha
    have hlength := congrArg List.length (hn.released_unacked hw hs ha)
    rw [List.length_drop] at hlength
    refine ⟨?_, by simp⟩
    rw [if_pos ha]
    change (l.released bsn).unacked.length + l.unsent.length + l.heldCount + _ = _
    simp only [Link.holding]
    omega

theorem AcknowledgeMove.noReport {l : Link} {bsn now : ℕ} {a : Link × List Action × Bool}
    (h : AcknowledgeMove codec l bsn false now a) :
    ∀ action ∈ a.2.1, action ≠ .remoteProcessorOutage false := by
  intro action haction
  cases h with
  | ignored _ _ => simp at haction
  | abnormal _ hs _ => cases hs
  | faulty _ hs _ _ => cases hs
  | repeated _ _ _ => simp at haction
  | advanced _ _ _ =>
    unfold armT7 at haction
    split at haction
    · split at haction <;> simp at haction <;> rw [haction] <;> simp
    · simp at haction

theorem ReceiveMove.holding {l : Link} {bsn fsn now : ℕ} {message : UserDataMessage}
    {r : Link × List Action} (h : ReceiveMove codec l bsn fsn message now r)
    (hn : l.Numbered) (hw : l.InWindow) (hs : l.state ≠ .outOfService)
    (hret : l.state ≠ .outOfService → l.retrievable = none) :
    r.1.holding + l.acknowledgedBy bsn = l.holding ∧ lostCount r.2 = 0 := by
  cases h with
  | discarded ha _ => exact ha.holding hn hw hs hret
  | empty ha _ _ => exact ha.holding hn hw hs hret
  | outOfSequence ha _ _ _ =>
    obtain ⟨hcount, hlost⟩ := ha.holding hn hw hs hret
    exact ⟨hcount, by simp [hlost]⟩
  | delivered ha _ _ _ =>
    obtain ⟨hcount, hlost⟩ := ha.holding hn hw hs hret
    exact ⟨hcount, by simp [hlost]⟩

theorem TimeoutMove.holding {l : Link} {timer : Timer} {now : ℕ} {r : Link × List Action}
    (h : TimeoutMove codec l timer now r)
    (hret : l.state ≠ .outOfService → l.retrievable = none) :
    r.1.holding = l.holding ∧ lostCount r.2 = 0 := by
  cases h with
  | stale _ => exact ⟨rfl, rfl⟩
  | failed _ hs => exact ⟨holding_failed (hret hs), by simp⟩
  | ready _ _ _ => exact ⟨rfl, by simp⟩
  | enter _ _ _ => exact ⟨rfl, by simp [enterService]⟩
  | repeatProving _ _ => exact ⟨rfl, by simp⟩
  | rearm _ _ _ => exact ⟨rfl, by simp⟩

theorem EndBusyMove.holding {l : Link} {now : ℕ} {r : Link × List Action}
    (h : EndBusyMove codec l now r) :
    r.1.holding + refusedCount r.2 = l.holding ∧ lostCount r.2 = 0 := by
  cases h with
  | idle _ => exact ⟨rfl, rfl⟩
  | flushed _ _ hf =>
    obtain ⟨hcount, hlost⟩ := hf.holding rfl
    have hrestarted : ({ l with remoteBusy := false }.restartT7 now).1.holding = l.holding := by
      simp [Link.holding, heldCount, restartT7]
    rw [hrestarted] at hcount
    exact ⟨by simpa [restartT7] using hcount, by simp [restartT7, hlost]⟩
  | cleared _ _ => exact ⟨rfl, rfl⟩

/-- The MSUs that encoding refused after the recovery of the peer was reported. -/
def refusedAfterRecovery (out : List Action) : ℕ :=
  refusedCount (out.dropWhile fun a => decide (a ≠ .remoteProcessorOutage false))

theorem refusedAfterRecovery_append {quiet : List Action} (out : List Action)
    (h : ∀ a ∈ quiet, a ≠ .remoteProcessorOutage false) :
    refusedAfterRecovery (quiet ++ .remoteProcessorOutage false :: out) = refusedCount out := by
  have hdrop : (quiet ++ .remoteProcessorOutage false :: out).dropWhile
      (fun a => decide (a ≠ .remoteProcessorOutage false)) =
        .remoteProcessorOutage false :: out := by
    rw [List.dropWhile_append_of_pos (by simpa using h)]
    rfl
  rw [refusedAfterRecovery, hdrop]
  simp

/-- Before it reports the recovery a link sends at most a status and a count. -/
theorem resumeActions_split (codec : Codec) (l : Link) :
    ∃ quiet, l.resumeActions codec = quiet ++ [.remoteProcessorOutage false] ∧
      (∀ a ∈ quiet, a ≠ .remoteProcessorOutage false) ∧
      lostCount quiet = l.unacked.length := by
  refine ⟨_, (List.append_assoc _ _ _).symm, ?_, ?_⟩
  · intro a ha
    rcases List.mem_append.mp ha with ha | ha
    · split at ha <;> simp at ha
      rintro rfl
      simp at ha
    · unfold sendStatus sendFrame at ha
      split at ha <;> simp at ha <;> rw [ha] <;> simp
  · cases hu : l.unacked <;> simp

theorem ResumeMove.holding {l : Link} {now : ℕ} {r : Link × List Action}
    (h : ResumeMove codec l now r) (quiet : List Action)
    (hquiet : ∀ a ∈ quiet, a ≠ .remoteProcessorOutage false) :
    r.1.holding + lostCount r.2 + refusedAfterRecovery (quiet ++ r.2) = l.holding := by
  obtain ⟨before, hsplit, hbefore, hlost⟩ := resumeActions_split codec l
  have hresumed : l.resumed.holding + l.unacked.length = l.holding := by
    simp [Link.holding, heldCount, resumed]
    omega
  have hboth : ∀ a ∈ quiet ++ before, a ≠ .remoteProcessorOutage false := by
    intro a ha
    rcases List.mem_append.mp ha with ha | ha
    · exact hquiet a ha
    · exact hbefore a ha
  have hcount (out : List Action) :
      lostCount (l.resumeActions codec ++ out) +
          refusedAfterRecovery (quiet ++ (l.resumeActions codec ++ out)) =
        l.unacked.length + lostCount out + refusedCount out := by
    have hlist : quiet ++ (l.resumeActions codec ++ out) =
        quiet ++ before ++ .remoteProcessorOutage false :: out := by
      simp [hsplit]
    rw [hlist, refusedAfterRecovery_append out hboth, hsplit]
    simp [hlost]
  cases h with
  | busy _ =>
    have hafter := hcount []
    rw [List.append_nil] at hafter
    simp only [lostCount_nil, refusedCount_nil] at hafter
    dsimp only
    omega
  | @flushed r _ hf =>
    obtain ⟨hflushed, hlost⟩ := hf.holding rfl
    have hafter := hcount r.2
    change r.1.holding + _ + _ = _
    dsimp only
    omega

/-- A started link holds nothing for retrieval. -/
def Fresh (l : Link) : Prop := l.state ≠ .outOfService → l.retrievable = none

theorem Fresh.of_eq {l l' : Link} (h : l.Fresh)
    (hs : l'.state ≠ .outOfService → l.state ≠ .outOfService)
    (hr : l'.retrievable = l.retrievable) : l'.Fresh :=
  fun hs' => hr.trans (h (hs hs'))

theorem Fresh.failed (l : Link) : l.failed.Fresh := fun hs => absurd rfl hs

theorem FailMove.fresh {l : Link} {reason : Failure} {r : Link × List Action}
    (h : FailMove codec l reason r) (hf : l.Fresh) : r.1.Fresh := by
  cases h with
  | out _ => exact hf
  | failed _ => exact .failed l

theorem QueueMove.fresh {now : ℕ} {queue : List Msu} {l : Link} {r : Link × List Action}
    (h : QueueMove codec now queue l r) (hl : l.unsent = queue) (hf : l.Fresh) : r.1.Fresh := by
  obtain ⟨fsnOut, ackDue, unacked, hr⟩ := h.frame hl
  rw [hr]
  exact hf.of_eq id rfl

theorem AcknowledgeMove.fresh {l : Link} {bsn now : ℕ} {strict : Bool}
    {a : Link × List Action × Bool} (h : AcknowledgeMove codec l bsn strict now a)
    (hf : l.Fresh) : a.1.Fresh := by
  obtain hfailed | ⟨acked, unacked, watch, hl⟩ := h.frame
  · rw [hfailed]
    exact .failed l
  · rw [hl]
    exact hf.of_eq id rfl

theorem ReceiveMove.fresh {l : Link} {bsn fsn now : ℕ} {message : UserDataMessage}
    {r : Link × List Action} (h : ReceiveMove codec l bsn fsn message now r) (hf : l.Fresh) :
    r.1.Fresh := by
  obtain hfailed | ⟨acked, unacked, watch, fsnIn, ackDue, hl⟩ := h.frame
  · rw [hfailed]
    exact .failed l
  · rw [hl]
    exact hf.of_eq id rfl

theorem SendMove.fresh {l : Link} {msu : Msu} {now : ℕ} {r : Link × List Action}
    (h : SendMove codec l msu now r) (hf : l.Fresh) : r.1.Fresh := by
  cases h with
  | transmitted _ _ ht =>
    obtain ⟨fsnOut, ackDue, unacked, hr⟩ := ht.frame
    rw [hr]
    exact hf.of_eq id rfl
  | congested _ _ _ => exact hf
  | queued _ _ _ => exact hf.of_eq id rfl
  | refused _ => exact hf

theorem TimeoutMove.fresh {l : Link} {timer : Timer} {now : ℕ} {r : Link × List Action}
    (h : TimeoutMove codec l timer now r) (hf : l.Fresh) : r.1.Fresh := by
  cases h with
  | stale _ => exact hf
  | failed _ _ => exact .failed l
  | ready hs _ _ => exact hf.of_eq (fun _ => by simp [hs]) rfl
  | enter hs _ _ => exact hf.of_eq (fun _ => by simp [hs]) rfl
  | repeatProving _ _ => exact hf
  | rearm _ _ _ => exact hf

theorem StatusMove.fresh {l : Link} {status : Status} {bsn now : ℕ} {r : Link × List Action}
    (h : StatusMove codec l now status bsn r) (hf : l.Fresh) : r.1.Fresh := by
  cases h with
  | ignored _ _ _ => exact hf
  | align _ _ hs _ =>
    refine hf.of_eq (fun _ => by simp [hs]) ?_
    unfold Link.align
    split <;> rfl
  | prove _ _ hs _ =>
    refine hf.of_eq (fun _ => by simp [hs]) ?_
    unfold Link.prove
    split <;> rfl
  | failed _ _ _ _ => exact .failed l
  | startOver _ hs => exact hf.of_eq (fun _ => by simp [hs]) rfl
  | shorten _ _ => exact hf.of_eq id rfl
  | noteReady _ _ => exact hf.of_eq id rfl
  | enter _ hs => exact hf.of_eq (fun _ => by simp [hs]) rfl
  | outage _ hs => exact hf.of_eq (fun _ => by rcases hs with hs | hs <;> simp [hs]) rfl
  | busy _ _ _ => exact hf.of_eq id rfl
  | stillBusy _ _ _ => exact hf
  | busyEnded _ _ hr =>
    cases hr with
    | idle _ => exact hf
    | flushed _ _ hq => exact hq.fresh rfl (hf.of_eq id rfl)
    | cleared _ _ => exact hf.of_eq id rfl
  | acknowledge _ _ ha => exact ha.fresh hf
  | @recover a _ _ hs ha hr =>
    obtain ⟨acked, unacked, watch, hl⟩ := ha.frame_of_accepted ha.accepted
    have hnone : a.1.retrievable = none := by
      rw [hl]
      exact hf (by simp [hs])
    cases hr with
    | busy _ => exact fun _ => hnone
    | flushed _ hq => exact hq.fresh rfl fun _ => hnone

/-- Every call keeps it. -/
theorem StepMove.fresh {l : Link} {now : ℕ} {call : Call} {r : Link × List Action}
    (h : StepMove codec l now call r) (hf : l.Fresh) : r.1.Fresh := by
  cases h with
  | established => exact hf
  | startIgnored _ => exact hf
  | started _ => exact fun _ => rfl
  | fail _ hm => exact hm.fresh hf
  | retrieve _ => exact fun _ => rfl
  | detach => exact fun _ => rfl
  | abandon => exact fun _ => rfl
  | send _ hm => exact hm.fresh hf
  | timeout _ hm => exact hm.fresh hf
  | onStatus _ _ hm => exact hm.fresh hf
  | onData _ _ _ hm =>
    cases hm with
    | refused _ _ => exact hf
    | enter hs hr => exact hr.fresh (hf.of_eq (fun _ => by simp [hs]) rfl)
    | received _ hr => exact hr.fresh hf
  | flushIgnored _ => exact hf.of_eq id rfl
  | flushed _ _ => exact hf.of_eq id rfl

/-! ## Runs -/

/-- The MSUs that the peer acknowledges with a call. -/
def releasedBy (l : Link) : Call → ℕ
  | .onData bsn _ _ =>
    if l.isAligned = true ∨ l.state = .alignedReady then l.acknowledgedBy bsn else 0
  | .onStatus .ready bsn => if l.state = .inService then l.acknowledgedBy bsn else 0
  | .onStatus .processorRecovered bsn =>
    if l.state = .processorOutage then l.acknowledgedBy bsn else 0
  | _ => 0

/-- The User Data that encoding refused in a call. -/
def refusedBy (call : Call) (out : List Action) : ℕ :=
  match call with
  | .send _ | .onStatus .busyEnded _ => refusedCount out
  | .onStatus .processorRecovered _ => refusedAfterRecovery out
  | _ => 0

def givenBy : Call → ℕ
  | .send _ => 1
  | _ => 0

/-- The MSUs that a call hands over from what a failure left. -/
def returnedBy (l : Link) : Call → ℕ
  | .retrieve fsnc => (l.retrieve fsnc).2.length
  | .detach => (l.detach.2.map Retrievable.len).getD 0
  | _ => 0

/-- The MSUs that a retrieval takes out and does not hand over. -/
def setAsideBy (l : Link) : Call → ℕ
  | .retrieve fsnc =>
    match l.retrievable with
    | some held => (held.retrieve fsnc).confirmed + (held.retrieve fsnc).unconfirmed.length
    | none => 0
  | _ => 0

def abandonedBy (l : Link) : Call → ℕ
  | .abandon => l.abandon.2
  | _ => 0

theorem returned_and_setAside (l : Link) (fsnc : Option ℕ) :
    l.returnedBy (.retrieve fsnc) + l.setAsideBy (.retrieve fsnc) = l.heldCount := by
  unfold returnedBy setAsideBy heldCount retrieve
  cases h : l.retrievable with
  | none => rfl
  | some held =>
    have hlength := held.retrieve_length fsnc
    simp only [Option.map_some, Option.getD_some]
    omega

theorem StatusMove.holding {l : Link} {status : Status} {bsn now : ℕ} {r : Link × List Action}
    (h : StatusMove codec l now status bsn r) (hn : l.Numbered) (hw : l.InWindow)
    (hf : l.Fresh) :
    r.1.holding + l.releasedBy (.onStatus status bsn) + lostCount r.2 +
      refusedBy (.onStatus status bsn) r.2 = l.holding := by
  have hplain (hr : r.1.holding = l.holding) (ho : lostCount r.2 = 0)
      (hs : status ≠ .ready ∧ status ≠ .busyEnded ∧ status ≠ .processorRecovered) :
      r.1.holding + l.releasedBy (.onStatus status bsn) + lostCount r.2 +
        refusedBy (.onStatus status bsn) r.2 = l.holding := by
    obtain ⟨hready, hbusy, hrecovered⟩ := hs
    have hreleased : l.releasedBy (.onStatus status bsn) = 0 := by
      cases status <;> first | contradiction | rfl
    have hrefused : refusedBy (.onStatus status bsn) r.2 = 0 := by
      cases status <;> first | contradiction | rfl
    simp only [hr, ho, hreleased, hrefused, Nat.add_zero]
  cases h with
  | ignored _ _ hi =>
    have hreleased : l.releasedBy (.onStatus status bsn) = 0 := by
      cases status with
      | ready => exact if_neg fun hs => by simp [isAligned, hs] at hi
      | processorRecovered => exact if_neg fun hs => by simp [isAligned, hs] at hi
      | _ => rfl
    have hrefused : refusedBy (.onStatus status bsn) [] = 0 := by cases status <;> rfl
    rw [hreleased, hrefused]
    rfl
  | align _ _ _ hs =>
    refine hplain ?_ ?_ (by rcases hs with rfl | rfl | rfl <;> decide)
    · unfold Link.align
      split <;> rfl
    · simp [Link.align]
  | prove _ _ _ hs =>
    refine hplain ?_ ?_ (by rcases hs with rfl | rfl <;> decide)
    · unfold Link.prove
      split <;> rfl
    · simp [Link.prove]
  | failed _ _ hs hstatus =>
    exact hplain (holding_failed (hf hs)) (by simp)
      (by rcases hstatus with rfl | rfl | rfl | rfl <;> decide)
  | startOver _ _ => exact hplain rfl rfl (by decide)
  | shorten _ _ => exact hplain rfl rfl (by decide)
  | noteReady _ hs => simp [releasedBy, refusedBy, hs, Link.holding, heldCount]
  | enter _ hs => simp [releasedBy, refusedBy, hs, enterService, Link.holding, heldCount]
  | outage _ _ => exact hplain rfl rfl (by decide)
  | busy _ _ _ => exact hplain rfl (by simp) (by decide)
  | stillBusy _ _ _ => exact hplain rfl rfl (by decide)
  | busyEnded _ _ hr =>
    obtain ⟨hcount, hlost⟩ := hr.holding
    simp only [releasedBy, refusedBy, hlost]
    omega
  | @acknowledge a bsn hs ha =>
    obtain ⟨hcount, hlost⟩ := ha.holding hn hw (by simp [hs]) hf
    have hreleased : l.releasedBy (.onStatus .ready bsn) = l.acknowledgedBy bsn := if_pos hs
    change a.1.holding + l.releasedBy (.onStatus .ready bsn) + lostCount a.2.1 + 0 = l.holding
    simp only [hreleased, hlost, hcount, Nat.add_zero]
  | @recover a r bsn hs ha hr =>
    obtain ⟨hcount, hlost⟩ := ha.holding hn hw (by simp [hs]) hf
    have hresumed := hr.holding a.2.1 ha.noReport
    have hreleased : l.releasedBy (.onStatus .processorRecovered bsn) = l.acknowledgedBy bsn :=
      if_pos hs
    change r.1.holding + l.releasedBy (.onStatus .processorRecovered bsn) +
      lostCount (a.2.1 ++ r.2) + refusedAfterRecovery (a.2.1 ++ r.2) = l.holding
    rw [hreleased, lostCount_append, hlost]
    omega

theorem DataMove.holding {l : Link} {bsn fsn now : ℕ} {message : UserDataMessage}
    {r : Link × List Action} (h : DataMove codec l bsn fsn message now r) (hn : l.Numbered)
    (hw : l.InWindow) (hf : l.Fresh) :
    r.1.holding + l.releasedBy (.onData bsn fsn message) + lostCount r.2 = l.holding := by
  cases h with
  | refused ha hs =>
    have hreleased : l.releasedBy (.onData bsn fsn message) = 0 := if_neg (by simp [ha, hs])
    rw [hreleased]
    simp
  | @enter r hs hr =>
    have hentered : l.enterService.1.Numbered :=
      hn.of_eq (by simp [hs, enterService]) rfl hn.fsnIn_lt rfl rfl
    obtain ⟨hcount, hlost⟩ := hr.holding hentered hw (by simp [enterService])
      (hf.of_eq (fun _ => by simp [hs]) rfl)
    have hreleased : l.releasedBy (.onData bsn fsn message) =
        l.enterService.1.acknowledgedBy bsn := if_pos (.inr hs)
    have hout : lostCount (l.enterService.2 ++ r.2) = 0 := by simp [enterService, hlost]
    change r.1.holding + l.releasedBy (.onData bsn fsn message) +
      lostCount (l.enterService.2 ++ r.2) = l.holding
    rw [hreleased, hout, hcount]
    rfl
  | received ha hr =>
    obtain ⟨hcount, hlost⟩ := hr.holding hn hw (by rintro hs; simp [isAligned, hs] at ha) hf
    have hreleased : l.releasedBy (.onData bsn fsn message) = l.acknowledgedBy bsn :=
      if_pos (.inl ha)
    rw [hreleased, hlost, hcount, Nat.add_zero]

theorem lostCount_startActions (codec : Codec) (l : Link) :
    lostCount (l.startActions codec) = l.heldCount := by
  have hcount : l.abandon.2 = l.heldCount := rfl
  simp only [startActions, hcount, lostCount_append, lostCount_ite, lostCount_sendStatus]
  split
  · simp
  · simp
    omega

/-- No call loses count of an MSU. -/
theorem StepMove.holding {l : Link} {now : ℕ} {call : Call} {r : Link × List Action}
    (h : StepMove codec l now call r) (hn : l.Numbered) (hw : l.InWindow) (hf : l.Fresh) :
    r.1.holding + l.releasedBy call + (l.returnedBy call + l.setAsideBy call) +
      l.abandonedBy call + lostCount r.2 + refusedBy call r.2 = l.holding + givenBy call := by
  have hemptied : { l with retrievable := none }.holding + l.heldCount = l.holding := rfl
  cases h with
  | established => simp [releasedBy, returnedBy, setAsideBy, abandonedBy, refusedBy, givenBy]
  | startIgnored _ => rfl
  | started _ =>
    have hlost := lostCount_startActions codec l
    change { l with retrievable := none }.holding + lostCount (l.startActions codec) = l.holding
    rw [hlost]
    exact hemptied
  | fail _ hm =>
    obtain ⟨hcount, hlost⟩ := hm.holding hf
    simp [releasedBy, returnedBy, setAsideBy, abandonedBy, refusedBy, givenBy, hcount, hlost]
  | retrieve fsnc =>
    rw [returned_and_setAside]
    exact hemptied
  | detach => exact hemptied
  | abandon => exact hemptied
  | send _ hm =>
    have hcount := hm.holding
    simp only [releasedBy, returnedBy, setAsideBy, abandonedBy, refusedBy, givenBy]
    omega
  | timeout _ hm =>
    obtain ⟨hcount, hlost⟩ := hm.holding hf
    simp [releasedBy, returnedBy, setAsideBy, abandonedBy, refusedBy, givenBy, hcount, hlost]
  | onStatus status bsn hm =>
    have hcount := hm.holding hn hw hf
    simp only [returnedBy, setAsideBy, abandonedBy, givenBy]
    omega
  | onData _ _ _ hm =>
    have hcount := hm.holding hn hw hf
    simp only [returnedBy, setAsideBy, abandonedBy, refusedBy, givenBy]
    omega
  | flushIgnored _ => rfl
  | flushed _ _ => simp [releasedBy, returnedBy, setAsideBy, abandonedBy, refusedBy, givenBy]; rfl

/-- The account of a run: the MSUs given to `send`, and where those are that the link does
not hold any more. -/
structure Ledger where
  given : ℕ
  released : ℕ
  returned : ℕ
  setAside : ℕ
  abandoned : ℕ
  discarded : ℕ
  deriving DecidableEq

def Ledger.start : Ledger := ⟨0, 0, 0, 0, 0, 0⟩

def noteLedger (g : Ledger) (l : Link) (e : Event) (r : Link × List Action) : Ledger where
  given := g.given + givenBy e.call
  released := g.released + l.releasedBy e.call
  returned := g.returned + l.returnedBy e.call
  setAside := g.setAside + l.setAsideBy e.call
  abandoned := g.abandoned + l.abandonedBy e.call
  discarded := g.discarded + (lostCount r.2 + refusedBy e.call r.2)

/-- Every MSU given is in one column. -/
def Balanced (p : Link × Ledger) : Prop :=
  p.2.given = p.2.released + p.1.unacked.length + p.1.unsent.length + p.1.heldCount +
    p.2.returned + p.2.setAside + p.2.discarded + p.2.abandoned

instance (p : Link × Ledger) : Decidable (Balanced p) := inferInstanceAs (Decidable (_ = _))

/-- What carries the account over a run. -/
structure Accounted (p : Link × Ledger) : Prop where
  numbered : p.1.Numbered
  inWindow : p.1.InWindow
  fresh : p.1.Fresh
  balanced : Balanced p

theorem Accounted.step {p : Link × Ledger} (h : Accounted p) (e : Event)
    (hw : (step codec p.1 e).1.InWindow) : Accounted (watch (step codec) noteLedger p e) := by
  have hmove := step_move codec p.1 e
  have hcount := hmove.holding h.numbered h.inWindow h.fresh
  have hbefore := h.balanced
  refine ⟨hmove.numbered h.numbered h.inWindow, hw, hmove.fresh h.fresh, ?_⟩
  unfold Balanced at hbefore ⊢
  simp only [watch, noteLedger]
  simp only [holding] at hcount
  omega

/-- Every MSU given to a link is accounted for exactly once, after every call of a run that
keeps fewer than half the circle of numbers unacknowledged. -/
theorem every_msu_accounted (codec : Codec) (timers : LinkTimers) (proving : Proving)
    (txQueue : ℕ) (events : List Event)
    (h : Along (fun l e => (step codec l e).1) (fun l e => (step codec l e).1.InWindow)
      (new timers proving txQueue) events) :
    Along (watch (step codec) noteLedger)
      (fun p e => Balanced (watch (step codec) noteLedger p e))
      (new timers proving txQueue, .start) events := by
  have hplain := @along_map _ _ (watch (step codec) noteLedger) _
    (fun l e => (step codec l e).1) (fun l e => (step codec l e).1.InWindow) Prod.fst
    (fun _ _ => rfl) (new timers proving txQueue, .start) events
  have hstart : Accounted (new timers proving txQueue, .start) :=
    ⟨new_numbered timers proving txQueue, Nat.zero_le _, fun _ => rfl, rfl⟩
  refine @along_of_invariant _ _ _ Accounted _ _ ?_ ?_ _ hstart _ (hplain.mpr h)
  · intro p e hp hw
    exact hp.step e hw
  · intro p e hp hw
    exact (hp.step e hw).balanced

theorem every_msu_accounted_of_failure :
    Along (watch (step wire) noteLedger)
      (fun p e => Balanced (watch (step wire) noteLedger p e))
      (new .default .normal 10, .start)
      (bringUp ++ [⟨8300, .send [0x85, 1, 2]⟩, ⟨8400, .fail .linkTest⟩, ⟨8500, .start⟩]) :=
  every_msu_accounted wire .default .normal 10
    (bringUp ++ [⟨8300, .send [0x85, 1, 2]⟩, ⟨8400, .fail .linkTest⟩, ⟨8500, .start⟩])
    (by decide)

/-- Retrieval without an FSNC takes the unacknowledged message out of the link, and neither
hands it over nor counts it. -/
theorem retrieval_uncounted :
    let p := run (watch (step wire) noteLedger) (new .default .normal 10, .start)
      (bringUp ++ [⟨8300, .send [0x85, 1, 2]⟩, ⟨8400, .fail .linkTest⟩, ⟨8500, .retrieve none⟩])
    p.2.given = 1 ∧ p.2.released + p.1.unacked.length + p.1.unsent.length + p.1.heldCount +
      p.2.returned + p.2.discarded + p.2.abandoned = 0 := by
  decide

end Link

end SiphonSigtran.M2pa
