import SiphonSigtran.M2pa.Link
import Mathlib.Logic.Basic

/-!
# What each operation of a link can do

For each operation the relation between a link and the result, one constructor
for each thing the operation can do, and the theorem that the operation is in it.
`step_move` puts them together: `StepMove codec l e r` holds of the result `r` of the
event `e` at the link `l`. An invariant of the link is proved by cases on the
move, for any result in the relation, and never by unfolding the operation.
-/

namespace SiphonSigtran.M2pa.Link

variable {codec : Codec}

/-! ## Failure and start -/

/-- The link a failure leaves. -/
def failed (l : Link) : Link :=
  { l with
    retrievable := some l.leave
    unacked := []
    unsent := []
    state := .outOfService
    remoteBusy := false
    ackDue := false
    peerReady := false }

@[simp] theorem failed_state (l : Link) : l.failed.state = .outOfService := rfl

@[simp] theorem failed_isAligned (l : Link) : l.failed.isAligned = false := rfl

/-- What a failure has the caller do. -/
def failActions (codec : Codec) (l : Link) (reason : Failure) : List Action :=
  Timer.all.map .stop ++
    (if reason = .association then [] else l.sendStatus codec .outOfService statusStream) ++
    [.outOfService reason]

inductive FailMove (codec : Codec) (l : Link) (reason : Failure) : Link × List Action → Prop
  | out (h : l.state = .outOfService) : FailMove codec l reason (l, [])
  | failed (h : l.state ≠ .outOfService) :
      FailMove codec l reason (l.failed, l.failActions codec reason)

theorem fail_move (codec : Codec) (l : Link) (reason : Failure) :
    FailMove codec l reason (l.fail codec reason) := by
  by_cases h : l.state = .outOfService
  · rw [fail, if_pos h]
    exact .out h
  · rw [fail, if_neg h]
    exact .failed h

theorem fail_of_started {l : Link} (h : l.state ≠ .outOfService) (reason : Failure) :
    l.fail codec reason = (l.failed, l.failActions codec reason) := if_neg h

/-- The link with which alignment starts. -/
def started (l : Link) : Link :=
  { l with
    retrievable := none
    fsnOut := seqMask
    fsnIn := seqMask
    acked := seqMask
    bsnWatch := 0
    remoteBusy := false
    ackDue := false
    peerReady := false
    useEmergency := l.proving = .emergency
    state := .notAligned }

/-- What the start has the caller do. -/
def startActions (codec : Codec) (l : Link) : List Action :=
  (if l.abandon.2 > 0 then [.discarded .txLostOnFailure l.abandon.2] else []) ++
    l.started.sendStatus codec .alignment statusStream ++ [.start .t2 l.timers.t2]

/-! ## Transmission -/

/-- The link after one MSU was numbered, sent and kept. -/
def transmitted (l : Link) (msu : Msu) (now : ℕ) : Link :=
  let fsn := (l.fsnOut + 1) % 0x1000000
  { l with fsnOut := fsn, ackDue := false, unacked := l.unacked ++ [⟨fsn, now, msu⟩] }

inductive TransmitMove (codec : Codec) (l : Link) (msu : Msu) (now : ℕ) :
    Link × List Action → Prop
  | sent (frame : Frame)
      (h : codec.encode (.userData l.fsnIn ((l.fsnOut + 1) % 0x1000000) ⟨0, msu⟩) = some frame) :
      TransmitMove codec l msu now (l.transmitted msu now,
        .send frame dataStream (serviceIndicator msu) ::
          (if l.unacked.isEmpty then [.start .t7 l.timers.t7] else []))
  | refused
      (h : codec.encode (.userData l.fsnIn ((l.fsnOut + 1) % 0x1000000) ⟨0, msu⟩) = none) :
      TransmitMove codec l msu now (l, [.discarded .encode 1])

theorem transmit_move (codec : Codec) (l : Link) (msu : Msu) (now : ℕ) :
    TransmitMove codec l msu now (l.transmit codec msu now) := by
  cases h : codec.encode (.userData l.fsnIn ((l.fsnOut + 1) % 0x1000000) ⟨0, msu⟩) with
  | none =>
    simp only [transmit, h]
    exact .refused h
  | some frame =>
    simp only [transmit, h]
    exact .sent frame h

/-- Transmission touches the numbering, the buffer and the due acknowledgement only. -/
theorem TransmitMove.frame {l : Link} {msu : Msu} {now : ℕ} {r : Link × List Action}
    (h : TransmitMove codec l msu now r) :
    ∃ fsnOut ackDue unacked, r.1 =
      { l with fsnOut := fsnOut, ackDue := ackDue, unacked := unacked } := by
  cases h with
  | sent frame _ => exact ⟨_, _, _, rfl⟩
  | refused _ => exact ⟨l.fsnOut, l.ackDue, l.unacked, rfl⟩

/-- The MSUs of a queue, popped and transmitted one after the other. -/
inductive QueueMove (codec : Codec) (now : ℕ) : List Msu → Link → Link × List Action → Prop
  | nil (l : Link) : QueueMove codec now [] l (l, [])
  | cons {msu : Msu} {rest : List Msu} {l : Link} {first others : Link × List Action}
      (h : TransmitMove codec { l with unsent := rest } msu now first)
      (hrest : QueueMove codec now rest first.1 others) :
      QueueMove codec now (msu :: rest) l (others.1, first.2 ++ others.2)

theorem transmitQueue_move (codec : Codec) (now : ℕ) (queue : List Msu) (l : Link) :
    QueueMove codec now queue l (transmitQueue codec now queue l) := by
  induction queue generalizing l with
  | nil => exact .nil l
  | cons msu rest ih => exact .cons (transmit_move codec _ msu now) (ih _)

theorem flushUnsent_move (codec : Codec) (l : Link) (now : ℕ) :
    QueueMove codec now l.unsent l (l.flushUnsent codec now) :=
  transmitQueue_move codec now l.unsent l

/-- Sending its queue touches the numbering, the buffers and the due acknowledgement of a
link only, and leaves nothing unsent. -/
theorem QueueMove.frame {now : ℕ} {queue : List Msu} {l : Link} {r : Link × List Action}
    (h : QueueMove codec now queue l r) (hl : l.unsent = queue) :
    ∃ fsnOut ackDue unacked, r.1 =
      { l with fsnOut := fsnOut, ackDue := ackDue, unacked := unacked, unsent := [] } := by
  induction h with
  | nil l => exact ⟨l.fsnOut, l.ackDue, l.unacked, by cases l; cases hl; rfl⟩
  | cons hfirst _ ih =>
    cases hfirst with
    | sent frame _ =>
      obtain ⟨fsnOut, ackDue, unacked, hr⟩ := ih rfl
      exact ⟨fsnOut, ackDue, unacked, hr⟩
    | refused _ =>
      obtain ⟨fsnOut, ackDue, unacked, hr⟩ := ih rfl
      exact ⟨fsnOut, ackDue, unacked, hr⟩

inductive SendMove (codec : Codec) (l : Link) (msu : Msu) (now : ℕ) : Link × List Action → Prop
  | transmitted {r : Link × List Action} (h : l.state = .inService) (hb : l.remoteBusy = false)
      (ht : TransmitMove codec l msu now r) : SendMove codec l msu now r
  | congested (h : l.isAligned = true) (hb : ¬ (l.state = .inService ∧ l.remoteBusy = false))
      (hq : l.txQueue ≤ l.unsent.length) :
      SendMove codec l msu now (l, [.discarded .txCongestion 1])
  | queued (h : l.isAligned = true) (hb : ¬ (l.state = .inService ∧ l.remoteBusy = false))
      (hq : l.unsent.length < l.txQueue) :
      SendMove codec l msu now ({ l with unsent := l.unsent ++ [msu] }, [])
  | refused (h : l.isAligned = false) :
      SendMove codec l msu now (l, [.discarded .txNotInService 1])

theorem send_move (codec : Codec) (l : Link) (msu : Msu) (now : ℕ) :
    SendMove codec l msu now (l.send codec msu now) := by
  have haligned (h : l.isAligned = true) : SendMove codec l msu now
      (if l.state = .inService ∧ l.remoteBusy = false then l.transmit codec msu now
        else if l.unsent.length ≥ l.txQueue then (l, [.discarded .txCongestion 1])
        else ({ l with unsent := l.unsent ++ [msu] }, [])) := by
    by_cases hb : l.state = .inService ∧ l.remoteBusy = false
    · rw [if_pos hb]
      exact .transmitted hb.1 hb.2 (transmit_move codec l msu now)
    · rw [if_neg hb]
      by_cases hq : l.unsent.length ≥ l.txQueue
      · rw [if_pos hq]
        exact .congested h hb hq
      · rw [if_neg hq]
        exact .queued h hb (Nat.not_le.mp hq)
  unfold send
  split
  case h_1 h => exact haligned (by simp [isAligned, h])
  case h_2 h => exact haligned (by simp [isAligned, h])
  case h_3 hi ho => exact .refused (by simp_all [isAligned])

/-! ## Acknowledgement -/

/-- The link after a BSN that acknowledges something. -/
def released (l : Link) (bsn : ℕ) : Link :=
  { l with acked := bsn % 0x1000000, unacked := popAcknowledged (bsn % 0x1000000) l.unacked }

/-- The BSN names the last acknowledged message or one still unacknowledged. -/
def Accepts (l : Link) (bsn : ℕ) : Prop :=
  seqDistance l.acked (bsn % 0x1000000) ≤ seqDistance l.acked l.fsnOut

instance (l : Link) (bsn : ℕ) : Decidable (l.Accepts bsn) :=
  inferInstanceAs (Decidable (_ ≤ _))

inductive AcknowledgeMove (codec : Codec) (l : Link) (bsn : ℕ) (strict : Bool) (now : ℕ) :
    Link × List Action × Bool → Prop
  | ignored (h : ¬ l.Accepts bsn) (hs : strict = false) :
      AcknowledgeMove codec l bsn strict now (l, [], true)
  | abnormal (h : ¬ l.Accepts bsn) (hs : strict = true) (hw : l.bsnWatch = 0) :
      AcknowledgeMove codec l bsn strict now
        ({ l with bsnWatch := 2 }, [.discarded .rxAbnormalBsn 1], false)
  | faulty {r : Link × List Action} (h : ¬ l.Accepts bsn) (hs : strict = true)
      (hw : 0 < l.bsnWatch) (hf : FailMove codec l .abnormalBsn r) :
      AcknowledgeMove codec l bsn strict now (r.1, .discarded .rxAbnormalBsn 1 :: r.2, false)
  | repeated (watch : ℕ) (h : l.Accepts bsn)
      (hstep : seqDistance l.acked (bsn % 0x1000000) = 0) :
      AcknowledgeMove codec l bsn strict now ({ l with bsnWatch := watch }, [], true)
  | advanced (watch : ℕ) (h : l.Accepts bsn)
      (hstep : 0 < seqDistance l.acked (bsn % 0x1000000)) :
      AcknowledgeMove codec l bsn strict now
        ({ l.released bsn with bsnWatch := watch },
          if l.state = .inService ∧ l.remoteBusy = false then (l.released bsn).armT7 now else [],
          true)

theorem acknowledge_move (codec : Codec) (l : Link) (bsn : ℕ) (strict : Bool) (now : ℕ) :
    AcknowledgeMove codec l bsn strict now (l.acknowledge codec bsn strict now) := by
  unfold acknowledge
  by_cases h : l.Accepts bsn
  · have hgt : ¬ seqDistance l.acked (bsn % 0x1000000) > seqDistance l.acked l.fsnOut :=
      Nat.not_lt.mpr h
    simp only [if_neg hgt]
    by_cases hstep : seqDistance l.acked (bsn % 0x1000000) > 0
    · cases strict <;> simp only [Bool.false_eq_true, ↓reduceIte, if_pos hstep]
      · exact .advanced l.bsnWatch h hstep
      · exact .advanced (l.bsnWatch - 1) h hstep
    · have hzero := Nat.eq_zero_of_not_pos hstep
      cases strict <;> simp only [Bool.false_eq_true, ↓reduceIte, if_neg hstep]
      · exact .repeated l.bsnWatch h hzero
      · exact .repeated (l.bsnWatch - 1) h hzero
  · have hgt : seqDistance l.acked (bsn % 0x1000000) > seqDistance l.acked l.fsnOut :=
      Nat.not_le.mp h
    simp only [if_pos hgt]
    cases strict with
    | false => exact .ignored h rfl
    | true =>
      simp only [Bool.not_true, Bool.false_eq_true, ↓reduceIte]
      by_cases hw : l.bsnWatch > 0
      · rw [if_pos hw]
        exact .faulty h rfl hw (fail_move codec l .abnormalBsn)
      · rw [if_neg hw]
        exact .abnormal h rfl (Nat.eq_zero_of_not_pos hw)

/-- An acknowledgement fails the link, or touches the numbering and the buffer only. -/
theorem AcknowledgeMove.frame {l : Link} {bsn now : ℕ} {strict : Bool}
    {a : Link × List Action × Bool} (h : AcknowledgeMove codec l bsn strict now a) :
    a.1 = l.failed ∨ ∃ acked unacked watch, a.1 =
      { l with acked := acked, unacked := unacked, bsnWatch := watch } := by
  cases h with
  | ignored _ _ => exact .inr ⟨l.acked, l.unacked, l.bsnWatch, rfl⟩
  | abnormal _ _ _ => exact .inr ⟨l.acked, l.unacked, 2, rfl⟩
  | faulty _ _ _ hf =>
    cases hf with
    | out _ => exact .inr ⟨l.acked, l.unacked, l.bsnWatch, rfl⟩
    | failed _ => exact .inl rfl
  | repeated watch _ _ => exact .inr ⟨l.acked, l.unacked, watch, rfl⟩
  | advanced watch _ _ => exact .inr ⟨_, _, watch, rfl⟩

/-- A Link Status is never discarded for its BSN. -/
theorem AcknowledgeMove.accepted {l : Link} {bsn now : ℕ} {a : Link × List Action × Bool}
    (h : AcknowledgeMove codec l bsn false now a) : a.2.2 = true := by
  cases h with
  | ignored _ _ => rfl
  | abnormal _ hs _ => cases hs
  | faulty _ hs _ _ => cases hs
  | repeated _ _ _ => rfl
  | advanced _ _ _ => rfl

theorem AcknowledgeMove.frame_of_accepted {l : Link} {bsn now : ℕ} {strict : Bool}
    {a : Link × List Action × Bool} (h : AcknowledgeMove codec l bsn strict now a)
    (ha : a.2.2 = true) :
    ∃ acked unacked watch, a.1 =
      { l with acked := acked, unacked := unacked, bsnWatch := watch } := by
  cases h with
  | ignored _ _ => exact ⟨l.acked, l.unacked, l.bsnWatch, rfl⟩
  | abnormal _ _ _ => cases ha
  | faulty _ _ _ _ => cases ha
  | repeated watch _ _ => exact ⟨l.acked, l.unacked, watch, rfl⟩
  | advanced watch _ _ => exact ⟨_, _, watch, rfl⟩

/-! ## Timers -/

/-- The timers whose running out is an event for the link as it is. -/
def heeds (l : Link) : Timer → Bool
  | .t1 => l.state = .alignedReady
  | .t2 => l.state = .notAligned
  | .t3 => l.state = .aligned
  | .t4 => l.state = .proving
  | .proving => l.state = .proving
  | .t6 => l.isAligned && l.remoteBusy
  | .t7 => l.state = .inService && !l.unacked.isEmpty

inductive TimeoutMove (codec : Codec) (l : Link) (timer : Timer) (now : ℕ) :
    Link × List Action → Prop
  | stale (h : l.heeds timer = false) : TimeoutMove codec l timer now (l, [])
  | failed (reason : Failure) (h : l.state ≠ .outOfService) :
      TimeoutMove codec l timer now (l.failed, l.failActions codec reason)
  | ready (h : l.state = .proving) (ht : timer = .t4) (hp : l.peerReady = false) :
      TimeoutMove codec l timer now ({ l with state := .alignedReady },
        .stop .proving :: l.sendStatus codec .ready statusStream ++ [.start .t1 l.timers.t1])
  | enter (h : l.state = .proving) (ht : timer = .t4) (hp : l.peerReady = true) :
      TimeoutMove codec l timer now (l.enterService.1,
        .stop .proving :: l.sendStatus codec .ready statusStream ++ l.enterService.2)
  | repeatProving (h : l.state = .proving) (ht : timer = .proving) :
      TimeoutMove codec l timer now (l, l.sendStatus codec l.provingStatus statusStream ++
        [.start .proving l.timers.provingInterval])
  | rearm (h : l.state = .inService) (ht : timer = .t7) (hu : l.unacked ≠ []) :
      TimeoutMove codec l timer now (l, l.armT7 now)

theorem timeoutMove_of_fail {l : Link} {timer : Timer} {now : ℕ} (reason : Failure)
    (h : l.state ≠ .outOfService) : TimeoutMove codec l timer now (l.fail codec reason) := by
  rw [fail_of_started h]
  exact .failed reason h

theorem timeout_move (codec : Codec) (l : Link) (timer : Timer) (now : ℕ) :
    TimeoutMove codec l timer now (l.timeout codec timer now) := by
  cases timer with
  | t1 =>
    unfold timeout
    split <;> try contradiction
    · exact timeoutMove_of_fail _ (by simp_all)
    · exact .stale (by simp_all [heeds])
  | t2 =>
    unfold timeout
    split <;> try contradiction
    · exact timeoutMove_of_fail _ (by simp_all)
    · exact .stale (by simp_all [heeds])
  | t3 =>
    unfold timeout
    split <;> try contradiction
    · exact timeoutMove_of_fail _ (by simp_all)
    · exact .stale (by simp_all [heeds])
  | t4 =>
    unfold timeout
    split <;> try contradiction
    case h_3 h =>
      dsimp only
      split
      case isTrue hp => exact .enter h rfl hp
      case isFalse hp => exact .ready h rfl (by simpa using hp)
    · exact .stale (by simp_all [heeds])
  | proving =>
    unfold timeout
    split <;> try contradiction
    case h_4 h => exact .repeatProving h rfl
    · exact .stale (by simp_all [heeds])
  | t6 =>
    unfold timeout
    split <;> try contradiction
    case h_6 h =>
      split
      · exact timeoutMove_of_fail _ (by simp [h])
      · exact .stale (by simp_all [heeds])
    case h_7 h =>
      split
      · exact timeoutMove_of_fail _ (by simp [h])
      · exact .stale (by simp_all [heeds])
    · exact .stale (by simp_all [heeds, isAligned])
  | t7 =>
    unfold timeout
    split <;> try contradiction
    case h_8 h =>
      split
      case h_1 oldest ho =>
        split
        · exact timeoutMove_of_fail _ (by simp [h])
        · exact .rearm h rfl (by rintro hu; simp [hu] at ho)
      case h_2 ho => exact .stale (by simp_all [heeds])
    · exact .stale (by simp_all [heeds])

/-! ## Link Status -/

inductive EndBusyMove (codec : Codec) (l : Link) (now : ℕ) : Link × List Action → Prop
  | idle (h : l.remoteBusy = false) : EndBusyMove codec l now (l, [])
  | flushed {r : Link × List Action} (h : l.remoteBusy = true) (hs : l.state = .inService)
      (hf : QueueMove codec now l.unsent ({ l with remoteBusy := false }.restartT7 now).1 r) :
      EndBusyMove codec l now
        (r.1, .stop .t6 :: ({ l with remoteBusy := false }.restartT7 now).2 ++ r.2)
  | cleared (h : l.remoteBusy = true) (hs : l.state ≠ .inService) :
      EndBusyMove codec l now ({ l with remoteBusy := false }, [.stop .t6])

theorem endBusy_move (codec : Codec) (l : Link) (now : ℕ) :
    EndBusyMove codec l now (l.endBusy codec now) := by
  unfold endBusy
  cases h : l.remoteBusy with
  | false => exact .idle h
  | true =>
    simp only [Bool.not_true, Bool.false_eq_true, ↓reduceIte]
    by_cases hs : l.state = .inService
    · rw [if_pos hs]
      exact .flushed h hs
        (flushUnsent_move codec ({ l with remoteBusy := false }.restartT7 now).1 now)
    · rw [if_neg hs]
      exact .cleared h hs

/-- The link as the peer's recovery leaves it, before what was queued goes out. -/
def resumed (l : Link) : Link := { l with unacked := [], fsnOut := l.acked, state := .inService }

@[simp] theorem resumed_fsnOut (l : Link) : l.resumed.fsnOut = l.acked := rfl

/-- What the recovery has the caller do before that. -/
def resumeActions (codec : Codec) (l : Link) : List Action :=
  (if l.unacked.isEmpty then [] else [.discarded .txFlushedByPeer l.unacked.length]) ++
    (l.resumed.sendStatus codec .ready dataStream ++ [.remoteProcessorOutage false])

inductive ResumeMove (codec : Codec) (l : Link) (now : ℕ) : Link × List Action → Prop
  | busy (h : l.remoteBusy = true) : ResumeMove codec l now (l.resumed, l.resumeActions codec)
  | flushed {r : Link × List Action} (h : l.remoteBusy = false)
      (hf : QueueMove codec now l.unsent l.resumed r) :
      ResumeMove codec l now (r.1, l.resumeActions codec ++ r.2)

theorem resume_move (codec : Codec) (l : Link) (now : ℕ) :
    ResumeMove codec l now (l.resume codec now) := by
  by_cases h : l.remoteBusy = true
  · have hr : l.resume codec now = (l.resumed, l.resumeActions codec) := by
      unfold resume
      dsimp only
      rw [if_pos h, List.append_nil]
      rfl
    rw [hr]
    exact .busy h
  · have hr : l.resume codec now = ((l.resumed.flushUnsent codec now).1,
        l.resumeActions codec ++ (l.resumed.flushUnsent codec now).2) := by
      unfold resume
      dsimp only
      rw [if_neg h]
      rfl
    rw [hr]
    exact .flushed (by simpa using h) (flushUnsent_move codec l.resumed now)

inductive StatusMove (codec : Codec) (l : Link) (now : ℕ) :
    Status → ℕ → Link × List Action → Prop
  | ignored (status : Status) (bsn : ℕ)
      (h : l.isAligned = true →
        l.state = .processorOutage ∧ (status = .ready ∨ status = .processorOutage) ∨
          l.state = .inService ∧ status = .processorRecovered) :
      StatusMove codec l now status bsn (l, [])
  | align (status : Status) (bsn : ℕ) (h : l.state = .notAligned)
      (hs : status = .alignment ∨ status = .provingNormal ∨ status = .provingEmergency) :
      StatusMove codec l now status bsn (l.align codec status)
  | prove (status : Status) (bsn : ℕ) (h : l.state = .aligned)
      (hs : status = .provingNormal ∨ status = .provingEmergency) :
      StatusMove codec l now status bsn (l.prove status)
  | failed (status : Status) (bsn : ℕ) (h : l.state ≠ .outOfService)
      (hs : status = .alignment ∨ status = .provingNormal ∨ status = .provingEmergency ∨
        status = .outOfService) :
      StatusMove codec l now status bsn (l.failed, l.failActions codec .peerStatus)
  | startOver (bsn : ℕ) (h : l.state = .proving) :
      StatusMove codec l now .alignment bsn
        ({ l with state := .aligned }, [.stop .t4, .stop .proving, .start .t3 l.timers.t3])
  | shorten (bsn : ℕ) (h : l.state = .proving) :
      StatusMove codec l now .provingEmergency bsn
        ({ l with useEmergency := true }, [.start .t4 { l with useEmergency := true }.t4])
  | noteReady (bsn : ℕ) (h : l.state = .proving) :
      StatusMove codec l now .ready bsn ({ l with peerReady := true }, [])
  | enter (bsn : ℕ) (h : l.state = .alignedReady) :
      StatusMove codec l now .ready bsn
        (l.enterService.1, l.sendStatus codec .ready statusStream ++ l.enterService.2)
  | outage (bsn : ℕ) (h : l.state = .alignedReady ∨ l.state = .inService) :
      StatusMove codec l now .processorOutage bsn ({ l with state := .processorOutage },
        [.stop .t1, .stop .t7, .remoteProcessorOutage true])
  | busy (bsn : ℕ) (h : l.isAligned = true) (hb : l.remoteBusy = false) :
      StatusMove codec l now .busy bsn ({ l with remoteBusy := true },
        .stop .t7 :: if l.unacked.isEmpty then [] else [.start .t6 l.timers.t6])
  | stillBusy (bsn : ℕ) (h : l.isAligned = true) (hb : l.remoteBusy = true) :
      StatusMove codec l now .busy bsn (l, [])
  | busyEnded {r : Link × List Action} (bsn : ℕ) (h : l.isAligned = true)
      (hr : EndBusyMove codec l now r) : StatusMove codec l now .busyEnded bsn r
  | acknowledge {a : Link × List Action × Bool} (bsn : ℕ) (h : l.state = .inService)
      (ha : AcknowledgeMove codec l bsn false now a) :
      StatusMove codec l now .ready bsn (a.1, a.2.1)
  | recover {a : Link × List Action × Bool} {r : Link × List Action} (bsn : ℕ)
      (h : l.state = .processorOutage) (ha : AcknowledgeMove codec l bsn false now a)
      (hr : ResumeMove codec a.1 now r) :
      StatusMove codec l now .processorRecovered bsn (r.1, a.2.1 ++ r.2)

theorem statusMove_of_fail {l : Link} {status : Status} {bsn now : ℕ}
    (h : l.state ≠ .outOfService)
    (hs : status = .alignment ∨ status = .provingNormal ∨ status = .provingEmergency ∨
      status = .outOfService) :
    StatusMove codec l now status bsn (l.fail codec .peerStatus) := by
  rw [fail_of_started h]
  exact .failed status bsn h hs

theorem statusMove_of_busy {l : Link} {bsn now : ℕ} (h : l.isAligned = true) :
    StatusMove codec l now .busy bsn l.becomeBusy := by
  unfold becomeBusy
  cases hb : l.remoteBusy with
  | true => exact .stillBusy bsn h hb
  | false => exact .busy bsn h hb

theorem onStatus_move (codec : Codec) (l : Link) (status : Status) (bsn now : ℕ) :
    StatusMove codec l now status bsn (l.onStatus codec status bsn now) := by
  cases hstate : l.state with
  | outOfService =>
    simp only [onStatus, hstate]
    exact .ignored status bsn (by simp [isAligned, hstate])
  | notAligned =>
    cases status <;> simp only [onStatus, hstate] <;>
      first
        | exact .align _ bsn hstate (by decide)
        | exact .ignored _ bsn (by simp [isAligned, hstate])
  | aligned =>
    cases status <;> simp only [onStatus, hstate] <;>
      first
        | exact .prove _ bsn hstate (by decide)
        | exact statusMove_of_fail (by simp [hstate]) (by decide)
        | exact .ignored _ bsn (by simp [isAligned, hstate])
  | proving =>
    cases status <;> simp only [onStatus, hstate]
    case alignment => exact .startOver bsn hstate
    case provingEmergency =>
      split
      · simpa only [hstate] using @StatusMove.shorten codec l now bsn hstate
      · exact .ignored _ bsn (by simp [isAligned, hstate])
    case ready => simpa only [hstate] using @StatusMove.noteReady codec l now bsn hstate
    case outOfService => exact statusMove_of_fail (by simp [hstate]) (by decide)
    all_goals exact .ignored _ bsn (by simp [isAligned, hstate])
  | alignedReady =>
    cases status <;> simp only [onStatus, hstate] <;>
      first
        | exact .enter bsn hstate
        | exact .outage bsn (.inl hstate)
        | exact statusMove_of_fail (by simp [hstate]) (by decide)
        | exact .ignored _ bsn (by simp [isAligned, hstate])
  | inService =>
    have haligned : l.isAligned = true := by simp [isAligned, hstate]
    cases status <;> simp only [onStatus, hstate] <;>
      first
        | exact .acknowledge bsn hstate (acknowledge_move codec l bsn false now)
        | exact .outage bsn (.inr hstate)
        | exact statusMove_of_busy haligned
        | exact .busyEnded bsn haligned (endBusy_move codec l now)
        | exact statusMove_of_fail (by simp [hstate]) (by decide)
        | exact .ignored _ bsn (fun _ => .inr ⟨hstate, rfl⟩)
  | processorOutage =>
    have haligned : l.isAligned = true := by simp [isAligned, hstate]
    cases status <;> simp only [onStatus, hstate] <;>
      first
        | exact .recover bsn hstate (acknowledge_move codec l bsn false now)
            (resume_move codec _ now)
        | exact statusMove_of_busy haligned
        | exact .busyEnded bsn haligned (endBusy_move codec l now)
        | exact statusMove_of_fail (by simp [hstate]) (by decide)
        | exact .ignored _ bsn (fun _ => .inl ⟨hstate, by decide⟩)

/-! ## User Data -/

/-- A message at a link in service is discarded for its BSN, acknowledges only, is out of
sequence, or is delivered. -/
inductive ReceiveMove (codec : Codec) (l : Link) (bsn fsn : ℕ) (message : UserDataMessage)
    (now : ℕ) : Link × List Action → Prop
  | discarded {a : Link × List Action × Bool} (ha : AcknowledgeMove codec l bsn true now a)
      (h : a.2.2 = false) : ReceiveMove codec l bsn fsn message now (a.1, a.2.1)
  | empty {a : Link × List Action × Bool} (ha : AcknowledgeMove codec l bsn true now a)
      (h : a.2.2 = true) (he : message.isEmpty = true) :
      ReceiveMove codec l bsn fsn message now (a.1, a.2.1)
  | outOfSequence {a : Link × List Action × Bool} (ha : AcknowledgeMove codec l bsn true now a)
      (h : a.2.2 = true) (he : message.isEmpty = false)
      (hf : fsn % 0x1000000 ≠ (a.1.fsnIn + 1) % 0x1000000) :
      ReceiveMove codec l bsn fsn message now (a.1, a.2.1 ++ [.discarded .rxOutOfSequence 1])
  | delivered {a : Link × List Action × Bool} (ha : AcknowledgeMove codec l bsn true now a)
      (h : a.2.2 = true) (he : message.isEmpty = false)
      (hf : fsn % 0x1000000 = (a.1.fsnIn + 1) % 0x1000000) :
      ReceiveMove codec l bsn fsn message now
        ({ a.1 with fsnIn := fsn % 0x1000000, ackDue := true }, a.2.1 ++ [.deliver message.msu])

theorem receive_move (codec : Codec) (l : Link) (bsn fsn : ℕ) (message : UserDataMessage)
    (now : ℕ) :
    ReceiveMove codec l bsn fsn message now (l.receive codec bsn fsn message now) := by
  have ha := acknowledge_move codec l bsn true now
  unfold receive
  dsimp only
  generalize l.acknowledge codec bsn true now = a at ha
  cases h : a.2.2 with
  | false => exact .discarded ha h
  | true =>
    simp only [Bool.not_true, Bool.false_eq_true, ↓reduceIte]
    cases he : message.isEmpty with
    | true => exact .empty ha h he
    | false =>
      simp only [Bool.false_eq_true, ↓reduceIte]
      by_cases hf : fsn % 0x1000000 = (a.1.fsnIn + 1) % 0x1000000
      · rw [if_neg (not_not.mpr hf)]
        exact .delivered ha h he hf
      · rw [if_pos hf]
        exact .outOfSequence ha h he hf

/-- A message received fails the link, or touches the numbering, the buffer and the due
acknowledgement only. -/
theorem ReceiveMove.frame {l : Link} {bsn fsn now : ℕ} {message : UserDataMessage}
    {r : Link × List Action} (h : ReceiveMove codec l bsn fsn message now r) :
    r.1 = l.failed ∨ ∃ acked unacked watch fsnIn ackDue, r.1 =
      { l with
        acked := acked, unacked := unacked, bsnWatch := watch, fsnIn := fsnIn,
        ackDue := ackDue } := by
  have hframe {a : Link × List Action × Bool} (ha : AcknowledgeMove codec l bsn true now a) :
      a.1 = l.failed ∨ ∃ acked unacked watch fsnIn ackDue, a.1 =
        { l with
          acked := acked, unacked := unacked, bsnWatch := watch, fsnIn := fsnIn,
          ackDue := ackDue } := by
    obtain hfailed | ⟨acked, unacked, watch, hl⟩ := ha.frame
    · exact .inl hfailed
    · exact .inr ⟨acked, unacked, watch, l.fsnIn, l.ackDue, hl⟩
  cases h with
  | discarded ha _ => exact hframe ha
  | empty ha _ _ => exact hframe ha
  | outOfSequence ha _ _ _ => exact hframe ha
  | delivered ha h _ _ =>
    obtain ⟨acked, unacked, watch, hl⟩ := ha.frame_of_accepted h
    exact .inr ⟨acked, unacked, watch, _, true, by rw [hl]⟩

inductive DataMove (codec : Codec) (l : Link) (bsn fsn : ℕ) (message : UserDataMessage)
    (now : ℕ) : Link × List Action → Prop
  | refused (h : l.isAligned = false) (hr : l.state ≠ .alignedReady) :
      DataMove codec l bsn fsn message now
        (l, if message.isEmpty then [] else [.discarded .rxNotInService 1])
  | enter {r : Link × List Action} (h : l.state = .alignedReady)
      (hr : ReceiveMove codec l.enterService.1 bsn fsn message now r) :
      DataMove codec l bsn fsn message now (r.1, l.enterService.2 ++ r.2)
  | received {r : Link × List Action} (h : l.isAligned = true)
      (hr : ReceiveMove codec l bsn fsn message now r) : DataMove codec l bsn fsn message now r

theorem onData_move (codec : Codec) (l : Link) (bsn fsn : ℕ) (message : UserDataMessage)
    (now : ℕ) : DataMove codec l bsn fsn message now (l.onData codec bsn fsn message now) := by
  unfold onData
  split
  case h_1 h => exact .enter h (receive_move codec _ bsn fsn message now)
  case h_2 h => exact .received (by simp [isAligned, h]) (receive_move codec l bsn fsn message now)
  case h_3 h => exact .received (by simp [isAligned, h]) (receive_move codec l bsn fsn message now)
  case h_4 hr hs hp => exact .refused (by simp_all [isAligned]) (by simpa using hr)

/-! ## Calls -/

inductive StepMove (codec : Codec) (l : Link) (now : ℕ) : Call → Link × List Action → Prop
  | established :
      StepMove codec l now .established (l, l.sendStatus codec .outOfService statusStream)
  | startIgnored (h : l.state ≠ .outOfService) : StepMove codec l now .start (l, [])
  | started (h : l.state = .outOfService) :
      StepMove codec l now .start (l.started, l.startActions codec)
  | fail {r : Link × List Action} (reason : Failure) (h : FailMove codec l reason r) :
      StepMove codec l now (.fail reason) r
  | retrieve (fsnc : Option ℕ) :
      StepMove codec l now (.retrieve fsnc) ({ l with retrievable := none }, [])
  | detach : StepMove codec l now .detach ({ l with retrievable := none }, [])
  | abandon : StepMove codec l now .abandon ({ l with retrievable := none }, [])
  | send {r : Link × List Action} (msu : Msu) (h : SendMove codec l msu now r) :
      StepMove codec l now (.send msu) r
  | timeout {r : Link × List Action} (timer : Timer) (h : TimeoutMove codec l timer now r) :
      StepMove codec l now (.timeout timer) r
  | onStatus {r : Link × List Action} (status : Status) (bsn : ℕ)
      (h : StatusMove codec l now status bsn r) : StepMove codec l now (.onStatus status bsn) r
  | onData {r : Link × List Action} (bsn fsn : ℕ) (message : UserDataMessage)
      (h : DataMove codec l bsn fsn message now r) :
      StepMove codec l now (.onData bsn fsn message) r
  | flushIgnored (h : l.ackDue = false ∨ l.isAligned = false) :
      StepMove codec l now .flushAck ({ l with ackDue := false }, [])
  | flushed (h : l.ackDue = true) (ha : l.isAligned = true) :
      StepMove codec l now .flushAck ({ l with ackDue := false },
        sendFrame codec (.userData l.fsnIn l.fsnOut .empty) dataStream none)

theorem retrieve_fst (l : Link) (fsnc : Option ℕ) :
    (l.retrieve fsnc).1 = { l with retrievable := none } := by
  unfold retrieve
  split
  · rfl
  · next h => rw [← h]

/-- Every event at a link is one of its moves. -/
theorem step_move (codec : Codec) (l : Link) (e : Event) :
    StepMove codec l e.now e.call (l.step codec e) := by
  obtain ⟨now, call⟩ := e
  cases call with
  | established => exact .established
  | start =>
    simp only [step, Link.start]
    split
    case isTrue h => exact .startIgnored h
    case isFalse h => exact .started (not_not.mp h)
  | fail reason => exact .fail reason (fail_move codec l reason)
  | retrieve fsnc =>
    simp only [step, retrieve_fst]
    exact .retrieve fsnc
  | detach => exact .detach
  | abandon => exact .abandon
  | send msu => exact .send msu (send_move codec l msu now)
  | timeout timer => exact .timeout timer (timeout_move codec l timer now)
  | onStatus status bsn => exact .onStatus status bsn (onStatus_move codec l status bsn now)
  | onData bsn fsn message =>
    exact .onData bsn fsn message (onData_move codec l bsn fsn message now)
  | flushAck =>
    simp only [step, flushAck]
    have haligned : { l with ackDue := false }.isAligned = l.isAligned := rfl
    rw [haligned]
    split
    case isTrue h => exact .flushIgnored (by simpa using h)
    case isFalse h =>
      have hdue : l.ackDue = true ∧ l.isAligned = true := by simpa using h
      exact .flushed hdue.1 hdue.2

end SiphonSigtran.M2pa.Link
