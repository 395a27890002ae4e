import SiphonSigtran.M2pa.LinkSequence

/-!
# Order of the User Data of a link

An observer of a link keeps the MSUs that `send` accepted, the MSUs of the User
Data frames that left, and the number after which the next frame has to come:
all ones after a start, the last number the peer kept after its recovery, and
else the number of the last frame.
-/

namespace SiphonSigtran.M2pa

open Lib.Serial

/-- The number and the MSU of a User Data frame. -/
def dataFrame (codec : Codec) : Action → Option (ℕ × Msu)
  | .send frame _ _ =>
    match codec.decode frame with
    | some (.userData _ fsn message) => some (fsn, message.msu)
    | _ => none
  | _ => none

def sentData (codec : Codec) (out : List Action) : List (ℕ × Msu) :=
  out.filterMap (dataFrame codec)

def Action.isDiscarded : Action → Bool
  | .discarded _ _ => true
  | _ => false

variable {codec : Codec}

@[simp] theorem sentData_nil : sentData codec [] = [] := rfl

@[simp] theorem sentData_append (xs ys : List Action) :
    sentData codec (xs ++ ys) = sentData codec xs ++ sentData codec ys := List.filterMap_append

@[simp] theorem sentData_cons (a : Action) (xs : List Action) :
    sentData codec (a :: xs) = (dataFrame codec a).toList ++ sentData codec xs := by
  unfold sentData
  rw [List.filterMap_cons]
  cases dataFrame codec a <;> rfl

@[simp] theorem sentData_ite (p : Prop) [Decidable p] (xs ys : List Action) :
    sentData codec (if p then xs else ys) = if p then sentData codec xs else sentData codec ys :=
  apply_ite _ _ _ _

@[simp] theorem dataFrame_deliver (m : Msu) : dataFrame codec (.deliver m) = none := rfl
@[simp] theorem dataFrame_start (t : Timer) (n : ℕ) : dataFrame codec (.start t n) = none := rfl
@[simp] theorem dataFrame_stop (t : Timer) : dataFrame codec (.stop t) = none := rfl
@[simp] theorem dataFrame_inService : dataFrame codec .inService = none := rfl
@[simp] theorem dataFrame_outOfService (r : Failure) :
    dataFrame codec (.outOfService r) = none := rfl
@[simp] theorem dataFrame_remoteProcessorOutage (b : Bool) :
    dataFrame codec (.remoteProcessorOutage b) = none := rfl
@[simp] theorem dataFrame_discarded (r : Discard) (n : ℕ) :
    dataFrame codec (.discarded r n) = none := rfl

namespace Link

open Lib.Machine

/-! ## What each operation sends -/

theorem Numbered.sentData_sendStatus {l : Link} (h : l.Numbered) (codec : Codec)
    (status : Status) (stream : ℕ) : sentData codec (l.sendStatus codec status stream) = [] := by
  have hsendable : (M2paMessage.linkStatus l.fsnIn l.fsnOut status).Sendable :=
    ⟨Nat.le_of_lt_succ h.fsnIn_lt, Nat.le_of_lt_succ h.fsnOut_lt⟩
  unfold sendStatus sendFrame
  split
  next frame hframe => simp [dataFrame, codec.decode_encode hsendable hframe]
  next => rfl

theorem Numbered.sentData_failActions {l : Link} (h : l.Numbered) (reason : Failure) :
    sentData codec (l.failActions codec reason) = [] := by
  simp [failActions, Timer.all, h.sentData_sendStatus]

@[simp] theorem sentData_armT7 (l : Link) (now : ℕ) : sentData codec (l.armT7 now) = [] := by
  unfold armT7
  split <;> rfl

/-- User Data sent from the number `mark` on, with the MSUs accepted meanwhile: frames in
sequence, and MSUs from the front of what waits. -/
structure Carries (l : Link) (mark : ℕ) (accepted : List Msu) (data : List (ℕ × Msu))
    (after : Link) : Prop where
  sequence : Consecutive 0x1000000 mark (data.map Prod.fst)
  last : after.fsnOut = (data.map Prod.fst).getLast?.getD mark
  order : ∃ gone, l.unsent ++ accepted = gone ++ after.unsent ∧
    (data.map Prod.snd).Sublist gone

/-- An operation that sends no User Data, and keeps what waits or loses it. -/
structure Silent (codec : Codec) (l : Link) (r : Link × List Action) : Prop where
  data : sentData codec r.2 = []
  last : r.1.fsnOut = l.fsnOut
  unsent : r.1.unsent = l.unsent ∨ r.1.unsent = []

theorem Silent.carries {l : Link} {r : Link × List Action} (h : Silent codec l r) :
    Carries l l.fsnOut [] (sentData codec r.2) r.1 := by
  refine ⟨by simp [h.data], by simp [h.data, h.last], ?_⟩
  obtain hkept | hlost := h.unsent
  · exact ⟨[], by simp [hkept], by simp [h.data]⟩
  · exact ⟨l.unsent, by simp [hlost], by simp [h.data]⟩

/-- What follows a silent operation carries on for both. -/
theorem Silent.then {l l' : Link} {mark : ℕ} {out : List Action} {r : Link × List Action}
    (h : Silent codec l (l', out)) (hr : Carries l' mark [] (sentData codec r.2) r.1) :
    Carries l mark [] (sentData codec (out ++ r.2)) r.1 := by
  have hdata : sentData codec (out ++ r.2) = sentData codec r.2 := by
    rw [sentData_append, h.data, List.nil_append]
  obtain ⟨gone, hsplit, hsub⟩ := hr.order
  rw [hdata]
  refine ⟨hr.sequence, hr.last, ?_⟩
  obtain hkept | hlost := h.unsent
  · exact ⟨gone, by rw [← hsplit]; simpa using hkept.symm, hsub⟩
  · obtain ⟨rfl, hafter⟩ : gone = [] ∧ r.1.unsent = [] := by
      simpa [show l'.unsent = [] from hlost] using hsplit
    exact ⟨l.unsent, by simp [hafter], hsub.trans (List.nil_sublist _)⟩

theorem Silent.rfl (l : Link) : Silent codec l (l, []) := ⟨Eq.refl _, Eq.refl _, .inl (Eq.refl _)⟩

theorem Numbered.silent_failed {l : Link} (h : l.Numbered) (reason : Failure) :
    Silent codec l (l.failed, l.failActions codec reason) :=
  ⟨h.sentData_failActions reason, Eq.refl _, .inr (Eq.refl _)⟩

theorem TransmitMove.sentData {l : Link} {msu : Msu} {now : ℕ} {r : Link × List Action}
    (h : TransmitMove codec l msu now r) (hn : l.Numbered) :
    r.2.any Action.isDiscarded = false ∧
        sentData codec r.2 = [((l.fsnOut + 1) % 0x1000000, msu)] ∧
        r.1.fsnOut = (l.fsnOut + 1) % 0x1000000 ∨
      r.2.any Action.isDiscarded = true ∧ sentData codec r.2 = [] ∧ r.1.fsnOut = l.fsnOut := by
  cases h with
  | sent frame hframe =>
    have hsendable :
        (M2paMessage.userData l.fsnIn ((l.fsnOut + 1) % 0x1000000) ⟨0, msu⟩).Sendable :=
      ⟨Nat.le_of_lt_succ hn.fsnIn_lt, Nat.le_of_lt_succ (Nat.mod_lt _ (by decide)), rfl⟩
    have hdecode := codec.decode_encode hsendable hframe
    refine .inl ⟨?_, ?_, rfl⟩
    · split <;> rfl
    · simp [dataFrame, hdecode]
  | refused _ => exact .inr ⟨rfl, rfl, rfl⟩

/-- A queue leaves in order, with consecutive numbers. -/
theorem QueueMove.sentData {now : ℕ} {queue : List Msu} {l : Link} {r : Link × List Action}
    (h : QueueMove codec now queue l r) (hn : l.Numbered) (hs : l.state ≠ .outOfService) :
    Consecutive 0x1000000 l.fsnOut ((sentData codec r.2).map Prod.fst) ∧
      r.1.fsnOut = ((sentData codec r.2).map Prod.fst).getLast?.getD l.fsnOut ∧
      ((sentData codec r.2).map Prod.snd).Sublist queue := by
  induction h with
  | nil l => simp
  | cons hfirst _ ih =>
    obtain ⟨hfirstn, hstate⟩ := hfirst.numbered (hn.popped _) hs
    obtain ⟨hseq, hlast, hsub⟩ := ih hfirstn (by rwa [hstate])
    obtain ⟨-, hdata, hout⟩ | ⟨-, hdata, hout⟩ := hfirst.sentData (hn.popped _)
    · rw [hout] at hseq hlast
      refine ⟨?_, ?_, ?_⟩
      · simpa [hdata] using hseq
      · simpa [hdata, List.getLast?_cons] using hlast
      · simpa [hdata] using hsub
    · rw [hout] at hseq hlast
      refine ⟨?_, ?_, ?_⟩
      · simpa [hdata] using hseq
      · simpa [hdata] using hlast
      · simpa [hdata] using hsub.cons _

/-- The MSUs that a call got accepted. -/
def acceptedBy (call : Call) (out : List Action) : List Msu :=
  match call with
  | .send msu => if out.any Action.isDiscarded then [] else [msu]
  | _ => []

theorem SendMove.carries {l : Link} {msu : Msu} {now : ℕ} {r : Link × List Action}
    (h : SendMove codec l msu now r) (hn : l.Numbered) (hq : l.Queued) :
    Carries l l.fsnOut (acceptedBy (.send msu) r.2) (sentData codec r.2) r.1 := by
  unfold acceptedBy
  cases h with
  | transmitted hs hb ht =>
    obtain ⟨fsnOut, ackDue, unacked, hr⟩ := ht.frame
    have hbefore : l.unsent = [] := hq.calm hs hb
    have hafter : r.1.unsent = [] := by rw [hr]; exact hbefore
    obtain ⟨hany, hdata, hout⟩ | ⟨hany, hdata, hout⟩ := ht.sentData hn
    · refine ⟨by simp [hdata], by simp [hdata, hout], [msu], ?_, by simp [hdata]⟩
      simp [hany, hbefore, hafter]
    · simp only [hany]
      exact Silent.carries ⟨hdata, hout, .inr hafter⟩
  | congested _ _ _ => exact Silent.carries ⟨rfl, rfl, .inl rfl⟩
  | queued _ _ _ => exact ⟨trivial, rfl, [], rfl, .slnil⟩
  | refused _ => exact Silent.carries ⟨rfl, rfl, .inl rfl⟩

theorem FailMove.silent {l : Link} {reason : Failure} {r : Link × List Action}
    (h : FailMove codec l reason r) (hn : l.Numbered) : Silent codec l r := by
  cases h with
  | out _ => exact .rfl l
  | failed _ => exact hn.silent_failed reason

theorem AcknowledgeMove.silent {l : Link} {bsn now : ℕ} {strict : Bool}
    {a : Link × List Action × Bool} (h : AcknowledgeMove codec l bsn strict now a)
    (hn : l.Numbered) : Silent codec l (a.1, a.2.1) := by
  cases h with
  | ignored _ _ => exact .rfl l
  | abnormal _ _ _ => exact ⟨rfl, rfl, .inl rfl⟩
  | faulty _ _ _ hf =>
    have hfailed := hf.silent hn
    exact ⟨by simpa using hfailed.data, hfailed.last, hfailed.unsent⟩
  | repeated _ _ _ => exact ⟨rfl, rfl, .inl rfl⟩
  | advanced _ _ _ => exact ⟨by simp, rfl, .inl rfl⟩

theorem ReceiveMove.silent {l : Link} {bsn fsn now : ℕ} {message : UserDataMessage}
    {r : Link × List Action} (h : ReceiveMove codec l bsn fsn message now r)
    (hn : l.Numbered) : Silent codec l r := by
  cases h with
  | discarded ha _ => exact ha.silent hn
  | empty ha _ _ => exact ha.silent hn
  | outOfSequence ha _ _ _ =>
    have hack := ha.silent hn
    exact ⟨by simpa using hack.data, hack.last, hack.unsent⟩
  | delivered ha _ _ _ =>
    have hack := ha.silent hn
    exact ⟨by simpa using hack.data, hack.last, hack.unsent⟩

theorem DataMove.silent {l : Link} {bsn fsn now : ℕ} {message : UserDataMessage}
    {r : Link × List Action} (h : DataMove codec l bsn fsn message now r) (hn : l.Numbered) :
    Silent codec l r := by
  cases h with
  | refused _ _ => exact ⟨by simp, rfl, .inl rfl⟩
  | enter hs hr =>
    have hentered : l.enterService.1.Numbered :=
      hn.of_eq (by simp [hs, enterService]) rfl hn.fsnIn_lt rfl rfl
    have hreceived := hr.silent hentered
    exact ⟨by simpa [enterService] using hreceived.data, hreceived.last, hreceived.unsent⟩
  | received _ hr => exact hr.silent hn

theorem TimeoutMove.silent {l : Link} {timer : Timer} {now : ℕ} {r : Link × List Action}
    (h : TimeoutMove codec l timer now r) (hn : l.Numbered) : Silent codec l r := by
  have hstatus := hn.sentData_sendStatus codec
  cases h with
  | stale _ => exact .rfl l
  | failed reason _ => exact hn.silent_failed reason
  | ready _ _ _ => exact ⟨by simp [hstatus], rfl, .inl rfl⟩
  | enter _ _ _ => exact ⟨by simp [hstatus, enterService], rfl, .inl rfl⟩
  | repeatProving _ _ => exact ⟨by simp [hstatus], rfl, .inl rfl⟩
  | rearm _ _ _ => exact ⟨by simp, rfl, .inl rfl⟩

theorem EndBusyMove.carries {l : Link} {now : ℕ} {r : Link × List Action}
    (h : EndBusyMove codec l now r) (hn : l.Numbered) :
    Carries l l.fsnOut [] (sentData codec r.2) r.1 := by
  cases h with
  | idle _ => exact (Silent.rfl l).carries
  | flushed _ hs hf =>
    have hrestarted : ({ l with remoteBusy := false }.restartT7 now).1.Numbered :=
      hn.of_eq Iff.rfl rfl hn.fsnIn_lt rfl (restartT7_fsn { l with remoteBusy := false } now)
    obtain ⟨hseq, hlast, hsub⟩ := hf.sentData hrestarted (by simp [restartT7, hs])
    obtain ⟨fsnOut, ackDue, unacked, hr⟩ := hf.frame rfl
    refine ⟨?_, ?_, l.unsent, ?_, ?_⟩
    · simpa [restartT7] using hseq
    · simpa [restartT7] using hlast
    · simp [hr]
    · simpa [restartT7] using hsub
  | cleared _ _ => exact Silent.carries ⟨rfl, rfl, .inl rfl⟩

/-- After a recovery the numbers go on from the last one the peer kept. -/
theorem ResumeMove.carries {l : Link} {now : ℕ} {r : Link × List Action}
    (h : ResumeMove codec l now r) (hn : l.Numbered) :
    Carries l l.acked [] (sentData codec r.2) r.1 := by
  have hready := hn.resumed.sentData_sendStatus codec .ready dataStream
  cases h with
  | busy _ =>
    exact ⟨by simp [resumeActions, hready], by simp [resumeActions, hready],
      [], List.append_nil _, by simp [resumeActions, hready]⟩
  | flushed _ hf =>
    obtain ⟨hseq, hlast, hsub⟩ := hf.sentData hn.resumed (by simp [resumed])
    obtain ⟨fsnOut, ackDue, unacked, hr⟩ := hf.frame rfl
    refine ⟨?_, ?_, l.unsent, ?_, ?_⟩
    · simpa [resumeActions, hready] using hseq
    · simpa [resumeActions, hready] using hlast
    · simp [hr]
    · simpa [resumeActions, hready] using hsub

/-! ## Runs -/

/-- The number after which the User Data of a call continues, when it continued after
`last` before. -/
def restartMark (last : ℕ) (l : Link) : Call → ℕ
  | .start => if l.state = .outOfService then seqMask else last
  | .onStatus .processorRecovered bsn =>
    if l.state = .processorOutage then if l.Accepts bsn then bsn % 0x1000000 else l.acked
    else last
  | _ => last

theorem AcknowledgeMove.acked {l : Link} {bsn now : ℕ} {a : Link × List Action × Bool}
    (h : AcknowledgeMove codec l bsn false now a) (hn : l.Numbered) :
    a.1.acked = if l.Accepts bsn then bsn % 0x1000000 else l.acked := by
  cases h with
  | ignored ha _ => rw [if_neg ha]
  | abnormal _ hs _ => cases hs
  | faulty _ hs _ _ => cases hs
  | repeated _ ha hstep =>
    rw [if_pos ha]
    have hgap := add_gap (by decide : 0 < 0x1000000) l.acked (bsn % 0x1000000)
    rw [← seqDistance_eq_gap hn.acked_lt, hstep] at hgap
    rwa [Nat.add_zero, Nat.mod_eq_of_lt hn.acked_lt, Nat.mod_mod] at hgap
  | advanced _ ha _ => rw [if_pos ha]; rfl

theorem Numbered.silent_align {l : Link} (h : l.Numbered) (hs : l.state = .notAligned)
    (status : Status) : Silent codec l (l.align codec status) := by
  have hdata := (h.align codec hs status).sentData_sendStatus codec
    (l.align codec status).1.provingStatus statusStream
  refine ⟨?_, ?_, ?_⟩
  · change sentData codec (.stop .t2 ::
      (l.align codec status).1.sendStatus codec (l.align codec status).1.provingStatus
        statusStream ++ [.start .t3 (l.align codec status).1.timers.t3]) = []
    rw [List.cons_append, sentData_cons, sentData_append, hdata]
    rfl
  · unfold Link.align
    split <;> rfl
  · unfold Link.align
    split <;> exact .inl rfl

theorem StatusMove.carries {l : Link} {status : Status} {bsn now : ℕ} {r : Link × List Action}
    (h : StatusMove codec l now status bsn r) (hn : l.Numbered) (hw : l.InWindow) :
    Carries l (restartMark l.fsnOut l (.onStatus status bsn)) [] (sentData codec r.2) r.1 := by
  have hstatus := hn.sentData_sendStatus codec
  have hmark (hr : status = .processorRecovered → l.state ≠ .processorOutage) :
      restartMark l.fsnOut l (.onStatus status bsn) = l.fsnOut := by
    unfold restartMark
    split <;> simp_all
  have hsilent (hs : Silent codec l r)
      (hr : status = .processorRecovered → l.state ≠ .processorOutage) :
      Carries l (restartMark l.fsnOut l (.onStatus status bsn)) [] (sentData codec r.2) r.1 := by
    rw [hmark hr]
    exact hs.carries
  cases h with
  | ignored _ _ hi =>
    refine hsilent (.rfl l) ?_
    rintro rfl hs
    simp [isAligned, hs] at hi
  | align _ _ hs _ => exact hsilent (hn.silent_align hs status) (by simp [hs])
  | prove _ _ hs _ =>
    refine hsilent ⟨?_, ?_, ?_⟩ (by simp [hs])
    · simp [Link.prove]
    · unfold Link.prove; split <;> rfl
    · unfold Link.prove; split <;> exact .inl rfl
  | failed _ _ _ hs => exact hsilent (hn.silent_failed _) (by rintro rfl; simp at hs)
  | startOver _ _ => exact hsilent ⟨rfl, rfl, .inl rfl⟩ (by simp)
  | shorten _ _ => exact hsilent ⟨rfl, rfl, .inl rfl⟩ (by simp)
  | noteReady _ _ => exact hsilent ⟨rfl, rfl, .inl rfl⟩ (by simp)
  | enter _ _ => exact hsilent ⟨by simp [hstatus, enterService], rfl, .inl rfl⟩ (by simp)
  | outage _ _ => exact hsilent ⟨rfl, rfl, .inl rfl⟩ (by simp)
  | busy _ _ _ => exact hsilent ⟨by simp, rfl, .inl rfl⟩ (by simp)
  | stillBusy _ _ _ => exact hsilent (.rfl l) (by simp)
  | busyEnded _ _ hr =>
    rw [hmark (by simp)]
    exact hr.carries hn
  | acknowledge _ _ ha => exact hsilent (ha.silent hn) (by simp)
  | recover bsn hs ha hr =>
    have hcarries := hr.carries (ha.numbered hn hw (by simp [hs]))
    rw [ha.acked hn] at hcarries
    have hrestart : restartMark l.fsnOut l (.onStatus .processorRecovered bsn) =
        if l.Accepts bsn then bsn % 0x1000000 else l.acked := if_pos hs
    rw [hrestart]
    exact (ha.silent hn).then hcarries

/-- The User Data of a call. A flush sends an acknowledgement only. -/
def callData (codec : Codec) (call : Call) (out : List Action) : List (ℕ × Msu) :=
  match call with
  | .flushAck => []
  | _ => sentData codec out

/-- What an observer of a link keeps: the MSUs accepted, the MSUs that left, and the number
after which the next one comes. -/
structure Traffic where
  accepted : List Msu
  frames : List Msu
  last : ℕ
  deriving DecidableEq

def Traffic.start : Traffic := ⟨[], [], seqMask⟩

def noteTraffic (codec : Codec) (t : Traffic) (l : Link) (e : Event) (r : Link × List Action) :
    Traffic where
  accepted := t.accepted ++ acceptedBy e.call r.2
  frames := t.frames ++ (callData codec e.call r.2).map Prod.snd
  last := ((callData codec e.call r.2).map Prod.fst).getLast?.getD (restartMark t.last l e.call)

/-- The User Data of a call goes on with the next numbers. -/
def InSequence (codec : Codec) (p : Link × Traffic) (e : Event) : Prop :=
  Consecutive 0x1000000 (restartMark p.2.last p.1 e.call)
    ((callData codec e.call (step codec p.1 e).2).map Prod.fst)

/-- The numbers and queues of a link, and the order of what left. -/
structure InOrder (p : Link × Traffic) : Prop where
  numbers : p.1.state ≠ .outOfService → p.1.unacked.map Unacked.fsn =
    (List.range (seqDistance p.1.acked p.1.fsnOut)).map fun i => (p.1.acked + 1 + i) % 0x1000000
  calm : p.1.state = .inService → p.1.remoteBusy = false → p.1.unsent = []
  unsent_le : p.1.unsent.length ≤ p.1.txQueue
  order : ∃ handled, p.2.accepted = handled ++ p.1.unsent ∧ p.2.frames.Sublist handled

/-- What carries the order over a run. -/
structure Orderly (p : Link × Traffic) : Prop where
  numbered : p.1.Numbered
  inWindow : p.1.InWindow
  queued : p.1.Queued
  last : p.2.last = p.1.fsnOut
  order : ∃ handled, p.2.accepted = handled ++ p.1.unsent ∧ p.2.frames.Sublist handled

theorem Orderly.inOrder {p : Link × Traffic} (h : Orderly p) : InOrder p where
  numbers := fun hs => by
    have hrange := (h.numbered.consecutive hs).eq_map_range
    rwa [List.length_map, ← h.numbered.outstanding h.inWindow hs] at hrange
  calm := h.queued.calm
  unsent_le := h.queued.unsent_le
  order := h.order

/-- Every call carries its traffic on from the mark of its own. -/
theorem StepMove.carries {l : Link} {now : ℕ} {call : Call} {r : Link × List Action}
    (h : StepMove codec l now call r) (hn : l.Numbered) (hw : l.InWindow) (hq : l.Queued) :
    Carries l (restartMark l.fsnOut l call) (acceptedBy call r.2) (callData codec call r.2)
      r.1 := by
  have hstatus := hn.sentData_sendStatus codec
  cases h with
  | established => exact Silent.carries ⟨hstatus .outOfService statusStream, rfl, .inl rfl⟩
  | startIgnored hs =>
    rw [show restartMark l.fsnOut l .start = l.fsnOut from if_neg hs]
    exact (Silent.rfl l).carries
  | started hs =>
    have hdata : sentData codec (l.startActions codec) = [] := by
      have hafter := hn.started hs
      simp [startActions, hafter.sentData_sendStatus]
    have hcall : callData codec .start (l.startActions codec) = [] := hdata
    rw [show restartMark l.fsnOut l .start = seqMask from if_pos hs, hcall]
    exact ⟨trivial, rfl, [], List.append_nil _, .slnil⟩
  | fail _ hf => exact (hf.silent hn).carries
  | retrieve _ => exact Silent.carries ⟨rfl, rfl, .inl rfl⟩
  | detach => exact Silent.carries ⟨rfl, rfl, .inl rfl⟩
  | abandon => exact Silent.carries ⟨rfl, rfl, .inl rfl⟩
  | send _ hm => exact hm.carries hn hq
  | timeout _ hm => exact (hm.silent hn).carries
  | onStatus _ _ hm => exact hm.carries hn hw
  | onData _ _ _ hm => exact (hm.silent hn).carries
  | flushIgnored _ => exact ⟨trivial, rfl, [], List.append_nil _, .slnil⟩
  | flushed _ _ => exact ⟨trivial, rfl, [], List.append_nil _, .slnil⟩

theorem Orderly.step {p : Link × Traffic} (h : Orderly p) (e : Event)
    (hw : (step codec p.1 e).1.InWindow) :
    Orderly (watch (step codec) (noteTraffic codec) p e) ∧ InSequence codec p e := by
  have hmove := step_move codec p.1 e
  obtain ⟨hsequence, hlast, gone, hsplit, hsub⟩ := hmove.carries h.numbered h.inWindow h.queued
  obtain ⟨handled, haccepted, hframes⟩ := h.order
  rw [← h.last] at hsequence hlast
  refine ⟨⟨hmove.numbered h.numbered h.inWindow, hw, hmove.keepsQueued h.queued, hlast.symm,
    handled ++ gone, ?_, ?_⟩, hsequence⟩
  · simp only [watch, noteTraffic]
    rw [haccepted, List.append_assoc, hsplit, List.append_assoc]
  · simp only [watch, noteTraffic]
    exact hframes.append hsub

theorem orderly_new (timers : LinkTimers) (proving : Proving) (txQueue : ℕ) :
    Orderly (new timers proving txQueue, .start) :=
  ⟨new_numbered timers proving txQueue, Nat.zero_le _, new_queued timers proving txQueue, rfl,
    [], rfl, .slnil⟩

/-- In every run that keeps fewer than half the circle of numbers unacknowledged, a started
link numbers its buffer from the last acknowledged message to the last one sent, queues
nothing that it may send, and sends what it accepted in order and in sequence. -/
theorem numbered_in_order (codec : Codec) (timers : LinkTimers) (proving : Proving)
    (txQueue : ℕ) (events : List Event)
    (h : Along (fun l e => (step codec l e).1) (fun l e => (step codec l e).1.InWindow)
      (new timers proving txQueue) events) :
    Along (watch (step codec) (noteTraffic codec))
      (fun p e => InSequence codec p e ∧
        InOrder (watch (step codec) (noteTraffic codec) p e))
      (new timers proving txQueue, .start) events := by
  have hplain := @along_map _ _ (watch (step codec) (noteTraffic codec)) _
    (fun l e => (step codec l e).1) (fun l e => (step codec l e).1.InWindow) Prod.fst
    (fun _ _ => rfl) (new timers proving txQueue, .start) events
  refine @along_of_invariant _ _ _ Orderly _ _ ?_ ?_ _ (orderly_new timers proving txQueue) _
    (hplain.mpr h)
  · intro p e hp hw
    exact (hp.step e hw).1
  · intro p e hp hw
    exact ⟨(hp.step e hw).2, (hp.step e hw).1.inOrder⟩

theorem numbered_in_order_of_send :
    Along (watch (step wire) (noteTraffic wire))
      (fun p e => InSequence wire p e ∧ InOrder (watch (step wire) (noteTraffic wire) p e))
      (new .default .normal 10, .start) (bringUp ++ [⟨8300, .send [0x85, 1, 2]⟩]) :=
  numbered_in_order wire .default .normal 10 (bringUp ++ [⟨8300, .send [0x85, 1, 2]⟩]) (by decide)

/-- After a failure the buffer is empty, and the counters are those of before. -/
theorem failed_numbers_stand :
    let events := bringUp ++ [⟨8300, .send [0x85, 1, 2]⟩, ⟨8400, .fail .linkTest⟩]
    let l := run (fun l e => (step wire l e).1) (new .default .normal 10) events
    Along (fun l e => (step wire l e).1) (fun l e => (step wire l e).1.InWindow)
        (new .default .normal 10) events ∧
      l.unacked.length ≠ seqDistance l.acked l.fsnOut := by
  decide

end Link

end SiphonSigtran.M2pa
