import SiphonSigtran.Lib.Machine
import SiphonSigtran.M2pa.LinkMoves
import Mathlib.Data.List.Chain

/-!
# The service indications of a link

`Action.inService` and `Action.outOfService` are what the runner of a link acts
on: the signalling link test starts on the first and stops on the second. Here
they are compared with the state of the link over whole runs, and service entry
with what the peer said in the proving round at hand.
-/

namespace SiphonSigtran.M2pa

/-- `true` for an in-service indication, `false` for an out-of-service one. -/
def Action.indication : Action → Option Bool
  | .inService => some true
  | .outOfService _ => some false
  | _ => none

/-- The indications among some actions, in order. -/
def indications (out : List Action) : List Bool := out.filterMap Action.indication

@[simp] theorem indications_nil : indications [] = [] := rfl

@[simp] theorem indications_append (xs ys : List Action) :
    indications (xs ++ ys) = indications xs ++ indications ys := List.filterMap_append

@[simp] theorem indications_cons (a : Action) (xs : List Action) :
    indications (a :: xs) = a.indication.toList ++ indications xs := by
  unfold indications
  rw [List.filterMap_cons]
  cases a.indication <;> rfl

@[simp] theorem indication_send (f : Frame) (n : ℕ) (si : Option ℕ) :
    (Action.send f n si).indication = none := rfl
@[simp] theorem indication_deliver (m : Msu) : (Action.deliver m).indication = none := rfl
@[simp] theorem indication_start (t : Timer) (n : ℕ) : (Action.start t n).indication = none := rfl
@[simp] theorem indication_stop (t : Timer) : (Action.stop t).indication = none := rfl
@[simp] theorem indication_inService : Action.inService.indication = some true := rfl
@[simp] theorem indication_outOfService (r : Failure) :
    (Action.outOfService r).indication = some false := rfl
@[simp] theorem indication_remoteProcessorOutage (b : Bool) :
    (Action.remoteProcessorOutage b).indication = none := rfl
@[simp] theorem indication_discarded (r : Discard) (n : ℕ) :
    (Action.discarded r n).indication = none := rfl

@[simp] theorem indications_ite (p : Prop) [Decidable p] (xs ys : List Action) :
    indications (if p then xs else ys) = if p then indications xs else indications ys :=
  apply_ite _ _ _ _

theorem mem_indications {out : List Action} : true ∈ indications out ↔ .inService ∈ out := by
  unfold indications
  rw [List.mem_filterMap]
  constructor
  · rintro ⟨a, ha, hi⟩
    cases a <;> simp_all
  · intro h
    exact ⟨_, h, rfl⟩

namespace Link

open Lib.Machine

variable {codec : Codec}

/-! ## What each operation indicates -/

@[simp] theorem indications_sendFrame (m : M2paMessage) (n : ℕ) (si : Option ℕ) :
    indications (sendFrame codec m n si) = [] := by
  unfold sendFrame
  split <;> rfl

@[simp] theorem indications_sendStatus (l : Link) (s : Status) (n : ℕ) :
    indications (l.sendStatus codec s n) = [] := indications_sendFrame _ _ _

@[simp] theorem indications_failActions (l : Link) (r : Failure) :
    indications (l.failActions codec r) = [false] := by
  simp [failActions, Timer.all]

@[simp] theorem indications_armT7 (l : Link) (now : ℕ) : indications (l.armT7 now) = [] := by
  unfold armT7
  split <;> rfl

/-- What an operation may indicate, by whether the link is aligned before and after it. -/
inductive Announced : Bool → Bool → List Bool → Prop
  | same (b : Bool) : Announced b b []
  | left (b : Bool) : Announced b false [false]
  | entered : Announced false true [true]
  | enteredAndLeft : Announced false false [true, false]

/-- The result of an operation announces what it did to the service of the link. -/
def Announces (l : Link) (r : Link × List Action) : Prop :=
  Announced l.isAligned r.1.isAligned (indications r.2)

theorem announces_quiet {l : Link} {r : Link × List Action} (hs : r.1.state = l.state)
    (ho : indications r.2 = []) : l.Announces r := by
  have haligned : r.1.isAligned = l.isAligned := by simp [isAligned, hs]
  unfold Announces
  rw [ho, haligned]
  exact .same _

theorem failed_announces (codec : Codec) (l : Link) (reason : Failure) :
    l.Announces (l.failed, l.failActions codec reason) := by
  simpa [Announces] using Announced.left _

theorem FailMove.announces {l : Link} {reason : Failure} {r : Link × List Action}
    (h : FailMove codec l reason r) : l.Announces r := by
  cases h with
  | out _ => exact announces_quiet rfl rfl
  | failed _ => exact failed_announces codec l reason

theorem TransmitMove.quiet {l : Link} {msu : Msu} {now : ℕ} {r : Link × List Action}
    (h : TransmitMove codec l msu now r) : r.1.state = l.state ∧ indications r.2 = [] := by
  cases h with
  | sent frame _ => exact ⟨rfl, by simp⟩
  | refused _ => exact ⟨rfl, by simp⟩

theorem QueueMove.quiet {now : ℕ} {queue : List Msu} {l : Link} {r : Link × List Action}
    (h : QueueMove codec now queue l r) : r.1.state = l.state ∧ indications r.2 = [] := by
  induction h with
  | nil l => exact ⟨rfl, rfl⟩
  | cons hfirst _ ih =>
    obtain ⟨hs, ho⟩ := hfirst.quiet
    exact ⟨ih.1.trans hs, by simp [ho, ih.2]⟩

theorem SendMove.announces {l : Link} {msu : Msu} {now : ℕ} {r : Link × List Action}
    (h : SendMove codec l msu now r) : l.Announces r := by
  cases h with
  | transmitted _ _ ht => exact announces_quiet ht.quiet.1 ht.quiet.2
  | congested _ _ _ => exact announces_quiet rfl rfl
  | queued _ _ _ => exact announces_quiet rfl rfl
  | refused _ => exact announces_quiet rfl rfl

theorem AcknowledgeMove.announces {l : Link} {bsn now : ℕ} {strict : Bool}
    {a : Link × List Action × Bool} (h : AcknowledgeMove codec l bsn strict now a) :
    l.Announces (a.1, a.2.1) := by
  cases h with
  | ignored _ _ => exact announces_quiet rfl rfl
  | abnormal _ _ _ => exact announces_quiet rfl rfl
  | faulty _ _ _ hf => simpa [Announces] using hf.announces
  | repeated _ _ _ => exact announces_quiet rfl rfl
  | advanced _ _ _ => exact announces_quiet rfl (by simp)

theorem AcknowledgeMove.quiet {l : Link} {bsn now : ℕ} {a : Link × List Action × Bool}
    (h : AcknowledgeMove codec l bsn false now a) : indications a.2.1 = [] := by
  cases h with
  | ignored _ _ => rfl
  | abnormal _ hstrict _ => cases hstrict
  | faulty _ hstrict _ _ => cases hstrict
  | repeated _ _ _ => rfl
  | advanced _ _ _ => simp

theorem ReceiveMove.announces {l : Link} {bsn fsn now : ℕ} {message : UserDataMessage}
    {r : Link × List Action} (h : ReceiveMove codec l bsn fsn message now r) :
    l.Announces r := by
  cases h with
  | discarded ha _ => exact ha.announces
  | empty ha _ _ => exact ha.announces
  | outOfSequence ha _ _ _ => simpa [Announces] using ha.announces
  | delivered ha _ _ _ => simpa [Announces, isAligned] using ha.announces

/-- A link that enters service on a message may fail on the very same message. -/
theorem Announces.after_enter {l : Link} {r : Link × List Action} (hs : l.state = .alignedReady)
    (h : l.enterService.1.Announces r) : l.Announces (r.1, l.enterService.2 ++ r.2) := by
  have hbefore : l.isAligned = false := by simp [isAligned, hs]
  have hentered : l.enterService.1.isAligned = true := rfl
  unfold Announces at h ⊢
  rw [hentered] at h
  rw [hbefore, indications_append]
  generalize r.1.isAligned = after at h ⊢
  generalize indications r.2 = seen at h ⊢
  cases h with
  | same => exact .entered
  | left => exact .enteredAndLeft

theorem DataMove.announces {l : Link} {bsn fsn now : ℕ} {message : UserDataMessage}
    {r : Link × List Action} (h : DataMove codec l bsn fsn message now r) : l.Announces r := by
  cases h with
  | refused _ _ => exact announces_quiet rfl (by simp)
  | enter hs hr => exact hr.announces.after_enter hs
  | received _ hr => exact hr.announces

theorem TimeoutMove.announces {l : Link} {timer : Timer} {now : ℕ} {r : Link × List Action}
    (h : TimeoutMove codec l timer now r) : l.Announces r := by
  cases h with
  | stale _ => exact announces_quiet rfl rfl
  | failed reason _ => exact failed_announces codec l reason
  | ready hs _ _ => simpa [Announces, isAligned, hs] using Announced.same false
  | enter hs _ _ => simpa [Announces, isAligned, hs, enterService] using Announced.entered
  | repeatProving _ _ => exact announces_quiet rfl (by simp)
  | rearm _ _ _ => exact announces_quiet rfl (by simp)

theorem EndBusyMove.announces {l : Link} {now : ℕ} {r : Link × List Action}
    (h : EndBusyMove codec l now r) : l.Announces r := by
  cases h with
  | idle _ => exact announces_quiet rfl rfl
  | flushed _ _ hf => exact announces_quiet hf.quiet.1 (by simp [hf.quiet.2, restartT7])
  | cleared _ _ => exact announces_quiet rfl rfl

theorem ResumeMove.quiet {l : Link} {now : ℕ} {r : Link × List Action}
    (h : ResumeMove codec l now r) : r.1.state = .inService ∧ indications r.2 = [] := by
  cases h with
  | busy _ => exact ⟨rfl, by simp [resumeActions]⟩
  | flushed _ hf => exact ⟨hf.quiet.1, by simp [resumeActions, hf.quiet.2]⟩

/-- The call brings this Link Status of the peer. -/
def Call.brings (status : Status) : Call → Bool
  | .onStatus received _ => received = status
  | _ => false

/-- The status that takes a link past the in-service indication. -/
def OutageWhileReady (l : Link) (call : Call) : Prop :=
  l.state = .alignedReady ∧ call.brings .processorOutage = true

theorem StatusMove.announces {l : Link} {status : Status} {bsn now : ℕ} {r : Link × List Action}
    (h : StatusMove codec l now status bsn r)
    (hout : ¬ (l.state = .alignedReady ∧ status = .processorOutage)) : l.Announces r := by
  cases h with
  | ignored _ _ _ => exact announces_quiet rfl rfl
  | align _ _ hs _ => simpa [Announces, isAligned, hs, Link.align] using Announced.same false
  | prove _ _ hs _ => simpa [Announces, isAligned, hs, Link.prove] using Announced.same false
  | failed _ _ _ _ => exact failed_announces codec l _
  | startOver _ hs => simpa [Announces, isAligned, hs] using Announced.same false
  | shorten _ _ => exact announces_quiet rfl rfl
  | noteReady _ _ => exact announces_quiet rfl rfl
  | enter _ hs => simpa [Announces, isAligned, hs, enterService] using Announced.entered
  | outage _ hs =>
    have hin : l.state = .inService := hs.resolve_left (fun hr => hout ⟨hr, rfl⟩)
    simpa [Announces, isAligned, hin] using Announced.same true
  | busy _ _ _ => exact announces_quiet rfl (by simp)
  | stillBusy _ _ _ => exact announces_quiet rfl rfl
  | busyEnded _ _ hr => exact hr.announces
  | acknowledge _ _ ha => exact ha.announces
  | recover _ hs ha hr =>
    obtain ⟨hafter, ho⟩ := hr.quiet
    unfold Announces
    rw [indications_append, ha.quiet, ho, show l.isAligned = true by simp [isAligned, hs]]
    simpa [isAligned, hafter] using Announced.same true

/-- Every call but the one status announces what it does to the service of the link. -/
theorem StepMove.announces {l : Link} {now : ℕ} {call : Call} {r : Link × List Action}
    (h : StepMove codec l now call r) (hout : ¬ OutageWhileReady l call) : l.Announces r := by
  cases h with
  | established => exact announces_quiet rfl (by simp)
  | startIgnored _ => exact announces_quiet rfl rfl
  | started hs =>
    simpa [Announces, isAligned, hs, startActions, Link.started] using Announced.same false
  | fail _ hf => exact hf.announces
  | retrieve _ => exact announces_quiet rfl rfl
  | detach => exact announces_quiet rfl rfl
  | abandon => exact announces_quiet rfl rfl
  | send _ hm => exact hm.announces
  | timeout _ hm => exact hm.announces
  | onStatus status bsn hm =>
    refine hm.announces ?_
    rintro ⟨hs, rfl⟩
    exact hout ⟨hs, rfl⟩
  | onData _ _ _ hm => exact hm.announces
  | flushIgnored _ => exact announces_quiet rfl rfl
  | flushed _ _ => exact announces_quiet rfl (by simp)

/-- That status takes a link into service and indicates nothing. -/
theorem outageWhileReady_silent (codec : Codec) {l : Link} {e : Event}
    (h : OutageWhileReady l e.call) :
    (l.step codec e).1.isAligned = true ∧ indications (l.step codec e).2 = [] := by
  obtain ⟨hs, hbrings⟩ := h
  obtain ⟨now, call⟩ := e
  cases call with
  | onStatus status bsn =>
    obtain rfl : status = .processorOutage := by simpa [Call.brings] using hbrings
    simp [step, onStatus, hs, isAligned]
  | _ => simp [Call.brings] at hbrings

/-! ## Runs -/

/-- The indications of a run so far. -/
def noteIndications (seen : List Bool) (_ : Link) (_ : Event) (r : Link × List Action) :
    List Bool := seen ++ indications r.2

/-- The link is aligned exactly when the last indication was in-service, and no two
in-service indications stand without an out-of-service one between them. -/
def Truthful (p : Link × List Bool) : Prop :=
  (p.1.isAligned = true ↔ p.2.getLast? = some true) ∧
    p.2.IsChain fun a b => ¬ (a = true ∧ b = true)

instance (p : Link × List Bool) : Decidable (Truthful p) := instDecidableAnd

theorem Announces.truthful {l : Link} {r : Link × List Action} {seen : List Bool}
    (h : l.Announces r) (ht : Truthful (l, seen)) : Truthful (r.1, seen ++ indications r.2) := by
  obtain ⟨hlast, hchain⟩ := ht
  unfold Announces at h
  unfold Truthful
  simp only at hlast hchain ⊢
  generalize l.isAligned = before at h hlast
  generalize r.1.isAligned = after at h ⊢
  generalize indications r.2 = said at h ⊢
  cases h with
  | same => exact ⟨by simpa using hlast, by simpa only [List.append_nil] using hchain⟩
  | left => exact ⟨by simp, List.isChain_append.mpr ⟨hchain, by simp, by simp⟩⟩
  | entered =>
    refine ⟨by simp, List.isChain_append.mpr ⟨hchain, by simp, ?_⟩⟩
    rintro x hx y hy ⟨rfl, -⟩
    simpa using hlast.mpr hx
  | enteredAndLeft =>
    refine ⟨by simp, List.isChain_append.mpr ⟨hchain, by simp, ?_⟩⟩
    rintro x hx y hy ⟨rfl, -⟩
    simpa using hlast.mpr hx

/-- The indications of a run tell the service of the link after every call of it if and
only if no Processor Outage of the peer finds the link aligned and ready. -/
theorem service_announced_iff (codec : Codec) (timers : LinkTimers) (proving : Proving)
    (txQueue : ℕ) (events : List Event) :
    Along (watch (step codec) noteIndications)
        (fun p e => Truthful (watch (step codec) noteIndications p e))
        (new timers proving txQueue, []) events ↔
      Along (fun l e => (step codec l e).1) (fun l e => ¬ OutageWhileReady l e.call)
        (new timers proving txQueue) events := by
  have hplain := @along_map _ _ (watch (step codec) noteIndications) _
    (fun l e => (step codec l e).1) (fun l e => ¬ OutageWhileReady l e.call) Prod.fst
    (fun _ _ => rfl) (new timers proving txQueue, []) events
  have hstart : Truthful (new timers proving txQueue, []) := ⟨by simp [new, isAligned], by simp⟩
  refine Iff.trans (@along_congr _ _ _ Truthful _ _ (fun _ _ _ h => h) ?_ _ hstart events) hplain
  rintro ⟨l, seen⟩ e ht
  constructor
  · intro hafter hout
    obtain ⟨haligned, hsilent⟩ := outageWhileReady_silent codec hout
    have hs : l.state = .alignedReady := hout.1
    have hbefore : l.isAligned = false := by simp [isAligned, hs]
    -- Aligned now, with the indications of a link that was not.
    have hlast := hafter.1.mp haligned
    simp only [watch, noteIndications, hsilent, List.append_nil] at hlast
    simpa [hbefore] using ht.1.mpr hlast
  · intro hout
    exact ((step_move codec l e).announces hout).truthful ht

/-- The peer is in processor outage when it has finished proving, recovers, and the link is
in service without having said so. -/
theorem service_unannounced :
    ¬ Along (watch (step wire) noteIndications)
        (fun p e => Truthful (watch (step wire) noteIndications p e))
        (new .default .normal 10, [])
        [⟨0, .start⟩, ⟨1, .onStatus .alignment seqMask⟩, ⟨2, .onStatus .provingNormal seqMask⟩,
          ⟨8202, .timeout .t4⟩, ⟨8203, .onStatus .processorOutage seqMask⟩,
          ⟨8300, .onStatus .processorRecovered seqMask⟩] := by
  decide

/-! ## The peer's word for a proving round -/

/-- Whether the peer has sent a Ready or User Data since the link last entered proving. -/
def noteHeard (heard : Bool) (l : Link) (e : Event) (r : Link × List Action) : Bool :=
  if l.state ≠ .proving ∧ r.1.state = .proving then false
  else
    match e.call with
    | .onStatus .ready _ | .onData _ _ _ => true
    | _ => heard

/-- A new alignment of the peer in proving, when its Ready has been noted. -/
def AlignmentAfterReady (l : Link) (call : Call) : Prop :=
  l.state = .proving ∧ l.peerReady = true ∧ call.brings .alignment = true

instance (l : Link) (call : Call) : Decidable (AlignmentAfterReady l call) :=
  inferInstanceAs (Decidable (_ ∧ _ ∧ _))

/-- A Ready is remembered in the proving round it was heard in only. -/
def HeardInRound (p : Link × Bool) : Prop :=
  p.1.peerReady = true → p.1.state = .proving ∧ p.2 = true

/-- The service entries of a step are on the word of the peer. -/
def EntersOnWord (codec : Codec) (p : Link × Bool) (e : Event) : Prop :=
  .inService ∈ (step codec p.1 e).2 → noteHeard p.2 p.1 e (step codec p.1 e) = true

instance (p : Link × Bool) (e : Event) : Decidable (EntersOnWord codec p e) :=
  inferInstanceAs (Decidable (_ → _))

/-- A result that forgets the Ready, or keeps it and the round. -/
def KeepsRound (l : Link) (r : Link × List Action) : Prop :=
  r.1.peerReady = false ∨ r.1.peerReady = l.peerReady ∧ r.1.state = l.state

theorem TransmitMove.keepsRound {l : Link} {msu : Msu} {now : ℕ} {r : Link × List Action}
    (h : TransmitMove codec l msu now r) : l.KeepsRound r := by
  obtain ⟨fsnOut, ackDue, unacked, hr⟩ := h.frame
  exact .inr (by simp [hr])

theorem SendMove.keepsRound {l : Link} {msu : Msu} {now : ℕ} {r : Link × List Action}
    (h : SendMove codec l msu now r) : l.KeepsRound r := by
  cases h with
  | transmitted _ _ ht => exact ht.keepsRound
  | congested _ _ _ => exact .inr ⟨rfl, rfl⟩
  | queued _ _ _ => exact .inr ⟨rfl, rfl⟩
  | refused _ => exact .inr ⟨rfl, rfl⟩

theorem FailMove.keepsRound {l : Link} {reason : Failure} {r : Link × List Action}
    (h : FailMove codec l reason r) : l.KeepsRound r := by
  cases h with
  | out _ => exact .inr ⟨rfl, rfl⟩
  | failed _ => exact .inl rfl

theorem AcknowledgeMove.keepsRound {l : Link} {bsn now : ℕ} {strict : Bool}
    {a : Link × List Action × Bool} (h : AcknowledgeMove codec l bsn strict now a) :
    l.KeepsRound (a.1, a.2.1) := by
  obtain hfailed | ⟨acked, unacked, watch, hl⟩ := h.frame
  · exact .inl (by rw [hfailed]; rfl)
  · exact .inr (by simp [hl])

theorem ReceiveMove.keepsRound {l : Link} {bsn fsn now : ℕ} {message : UserDataMessage}
    {r : Link × List Action} (h : ReceiveMove codec l bsn fsn message now r) :
    l.KeepsRound r := by
  obtain hfailed | ⟨acked, unacked, watch, fsnIn, ackDue, hl⟩ := h.frame
  · exact .inl (by rw [hfailed]; rfl)
  · exact .inr (by simp [hl])

theorem DataMove.keepsRound {l : Link} {bsn fsn now : ℕ} {message : UserDataMessage}
    {r : Link × List Action} (h : DataMove codec l bsn fsn message now r) : l.KeepsRound r := by
  cases h with
  | refused _ _ => exact .inr ⟨rfl, rfl⟩
  | enter _ hr => exact .inl (hr.keepsRound.elim id And.left)
  | received _ hr => exact hr.keepsRound

theorem EndBusyMove.keepsRound {l : Link} {now : ℕ} {r : Link × List Action}
    (h : EndBusyMove codec l now r) : l.KeepsRound r := by
  cases h with
  | idle _ => exact .inr ⟨rfl, rfl⟩
  | flushed _ _ hf =>
    obtain ⟨fsnOut, ackDue, unacked, hr⟩ := hf.frame rfl
    exact .inr (by simp [hr, restartT7])
  | cleared _ _ => exact .inr ⟨rfl, rfl⟩

theorem ResumeMove.peerReady {l : Link} {now : ℕ} {r : Link × List Action}
    (h : ResumeMove codec l now r) : r.1.peerReady = l.peerReady := by
  cases h with
  | busy _ => rfl
  | flushed _ hf =>
    obtain ⟨fsnOut, ackDue, unacked, hr⟩ := hf.frame rfl
    rw [hr]
    rfl

theorem KeepsRound.heard {l : Link} {heard : Bool} {e : Event} {r : Link × List Action}
    (h : l.KeepsRound r) (hp : HeardInRound (l, heard)) :
    HeardInRound (r.1, noteHeard heard l e r) := by
  intro hready
  obtain hforgot | ⟨hsame, hstate⟩ := h
  · simp [hforgot] at hready
  · obtain ⟨hproving, hheard⟩ := hp (hsame.symm.trans hready)
    simp only at hproving hheard
    refine ⟨hstate.trans hproving, ?_⟩
    unfold noteHeard
    rw [if_neg (fun hentered => hentered.1 hproving)]
    split <;> simp [hheard]

theorem StatusMove.heard {l : Link} {heard : Bool} {status : Status} {bsn now : ℕ}
    {r : Link × List Action} (h : StatusMove codec l now status bsn r)
    (hp : HeardInRound (l, heard)) (hq : ¬ AlignmentAfterReady l (.onStatus status bsn)) :
    HeardInRound (r.1, noteHeard heard l ⟨now, .onStatus status bsn⟩ r) := by
  have hforgot (hs : l.state ≠ .proving) : l.peerReady = false := by
    by_contra hready
    exact hs (hp (by simpa using hready)).1
  cases h with
  | ignored _ _ _ => exact KeepsRound.heard (.inr ⟨rfl, rfl⟩) hp
  | align _ _ hs _ =>
    refine KeepsRound.heard (.inl ?_) hp
    have := hforgot (by simp [hs])
    unfold Link.align
    split <;> exact this
  | prove _ _ hs _ =>
    refine KeepsRound.heard (.inl ?_) hp
    have := hforgot (by simp [hs])
    unfold Link.prove
    split <;> exact this
  | failed _ _ _ _ => exact KeepsRound.heard (.inl rfl) hp
  | startOver bsn hs =>
    refine KeepsRound.heard (.inl ?_) hp
    by_contra hready
    exact hq ⟨hs, by simpa using hready, rfl⟩
  | shorten _ _ => exact KeepsRound.heard (.inr ⟨rfl, rfl⟩) hp
  | noteReady _ hs => exact fun _ => ⟨hs, by simp [noteHeard, hs]⟩
  | enter _ _ => exact KeepsRound.heard (.inl rfl) hp
  | outage _ hs =>
    exact KeepsRound.heard (.inl (hforgot (by rcases hs with hs | hs <;> simp [hs]))) hp
  | busy _ _ _ => exact KeepsRound.heard (.inr ⟨rfl, rfl⟩) hp
  | stillBusy _ _ _ => exact KeepsRound.heard (.inr ⟨rfl, rfl⟩) hp
  | busyEnded _ _ hr => exact hr.keepsRound.heard hp
  | acknowledge _ _ ha => exact KeepsRound.heard ha.keepsRound hp
  | recover _ hs ha hr =>
    refine KeepsRound.heard (.inl ?_) hp
    have hack := ha.keepsRound.elim id fun hsame => hsame.1.trans (hforgot (by simp [hs]))
    exact hr.peerReady.trans hack

theorem TimeoutMove.heard {l : Link} {heard : Bool} {timer : Timer} {now : ℕ}
    {r : Link × List Action} (h : TimeoutMove codec l timer now r)
    (hp : HeardInRound (l, heard)) :
    HeardInRound (r.1, noteHeard heard l ⟨now, .timeout timer⟩ r) := by
  cases h with
  | stale _ => exact KeepsRound.heard (.inr ⟨rfl, rfl⟩) hp
  | failed _ _ => exact KeepsRound.heard (.inl rfl) hp
  | ready _ _ hready => exact KeepsRound.heard (.inl hready) hp
  | enter _ _ _ => exact KeepsRound.heard (.inl rfl) hp
  | repeatProving _ _ => exact KeepsRound.heard (.inr ⟨rfl, rfl⟩) hp
  | rearm _ _ _ => exact KeepsRound.heard (.inr ⟨rfl, rfl⟩) hp

/-- Every call keeps what is known of the round, if the peer does not start over after its
Ready. -/
theorem StepMove.heard {l : Link} {heard : Bool} {now : ℕ} {call : Call}
    {r : Link × List Action} (h : StepMove codec l now call r) (hp : HeardInRound (l, heard))
    (hq : ¬ AlignmentAfterReady l call) :
    HeardInRound (r.1, noteHeard heard l ⟨now, call⟩ r) := by
  cases h with
  | established => exact KeepsRound.heard (.inr ⟨rfl, rfl⟩) hp
  | startIgnored _ => exact KeepsRound.heard (.inr ⟨rfl, rfl⟩) hp
  | started _ => exact KeepsRound.heard (.inl rfl) hp
  | fail _ hf => exact hf.keepsRound.heard hp
  | retrieve _ => exact KeepsRound.heard (.inr ⟨rfl, rfl⟩) hp
  | detach => exact KeepsRound.heard (.inr ⟨rfl, rfl⟩) hp
  | abandon => exact KeepsRound.heard (.inr ⟨rfl, rfl⟩) hp
  | send _ hm => exact hm.keepsRound.heard hp
  | timeout _ hm => exact hm.heard hp
  | onStatus _ _ hm => exact hm.heard hp hq
  | onData _ _ _ hm => exact hm.keepsRound.heard hp
  | flushIgnored _ => exact KeepsRound.heard (.inr ⟨rfl, rfl⟩) hp
  | flushed _ _ => exact KeepsRound.heard (.inr ⟨rfl, rfl⟩) hp

theorem Announces.entered {l : Link} {r : Link × List Action} (h : l.Announces r)
    (hin : true ∈ indications r.2) : l.isAligned = false := by
  unfold Announces at h
  generalize l.isAligned = before at h ⊢
  generalize r.1.isAligned = after at h
  generalize indications r.2 = said at h hin
  cases h with
  | same => simp at hin
  | left => simp at hin
  | entered => rfl
  | enteredAndLeft => rfl

theorem DataMove.round {l : Link} {bsn fsn now : ℕ} {message : UserDataMessage}
    {r : Link × List Action} (h : DataMove codec l bsn fsn message now r) :
    ¬ (l.state ≠ .proving ∧ r.1.state = .proving) := by
  rintro ⟨hbefore, hafter⟩
  cases h with
  | refused _ _ => exact hbefore hafter
  | enter _ hr =>
    obtain hfailed | ⟨acked, unacked, watch, fsnIn, ackDue, hl⟩ := hr.frame
    · simp [hfailed] at hafter
    · simp [hl, enterService] at hafter
  | received _ hr =>
    obtain hfailed | ⟨acked, unacked, watch, fsnIn, ackDue, hl⟩ := hr.frame
    · simp [hfailed] at hafter
    · exact hbefore (by simpa [hl] using hafter)

theorem StatusMove.entered {l : Link} {status : Status} {bsn now : ℕ} {r : Link × List Action}
    (h : StatusMove codec l now status bsn r) (hin : true ∈ indications r.2) :
    status = .ready ∧ l.state ≠ .proving ∧ r.1.state ≠ .proving := by
  have hquiet (hout : ¬ (l.state = .alignedReady ∧ status = .processorOutage))
      (h : l.isAligned = true) : False := by
    simp [(StatusMove.announces ‹_› hout).entered hin] at h
  cases h with
  | enter _ hs => exact ⟨rfl, by simp [hs], by simp [enterService]⟩
  | ignored _ _ _ => simp at hin
  | align _ _ _ _ => simp [Link.align] at hin
  | prove _ _ _ _ => simp [Link.prove] at hin
  | failed _ _ _ _ => simp at hin
  | startOver _ _ => simp at hin
  | shorten _ _ => simp at hin
  | noteReady _ _ => simp at hin
  | outage _ _ => simp at hin
  | busy _ _ _ => simp at hin
  | stillBusy _ _ _ => simp at hin
  | busyEnded _ ha _ => exact (hquiet (by simp) ha).elim
  | acknowledge _ hs _ => exact (hquiet (by simp) (by simp [isAligned, hs])).elim
  | recover _ hs _ _ => exact (hquiet (by simp) (by simp [isAligned, hs])).elim

theorem TimeoutMove.entered {l : Link} {timer : Timer} {now : ℕ} {r : Link × List Action}
    (h : TimeoutMove codec l timer now r) (hin : true ∈ indications r.2) :
    l.state = .proving ∧ l.peerReady = true := by
  cases h with
  | enter hs _ hready => exact ⟨hs, hready⟩
  | stale _ => simp at hin
  | failed _ _ => simp at hin
  | ready _ _ _ => simp at hin
  | repeatProving _ _ => simp at hin
  | rearm _ _ _ => simp at hin

/-- A link that indicates service has the word of its peer for the round. -/
theorem StepMove.entersOnWord {l : Link} {heard : Bool} {now : ℕ} {call : Call}
    {r : Link × List Action} (h : StepMove codec l now call r) (hp : HeardInRound (l, heard))
    (hin : true ∈ indications r.2) : noteHeard heard l ⟨now, call⟩ r = true := by
  cases h with
  | established => simp at hin
  | startIgnored _ => simp at hin
  | started _ => simp [startActions] at hin
  | fail _ hf => cases hf <;> simp at hin
  | retrieve _ => simp at hin
  | detach => simp at hin
  | abandon => simp at hin
  | send _ hm =>
    cases hm with
    | transmitted _ _ ht => simp [ht.quiet.2] at hin
    | congested _ _ _ => simp at hin
    | queued _ _ _ => simp at hin
    | refused _ => simp at hin
  | timeout _ hm =>
    obtain ⟨hs, hready⟩ := hm.entered hin
    have hheard : heard = true := (hp hready).2
    simp [noteHeard, hs, hheard]
  | onStatus _ _ hm =>
    obtain ⟨rfl, -, hs⟩ := hm.entered hin
    simp [noteHeard, hs]
  | onData _ _ _ hm =>
    unfold noteHeard
    rw [if_neg hm.round]
  | flushIgnored _ => simp at hin
  | flushed _ _ => simp at hin

/-- A link enters service on the peer's word for the proving round at hand, in every run in
which the peer does not start over after its Ready. -/
theorem enters_on_word (codec : Codec) (timers : LinkTimers) (proving : Proving) (txQueue : ℕ)
    (events : List Event)
    (h : Along (fun l e => (step codec l e).1) (fun l e => ¬ AlignmentAfterReady l e.call)
      (new timers proving txQueue) events) :
    Along (watch (step codec) noteHeard) (EntersOnWord codec)
      (new timers proving txQueue, false) events := by
  have hplain := @along_map _ _ (watch (step codec) noteHeard) _
    (fun l e => (step codec l e).1) (fun l e => ¬ AlignmentAfterReady l e.call) Prod.fst
    (fun _ _ => rfl) (new timers proving txQueue, false) events
  refine @along_of_invariant _ _ _ HeardInRound _ _ ?_ ?_ _ ?_ _ (hplain.mpr h)
  · rintro ⟨l, heard⟩ e hp hq
    exact (step_move codec l e).heard hp hq
  · rintro ⟨l, heard⟩ e hp - hin
    exact (step_move codec l e).entersOnWord hp (mem_indications.mpr hin)
  · intro hready
    simp [new] at hready

theorem enters_on_word_of_bring_up :
    Along (watch (step wire) noteHeard) (EntersOnWord wire) (new .default .normal 10, false)
      bringUp :=
  enters_on_word wire .default .normal 10 bringUp (by decide)

/-- The peer starts over after its Ready, and the link enters service on T4 of the second
round with nothing heard in it. -/
theorem enters_on_stale_word :
    ¬ Along (watch (step wire) noteHeard) (EntersOnWord wire) (new .default .normal 10, false)
        [⟨0, .start⟩, ⟨1, .onStatus .alignment seqMask⟩, ⟨2, .onStatus .provingNormal seqMask⟩,
          ⟨3, .onStatus .ready seqMask⟩, ⟨4, .onStatus .alignment seqMask⟩,
          ⟨5, .onStatus .provingNormal seqMask⟩, ⟨8205, .timeout .t4⟩] := by
  decide

end Link

end SiphonSigtran.M2pa
