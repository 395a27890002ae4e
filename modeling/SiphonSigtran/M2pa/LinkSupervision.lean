import SiphonSigtran.M2pa.LinkSequence
import Mathlib.Logic.Function.Basic

/-!
# Timers of a link

`start` and `stop` actions, and the running out of a timer, are read as a clock: each
running timer with its deadline. In every state the timers that supervise it run,
and no others but T6 while the peer is busy. A timer runs out when it runs, at any
instant, and the instants of the calls do not go back.
-/

namespace SiphonSigtran.M2pa

/-- The running timers after an action at the instant `now`. -/
def tick (now : ℕ) (f : Timer → Option ℕ) : Action → Timer → Option ℕ
  | .start t after => Function.update f t (some (now + after))
  | .stop t => Function.update f t none
  | _ => f

def ticks (now : ℕ) (f : Timer → Option ℕ) (out : List Action) : Timer → Option ℕ :=
  out.foldl (tick now) f

variable {now : ℕ} {f : Timer → Option ℕ}

@[simp] theorem ticks_nil : ticks now f [] = f := rfl
@[simp] theorem ticks_cons (a : Action) (out : List Action) :
    ticks now f (a :: out) = ticks now (tick now f a) out := rfl
@[simp] theorem ticks_append (xs ys : List Action) :
    ticks now f (xs ++ ys) = ticks now (ticks now f xs) ys := List.foldl_append
@[simp] theorem tick_start (t : Timer) (n : ℕ) :
    tick now f (.start t n) = Function.update f t (some (now + n)) := rfl
@[simp] theorem tick_stop (t : Timer) : tick now f (.stop t) = Function.update f t none := rfl
@[simp] theorem tick_send (frame : Frame) (stream : ℕ) (si : Option ℕ) :
    tick now f (.send frame stream si) = f := rfl
@[simp] theorem tick_deliver (msu : Msu) : tick now f (.deliver msu) = f := rfl
@[simp] theorem tick_inService : tick now f .inService = f := rfl
@[simp] theorem tick_outOfService (r : Failure) : tick now f (.outOfService r) = f := rfl
@[simp] theorem tick_remoteProcessorOutage (b : Bool) :
    tick now f (.remoteProcessorOutage b) = f := rfl
@[simp] theorem tick_discarded (r : Discard) (n : ℕ) : tick now f (.discarded r n) = f := rfl

namespace Link

open Lib.Machine

variable {codec : Codec}

@[simp] theorem ticks_sendFrame (m : M2paMessage) (stream : ℕ) (si : Option ℕ) :
    ticks now f (sendFrame codec m stream si) = f := by
  unfold sendFrame
  split <;> rfl

@[simp] theorem ticks_sendStatus (l : Link) (status : Status) (stream : ℕ) :
    ticks now f (l.sendStatus codec status stream) = f := ticks_sendFrame _ _ _

/-- A failure stops every timer. -/
@[simp] theorem ticks_failActions (l : Link) (reason : Failure) :
    ticks now f (l.failActions codec reason) = fun _ => none := by
  have hstops : ticks now f (Timer.all.map .stop) = fun _ => none := by
    funext t
    cases t <;> simp [Timer.all]
  unfold failActions
  split <;> simp [hstops]

/-- The timers that have to run, T6 apart. -/
def supervises (l : Link) : Timer → Bool
  | .t1 => l.state = .alignedReady
  | .t2 => l.state = .notAligned
  | .t3 => l.state = .aligned
  | .t4 => l.state = .proving
  | .proving => l.state = .proving
  | .t6 => false
  | .t7 => l.state = .inService && !l.remoteBusy && !l.unacked.isEmpty

/-- The timers that supervise the link run, with T7 no later than for the oldest message. -/
structure Watched (l : Link) (now : ℕ) (f : Timer → Option ℕ) : Prop where
  runs : ∀ t, t ≠ .t6 → (f t).isSome = l.supervises t
  t6 : (f .t6).isSome = true → l.isAligned = true ∧ l.remoteBusy = true
  deadline : ∀ d u, f .t7 = some d → l.unacked.head? = some u →
    d ≤ max now (u.sentAt + l.timers.t7)

theorem Watched.none {l : Link} (h : l.state = .outOfService) :
    Watched l now fun _ => Option.none := by
  refine ⟨fun t ht => ?_, by simp, by simp⟩
  cases t <;> simp_all [supervises]

theorem Watched.mono {l : Link} {now' : ℕ} (h : Watched l now f) (hle : now ≤ now') :
    Watched l now' f :=
  ⟨h.runs, h.t6, fun d u hd hu => by have := h.deadline d u hd hu; omega⟩

/-- In one state of the link and its peer, T7 and the buffer alone can change. -/
theorem Watched.of_t7 {l l' : Link} {f' : Timer → Option ℕ} (h : Watched l now f)
    (hs : l'.state = l.state) (hb : l'.remoteBusy = l.remoteBusy)
    (hf : ∀ t, t ≠ .t7 → f' t = f t) (h7 : (f' .t7).isSome = l'.supervises .t7)
    (hd : ∀ d u, f' .t7 = some d → l'.unacked.head? = some u →
      d ≤ max now (u.sentAt + l'.timers.t7)) : Watched l' now f' := by
  refine ⟨fun t ht => ?_, fun h6 => ?_, hd⟩
  · by_cases ht7 : t = .t7
    · rw [ht7]
      exact h7
    · rw [hf t ht7, h.runs t ht]
      cases t <;> simp_all [supervises]
  · rw [hf .t6 (by decide)] at h6
    simpa [isAligned, hs, hb] using h.t6 h6

/-- The clock reads the state, the peer's congestion and the buffer only. -/
theorem Watched.of_eq {l l' : Link} (h : Watched l now f) (hs : l'.state = l.state)
    (hb : l'.remoteBusy = l.remoteBusy) (hu : l'.unacked = l.unacked)
    (ht : l'.timers = l.timers) : Watched l' now f := by
  refine h.of_t7 hs hb (fun _ _ => rfl) ?_ fun d u hd hu' => ?_
  · rw [h.runs .t7 (by decide)]
    simp [supervises, hs, hb, hu]
  · rw [ht]
    exact h.deadline d u hd (hu ▸ hu')

theorem Watched.t7_none {l : Link} (h : Watched l now f)
    (hs : l.supervises .t7 = false) : f .t7 = Option.none := by
  have hruns := h.runs .t7 (by decide)
  rw [hs] at hruns
  simpa using hruns

/-- The result of an operation has its timers running, and T6 goes on while it is not failed. -/
structure Watches (now : ℕ) (f : Timer → Option ℕ) (r : Link × List Action) : Prop where
  watched : Watched r.1 now (ticks now f r.2)
  t6 : (f .t6).isSome = true → r.1.state = .outOfService ∨ (ticks now f r.2 .t6).isSome = true

theorem Watched.watches {l : Link} (h : Watched l now f) : Watches now f (l, []) :=
  ⟨h, fun h6 => .inr h6⟩

theorem watches_failed (l : Link) (reason : Failure) :
    Watches now f (l.failed, l.failActions codec reason) := by
  refine ⟨?_, fun _ => .inl rfl⟩
  simp only [ticks_failActions]
  exact .none rfl

theorem FailMove.watches {l : Link} {reason : Failure} {r : Link × List Action}
    (h : FailMove codec l reason r) (hw : Watched l now f) : Watches now f r := by
  cases h with
  | out _ => exact hw.watches
  | failed _ => exact watches_failed l reason

/-- The first message of a buffer starts T7, and the others leave it. -/
theorem TransmitMove.watches {l : Link} {msu : Msu} {r : Link × List Action}
    (h : TransmitMove codec l msu now r) (hw : Watched l now f) (hs : l.state = .inService)
    (hb : l.remoteBusy = false) : Watches now f r := by
  cases h with
  | sent frame _ =>
    have hsupervised : (l.transmitted msu now).supervises .t7 = true := by
      simp [supervises, transmitted, hs, hb]
    cases hu : l.unacked with
    | nil =>
      refine ⟨hw.of_t7 rfl rfl ?_ ?_ ?_, ?_⟩
      · intro t ht
        simp [Function.update_of_ne ht]
      · simp [hsupervised]
      · simp [transmitted, hu]
      · exact fun h6 => .inr (by simpa using h6)
    | cons u us =>
      refine ⟨hw.of_t7 rfl rfl (by simp) ?_ ?_, ?_⟩
      · rw [hsupervised]
        simpa [supervises, hs, hb, hu] using hw.runs .t7 (by decide)
      · simpa [transmitted, hu] using hw.deadline
      · exact fun h6 => .inr (by simpa using h6)
  | refused _ => exact ⟨hw, fun h6 => .inr h6⟩

theorem QueueMove.watches {queue : List Msu} {l : Link} {r : Link × List Action}
    (h : QueueMove codec now queue l r) (hw : Watched l now f) (hs : l.state = .inService)
    (hb : l.remoteBusy = false) : Watches now f r := by
  induction h generalizing f with
  | nil l => exact hw.watches
  | @cons _ rest l first others hfirst _ ih =>
    have hpopped : Watched { l with unsent := rest } now f := hw.of_eq rfl rfl rfl rfl
    have hsent := hfirst.watches hpopped hs hb
    obtain ⟨fsnOut, ackDue, unacked, hr⟩ := hfirst.frame
    have hstate : first.1.state = .inService := by rw [hr]; exact hs
    have hlater := ih hsent.watched hstate (by rw [hr]; exact hb)
    refine ⟨?_, fun h6 => ?_⟩
    · rw [ticks_append]
      exact hlater.watched
    · rw [ticks_append]
      exact hlater.t6 ((hsent.t6 h6).resolve_left (by simp [hstate]))

/-- An acknowledgement arms T7 again for what is then the oldest message. -/
theorem watches_armT7 {l : Link} (hw : Watched l now f) (hs : l.state = .inService)
    (hb : l.remoteBusy = false) (unacked : List Unacked) :
    Watches now f ({ l with unacked := unacked }, { l with unacked := unacked }.armT7 now) := by
  unfold armT7
  dsimp only
  cases unacked with
  | nil =>
    refine ⟨hw.of_t7 rfl rfl ?_ ?_ (by simp), fun h6 => .inr (by simpa using h6)⟩
    · intro t ht
      simp [Function.update_of_ne ht]
    · simp [supervises]
  | cons u us =>
    refine ⟨hw.of_t7 rfl rfl ?_ ?_ ?_, fun h6 => .inr (by simpa using h6)⟩
    · intro t ht
      simp [Function.update_of_ne ht]
    · simp [supervises, hs, hb]
    · simp
      omega

theorem AcknowledgeMove.watches {l : Link} {bsn : ℕ} {strict : Bool}
    {a : Link × List Action × Bool} (h : AcknowledgeMove codec l bsn strict now a)
    (hw : Watched l now f) : Watches now f (a.1, a.2.1) := by
  cases h with
  | ignored _ _ => exact hw.watches
  | abnormal _ _ _ => exact ⟨hw.of_eq rfl rfl rfl rfl, fun h6 => .inr h6⟩
  | faulty _ _ _ hf =>
    have hfailed := hf.watches hw
    exact ⟨hfailed.watched, hfailed.t6⟩
  | repeated _ _ _ => exact ⟨hw.of_eq rfl rfl rfl rfl, fun h6 => .inr h6⟩
  | advanced watch _ _ =>
    split
    next hcalm =>
      have harmed := watches_armT7 hw hcalm.1 hcalm.2 (l.released bsn).unacked
      exact ⟨harmed.watched.of_eq rfl rfl rfl rfl, harmed.t6⟩
    next hpaused =>
      have hidle (unacked : List Unacked) :
          { l with unacked := unacked }.supervises .t7 = false := by
        by_contra hruns
        simp only [supervises, Bool.not_eq_false, Bool.and_eq_true, decide_eq_true_eq,
          Bool.not_eq_true'] at hruns
        exact hpaused hruns.1
      have h7 : f .t7 = none := hw.t7_none (hidle l.unacked)
      refine ⟨hw.of_t7 rfl rfl (fun _ _ => rfl) ?_ ?_, fun h6 => .inr h6⟩
      · rw [ticks_nil, h7]
        exact (hidle (l.released bsn).unacked).symm
      · simp [h7]

theorem ReceiveMove.watches {l : Link} {bsn fsn : ℕ} {message : UserDataMessage}
    {r : Link × List Action} (h : ReceiveMove codec l bsn fsn message now r)
    (hw : Watched l now f) : Watches now f r := by
  cases h with
  | discarded ha _ => exact ha.watches hw
  | empty ha _ _ => exact ha.watches hw
  | outOfSequence ha _ _ _ =>
    have hack := ha.watches hw
    exact ⟨by simpa using hack.watched, by simpa using hack.t6⟩
  | delivered ha _ _ _ =>
    have hack := ha.watches hw
    refine ⟨?_, by simpa using hack.t6⟩
    rw [ticks_append]
    exact hack.watched.of_eq rfl rfl rfl rfl

/-- In a state with nothing unacknowledged and T6 stopped, the timers of the state are all. -/
theorem Watched.of_runs {l : Link} (hruns : ∀ t, t ≠ .t6 → (f t).isSome = l.supervises t)
    (h6 : f .t6 = Option.none) (hu : l.unacked = []) : Watched l now f :=
  ⟨hruns, by simp [h6], by simp [hu]⟩

theorem Watched.t6_none {l : Link} (h : Watched l now f) (ha : l.isAligned = false) :
    f .t6 = Option.none := by
  by_contra h6
  have haligned := (h.t6 (Option.isSome_iff_ne_none.mpr h6)).1
  simp [ha] at haligned

theorem DataMove.watches {l : Link} {bsn fsn : ℕ} {message : UserDataMessage}
    {r : Link × List Action} (h : DataMove codec l bsn fsn message now r) (hw : Watched l now f)
    (hq : l.Queued) : Watches now f r := by
  cases h with
  | refused _ _ =>
    refine ⟨?_, fun h6 => .inr ?_⟩
    · split <;> exact hw
    · split <;> exact h6
  | enter hs hr =>
    have ha : l.isAligned = false := by simp [isAligned, hs]
    have h6 := hw.t6_none ha
    have hentered : Watched l.enterService.1 now (ticks now f l.enterService.2) := by
      refine .of_runs (fun t ht => ?_) (by simpa [enterService] using h6) (hq.idle_unacked ha)
      cases t <;> simp_all [enterService, supervises, hw.runs, hq.idle_unacked ha]
    have hreceived := hr.watches hentered
    exact ⟨by rw [ticks_append]; exact hreceived.watched, fun h => by simp [h6] at h⟩
  | received _ hr => exact hr.watches hw

/-- A timer that runs out runs no more, and what its state does about it restores the
supervision. -/
theorem TimeoutMove.watches {l : Link} {timer : Timer} {r : Link × List Action}
    (h : TimeoutMove codec l timer now r) (hw : Watched l now f) (hq : l.Queued)
    (hrun : (f timer).isSome = true) : Watches now (Function.update f timer none) r := by
  cases h with
  | stale hstale =>
    have hheeds : l.heeds timer = true := by
      by_cases h6 : timer = .t6
      · subst h6
        obtain ⟨ha, hb⟩ := hw.t6 hrun
        simp [heeds, ha, hb]
      · have hruns := (hw.runs timer h6).symm.trans hrun
        cases timer <;> simp_all [supervises, heeds]
    simp [hheeds] at hstale
  | failed reason _ => exact watches_failed l reason
  | ready hs ht _ =>
    have ha : l.isAligned = false := by simp [isAligned, hs]
    have h6 := hw.t6_none ha
    subst ht
    refine ⟨.of_runs (fun t ht => ?_) (by simpa using h6) (hq.idle_unacked ha), by simp [h6]⟩
    cases t <;> simp_all [supervises, hw.runs]
  | enter hs ht _ =>
    have ha : l.isAligned = false := by simp [isAligned, hs]
    have h6 := hw.t6_none ha
    subst ht
    refine ⟨.of_runs (fun t ht => ?_) (by simpa [enterService] using h6) (hq.idle_unacked ha),
      by simp [h6]⟩
    cases t <;> simp_all [supervises, hw.runs, enterService, hq.idle_unacked ha]
  | repeatProving hs ht =>
    have ha : l.isAligned = false := by simp [isAligned, hs]
    have h6 := hw.t6_none ha
    subst ht
    refine ⟨.of_runs (fun t ht => ?_) (by simpa using h6) (hq.idle_unacked ha), by simp [h6]⟩
    cases t <;> simp_all [supervises, hw.runs]
  | rearm hs ht hu =>
    subst ht
    have hruns : l.supervises .t7 = true := (hw.runs .t7 (by decide)).symm.trans hrun
    obtain ⟨u, us, hcons⟩ := List.exists_cons_of_ne_nil hu
    unfold armT7
    rw [hcons]
    refine ⟨hw.of_t7 rfl rfl ?_ ?_ ?_, fun h6 => .inr (by simpa using h6)⟩
    · intro t ht
      simp [Function.update_of_ne ht]
    · simp [hruns]
    · simp [hcons]
      omega

/-- With the peer's congestion over, T6 is stopped and T7 restarted. -/
theorem EndBusyMove.watched {l : Link} {r : Link × List Action}
    (h : EndBusyMove codec l now r) (hw : Watched l now f) :
    Watched r.1 now (ticks now f r.2) := by
  cases h with
  | idle _ => exact hw
  | @flushed r hb hs hf =>
    have h7 : f .t7 = none := hw.t7_none (by simp [supervises, hb])
    have hrestarted : Watched ({ l with remoteBusy := false }.restartT7 now).1 now
        (ticks now (Function.update f .t6 none)
          ({ l with remoteBusy := false }.restartT7 now).2) := by
      unfold restartT7
      dsimp only
      cases hu : l.unacked with
      | nil =>
        refine .of_runs (fun t ht => ?_) (by simp) rfl
        cases t <;> simp_all [supervises, hw.runs]
      | cons u us =>
        refine ⟨fun t ht => ?_, by simp, ?_⟩
        · cases t <;> simp_all [supervises, hw.runs]
        · simp
    have hflushed := hf.watches hrestarted (by simp [restartT7, hs]) rfl
    simpa using hflushed.watched
  | cleared hb hs =>
    have h7 : f .t7 = none := hw.t7_none (by simp [supervises, hb])
    refine ⟨fun t ht => ?_, by simp, by simp [h7]⟩
    have hruns := hw.runs t ht
    cases t <;> simp_all [supervises]

theorem ticks_resumeActions (codec : Codec) (l : Link) :
    ticks now f (l.resumeActions codec) = f := by
  unfold resumeActions
  split <;> simp

theorem ResumeMove.watches {l : Link} {r : Link × List Action}
    (h : ResumeMove codec l now r) (hw : Watched l now f) (hs : l.state = .processorOutage) :
    Watches now f r := by
  have h7 : f .t7 = none := hw.t7_none (by simp [supervises, hs])
  have hresumed : Watched l.resumed now f := by
    refine ⟨fun t ht => ?_, fun h6 => ⟨rfl, (hw.t6 h6).2⟩, by simp [h7]⟩
    have hruns := hw.runs t ht
    cases t <;> simp_all [supervises, resumed]
  have hout : ticks now f (l.resumeActions codec) = f := ticks_resumeActions codec l
  cases h with
  | busy _ =>
    refine ⟨?_, fun h6 => .inr ?_⟩
    · simpa only [hout] using hresumed
    · simpa only [hout] using h6
  | flushed hb hf =>
    have hflushed := hf.watches hresumed rfl hb
    refine ⟨?_, fun h6 => ?_⟩
    · rw [ticks_append, hout]
      exact hflushed.watched
    · rw [ticks_append, hout]
      exact hflushed.t6 h6

/-- A Link Status moves the timers with the state. The end of congestion apart, T6 goes on. -/
theorem StatusMove.watched {l : Link} {status : Status} {bsn : ℕ} {r : Link × List Action}
    (h : StatusMove codec l now status bsn r) (hw : Watched l now f) (hq : l.Queued) :
    Watched r.1 now (ticks now f r.2) ∧ (status ≠ .busyEnded → (f .t6).isSome = true →
      r.1.state = .outOfService ∨ (ticks now f r.2 .t6).isSome = true) := by
  have hidle (ha : l.isAligned = false) : f .t6 = none ∧ l.unacked = [] :=
    ⟨hw.t6_none ha, hq.idle_unacked ha⟩
  have hboth (hr : Watches now f r) : Watched r.1 now (ticks now f r.2) ∧
      (status ≠ .busyEnded → (f .t6).isSome = true →
        r.1.state = .outOfService ∨ (ticks now f r.2 .t6).isSome = true) :=
    ⟨hr.watched, fun _ => hr.t6⟩
  cases h with
  | ignored _ _ _ => exact hboth hw.watches
  | align _ _ hs _ =>
    obtain ⟨h6, hu⟩ := hidle (by simp [isAligned, hs])
    refine hboth ⟨?_, by simp [h6]⟩
    unfold Link.align
    split <;>
    · refine .of_runs (fun t ht => ?_) (by simpa using h6) hu
      cases t <;> simp_all [supervises, hw.runs]
  | prove _ _ hs _ =>
    obtain ⟨h6, hu⟩ := hidle (by simp [isAligned, hs])
    refine hboth ⟨?_, by simp [h6]⟩
    unfold Link.prove
    split <;>
    · refine .of_runs (fun t ht => ?_) (by simpa using h6) hu
      cases t <;> simp_all [supervises, hw.runs]
  | failed _ _ _ _ => exact hboth (watches_failed l .peerStatus)
  | startOver _ hs =>
    obtain ⟨h6, hu⟩ := hidle (by simp [isAligned, hs])
    refine hboth ⟨.of_runs (fun t ht => ?_) (by simpa using h6) hu, by simp [h6]⟩
    cases t <;> simp_all [supervises, hw.runs]
  | shorten _ hs =>
    obtain ⟨h6, hu⟩ := hidle (by simp [isAligned, hs])
    refine hboth ⟨.of_runs (fun t ht => ?_) (by simpa using h6) hu, by simp [h6]⟩
    cases t <;> simp_all [supervises, hw.runs]
  | noteReady _ hs => exact hboth ⟨hw.of_eq rfl rfl rfl rfl, fun h6 => .inr h6⟩
  | enter _ hs =>
    obtain ⟨h6, hu⟩ := hidle (by simp [isAligned, hs])
    refine hboth ⟨.of_runs (fun t ht => ?_) (by simpa [enterService] using h6) hu, by simp [h6]⟩
    cases t <;> simp_all [supervises, hw.runs, enterService]
  | outage _ hs =>
    refine hboth ⟨⟨fun t ht => ?_, fun h6 => ?_, by simp⟩, fun h6 => .inr (by simpa using h6)⟩
    · have hruns := hw.runs t ht
      rcases hs with hs | hs <;> cases t <;> simp_all [supervises]
    · exact ⟨rfl, (hw.t6 (by simpa using h6)).2⟩
  | busy _ ha hb =>
    refine hboth ⟨⟨fun t ht => ?_, fun _ => ⟨ha, rfl⟩, ?_⟩, fun h6 => .inr ?_⟩
    · have hruns := hw.runs t ht
      split <;> cases t <;> simp_all [supervises]
    · split <;> simp
    · split <;> simp [h6]
  | stillBusy _ _ _ => exact hboth hw.watches
  | busyEnded _ _ hr => exact ⟨hr.watched hw, fun hne => absurd rfl hne⟩
  | acknowledge _ _ ha => exact hboth (ha.watches hw)
  | recover _ hs ha hr =>
    have hack := ha.watches hw
    obtain ⟨acked, unacked, watch, hl⟩ := ha.frame_of_accepted ha.accepted
    have hresumed := hr.watches hack.watched (by rw [hl]; exact hs)
    have hlive : ¬ (l.state = .outOfService) := by simp [hs]
    refine hboth ⟨by rw [ticks_append]; exact hresumed.watched, fun h6 => ?_⟩
    rw [ticks_append]
    refine hresumed.t6 ((hack.t6 h6).resolve_left ?_)
    simpa [hl] using hlive

/-! ## Runs -/

/-- The timers that may run in a state. Outside service all of them do. -/
def State.timers : State → List Timer
  | .outOfService => []
  | .notAligned => [.t2]
  | .aligned => [.t3]
  | .proving => [.t4, .proving]
  | .alignedReady => [.t1]
  | .inService => [.t6, .t7]
  | .processorOutage => [.t6]

/-- What an observer keeps: the instant, the running timers with their deadlines, and whether
the peer became busy with messages unacknowledged, with no end of it since. -/
structure Clock where
  now : ℕ
  running : Timer → Option ℕ
  owed : Bool

def Clock.start : Clock := ⟨0, fun _ => none, false⟩

/-- A timer that runs out runs no more. -/
def expire (f : Timer → Option ℕ) : Call → Timer → Option ℕ
  | .timeout t => Function.update f t none
  | _ => f

def noteOwed (owed : Bool) (l : Link) (call : Call) (after : Link) : Bool :=
  if after.state = .outOfService then false
  else
    match call with
    | .onStatus .busy _ => owed || (l.isAligned && !l.remoteBusy && !l.unacked.isEmpty)
    | .onStatus .busyEnded _ => false
    | _ => owed

def noteClock (w : Clock) (l : Link) (e : Event) (r : Link × List Action) : Clock where
  now := e.now
  running := ticks e.now (expire w.running e.call) r.2
  owed := noteOwed w.owed l e.call r.1

def Call.runsOut (f : Timer → Option ℕ) : Call → Bool
  | .timeout t => (f t).isSome
  | _ => true

/-- Time does not go back, and a timer runs out only when it runs. -/
def Timely (p : Link × Clock) (e : Event) : Prop :=
  p.2.now ≤ e.now ∧ e.call.runsOut p.2.running = true

instance (p : Link × Clock) (e : Event) : Decidable (Timely p e) := instDecidableAnd

/-- The timers that supervise a link run, and no others. -/
structure Supervised (p : Link × Clock) : Prop where
  within : ∀ t, (p.2.running t).isSome = true → t ∈ State.timers p.1.state
  outside : p.1.isAligned = false → ∀ t ∈ State.timers p.1.state, (p.2.running t).isSome = true
  t7 : p.1.state = .inService → p.1.remoteBusy = false →
    ((p.2.running .t7).isSome = true ↔ p.1.unacked ≠ [])
  deadline : p.1.state = .inService → p.1.remoteBusy = false → ∀ d u,
    p.2.running .t7 = some d → p.1.unacked.head? = some u →
      d ≤ max p.2.now (u.sentAt + p.1.timers.t7)
  t6 : p.2.owed = true → (p.2.running .t6).isSome = true

/-- What carries the supervision over a run. -/
structure Guarded (p : Link × Clock) : Prop where
  queued : p.1.Queued
  watched : Watched p.1 p.2.now p.2.running
  owed : p.2.owed = true → (p.2.running .t6).isSome = true

theorem Guarded.supervised {p : Link × Clock} (h : Guarded p) : Supervised p where
  within := fun t ht => by
    by_cases h6 : t = .t6
    · subst h6
      have haligned := (h.watched.t6 ht).1
      simp only [isAligned, Bool.or_eq_true, decide_eq_true_eq] at haligned
      rcases haligned with hs | hs <;> simp [hs, State.timers]
    · have hruns := (h.watched.runs t h6).symm.trans ht
      cases t <;> simp_all [supervises, State.timers]
  outside := fun ha t ht => by
    have h6 : t ≠ .t6 := by
      rintro rfl
      cases hs : p.1.state <;> simp_all [State.timers, isAligned]
    rw [h.watched.runs t h6]
    cases hs : p.1.state <;> simp [isAligned, hs] at ha <;> simp [hs, State.timers] at ht
    case proving => rcases ht with rfl | rfl <;> simp [supervises, hs]
    all_goals
      subst ht
      simp [supervises, hs]
  t7 := fun hs hb => by simp [h.watched.runs .t7 (by decide), supervises, hs, hb]
  deadline := fun _ _ => h.watched.deadline
  t6 := h.owed

/-- What is owed stays owed while the link is not failed, if the peer does not become busy. -/
theorem Watches.owed {owed : Bool} {call : Call} {r : Link × List Action}
    (h : Watches now f r) (l : Link) (hcall : ∀ bsn, call ≠ .onStatus .busy bsn)
    (howed : owed = true → (f .t6).isSome = true) (hnote : noteOwed owed l call r.1 = true) :
    (ticks now f r.2 .t6).isSome = true := by
  unfold noteOwed at hnote
  split at hnote
  · simp at hnote
  next hlive =>
    split at hnote
    · exact absurd rfl (hcall _)
    · simp at hnote
    · exact (h.t6 (howed hnote)).resolve_left hlive

theorem TimeoutMove.failed_of_t6 {l : Link} {r : Link × List Action}
    (h : TimeoutMove codec l .t6 now r) (hheeds : l.heeds .t6 = true) :
    r.1.state = .outOfService := by
  cases h with
  | stale hstale => simp [hheeds] at hstale
  | failed _ _ => rfl
  | ready _ ht _ => cases ht
  | enter _ ht _ => cases ht
  | repeatProving _ ht => cases ht
  | rearm _ ht _ => cases ht

theorem StatusMove.owed {l : Link} {owed : Bool} {status : Status} {bsn : ℕ}
    {r : Link × List Action} (h : StatusMove codec l now status bsn r) (hw : Watched l now f)
    (hq : l.Queued) (howed : owed = true → (f .t6).isSome = true)
    (hnote : noteOwed owed l (.onStatus status bsn) r.1 = true) :
    (ticks now f r.2 .t6).isSome = true := by
  obtain ⟨hwatched, hkept⟩ := h.watched hw hq
  by_cases hended : status = .busyEnded
  · subst hended
    simp [noteOwed] at hnote
  by_cases hbusy : status = .busy
  · subst hbusy
    cases h with
    | ignored _ _ hi =>
      have ha : l.isAligned = false := by
        by_contra ha
        simpa using hi (by simpa using ha)
      have ho : ¬ l.state = .outOfService ∧ owed = true := by simpa [noteOwed, ha] using hnote
      exact howed ho.2
    | align _ _ _ hs => simp at hs
    | prove _ _ _ hs => simp at hs
    | failed _ _ _ hs => simp at hs
    | busy _ _ _ =>
      split
      next hu =>
        have ho : ¬ l.state = .outOfService ∧ owed = true := by simpa [noteOwed, hu] using hnote
        simpa using howed ho.2
      next => simp
    | stillBusy _ _ hb =>
      have ho : ¬ l.state = .outOfService ∧ owed = true := by simpa [noteOwed, hb] using hnote
      exact howed ho.2
  · exact Watches.owed ⟨hwatched, hkept hended⟩ l (by simp [hbusy]) howed hnote

theorem StepMove.guarded {l : Link} {w : Clock} {call : Call} {r : Link × List Action}
    (h : StepMove codec l now call r) (hg : Guarded (l, w)) (hnow : w.now ≤ now)
    (hrun : call.runsOut w.running = true) : Guarded (r.1, noteClock w l ⟨now, call⟩ r) := by
  have hq := h.keepsQueued hg.queued
  have hw : Watched l now w.running := hg.watched.mono hnow
  have hof (hcall : ∀ bsn, call ≠ .onStatus .busy bsn)
      (hexpire : expire w.running call = w.running) (hr : Watches now w.running r) :
      Guarded (r.1, noteClock w l ⟨now, call⟩ r) := by
    refine ⟨hq, ?_, fun hnote => ?_⟩
    · simp only [noteClock, hexpire]
      exact hr.watched
    · simp only [noteClock, hexpire] at hnote ⊢
      exact hr.owed l hcall hg.owed hnote
  cases h with
  | established =>
    refine hof (by simp) rfl ⟨?_, fun h6 => .inr ?_⟩
    · simpa using hw
    · simpa using h6
  | startIgnored _ => exact hof (by simp) rfl hw.watches
  | started hs =>
    have ha : l.isAligned = false := by simp [isAligned, hs]
    have h6 := hw.t6_none ha
    refine hof (by simp) rfl
      ⟨.of_runs (fun t ht => ?_) ?_ (hg.queued.idle_unacked ha), by simp [h6]⟩
    · unfold startActions
      split <;> cases t <;> simp_all [supervises, hw.runs, Link.started]
    · unfold startActions
      split <;> simpa using h6
  | fail _ hm => exact hof (by simp) rfl (hm.watches hw)
  | retrieve _ => exact hof (by simp) rfl ⟨hw.of_eq rfl rfl rfl rfl, fun h6 => .inr h6⟩
  | detach => exact hof (by simp) rfl ⟨hw.of_eq rfl rfl rfl rfl, fun h6 => .inr h6⟩
  | abandon => exact hof (by simp) rfl ⟨hw.of_eq rfl rfl rfl rfl, fun h6 => .inr h6⟩
  | send _ hm =>
    refine hof (by simp) rfl ?_
    cases hm with
    | transmitted hs hb ht => exact ht.watches hw hs hb
    | congested _ _ _ => exact ⟨hw, fun h6 => .inr h6⟩
    | queued _ _ _ => exact ⟨hw.of_eq rfl rfl rfl rfl, fun h6 => .inr h6⟩
    | refused _ => exact ⟨hw, fun h6 => .inr h6⟩
  | timeout timer hm =>
    have hr := hm.watches hw hg.queued hrun
    refine ⟨hq, hr.watched, fun hnote => ?_⟩
    by_cases h6 : timer = .t6
    · subst h6
      obtain ⟨ha, hb⟩ := hw.t6 hrun
      have hfailed := hm.failed_of_t6 (by simp [heeds, ha, hb])
      simp [noteClock, noteOwed, hfailed] at hnote
    · have hnote' : noteOwed w.owed l (.timeout timer) r.1 = true := hnote
      refine hr.owed l (by simp) (fun howed => ?_) hnote'
      rw [Function.update_of_ne (Ne.symm h6)]
      exact hg.owed howed
  | onStatus _ _ hm => exact ⟨hq, (hm.watched hw hg.queued).1, hm.owed hw hg.queued hg.owed⟩
  | onData _ _ _ hm => exact hof (by simp) rfl (hm.watches hw hg.queued)
  | flushIgnored _ => exact hof (by simp) rfl ⟨hw.of_eq rfl rfl rfl rfl, fun h6 => .inr h6⟩
  | flushed _ _ =>
    refine hof (by simp) rfl ⟨?_, fun h6 => .inr ?_⟩
    · rw [ticks_sendFrame]
      exact hw.of_eq rfl rfl rfl rfl
    · simpa using h6

/-- In every run in which time does not go back and only running timers run out, the timers
of each state supervise it. -/
theorem always_supervised (codec : Codec) (timers : LinkTimers) (proving : Proving)
    (txQueue : ℕ) (events : List Event)
    (h : Along (watch (step codec) noteClock) Timely (new timers proving txQueue, .start)
      events) :
    Along (watch (step codec) noteClock)
      (fun p e => Supervised (watch (step codec) noteClock p e))
      (new timers proving txQueue, .start) events := by
  have hstart : Guarded (new timers proving txQueue, .start) :=
    ⟨new_queued timers proving txQueue, .none rfl, by simp [Clock.start]⟩
  refine @along_of_invariant _ _ _ Guarded _ _ ?_ ?_ _ hstart _ h
  · intro p e hg ht
    exact (step_move codec p.1 e).guarded hg ht.1 ht.2
  · intro p e hg ht
    exact ((step_move codec p.1 e).guarded hg ht.1 ht.2).supervised

theorem always_supervised_of_busy :
    Along (watch (step wire) noteClock)
      (fun p e => Supervised (watch (step wire) noteClock p e))
      (new .default .normal 10, .start)
      (bringUp ++ [⟨8300, .send [0x85, 1, 2]⟩, ⟨8400, .onStatus .busy seqMask⟩,
        ⟨12900, .timeout .t6⟩]) :=
  always_supervised wire .default .normal 10
    (bringUp ++ [⟨8300, .send [0x85, 1, 2]⟩, ⟨8400, .onStatus .busy seqMask⟩,
      ⟨12900, .timeout .t6⟩]) (by decide)

end Link

end SiphonSigtran.M2pa
