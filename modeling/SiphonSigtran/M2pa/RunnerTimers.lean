import SiphonSigtran.M2pa.LinkIndications
import SiphonSigtran.M2pa.RunnerTold

/-!
# What wakes the task of a link

The task sleeps until a message, a command or the earliest of its deadlines. The actions of the link
set and clear the deadlines when they are carried out, which is after the link asked for them, and
several timers may be due at once. Still the timers that supervise a link run whenever its task
waits, one timer of its test runs while the test does, and a link out of service is to be restarted.
-/

namespace SiphonSigtran.M2pa

open Lib.Machine

namespace Link

variable {codec : Codec} {l : Link} {now : ℕ}

/-! ## A link that goes out of service says why -/

/-- A link out of service was so before, or has just said that it is. -/
def Reports (l : Link) (r : Link × List Action) : Prop :=
  r.1.state = .outOfService → l.state = .outOfService ∨ ∃ reason, .outOfService reason ∈ r.2

theorem Reports.of_state {r : Link × List Action} (h : r.1.state = l.state) : l.Reports r :=
  fun hout => .inl (h.symm.trans hout)

theorem Reports.of_up {r : Link × List Action} (h : r.1.state ≠ .outOfService) : l.Reports r :=
  fun hout => absurd hout h

theorem reports_failed (codec : Codec) (l : Link) (reason : Failure) :
    l.Reports (l.failed, l.failActions codec reason) := by
  refine fun _ => .inr ⟨reason, ?_⟩
  unfold failActions
  simp

theorem Reports.append {l' : Link} {r : Link × List Action} (h : l'.Reports r)
    (before : List Action) (hs : l'.state = .outOfService → l.state = .outOfService ∨
      ∃ reason, .outOfService reason ∈ before) : l.Reports (r.1, before ++ r.2) := by
  intro hout
  rcases h hout with hbefore | ⟨reason, hmem⟩
  · rcases hs hbefore with hl | ⟨reason, hmem⟩
    · exact .inl hl
    · exact .inr ⟨reason, List.mem_append_left _ hmem⟩
  · exact .inr ⟨reason, List.mem_append_right _ hmem⟩

theorem FailMove.reports {reason : Failure} {r : Link × List Action}
    (h : FailMove codec l reason r) : l.Reports r := by
  cases h with
  | out _ => exact .of_state rfl
  | failed _ => exact reports_failed codec l reason

theorem AcknowledgeMove.reports {bsn : ℕ} {strict : Bool} {a : Link × List Action × Bool}
    (h : AcknowledgeMove codec l bsn strict now a) : l.Reports (a.1, a.2.1) := by
  cases h with
  | ignored _ _ => exact .of_state rfl
  | abnormal _ _ _ => exact .of_state rfl
  | faulty _ _ _ hf => exact hf.reports.append [_] .inl
  | repeated _ _ _ => exact .of_state rfl
  | advanced _ _ _ => exact .of_state rfl

theorem ReceiveMove.reports {bsn fsn : ℕ} {message : UserDataMessage} {r : Link × List Action}
    (h : ReceiveMove codec l bsn fsn message now r) : l.Reports r := by
  have hend : ∀ {a : Link × List Action × Bool} {l' : Link} {last : Action},
      AcknowledgeMove codec l bsn true now a → l'.state = a.1.state →
      l.Reports (l', a.2.1 ++ [last]) := by
    intro a l' last ha hs
    have hlast : a.1.Reports (l', [last]) := .of_state hs
    exact hlast.append _ ha.reports
  cases h with
  | discarded ha _ => exact ha.reports
  | empty ha _ _ => exact ha.reports
  | outOfSequence ha _ _ _ => exact hend ha rfl
  | delivered ha _ _ _ => exact hend ha rfl

theorem DataMove.reports {bsn fsn : ℕ} {message : UserDataMessage} {r : Link × List Action}
    (h : DataMove codec l bsn fsn message now r) : l.Reports r := by
  cases h with
  | refused _ _ => exact .of_state rfl
  | enter _ hr => exact hr.reports.append _ fun hno => by cases hno
  | received _ hr => exact hr.reports

theorem TimeoutMove.reports {timer : Timer} {r : Link × List Action}
    (h : TimeoutMove codec l timer now r) : l.Reports r := by
  cases h with
  | stale _ => exact .of_state rfl
  | failed reason _ => exact reports_failed codec l reason
  | ready _ _ _ => exact .of_up (by simp)
  | enter _ _ _ => exact .of_up (by simp [enterService])
  | repeatProving _ _ => exact .of_state rfl
  | rearm _ _ _ => exact .of_state rfl

theorem EndBusyMove.reports {r : Link × List Action} (h : EndBusyMove codec l now r) :
    l.Reports r := by
  cases h with
  | idle _ => exact .of_state rfl
  | flushed _ hs hf => exact .of_state hf.quiet.1
  | cleared _ _ => exact .of_state rfl

theorem StatusMove.reports {status : Status} {bsn : ℕ} {r : Link × List Action}
    (h : StatusMove codec l now status bsn r) : l.Reports r := by
  cases h with
  | ignored _ _ _ => exact .of_state rfl
  | align _ _ hs _ => exact .of_up (by simp [Link.align])
  | prove _ _ hs _ => exact .of_up (by simp [Link.prove])
  | failed _ _ _ _ => exact reports_failed codec l _
  | startOver _ hs => exact .of_up (by simp)
  | shorten _ _ => exact .of_state rfl
  | noteReady _ _ => exact .of_state rfl
  | enter _ hs => exact .of_up (by simp [enterService])
  | outage _ hs => exact .of_up (by simp)
  | busy _ _ _ => exact .of_state rfl
  | stillBusy _ _ _ => exact .of_state rfl
  | busyEnded _ _ hr => exact hr.reports
  | acknowledge _ _ ha => exact ha.reports
  | recover _ hs ha hr => exact .of_up (by simp [hr.quiet.1])

theorem step_reports (codec : Codec) (l : Link) (e : Event) : l.Reports (l.step codec e) := by
  obtain ⟨now, call⟩ := e
  have h := step_move codec l ⟨now, call⟩
  generalize l.step codec ⟨now, call⟩ = r at h
  cases h with
  | established => exact .of_state rfl
  | startIgnored _ => exact .of_state rfl
  | started hs => exact fun _ => .inl hs
  | fail _ hf => exact hf.reports
  | retrieve _ => exact .of_state rfl
  | detach => exact .of_state rfl
  | abandon => exact .of_state rfl
  | send _ hm =>
    cases hm with
    | transmitted _ _ ht => exact .of_state ht.quiet.1
    | congested _ _ _ => exact .of_state rfl
    | queued _ _ _ => exact .of_state rfl
    | refused _ => exact .of_state rfl
  | timeout _ hm => exact hm.reports
  | onStatus _ _ hm => exact hm.reports
  | onData _ _ _ hm => exact hm.reports
  | flushIgnored _ => exact .of_state rfl
  | flushed _ _ => exact .of_state rfl

/-! ## Which timers run -/

/-- What an action does to whether a timer runs. -/
def arm (on : Timer → Bool) : Action → Timer → Bool
  | .start t _ => Function.update on t true
  | .stop t => Function.update on t false
  | _ => on

def arms (on : Timer → Bool) (out : List Action) : Timer → Bool := out.foldl arm on

theorem arms_append (on : Timer → Bool) (xs ys : List Action) :
    arms on (xs ++ ys) = arms (arms on xs) ys := List.foldl_append

/-- A timer that runs more after some actions ran more before them. -/
theorem arms_mono {on on' : Timer → Bool} {t : Timer} (h : on t = true → on' t = true)
    (out : List Action) : arms on out t = true → arms on' out t = true := by
  induction out generalizing on on' with
  | nil => exact h
  | cons a out ih =>
    refine ih ?_
    cases a with
    | start timer after =>
      by_cases ht : t = timer
      · simp [arm, ht]
      · simpa [arm, ht] using h
    | stop timer =>
      by_cases ht : t = timer
      · simp [arm, ht]
      · simpa [arm, ht] using h
    | _ => exact h

/-- It makes no difference that a timer is gone that is stopped anyway. -/
theorem arms_update {on : Timer → Bool} {t : Timer} {out : List Action}
    (h : arms on out t = false) : arms (Function.update on t false) out = arms on out := by
  funext u
  by_cases hu : u = t
  · subst hu
    rw [h, Bool.eq_false_iff]
    refine fun hon => absurd (arms_mono (fun hno => ?_) out hon) (Bool.eq_false_iff.mp h)
    simp at hno
  · have hsame : Function.update on t false u = on u := Function.update_of_ne hu _ _
    exact Bool.eq_iff_iff.mpr ⟨arms_mono (fun hon => hsame ▸ hon) out,
      arms_mono (fun hon => hsame.symm ▸ hon) out⟩

/-- Timers without their deadlines. -/
theorem ticks_isSome (now : ℕ) (f : Timer → Option ℕ) (out : List Action) :
    (fun t => (ticks now f out t).isSome) = arms (fun t => (f t).isSome) out := by
  induction out generalizing f with
  | nil => rfl
  | cons a out ih =>
    rw [ticks_cons, ih]
    refine congrArg (fun on => arms on out) ?_
    funext t
    cases a with
    | start timer after => by_cases ht : t = timer <;> simp [tick, arm, ht, Function.update]
    | stop timer => by_cases ht : t = timer <;> simp [tick, arm, ht, Function.update]
    | _ => rfl

/-- The timers that supervise the link run, T6 besides only while the peer is busy. -/
structure Runs (l : Link) (on : Timer → Bool) : Prop where
  queued : l.Queued
  runs : ∀ t, t ≠ .t6 → on t = l.supervises t
  t6 : on .t6 = true → l.isAligned = true ∧ l.remoteBusy = true

theorem isSome_ite (b : Bool) : (if b then some 0 else none : Option ℕ).isSome = b := by
  cases b <;> rfl

theorem Runs.guarded {on : Timer → Bool} (h : l.Runs on) (now : ℕ) :
    Guarded (l, ⟨now, fun t => if on t then some 0 else none, false⟩) := by
  refine ⟨h.queued, ⟨fun t ht => (isSome_ite _).trans (h.runs t ht), fun h6 => h.t6 ?_, ?_⟩, ?_⟩
  · exact (isSome_ite _).symm.trans h6
  · intro d u hd _
    have hzero : d = 0 := by
      cases hon : on .t7 <;> simp_all
    omega
  · simp

/-- The timers that still run when a call is made. -/
def running (on : Timer → Bool) : Call → Timer → Bool
  | .timeout t => Function.update on t false
  | _ => on

theorem isSome_expire (on : Timer → Bool) (call : Call) :
    (fun t => (expire (fun t => if on t then some 0 else none) call t).isSome) =
      running on call := by
  funext t
  cases call with
  | timeout timer =>
    by_cases ht : t = timer
    · simp [expire, running, ht]
    · simpa [expire, running, ht] using isSome_ite (on t)
  | _ => exact isSome_ite (on t)

/-- No call leaves other timers running, if a timer that runs out ran. -/
theorem Runs.step {on : Timer → Bool} (h : l.Runs on) (codec : Codec) {e : Event}
    (hrun : ∀ timer, e.call = .timeout timer → on timer = true) :
    (l.step codec e).1.Runs (arms (running on e.call) (l.step codec e).2) := by
  have hclock : e.call.runsOut (fun t => if on t then some 0 else none) = true := by
    cases hcall : e.call with
    | timeout timer => exact (isSome_ite (on timer)).trans (hrun timer hcall)
    | _ => rfl
  have hg := (step_move codec l e).guarded (h.guarded e.now) (le_refl _) hclock
  have hticks := ticks_isSome e.now (expire (fun t => if on t then some 0 else none) e.call)
    (l.step codec e).2
  rw [isSome_expire] at hticks
  refine ⟨hg.queued, fun t ht => ?_, fun h6 => hg.watched.t6 ?_⟩
  · rw [← hticks]
    exact hg.watched.runs t ht
  · rw [← hticks] at h6
    exact h6

theorem Runs.within {on : Timer → Bool} (h : l.Runs on) {t : Timer} (ht : on t = true) :
    t ∈ State.timers l.state :=
  (h.guarded 0).supervised.within t ((isSome_ite (on t)).trans ht)

theorem Runs.outside {on : Timer → Bool} (h : l.Runs on) (ha : l.isAligned = false) {t : Timer}
    (ht : t ∈ State.timers l.state) : on t = true :=
  (isSome_ite (on t)).symm.trans ((h.guarded 0).supervised.outside ha t ht)

/-- With T4 proving is over. -/
theorem timeout_t4 (codec : Codec) {l : Link} (h : l.state = .proving) (now : ℕ) :
    (l.timeout codec .t4 now).1.state ≠ .proving := by
  have hmove := timeout_move codec l .t4 now
  generalize l.timeout codec .t4 now = r at hmove
  cases hmove with
  | stale hstale => simp [heeds, h] at hstale
  | failed _ _ => simp [failed]
  | ready _ _ _ => simp
  | enter _ _ _ => simp [enterService]
  | repeatProving _ ht => cases ht
  | rearm _ ht _ => cases ht

theorem timeout_stale (codec : Codec) {l : Link} (h : l.state ≠ .proving) (now : ℕ) :
    l.timeout codec .proving now = (l, []) := by
  unfold timeout
  split <;> first | rfl | contradiction

end Link

namespace Runner

variable {ι : Type*} {port : LinkPort ι} {now : ℕ} {r r' : Runner}

/-! ## The deadlines of a task -/

def armed (r : Runner) (t : Timer) : Bool := (r.deadlines.link t).isSome

/-- The link has its timers once all that it asked for is carried out, and is restarted when it is
out of service. -/
structure Timed (r : Runner) : Prop where
  runs : r.link.Runs (Link.arms r.armed r.pending)
  restart : r.phase ≠ .idle → r.link.state = .outOfService →
    r.deadlines.restart ≠ none ∨ ∃ reason, .outOfService reason ∈ r.pending

/-- The deadlines of the link and of its restart are left alone. -/
structure Undisturbed (r r' : Runner) : Prop where
  link : r'.deadlines.link = r.deadlines.link
  restart : r'.deadlines.restart = r.deadlines.restart
  phase : r'.phase ≠ .idle → r.phase ≠ .idle

theorem Undisturbed.armed (h : Undisturbed r r') : r'.armed = r.armed := by
  funext t
  unfold Runner.armed
  rw [h.link]

theorem Timed.unasked (h : Timed r) (hu : Undisturbed r r') (hl : r'.link = r.link)
    (hp : r'.pending = r.pending) : Timed r' := by
  refine ⟨?_, fun hphase hout => ?_⟩
  · rw [hu.armed, hl, hp]
    exact h.runs
  · rw [hu.restart, hp]
    exact h.restart (hu.phase hphase) (hl ▸ hout)

/-- A call of the link, other than that a timer ran out. -/
theorem Timed.asked (h : Timed r) (codec : Codec) (e : Link.Event)
    (hcall : ∀ timer, e.call ≠ .timeout timer) (hu : Undisturbed r r')
    (hl : r'.link = (r.link.step codec e).1)
    (hp : r'.pending = r.pending ++ (r.link.step codec e).2) : Timed r' := by
  refine ⟨?_, fun hphase hout => ?_⟩
  · have hruns := h.runs.step codec (e := e) fun timer ht => absurd ht (hcall timer)
    have hsame : Link.running (Link.arms r.armed r.pending) e.call =
        Link.arms r.armed r.pending := by
      cases hc : e.call with
      | timeout timer => exact absurd hc (hcall timer)
      | _ => rfl
    rw [hsame] at hruns
    rw [hu.armed, hl, hp, Link.arms_append]
    exact hruns
  · rw [hl] at hout
    rw [hu.restart, hp]
    rcases Link.step_reports codec r.link e hout with hbefore | ⟨reason, hmem⟩
    · rcases h.restart (hu.phase hphase) hbefore with hset | ⟨reason, hmem⟩
      · exact .inl hset
      · exact .inr ⟨reason, List.mem_append_left _ hmem⟩
    · exact .inr ⟨reason, List.mem_append_right _ hmem⟩

theorem Timed.ask (h : Timed r) (codec : Codec) (e : Link.Event)
    (hcall : ∀ timer, e.call ≠ .timeout timer) : Timed (r.ask (r.link.step codec e)) :=
  h.asked codec e hcall ⟨rfl, rfl, id⟩ rfl rfl

/-- The first action is carried out. -/
theorem Timed.carried (h : Timed r) {action : Action} {rest : List Action}
    (hpending : r.pending = action :: rest) (hp : r'.pending = rest) (hl : r'.link = r.link)
    (harmed : r'.armed = Link.arm r.armed action) (hphase : r'.phase = r.phase)
    (hrestart : r'.deadlines.restart = none →
      r.deadlines.restart = none ∧ ∀ reason, action ≠ .outOfService reason) : Timed r' := by
  refine ⟨?_, fun hserving hout => ?_⟩
  · have hruns := h.runs
    rw [hpending] at hruns
    rw [harmed, hl, hp]
    exact hruns
  · rw [hphase] at hserving
    rw [hl] at hout
    by_cases hnone : r'.deadlines.restart = none
    · obtain ⟨hbefore, hother⟩ := hrestart hnone
      rcases h.restart hserving hout with hset | ⟨reason, hmem⟩
      · exact absurd hbefore hset
      · rw [hpending] at hmem
        rcases List.mem_cons.mp hmem with heq | hmem
        · exact absurd heq.symm (hother reason)
        · exact .inr ⟨reason, hp ▸ hmem⟩
    · exact .inl hnone

theorem applyTestActions_deadlines (r : Runner) (out : List TestAction) :
    (out.foldl (applyTestAction port now) r).deadlines.link = r.deadlines.link := by
  induction out generalizing r with
  | nil => rfl
  | cons action out ih =>
    rw [List.foldl_cons, ih]
    cases action with
    | sendTest =>
      simp only [applyTestAction, sendTest]
      split
      · split <;> rfl
      · rfl
    | _ => rfl

theorem applyTest_deadlines (r : Runner) (operation : LinkTest → LinkTest × List TestAction) :
    (r.applyTest port now operation).deadlines.link = r.deadlines.link := by
  unfold applyTest
  split
  · exact applyTestActions_deadlines _ _
  · rfl

/-- What the test asks of its link. -/
theorem Timed.tested (h : Timed r) (ht : Tested port now r r')
    (hd : r'.deadlines.link = r.deadlines.link) : Timed r' := by
  have hu : Undisturbed r r' := ⟨hd, ht.same.restart, fun hno => ht.same.phase ▸ hno⟩
  cases ht with
  | quiet hq => exact h.unasked hu hq.link hq.pending
  | sent msu _ hl hp => exact h.asked port.codec ⟨now, .send msu⟩ (by simp) hu hl hp
  | failed _ hl hp => exact h.asked port.codec ⟨now, .fail .linkTest⟩ (by simp) hu hl hp

/-! ### Timers that run out -/

theorem fireLink_unarmed {timer : Timer} (h : r.armed timer = false) :
    r.fireLink port now timer = r := by
  have hnone : r.deadlines.link timer = none := by simpa [armed] using h
  rw [fireLink, hnone]
  rfl

theorem fireLink_other {timer t : Timer} (h : t ≠ timer) :
    (r.fireLink port now timer).armed t = r.armed t := by
  unfold fireLink
  split_ifs
  · simp [armed, ask, h]
  · rfl

/-- Of several timers only one that runs can run out. -/
theorem fireLinks_sole {timers : List Timer} (hnodup : timers.Nodup) {sole : Timer}
    (hmem : sole ∈ timers) (h : ∀ t ∈ timers, t ≠ sole → r.armed t = false) :
    timers.foldl (fireLink port now) r = r.fireLink port now sole := by
  have hnone : ∀ (timers : List Timer) (r : Runner), (∀ t ∈ timers, r.armed t = false) →
      timers.foldl (fireLink port now) r = r := by
    intro timers
    induction timers with
    | nil => exact fun r _ => rfl
    | cons t timers ih =>
      intro r h
      rw [List.foldl_cons, fireLink_unarmed (h t List.mem_cons_self)]
      exact ih r fun u hu => h u (List.mem_cons_of_mem _ hu)
  induction timers with
  | nil => cases hmem
  | cons t timers ih =>
    obtain ⟨hnew, hnodup⟩ := List.nodup_cons.mp hnodup
    by_cases ht : t = sole
    · subst ht
      refine hnone timers _ fun u hu => ?_
      have hne : u ≠ t := fun heq => hnew (heq ▸ hu)
      rw [fireLink_other hne]
      exact h u (List.mem_cons_of_mem _ hu) hne
    · rw [List.foldl_cons, fireLink_unarmed (h t List.mem_cons_self ht)]
      exact ih hnodup (List.mem_of_ne_of_mem (Ne.symm ht) hmem)
        fun u hu => h u (List.mem_cons_of_mem _ hu)

theorem armed_of_due {timer : Timer} (h : (r.deadlines.link timer).any (· ≤ now) = true) :
    r.armed timer = true := by
  cases hd : r.deadlines.link timer with
  | none => simp [hd] at h
  | some d => simp [armed, hd]

/-- A task whose timer ran out. -/
def cleared (r : Runner) (timer : Timer) : Runner :=
  { r with
    deadlines := { r.deadlines with link := Function.update r.deadlines.link timer none } }

theorem armed_cleared (r : Runner) (timer : Timer) :
    (r.cleared timer).armed = Function.update r.armed timer false := by
  funext t
  by_cases ht : t = timer <;> simp [armed, cleared, ht]

theorem fireLink_of_due {timer : Timer} (h : (r.deadlines.link timer).any (· ≤ now) = true) :
    r.fireLink port now timer =
      (r.cleared timer).ask (r.link.timeout port.codec timer now) := if_pos h

theorem fireLink_of_not_due {timer : Timer}
    (h : ¬(r.deadlines.link timer).any (· ≤ now) = true) : r.fireLink port now timer = r :=
  if_neg h

/-- A timer that is due runs out when nothing is left to carry out. -/
theorem Timed.fireLink (h : Timed r) (hpending : r.pending = []) (timer : Timer) :
    Timed (r.fireLink port now timer) := by
  by_cases hdue : (r.deadlines.link timer).any (· ≤ now) = true
  · rw [fireLink_of_due hdue]
    have hruns := h.runs
    rw [hpending] at hruns
    refine ⟨?_, fun hserving hout => ?_⟩
    · have hafter := hruns.step port.codec (e := ⟨now, .timeout timer⟩) (by
        intro t ht
        obtain rfl := Link.Call.timeout.inj ht
        exact armed_of_due hdue)
      change (r.link.timeout port.codec timer now).1.Runs (Link.arms (r.cleared timer).armed
        (r.pending ++ (r.link.timeout port.codec timer now).2))
      rw [hpending, List.nil_append, armed_cleared]
      exact hafter
    · rcases Link.step_reports port.codec r.link ⟨now, .timeout timer⟩ hout with
        hbefore | ⟨reason, hmem⟩
      · rcases h.restart hserving hbefore with hset | ⟨reason, hmem⟩
        · exact .inl hset
        · exact .inr ⟨reason, List.mem_append_left _ hmem⟩
      · exact .inr ⟨reason, List.mem_append_right _ hmem⟩
  · rw [fireLink_of_not_due hdue]
    exact h

/-- With proving over its timer means nothing, though it was not stopped yet. -/
theorem Timed.fireProving (h : Timed r) (hs : r.link.state ≠ .proving) :
    Timed (r.fireLink port now .proving) := by
  by_cases hdue : (r.deadlines.link .proving).any (· ≤ now) = true
  · rw [fireLink_of_due hdue, Link.timeout_stale port.codec hs]
    have hoff : Link.arms r.armed r.pending .proving = false := by
      rw [h.runs.runs .proving (by simp)]
      simp [Link.supervises, hs]
    refine ⟨?_, fun hserving hout => ?_⟩
    · change r.link.Runs (Link.arms (r.cleared .proving).armed (r.pending ++ []))
      rw [List.append_nil, armed_cleared, Link.arms_update hoff]
      exact h.runs
    · change r.deadlines.restart ≠ none ∨ ∃ reason, .outOfService reason ∈ r.pending ++ []
      rw [List.append_nil]
      exact h.restart hserving hout
  · rw [fireLink_of_not_due hdue]
    exact h

theorem Timed.unarmed (h : Timed r) (hpending : r.pending = []) {t : Timer}
    (ht : t ∉ Link.State.timers r.link.state) : r.armed t = false := by
  have hruns := h.runs
  rw [hpending] at hruns
  exact Bool.eq_false_iff.mpr fun hon => ht (hruns.within hon)

/-- Outside proving one timer of a link runs at most. -/
theorem Timed.sole (h : Timed r) (hpending : r.pending = []) (hs : r.link.state ≠ .proving) :
    ∃ sole, ∀ t, t ≠ sole → r.armed t = false := by
  have hruns := h.runs
  rw [hpending] at hruns
  cases hstate : r.link.state with
  | proving => exact absurd hstate hs
  | inService =>
    -- T6 runs while the peer is busy, T7 while it is not.
    cases hb : r.link.remoteBusy with
    | true =>
      refine ⟨.t6, fun t ht => ?_⟩
      by_cases h7 : t = .t7
      · subst h7
        have hoff : r.armed .t7 = r.link.supervises .t7 := hruns.runs .t7 (by simp)
        simpa [Link.supervises, hb] using hoff
      · exact h.unarmed hpending (by simp [hstate, Link.State.timers, ht, h7])
    | false =>
      refine ⟨.t7, fun t ht => ?_⟩
      by_cases h6 : t = .t6
      · subst h6
        rw [Bool.eq_false_iff]
        intro hon
        have hbusy := (hruns.t6 hon).2
        simp [hb] at hbusy
      · exact h.unarmed hpending (by simp [hstate, Link.State.timers, ht, h6])
  | outOfService => exact ⟨.t1, fun t _ => h.unarmed hpending (by simp [hstate, Link.State.timers])⟩
  | notAligned =>
    exact ⟨.t2, fun t ht => h.unarmed hpending (by simp [hstate, Link.State.timers, ht])⟩
  | aligned =>
    exact ⟨.t3, fun t ht => h.unarmed hpending (by simp [hstate, Link.State.timers, ht])⟩
  | alignedReady =>
    exact ⟨.t1, fun t ht => h.unarmed hpending (by simp [hstate, Link.State.timers, ht])⟩
  | processorOutage =>
    exact ⟨.t6, fun t ht => h.unarmed hpending (by simp [hstate, Link.State.timers, ht])⟩

/-- All the timers that are due run out, one after the other. -/
theorem Timed.fireLinks (h : Timed r) (port : LinkPort ι) (now : ℕ) (hpending : r.pending = []) :
    Timed (Timer.all.foldl (Runner.fireLink port now) r) := by
  by_cases hs : r.link.state = .proving
  · -- T4 ends proving, after which its own timer may still be due.
    have hsole : ∀ t, t ≠ .t4 → t ≠ .proving → r.armed t = false := by
      intro t h4 hp
      refine h.unarmed hpending ?_
      cases t <;> simp_all [Link.State.timers]
    have hsplit : Timer.all.foldl (Runner.fireLink port now) r =
        (r.fireLink port now .t4).fireLink port now .proving := by
      have hfirst : [Timer.t1, .t2, .t3, .t4, .t6, .t7].foldl (Runner.fireLink port now) r =
          r.fireLink port now .t4 :=
        fireLinks_sole (by decide) (by simp) fun t ht hne =>
          hsole t hne fun hp => by simp [hp] at ht
      change ([Timer.t1, .t2, .t3, .t4, .t6, .t7].foldl (Runner.fireLink port now) r).fireLink
        port now .proving = _
      rw [hfirst]
    rw [hsplit]
    have hfirst : Timed (r.fireLink port now .t4) := h.fireLink hpending .t4
    by_cases hdue : (r.deadlines.link .t4).any (· ≤ now) = true
    · refine hfirst.fireProving ?_
      rw [fireLink_of_due hdue]
      exact Link.timeout_t4 port.codec hs now
    · rw [fireLink_of_not_due hdue]
      exact h.fireLink hpending .proving
  · obtain ⟨sole, hsole⟩ := h.sole hpending hs
    have hall : Timer.all.foldl (Runner.fireLink port now) r = r.fireLink port now sole :=
      fireLinks_sole (by decide) (by cases sole <;> decide) fun t _ hne => hsole t hne
    rw [hall]
    exact h.fireLink hpending sole

/-! ### Timers of the test -/

/-- Whether a timer of the test runs, by where the test stands. -/
def runsTest (test : LinkTest) : TestTimer → Bool
  | .t1 => test.isWaiting
  | .t2 => test.state = .passed

def armTest (on : TestTimer → Bool) : TestAction → TestTimer → Bool
  | .start t _ => Function.update on t true
  | .stop t => Function.update on t false
  | _ => on

def armsTest (on : TestTimer → Bool) (out : List TestAction) : TestTimer → Bool :=
  out.foldl armTest on

theorem begin_arms (test : LinkTest) (on : TestTimer → Bool) :
    armsTest on test.begin.2 = runsTest test.begin.1 := by
  funext t
  cases t <;> rfl

theorem stop_arms (test : LinkTest) :
    armsTest (runsTest test) test.stop.2 = runsTest test.stop.1 := by
  funext t
  cases hs : test.state <;> cases t <;>
    simp [LinkTest.stop, armsTest, armTest, runsTest, LinkTest.isWaiting, hs]

theorem attemptFailed_arms (test : LinkTest) (on : TestTimer → Bool) (h : on .t2 = false) :
    armsTest on test.attemptFailed.2 = runsTest test.attemptFailed.1 := by
  funext t
  cases hs : test.state <;> cases t <;>
    simp [LinkTest.attemptFailed, armsTest, armTest, runsTest, LinkTest.isWaiting, hs, h]

theorem acknowledged_arms (test : LinkTest) (correct : Bool) :
    armsTest (runsTest test) (test.acknowledged correct).2 =
      runsTest (test.acknowledged correct).1 := by
  unfold LinkTest.acknowledged
  split_ifs with hwaiting hwrong hfirst
  · rfl
  · refine attemptFailed_arms test _ ?_
    cases hs : test.state <;> simp_all [runsTest, LinkTest.isWaiting]
  · funext t
    cases t <;> simp [armsTest, armTest, runsTest, LinkTest.isWaiting]
  · funext t
    cases t <;> simp [armsTest, armTest, runsTest, LinkTest.isWaiting]

theorem timeout_arms (test : LinkTest) (timer : TestTimer) (h : runsTest test timer = true) :
    armsTest (Function.update (runsTest test) timer false) (test.timeout timer).2 =
      runsTest (test.timeout timer).1 := by
  cases timer with
  | t1 =>
    have hfailed : test.timeout .t1 = test.attemptFailed := by
      cases hs : test.state <;> simp_all [LinkTest.timeout, runsTest, LinkTest.isWaiting]
    rw [hfailed]
    refine attemptFailed_arms test _ ?_
    cases hs : test.state <;> simp_all [runsTest, LinkTest.isWaiting]
  | t2 =>
    have hs : test.state = .passed := by simpa [runsTest] using h
    funext t
    cases t <;> simp [LinkTest.timeout, armsTest, armTest, runsTest, LinkTest.isWaiting, hs]

/-- The timers of the test are set by where it stands. -/
def Probed (r : Runner) : Prop :=
  ∀ t, (r.deadlines.test t).isSome = r.test.any fun test => runsTest test t

theorem applyTestActions_probed (port : LinkPort ι) (now : ℕ) (r : Runner)
    (out : List TestAction) :
    (fun t => ((out.foldl (applyTestAction port now) r).deadlines.test t).isSome) =
      armsTest (fun t => (r.deadlines.test t).isSome) out := by
  induction out generalizing r with
  | nil => rfl
  | cons action out ih =>
    rw [List.foldl_cons, ih]
    refine congrArg (fun on => armsTest on out) ?_
    funext t
    cases action with
    | sendTest =>
      simp only [applyTestAction, sendTest]
      split
      · split <;> rfl
      · rfl
    | start timer after => by_cases ht : t = timer <;> simp [applyTestAction, armTest, ht]
    | stop timer => by_cases ht : t = timer <;> simp [applyTestAction, armTest, ht]
    | _ => rfl

theorem probed_applyTest {operation : LinkTest → LinkTest × List TestAction}
    (h : ∀ test, r.test = some test →
      armsTest (fun t => (r.deadlines.test t).isSome) (operation test).2 =
        runsTest (operation test).1)
    (hnone : r.test = none → ∀ t, (r.deadlines.test t).isSome = false) :
    Probed (r.applyTest port now operation) := by
  intro t
  cases htest : r.test with
  | none =>
    have hsame : r.applyTest port now operation = r := by
      unfold applyTest
      rw [htest]
    rw [hsame, htest]
    exact hnone htest t
  | some test =>
    have hafter : (r.applyTest port now operation).test = some (operation test).1 := by
      rw [applyTest_test, htest]
      rfl
    have harms := congrFun (applyTestActions_probed port now
      { r with test := some (operation test).1 } (operation test).2) t
    rw [hafter]
    unfold applyTest
    rw [htest]
    refine harms.trans ?_
    exact congrFun (h test htest) t

theorem Probed.none (h : Probed r) (hnone : r.test = none) (t : TestTimer) :
    (r.deadlines.test t).isSome = false := by
  rw [h t, hnone]
  rfl

theorem Probed.some (h : Probed r) {test : LinkTest} (htest : r.test = some test) :
    (fun t => (r.deadlines.test t).isSome) = runsTest test := by
  funext t
  rw [h t, htest]
  rfl

/-! ## Steps -/

/-- Between the steps of a task. -/
structure Awake (r : Runner) : Prop where
  timed : Timed r
  probed : r.phase ≠ .idle → Probed r

/-- Neither a deadline nor the test is touched. -/
structure Beside (r r' : Runner) : Prop where
  deadlines : r'.deadlines = r.deadlines
  test : r'.test = r.test
  phase : r'.phase ≠ .idle → r.phase ≠ .idle

theorem Beside.undisturbed (h : Beside r r') : Undisturbed r r' :=
  ⟨congrArg Deadlines.link h.deadlines, congrArg Deadlines.restart h.deadlines, h.phase⟩

theorem Beside.probed (h : Beside r r') (hp : Probed r) : Probed r' := by
  intro t
  rw [h.deadlines, h.test]
  exact hp t

theorem Awake.beside (h : Awake r) (hb : Beside r r') (hl : r'.link = r.link)
    (hp : r'.pending = r.pending) : Awake r' :=
  ⟨h.timed.unasked hb.undisturbed hl hp, fun hphase => hb.probed (h.probed (hb.phase hphase))⟩

theorem Awake.asked (h : Awake r) (codec : Codec) (e : Link.Event)
    (hcall : ∀ timer, e.call ≠ .timeout timer) (hb : Beside r r')
    (hl : r'.link = (r.link.step codec e).1)
    (hp : r'.pending = r.pending ++ (r.link.step codec e).2) : Awake r' :=
  ⟨h.timed.asked codec e hcall hb.undisturbed hl hp,
    fun hphase => hb.probed (h.probed (hb.phase hphase))⟩

theorem Awake.carryBuffered (port : LinkPort ι) (now : ℕ) (canSend : Bool) (msus : List Msu)
    {r : Runner} (h : Awake r) : Awake (carryBuffered port now canSend msus r).1 := by
  induction msus generalizing r with
  | nil => exact h
  | cons msu msus ih =>
    simp only [Runner.carryBuffered]
    split
    next sent _ =>
      exact ih (h.asked port.codec ⟨now, .send sent⟩ (by simp) ⟨rfl, rfl, id⟩ rfl rfl)
    next => exact ih (h.beside ⟨rfl, rfl, id⟩ rfl rfl)
    next => exact ih (h.beside ⟨rfl, rfl, id⟩ rfl rfl)
    next => exact ih (h.beside ⟨rfl, rfl, id⟩ rfl rfl)

theorem Awake.command (h : Awake r) (port : LinkPort ι) (now : ℕ) (command : LinkCommand) :
    Awake (r.command port now command).1 := by
  cases command with
  | hold => exact h.beside ⟨rfl, rfl, id⟩ rfl rfl
  | divert fsnc => exact h.beside ⟨rfl, rfl, id⟩ rfl rfl
  | «open» =>
    have hopened : Awake { r with traffic := r.traffic.open.1 } := h.beside ⟨rfl, rfl, id⟩ rfl rfl
    exact (hopened.carryBuffered port now r.canSend r.traffic.open.2.1).beside ⟨rfl, rfl, id⟩
      rfl rfl
  | fail => exact h.asked port.codec ⟨now, .fail .stopped⟩ (by simp) ⟨rfl, rfl, id⟩ rfl rfl
  | direct msu => exact h.asked port.codec ⟨now, .send msu⟩ (by simp) ⟨rfl, rfl, id⟩ rfl rfl

theorem Awake.carry (h : Awake r) (port : LinkPort ι) (now : ℕ) (msu : Msu) :
    Awake (r.carry port now msu).1 := by
  unfold Runner.carry
  dsimp only
  split
  next sent _ =>
    exact h.asked port.codec ⟨now, .send sent⟩ (by simp) ⟨rfl, rfl, id⟩ rfl rfl
  next => exact h.beside ⟨rfl, rfl, id⟩ rfl rfl
  next => exact h.beside ⟨rfl, rfl, id⟩ rfl rfl
  next => exact h.beside ⟨rfl, rfl, id⟩ rfl rfl

theorem Awake.received (h : Awake r) (port : LinkPort ι) (now : ℕ) (data : Frame) (ppid : ℕ) :
    Awake (r.received port now data ppid) := by
  unfold Runner.received
  split_ifs
  · exact h
  · split
    next bsn fsn state _ =>
      exact h.asked port.codec ⟨now, .onStatus state bsn⟩ (by simp) ⟨rfl, rfl, id⟩ rfl rfl
    next bsn fsn message _ =>
      exact h.asked port.codec ⟨now, .onData bsn fsn message⟩ (by simp) ⟨rfl, rfl, id⟩ rfl rfl
    next => exact h.beside ⟨rfl, rfl, id⟩ rfl rfl

theorem Awake.leave (h : Awake r) (hphase : r.phase = .serving) (port : LinkPort ι) (lost : Bool) :
    Awake (r.leave port lost) :=
  h.asked port.codec ⟨0, .fail (if lost then .association else .stopped)⟩ (by simp)
    ⟨rfl, rfl, fun _ => by simp [hphase]⟩ rfl rfl

/-- A start leaves no link out of service. -/
theorem start_up (codec : Codec) (l : Link) : (l.start codec).1.state ≠ .outOfService := by
  have hmove := Link.step_move codec l ⟨0, .start⟩
  change Link.StepMove codec l 0 .start (l.start codec) at hmove
  generalize l.start codec = started at hmove
  cases hmove with
  | startIgnored h => exact h
  | started _ => simp [Link.started]

/-- A new link for an association, whatever there was before. -/
theorem associated_awake (port : LinkPort ι) (hpending : r.pending = []) :
    Awake (r.associated port) := by
  have hnew : (Link.new port.settings.timers port.settings.proving port.settings.txQueue).Runs
      fun _ => false := by
    refine ⟨.of_empty rfl rfl rfl, fun t _ => ?_, fun hno => by cases hno⟩
    cases t <;> rfl
  have hstarted := (hnew.step port.codec (e := ⟨0, .established⟩) (by simp)).step port.codec
    (e := ⟨0, .start⟩) (by simp)
  refine ⟨⟨?_, fun _ hout => absurd hout (start_up port.codec _)⟩, fun _ t => ?_⟩
  · change Link.Runs _ (Link.arms (fun _ => false) (r.pending ++ _ ++ _))
    rw [hpending, List.nil_append, Link.arms_append]
    exact hstarted
  · have hidle : ∀ settings : LinkTestSettings,
        runsTest (.new settings.t1 settings.t2) t = false := by
      intro settings
      cases t <;> rfl
    change false = (port.settings.test.map fun settings => LinkTest.new settings.t1
      settings.t2).any fun test => runsTest test t
    cases htest : port.settings.test with
    | none => rfl
    | some settings => exact (hidle settings).symm

/-! ### Carrying out -/

theorem Awake.applyTest (h : Awake r) {operation : LinkTest → LinkTest × List TestAction}
    (hasks : ∀ test, LinkTest.Asks (operation test).2)
    (harms : ∀ test, armsTest (runsTest test) (operation test).2 = runsTest (operation test).1) :
    Awake (r.applyTest port now operation) := by
  have ht : Tested port now r (r.applyTest port now operation) := applyTest_tested r hasks
  refine ⟨h.timed.tested ht (applyTest_deadlines r operation), fun hphase => ?_⟩
  have hprobed := h.probed (ht.same.phase ▸ hphase)
  refine probed_applyTest (fun test htest => ?_) hprobed.none
  rw [hprobed.some htest]
  exact harms test

theorem Awake.linkTestMessage (h : Awake r) (port : LinkPort ι) (now : ℕ)
    (msu : Transport.Mtp3Msu ι) : Awake (r.linkTestMessage port now msu).1 := by
  unfold Runner.linkTestMessage
  split
  · exact h
  next message _ =>
    by_cases hdpc : msu.dpc ≠ port.settings.ownPc
    · rw [if_pos hdpc]
      exact h
    · rw [if_neg hdpc]
      cases message with
      | sltm pattern =>
        dsimp only
        split
        · exact h
        next reply _ =>
          split_ifs
          · exact h.asked port.codec ⟨now, .send reply⟩ (by simp) ⟨rfl, rfl, id⟩ rfl rfl
          · exact h
      | slta pattern =>
        dsimp only
        split_ifs
        · exact h.applyTest (fun test => test.acknowledged_asks _)
            fun test => acknowledged_arms test _
        · exact h

theorem Awake.deliver (h : Awake r) (port : LinkPort ι) (now : ℕ) (raw : Msu) :
    Awake (r.deliver port now raw).1 := by
  unfold Runner.deliver
  split
  · exact h
  next msu _ =>
    split_ifs
    · exact h.linkTestMessage port now msu
    · exact h

theorem Awake.carried (h : Awake r) {action : Action} {rest : List Action}
    (hpending : r.pending = action :: rest) (hp : r'.pending = rest) (hl : r'.link = r.link)
    (harmed : r'.armed = Link.arm r.armed action) (hphase : r'.phase = r.phase)
    (hrestart : r'.deadlines.restart = none →
      r.deadlines.restart = none ∧ ∀ reason, action ≠ .outOfService reason)
    (hprobed : Probed r → Probed r') : Awake r' :=
  ⟨h.timed.carried hpending hp hl harmed hphase hrestart,
    fun hserving => hprobed (h.probed (hphase ▸ hserving))⟩

theorem Awake.applyOne (h : Awake r) (port : LinkPort ι) (now : ℕ) (refused : Bool)
    {action : Action} {rest : List Action} (hpending : r.pending = action :: rest) :
    Awake (({ r with pending := rest }).applyOne port now refused action).1 := by
  -- What the deadlines have no part in.
  have hrest : Link.arm r.armed action = r.armed → (∀ reason, action ≠ .outOfService reason) →
      Awake { r with pending := rest } := by
    intro harm hother
    exact h.carried hpending rfl rfl harm.symm rfl (fun hnone => ⟨hnone, hother⟩) id
  cases action with
  | send frame stream si =>
    have hafter := hrest rfl (by simp)
    dsimp only [Runner.applyOne]
    split_ifs
    · exact hafter
    · exact hafter.asked port.codec ⟨now, .fail .association⟩ (by simp) ⟨rfl, rfl, id⟩ rfl rfl
    · exact hafter
  | deliver msu => exact (hrest rfl (by simp)).deliver port now msu
  | start timer after =>
    refine h.carried hpending rfl rfl ?_ rfl (fun hnone => ⟨hnone, by simp⟩) id
    funext t
    by_cases ht : t = timer <;> simp [Runner.applyOne, armed, Link.arm, ht]
  | stop timer =>
    refine h.carried hpending rfl rfl ?_ rfl (fun hnone => ⟨hnone, by simp⟩) id
    funext t
    by_cases ht : t = timer <;> simp [Runner.applyOne, armed, Link.arm, ht]
  | inService =>
    exact (hrest rfl (by simp)).applyTest (fun test => .inr (.inl test.begin_asks))
      fun test => begin_arms test _
  | outOfService reason =>
    have hstop : Quiet { r with pending := rest }
        (({ r with pending := rest }).applyTest port now LinkTest.stop) :=
      applyTest_quiet _ fun test _ => test.stop_asks
    have hdeadlines :
        (({ r with pending := rest }).applyTest port now LinkTest.stop).deadlines.link =
          r.deadlines.link := applyTest_deadlines _ LinkTest.stop
    refine h.carried hpending hstop.pending hstop.link ?_ hstop.same.phase
      (fun hno => by cases hno) fun hprobed => ?_
    · funext t
      exact congrArg (fun deadlines => (deadlines t).isSome) hdeadlines
    · refine probed_applyTest (r := { r with pending := rest }) (fun test htest => ?_) hprobed.none
      rw [← stop_arms test, ← hprobed.some htest]
  | remoteProcessorOutage on => exact hrest rfl (by simp)
  | discarded reason count => exact hrest rfl (by simp)

theorem applyOne_phase (port : LinkPort ι) (now : ℕ) (refused : Bool) (r : Runner)
    (action : Action) : (r.applyOne port now refused action).1.phase = r.phase := by
  cases action with
  | send frame stream si =>
    dsimp only [applyOne]
    split_ifs <;> rfl
  | deliver msu => exact (deliver_tested port now r msu).1.same.phase
  | inService =>
    have hasks : ∀ test : LinkTest, LinkTest.Asks test.begin.2 := fun test =>
      .inr (.inl test.begin_asks)
    exact (applyTest_tested r hasks).same.phase
  | outOfService reason =>
    have hstop : Quiet r (r.applyTest port now LinkTest.stop) :=
      applyTest_quiet r fun test _ => test.stop_asks
    exact hstop.same.phase
  | start timer after => rfl
  | stop timer => rfl
  | remoteProcessorOutage on => rfl
  | discarded reason count => rfl

/-! ### Everything done -/

theorem Awake.acknowledged (h : Awake r) : Awake r.acknowledged := by
  obtain ⟨hq, hruns, h6⟩ := h.timed.runs
  refine ⟨⟨⟨⟨hq.1, hq.2, hq.3, hq.4, hq.5⟩, fun t ht => ?_, h6⟩, h.timed.restart⟩, h.probed⟩
  rw [show Link.arms r.acknowledged.armed r.acknowledged.pending t = _ from hruns t ht]
  cases t <;> rfl

theorem Awake.refreshAvailability (h : Awake r) (port : LinkPort ι) :
    Awake (r.refreshAvailability port).1 ∧ (r.refreshAvailability port).1.phase = r.phase ∧
      (r.refreshAvailability port).1.pending = r.pending ∧
      (r.refreshAvailability port).1.link.state = r.link.state := by
  rw [refreshAvailability_eq]
  split_ifs
  · exact ⟨h, rfl, rfl, rfl⟩
  · exact ⟨h.beside ⟨rfl, rfl, id⟩ rfl rfl, rfl, rfl, rfl⟩
  · exact ⟨h.beside ⟨rfl, rfl, id⟩ rfl rfl, rfl, rfl, rfl⟩
  all_goals
    exact ⟨h.asked port.codec ⟨0, .detach⟩ (by simp) ⟨rfl, rfl, id⟩ rfl (List.append_nil _).symm,
      rfl, rfl, rfl⟩

theorem Awake.finish (h : Awake r) (port : LinkPort ι)
    (hout : r.phase = .ending → r.link.state = .outOfService) (hpending : r.pending = [])
    (hphase : r.phase ≠ .idle) : Awake (r.finish port).1 := by
  obtain ⟨hawake, hsame, hnothing, hstate⟩ := h.refreshAvailability port
  rcases finish_cases port r with ⟨hending, hfinish⟩ | ⟨-, -, hfinish⟩ | ⟨-, -, hfinish⟩
  all_goals
    rw [hfinish]
    generalize r.refreshAvailability port = f at hawake hsame hnothing hstate
    dsimp only
  · -- Out of service a link has no timers to run.
    have hidle : f.1.link.abandon.1.state = .outOfService := hstate.trans (hout hending)
    have hqueued := (hawake.timed.runs.step port.codec (e := ⟨0, .abandon⟩) (by simp)).queued
    refine ⟨⟨⟨hqueued, fun t ht => ?_, fun h6 => ?_⟩, fun hno => absurd rfl hno⟩,
      fun hno => absurd rfl hno⟩
    · dsimp only
      rw [hnothing, hpending]
      change false = _
      cases t <;> simp [Link.supervises, hidle]
    · dsimp only at h6
      rw [hnothing, hpending] at h6
      cases h6
  · exact hawake.asked port.codec ⟨0, .fail .association⟩ (by simp)
      ⟨rfl, rfl, fun _ hno => hphase (hsame.symm.trans hno)⟩ rfl rfl
  · exact hawake.beside ⟨rfl, rfl, id⟩ rfl rfl

theorem Awake.work (h : Awake r) (port : LinkPort ι) (now : ℕ) (refused : Bool) (ho : Ordered r)
    (hphase : r.phase ≠ .idle) : Awake (r.work port now refused).1 := by
  cases hpending : r.pending with
  | cons action rest =>
    rw [work_of_pending port now refused hpending]
    exact h.applyOne port now refused hpending
  | nil =>
    have hflushed : Awake (r.ask (r.link.flushAck port.codec)) :=
      h.asked port.codec ⟨0, .flushAck⟩ (by simp) ⟨rfl, rfl, id⟩ rfl rfl
    have hstate : (r.link.flushAck port.codec).1.state = r.link.state := by
      unfold Link.flushAck
      dsimp only
      split_ifs <;> rfl
    unfold Runner.work
    rw [hpending]
    dsimp only
    split_ifs with hnothing
    · refine hflushed.finish port (fun hending => hstate.trans (ho.out (.inl fun hno => ?_)))
        hnothing hphase
      cases hending.symm.trans hno
    · exact hflushed

/-! ### Deadlines that pass -/

theorem fireTest_deadlines (port : LinkPort ι) (now : ℕ) (r : Runner) (timer : TestTimer) :
    (r.fireTest port now timer).deadlines.link = r.deadlines.link := by
  unfold fireTest
  split_ifs
  · exact applyTest_deadlines _ _
  · rfl

theorem Probed.fireTest (h : Probed r) (port : LinkPort ι) (now : ℕ) (timer : TestTimer) :
    Probed (r.fireTest port now timer) := by
  unfold Runner.fireTest
  split_ifs with hdue
  · have hset : (r.deadlines.test timer).isSome = true := by
      cases hd : r.deadlines.test timer with
      | none => simp [hd] at hdue
      | some d => rfl
    refine probed_applyTest (fun test htest => ?_) fun hnone => ?_
    · rw [← timeout_arms test timer]
      · refine congrArg (fun on => armsTest on _) ?_
        funext t
        by_cases ht : t = timer
        · simp [ht]
        · simpa [ht] using congrFun (h.some htest) t
      · rw [← h.some htest]
        exact hset
    · exact absurd (hset.symm.trans (h.none hnone timer)) (by simp)
  · exact h

theorem Probed.fireLinks (h : Probed r) (port : LinkPort ι) (now : ℕ) (timers : List Timer) :
    Probed (timers.foldl (fireLink port now) r) := by
  induction timers generalizing r with
  | nil => exact h
  | cons timer timers ih =>
    refine ih ?_
    unfold fireLink
    split_ifs
    · exact h
    · exact h

theorem Awake.fireRestart (h : Awake r) (port : LinkPort ι) (now : ℕ) :
    Awake (r.fireRestart port now) := by
  unfold Runner.fireRestart
  split_ifs
  · have hruns := h.timed.runs.step port.codec (e := ⟨0, .start⟩) (by simp)
    refine ⟨⟨?_, fun _ hout => absurd hout (start_up port.codec r.link)⟩, h.probed⟩
    change Link.Runs _ (Link.arms r.armed (r.pending ++ _))
    rw [Link.arms_append]
    exact hruns
  · exact h

/-- The timers of the link, of its test and of its restart that are due run out. -/
theorem Awake.fire (h : Awake r) (port : LinkPort ι) (now : ℕ) (hpending : r.pending = [])
    (hphase : r.phase ≠ .idle) : Awake (r.fire port now) := by
  have hlinks := h.timed.fireLinks port now hpending
  have hprobed := (h.probed hphase).fireLinks port now Timer.all
  change Awake (((TestTimer.all.foldl (fireTest port now)
    (Timer.all.foldl (fireLink port now) r)).fireRestart port now).apply)
  generalize Timer.all.foldl (fireLink port now) r = first at *
  have hdeadlines : (TestTimer.all.foldl (fireTest port now) first).deadlines.link =
      first.deadlines.link := by
    change ((first.fireTest port now .t1).fireTest port now .t2).deadlines.link = _
    rw [fireTest_deadlines, fireTest_deadlines]
  have hafter : Awake (TestTimer.all.foldl (fireTest port now) first) :=
    ⟨hlinks.tested (fireTests_tested port now first) hdeadlines,
      fun _ => (hprobed.fireTest port now .t1).fireTest port now .t2⟩
  exact (hafter.fireRestart port now).beside ⟨rfl, rfl, id⟩ rfl rfl

/-! ## Runs -/

/-- A task that carries something out has an association, or leaves one. -/
structure Woken (r : Runner) : Prop where
  ordered : Ordered r
  awake : Awake r
  busy : r.applying = true → r.phase ≠ .idle

theorem finish_phase (port : LinkPort ι) (r : Runner)
    (hbusy : (r.finish port).1.applying = true) : (r.finish port).1.phase ≠ .idle := by
  rcases finish_cases port r with ⟨-, hfinish⟩ | ⟨-, -, hfinish⟩ | ⟨-, -, hfinish⟩
  · rw [hfinish] at hbusy
    cases hbusy
  · rw [hfinish]
    exact fun hno => by cases hno
  · rw [hfinish] at hbusy
    cases hbusy

theorem work_phase (port : LinkPort ι) (now : ℕ) (refused : Bool) (h : r.phase ≠ .idle)
    (hbusy : (r.work port now refused).1.applying = true) :
    (r.work port now refused).1.phase ≠ .idle := by
  cases hpending : r.pending with
  | cons action rest =>
    rw [work_of_pending port now refused hpending, applyOne_phase]
    exact h
  | nil =>
    rcases work_of_done port now refused hpending with hdone | ⟨-, hflushed⟩
    · rw [hdone] at hbusy ⊢
      exact finish_phase port r.acknowledged hbusy
    · rw [hflushed]
      exact h

theorem fire_phase (port : LinkPort ι) (now : ℕ) (r : Runner) :
    (r.fire port now).phase = r.phase := by
  obtain ⟨-, hsame, -, -⟩ := fireLinks_outcome port now Timer.all r
  have htested := fireTests_tested port now (Timer.all.foldl (fireLink port now) r)
  have hs := htested.same.phase.trans hsame.phase
  unfold fire fireRestart
  dsimp only
  split_ifs
  · exact hs
  · exact hs

/-- A task that is busy has an association, or leaves it. -/
theorem busy_phase (port : LinkPort ι) (h : r.applying = true → r.phase ≠ .idle) (e : ℕ × Input)
    (hbusy : (r.step port e).1.applying = true) : (r.step port e).1.phase ≠ .idle := by
  obtain ⟨now, i⟩ := e
  have hserving : ∀ {r' : Runner}, r.phase = .serving → r'.phase = r.phase → r'.phase ≠ .idle := by
    intro r' hphase hsame hno
    cases hphase.symm.trans (hsame.symm.trans hno)
  unfold Runner.step at hbusy ⊢
  split at hbusy
  next refused happ hi => exact work_phase port now refused (h happ) hbusy
  next happ hphase hi => exact fun hno => by cases hno
  next msu happ hphase hi => exact absurd (happ.symm.trans hbusy) (by simp)
  next command happ hphase hi => exact absurd (happ.symm.trans hbusy) (by simp)
  next msu happ hphase hi =>
    refine hserving hphase ?_
    unfold Runner.carry
    dsimp only
    split <;> rfl
  next command happ hphase hi =>
    refine hserving hphase ?_
    cases command with
    | «open» =>
      obtain ⟨_, _, hs, -⟩ := carryBuffered_sent port now r.canSend r.traffic.open.2.1
        { r with traffic := r.traffic.open.1 }
      exact hs.phase
    | _ => rfl
  next data ppid happ hphase hi =>
    refine hserving hphase ?_
    unfold Runner.received
    split_ifs
    · rfl
    · split <;> rfl
  next happ hphase hi =>
    exact hserving hphase (fire_phase port now r)
  next happ hphase hi => exact fun hno => by cases hno
  next happ hphase hi => exact fun hno => by cases hno
  next => exact h hbusy

theorem Woken.step (h : Woken r) (port : LinkPort ι) (e : ℕ × Input) :
    Woken (r.step port e).1 := by
  refine ⟨h.ordered.step port e, ?_, busy_phase port h.busy e⟩
  obtain ⟨now, i⟩ := e
  unfold Runner.step
  split
  next refused happ hi => exact h.awake.work port now refused h.ordered (h.busy happ)
  next happ hphase hi => exact associated_awake port (h.ordered.idle happ)
  next msu happ hphase hi => exact h.awake.beside ⟨rfl, rfl, id⟩ rfl rfl
  next command happ hphase hi => exact h.awake.beside ⟨rfl, rfl, id⟩ rfl rfl
  next msu happ hphase hi => exact h.awake.carry port now msu
  next command happ hphase hi => exact h.awake.command port now command
  next data ppid happ hphase hi => exact h.awake.received port now data ppid
  next happ hphase hi =>
    exact h.awake.fire port now (h.ordered.idle happ) fun hno => by cases hphase.symm.trans hno
  next happ hphase hi => exact h.awake.leave hphase port true
  next happ hphase hi => exact h.awake.leave hphase port false
  next => exact h.awake

theorem new_woken (port : LinkPort ι) : Woken (new port) := by
  refine ⟨new_ordered port, ⟨⟨⟨.of_empty rfl rfl rfl, fun t _ => ?_, fun hno => by cases hno⟩,
    fun hno => absurd rfl hno⟩, fun hno => absurd rfl hno⟩, fun hno => by cases hno⟩
  cases t <;> rfl

/-- What a task that waits on its association is woken by, besides messages and commands. -/
structure Awaits (r : Runner) : Prop where
  within : ∀ t, r.armed t = true → t ∈ Link.State.timers r.link.state
  outside : r.link.isAligned = false → ∀ t ∈ Link.State.timers r.link.state, r.armed t = true
  t7 : r.link.state = .inService → r.link.remoteBusy = false →
    (r.armed .t7 = true ↔ r.link.unacked ≠ [])
  restart : r.deadlines.restart ≠ none ↔ r.link.state = .outOfService
  test : ∀ t, (r.deadlines.test t).isSome = r.test.any fun test => runsTest test t

/-- Whenever a task waits on its association, the deadlines that are set are those of the timers
that supervise the link in its state, of the restart of a link out of service, and of the test by
where it stands. -/
theorem always_woken (port : LinkPort ι) (es : List (ℕ × Input)) :
    Along (next port)
      (fun r e => (r.next port e).applying = false → (r.next port e).phase = .serving →
        Awaits (r.next port e))
      (new port) es := by
  refine along_of_invariant (P := Woken) (fun r e h _ => h.step port e) (fun r e h _ => ?_)
    (new_woken port) (along_trivial _ es)
  have hafter : Woken (r.next port e) := h.step port e
  generalize r.next port e = r' at hafter
  intro hidle hserving
  have hpending := hafter.ordered.idle hidle
  have hphase : r'.phase ≠ .idle := fun hno => by cases hserving.symm.trans hno
  have hruns := hafter.awake.timed.runs
  rw [hpending] at hruns
  refine ⟨fun t ht => hruns.within ht, fun ha t ht => hruns.outside ha ht, fun hs hb => ?_,
    ⟨hafter.ordered.restart, fun hout => ?_⟩, hafter.awake.probed hphase⟩
  · have h7 : r'.armed .t7 = r'.link.supervises .t7 := hruns.runs .t7 (by simp)
    rw [h7]
    simp [Link.supervises, hs, hb]
  · rcases hafter.awake.timed.restart hphase hout with hset | ⟨reason, hmem⟩
    · exact hset
    · rw [hpending] at hmem
      cases hmem

end Runner

end SiphonSigtran.M2pa
