import Mathlib.Data.List.Sort
import Mathlib.Data.Prod.Lex
import SiphonSigtran.Lib.Store
import SiphonSigtran.Mtp3.StandingOrders
import SiphonSigtran.Mtp3.Waiting

/-!
# The task that runs management

Management asks for timers to be started and stopped, and the task that runs it keeps when each is
to run out. The timers that ran out are taken off the list together and handled one by one, the
earliest first. Whatever was ordered to wait, and whatever management waits for, goes on at an
instant that is already set.
-/

namespace SiphonSigtran.Mtp3

open Lib

/-- The order of timers that run out at one instant. -/
def Timer.order : Timer → ℕ ×ₗ ℕ ×ₗ ℕ
  | .changeover link => toLex (0, toLex (link, 0))
  | .changeback link => toLex (1, toLex (link, 0))
  | .rerouting dpc => toLex (2, toLex (dpc, 0))
  | .prohibited dpc => toLex (3, toLex (dpc, 0))
  | .routeSetTest dpc linkset => toLex (4, toLex (dpc, linkset))
  | .uninhibit link => toLex (5, toLex (link, 0))
  | .forceUninhibit link => toLex (6, toLex (link, 0))
  | .restart => toLex (7, toLex (0, 0))
  | .restartAllowed linkset => toLex (8, toLex (linkset, 0))
  | .restartOverall => toLex (9, toLex (0, 0))
  | .adjacentRestart linkset => toLex (10, toLex (linkset, 0))
  | .inhibitTest link => toLex (11, toLex (link, 0))
  | .isolation => toLex (12, toLex (0, 0))

/-- The task: management, when each timer is to run out, and the timers that ran out and are still
to be handled. -/
structure Runtime where
  machine : Management
  deadlines : Store Timer ℕ
  batch : List Timer

namespace Runtime

/-- The task waits for an input or for the clock, or handles what ran out. The clock is read
before each action. -/
inductive Event
  | input (clock : ℕ → ℕ) (input : Input)
  | wake (now : ℕ)
  | timeout (clock : ℕ → ℕ)

def new (topology : Topology) (timers : Timers) (tfpForUnknownDestination : Bool) : Runtime where
  machine := .new topology timers tfpForUnknownDestination
  deadlines := ∅
  batch := []

def perform (now : ℕ) (deadlines : Store Timer ℕ) : Action → Store Timer ℕ
  | .start timer after => deadlines.insert timer (now + after)
  | .stop timer => deadlines.erase timer
  | _ => deadlines

def performAll (clock : ℕ → ℕ) (deadlines : Store Timer ℕ) : List Action → Store Timer ℕ
  | [] => deadlines
  | action :: actions =>
    performAll (fun i => clock (i + 1)) (perform (clock 0) deadlines action) actions

def feed (r : Runtime) (clock : ℕ → ℕ) (input : Input) : Runtime × List Action :=
  let handled := r.machine.handle input
  ({ r with machine := handled.1, deadlines := performAll clock r.deadlines handled.2 }, handled.2)

/-- The timers that ran out, earliest first. -/
def due (r : Runtime) (now : ℕ) : List Timer :=
  let at_ (timer : Timer) : ℕ := (r.deadlines.lookup timer).getD 0
  (r.deadlines.keys.filter fun timer => at_ timer ≤ now).insertionSort fun s t =>
    toLex (at_ s, s.order) ≤ toLex (at_ t, t.order)

def step (r : Runtime) : Event → Runtime × List Action
  | .input clock input => if r.batch = [] then r.feed clock input else (r, [])
  | .wake now =>
    if r.batch = [] then
      ({ r with
        deadlines := (r.due now).foldl (fun deadlines timer => deadlines.erase timer) r.deadlines
        batch := r.due now }, [])
    else (r, [])
  | .timeout clock =>
    match r.batch with
    | [] => (r, [])
    | timer :: rest => { r with batch := rest }.feed clock (.timeout timer)

/-- The input that a step has management handle. -/
def fed (r : Runtime) : Event → Option Input
  | .input _ input => if r.batch = [] then some input else none
  | .wake _ => none
  | .timeout _ => r.batch.head?.map .timeout

/-- What the watcher knows and the orders that stand, after one more step. -/
def heeds (k : Watch × Standing) (r : Runtime) (e : Event) (done : Runtime × List Action) :
    Watch × Standing :=
  match r.fed e with
  | none => k
  | some input => ((k.1.deliver input).notes done.2, k.2.notes done.2)

def heeding : Runtime × Watch × Standing → Event → Runtime × Watch × Standing :=
  Machine.watch step heeds

/-! ## What has a deadline -/

/-- Every timer that runs is on the list, but for those in `P`. -/
def Listed (P : List Timer) (w : Watch) (deadlines : Store Timer ℕ) : Prop :=
  ∀ t, w.running t = true → t ∈ deadlines ∨ t ∈ P

variable {P : List Timer} {w : Watch} {deadlines : Store Timer ℕ}

theorem Listed.perform (h : Listed P w deadlines) (now : ℕ) (a : Action) :
    Listed P (w.note a) (perform now deadlines a) := by
  intro t ht
  cases a with
  | start timer after =>
    by_cases htimer : timer = t
    · exact .inl (AList.mem_insert _ |>.mpr (.inl htimer.symm))
    · have hrunning : w.running t = true := by
        simpa [Watch.note, Function.update_of_ne (Ne.symm htimer)] using ht
      exact (h t hrunning).imp_left fun hmem => (AList.mem_insert _).mpr (.inr hmem)
  | stop timer =>
    by_cases htimer : timer = t
    · subst htimer
      simp [Watch.note] at ht
    · have hrunning : w.running t = true := by
        simpa [Watch.note, Function.update_of_ne (Ne.symm htimer)] using ht
      exact (h t hrunning).imp_left fun hmem => AList.mem_erase.mpr ⟨Ne.symm htimer, hmem⟩
  | _ => exact h t ht

theorem Listed.performAll (h : Listed P w deadlines) (clock : ℕ → ℕ) (xs : List Action) :
    Listed P (w.notes xs) (performAll clock deadlines xs) := by
  induction xs generalizing clock w deadlines with
  | nil => exact h
  | cons a xs ih => exact ih (h.perform (clock 0) a) fun i => clock (i + 1)

theorem mem_due {r : Runtime} {now : ℕ} {t : Timer} :
    t ∈ r.due now ↔ t ∈ r.deadlines ∧ (r.deadlines.lookup t).getD 0 ≤ now := by
  unfold due
  simp [AList.mem_keys]

theorem mem_eraseAll {ts : List Timer} {t : Timer} (hmem : t ∈ deadlines) (hnot : t ∉ ts) :
    t ∈ ts.foldl (fun deadlines timer => deadlines.erase timer) deadlines := by
  induction ts generalizing deadlines with
  | nil => exact hmem
  | cons timer ts ih =>
    obtain ⟨hne, hnot⟩ := not_or.mp (fun h => hnot (List.mem_cons.mpr h))
    exact ih (AList.mem_erase.mpr ⟨hne, hmem⟩) hnot

/-- Management waits for what the watcher knows of, what it decided stands, and what runs is
listed. -/
structure Attended (topology : Topology) (p : Runtime × Watch × Standing) : Prop where
  waiting : Management.Waiting topology (p.1.machine, p.2.1)
  obeyed : Obeyed topology (p.1.machine, p.2.2)
  listed : Listed p.1.batch p.2.1 p.1.deadlines

variable {topology : Topology} {r : Runtime} {o : Standing}

theorem Attended.feed (h : Attended topology (r, w, o)) (clock : ℕ → ℕ) (input : Input)
    {rest : List Timer} (hlisted : Listed rest (w.deliver input) r.deadlines) :
    Attended topology
      (({ r with batch := rest }.feed clock input).1,
        (w.deliver input).notes ({ r with batch := rest }.feed clock input).2,
        o.notes ({ r with batch := rest }.feed clock input).2) where
  waiting := h.waiting.step input
  obeyed := (h.obeyed.step input).1
  listed := hlisted.performAll clock _

/-- A timer does not run any more when its timeout is handled. -/
theorem Listed.deliver (h : Listed P w deadlines) (input : Input) {rest : List Timer}
    (hP : ∀ t ∈ P, t ∈ rest ∨ input = .timeout t) : Listed rest (w.deliver input) deadlines := by
  intro t ht
  have hrunning : w.running t = true ∧ input ≠ .timeout t := by
    cases input with
    | timeout timer =>
      by_cases htimer : t = timer
      · subst htimer
        simp [Watch.deliver] at ht
      · exact ⟨by simpa [Watch.deliver, htimer] using ht, by simp [Ne.symm htimer]⟩
    | _ => exact ⟨ht, by simp⟩
  refine (h t hrunning.1).imp_right fun hmem => ?_
  exact (hP t hmem).resolve_right hrunning.2

theorem Attended.step (h : Attended topology (r, w, o)) (e : Event) :
    Attended topology (heeding (r, w, o) e) := by
  unfold heeding Machine.watch heeds
  cases e with
  | input clock input =>
    by_cases hbatch : r.batch = []
    · simp only [fed, Runtime.step, hbatch, ↓reduceIte]
      exact h.feed clock input (h.listed.deliver input fun _ ht => .inl ht)
    · simp only [fed, Runtime.step, hbatch, ↓reduceIte]
      exact h
  | wake now =>
    simp only [fed, Runtime.step]
    split_ifs with hbatch
    · refine ⟨h.waiting, h.obeyed, fun t ht => ?_⟩
      have hmem : t ∈ r.deadlines := by
        have hlisted := h.listed t ht
        rw [hbatch] at hlisted
        exact hlisted.resolve_right List.not_mem_nil
      by_cases hdue : t ∈ r.due now
      · exact .inr hdue
      · exact .inl (mem_eraseAll hmem hdue)
    · exact h
  | timeout clock =>
    cases hbatch : r.batch with
    | nil =>
      simp only [fed, Runtime.step, hbatch]
      exact h
    | cons timer rest =>
      simp only [fed, Runtime.step, hbatch]
      refine h.feed clock (.timeout timer) (h.listed.deliver _ fun t ht => ?_)
      rw [hbatch] at ht
      exact (List.mem_cons.mp ht).symm.imp_right fun heq => by rw [heq]

theorem attended_new (topology : Topology) (timers : Timers) (tfp : Bool) :
    Attended topology (Runtime.new topology timers tfp, Watch.new, Standing.new) where
  waiting := Management.waiting_new topology timers tfp
  obeyed := obeyed_new topology timers tfp
  listed _ := nofun

theorem attended_run (topology : Topology) (timers : Timers) (tfp : Bool) (es : List Event) :
    Attended topology
      (Machine.run heeding (Runtime.new topology timers tfp, Watch.new, Standing.new) es) :=
  Machine.run_invariant (Q := fun _ _ => True) (fun p e h _ => Attended.step (r := p.1) h e)
    (attended_new topology timers tfp) (Machine.along_trivial _ es)

/-- The timer has a deadline, or ran out and is about to be handled. -/
def Timed (r : Runtime) (t : Timer) : Prop := t ∈ r.deadlines ∨ t ∈ r.batch

/-- However inputs come and timers run out, alone or together, a link is told to buffer, a
destination is held and a restart goes on only until an instant that is set, and there is one for
everything else that management waits for. -/
theorem always_attended (topology : Topology) (timers : Timers) (tfp : Bool) (es : List Event) :
    let p := Machine.run heeding (Runtime.new topology timers tfp, Watch.new, Standing.new) es
    (∀ l, p.2.2.traffic l = .hold → Timed p.1 (.changeover l) ∨ Timed p.1 (.changeback l)) ∧
    (∀ d, p.2.2.holding d = true → Timed p.1 (.rerouting d)) ∧
    (p.2.2.restarting = true → Timed p.1 .restart ∧ Timed p.1 .restartOverall) ∧
    ∀ t, t.managed topology = true → t.Awaited p.1.machine → Timed p.1 t := by
  have h := attended_run topology timers tfp es
  dsimp only
  generalize Machine.run heeding (Runtime.new topology timers tfp, Watch.new, Standing.new) es = p
    at h
  have htimed (t : Timer) (hrunning : p.2.1.running t = true) : Timed p.1 t := h.listed t hrunning
  have hawaited (t : Timer) (ht : t.managed topology = true) (h' : t.Awaited p.1.machine) :
      Timed p.1 t := htimed t ((h.waiting.awaited t ht).mpr h')
  refine ⟨fun l hhold => ?_, fun d hholding => ?_, fun hrestarting => ?_, hawaited⟩
  · have hlink := h.waiting.settled.phases.link l
    have hphase := (h.obeyed.traffic l).symm.trans hhold
    have htimer : p.2.1.running (.changeover l) = true ∨ p.2.1.running (.changeback l) = true := by
      rw [hlink.changeover, hlink.changeback]
      revert hphase
      cases (p.1.machine.links l).phase <;>
        simp [Phase.traffic, Phase.changingOver, Phase.changingBack]
    exact htimer.imp (htimed _) (htimed _)
  · exact hawaited _ rfl ((h.obeyed.holding d).symm.trans hholding)
  · have hrestart := (h.obeyed.restarting).symm.trans hrestarting
    exact ⟨hawaited _ rfl hrestart, hawaited _ rfl hrestart⟩

end Runtime

end SiphonSigtran.Mtp3
