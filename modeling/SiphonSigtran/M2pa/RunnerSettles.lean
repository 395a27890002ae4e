import SiphonSigtran.Lib.Machine
import SiphonSigtran.M2pa.RunnerMoves

/-!
# A task carries out all that is asked for

What a task is asked for may ask for more: a refused frame fails the link, a message of the test is
answered. It comes to an end all the same, whatever the association refuses.
-/

namespace SiphonSigtran.M2pa

open Lib Lib.Machine

/-- More than what carrying an action out asks for in turn. -/
def Action.weight : Action → ℕ
  | .send _ _ _ => 9
  | .deliver _ | .inService => 18
  | _ => 1

def weight (out : List Action) : ℕ := (out.map Action.weight).sum

@[simp] theorem weight_nil : weight [] = 0 := rfl

@[simp] theorem weight_cons (a : Action) (out : List Action) :
    weight (a :: out) = a.weight + weight out := rfl

@[simp] theorem weight_append (xs ys : List Action) :
    weight (xs ++ ys) = weight xs + weight ys := by
  simp [weight]

namespace Link

variable {codec : Codec}

/-- The acknowledgement that is still to be sent. -/
def load (l : Link) : ℕ := if l.ackDue then 10 else 0

theorem weight_sendFrame (m : M2paMessage) (stream : ℕ) (si : Option ℕ) :
    weight (sendFrame codec m stream si) ≤ 9 := by
  unfold sendFrame
  split <;> simp [Action.weight]

theorem weight_failActions (codec : Codec) (l : Link) (reason : Failure) :
    weight (l.failActions codec reason) ≤ 17 ∧
      (reason = .association → weight (l.failActions codec reason) = 8) := by
  have hstatus : weight (l.sendStatus codec .outOfService statusStream) ≤ 9 :=
    weight_sendFrame _ _ _
  have hstops : weight (Timer.all.map .stop) = 7 := rfl
  unfold failActions
  simp only [weight_append, hstops]
  split_ifs with hreason
  · simp [Action.weight]
  · refine ⟨?_, fun h => absurd h hreason⟩
    simp only [weight_cons, weight_nil, Action.weight]
    omega

theorem FailMove.weight_le {l : Link} {reason : Failure} {r : Link × List Action}
    (h : FailMove codec l reason r) : weight r.2 + r.1.load ≤ l.load + 17 ∧
      (reason = .association → weight r.2 + r.1.load ≤ l.load + 8) := by
  cases h with
  | out _ => simp
  | failed _ =>
    obtain ⟨hall, hgone⟩ := weight_failActions codec l reason
    have hload : l.failed.load = 0 := rfl
    dsimp only
    refine ⟨by omega, fun hreason => ?_⟩
    have hweight := hgone hreason
    omega

theorem SendMove.weight_le {l : Link} {msu : Msu} {now : ℕ} {r : Link × List Action}
    (h : SendMove codec l msu now r) : weight r.2 + r.1.load ≤ l.load + 10 := by
  cases h with
  | transmitted _ _ ht =>
    cases ht with
    | sent frame _ =>
      have hload : (l.transmitted msu now).load = 0 := rfl
      dsimp only
      split <;> simp [Action.weight, hload]
    | refused _ => simp [Action.weight]; omega
  | congested _ _ _ => simp [Action.weight]; omega
  | queued _ _ _ =>
    change 0 + l.load ≤ _
    omega
  | refused _ => simp [Action.weight]; omega

end Link

/-- A task that is not done with its association has that to find out. -/
def Phase.load : Phase → ℕ
  | .ending => 0
  | .idle | .serving => 1

namespace Runner

variable {ι : Type*} {port : LinkPort ι} {now : ℕ} {r : Runner}

/-- What is left to do before the task takes another event. -/
def toDo (r : Runner) : ℕ := weight r.pending + r.link.load + r.phase.load

theorem Tested.toDo_le {r r' : Runner} (h : Tested port now r r') : r'.toDo ≤ r.toDo + 17 := by
  unfold toDo
  rw [h.same.phase]
  cases h with
  | quiet h =>
    rw [h.link, h.pending]
    omega
  | sent msu _ hl hp =>
    have hweight := (Link.send_move port.codec r.link msu now).weight_le
    rw [hl, hp, weight_append]
    omega
  | failed _ hl hp =>
    have hweight := (Link.fail_move port.codec r.link .linkTest).weight_le.1
    rw [hl, hp, weight_append]
    omega

/-- An action carried out leaves less to do. -/
theorem applyOne_toDo (refused : Bool) {action : Action} {rest : List Action}
    (hpending : r.pending = action :: rest) :
    (({ r with pending := rest }).applyOne port now refused action).1.toDo < r.toDo := by
  have hbefore : r.toDo = action.weight + ({ r with pending := rest }).toDo := by
    simp only [toDo, hpending, weight_cons]
    omega
  rw [hbefore]
  cases action with
  | send frame stream si =>
    have hfail := (Link.fail_move port.codec r.link .association).weight_le.2 rfl
    dsimp only [applyOne]
    split_ifs
    · simp [Action.weight]
    · simp only [toDo, ask, Action.weight, weight_append]
      omega
    · simp [Action.weight]
  | deliver msu =>
    have ht := (deliver_tested port now { r with pending := rest } msu).1.toDo_le
    exact lt_of_le_of_lt ht (by simp only [Action.weight]; omega)
  | inService =>
    have hasks : ∀ test : LinkTest, LinkTest.Asks test.begin.2 := fun test =>
      .inr (.inl test.begin_asks)
    have ht : Tested port now { r with pending := rest }
        (({ r with pending := rest }).applyTest port now LinkTest.begin) :=
      applyTest_tested { r with pending := rest } hasks
    exact lt_of_le_of_lt ht.toDo_le (by simp only [Action.weight]; omega)
  | outOfService reason =>
    have hstop : Quiet { r with pending := rest }
        (({ r with pending := rest }).applyTest port now LinkTest.stop) :=
      applyTest_quiet _ fun test _ => test.stop_asks
    have hsame : (({ r with pending := rest }).applyTest port now LinkTest.stop).toDo =
        ({ r with pending := rest }).toDo := by
      unfold toDo
      rw [hstop.link, hstop.pending, hstop.same.phase]
    simp only [applyOne, Action.weight]
    change (({ r with pending := rest }).applyTest port now LinkTest.stop).toDo < _
    omega
  | start timer after => exact Nat.lt_one_add_iff.mpr le_rfl
  | stop timer => exact Nat.lt_one_add_iff.mpr le_rfl
  | remoteProcessorOutage on => exact Nat.lt_one_add_iff.mpr le_rfl
  | discarded reason count => exact Nat.lt_one_add_iff.mpr le_rfl

/-- A task at work is done, or has less to do. -/
theorem work_toDo (port : LinkPort ι) (now : ℕ) (h : Ordered r) (happ : r.applying = true)
    (refused : Bool) :
    (r.work port now refused).1.applying = false ∨
      (r.work port now refused).1.toDo < r.toDo := by
  cases hpending : r.pending with
  | cons action rest =>
    rw [work_of_pending port now refused hpending]
    exact .inr (applyOne_toDo refused hpending)
  | nil =>
    rcases work_of_done port now refused hpending with hdone | ⟨hdue, hflushed⟩
    · obtain ⟨hf, -, -⟩ := h.finished port happ
      rw [hdone]
      rcases hf.done with hdone | ⟨hphase, hending⟩
      · exact .inl hdone
      · have hload : r.phase.load = 1 := by
          cases hp : r.phase with
          | ending => exact absurd hp hphase
          | idle | serving => rfl
        have hempty := hf.pending.trans hpending
        have hackDue : (r.acknowledged.finish port).1.link.ackDue = false := hf.ackDue
        have hafter : (r.acknowledged.finish port).1.toDo = 0 := by
          simp [toDo, Link.load, hempty, hackDue, hending, Phase.load]
        refine .inr ?_
        rw [hafter, toDo, hload]
        exact Nat.succ_pos _
    · have hweight : weight (Link.sendFrame port.codec
          (.userData r.link.fsnIn r.link.fsnOut .empty) dataStream none) ≤ 9 :=
        Link.weight_sendFrame _ _ _
      have hbefore : r.toDo = 10 + r.phase.load := by
        simp [toDo, hpending, Link.load, hdue]
      refine .inr ?_
      rw [hflushed, hbefore, ask, hpending]
      exact Nat.add_lt_add_right (Nat.lt_succ_of_le hweight) r.phase.load

/-- The task after one event. -/
def next (port : LinkPort ι) (r : Runner) (e : ℕ × Input) : Runner := (r.step port e).1

theorem next_work_of_idle (happ : r.applying = false) (refused : Bool) :
    r.next port (now, .work refused) = r := by
  unfold next step
  rw [happ]
  cases r.phase <;> rfl

/-- The task carries on, at these instants and with these answers of the association. -/
def works (answers : List (ℕ × Bool)) : List (ℕ × Input) :=
  answers.map fun a => (a.1, .work a.2)

theorem run_works_of_idle (happ : r.applying = false) (answers : List (ℕ × Bool)) :
    run (next port) r (works answers) = r := by
  induction answers with
  | nil => rfl
  | cons a answers ih =>
    rw [works, List.map_cons, run_cons, next_work_of_idle happ]
    exact ih

/-- A task carries out all that is asked for, whatever the association refuses. -/
theorem settles (h : Ordered r) {answers : List (ℕ × Bool)} (hn : r.toDo < answers.length) :
    (run (next port) r (works answers)).applying = false := by
  induction answers generalizing r with
  | nil => cases hn
  | cons a answers ih =>
    rw [List.length_cons] at hn
    cases happ : r.applying with
    | false =>
      rw [run_works_of_idle happ]
      exact happ
    | true =>
      have hstep : r.next port (a.1, .work a.2) = (r.work port a.1 a.2).1 := by
        unfold next step
        rw [happ]
      rw [works, List.map_cons, run_cons]
      rcases work_toDo port a.1 h happ a.2 with hdone | hless
      · rw [← hstep] at hdone
        change (run (next port) (r.next port (a.1, .work a.2)) (works answers)).applying = false
        rw [run_works_of_idle hdone]
        exact hdone
      · exact ih (h.step port _) (by rw [hstep]; omega)

end Runner

end SiphonSigtran.M2pa
