import Mathlib.Data.List.Basic

/-!
# Runs of a deterministic machine

A machine takes one input at a time. `run` is the state after a list of inputs,
`Along` says that a condition on the state and the next input holds at every
step of a run, and `watch` runs an observer beside the machine: a value that
the machine never reads, updated from each step and its outputs.
-/

namespace Lib.Machine

variable {σ ι ω γ : Type*}

/-- The state after the inputs `is`, in order. -/
def run (step : σ → ι → σ) (s : σ) (is : List ι) : σ := is.foldl step s

/-- `Q` holds of the state before each input and of that input. -/
def Along (step : σ → ι → σ) (Q : σ → ι → Prop) : σ → List ι → Prop
  | _, [] => True
  | s, i :: is => Q s i ∧ Along step Q (step s i) is

/-- A machine with outputs, and an observer `note` of its steps. -/
def watch (step : σ → ι → σ × List ω) (note : γ → σ → ι → σ × List ω → γ) :
    σ × γ → ι → σ × γ :=
  fun p i => ((step p.1 i).1, note p.2 p.1 i (step p.1 i))

instance decidableAlong (step : σ → ι → σ) (Q : σ → ι → Prop) [∀ s i, Decidable (Q s i)] :
    ∀ s is, Decidable (Along step Q s is)
  | _, [] => .isTrue trivial
  | s, i :: is =>
    have := decidableAlong step Q (step s i) is
    inferInstanceAs (Decidable (Q s i ∧ Along step Q (step s i) is))

variable {step : σ → ι → σ} {P : σ → Prop} {Q R : σ → ι → Prop}

@[simp] theorem run_nil (s : σ) : run step s [] = s := rfl

@[simp] theorem run_cons (s : σ) (i : ι) (is : List ι) :
    run step s (i :: is) = run step (step s i) is := rfl

@[simp] theorem run_append (s : σ) (is js : List ι) :
    run step s (is ++ js) = run step (run step s is) js :=
  List.foldl_append

@[simp] theorem along_nil (s : σ) : Along step Q s [] := trivial

@[simp] theorem along_cons (s : σ) (i : ι) (is : List ι) :
    Along step Q s (i :: is) ↔ Q s i ∧ Along step Q (step s i) is := Iff.rfl

theorem along_append (s : σ) (is js : List ι) :
    Along step Q s (is ++ js) ↔ Along step Q s is ∧ Along step Q (run step s is) js := by
  induction is generalizing s with
  | nil => simp
  | cons i is ih => simp [ih, and_assoc]

theorem along_trivial (s : σ) (is : List ι) : Along step (fun _ _ => True) s is := by
  induction is generalizing s with
  | nil => trivial
  | cons i is ih => exact ⟨trivial, ih _⟩

/-- A condition on the inputs alone. -/
theorem along_of_forall {C : ι → Prop} (s : σ) {is : List ι} (h : ∀ i ∈ is, C i) :
    Along step (fun _ i => C i) s is := by
  induction is generalizing s with
  | nil => trivial
  | cons i is ih =>
    exact ⟨h i List.mem_cons_self, ih _ fun j hj => h j (List.mem_cons_of_mem _ hj)⟩

/-- What every allowed step keeps holds after every allowed run. -/
theorem run_invariant (hstep : ∀ s i, P s → Q s i → P (step s i)) {s : σ} (hs : P s)
    {is : List ι} (h : Along step Q s is) : P (run step s is) := by
  induction is generalizing s with
  | nil => exact hs
  | cons i is ih => exact ih (hstep s i hs h.1) h.2

/-- What an invariant gives at every allowed step holds along every allowed run. -/
theorem along_of_invariant (hstep : ∀ s i, P s → Q s i → P (step s i))
    (hstate : ∀ s i, P s → Q s i → R s i) {s : σ} (hs : P s) {is : List ι}
    (h : Along step Q s is) : Along step R s is := by
  induction is generalizing s with
  | nil => trivial
  | cons i is ih => exact ⟨hstate s i hs h.1, ih (hstep s i hs h.1) h.2⟩

theorem Along.and {s : σ} {is : List ι} (hQ : Along step Q s is) (hR : Along step R s is) :
    Along step (fun s i => Q s i ∧ R s i) s is := by
  induction is generalizing s with
  | nil => trivial
  | cons i is ih => exact ⟨⟨hQ.1, hR.1⟩, ih hQ.2 hR.2⟩

theorem Along.mono (hQR : ∀ s i, Q s i → R s i) {s : σ} {is : List ι}
    (h : Along step Q s is) : Along step R s is := by
  induction is generalizing s with
  | nil => trivial
  | cons i is ih => exact ⟨hQR s i h.1, ih h.2⟩

/-- Two conditions that agree wherever an invariant holds, one of which keeps the
invariant, hold along the same runs. -/
theorem along_congr (hstep : ∀ s i, P s → Q s i → P (step s i))
    (hiff : ∀ s i, P s → (Q s i ↔ R s i)) {s : σ} (hs : P s) (is : List ι) :
    Along step Q s is ↔ Along step R s is := by
  induction is generalizing s with
  | nil => simp
  | cons i is ih =>
    simp only [along_cons, ← hiff s i hs]
    constructor
    · rintro ⟨hq, h⟩
      exact ⟨hq, (ih (hstep s i hs hq)).mp h⟩
    · rintro ⟨hq, h⟩
      exact ⟨hq, (ih (hstep s i hs hq)).mpr h⟩

/-- What a step from a state where it holds keeps under some condition exactly holds after
every part of a run if and only if each step of the run meets the condition. -/
theorem always_iff_along {J : σ → Prop} (hJ : ∀ s i, J s → J (step s i))
    (hP : ∀ s i, J s → P s → (P (step s i) ↔ Q s i)) {s : σ} (hj : J s) (hs : P s)
    (is : List ι) :
    (∀ before after, is = before ++ after → P (run step s before)) ↔ Along step Q s is := by
  induction is generalizing s with
  | nil =>
    constructor
    · intro _
      trivial
    · intro _ before after h
      obtain ⟨rfl, -⟩ := List.append_eq_nil_iff.mp h.symm
      exact hs
  | cons i is ih =>
    constructor
    · intro h
      have hnext : P (step s i) := h [i] is rfl
      refine ⟨(hP s i hj hs).mp hnext, (ih (hJ s i hj) hnext).mp fun before after hsplit => ?_⟩
      exact h (i :: before) after (by rw [hsplit, List.cons_append])
    · rintro ⟨hq, h⟩ before after hsplit
      have hnext : P (step s i) := (hP s i hj hs).mpr hq
      cases before with
      | nil => exact hs
      | cons j before =>
        obtain ⟨rfl, hrest⟩ := List.cons.inj hsplit
        exact (ih (hJ s i hj) hnext).mpr h before after hrest

/-- A map that carries steps to steps carries runs to runs. -/
theorem run_map {τ : Type*} {step' : τ → ι → τ} (f : σ → τ)
    (h : ∀ s i, f (step s i) = step' (f s) i) (s : σ) (is : List ι) :
    f (run step s is) = run step' (f s) is := by
  induction is generalizing s with
  | nil => rfl
  | cons i is ih => rw [run_cons, run_cons, ih, h]

theorem along_map {τ : Type*} {step' : τ → ι → τ} {Q' : τ → ι → Prop} (f : σ → τ)
    (h : ∀ s i, f (step s i) = step' (f s) i) (s : σ) (is : List ι) :
    Along step (fun s i => Q' (f s) i) s is ↔ Along step' Q' (f s) is := by
  induction is generalizing s with
  | nil => simp
  | cons i is ih => simp only [along_cons, ih, h]

theorem run_watch_fst (mstep : σ → ι → σ × List ω) (note : γ → σ → ι → σ × List ω → γ)
    (p : σ × γ) (is : List ι) :
    (run (watch mstep note) p is).1 = run (fun s i => (mstep s i).1) p.1 is :=
  run_map Prod.fst (fun _ _ => rfl) p is

end Lib.Machine
