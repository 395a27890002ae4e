import Mathlib.Data.List.Nodup

/-!
# Checks

A check accepts, or fails with an error. Checks are made one after the other, and the first that
fails gives the error: a sequence of them accepts what each of them accepts.
-/

namespace Lib

universe u v w

namespace Check

variable {ε : Type u} {α : Type v} {κ : Type w}

/-- Fail where a condition holds. -/
def failIf (p : Prop) [Decidable p] (e : ε) : Except ε Unit := if p then .error e else .ok ()

/-- Fail with what was found, if anything was. -/
def failSome (found : Option α) (error : α → ε) : Except ε Unit :=
  match found with
  | some a => .error (error a)
  | none => .ok ()

/-- A check of what is there. -/
def ifSome (field : Option α) (check : α → Except ε Unit) : Except ε Unit :=
  match field with
  | some a => check a
  | none => .ok ()

/-- Check the elements of a list in order. -/
def each (check : α → Except ε Unit) : List α → Except ε Unit
  | [] => .ok ()
  | x :: xs => do
    check x
    each check xs

/-- Check the elements of a list in order, and that the key of each is new. -/
def eachNew [DecidableEq κ] (key : α → κ) (before : α → Except ε Unit) (twice : α → ε)
    (after : α → Except ε Unit) : List κ → List α → Except ε Unit
  | _, [] => .ok ()
  | seen, x :: xs => do
    before x
    failIf (key x ∈ seen) (twice x)
    after x
    eachNew key before twice after (key x :: seen) xs

@[simp] theorem bind_ok_iff {a : Except ε Unit} {b : Unit → Except ε Unit} :
    (a >>= b) = .ok () ↔ a = .ok () ∧ b () = .ok () := by
  cases a with
  | error e => simp [bind, Except.bind]
  | ok u => simp [bind, Except.bind]

@[simp] theorem mapError_ok_iff {ε' : Type u} {x : Except ε Unit} {f : ε → ε'} :
    x.mapError f = .ok () ↔ x = .ok () := by
  cases x with
  | error e => simp [Except.mapError]
  | ok u => simp [Except.mapError]

@[simp] theorem failIf_ok_iff {p : Prop} [Decidable p] {e : ε} : failIf p e = .ok () ↔ ¬p := by
  unfold failIf
  split_ifs with hp
  · simp [hp]
  · simp [hp]

@[simp] theorem failSome_ok_iff {found : Option α} {error : α → ε} :
    failSome found error = .ok () ↔ found = none := by
  cases found with
  | none => simp [failSome]
  | some a => simp [failSome]

@[simp] theorem ifSome_ok_iff {field : Option α} {check : α → Except ε Unit} :
    ifSome field check = .ok () ↔ ∀ a ∈ field, check a = .ok () := by
  cases field with
  | none => simp [ifSome]
  | some a => simp [ifSome]

@[simp] theorem each_ok_iff {check : α → Except ε Unit} {xs : List α} :
    each check xs = .ok () ↔ ∀ x ∈ xs, check x = .ok () := by
  induction xs with
  | nil => simp [each]
  | cons x xs ih => rw [each, bind_ok_iff, ih, List.forall_mem_cons]

@[simp] theorem eachNew_ok_iff [DecidableEq κ] {key : α → κ} {before after : α → Except ε Unit}
    {twice : α → ε} {seen : List κ} {xs : List α} :
    eachNew key before twice after seen xs = .ok () ↔
      (∀ x ∈ xs, key x ∉ seen) ∧ (xs.map key).Nodup ∧
        ∀ x ∈ xs, before x = .ok () ∧ after x = .ok () := by
  induction xs generalizing seen with
  | nil => simp [eachNew]
  | cons x xs ih =>
    have hnew : (∀ y ∈ xs, key y ∉ key x :: seen) ↔
        key x ∉ xs.map key ∧ ∀ y ∈ xs, key y ∉ seen := by
      constructor
      · intro h
        refine ⟨fun hx => ?_, fun y hy hseen => h y hy (List.mem_cons_of_mem _ hseen)⟩
        obtain ⟨y, hy, heq⟩ := List.mem_map.mp hx
        exact h y hy (heq ▸ List.mem_cons_self)
      · rintro ⟨hx, hseen⟩ y hy hmem
        rcases List.mem_cons.mp hmem with heq | hold
        · exact hx (List.mem_map.mpr ⟨y, hy, heq⟩)
        · exact hseen y hy hold
    rw [eachNew, bind_ok_iff, bind_ok_iff, failIf_ok_iff, bind_ok_iff, ih, hnew,
      List.forall_mem_cons, List.forall_mem_cons, List.map_cons, List.nodup_cons]
    tauto

end Check

end Lib
