import Mathlib.Data.List.Basic
import Mathlib.Data.Nat.Notation
import Mathlib.Tactic.SplitIfs

/-!
# Load sharing by a key

A key has a normal entry of a list, by its remainder, and while that one is down goes to one of
those that are up, by its remainder of their number. A key on its normal entry stays there until
that goes down. One that was displaced stays only where the remainders agree.
-/

namespace Lib

variable {α : Type*} {xs : List α} {up up' : α → Bool} {key : ℕ} {x : α}

/-- The entry that carries the key. -/
def pick (xs : List α) (up : α → Bool) (key : ℕ) : Option α :=
  match xs[key % xs.length]? with
  | none => none
  | some normal =>
    if up normal then some normal else (xs.filter up)[key % (xs.filter up).length]?

theorem pick_mem (h : pick xs up key = some x) : x ∈ xs.filter up := by
  unfold pick at h
  split at h
  · cases h
  · rename_i normal hnormal
    split_ifs at h with hup
    · obtain rfl := Option.some.inj h
      exact List.mem_filter.mpr ⟨List.mem_of_getElem? hnormal, hup⟩
    · exact List.mem_of_getElem? h

/-- Some entry carries the key as soon as one is up. -/
theorem pick_isSome_iff : (pick xs up key).isSome = true ↔ xs.filter up ≠ [] := by
  constructor
  · intro h hnil
    obtain ⟨x, hx⟩ := Option.isSome_iff_exists.mp h
    have hmem := pick_mem hx
    rw [hnil] at hmem
    cases hmem
  · intro hne
    have hlength : 0 < (xs.filter up).length := List.length_pos_iff.mpr hne
    have hall : 0 < xs.length := Nat.lt_of_lt_of_le hlength (List.length_filter_le up xs)
    unfold pick
    rw [List.getElem?_eq_getElem (Nat.mod_lt key hall)]
    dsimp only
    split_ifs
    · rfl
    · rw [List.getElem?_eq_getElem (Nat.mod_lt key hlength)]
      rfl

/-- Every entry that is up carries the key that is its position. -/
theorem pick_position {k : ℕ} (h : xs[k]? = some x) (hup : up x = true) :
    pick xs up k = some x := by
  have hlt : k < xs.length := (List.getElem?_eq_some_iff.mp h).1
  unfold pick
  rw [Nat.mod_eq_of_lt hlt, h]
  exact if_pos hup

/-- The key is on its normal entry. -/
def Normal (xs : List α) (up : α → Bool) (key : ℕ) : Prop :=
  ∃ normal, xs[key % xs.length]? = some normal ∧ up normal = true

theorem pick_of_normal (h : Normal xs up key) : pick xs up key = xs[key % xs.length]? := by
  obtain ⟨normal, hnormal, hup⟩ := h
  unfold pick
  rw [hnormal]
  exact if_pos hup

theorem pick_of_displaced (h : ¬ Normal xs up key) :
    pick xs up key = (xs.filter up)[key % (xs.filter up).length]? := by
  unfold pick
  cases hnormal : xs[key % xs.length]? with
  | none =>
    have hlength : xs.length = 0 := by
      by_contra hne
      have hlt := Nat.mod_lt key (Nat.pos_of_ne_zero hne)
      rw [List.getElem?_eq_getElem hlt] at hnormal
      cases hnormal
    rw [List.length_eq_zero_iff.mp hlength]
    rfl
  | some normal => exact if_neg fun hup => h ⟨normal, hnormal, hup⟩

/-- Where an entry is found in a part of a list: behind those of the part that are ahead of it. -/
theorem filter_getElem?_iff {p : α → Bool} (hx : p x = true) (k : ℕ) :
    (xs.filter p)[k]? = some x ↔ ∃ j, xs[j]? = some x ∧ k = ((xs.take j).filter p).length := by
  induction xs generalizing k with
  | nil => simp
  | cons y ys ih =>
    cases hy : p y with
    | false =>
      rw [List.filter_cons_of_neg (by simp [hy]), ih]
      constructor
      · rintro ⟨j, hj, rfl⟩
        exact ⟨j + 1, hj, by simp [hy]⟩
      · rintro ⟨j, hj, rfl⟩
        cases j with
        | zero =>
          obtain rfl : y = x := by simpa using hj
          rw [hx] at hy
          cases hy
        | succ j => exact ⟨j, hj, by simp [hy]⟩
    | true =>
      rw [List.filter_cons_of_pos hy]
      cases k with
      | zero =>
        constructor
        · intro hhead
          exact ⟨0, hhead, rfl⟩
        · rintro ⟨j, hj, hnone⟩
          cases j with
          | zero => exact hj
          | succ j =>
            rw [List.take_succ_cons, List.filter_cons_of_pos hy] at hnone
            cases hnone
      | succ k =>
        rw [List.getElem?_cons_succ, ih]
        constructor
        · rintro ⟨j, hj, rfl⟩
          exact ⟨j + 1, hj, by simp [hy]⟩
        · rintro ⟨j, hj, hk⟩
          cases j with
          | zero => cases hk
          | succ j => exact ⟨j, hj, by simpa [hy] using hk⟩

/-- When entries go down, a key whose entry stays up keeps it if and only if it was on its normal
entry, or its remainder of the number left is the number of those left ahead of its entry. -/
theorem pick_keeps_iff (hdown : ∀ y ∈ xs, up' y = true → up y = true)
    (h : pick xs up key = some x) (hx : up' x = true) :
    pick xs up' key = some x ↔ xs[key % xs.length]? = some x ∨
      ∃ j, xs[j]? = some x ∧ key % (xs.filter up').length = ((xs.take j).filter up').length := by
  by_cases hnormal : Normal xs up key
  · have hsame := pick_of_normal hnormal
    rw [h] at hsame
    rw [pick_of_normal ⟨x, hsame.symm, hx⟩]
    exact ⟨.inl, fun _ => hsame.symm⟩
  · have hnormal' : ¬ Normal xs up' key := by
      rintro ⟨normal, hat, hup'⟩
      exact hnormal ⟨normal, hat, hdown normal (List.mem_of_getElem? hat) hup'⟩
    have hup : up x = true := (List.mem_filter.mp (pick_mem h)).2
    have hdisplaced : xs[key % xs.length]? ≠ some x := fun hat => hnormal ⟨x, hat, hup⟩
    rw [pick_of_displaced hnormal', filter_getElem?_iff hx]
    simp [hdisplaced]

end Lib
