import Mathlib.Data.Nat.Count

/-!
# Taking turns

A counter goes round a list. However many turns are looked at, and wherever they begin, every
element had its share of them: of a number of whole rounds exactly, of other numbers as many times
as in the whole rounds in them at least, and in those they are part of at most.
-/

namespace Lib

variable {α : Type*}

/-- The elements at `n` turns, of which the first is the `c`-th. -/
def turns (xs : List α) : ℕ → ℕ → List α
  | _, 0 => []
  | c, n + 1 => xs[c % xs.length]?.toList ++ turns xs (c + 1) n

theorem turns_succ (xs : List α) (c n : ℕ) :
    turns xs c (n + 1) = turns xs c n ++ xs[(c + n) % xs.length]?.toList := by
  induction n generalizing c with
  | zero => simp [turns]
  | succ n ih =>
    rw [turns, ih, turns, List.append_assoc, Nat.add_right_comm c 1 n, Nat.add_assoc]

/-! ## Counting what recurs -/

section

variable {p : ℕ → Prop} [DecidablePred p] {L : ℕ}

/-- In one round as many are counted wherever it begins. -/
theorem count_round (hp : ∀ i, p (L + i) ↔ p i) (c : ℕ) :
    Nat.count (fun k => p (c + k)) L = Nat.count p L := by
  have hsame : Nat.count (fun k => p (L + k)) c = Nat.count p c := by
    simp only [Nat.count_eq_card_filter_range, hp]
  have hfirst := Nat.count_add p c L
  have hlast := Nat.count_add p L c
  rw [Nat.add_comm L c] at hlast
  omega

theorem count_rounds (hp : ∀ i, p (L + i) ↔ p i) (c k : ℕ) :
    Nat.count (fun i => p (c + i)) (k * L) = k * Nat.count p L := by
  induction k generalizing c with
  | zero => simp
  | succ k ih =>
    have hrest := ih (c + L)
    simp only [Nat.add_assoc] at hrest
    calc Nat.count (fun i => p (c + i)) ((k + 1) * L)
        = Nat.count (fun i => p (c + i)) (L + k * L) := by rw [Nat.succ_mul, Nat.add_comm]
      _ = Nat.count p L + k * Nat.count p L := by rw [Nat.count_add, count_round hp, hrest]
      _ = (k + 1) * Nat.count p L := by rw [Nat.succ_mul, Nat.add_comm]

end

variable [BEq α]

theorem count_getElem? (xs : List α) (x : α) :
    Nat.count (fun i => xs[i]? == some x) xs.length = xs.count x := by
  induction xs with
  | nil => rfl
  | cons y xs ih =>
    rw [List.length_cons, Nat.count_succ', List.count_cons, ← ih]
    rfl

variable [LawfulBEq α]

theorem count_turns (xs : List α) (c n : ℕ) (x : α) :
    (turns xs c n).count x = Nat.count (fun k => xs[(c + k) % xs.length]? == some x) n := by
  induction n with
  | zero => rfl
  | succ n ih =>
    rw [turns_succ, List.count_append, ih, Nat.count_succ]
    congr 1
    cases xs[(c + n) % xs.length]? with
    | none => simp
    | some y => by_cases hy : y = x <;> simp [hy]

/-- Every element had its share of the turns. -/
theorem turns_share (xs : List α) (c n : ℕ) (x : α) :
    n / xs.length * xs.count x ≤ (turns xs c n).count x ∧
      (turns xs c n).count x ≤ (n + xs.length - 1) / xs.length * xs.count x := by
  rcases Nat.eq_zero_or_pos xs.length with hempty | hpos
  · have hcount := count_turns xs c n x
    rw [List.length_eq_zero_iff.mp hempty] at hcount ⊢
    simp [hcount]
  · have hperiod (i : ℕ) : (xs[(xs.length + i) % xs.length]? == some x) = true ↔
        (xs[i % xs.length]? == some x) = true := by rw [Nat.add_mod_left]
    have hround : Nat.count (fun i => xs[i % xs.length]? == some x) xs.length = xs.count x := by
      rw [← count_getElem? xs x, Nat.count_eq_card_filter_range, Nat.count_eq_card_filter_range]
      congr 1
      refine Finset.filter_congr fun i hi => ?_
      rw [Nat.mod_eq_of_lt (Finset.mem_range.mp hi)]
    have hmono := Nat.count_monotone fun k => xs[(c + k) % xs.length]? == some x
    rw [count_turns, ← hround, ← count_rounds hperiod c, ← count_rounds hperiod c]
    constructor
    · exact hmono (Nat.div_mul_le_self n xs.length)
    · refine hmono ?_
      have hmod := Nat.div_add_mod (n + xs.length - 1) xs.length
      have hlt := Nat.mod_lt (n + xs.length - 1) hpos
      rw [Nat.mul_comm] at hmod
      omega

end Lib
