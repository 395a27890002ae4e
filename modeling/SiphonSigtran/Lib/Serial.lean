import Mathlib.Data.List.Basic
import Mathlib.Data.Nat.ModEq
import Mathlib.Tactic.Ring

/-!
# Serial numbers on a circle

Items are numbered `0, 1, 2, …` modulo `N`. `last N n` is the number of the last
of `n` items, which is the all-ones value `N - 1` before the first, and `gap N a b`
is the number of steps forward from `a` to `b`. As long as two counts lie less
than `N` apart, the gap of their numbers is the difference of the counts.

`Consecutive N a ns` says that the numbers `ns` follow `a` one by one: the numbers
of a retransmission buffer whose oldest item comes after `a`.
-/

namespace Lib.Serial

variable {N : ℕ}

/-- The number of the last of `n` items. -/
def last (N n : ℕ) : ℕ := (n + (N - 1)) % N

/-- The steps forward from `a` to `b`. -/
def gap (N a b : ℕ) : ℕ := (b + (N - a % N)) % N

/-- The numbers `ns` follow `a` one by one. -/
def Consecutive (N : ℕ) : ℕ → List ℕ → Prop
  | _, [] => True
  | a, n :: ns => n = (a + 1) % N ∧ Consecutive N n ns

theorem last_lt (hN : 0 < N) (n : ℕ) : last N n < N := Nat.mod_lt _ hN

theorem gap_lt (hN : 0 < N) (a b : ℕ) : gap N a b < N := Nat.mod_lt _ hN

theorem last_zero (hN : 0 < N) : last N 0 = N - 1 := by
  unfold last
  rw [Nat.zero_add]
  exact Nat.mod_eq_of_lt (by omega)

theorem last_succ (hN : 0 < N) (n : ℕ) : last N (n + 1) = n % N := by
  unfold last
  rw [show n + 1 + (N - 1) = n + N by omega, Nat.add_mod_right]

theorem last_add_one (n : ℕ) : (last N n + 1) % N = last N (n + 1) := by
  unfold last
  rw [Nat.mod_add_mod]
  congr 1
  omega

/-- Going `k` forward from `a` is `k` steps, up to whole turns. -/
theorem gap_add (hN : 0 < N) (a k : ℕ) : gap N a ((a + k) % N) = k % N := by
  unfold gap
  rw [Nat.mod_add_mod]
  have hlt : a % N < N := Nat.mod_lt _ hN
  have hsplit : a + k + (N - a % N) = k + N * (a / N + 1) := by
    have hdiv := Nat.div_add_mod a N
    rw [Nat.mul_add, Nat.mul_one]
    omega
  rw [hsplit, Nat.add_mul_mod_self_left]

/-- Going forward by the gap to `b` arrives at `b`. -/
theorem add_gap (hN : 0 < N) (a b : ℕ) : (a + gap N a b) % N = b % N := by
  unfold gap
  rw [Nat.add_mod_mod]
  have hlt : a % N < N := Nat.mod_lt _ hN
  have hsplit : a + (b + (N - a % N)) = b + N * (a / N + 1) := by
    have hdiv := Nat.div_add_mod a N
    rw [Nat.mul_add, Nat.mul_one]
    omega
  rw [hsplit, Nat.add_mul_mod_self_left]

theorem gap_mod_left (a b : ℕ) : gap N (a % N) b = gap N a b := by
  unfold gap
  rw [Nat.mod_mod]

theorem gap_mod_right (a b : ℕ) : gap N a (b % N) = gap N a b := by
  unfold gap
  rw [Nat.mod_add_mod]

/-- Counts less than a turn apart: the gap of their numbers is their difference. -/
theorem gap_last (hN : 0 < N) {a b : ℕ} (hab : a ≤ b) (hlt : b - a < N) :
    gap N (last N a) (last N b) = b - a := by
  have hb : last N b = (a + (N - 1) + (b - a)) % N := by
    unfold last
    congr 1
    omega
  rw [hb, last, gap_mod_left, gap_add hN, Nat.mod_eq_of_lt hlt]

/-- The gap to a count behind goes round the rest of the circle. -/
theorem gap_last_behind (hN : 0 < N) {a b : ℕ} (hba : b < a) (hlt : a - b < N) :
    gap N (last N a) (last N b) = N - (a - b) := by
  have hb : last N b = (a + (N - 1) + (N - (a - b))) % N := by
    unfold last
    rw [show a + (N - 1) + (N - (a - b)) = b + (N - 1) + N by omega, Nat.add_mod_right]
  rw [hb, last, gap_mod_left, gap_add hN, Nat.mod_eq_of_lt (by omega)]

theorem last_inj (hN : 0 < N) {a b : ℕ} (hab : a ≤ b) (hlt : b - a < N)
    (h : last N a = last N b) : a = b := by
  have hgap := gap_last hN hab hlt
  rw [← h, gap_last hN le_rfl (by omega)] at hgap
  omega

@[simp] theorem consecutive_nil (a : ℕ) : Consecutive N a [] := trivial

@[simp] theorem consecutive_cons (a n : ℕ) (ns : List ℕ) :
    Consecutive N a (n :: ns) ↔ n = (a + 1) % N ∧ Consecutive N n ns := Iff.rfl

theorem consecutive_append (a : ℕ) (ns ms : List ℕ) :
    Consecutive N a (ns ++ ms) ↔
      Consecutive N a ns ∧ Consecutive N (ns.getLast?.getD a) ms := by
  induction ns generalizing a with
  | nil => simp
  | cons n ns ih =>
    rw [List.cons_append, consecutive_cons, consecutive_cons, ih, and_assoc, List.getLast?_cons,
      Option.getD_some]

/-- The number at place `i` lies `i + 1` steps after the start. -/
theorem Consecutive.getElem {a : ℕ} {ns : List ℕ} (h : Consecutive N a ns) (i : ℕ)
    (hi : i < ns.length) : ns[i] = (a + 1 + i) % N := by
  induction ns generalizing a i with
  | nil => simp at hi
  | cons n ns ih =>
    obtain ⟨rfl, hns⟩ := h
    cases i with
    | zero => rfl
    | succ i =>
      rw [List.getElem_cons_succ, ih hns i (by simpa using hi), Nat.add_assoc, Nat.mod_add_mod]
      congr 1
      omega

/-- A list of numbers that follow `a` is what counting on from `a` gives. -/
theorem Consecutive.eq_map_range {a : ℕ} {ns : List ℕ} (h : Consecutive N a ns) :
    ns = (List.range ns.length).map fun i => (a + 1 + i) % N := by
  refine List.ext_getElem (by simp) fun i hi _ => ?_
  simpa using h.getElem i hi

/-- The last number lies as many steps after the start as there are numbers. -/
theorem Consecutive.getLast {a : ℕ} {ns : List ℕ} (h : Consecutive N a ns) (ha : a < N) :
    ns.getLast?.getD a = (a + ns.length) % N := by
  induction ns generalizing a with
  | nil => simpa using (Nat.mod_eq_of_lt ha).symm
  | cons n ns ih =>
    obtain ⟨rfl, hns⟩ := h
    have hrec := ih hns (Nat.mod_lt _ (by omega))
    rw [List.getLast?_cons, Option.getD_some, hrec, Nat.mod_add_mod, List.length_cons]
    congr 1
    omega

theorem Consecutive.drop {a : ℕ} {ns : List ℕ} (h : Consecutive N a ns) (ha : a < N) (k : ℕ)
    (hk : k ≤ ns.length) : Consecutive N ((a + k) % N) (ns.drop k) := by
  have hsplit : Consecutive N a (ns.take k ++ ns.drop k) := by rwa [List.take_append_drop]
  rw [consecutive_append] at hsplit
  obtain ⟨htake, hdrop⟩ := hsplit
  rwa [htake.getLast ha, List.length_take, Nat.min_eq_left hk] at hdrop

/-- A list is cut at place `k` by a test that holds before it and not at it. -/
theorem dropWhile_eq_drop {α : Type*} {p : α → Bool} {l : List α} {k : ℕ}
    (hbefore : ∀ i (hi : i < l.length), i < k → p l[i])
    (hat : ∀ hk : k < l.length, p l[k] = false) : l.dropWhile p = l.drop k := by
  induction l generalizing k with
  | nil => simp
  | cons x xs ih =>
    cases k with
    | zero =>
      have hx : p x = false := hat (Nat.succ_pos _)
      simp [hx]
    | succ k =>
      have hx : p x = true := hbefore 0 (Nat.succ_pos _) (Nat.succ_pos _)
      rw [List.dropWhile_cons, if_pos hx, List.drop_succ_cons]
      apply ih
      · intro i hi hik
        simpa using hbefore (i + 1) (Nat.succ_lt_succ hi) (Nat.succ_lt_succ hik)
      · intro hk
        simpa using hat (Nat.succ_lt_succ hk)

/-- The half-circle test of a cumulative acknowledgement: in a buffer of at most
`H` consecutive numbers, with `2 * H ≤ N`, the numbers less than `H` steps behind
the acknowledged one are exactly the first `k`. -/
theorem Consecutive.dropWhile_gap {α : Type*} {f : α → ℕ} {a H : ℕ} {l : List α}
    (h : Consecutive N a (l.map f)) (hH : 2 * H ≤ N) (hpos : 0 < H) (hlen : l.length ≤ H)
    {k : ℕ} (hk : k ≤ l.length) {p : α → Bool}
    (hp : ∀ x ∈ l, p x = decide (gap N (f x) ((a + k) % N) < H)) :
    l.dropWhile p = l.drop k := by
  have hN : 0 < N := by omega
  have hf (i : ℕ) (hi : i < l.length) : f l[i] = (a + 1 + i) % N := by
    have := h.getElem i (by simpa using hi)
    simpa using this
  apply dropWhile_eq_drop
  · intro i hi hik
    have hgap : gap N (f l[i]) ((a + k) % N) = k - 1 - i := by
      rw [hf i hi, gap_mod_left, show a + k = a + 1 + i + (k - 1 - i) by omega, gap_add hN,
        Nat.mod_eq_of_lt (by omega)]
    rw [hp _ (List.getElem_mem hi), hgap]
    exact decide_eq_true (by omega)
  · intro hi
    have hgap : gap N (f l[k]) ((a + k) % N) = N - 1 := by
      have hround : (a + k) % N = (a + 1 + k + (N - 1)) % N := by
        rw [show a + 1 + k + (N - 1) = a + k + N by omega, Nat.add_mod_right]
      rw [hf k hi, gap_mod_left, hround, gap_add hN, Nat.mod_eq_of_lt (by omega)]
    rw [hp _ (List.getElem_mem hi), hgap]
    exact decide_eq_false (by omega)

/-! ## Numbered items -/

/-- The items with their numbers, the first of them the one after the first `k`. -/
def number {α : Type*} (N : ℕ) : ℕ → List α → List (ℕ × α)
  | _, [] => []
  | k, x :: xs => (last N (k + 1), x) :: number N (k + 1) xs

variable {α : Type*}

@[simp] theorem number_nil (k : ℕ) : number N k ([] : List α) = [] := rfl

@[simp] theorem number_cons (k : ℕ) (x : α) (xs : List α) :
    number N k (x :: xs) = (last N (k + 1), x) :: number N (k + 1) xs := rfl

theorem length_number (k : ℕ) (xs : List α) : (number N k xs).length = xs.length := by
  induction xs generalizing k with
  | nil => rfl
  | cons x xs ih => simp [ih]

theorem map_snd_number (k : ℕ) (xs : List α) : (number N k xs).map Prod.snd = xs := by
  induction xs generalizing k with
  | nil => rfl
  | cons x xs ih => simp [ih]

theorem number_append (k : ℕ) (xs ys : List α) :
    number N k (xs ++ ys) = number N k xs ++ number N (k + xs.length) ys := by
  induction xs generalizing k with
  | nil => rfl
  | cons x xs ih => simp [ih, Nat.add_assoc, Nat.add_comm 1]

theorem drop_number (k j : ℕ) (xs : List α) :
    (number N k xs).drop j = number N (k + j) (xs.drop j) := by
  induction xs generalizing k j with
  | nil => simp
  | cons x xs ih =>
    cases j with
    | zero => rfl
    | succ j =>
      rw [number_cons, List.drop_succ_cons, List.drop_succ_cons, ih,
        show k + 1 + j = k + (j + 1) by omega]

/-- The number of the last item. -/
theorem getLast_number (k : ℕ) (xs : List α) :
    ((number N k xs).getLast?.map Prod.fst).getD (last N k) = last N (k + xs.length) := by
  induction xs generalizing k with
  | nil => rfl
  | cons x xs ih =>
    rw [number_cons, List.getLast?_cons, Option.map_some, Option.getD_some, List.length_cons,
      show k + (xs.length + 1) = k + 1 + xs.length by omega, ← ih (k + 1)]
    cases (number N (k + 1) xs).getLast? <;> rfl

/-- Of fewer items than a turn, those more than `j` steps after the start are all but the
first `j`. The items here are the ones after the first `i` of them. -/
theorem filter_gap_number (hN : 0 < N) (a i j : ℕ) (xs : List α) (hlt : i + xs.length < N) :
    (number N (a + i) xs).filter (fun x => decide (j < gap N (last N a) x.1)) =
      number N (a + i + (j - i)) (xs.drop (j - i)) := by
  induction xs generalizing i with
  | nil => simp
  | cons x xs ih =>
    rw [List.length_cons] at hlt
    have hgap : gap N (last N a) (last N (a + i + 1)) = i + 1 := by
      rw [gap_last hN (by omega) (by omega)]
      omega
    rw [number_cons, List.filter_cons, hgap, Nat.add_assoc, ih (i + 1) (by omega)]
    by_cases h : j ≤ i
    · rw [if_pos (by simp; omega), show j - i = 0 by omega, show j - (i + 1) = 0 by omega]
      rfl
    · obtain ⟨d, hd⟩ : ∃ d, j - i = d + 1 := ⟨j - i - 1, by omega⟩
      rw [if_neg (by simp; omega), hd, List.drop_succ_cons, show j - (i + 1) = d by omega,
        show a + (i + 1) + d = a + i + (d + 1) by omega]

end Lib.Serial
