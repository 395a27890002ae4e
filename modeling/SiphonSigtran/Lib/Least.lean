import Mathlib.Data.List.Sort

/-!
# The least of a list

Of the elements of a list that have a property, the one with the least key, and
the first of those among equals. The stable sort by the key has it in front of
the others.
-/

namespace Lib

variable {α : Type*} (key : α → ℕ) (p : α → Bool)

/-- Of the elements that have the property `x` is the first with the least key. -/
def Least (xs : List α) (x : α) : Prop :=
  ∃ before after, xs = before ++ x :: after ∧ p x = true ∧
    (∀ y ∈ before, p y = true → key x < key y) ∧ ∀ y ∈ after, p y = true → key x ≤ key y

/-- The stable sort by the key. -/
def sortByKey (xs : List α) : List α := xs.insertionSort fun x y => key x ≤ key y

variable {key p}

theorem Least.mem {xs : List α} {x : α} (h : Least key p xs x) : x ∈ xs := by
  obtain ⟨before, after, rfl, -⟩ := h
  simp

theorem Least.holds {xs : List α} {x : α} (h : Least key p xs x) : p x = true := by
  obtain ⟨_, _, -, hp, -⟩ := h
  exact hp

/-- There is one such element at most. -/
theorem Least.eq {xs : List α} {x y : α} (hx : Least key p xs x) (hy : Least key p xs y) :
    x = y := by
  obtain ⟨before, after, rfl, hpx, hbefore, hafter⟩ := hx
  obtain ⟨before', after', heq, hpy, hbefore', hafter'⟩ := hy
  rcases List.append_eq_append_iff.mp heq with ⟨mid, hb, ha⟩ | ⟨mid, hb, ha⟩
  · cases mid with
    | nil => exact (List.cons.inj ha).1
    | cons z mid =>
      obtain ⟨rfl, rfl⟩ := List.cons.inj ha
      have hlt := hbefore' x (by simp [hb]) hpx
      have hle := hafter y (by simp) hpy
      omega
  · cases mid with
    | nil => exact (List.cons.inj ha).1.symm
    | cons z mid =>
      obtain ⟨rfl, rfl⟩ := List.cons.inj ha
      have hlt := hbefore y (by simp [hb]) hpy
      have hle := hafter' x (by simp) hpx
      omega

theorem Least.cons_of_not {xs : List α} {a x : α} (ha : p a = false) (h : Least key p xs x) :
    Least key p (a :: xs) x := by
  obtain ⟨before, after, rfl, hp, hbefore, hafter⟩ := h
  refine ⟨a :: before, after, rfl, hp, fun y hy hpy => ?_, hafter⟩
  rcases List.mem_cons.mp hy with rfl | hy
  · rw [ha] at hpy
    cases hpy
  · exact hbefore y hy hpy

theorem Least.cons_of_lt {xs : List α} {a x : α} (ha : key x < key a) (h : Least key p xs x) :
    Least key p (a :: xs) x := by
  obtain ⟨before, after, rfl, hp, hbefore, hafter⟩ := h
  refine ⟨a :: before, after, rfl, hp, fun y hy hpy => ?_, hafter⟩
  rcases List.mem_cons.mp hy with rfl | hy
  · exact ha
  · exact hbefore y hy hpy

theorem Least.le {xs : List α} {x y : α} (h : Least key p xs x) (hy : y ∈ xs)
    (hp : p y = true) : key x ≤ key y := by
  obtain ⟨before, after, rfl, -, hbefore, hafter⟩ := h
  rcases List.mem_append.mp hy with hy | hy
  · exact Nat.le_of_lt (hbefore y hy hp)
  · rcases List.mem_cons.mp hy with rfl | hy
    · exact Nat.le_refl _
    · exact hafter y hy hp

theorem least_cons {xs : List α} {a : α} (ha : p a = true)
    (h : ∀ y ∈ xs, p y = true → key a ≤ key y) : Least key p (a :: xs) a :=
  ⟨[], xs, rfl, ha, fun _ hy => absurd hy List.not_mem_nil, h⟩

theorem sortByKey_cons (a : α) (xs : List α) :
    sortByKey key (a :: xs) = (sortByKey key xs).orderedInsert (fun x y => key x ≤ key y) a := rfl

theorem mem_sortByKey {xs : List α} {x : α} : x ∈ sortByKey key xs ↔ x ∈ xs := by
  unfold sortByKey
  exact List.mem_insertionSort _

theorem sortByKey_ne_nil (key : α → ℕ) {xs : List α} (h : xs ≠ []) : sortByKey key xs ≠ [] := by
  obtain ⟨x, hx⟩ := List.exists_mem_of_ne_nil xs h
  exact List.ne_nil_of_mem (mem_sortByKey.mpr hx)

theorem pairwise_sortByKey (xs : List α) :
    (sortByKey key xs).Pairwise fun x y => key x ≤ key y := by
  unfold sortByKey
  have : Std.Total fun x y : α => key x ≤ key y := ⟨fun x y => Nat.le_total _ _⟩
  have : IsTrans α fun x y : α => key x ≤ key y := ⟨fun _ _ _ => Nat.le_trans⟩
  exact List.pairwise_insertionSort _ xs

/-- An element is put in front of those with a key that is not less. -/
theorem find_orderedInsert (a : α) {xs : List α} (h : xs.Pairwise fun x y => key x ≤ key y) :
    (xs.orderedInsert (fun x y => key x ≤ key y) a).find? p =
      if p a = true then
        match xs.find? p with
        | none => some a
        | some y => if key a ≤ key y then some a else some y
      else xs.find? p := by
  induction xs with
  | nil => cases hp : p a <;> simp [hp]
  | cons b xs ih =>
    obtain ⟨hb, hxs⟩ := List.pairwise_cons.mp h
    rw [List.orderedInsert_cons]
    by_cases hab : key a ≤ key b
    · rw [if_pos hab, List.find?_cons]
      cases hp : p a with
      | false => rfl
      | true =>
        simp only [↓reduceIte]
        cases hfind : (b :: xs).find? p with
        | none => rfl
        | some y =>
          have hy : key b ≤ key y := by
            rcases List.mem_cons.mp (List.mem_of_find?_eq_some hfind) with rfl | hy
            · exact Nat.le_refl _
            · exact hb y hy
          simp [Nat.le_trans hab hy]
    · rw [if_neg hab, List.find?_cons, List.find?_cons, ih hxs]
      cases hpb : p b with
      | false => rfl
      | true => simp [hab]

/-- The first element of the stable sort that has the property is the least one. -/
theorem find_sortByKey (key : α → ℕ) (p : α → Bool) (xs : List α) :
    match (sortByKey key xs).find? p with
    | none => ∀ x ∈ xs, p x = false
    | some x => Least key p xs x := by
  induction xs with
  | nil => simp [sortByKey]
  | cons a xs ih =>
    rw [sortByKey_cons, find_orderedInsert a (pairwise_sortByKey xs)]
    cases hp : p a with
    | false =>
      simp only [Bool.false_eq_true, ↓reduceIte]
      cases hfind : (sortByKey key xs).find? p with
      | none =>
        rw [hfind] at ih
        intro x hx
        rcases List.mem_cons.mp hx with rfl | hx
        · exact hp
        · exact ih x hx
      | some y =>
        rw [hfind] at ih
        exact Least.cons_of_not hp ih
    | true =>
      simp only [↓reduceIte]
      cases hfind : (sortByKey key xs).find? p with
      | none =>
        rw [hfind] at ih
        refine least_cons hp fun y hy hpy => ?_
        rw [ih y hy] at hpy
        cases hpy
      | some y =>
        rw [hfind] at ih
        by_cases hle : key a ≤ key y
        · simp only [hle, ↓reduceIte]
          exact least_cons hp fun z hz hpz => Nat.le_trans hle (ih.le hz hpz)
        · simp only [hle, ↓reduceIte]
          exact Least.cons_of_lt (Nat.lt_of_not_le hle) ih

/-- The head of the stable sort is the least of all that have a property if it has it. -/
theorem least_head {xs rest : List α} {x : α} (h : sortByKey key xs = x :: rest)
    (hp : p x = true) : Least key p xs x := by
  have hfind := find_sortByKey key p xs
  rw [h, List.find?_cons_of_pos hp] at hfind
  exact hfind

end Lib
