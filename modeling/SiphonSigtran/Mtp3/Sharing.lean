import SiphonSigtran.Lib.Pick
import SiphonSigtran.Mtp3.Route

/-!
# Load sharing among routes

The routes of the priority in use share the selection codes by `Lib.pick`. A priority is a whole
run of candidates of one priority, so two priorities in use that share a route are the same.
-/

namespace SiphonSigtran.Mtp3

open Lib

variable {α : Type*} {priority : α → ℕ} {usable usable' : α → Usable} {xs : List α}

/-- The indices from `start` to `stop` are those of one whole priority. -/
structure Tier (priority : α → ℕ) (xs : List α) (start stop : ℕ) : Prop where
  lt : start < stop
  le : stop ≤ xs.length
  same : ∃ level, (∀ i, start ≤ i → i < stop → xs[i]?.map priority = some level) ∧
    (∀ i, i + 1 = start → xs[i]?.map priority ≠ some level) ∧
    xs[stop]?.map priority ≠ some level

/-- Two whole priorities that share an index are the same. -/
theorem Tier.unique {start stop start' stop' i : ℕ} (h : Tier priority xs start stop)
    (h' : Tier priority xs start' stop') (hi : start ≤ i ∧ i < stop)
    (hi' : start' ≤ i ∧ i < stop') : start = start' ∧ stop = stop' := by
  obtain ⟨level, hsame, hfirst, hlast⟩ := h.same
  obtain ⟨level', hsame', hfirst', hlast'⟩ := h'.same
  have hlevel : level = level' := by
    have hboth := (hsame i hi.1 hi.2).symm.trans (hsame' i hi'.1 hi'.2)
    exact Option.some.inj hboth
  subst hlevel
  constructor
  · rcases Nat.lt_trichotomy start start' with hlt | heq | hlt
    · have hinside := hsame (start' - 1) (by omega) (by omega)
      exact absurd hinside (hfirst' _ (by omega))
    · exact heq
    · have hinside := hsame' (start - 1) (by omega) (by omega)
      exact absurd hinside (hfirst _ (by omega))
  · rcases Nat.lt_trichotomy stop stop' with hlt | heq | hlt
    · exact absurd (hsame' stop (by omega) hlt) hlast
    · exact heq
    · exact absurd (hsame stop' (by omega) hlt) hlast'

theorem Usable.join_ne_no {cls u : Usable} (h : cls.join u ≠ .no) :
    cls.join u = cls ∨ cls.join u = u := by
  cases u with
  | yes => exact .inr rfl
  | restricted =>
    simp only [join]
    split_ifs
    · exact .inr rfl
    · exact .inl rfl
  | no => exact .inl rfl

/-- The loop finds a whole priority, and a route in it of the class in use. `level` began at
`start`, and `cls` is the class of its routes so far. -/
theorem tierFrom_tier (rest : List α) {i start level : ℕ} {cls : Usable}
    (hrest : xs.drop i = rest) (hlt : start < i) (hle : i ≤ xs.length)
    (hsame : ∀ k, start ≤ k → k < i → xs[k]?.map priority = some level)
    (hfirst : ∀ k, k + 1 = start → xs[k]?.map priority ≠ some level)
    (hclass : cls ≠ .no → ∃ k, start ≤ k ∧ k < i ∧ xs[k]?.map usable = some cls)
    {a b : ℕ} {c : Usable} (h : tierFrom priority usable i start level cls rest = some (a, b, c)) :
    Tier priority xs a b ∧ ∃ k, a ≤ k ∧ k < b ∧ xs[k]?.map usable = some c := by
  induction rest generalizing i start level cls with
  | nil =>
    have hlength : xs.length = i := by
      have hdrop := congrArg List.length hrest
      simp only [List.length_drop, List.length_nil] at hdrop
      omega
    simp only [tierFrom] at h
    split_ifs at h with hno
    obtain ⟨rfl, rfl, rfl⟩ : start = a ∧ i = b ∧ cls = c := by simpa using h
    refine ⟨⟨hlt, hle, level, hsame, hfirst, ?_⟩, hclass hno⟩
    rw [List.getElem?_eq_none (by omega)]
    simp
  | cons x rest ih =>
    have hx : xs[i]? = some x := by
      have hhead := congrArg List.head? hrest
      simpa [List.head?_drop] using hhead
    have hlt' : i < xs.length := (List.getElem?_eq_some_iff.mp hx).1
    have hrest' : xs.drop (i + 1) = rest := by
      have htail := congrArg List.tail hrest
      simpa [List.tail_drop] using htail
    simp only [tierFrom] at h
    split_ifs at h with hlevel hno
    · -- One more route of the same priority.
      refine ih hrest' (by omega) (by omega) ?_ hfirst ?_ h
      · intro k hk hk'
        rcases Nat.lt_succ_iff_lt_or_eq.mp hk' with hk' | rfl
        · exact hsame k hk hk'
        · rw [hx]
          exact congrArg some hlevel
      · intro hjoin
        rcases Usable.join_ne_no hjoin with heq | heq
        · obtain ⟨k, hk, hk', hcls⟩ := hclass (heq ▸ hjoin)
          exact ⟨k, hk, by omega, by rw [heq]; exact hcls⟩
        · refine ⟨i, by omega, by omega, ?_⟩
          rw [heq, hx]
          rfl
    · -- The priority before it has no route to use, and another begins.
      refine ih hrest' (by omega) (by omega) ?_ ?_ ?_ h
      · intro k hk hk'
        obtain rfl : k = i := by omega
        rw [hx]
        rfl
      · intro k hk hsome
        have hlast := hsame k (by omega) (by omega)
        exact hlevel (Option.some.inj (hsome.symm.trans hlast))
      · intro hjoin
        rcases Usable.join_ne_no hjoin with heq | heq
        · exact absurd heq hjoin
        · refine ⟨i, by omega, by omega, ?_⟩
          rw [heq, hx]
          rfl
    · -- The priority before it is the one in use.
      obtain ⟨rfl, rfl, rfl⟩ : start = a ∧ i = b ∧ cls = c := by simpa using h
      refine ⟨⟨hlt, hle, level, hsame, hfirst, ?_⟩, hclass hno⟩
      rw [hx]
      exact fun hsome => hlevel (Option.some.inj hsome)

theorem tierInUse_tier {a b : ℕ} {c : Usable} (h : tierInUse priority usable xs = some (a, b, c)) :
    Tier priority xs a b ∧ ∃ k, a ≤ k ∧ k < b ∧ xs[k]?.map usable = some c := by
  cases xs with
  | nil => cases h
  | cons x rest =>
    refine tierFrom_tier rest rfl (by omega) (by simp) ?_ ?_ ?_ h
    · intro k hk hk'
      obtain rfl : k = 0 := by omega
      rfl
    · exact fun k hk => absurd hk (by omega)
    · intro hjoin
      rcases Usable.join_ne_no hjoin with heq | heq
      · exact absurd heq hjoin
      · exact ⟨0, by omega, by omega, by rw [heq]; rfl⟩

/-- Whether a route of the priority in use is one of the class in use. -/
def ofClass (usable : α → Usable) (xs : List α) (cls : Usable) (i : ℕ) : Bool :=
  xs[i]?.map usable = some cls

theorem chooseRoute_eq_pick {start stop : ℕ} {cls : Usable}
    (h : tierInUse priority usable xs = some (start, stop, cls)) (sls : ℕ) :
    chooseRoute priority usable xs sls =
      pick (List.range' start (stop - start)) (ofClass usable xs cls) sls := by
  have hlt := (tierInUse_tier h).1.lt
  have hnormal : (List.range' start (stop - start))[sls % (stop - start)]? =
      some (start + sls % (stop - start)) := by
    rw [List.getElem?_range' (Nat.mod_lt _ (by omega))]
    simp
  have hsame : (fun i => decide (xs[i]?.map usable = some cls)) = ofClass usable xs cls := rfl
  unfold chooseRoute pick
  rw [h, List.length_range', hnormal]
  dsimp only
  rw [hsame]
  by_cases hup : xs[start + sls % (stop - start)]?.map usable = some cls
  · have hup' : ofClass usable xs cls (start + sls % (stop - start)) = true := by
      simpa [ofClass] using hup
    rw [if_pos hup, if_pos hup']
  · have hup' : ¬ ofClass usable xs cls (start + sls % (stop - start)) = true := by
      simpa [ofClass] using hup
    rw [if_neg hup, if_neg hup']
    cases (List.range' start (stop - start)).filter (ofClass usable xs cls) with
    | nil => rfl
    | cons i rest =>
      rw [Nat.max_eq_left (by simp)]

theorem routesInUse_eq {start stop : ℕ} {cls : Usable}
    (h : tierInUse priority usable xs = some (start, stop, cls)) :
    routesInUse priority usable xs =
      (List.range' start (stop - start)).filter (ofClass usable xs cls) := by
  unfold routesInUse
  rw [h]
  rfl

end SiphonSigtran.Mtp3
