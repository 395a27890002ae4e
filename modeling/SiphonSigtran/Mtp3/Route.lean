import Mathlib.Data.Nat.Notation
import Mathlib.Tactic.SplitIfs

/-!
# Routes in use

The rule by which the per-message resolver and signalling route management both
choose among the routes of a destination: the first priority that has a usable
route, and of its routes the unrestricted ones if there are any, the restricted
ones otherwise. And the marks that the routing tables keep of what the adjacent
points said about single routes.
-/

namespace SiphonSigtran.Mtp3

/-- What an adjacent point has said about one route through it. -/
inductive RouteStatus
  | allowed | restricted | prohibited
  deriving DecidableEq, Repr

/-- Whether a candidate route can carry traffic. -/
inductive Usable
  | no | restricted | yes
  deriving DecidableEq, Repr

/-- The class of a priority after one more of its routes. -/
def Usable.join (cls : Usable) : Usable → Usable
  | .yes => .yes
  | .restricted => if cls = .no then .restricted else cls
  | .no => cls

section

variable {α : Type*} (priority : α → ℕ) (usable : α → Usable)

/-- The loop of `tierInUse` at the index `i`, in the priority `level` that began at `start`
and whose routes so far are of the class `cls`. -/
def tierFrom (i start level : ℕ) (cls : Usable) : List α → Option (ℕ × ℕ × Usable)
  | [] => if cls = .no then none else some (start, i, cls)
  | x :: xs =>
    if priority x = level then tierFrom (i + 1) start level (cls.join (usable x)) xs
    else if cls = .no then tierFrom (i + 1) i (priority x) (Usable.no.join (usable x)) xs
    else some (start, i, cls)

/-- The priority in use among candidates sorted by priority: where it begins and ends, and
the class in use. -/
def tierInUse : List α → Option (ℕ × ℕ × Usable)
  | [] => none
  | x :: xs => tierFrom priority usable 1 0 (priority x) (Usable.no.join (usable x)) xs

/-- The indices of the routes that carry some selection code. -/
def routesInUse (sorted : List α) : List ℕ :=
  match tierInUse priority usable sorted with
  | some (start, stop, cls) =>
    (List.range' start (stop - start)).filter fun i => (sorted[i]?.map usable) = some cls
  | none => []

/-- The index of the route that carries the selection code `sls`. -/
def chooseRoute (sorted : List α) (sls : ℕ) : Option ℕ :=
  match tierInUse priority usable sorted with
  | none => none
  | some (start, stop, cls) =>
    let normal := start + sls % (stop - start)
    if (sorted[normal]?.map usable) = some cls then some normal
    else
      let inUse := (List.range' start (stop - start)).filter fun i =>
        (sorted[i]?.map usable) = some cls
      inUse[sls % max inUse.length 1]?

theorem tierFrom_of_no {xs : List α} (h : ∀ x ∈ xs, usable x = .no) (i start level : ℕ) :
    tierFrom priority usable i start level .no xs = none := by
  induction xs generalizing i start level with
  | nil => rfl
  | cons x xs ih =>
    have hx : usable x = .no := h x (by simp)
    have hxs := ih fun y hy => h y (by simp [hy])
    simp only [tierFrom, hx, ↓reduceIte]
    split_ifs
    · exact hxs _ _ _
    · exact hxs _ _ _

/-- No route carries traffic where none is usable. -/
theorem routesInUse_of_no {xs : List α} (h : ∀ x ∈ xs, usable x = .no) :
    routesInUse priority usable xs = [] := by
  have htier : tierInUse priority usable xs = none := by
    cases xs with
    | nil => rfl
    | cons x xs =>
      have hx : usable x = .no := h x (by simp)
      simp only [tierInUse, hx]
      exact tierFrom_of_no priority usable (fun y hy => h y (by simp [hy])) _ _ _
  unfold routesInUse
  rw [htier]

theorem tierFrom_congr {usable usable' : α → Usable} {xs : List α}
    (h : ∀ x ∈ xs, usable x = usable' x) (i start level : ℕ) (cls : Usable) :
    tierFrom priority usable i start level cls xs =
      tierFrom priority usable' i start level cls xs := by
  induction xs generalizing i start level cls with
  | nil => rfl
  | cons x xs ih =>
    have hx := h x (by simp)
    have hxs := ih fun y hy => h y (by simp [hy])
    simp only [tierFrom, hx, hxs]

/-- The routes in use depend on what is usable among the candidates only. -/
theorem routesInUse_congr {usable usable' : α → Usable} {xs : List α}
    (h : ∀ x ∈ xs, usable x = usable' x) :
    routesInUse priority usable xs = routesInUse priority usable' xs := by
  have htier : tierInUse priority usable xs = tierInUse priority usable' xs := by
    cases xs with
    | nil => rfl
    | cons x xs =>
      have hx := h x (by simp)
      simp only [tierInUse, hx]
      exact tierFrom_congr priority (fun y hy => h y (by simp [hy])) _ _ _ _
  unfold routesInUse
  rw [htier]
  split
  · refine List.filter_congr fun i _ => ?_
    cases hi : xs[i]? with
    | none => rfl
    | some x => simp only [Option.map_some, h x (List.mem_of_getElem? hi)]
  · rfl

/-- The class in use is one that carries traffic. -/
theorem tierFrom_ne_no {xs : List α} {i start level : ℕ} {cls : Usable} {a b : ℕ} {c : Usable}
    (h : tierFrom priority usable i start level cls xs = some (a, b, c)) : c ≠ .no := by
  induction xs generalizing i start level cls with
  | nil =>
    simp only [tierFrom] at h
    split_ifs at h with hno
    obtain ⟨-, -, rfl⟩ : start = a ∧ i = b ∧ cls = c := by simpa using h
    exact hno
  | cons x xs ih =>
    simp only [tierFrom] at h
    split_ifs at h with hlevel hno
    · exact ih h
    · exact ih h
    · obtain ⟨-, -, rfl⟩ : start = a ∧ i = b ∧ cls = c := by simpa using h
      exact hno

theorem tierInUse_ne_no {xs : List α} {a b : ℕ} {c : Usable}
    (h : tierInUse priority usable xs = some (a, b, c)) : c ≠ .no := by
  cases xs with
  | nil => cases h
  | cons x xs => exact tierFrom_ne_no priority usable h

/-- The route chosen for a selection code can carry traffic. -/
theorem usable_of_chooseRoute {xs : List α} {sls i : ℕ}
    (h : chooseRoute priority usable xs sls = some i) :
    ∃ x, xs[i]? = some x ∧ usable x ≠ .no := by
  unfold chooseRoute at h
  cases htier : tierInUse priority usable xs with
  | none => simp [htier] at h
  | some tier =>
    obtain ⟨start, stop, cls⟩ := tier
    have hcls : cls ≠ .no := tierInUse_ne_no priority usable htier
    have hclass : ∀ j : ℕ, (xs[j]?.map usable) = some cls → ∃ x, xs[j]? = some x ∧
      usable x ≠ .no := by
      intro j hj
      obtain ⟨x, hx, hu⟩ := Option.map_eq_some_iff.mp hj
      exact ⟨x, hx, hu ▸ hcls⟩
    simp only [htier] at h
    split_ifs at h with hnormal
    · cases h
      exact hclass _ hnormal
    · have hmem := List.mem_of_getElem? h
      exact hclass i (by simpa using (List.mem_filter.mp hmem).2)

end

/-! ## Marks of the routing tables -/

/-- The routes that adjacent points have prohibited or restricted, per destination. The last
component is what the route goes through. -/
abbrev RouteMarks (ν : Type*) := ℕ → List (ν × RouteStatus)

section

variable {ν : Type*} [DecidableEq ν]

/-- `RouteState::set_route_status`. -/
def setRouteStatus (marks : RouteMarks ν) (dpc : ℕ) (via : ν) (status : RouteStatus) :
    RouteMarks ν := fun d =>
  if d = dpc then
    (marks dpc).filter (fun mark => mark.1 ≠ via) ++
      (if status = .allowed then [] else [(via, status)])
  else marks d

/-- `RouteState::route_status`. -/
def routeStatus (marks : RouteMarks ν) (dpc : ℕ) (via : ν) : RouteStatus :=
  (((marks dpc).find? fun mark => mark.1 = via).map Prod.snd).getD .allowed

/-- A mark stands until the next one of the same route. -/
theorem routeStatus_setRouteStatus (marks : RouteMarks ν) (dpc d : ℕ) (via v : ν)
    (status : RouteStatus) :
    routeStatus (setRouteStatus marks dpc via status) d v =
      if d = dpc ∧ v = via then status else routeStatus marks d v := by
  unfold routeStatus setRouteStatus
  by_cases hd : d = dpc
  · subst hd
    simp only [↓reduceIte, true_and, List.find?_append]
    by_cases hv : v = via
    · subst hv
      have hnone : ((marks d).filter fun mark => mark.1 ≠ v).find? (fun mark => mark.1 = v) =
          none := by
        simp [List.find?_eq_none]
      rw [hnone]
      cases status <;> simp
    · have hsame : ((marks d).filter fun mark => mark.1 ≠ via).find? (fun mark => mark.1 = v) =
          (marks d).find? fun mark => mark.1 = v := by
        rw [List.find?_filter]
        congr 1
        funext mark
        by_cases hm : mark.1 = v
        · simp [hm, hv]
        · simp [hm]
      rw [hsame, if_neg hv]
      cases hfind : (marks d).find? fun mark => mark.1 = v with
      | some mark => simp
      | none =>
        have : ¬ via = v := fun h => hv h.symm
        cases status <;> simp [this]
  · simp [hd]

end

end SiphonSigtran.Mtp3
