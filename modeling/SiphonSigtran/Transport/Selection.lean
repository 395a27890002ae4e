import SiphonSigtran.Mtp3.Sharing
import SiphonSigtran.Transport.Relay

/-!
# What a failure moves

Routes of a priority and links of a linkset carry selection codes by the same rule, `Lib.pick`. A
failure leaves a code where it is if that is the normal route or link of the code. A code that an
earlier failure displaced is placed anew by the number that is left, and its own place may not be
the one that comes out.
-/

namespace SiphonSigtran.Transport

open Lib Mtp3

section Routes

variable {α : Type*} {priority : α → ℕ} {usable usable' : α → Usable} {xs : List α}

/-- A code on the route `i` of the priority from `start` to `stop` stays there when the class `cls`
is down to the routes that `usable` gives: it is the normal route of the code, or as many are left
ahead of it as the remainder of the code by the number left. -/
def RouteKept (usable : α → Usable) (xs : List α) (start stop : ℕ) (cls : Usable)
    (sls i : ℕ) : Prop :=
  i = start + sls % (stop - start) ∨
    sls % ((List.range' start (stop - start)).filter (ofClass usable xs cls)).length =
      ((List.range' start (i - start)).filter (ofClass usable xs cls)).length

theorem chooseRoute_mem {sls i : ℕ} (h : chooseRoute priority usable xs sls = some i) :
    i ∈ routesInUse priority usable xs := by
  cases htier : tierInUse priority usable xs with
  | none =>
    unfold chooseRoute at h
    rw [htier] at h
    cases h
  | some t =>
    obtain ⟨start, stop, cls⟩ := t
    rw [chooseRoute_eq_pick htier] at h
    rw [routesInUse_eq htier]
    exact pick_mem h

theorem chooseRoute_isSome_iff {sls : ℕ} :
    (chooseRoute priority usable xs sls).isSome = true ↔ routesInUse priority usable xs ≠ [] := by
  cases htier : tierInUse priority usable xs with
  | none =>
    unfold chooseRoute routesInUse
    rw [htier]
    simp
  | some t =>
    obtain ⟨start, stop, cls⟩ := t
    rw [chooseRoute_eq_pick htier, routesInUse_eq htier]
    exact pick_isSome_iff

theorem chooseRoute_offset {start stop k : ℕ} {cls : Usable}
    (htier : tierInUse priority usable xs = some (start, stop, cls))
    (h : start + k ∈ routesInUse priority usable xs) :
    chooseRoute priority usable xs k = some (start + k) := by
  rw [routesInUse_eq htier] at h
  obtain ⟨hrange, hup⟩ := List.mem_filter.mp h
  have hk : k < stop - start := by
    have hmem := List.mem_range'_1.mp hrange
    omega
  have hat : (List.range' start (stop - start))[k]? = some (start + k) := by
    rw [List.getElem?_range' hk]
    simp
  rw [chooseRoute_eq_pick htier]
  exact pick_position hat hup

theorem mem_routesInUse {i : ℕ} (h : i ∈ routesInUse priority usable xs) :
    ∃ start stop cls, tierInUse priority usable xs = some (start, stop, cls) ∧
      (start ≤ i ∧ i < stop) ∧ xs[i]?.map usable = some cls := by
  cases htier : tierInUse priority usable xs with
  | none =>
    unfold routesInUse at h
    rw [htier] at h
    cases h
  | some t =>
    obtain ⟨start, stop, cls⟩ := t
    rw [routesInUse_eq htier] at h
    obtain ⟨hrange, hup⟩ := List.mem_filter.mp h
    refine ⟨start, stop, cls, rfl, ?_, of_decide_eq_true hup⟩
    have hmem := List.mem_range'_1.mp hrange
    have hlt := (tierInUse_tier htier).1.lt
    omega

/-- A route that stays in use when others became unusable keeps its priority and its class. -/
theorem tierInUse_of_kept (hdown : ∀ x ∈ xs, usable' x = usable x ∨ usable' x = .no)
    {start stop i : ℕ} {cls : Usable}
    (htier : tierInUse priority usable xs = some (start, stop, cls))
    (hi : i ∈ routesInUse priority usable xs) (hi' : i ∈ routesInUse priority usable' xs) :
    tierInUse priority usable' xs = some (start, stop, cls) := by
  obtain ⟨start₁, stop₁, cls₁, htier₁, hrange, hcls⟩ := mem_routesInUse hi
  obtain ⟨rfl, rfl, rfl⟩ : start = start₁ ∧ stop = stop₁ ∧ cls = cls₁ := by
    simpa using htier.symm.trans htier₁
  obtain ⟨start', stop', cls', htier', hrange', hcls'⟩ := mem_routesInUse hi'
  obtain ⟨rfl, rfl⟩ := (tierInUse_tier htier).1.unique (tierInUse_tier htier').1 hrange hrange'
  have hsame : cls' = cls := by
    cases hx : xs[i]? with
    | none =>
      rw [hx] at hcls
      cases hcls
    | some x =>
      rw [hx] at hcls hcls'
      obtain rfl := Option.some.inj hcls
      obtain rfl := Option.some.inj hcls'
      rcases hdown x (List.mem_of_getElem? hx) with heq | hno
      · exact heq
      · exact absurd hno (tierInUse_ne_no priority usable' htier')
  rw [htier', hsame]

theorem chooseRoute_keeps_iff (hdown : ∀ x ∈ xs, usable' x = usable x ∨ usable' x = .no)
    {start stop sls i : ℕ} {cls : Usable}
    (htier : tierInUse priority usable xs = some (start, stop, cls))
    (h : chooseRoute priority usable xs sls = some i) (hi : i ∈ routesInUse priority usable' xs) :
    chooseRoute priority usable' xs sls = some i ↔ RouteKept usable' xs start stop cls sls i := by
  have htier' := tierInUse_of_kept hdown htier (chooseRoute_mem h) hi
  obtain ⟨hrange, hup⟩ := List.mem_filter.mp (routesInUse_eq htier' ▸ hi)
  have hfewer : ∀ j ∈ List.range' start (stop - start),
      ofClass usable' xs cls j = true → ofClass usable xs cls j = true := by
    intro j _ hj
    have hcls : xs[j]?.map usable' = some cls := of_decide_eq_true hj
    apply decide_eq_true
    cases hx : xs[j]? with
    | none =>
      rw [hx] at hcls
      cases hcls
    | some x =>
      rw [hx] at hcls
      have hxcls : usable' x = cls := Option.some.inj hcls
      rcases hdown x (List.mem_of_getElem? hx) with heq | hno
      · exact congrArg some (heq.symm.trans hxcls)
      · exact absurd (hxcls.symm.trans hno) (tierInUse_ne_no priority usable htier)
  rw [chooseRoute_eq_pick htier] at h
  rw [chooseRoute_eq_pick htier', pick_keeps_iff hfewer h hup, List.length_range']
  have hlt := (tierInUse_tier htier).1.lt
  have hmem := List.mem_range'_1.mp hrange
  have hat (j : ℕ) :
      (List.range' start (stop - start))[j]? = some i ↔ j = i - start := by
    rw [List.getElem?_eq_some_iff]
    simp only [List.length_range', List.getElem_range', Nat.one_mul]
    constructor
    · rintro ⟨-, hj⟩
      omega
    · rintro rfl
      exact ⟨by omega, by omega⟩
  have hahead : (List.range' start (stop - start)).take (i - start) =
      List.range' start (i - start) := by
    have hsplit : List.range' start (stop - start) =
        List.range' start (i - start) ++ List.range' i (stop - i) := by
      have happend : List.range' start (i - start) ++ List.range' (start + (i - start)) (stop - i) =
          List.range' start (i - start + (stop - i)) := List.range'_append_1
      rwa [show start + (i - start) = i by omega,
        show i - start + (stop - i) = stop - start by omega,
        eq_comm] at happend
    rw [hsplit]
    exact List.take_left' List.length_range'
  simp only [hat, exists_eq_left, hahead]
  apply or_congr
  · omega
  · rfl

end Routes

section Links

variable {n : Network} {s s' : Relay} {linkset : String} {l : Routing.Linkset} {sls : ℕ}
    {link : String}

/-- The bits of a code that the choice of the linkset leaves for the choice of the link. -/
def linkKey (n : Network) (linkset : String) (sls : ℕ) : ℕ :=
  sls / max (n.shareWidth (.linkset linkset)) 1

/-- A key on the link stays there when the links are down to those that are routable: it is the
normal link of the key, or as many are left ahead of it as the remainder of the key by the number
left. -/
def LinkKept (links : List String) (routable : String → Bool) (key : ℕ) (link : String) : Prop :=
  links[key % links.length]? = some link ∨
    ∃ j, links[j]? = some link ∧
      key % (links.filter routable).length = ((links.take j).filter routable).length

theorem selectLinkAvoiding_eq_pick (hl : n.linkset linkset = some l) :
    s.selectLinkAvoiding n linkset sls none =
      pick l.links s.around.routable (linkKey n linkset sls) := by
  unfold Relay.selectLinkAvoiding
  rw [hl]
  simp only [ne_eq, reduceCtorEq, not_false_eq_true, decide_true, Bool.true_and]
  by_cases hlinks : l.links = []
  · rw [if_pos hlinks, hlinks]
    rfl
  · unfold pick
    have hlt : linkKey n linkset sls % l.links.length < l.links.length :=
      Nat.mod_lt _ (List.length_pos_iff.mpr hlinks)
    rw [if_neg hlinks, List.getElem?_eq_getElem hlt]
    have hnormal : l.links.getD (linkKey n linkset sls % l.links.length) "" =
        l.links[linkKey n linkset sls % l.links.length] := by
      rw [List.getD_eq_getElem?_getD, List.getElem?_eq_getElem hlt]
      rfl
    unfold linkKey at hnormal ⊢
    rw [hnormal]
    dsimp only
    split_ifs with hup hleft
    · rfl
    · rw [hleft]
      rfl
    · rfl

theorem selectLink_keeps_iff (hl : n.linkset linkset = some l)
    (hdown : ∀ x ∈ l.links, s'.around.routable x = true → s.around.routable x = true)
    (h : s.selectLinkAvoiding n linkset sls none = some link)
    (hup : s'.around.routable link = true) :
    s'.selectLinkAvoiding n linkset sls none = some link ↔
      LinkKept l.links s'.around.routable (linkKey n linkset sls) link := by
  rw [selectLinkAvoiding_eq_pick hl] at h ⊢
  exact pick_keeps_iff hdown h hup

end Links

/-- A code has a route as soon as one is in use, and it is one of those in use, of which everyone
that has a code for its offset carries it. When routes of a destination or links of a linkset fail,
a code whose own stayed up keeps it exactly if `RouteKept` or `LinkKept`. -/
theorem codes_stay_iff {α : Type*} (priority : α → ℕ) (usable : α → Usable) (xs : List α) (sls : ℕ)
    (n : Network) (s : Relay) (linkset : String) :
    ((chooseRoute priority usable xs sls).isSome = true ↔
      routesInUse priority usable xs ≠ []) ∧
    (∀ i, chooseRoute priority usable xs sls = some i → i ∈ routesInUse priority usable xs) ∧
    (∀ start stop cls, tierInUse priority usable xs = some (start, stop, cls) →
      ∀ k < 256, start + k ∈ routesInUse priority usable xs →
        chooseRoute priority usable xs k = some (start + k)) ∧
    (∀ usable' : α → Usable, (∀ x ∈ xs, usable' x = usable x ∨ usable' x = .no) →
      ∀ start stop cls, tierInUse priority usable xs = some (start, stop, cls) →
        ∀ i, chooseRoute priority usable xs sls = some i →
          i ∈ routesInUse priority usable' xs →
            (chooseRoute priority usable' xs sls = some i ↔
              RouteKept usable' xs start stop cls sls i)) ∧
    (∀ s' : Relay, ∀ l, n.linkset linkset = some l →
      (∀ x ∈ l.links, s'.around.routable x = true → s.around.routable x = true) →
        ∀ link, s.selectLinkAvoiding n linkset sls none = some link →
          s'.around.routable link = true →
            (s'.selectLinkAvoiding n linkset sls none = some link ↔
              LinkKept l.links s'.around.routable (linkKey n linkset sls) link)) := by
  refine ⟨chooseRoute_isSome_iff, fun i => chooseRoute_mem, ?_, ?_, ?_⟩
  · intro start stop cls htier k _ hk
    exact chooseRoute_offset htier hk
  · intro usable' hdown start stop cls htier i h hi
    exact chooseRoute_keeps_iff hdown htier h hi
  · intro s' l hl hdown link h hup
    exact selectLink_keeps_iff hl hdown h hup

/-- Four routes of one priority of which those in `down` are not usable. -/
def fourRoutes (down : List ℕ) (route : ℕ) : Usable :=
  if route ∈ down then .no else .yes

/-- A linkset of four links. -/
def fourLinks : Network where
  associations := []
  servers := []
  linksets := [⟨"west", ["a", "b", "c", "d"]⟩]
  pendingLimit := fun _ => 0
  resolver := .build .itu [⟨"west", ["a", "b", "c", "d"]⟩] [⟨3000, none, some "west", 1⟩] []
  names := by decide

/-- A domain of which the links in `down` are not routable. -/
def withoutLinks (down : List String) : Relay :=
  let s := Relay.new (.ofConfig ⟨[], ∅⟩) 0
  { s with around := { s.around with routable := fun link => link ∉ down } }

/-- Code 4, displaced to the third route and the third link, stays there in the next failure. -/
theorem codes_stay_of_second_failure :
    chooseRoute (fun _ => 1) (fourRoutes [0, 1]) [0, 1, 2, 3] 4 = some 2 ∧
      (withoutLinks ["a", "b"]).selectLinkAvoiding fourLinks "west" 4 none = some "c" := by
  obtain ⟨-, -, -, hroutes, hlinks⟩ := codes_stay_iff (fun _ => 1) (fourRoutes [0]) [0, 1, 2, 3] 4
    fourLinks (withoutLinks ["a"]) "west"
  constructor
  · apply (hroutes (fourRoutes [0, 1]) (by decide +kernel) 0 4 .yes (by decide +kernel) 2
      (by decide +kernel) (by decide +kernel)).mpr
    exact .inr (by decide +kernel)
  · apply (hlinks (withoutLinks ["a", "b"]) ⟨"west", ["a", "b", "c", "d"]⟩ rfl (by decide +kernel)
      "c" (by decide +kernel) (by decide +kernel)).mpr
    exact .inr ⟨2, rfl, by decide +kernel⟩

/-- Code 8, displaced to the fourth route and the fourth link, leaves them when the second ones
fail, although its own stay up. -/
theorem codes_move :
    (¬ ∀ (priority : ℕ → ℕ) (usable usable' : ℕ → Usable) (xs : List ℕ) (sls i : ℕ),
      xs.Pairwise (fun x y => priority x ≤ priority y) → sls < 256 →
        (∀ x ∈ xs, usable' x = usable x ∨ usable' x = .no) →
          chooseRoute priority usable xs sls = some i →
            i ∈ routesInUse priority usable' xs →
              chooseRoute priority usable' xs sls = some i) ∧
    ¬ ∀ (n : Network) (s s' : Relay) (linkset : String) (l : Routing.Linkset) (sls : ℕ)
      (link : String), n.linkset linkset = some l → sls < 256 →
        (∀ x ∈ l.links, s'.around.routable x = true → s.around.routable x = true) →
          s.selectLinkAvoiding n linkset sls none = some link →
            s'.around.routable link = true →
              s'.selectLinkAvoiding n linkset sls none = some link := by
  constructor
  · intro h
    have hkept := h (fun _ => 1) (fourRoutes [0]) (fourRoutes [0, 1]) [0, 1, 2, 3] 8 3
      (by decide +kernel) (by decide) (by decide +kernel) (by decide +kernel) (by decide +kernel)
    exact absurd hkept (by decide +kernel)
  · intro h
    have hkept := h fourLinks (withoutLinks ["a"]) (withoutLinks ["a", "b"]) "west"
      ⟨"west", ["a", "b", "c", "d"]⟩ 8 "d" rfl (by decide) (by decide +kernel) (by decide +kernel)
      (by decide +kernel)
    exact absurd hkept (by decide +kernel)

end SiphonSigtran.Transport
