import SiphonSigtran.Mtp3.Held

/-!
# Every procedure that waits has its timer running

A route that is not allowed is under test until it is, a destination is held until T6 runs out, the
far end is asked about a link it inhibits, and so on: what the watcher knows of each of these timers
is what management says that it waits for. Only the expiry of its own timer ends a wait without
stopping the timer.
-/

namespace SiphonSigtran.Mtp3

open Lib Management

variable {G : Guard}

/-- Some route through the linkset is not allowed. -/
def UnderTest (routes : List RouteState) (L : LinksetId) : Prop :=
  ∃ r ∈ routes, r.via = .linkset L ∧ r.status ≠ .allowed

/-- What a timer of route and link management waits for. -/
def Timer.Awaited (m : Management) : Timer → Prop
  | .routeSetTest d L => UnderTest (m.destinations d).routes L
  | .rerouting d => (m.destinations d).holding = true
  | .prohibited d => d ∈ m.guarded
  | .inhibitTest l => (m.links l).remoteInhibited = true
  | .uninhibit l => (m.links l).uninhibitAttempts ≠ 0
  | .forceUninhibit l => (m.links l).forceAttempts ≠ 0
  | .adjacentRestart L => (m.linksets L).restarting = true
  | .restartAllowed L => (m.linksets L).guarded = true
  | .restart | .restartOverall => m.restarting = true
  | .changeover _ | .changeback _ | .isolation => False

/-- A timer of route and link management, of what there is in the domain. -/
def Timer.managed (t : Topology) : Timer → Bool
  | .routeSetTest _ L | .adjacentRestart L | .restartAllowed L => L < t.linksets.length
  | .inhibitTest l | .uninhibit l | .forceUninhibit l => l < t.links.length
  | .rerouting _ | .prohibited _ | .restart | .restartOverall => true
  | .changeover _ | .changeback _ | .isolation => false

/-! ## What actions do to one timer -/

def runs (t : Timer) (on : Bool) : Action → Bool
  | .start timer _ => timer = t || on
  | .stop timer => timer ≠ t && on
  | _ => on

theorem runs_of_unset {t : Timer} {a : Action} (h : a.sets t = false) (on : Bool) :
    runs t on a = on := by
  cases a with
  | start timer | stop timer =>
    have hne : timer ≠ t := by simpa [Action.sets] using h
    simp [runs, hne]
  | _ => rfl

theorem runs_foldl_of_unset {t : Timer} {xs : List Action} (h : ∀ a ∈ xs, a.sets t = false)
    (on : Bool) : xs.foldl (runs t) on = on := by
  induction xs generalizing on with
  | nil => rfl
  | cons a xs ih =>
    rw [List.foldl_cons, runs_of_unset (h a (by simp))]
    exact ih (fun b hb => h b (by simp [hb])) on

theorem running_notes (w : Watch) (xs : List Action) (t : Timer) :
    (w.notes xs).running t = xs.foldl (runs t) (w.running t) := by
  induction xs generalizing w with
  | nil => rfl
  | cons a xs ih =>
    have ha : (w.note a).running t = runs t (w.running t) a := by
      cases a with
      | start timer =>
        by_cases h : t = timer
        · simp [Watch.note, runs, h]
        · simp [Watch.note, runs, h, Ne.symm h]
      | stop timer =>
        by_cases h : t = timer
        · simp [Watch.note, runs, h]
        · simp [Watch.note, runs, h, Ne.symm h]
      | _ => rfl
    rw [Watch.notes_cons, ih, ha, List.foldl_cons]

/-- Stopping a timer among others, without starting it. -/
theorem runs_foldl_of_stopped {t : Timer} {xs : List Action} (hstop : Action.stop t ∈ xs)
    (hstart : ∀ after, Action.start t after ∉ xs) (on : Bool) : xs.foldl (runs t) on = false := by
  induction xs generalizing on with
  | nil => cases hstop
  | cons a xs ih =>
    have hrest : ∀ after, Action.start t after ∉ xs := fun after h =>
      hstart after (List.mem_cons_of_mem a h)
    rw [List.foldl_cons]
    by_cases hlater : Action.stop t ∈ xs
    · exact ih hlater hrest _
    · have ha : a = .stop t := by
        rcases List.mem_cons.mp hstop with h | h
        · exact h.symm
        · exact absurd h hlater
      have hunset : ∀ b ∈ xs, b.sets t = false := by
        intro b hb
        cases b with
        | start timer after =>
          have hne : timer ≠ t := by
            rintro rfl
            exact hrest after hb
          simpa [Action.sets] using hne
        | stop timer =>
          have hne : timer ≠ t := by
            rintro rfl
            exact hlater hb
          simpa [Action.sets] using hne
        | _ => rfl
      rw [runs_foldl_of_unset hunset, ha]
      simp [runs]

theorem Action.sets_of_plain {a : Action} (h : a.plain = true) (t : Timer) : a.sets t = false := by
  cases a with
  | start | stop => simp [Action.plain] at h
  | _ => rfl

theorem unset_of_marks {dpc : ℕ} {xs : List Action}
    (h : ∀ a ∈ xs, ∃ L status, a = Action.route dpc L status) (t : Timer) :
    ∀ a ∈ xs, a.sets t = false := by
  intro a ha
  obtain ⟨L, status, rfl⟩ := h a ha
  rfl

/-! ## The routes of a destination -/

/-- Of the routes through a linkset only the first is ever marked. -/
def FirstMarked (routes : List RouteState) : Prop :=
  ∀ L i r, routes[i]? = some r → r.via = .linkset L → r.status ≠ .allowed →
    routes.findIdx? (fun r => r.via = .linkset L) = some i

theorem findIdx?_via (routes : List RouteState) (L : LinksetId) :
    routes.findIdx? (fun r => r.via = .linkset L) =
      (routes.map RouteState.via).findIdx? fun via => via = .linkset L := by
  rw [List.findIdx?_map]
  rfl

section

variable {routes : List RouteState} {L : LinksetId} {position : ℕ} {status : RouteStatus}

theorem getElem?_setStatus (routes : List RouteState) (position : ℕ) (status : RouteStatus)
    (i : ℕ) : (routes.modify position fun r => { r with status := status })[i]? =
      if position = i then routes[i]?.map fun r => { r with status := status } else routes[i]? := by
  rw [List.getElem?_modify]
  split_ifs <;> simp

theorem FirstMarked.setStatus (h : FirstMarked routes)
    (hp : routes.findIdx? (fun r => r.via = .linkset L) = some position) :
    FirstMarked (routes.modify position fun r => { r with status := status }) := by
  intro K i r hr hvia hs
  rw [findIdx?_via, map_via_setStatus, ← findIdx?_via]
  rw [getElem?_setStatus] at hr
  split_ifs at hr with hi
  · subst hi
    obtain ⟨r₀, hr₀, rfl⟩ := Option.map_eq_some_iff.mp hr
    obtain ⟨hlt, hat, -⟩ := List.findIdx?_eq_some_iff_getElem.mp hp
    have hsame : r₀.via = .linkset L := by
      obtain ⟨-, rfl⟩ := List.getElem?_eq_some_iff.mp hr₀
      simpa using hat
    obtain rfl : K = L := by
      have hboth : Via.linkset K = .linkset L := hvia.symm.trans hsame
      exact Via.linkset.inj hboth
    exact hp
  · exact h K i r hr hvia hs

/-- The mark of the first route through a linkset says whether one is to be tested. -/
theorem underTest_setStatus (h : FirstMarked routes)
    (hp : routes.findIdx? (fun r => r.via = .linkset L) = some position) (K : LinksetId) :
    UnderTest (routes.modify position fun r => { r with status := status }) K ↔
      if K = L then status ≠ .allowed else UnderTest routes K := by
  obtain ⟨hlt, hat, -⟩ := List.findIdx?_eq_some_iff_getElem.mp hp
  have hfirst : routes[position]? = some routes[position] := List.getElem?_eq_getElem hlt
  have hvia : routes[position].via = .linkset L := by simpa using hat
  constructor
  · rintro ⟨r, hr, hrvia, hs⟩
    obtain ⟨i, hi⟩ := List.mem_iff_getElem?.mp hr
    rw [getElem?_setStatus] at hi
    split_ifs at hi with hpos
    · subst hpos
      rw [hfirst] at hi
      obtain rfl := Option.some.inj hi
      have hK : K = L := Via.linkset.inj (hrvia.symm.trans hvia)
      rw [if_pos hK]
      exact hs
    · split_ifs with hK
      · subst hK
        exact absurd (Option.some.inj (hp.symm.trans (h K i r hi hrvia hs))) hpos
      · exact ⟨r, List.mem_of_getElem? hi, hrvia, hs⟩
  · intro hunder
    split_ifs at hunder with hK
    · subst hK
      refine ⟨{ routes[position] with status := status }, ?_, hvia, hunder⟩
      apply List.mem_of_getElem? (i := position)
      rw [getElem?_setStatus, if_pos rfl, hfirst]
      rfl
    · obtain ⟨r, hr, hrvia, hs⟩ := hunder
      obtain ⟨i, hi⟩ := List.mem_iff_getElem?.mp hr
      have hpos : position ≠ i := by
        rintro rfl
        obtain rfl := Option.some.inj (hfirst.symm.trans hi)
        exact hK (Via.linkset.inj (hrvia.symm.trans hvia))
      refine ⟨r, List.mem_of_getElem? (i := i) ?_, hrvia, hs⟩
      rw [getElem?_setStatus, if_neg hpos]
      exact hi

/-- The status that the expiry of the test timer reads is that of the route under test. -/
theorem find?_of_underTest (h : FirstMarked routes) (hu : UnderTest routes L) :
    ∃ r, routes.find? (fun r => r.via = .linkset L) = some r ∧ r.status ≠ .allowed := by
  obtain ⟨r, hr, hvia, hs⟩ := hu
  obtain ⟨i, hi⟩ := List.mem_iff_getElem?.mp hr
  obtain ⟨hlt, hat, hbefore⟩ := List.findIdx?_eq_some_iff_getElem.mp (h L i r hi hvia hs)
  refine ⟨r, List.find?_eq_some_iff_getElem.mpr ⟨by simpa using hvia, i, hlt, ?_, ?_⟩, hs⟩
  · exact (List.getElem?_eq_some_iff.mp hi).2
  · intro j hj
    simpa using hbefore j hj

theorem FirstMarked.allow (h : FirstMarked routes) (L : LinksetId) :
    FirstMarked (routes.map fun r : RouteState =>
      if r.via = Via.linkset L then { r with status := .allowed } else r) := by
  have hvias : (routes.map fun r : RouteState =>
      if r.via = Via.linkset L then { r with status := .allowed } else r).map RouteState.via =
        routes.map RouteState.via := by
    rw [List.map_map]
    refine List.map_congr_left fun r _ => ?_
    simp only [Function.comp_apply]
    split_ifs <;> rfl
  intro K i r hr hvia hs
  rw [findIdx?_via, hvias, ← findIdx?_via]
  rw [List.getElem?_map] at hr
  obtain ⟨r₀, hr₀, rfl⟩ := Option.map_eq_some_iff.mp hr
  split_ifs at hvia hs with hL
  · exact absurd rfl hs
  · exact h K i r₀ hr₀ hvia hs

theorem underTest_allow (routes : List RouteState) (L K : LinksetId) :
    UnderTest (routes.map fun r : RouteState =>
      if r.via = Via.linkset L then { r with status := .allowed } else r) K ↔
      K ≠ L ∧ UnderTest routes K := by
  constructor
  · rintro ⟨r, hr, hvia, hs⟩
    obtain ⟨r₀, hr₀, rfl⟩ := List.mem_map.mp hr
    split_ifs at hvia hs with hL
    · exact absurd rfl hs
    · refine ⟨?_, r₀, hr₀, hvia, hs⟩
      rintro rfl
      exact hL hvia
  · rintro ⟨hK, r, hr, hvia, hs⟩
    refine ⟨r, List.mem_map.mpr ⟨r, hr, ?_⟩, hvia, hs⟩
    rw [if_neg]
    rw [hvia]
    exact fun h => hK (Via.linkset.inj h)

end

/-- A destination that is not configured has no mark and is not held, and of the routes through a
linkset only the first is marked. -/
structure Formed (m : Management) : Prop where
  unmarked : ∀ d ∉ m.topology.dpcs, ∀ L, ¬UnderTest (m.destinations d).routes L
  unheld : ∀ d ∉ m.topology.dpcs, (m.destinations d).holding = false
  first : ∀ d, FirstMarked (m.destinations d).routes

theorem Formed.same {m m' : Management} (hf : Formed m) (ht : m'.topology = m.topology)
    (hr : ∀ d, (m'.destinations d).routes = (m.destinations d).routes)
    (hh : ∀ d, d ∉ m.topology.dpcs → (m'.destinations d).holding = (m.destinations d).holding) :
    Formed m' where
  unmarked d hd := by
    rw [hr]
    exact hf.unmarked d (ht ▸ hd)
  unheld d hd := by
    have hd' : d ∉ m.topology.dpcs := ht ▸ hd
    rw [hh d hd']
    exact hf.unheld d hd'
  first d := by
    rw [hr]
    exact hf.first d

theorem Move.formed {P P' : Set Subject} {m m' : Management} (h : Move G P m P' m')
    (hf : Formed m) : Formed m' := by
  cases h with
  | mark d L status position d' outs hg hd hp hs h =>
    have hat : ∀ e, e ≠ d → ((m.setDestination d fun _ => d').extend
        (testTimer m d L status :: outs)).destinations e = m.destinations e := fun e he => by
      rw [extend_destinations, setDestination_ne m _ he]
    constructor
    · intro e he
      have hne : e ≠ d := fun heq => he (heq ▸ hd)
      rw [hat e hne]
      exact hf.unmarked e he
    · intro e he
      have hne : e ≠ d := fun heq => he (heq ▸ hd)
      rw [hat e hne]
      exact hf.unheld e he
    · intro e
      by_cases he : e = d
      · subst he
        rw [extend_destinations, setDestination_self, h.routes]
        exact (hf.first e).setStatus hp
      · rw [hat e he]
        exact hf.first e
  | allow L =>
    constructor
    · intro d hd K hu
      exact hf.unmarked d hd K ((underTest_allow _ L K).mp hu).2
    · exact hf.unheld
    · intro d
      exact (hf.first d).allow L
  | release d hd =>
    refine hf.same rfl (fun e => ?_) fun e he => ?_
    · by_cases hed : e = d <;> simp [extend, setDestination, hed]
    · have hne : e ≠ d := fun heq => he (heq ▸ hd)
      rw [extend_destinations, setDestination_ne m _ hne]
  | unmarked d | paused d | accessible d | restricted d | told L adjacent d =>
    refine hf.same rfl (fun e => ?_) fun e _ => ?_
    · by_cases he : e = d <;> simp [push, extend, setDestination, he]
    · by_cases he : e = d <;> simp [push, extend, setDestination, he]
  | _ => exact hf.same rfl (fun _ => rfl) fun _ _ => rfl

theorem formed_new (topology : Topology) (timers : Timers) (tfp : Bool) :
    Formed (new topology timers tfp) := by
  have hallowed : ∀ d, ∀ r ∈ ((new topology timers tfp).destinations d).routes,
      r.status = .allowed := by
    intro d r hr
    obtain ⟨spec, -, rfl⟩ := List.mem_map.mp hr
    rfl
  constructor
  · rintro d - L ⟨r, hr, -, hs⟩
    exact hs (hallowed d r hr)
  · intro d _
    rfl
  · intro d L i r hr _ hs
    exact absurd (hallowed d r (List.mem_of_getElem? hr)) hs

/-! ## Every move -/

/-- After the actions a timer runs as long as something waits for it, if it did before them. -/
def Follows (t : Timer) (xs : List Action) (p q : Prop) : Prop :=
  ∀ on, (on = true ↔ p) → (xs.foldl (runs t) on = true ↔ q)

theorem Follows.of_unset {t : Timer} {xs : List Action} {p q : Prop}
    (h : ∀ a ∈ xs, a.sets t = false) (hq : q ↔ p) : Follows t xs p q := by
  intro on hp
  rw [runs_foldl_of_unset h, hp, hq]

theorem Follows.of_last {t : Timer} {xs ys : List Action} {a : Action} {p q : Prop}
    (h : ∀ b ∈ ys, b.sets t = false) (hq : ∀ on, runs t on a = true ↔ q) :
    Follows t (xs ++ a :: ys) p q := by
  intro on _
  rw [List.foldl_append, List.foldl_cons, runs_foldl_of_unset h]
  exact hq _

theorem Follows.of_start {t : Timer} {xs ys : List Action} {p q : Prop} {after : ℕ}
    (h : ∀ b ∈ ys, b.sets t = false) (hq : q) : Follows t (xs ++ .start t after :: ys) p q := by
  apply Follows.of_last h
  intro on
  simp [runs, hq]

theorem Follows.of_stop {t : Timer} {xs ys : List Action} {p q : Prop}
    (h : ∀ b ∈ ys, b.sets t = false) (hq : ¬q) : Follows t (xs ++ .stop t :: ys) p q := by
  apply Follows.of_last h
  intro on
  simp [runs, hq]

section

variable {m : Management} {l : LinkId} {s s' : LinkState} {outs : List Action} {P P' : Set Subject}

/-- Only the timers of changeover and changeback go with the failure of a link. -/
theorem unset_of_failed {t : Timer} {sends : List Action} {after : ℕ}
    (hs : ∀ a ∈ sends, a.plain = true) (ho : Timer.changeover l ≠ t) (hb : Timer.changeback l ≠ t) :
    ∀ a ∈ [.stop (.changeback l), .hold l] ++ sends ++ [.start (.changeover l) after],
      a.sets t = false := by
  intro a ha
  simp only [List.cons_append, List.nil_append, List.mem_cons, List.mem_append,
    List.not_mem_nil, or_false] at ha
  rcases ha with rfl | rfl | ha | rfl
  · simpa [Action.sets] using hb
  · rfl
  · exact Action.sets_of_plain (hs a ha) t
  · simpa [Action.sets] using ho

theorem unset_of_redirected {t : Timer} {sends : List Action} {after : ℕ}
    (hs : ∀ a ∈ sends, a.plain = true) (hb : Timer.changeback l ≠ t) :
    ∀ a ∈ .hold l :: (sends ++ [.start (.changeback l) after]), a.sets t = false := by
  intro a ha
  simp only [List.mem_cons, List.mem_append, List.not_mem_nil, or_false] at ha
  rcases ha with rfl | ha | rfl
  · rfl
  · exact Action.sets_of_plain (hs a ha) t
  · simpa [Action.sets] using hb

theorem LinkMove.inhibit_test (h : LinkMove G m l s s' outs P P') :
    Follows (.inhibitTest l) outs (s.remoteInhibited = true) (s'.remoteInhibited = true) := by
  cases h with
  | inhibited | inhibitedIdle | uninhibited | released =>
    intro on _
    simp [runs]
  | tested hi =>
    intro on _
    simp [runs, hi]
  | failed bsnt phase sends after h hp hs =>
    exact Follows.of_unset (unset_of_failed hs (by simp) (by simp)) Iff.rfl
  | redirected declared sends hl hr h hs =>
    exact Follows.of_unset (unset_of_redirected hs (by simp)) Iff.rfl
  | _ =>
    apply Follows.of_unset
    · simp [Action.sets]
    · rfl

theorem LinkMove.uninhibit (h : LinkMove G m l s s' outs P P')
    (he : ¬G.expire (.uninhibit l)) :
    Follows (.uninhibit l) outs (s.uninhibitAttempts ≠ 0) (s'.uninhibitAttempts ≠ 0) := by
  cases h with
  | uninhibiting | uninhibitAnswered =>
    intro on _
    simp [runs]
  | uninhibitAbandoned hexpire => exact absurd hexpire he
  | failed bsnt phase sends after h hp hs =>
    exact Follows.of_unset (unset_of_failed hs (by simp) (by simp)) Iff.rfl
  | redirected declared sends hl hr h hs =>
    exact Follows.of_unset (unset_of_redirected hs (by simp)) Iff.rfl
  | _ =>
    apply Follows.of_unset
    · simp [Action.sets]
    · rfl

theorem LinkMove.force_uninhibit (h : LinkMove G m l s s' outs P P')
    (he : ¬G.expire (.forceUninhibit l)) :
    Follows (.forceUninhibit l) outs (s.forceAttempts ≠ 0) (s'.forceAttempts ≠ 0) := by
  cases h with
  | forcing | forceAnswered =>
    intro on _
    simp [runs]
  | forceAbandoned hexpire => exact absurd hexpire he
  | failed bsnt phase sends after h hp hs =>
    exact Follows.of_unset (unset_of_failed hs (by simp) (by simp)) Iff.rfl
  | redirected declared sends hl hr h hs =>
    exact Follows.of_unset (unset_of_redirected hs (by simp)) Iff.rfl
  | _ =>
    apply Follows.of_unset
    · simp [Action.sets]
    · rfl

end

section

variable {timers : Timers} {dpc : ℕ} {L : LinksetId} {status : RouteStatus}
  {d d' : DestinationState} {outs : List Action}

/-- A mark sets no other timer than that of controlled rerouting. -/
theorem MarkMove.unset (h : MarkMove timers dpc L status d d' outs)
    (hd : ∀ a ∈ d.deferred, ∃ L status, a = Action.route dpc L status) {t : Timer}
    (ht : Timer.rerouting dpc ≠ t) : ∀ a ∈ outs, a.sets t = false := by
  cases h with
  | marked | deferred => simp [Action.sets]
  | held => simp [Action.sets, ht]
  | forced =>
    intro a ha
    rcases List.mem_append.mp ha with ha | ha
    · exact unset_of_marks hd t a ha
    · obtain rfl := List.mem_singleton.mp ha
      rfl
  | released =>
    intro a ha
    simp only [List.mem_append, List.mem_cons, List.not_mem_nil, or_false] at ha
    rcases ha with (ha | rfl) | rfl | rfl
    · exact unset_of_marks hd t a ha
    · rfl
    · simpa [Action.sets] using ht
    · rfl

theorem MarkMove.rerouting (h : MarkMove timers dpc L status d d' outs)
    (hd : ∀ a ∈ d.deferred, ∃ L status, a = Action.route dpc L status) :
    Follows (.rerouting dpc) outs (d.holding = true) (d'.holding = true) := by
  cases h with
  | marked | deferred =>
    apply Follows.of_unset
    · simp [Action.sets]
    · rfl
  | held =>
    intro on _
    simp [runs]
  | forced =>
    apply Follows.of_unset
    · intro a ha
      rcases List.mem_append.mp ha with ha | ha
      · exact unset_of_marks hd _ a ha
      · obtain rfl := List.mem_singleton.mp ha
        rfl
    · rfl
  | released =>
    apply Follows.of_stop
    · simp [Action.sets]
    · simp

end

theorem mark_follows {m : Management} {dpc : ℕ} {L : LinksetId} {status : RouteStatus}
    {position : ℕ} {d' : DestinationState} {outs : List Action} (hm : Marked m) (hf : Formed m)
    (hp : (m.destinations dpc).routes.findIdx? (fun r => r.via = .linkset L) = some position)
    (h : MarkMove m.timers dpc L status ((m.destinations dpc).setStatus position status) d' outs)
    {t : Timer} :
    Follows t (testTimer m dpc L status :: outs) (t.Awaited m)
      (t.Awaited ((m.setDestination dpc fun _ => d').extend
        (testTimer m dpc L status :: outs))) := by
  have hdeferred : ∀ a ∈ ((m.destinations dpc).setStatus position status).deferred,
      ∃ L status, a = Action.route dpc L status := hm dpc
  have htest : ∀ t, Timer.routeSetTest dpc L ≠ t →
      (testTimer m dpc L status).sets t = false := by
    intro t ht
    unfold testTimer
    split_ifs <;> simpa [Action.sets] using ht
  have hother : Timer.routeSetTest dpc L ≠ t → Timer.rerouting dpc ≠ t →
      ∀ a ∈ testTimer m dpc L status :: outs, a.sets t = false := by
    intro hne hne' a ha
    rcases List.mem_cons.mp ha with rfl | ha
    · exact htest t hne
    · exact h.unset hdeferred hne' a ha
  cases t with
  | routeSetTest e K =>
    by_cases he : e = dpc
    · subst he
      have hunder : (Timer.routeSetTest e K).Awaited
          ((m.setDestination e fun _ => d').extend (testTimer m e L status :: outs)) ↔
          if K = L then status ≠ .allowed else UnderTest (m.destinations e).routes K := by
        simp only [Timer.Awaited, extend_destinations, setDestination_self, h.routes]
        exact underTest_setStatus (hf.first e) hp K
      by_cases hK : K = L
      · subst hK
        rw [if_pos rfl] at hunder
        have hrest := h.unset hdeferred (t := .routeSetTest e K) (by simp)
        intro on _
        rw [List.foldl_cons, runs_foldl_of_unset hrest, hunder]
        unfold testTimer
        split_ifs with hs <;> simp [runs, hs]
      · rw [if_neg hK] at hunder
        exact Follows.of_unset (hother (by simp [Ne.symm hK]) (by simp)) hunder
    · apply Follows.of_unset (hother (by simp [Ne.symm he]) (by simp))
      simp only [Timer.Awaited, extend_destinations, setDestination_ne m _ he]
  | rerouting e =>
    by_cases he : e = dpc
    · subst he
      intro on hon
      rw [List.foldl_cons, runs_of_unset (htest _ (by simp))]
      simp only [Timer.Awaited, extend_destinations, setDestination_self]
      exact h.rerouting hdeferred on hon
    · apply Follows.of_unset (hother (by simp) (by simp [Ne.symm he]))
      simp only [Timer.Awaited, extend_destinations, setDestination_ne m _ he]
  | _ => exact Follows.of_unset (hother (by simp) (by simp)) Iff.rfl

theorem unset_of_allowed {ds : List ℕ} {L : LinksetId} {t : Timer}
    (h : ∀ d ∈ ds, Timer.routeSetTest d L ≠ t) :
    ∀ a ∈ ds.flatMap fun dpc => [Action.stop (.routeSetTest dpc L), .route dpc L .allowed],
      a.sets t = false := by
  intro a ha
  obtain ⟨d, hd, ha⟩ := List.mem_flatMap.mp ha
  simp only [List.mem_cons, List.not_mem_nil, or_false] at ha
  rcases ha with rfl | rfl
  · simpa [Action.sets] using h d hd
  · rfl

/-- Allowing the routes through a linkset stops the tests of those that were not allowed. -/
theorem allow_follows {m : Management} (hf : Formed m) (L : LinksetId) (t : Timer) :
    ∃ xs, (m.allowRoutesThrough L).out = m.out ++ xs.map .act ∧
      Follows t xs (t.Awaited m) (t.Awaited (m.allowRoutesThrough L)) := by
  have hcleared : ∀ d, d ∈ (m.topology.dpcs.flatMap fun dpc =>
      (m.destinations dpc).routes.filterMap fun r =>
        if r.via = .linkset L ∧ r.status ≠ .allowed then some dpc else none) ↔
      UnderTest (m.destinations d).routes L := by
    intro d
    simp only [List.mem_flatMap, List.mem_filterMap, Option.ite_none_right_eq_some,
      Option.some.injEq]
    constructor
    · rintro ⟨e, -, r, hr, ⟨hvia, hs⟩, rfl⟩
      exact ⟨r, hr, hvia, hs⟩
    · rintro ⟨r, hr, hvia, hs⟩
      refine ⟨d, ?_, r, hr, ⟨hvia, hs⟩, rfl⟩
      by_contra hd
      exact hf.unmarked d hd L ⟨r, hr, hvia, hs⟩
  refine ⟨_, rfl, ?_⟩
  generalize (m.topology.dpcs.flatMap fun dpc => (m.destinations dpc).routes.filterMap fun r =>
    if r.via = .linkset L ∧ r.status ≠ .allowed then some dpc else none) = ds at hcleared ⊢
  cases t with
  | routeSetTest d K =>
    have hunder : (Timer.routeSetTest d K).Awaited (m.allowRoutesThrough L) ↔
        K ≠ L ∧ UnderTest (m.destinations d).routes K := underTest_allow _ L K
    by_cases hd : K = L ∧ d ∈ ds
    · obtain ⟨rfl, hd⟩ := hd
      intro on _
      rw [runs_foldl_of_stopped]
      · simp [hunder]
      · exact List.mem_flatMap.mpr ⟨d, hd, by simp⟩
      · intro after hstart
        obtain ⟨e, -, hstart⟩ := List.mem_flatMap.mp hstart
        simp at hstart
    · apply Follows.of_unset
      · apply unset_of_allowed
        rintro e he heq
        obtain ⟨rfl, rfl⟩ := Timer.routeSetTest.inj heq
        exact hd ⟨rfl, he⟩
      · rw [hunder]
        constructor
        · exact fun h => h.2
        · intro h
          refine ⟨?_, h⟩
          rintro rfl
          exact hd ⟨rfl, (hcleared d).mpr h⟩
  | _ => exact Follows.of_unset (unset_of_allowed (by simp)) Iff.rfl

theorem Action.unset_of_ofLink {a : Action} {l : LinkId} (h : a.ofLink l = true) {t : Timer}
    (ht : t ∉ [Timer.changeover l, .changeback l, .inhibitTest l, .uninhibit l,
      .forceUninhibit l]) : a.sets t = false := by
  have hne : ∀ timer, (timer = Timer.changeover l ∨ timer = .changeback l ∨
      timer = .inhibitTest l ∨ timer = .uninhibit l ∨ timer = .forceUninhibit l) →
      timer ≠ t := by
    rintro timer htimer rfl
    apply ht
    simpa using htimer
  cases a with
  | start timer | stop timer =>
    simp only [Action.ofLink, Bool.or_eq_true, decide_eq_true_eq, or_assoc] at h
    simpa [Action.sets] using hne timer h
  | _ => rfl

theorem link_follows {m : Management} {l : LinkId} {f : LinkState → LinkState}
    {outs : List Action} {P P' : Set Subject}
    (h : LinkMove G m l (m.links l) (f (m.links l)) outs P P') {t : Timer}
    (ht : t.managed m.topology = true) (he : ¬G.expire t) :
    Follows t outs (t.Awaited m) (t.Awaited ((m.setLink l f).extend outs)) := by
  have hother : t ∉ [Timer.changeover l, .changeback l, .inhibitTest l, .uninhibit l,
      .forceUninhibit l] → ∀ a ∈ outs, a.sets t = false :=
    fun hne a ha => Action.unset_of_ofLink (h.ofLink a ha) hne
  cases t with
  | inhibitTest k =>
    by_cases hk : k = l
    · subst hk
      simpa only [Timer.Awaited, extend_links, setLink_self] using h.inhibit_test
    · apply Follows.of_unset (hother (by simp [hk]))
      simp only [Timer.Awaited, extend_links, setLink_ne m f hk]
  | uninhibit k =>
    by_cases hk : k = l
    · subst hk
      simpa only [Timer.Awaited, extend_links, setLink_self] using h.uninhibit he
    · apply Follows.of_unset (hother (by simp [hk]))
      simp only [Timer.Awaited, extend_links, setLink_ne m f hk]
  | forceUninhibit k =>
    by_cases hk : k = l
    · subst hk
      simpa only [Timer.Awaited, extend_links, setLink_self] using h.force_uninhibit he
    · apply Follows.of_unset (hother (by simp [hk]))
      simp only [Timer.Awaited, extend_links, setLink_ne m f hk]
  | changeover | changeback | isolation => simp [Timer.managed] at ht
  | _ => exact Follows.of_unset (hother (by simp)) Iff.rfl

/-- What waits depend on is as it was. -/
structure SameWaits (m m' : Management) : Prop where
  destination : ∀ d, (m'.destinations d).routes = (m.destinations d).routes ∧
    (m'.destinations d).holding = (m.destinations d).holding
  guarded : m'.guarded = m.guarded
  link : ∀ l, (m'.links l).remoteInhibited = (m.links l).remoteInhibited ∧
    (m'.links l).uninhibitAttempts = (m.links l).uninhibitAttempts ∧
    (m'.links l).forceAttempts = (m.links l).forceAttempts
  linkset : ∀ L, (m'.linksets L).restarting = (m.linksets L).restarting ∧
    (m'.linksets L).guarded = (m.linksets L).guarded
  restarting : m'.restarting = m.restarting

theorem SameWaits.awaited {m m' : Management} (h : SameWaits m m') (t : Timer) :
    t.Awaited m' ↔ t.Awaited m := by
  cases t with
  | routeSetTest d => simp only [Timer.Awaited, (h.destination d).1]
  | rerouting d => simp only [Timer.Awaited, (h.destination d).2]
  | prohibited => simp only [Timer.Awaited, h.guarded]
  | inhibitTest l => simp only [Timer.Awaited, (h.link l).1]
  | uninhibit l => simp only [Timer.Awaited, (h.link l).2.1]
  | forceUninhibit l => simp only [Timer.Awaited, (h.link l).2.2]
  | adjacentRestart L => simp only [Timer.Awaited, (h.linkset L).1]
  | restartAllowed L => simp only [Timer.Awaited, (h.linkset L).2]
  | restart | restartOverall => simp only [Timer.Awaited, h.restarting]
  | changeover | changeback | isolation => rfl

theorem SameWaits.follows {m m' : Management} (h : SameWaits m m') {t : Timer} {xs : List Action}
    (hxs : ∀ a ∈ xs, a.sets t = false) : Follows t xs (t.Awaited m) (t.Awaited m') :=
  Follows.of_unset hxs (h.awaited t)

theorem SameWaits.refl (m : Management) : SameWaits m m :=
  ⟨fun _ => ⟨rfl, rfl⟩, rfl, fun _ => ⟨rfl, rfl, rfl⟩, fun _ => ⟨rfl, rfl⟩, rfl⟩

theorem SameWaits.push {m m' : Management} (h : SameWaits m m') (a : Action) :
    SameWaits m (m'.push a) := ⟨h.destination, h.guarded, h.link, h.linkset, h.restarting⟩

theorem SameWaits.extend {m m' : Management} (h : SameWaits m m') (xs : List Action) :
    SameWaits m (m'.extend xs) := ⟨h.destination, h.guarded, h.link, h.linkset, h.restarting⟩

theorem sameWaits_setDestination (m : Management) (d : ℕ)
    {f : DestinationState → DestinationState} (hroutes : ∀ s, (f s).routes = s.routes)
    (hholding : ∀ s, (f s).holding = s.holding) : SameWaits m (m.setDestination d f) := by
  refine ⟨fun e => ?_, rfl, fun _ => ⟨rfl, rfl, rfl⟩, fun _ => ⟨rfl, rfl⟩, rfl⟩
  by_cases he : e = d
  · subst he
    rw [setDestination_self]
    exact ⟨hroutes _, hholding _⟩
  · rw [setDestination_ne m f he]
    exact ⟨rfl, rfl⟩

theorem sameWaits_setLinkset (m : Management) (L : LinksetId)
    {f : LinksetState → LinksetState} (hrestarting : ∀ s, (f s).restarting = s.restarting)
    (hguarded : ∀ s, (f s).guarded = s.guarded) : SameWaits m (m.setLinkset L f) := by
  refine ⟨fun _ => ⟨rfl, rfl⟩, rfl, fun _ => ⟨rfl, rfl, rfl⟩, fun K => ?_, rfl⟩
  by_cases hK : K = L
  · subst hK
    simp [setLinkset, hrestarting, hguarded]
  · simp [setLinkset, hK]

/-- Besides, anything may change for which nothing waits. -/
theorem Follows.same {m m₁ m' : Management} {t : Timer} {xs : List Action}
    (h : Follows t xs (t.Awaited m) (t.Awaited m₁)) (hsame : SameWaits m₁ m') :
    Follows t xs (t.Awaited m) (t.Awaited m') := by
  intro on hon
  rw [h on hon, hsame.awaited t]

/-- Only what goes with the timers of a linkset changes. -/
theorem linkset_follows (m : Management) (L : LinksetId) (f : LinksetState → LinksetState)
    {xs : List Action} {t : Timer}
    (hrestart : t = .adjacentRestart L → Follows t xs ((m.linksets L).restarting = true)
      ((f (m.linksets L)).restarting = true))
    (hallowed : t = .restartAllowed L → Follows t xs ((m.linksets L).guarded = true)
      ((f (m.linksets L)).guarded = true))
    (hother : t ≠ .adjacentRestart L → t ≠ .restartAllowed L → ∀ a ∈ xs, a.sets t = false) :
    Follows t xs (t.Awaited m) (t.Awaited (m.setLinkset L f)) := by
  cases t with
  | adjacentRestart K =>
    by_cases hK : K = L
    · subst hK
      simpa only [Timer.Awaited, setLinkset_self] using hrestart rfl
    · apply Follows.of_unset (hother (by simp [hK]) (by simp))
      simp only [Timer.Awaited, setLinkset_ne m f hK]
  | restartAllowed K =>
    by_cases hK : K = L
    · subst hK
      simpa only [Timer.Awaited, setLinkset_self] using hallowed rfl
    · apply Follows.of_unset (hother (by simp) (by simp [hK]))
      simp only [Timer.Awaited, setLinkset_ne m f hK]
  | _ => exact Follows.of_unset (hother (by simp) (by simp)) Iff.rfl

/-- Only what goes with the timers of this node's restart changes. -/
theorem restart_follows (m : Management) (on : Bool) {xs : List Action} {t : Timer}
    (hrestart : t = .restart ∨ t = .restartOverall →
      Follows t xs (m.restarting = true) (on = true))
    (hother : t ≠ .restart → t ≠ .restartOverall → ∀ a ∈ xs, a.sets t = false) :
    Follows t xs (t.Awaited m) (t.Awaited { m with restarting := on }) := by
  cases t with
  | restart => exact hrestart (.inl rfl)
  | restartOverall => exact hrestart (.inr rfl)
  | _ => exact Follows.of_unset (hother (by simp) (by simp)) Iff.rfl

theorem guard_follows (m : Management) (d : ℕ) (t : Timer) :
    Follows t [.start (.prohibited d) m.timers.t8] (t.Awaited m) (t.Awaited (m.guard d)) := by
  cases t with
  | prohibited e =>
    by_cases hed : e = d
    · subst hed
      intro on _
      simp [runs, Timer.Awaited, Management.guard, push]
    · apply Follows.of_unset (by simp [Action.sets, Ne.symm hed])
      simp [Timer.Awaited, Management.guard, push, hed]
  | _ => exact Follows.of_unset (by simp [Action.sets]) Iff.rfl

/-- The expiry of T6 ends the wait of one destination only. -/
theorem release_follows {m : Management} (hm : Marked m) {d : ℕ} {t : Timer}
    (hne : Timer.rerouting d ≠ t) :
    Follows t ((m.destinations d).deferred ++ [.releaseDestination d]) (t.Awaited m)
      (t.Awaited (m.setDestination d fun s => { s with holding := false, deferred := [] })) := by
  apply Follows.of_unset
  · intro a ha
    rcases List.mem_append.mp ha with ha | ha
    · exact unset_of_marks (hm d) t a ha
    · obtain rfl := List.mem_singleton.mp ha
      rfl
  · cases t with
    | routeSetTest e L => by_cases hed : e = d <;> simp [Timer.Awaited, setDestination, hed]
    | rerouting e =>
      have hed : e ≠ d := fun heq => hne (heq ▸ rfl)
      simp only [Timer.Awaited, setDestination_ne m _ hed]
    | _ => rfl

/-- A move starts and stops the timers of the waits that it begins and ends. -/
theorem Move.follows {P P' : Set Subject} {m m' : Management} (h : Move G P m P' m')
    (hm : Marked m) (hf : Formed m) {t : Timer} (ht : t.managed m.topology = true)
    (he : ¬G.expire t) :
    ∃ es, m'.out = m.out ++ es ∧ Follows t (actions es) (t.Awaited m) (t.Awaited m') := by
  have hunset : ∀ {a : Action}, a.sets t = false → ∀ b ∈ actions [.act a], b.sets t = false := by
    intro a ha b hb
    obtain rfl := List.mem_singleton.mp hb
    exact ha
  have hacts : ∀ xs : List Action, actions (xs.map .act) = xs := by
    intro xs
    simp [actions]
  cases h with
  | say a ha => exact ⟨_, rfl, Follows.of_unset (hunset (Action.sets_of_plain ha t)) Iff.rfl⟩
  | link l f outs hl h =>
    refine ⟨_, rfl, ?_⟩
    rw [hacts]
    exact link_follows h ht he
  | allow L =>
    obtain ⟨xs, hout, hfollows⟩ := allow_follows hf L t
    refine ⟨_, hout, ?_⟩
    rw [hacts]
    exact hfollows
  | mark d L status position d' outs hg hd hp hs h =>
    refine ⟨_, rfl, ?_⟩
    rw [hacts]
    exact mark_follows hm hf hp h
  | unmarked d | paused d =>
    refine ⟨[], (List.append_nil _).symm, SameWaits.follows ?_ (by simp)⟩
    exact sameWaits_setDestination m d (fun _ => rfl) fun _ => rfl
  | codes | due | served | keepAdjacent =>
    exact ⟨[], (List.append_nil _).symm, (SameWaits.refl m).follows (by simp)⟩
  | unsync L | flags L =>
    refine ⟨[], (List.append_nil _).symm, SameWaits.follows ?_ (by simp)⟩
    exact sameWaits_setLinkset m L (fun _ => rfl) fun _ => rfl
  | resync L hr =>
    have hsame : SameWaits m (m.setLinkset L fun s => { s with synced := true }) :=
      sameWaits_setLinkset m L (fun _ => rfl) fun _ => rfl
    exact ⟨[.resynced L], rfl, Follows.of_unset (by simp) (hsame.awaited t)⟩
  | accessible d | restricted d =>
    refine ⟨_, rfl, SameWaits.follows (SameWaits.push ?_ _) (hunset rfl)⟩
    exact sameWaits_setDestination m d (fun _ => rfl) fun _ => rfl
  | told L adjacent d want =>
    refine ⟨_, rfl, SameWaits.follows (SameWaits.extend ?_ _) ?_⟩
    · exact sameWaits_setDestination m d (fun _ => rfl) fun _ => rfl
    · rw [hacts]
      intro a ha
      rw [Option.mem_toList, Option.map_eq_some_iff] at ha
      obtain ⟨message, -, rfl⟩ := ha
      rfl
  | toldUnknown | asked | opens | restarted =>
    exact ⟨_, rfl, Follows.of_unset (hunset rfl) Iff.rfl⟩
  | guard d => exact ⟨_, rfl, guard_follows m d t⟩
  | unguard d hexpire =>
    refine ⟨[], (List.append_nil _).symm, Follows.of_unset (by simp) ?_⟩
    cases t with
    | prohibited e =>
      have hed : e ≠ d := fun heq => he (heq ▸ hexpire)
      simp [Timer.Awaited, hed]
    | _ => rfl
  | release d hd hh hexpire =>
    have hne : Timer.rerouting d ≠ t := fun heq => he (heq ▸ hexpire)
    refine ⟨_, rfl, ?_⟩
    rw [hacts]
    exact (release_follows hm hne).same ((SameWaits.refl _).extend _)
  | testing L d route hd hv hr hs =>
    refine ⟨_, rfl, ?_⟩
    by_cases htest : Timer.routeSetTest d L = t
    · subst htest
      intro on _
      have hunder : UnderTest (m.destinations d).routes L := ⟨route, hr, hv, hs⟩
      simpa [runs, Timer.Awaited] using hunder
    · exact (SameWaits.refl m).push _ |>.follows (hunset (by simp [Action.sets, htest]))
  | beginRestart =>
    refine ⟨_, rfl, (restart_follows m true ?_ ?_).same ⟨fun _ => ⟨rfl, rfl⟩, rfl,
      fun _ => ⟨rfl, rfl, rfl⟩, fun _ => ⟨rfl, rfl⟩, rfl⟩⟩
    · rintro (rfl | rfl) <;> simp [Follows, runs]
    · intro hne hne'
      simp [Action.sets, Ne.symm hne, Ne.symm hne']
  | endRestart =>
    refine ⟨_, rfl, (restart_follows m false ?_ ?_).same ⟨fun _ => ⟨rfl, rfl⟩, rfl,
      fun l => ?_, fun _ => ⟨rfl, rfl⟩, rfl⟩⟩
    · rintro (rfl | rfl) <;> simp [Follows, runs]
    · intro hne hne'
      simp [Action.sets, Ne.symm hne, Ne.symm hne']
    · dsimp only
      split_ifs <;> exact ⟨rfl, rfl, rfl⟩
  | beginAdjacent l =>
    refine ⟨_, rfl, (linkset_follows m (m.linksetOf l) (fun s =>
      { s with restarting := true, traReceived := false }) ?_ ?_ ?_).same ⟨fun _ => ⟨rfl, rfl⟩,
        rfl, fun k => ?_, fun _ => ⟨rfl, rfl⟩, rfl⟩⟩
    · rintro rfl
      simp [Follows, runs]
    · rintro rfl
      exact Follows.of_unset (by simp [Action.sets]) Iff.rfl
    · intro hne _
      simp [Action.sets, Ne.symm hne]
    · by_cases hk : k = l <;> simp [setLinkset, setLink, push, hk]
  | endAdjacent L | loseAdjacent L =>
    refine ⟨_, rfl, (linkset_follows m L (fun s => { s with restarting := false }) ?_ ?_ ?_).same
      ((SameWaits.refl _).push _)⟩
    · rintro rfl
      simp [Follows, runs]
    · rintro rfl
      exact Follows.of_unset (by simp [Action.sets]) Iff.rfl
    · intro hne _
      simp [Action.sets, Ne.symm hne]
  | guards L =>
    refine ⟨_, rfl, (linkset_follows m L (fun s => { s with guarded := true }) ?_ ?_ ?_).same
      ((SameWaits.refl _).push _)⟩
    · rintro rfl
      exact Follows.of_unset (by simp [Action.sets]) Iff.rfl
    · rintro rfl
      simp [Follows, runs]
    · intro _ hne
      simp [Action.sets, Ne.symm hne]
  | unguards L hexpire =>
    refine ⟨[], (List.append_nil _).symm, linkset_follows m L _ ?_ ?_ (by simp)⟩
    · rintro rfl
      exact Follows.of_unset (by simp) Iff.rfl
    · rintro rfl
      exact absurd hexpire he
  | isolated on =>
    refine ⟨_, rfl, SameWaits.follows (SameWaits.push ?_ _) (hunset ?_)⟩
    · exact ⟨fun _ => ⟨rfl, rfl⟩, rfl, fun _ => ⟨rfl, rfl, rfl⟩, fun _ => ⟨rfl, rfl⟩, rfl⟩
    · have hne : Timer.isolation ≠ t := by
        rintro rfl
        simp [Timer.managed] at ht
      split_ifs <;> simpa [Action.sets] using hne

/-- A timer agrees with what waits for it after any number of moves, if it does before them. -/
theorem Steps.follows {P P' : Set Subject} {m m' : Management} (h : Steps G P m P' m')
    (hm : Marked m) (hf : Formed m) {t : Timer} (ht : t.managed m.topology = true)
    (he : ¬G.expire t) {on : Bool} (hi : (actions m.out).foldl (runs t) on = true ↔ t.Awaited m) :
    Marked m' ∧ Formed m' ∧ ((actions m'.out).foldl (runs t) on = true ↔ t.Awaited m') := by
  have hall := Steps.invariant (I := fun _ n => n.topology = m.topology ∧ Marked n ∧ Formed n ∧
      ((actions n.out).foldl (runs t) on = true ↔ t.Awaited n)) ?_ h ⟨rfl, hm, hf, hi⟩
  · exact hall.2
  · rintro P P' n n' hmove ⟨htop, hm, hf, hi⟩
    refine ⟨hmove.topology.trans htop, hmove.marked hm, hmove.formed hf, ?_⟩
    obtain ⟨es, hout, hfollows⟩ := hmove.follows hm hf (htop ▸ ht) he
    rw [hout, actions_append, List.foldl_append]
    exact hfollows _ hi

theorem Steps.formed {P P' : Set Subject} {m m' : Management} (h : Steps G P m P' m')
    (hf : Formed m) : Formed m' :=
  Steps.invariant (I := fun _ n => Formed n) (fun hmove hf => hmove.formed hf) h hf

/-! ## The timer that runs out -/

theorem runs_foldl_of_sets {t : Timer} {xs : List Action} (h : ∃ a ∈ xs, a.sets t = true)
    (on on' : Bool) : xs.foldl (runs t) on = xs.foldl (runs t) on' := by
  induction xs generalizing on on' with
  | nil => simp at h
  | cons a xs ih =>
    rw [List.foldl_cons, List.foldl_cons]
    by_cases ha : a.sets t = true
    · have hsame : runs t on a = runs t on' a := by
        cases a with
        | start timer | stop timer =>
          have htimer : timer = t := by simpa [Action.sets] using ha
          simp [runs, htimer]
        | _ => simp [Action.sets] at ha
      rw [hsame]
    · apply ih
      obtain ⟨b, hb, hbt⟩ := h
      rcases List.mem_cons.mp hb with rfl | hb
      · exact absurd hbt ha
      · exact ⟨b, hb, hbt⟩

/-- A timer that ran out runs again as long as something still waits for it. -/
def Rearms (t : Timer) (m m' : Management) : Prop :=
  ∃ es, m'.out = m.out ++ es ∧ ((actions es).foldl (runs t) false = true ↔ t.Awaited m')

section

variable {m m' : Management} {t : Timer}

theorem Rearms.of_idle (h : ¬t.Awaited m) : Rearms t m m :=
  ⟨[], (List.append_nil _).symm, by simp [h]⟩

/-- Nothing is waited for any more, and nothing was started. -/
theorem Rearms.of_unset (es : List Entry) (hout : m'.out = m.out ++ es)
    (hes : ∀ a ∈ actions es, a.sets t = false) (h : ¬t.Awaited m') : Rearms t m m' := by
  refine ⟨es, hout, ?_⟩
  rw [runs_foldl_of_unset hes]
  simp [h]

/-- The last that was left starts the timer again. -/
theorem Rearms.of_start (es : List Entry) {after : ℕ}
    (hout : m'.out = m.out ++ es ++ [.act (.start t after)]) (h : t.Awaited m') :
    Rearms t m m' := by
  refine ⟨es ++ [.act (.start t after)], by rw [hout, List.append_assoc], ?_⟩
  simp [runs, h]

/-- Moves of which the first sets a timer for which something waits. -/
theorem Rearms.of_steps {P P₁ P' : Set Subject} {m₁ : Management} {es : List Entry}
    (hfirst : Move G P m P₁ m₁) (hout : m₁.out = m.out ++ es)
    (hset : ∃ a ∈ actions es, a.sets t = true) (h : Steps G P₁ m₁ P' m') (hm : Marked m)
    (hf : Formed m) (ht : t.managed m.topology = true) (he : ¬G.expire t) (h0 : m.out = [])
    (ha : t.Awaited m) : Rearms t m m' := by
  have hi : (actions m.out).foldl (runs t) true = true ↔ t.Awaited m := by simp [h0, ha]
  have hfollows := ((hfirst.steps.trans h).follows hm hf ht he hi).2.2
  obtain ⟨es', hout', hset'⟩ := sets_of_steps hout hset h
  refine ⟨es', hout', ?_⟩
  rw [hout', h0, List.nil_append] at hfollows
  rw [runs_foldl_of_sets hset' false true]
  exact hfollows

end

/-- Nothing is forbidden, but no timer runs out. -/
def Guard.unexpiring : Guard := ⟨fun _ => True, fun _ _ _ => True, fun _ _ => True, fun _ => False⟩

namespace Management

theorem repeatUninhibit_rearms (m : Management) (l : LinkId) (force : Bool) :
    Rearms (if force then .forceUninhibit l else .uninhibit l) m (m.repeatUninhibit l force) := by
  unfold repeatUninhibit
  extract_lets attempts timer after message set
  have hbefore : timer.Awaited m ↔ attempts ≠ 0 := by
    cases force <;> simp [timer, attempts, Timer.Awaited]
  have hafter : ∀ (n : Management) (next : ℕ), timer.Awaited (set n next) ↔ next ≠ 0 := by
    intro n next
    cases force <;> simp [timer, set, Timer.Awaited]
  have hrearms : Rearms timer m (if attempts = 0 then m else if attempts = 1 then
      set ((m.send (m.linksetOf l) (m.slcOf l) message (m.linkOrRoute l)).push
        (.start timer after)) 2 else set (m.note .uninhibitAbandoned (.link l)) 0) := by
    split_ifs with hnone hone
    · apply Rearms.of_idle
      simpa [hbefore] using hnone
    · obtain ⟨xs, hxs, -⟩ := send_extend m (m.linksetOf l) (m.slcOf l) message (m.linkOrRoute l)
      rw [hxs]
      exact Rearms.of_start (xs.map .act) rfl ((hafter _ 2).mpr (by simp))
    · apply Rearms.of_unset [.act (.note .uninhibitAbandoned (.link l))] rfl
      · simp [Action.sets]
      · simp [hafter]
  exact hrearms

/-- A timer for which nothing waits does nothing when it runs out. -/
theorem timeout_idle {m : Management} {t : Timer} (ht : t.managed m.topology = true)
    (h : ¬t.Awaited m) : m.timeout t = m := by
  unfold timeout
  cases t with
  | routeSetTest d L =>
    have hL : m.hasLinkset L = true := by simpa [Timer.managed, hasLinkset] using ht
    simp only [hL, ↓reduceIte]
    cases hst : (m.destination? d).bind fun dest =>
        (dest.routes.find? fun r => r.via = .linkset L).map RouteState.status with
    | none => rfl
    | some status =>
      cases status with
      | allowed => rfl
      | restricted | prohibited =>
        exfalso
        apply h
        obtain ⟨dest, hdest, hmap⟩ := Option.bind_eq_some_iff.mp hst
        obtain ⟨r, hfind, hstatus⟩ := Option.map_eq_some_iff.mp hmap
        obtain ⟨-, rfl⟩ : d ∈ m.topology.dpcs ∧ m.destinations d = dest := by
          simpa [destination?] using hdest
        refine ⟨r, List.mem_of_find?_eq_some hfind, ?_, by simp [hstatus]⟩
        simpa using List.find?_some hfind
  | rerouting d => exact if_neg fun hd => h hd.2
  | prohibited d =>
    have herase : m.guarded.erase d = m.guarded := Finset.erase_eq_of_notMem h
    simp only [herase]
  | inhibitTest l =>
    apply if_neg
    intro hi
    exact h (Bool.and_eq_true _ _ ▸ hi).2
  | uninhibit l | forceUninhibit l =>
    have hnone := not_not.mp h
    simp [repeatUninhibit, hnone]
  | adjacentRestart L =>
    apply if_neg
    intro hr
    exact h (Bool.and_eq_true _ _ ▸ hr).2
  | restartAllowed L =>
    have hguarded : (m.linksets L).guarded = false := by simpa [Timer.Awaited] using h
    have hsame : (m.setLinkset L fun s => { s with guarded := false }) = m := by
      rw [setLinkset_congr m (g := fun s => s)]
      · simp [setLinkset]
      · rw [← hguarded]
    simp [hsame]
  | restart | restartOverall =>
    have hr : m.restarting = false := by simpa [Timer.Awaited] using h
    simp [endRestart, hr]
  | changeover | changeback | isolation => simp [Timer.managed] at ht

/-- The test of a route goes on while the route is not allowed. -/
theorem routeSetTest_rearms {m : Management} (hf : Formed m) (d : ℕ) {L : LinksetId}
    (hL : m.hasLinkset L = true) :
    Rearms (.routeSetTest d L) m (m.timeout (.routeSetTest d L)) := by
  by_cases hu : UnderTest (m.destinations d).routes L
  · have hd : d ∈ m.topology.dpcs := by
      by_contra hd
      exact hf.unmarked d hd L hu
    obtain ⟨r, hfind, hs⟩ := find?_of_underTest (hf.first d) hu
    have hasked : ∀ message, Rearms (.routeSetTest d L) m
        ((if !m.restarting && m.canTell L then m.tell L 0 message else m).push
          (.start (.routeSetTest d L) m.timers.t10)) := by
      intro message
      obtain ⟨xs, hxs, -⟩ := send_extend m L 0 message (.adjacent L none)
      split_ifs
      · rw [tell, hxs]
        exact Rearms.of_start (xs.map .act) rfl hu
      · apply Rearms.of_start []
        · rw [List.append_nil]
          rfl
        · exact hu
    unfold timeout
    simp only [hL, ↓reduceIte, destination?, hd, Option.bind_some, hfind, Option.map_some]
    cases hstatus : r.status with
    | allowed => exact absurd hstatus hs
    | restricted =>
      simp only [about_of_mem hd]
      exact hasked _
    | prohibited =>
      simp only [about_of_mem hd]
      exact hasked _
  · have ht : (Timer.routeSetTest d L).managed m.topology = true := by
      simpa [Timer.managed, hasLinkset] using hL
    rw [timeout_idle ht hu]
    exact Rearms.of_idle hu

/-- What waits for a timer that runs out has it started again, or waits no longer. -/
theorem timeout_rearms {m : Management} (hcalm : Calm m) (hm : Marked m) (hf : Formed m)
    (h0 : m.out = []) {t : Timer} (ht : t.managed m.topology = true) :
    Rearms t m (m.timeout t) := by
  by_cases ha : t.Awaited m
  swap
  · rw [timeout_idle ht ha]
    exact Rearms.of_idle ha
  cases t with
  | routeSetTest d L =>
    exact routeSetTest_rearms hf d (by simpa [Timer.managed, hasLinkset] using ht)
  | rerouting d =>
    have hh : (m.destinations d).holding = true := ha
    have hd : d ∈ m.topology.dpcs := by
      by_contra hd
      simp [hf.unheld d hd] at hh
    have hdispatched : m.timeout (.rerouting d) =
        (m.setDestination d fun s => { s with holding := false, deferred := [] }).extend
          ((m.destinations d).deferred ++ [.releaseDestination d]) := by
      simp [timeout, hd, hh]
    rw [hdispatched]
    apply Rearms.of_unset _ rfl
    · intro a hmem
      have hmem' : a ∈ (m.destinations d).deferred ++ [Action.releaseDestination d] := by
        simpa [actions] using hmem
      rcases List.mem_append.mp hmem' with hmark | hrelease
      · exact unset_of_marks (hm d) _ a hmark
      · obtain rfl := List.mem_singleton.mp hrelease
        rfl
    · simp [Timer.Awaited]
  | prohibited d =>
    apply Rearms.of_unset [] (List.append_nil _).symm
    · simp
    · simp [Timer.Awaited, timeout]
  | inhibitTest l =>
    have hl : m.hasLink l = true := by simpa [Timer.managed, hasLink] using ht
    have hi : (m.links l).remoteInhibited = true := ha
    obtain ⟨xs, hxs, -⟩ := send_extend m (m.linksetOf l) (m.slcOf l) .lrt (m.linkOrRoute l)
    unfold timeout
    simp only [hl, hi, Bool.and_self, ↓reduceIte, hxs]
    exact Rearms.of_start (xs.map .act) rfl hi
  | uninhibit l =>
    have hl : m.hasLink l = true := by simpa [Timer.managed, hasLink] using ht
    unfold timeout
    simp only [hl, ↓reduceIte]
    exact repeatUninhibit_rearms m l false
  | forceUninhibit l =>
    have hl : m.hasLink l = true := by simpa [Timer.managed, hasLink] using ht
    unfold timeout
    simp only [hl, ↓reduceIte]
    exact repeatUninhibit_rearms m l true
  | adjacentRestart L =>
    have hr : (m.linksets L).restarting = true := ha
    have hL : m.hasLinkset L = true := by simpa [Timer.managed, hasLinkset] using ht
    have hn : m.restarting = false := by
      by_contra hn
      have hlinkset := hcalm.restarting (by simpa using hn) L
      simp [hr] at hlinkset
    obtain ⟨P, m', hmove, hout, hsteps⟩ := endAdjacentRestart_moves (G := .unexpiring) hn hr
      .adjacentRestartExpired
    have hset : ∃ a ∈ actions [.act (.stop (.adjacentRestart L))],
        a.sets (.adjacentRestart L) = true := by simp [Action.sets]
    have hended : m.timeout (.adjacentRestart L) =
        m.endAdjacentRestart L .adjacentRestartExpired := by
      simp [timeout, hL, hr]
    rw [hended]
    exact Rearms.of_steps hmove hout hset hsteps hm hf ht (fun h => h) h0 ha
  | restartAllowed L =>
    have hL : m.hasLinkset L = true := by simpa [Timer.managed, hasLinkset] using ht
    unfold timeout
    simp only [hL, ↓reduceIte]
    apply Rearms.of_unset [] (List.append_nil _).symm
    · simp
    · simp [Timer.Awaited, setLinkset]
  | restart | restartOverall =>
    obtain ⟨m', hmove, hout, hsteps⟩ := endRestart_moves (G := .unexpiring) ∅ ha
    refine Rearms.of_steps hmove hout ?_ hsteps hm hf ht (fun h => h) h0 ha
    simp [Action.sets]
  | changeover | changeback | isolation => simp [Timer.managed] at ht

/-! ## Runs -/

/-- What the watcher knows of a timer is what waits for it. -/
structure Waiting (topology : Topology) (s : Management × Watch) : Prop where
  settled : Settled s
  formed : Formed s.1
  domain : s.1.topology = topology
  awaited : ∀ t, t.managed topology = true → (s.2.running t = true ↔ t.Awaited s.1)

/-- What an input leaves of a timer that it does not run out. -/
theorem process_awaited {topology : Topology} {m : Management} {w : Watch}
    (h : Waiting topology (m, w)) {input : Input} {t : Timer} (ht : t.managed topology = true)
    (hne : input ≠ .timeout t) :
    (actions (m.process input).out).foldl (runs t) (w.running t) = true ↔
      t.Awaited (m.process input) := by
  have h0 : m.out = [] := h.settled.out
  have hi : (actions m.out).foldl (runs t) (w.running t) = true ↔ t.Awaited m := by
    rw [h0]
    exact h.awaited t ht
  have ht' : t.managed m.topology = true := h.domain ▸ ht
  exact ((process_steps h.settled.calm input).follows h.settled.marked h.formed ht' hne hi).2.2

theorem process_timeout {topology : Topology} {m : Management} {w : Watch}
    (h : Waiting topology (m, w)) {t : Timer} (ht : t.managed topology = true) :
    (actions (m.process (.timeout t)).out).foldl (runs t) false = true ↔
      t.Awaited (m.process (.timeout t)) := by
  have h0 : m.out = [] := h.settled.out
  have ht' : t.managed m.topology = true := h.domain ▸ ht
  have htimeout := timeout_steps h.settled.calm.restarting t
  have hmarked : Marked (m.timeout t) := Steps.invariant (I := fun _ n => Marked n)
    (fun hmove hm => hmove.marked hm) htimeout h.settled.marked
  have hformed := htimeout.formed h.formed
  have htopology : (m.timeout t).topology = m.topology :=
    Steps.invariant (I := fun _ n => n.topology = m.topology)
      (fun hmove hn => hmove.topology.trans hn) htimeout rfl
  obtain ⟨es, hout, hrearms⟩ := timeout_rearms h.settled.calm h.settled.marked h.formed h0 ht'
  rw [h0, List.nil_append] at hout
  rw [← hout] at hrearms
  have hlater : Steps .unexpiring ∅ (m.timeout t) ∅ (m.process (.timeout t)) :=
    (Steps.refl ∅ _).settle.trans (watchIsolation_steps ∅ _)
  exact (hlater.follows hmarked hformed (htopology ▸ ht') (fun h => h) hrearms).2.2

/-- Every input keeps what the watcher knows of the timers. -/
theorem Waiting.step {topology : Topology} {s : Management × Watch} (h : Waiting topology s)
    (input : Input) : Waiting topology (watching s input) := by
  have hsteps := process_steps h.settled.calm input
  have htopology : (s.1.process input).topology = s.1.topology :=
    Steps.invariant (I := fun _ n => n.topology = s.1.topology)
      (fun hmove hn => hmove.topology.trans hn) hsteps rfl
  have hformed : Formed { s.1.process input with out := [] } :=
    (hsteps.formed h.formed).same rfl (fun _ => rfl) fun _ _ => rfl
  refine ⟨h.settled.step input, hformed, htopology.trans h.domain, fun t ht => ?_⟩
  have hsame : SameWaits (s.1.process input) { s.1.process input with out := [] } :=
    ⟨fun _ => ⟨rfl, rfl⟩, rfl, fun _ => ⟨rfl, rfl, rfl⟩, fun _ => ⟨rfl, rfl⟩, rfl⟩
  have hrunning : (watching s input).2.running t =
      (actions (s.1.process input).out).foldl (runs t) ((s.2.deliver input).running t) :=
    running_notes (s.2.deliver input) _ t
  have hgoal : (watching s input).2.running t = true ↔ t.Awaited (s.1.process input) := by
    rw [hrunning]
    by_cases hinput : input = .timeout t
    · subst hinput
      have hoff : (s.2.deliver (.timeout t)).running t = false := by simp [Watch.deliver]
      rw [hoff]
      exact process_timeout h ht
    · have hon : (s.2.deliver input).running t = s.2.running t := by
        cases input with
        | timeout timer =>
          have hne : t ≠ timer := fun heq => hinput (heq ▸ rfl)
          simp [Watch.deliver, hne]
        | _ => rfl
      rw [hon]
      exact process_awaited h ht hinput
  exact hgoal.trans (hsame.awaited t).symm

theorem waiting_new (topology : Topology) (timers : Timers) (tfp : Bool) :
    Waiting topology (new topology timers tfp, Watch.new) where
  settled := settled_new topology timers tfp
  formed := formed_new topology timers tfp
  domain := rfl
  awaited t _ := by
    have hidle : ¬t.Awaited (new topology timers tfp) := by
      cases t with
      | routeSetTest d L =>
        rintro ⟨r, hr, -, hs⟩
        obtain ⟨spec, -, rfl⟩ := List.mem_map.mp hr
        exact hs rfl
      | _ => simp [Timer.Awaited, new]
    simp [Watch.new, hidle]

theorem waiting_run (topology : Topology) (timers : Timers) (tfp : Bool) (is : List Input) :
    Waiting topology (Machine.run watching (new topology timers tfp, Watch.new) is) :=
  Machine.run_invariant (Q := fun _ _ => True) (fun _ i h _ => h.step i)
    (waiting_new topology timers tfp) (Machine.along_trivial _ is)

/-- Every procedure that waits has its timer running, and no timer runs for nothing. -/
theorem timers_awaited (topology : Topology) (timers : Timers) (tfp : Bool) (is : List Input) :
    let s := Machine.run watching (new topology timers tfp, Watch.new) is
    (∀ d, ∀ L < topology.linksets.length, s.2.running (.routeSetTest d L) = true ↔
      ∃ r ∈ (s.1.destinations d).routes, r.via = .linkset L ∧ r.status ≠ .allowed) ∧
    (∀ d, s.2.running (.rerouting d) = true ↔ (s.1.destinations d).holding = true) ∧
    (∀ d, s.2.running (.prohibited d) = true ↔ d ∈ s.1.guarded) ∧
    (∀ l < topology.links.length,
      s.2.running (.inhibitTest l) = true ↔ (s.1.links l).remoteInhibited = true) ∧
    (∀ l < topology.links.length,
      s.2.running (.uninhibit l) = true ↔ (s.1.links l).uninhibitAttempts ≠ 0) ∧
    (∀ l < topology.links.length,
      s.2.running (.forceUninhibit l) = true ↔ (s.1.links l).forceAttempts ≠ 0) ∧
    (∀ L < topology.linksets.length,
      s.2.running (.adjacentRestart L) = true ↔ (s.1.linksets L).restarting = true) ∧
    (∀ L < topology.linksets.length,
      s.2.running (.restartAllowed L) = true ↔ (s.1.linksets L).guarded = true) ∧
    (s.2.running .restart = true ↔ s.1.restarting = true) ∧
    (s.2.running .restartOverall = true ↔ s.1.restarting = true) := by
  intro s
  have hawaited := (waiting_run topology timers tfp is).awaited
  refine ⟨fun d L hL => ?_, fun d => ?_, fun d => ?_, fun l hl => ?_, fun l hl => ?_,
    fun l hl => ?_, fun L hL => ?_, fun L hL => ?_, ?_, ?_⟩
  · exact hawaited (.routeSetTest d L) (by simpa [Timer.managed] using hL)
  · exact hawaited (.rerouting d) rfl
  · exact hawaited (.prohibited d) rfl
  · exact hawaited (.inhibitTest l) (by simpa [Timer.managed] using hl)
  · exact hawaited (.uninhibit l) (by simpa [Timer.managed] using hl)
  · exact hawaited (.forceUninhibit l) (by simpa [Timer.managed] using hl)
  · exact hawaited (.adjacentRestart L) (by simpa [Timer.managed] using hL)
  · exact hawaited (.restartAllowed L) (by simpa [Timer.managed] using hL)
  · exact hawaited .restart rfl
  · exact hawaited .restartOverall rfl

end Management

end SiphonSigtran.Mtp3
