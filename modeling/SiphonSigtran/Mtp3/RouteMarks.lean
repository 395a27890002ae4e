import SiphonSigtran.Mtp3.Told

/-!
# The marks of the routing tables

The caller carries out `Action.route` on its routing tables. What the tables say of a
route is its last mark; what management says is its status. The two agree, once the
deferred marks are out, as long as no adjacent point becomes allowed while a mark about
it is deferred, and no point marks a destination to which it is on two routes.
-/

namespace SiphonSigtran.Mtp3

open Lib Management

variable {G : Guard}

def markTable (table : RouteMarks LinksetId) : Action → RouteMarks LinksetId
  | .route dpc linkset status => setRouteStatus table dpc linkset status
  | _ => table

/-- What an action leaves of the mark of one route. -/
def remark (d : ℕ) (L : LinksetId) (mark : RouteStatus) : Action → RouteStatus
  | .route dpc linkset status => if d = dpc ∧ L = linkset then status else mark
  | _ => mark

/-- An action that marks a route, or begins or ends the buffering of a destination. -/
def Action.marking : Action → Bool
  | .route _ _ _ | .holdDestination _ | .releaseDestination _ => true
  | _ => false

theorem routeStatus_markTable (table : RouteMarks LinksetId) (a : Action) (d : ℕ)
    (L : LinksetId) :
    routeStatus (markTable table a) d L = remark d L (routeStatus table d L) a := by
  cases a with
  | route dpc linkset status => exact routeStatus_setRouteStatus table dpc d linkset L status
  | _ => rfl

theorem routeStatus_foldl (xs : List Action) (table : RouteMarks LinksetId) (d : ℕ)
    (L : LinksetId) :
    routeStatus (xs.foldl markTable table) d L = xs.foldl (remark d L) (routeStatus table d L) := by
  induction xs generalizing table with
  | nil => rfl
  | cons a xs ih => rw [List.foldl_cons, List.foldl_cons, ih, routeStatus_markTable]

theorem remark_foldl_of_absent {d : ℕ} {L : LinksetId} {xs : List Action}
    (h : ∀ status, Action.route d L status ∉ xs) (mark : RouteStatus) :
    xs.foldl (remark d L) mark = mark := by
  induction xs with
  | nil => rfl
  | cons a xs ih =>
    have ha : remark d L mark a = mark := by
      cases a with
      | route dpc linkset status =>
        apply if_neg
        rintro ⟨rfl, rfl⟩
        exact h status (by simp)
      | _ => rfl
    rw [List.foldl_cons, ha]
    apply ih
    intro status hmem
    exact h status (List.mem_cons_of_mem a hmem)

theorem remark_foldl_of_unmarking {d : ℕ} {L : LinksetId} {xs : List Action}
    (h : ∀ a ∈ xs, a.marking = false) (mark : RouteStatus) :
    xs.foldl (remark d L) mark = mark := by
  apply remark_foldl_of_absent
  intro status hmem
  exact absurd (h _ hmem) (by simp [Action.marking])

theorem remark_self (d : ℕ) (L : LinksetId) (mark status : RouteStatus) :
    remark d L mark (.route d L status) = status := by
  simp [remark]

theorem remark_of_ne {d e : ℕ} {K L : LinksetId} (h : ¬(d = e ∧ L = K))
    (mark status : RouteStatus) : remark d L mark (.route e K status) = mark := by
  simp [remark, h]

/-! ## The routes of one destination -/

/-- How many routes of a destination go through the linkset. -/
def Topology.through (t : Topology) (dpc : ℕ) (L : LinksetId) : ℕ :=
  ((t.routesOf dpc).map RouteSpec.via).count (.linkset L)

/-- The first route through the linkset takes the status, the others stay. -/
theorem mem_setStatus {rs : List RouteState} {L : LinksetId} {position : ℕ}
    {status : RouteStatus} {r : RouteState}
    (hp : rs.findIdx? (fun r => r.via = .linkset L) = some position)
    (hr : r ∈ rs.modify position fun r => { r with status := status }) :
    (r.via = .linkset L ∧ r.status = status) ∨
      (r ∈ rs ∧ (r.via = .linkset L → 1 < (rs.map RouteState.via).count (.linkset L))) := by
  induction rs generalizing position with
  | nil => simp at hp
  | cons x rs ih =>
    rw [List.findIdx?_cons] at hp
    by_cases hx : x.via = .linkset L
    · simp only [hx, decide_true, ↓reduceIte, Option.some.injEq] at hp
      subst hp
      simp only [List.modify_zero_cons, List.mem_cons] at hr
      rcases hr with rfl | hr
      · exact .inl ⟨hx, rfl⟩
      · refine .inr ⟨List.mem_cons_of_mem x hr, fun hvia => ?_⟩
        have hmem : Via.linkset L ∈ rs.map RouteState.via := hvia ▸ List.mem_map_of_mem hr
        have hpos := List.count_pos_iff.mpr hmem
        rw [List.map_cons, hx, List.count_cons_self]
        omega
    · simp only [hx, decide_false, Bool.false_eq_true, ↓reduceIte, Option.map_eq_some_iff] at hp
      obtain ⟨i, hi, rfl⟩ := hp
      rw [List.modify_succ_cons, List.mem_cons] at hr
      rcases hr with rfl | hr
      · exact .inr ⟨List.mem_cons_self, fun hvia => absurd hvia hx⟩
      · rcases ih hi hr with h | ⟨hmem, hmany⟩
        · exact .inl h
        · refine .inr ⟨List.mem_cons_of_mem x hmem, fun hvia => ?_⟩
          rw [List.map_cons, List.count_cons_of_ne hx]
          exact hmany hvia

theorem map_via_setStatus (rs : List RouteState) (position : ℕ) (status : RouteStatus) :
    (rs.modify position fun r => { r with status := status }).map RouteState.via =
      rs.map RouteState.via := by
  induction rs generalizing position with
  | nil => simp
  | cons x rs ih =>
    cases position with
    | zero => rfl
    | succ i => rw [List.modify_succ_cons, List.map_cons, ih, List.map_cons]

namespace Management

/-- No mark about the linkset waits for a destination whose route through it is not allowed. -/
def Clean (m : Management) (L : LinksetId) : Prop :=
  ∀ d ∈ m.topology.dpcs, ∀ r ∈ (m.destinations d).routes, r.via = .linkset L →
    r.status ≠ .allowed → ∀ status, Action.route d L status ∉ (m.destinations d).deferred

end Management

/-- The tables, with the deferred marks, say of every route what its status is. -/
structure Current (m : Management) (marks : ℕ → LinksetId → RouteStatus) : Prop where
  flushed : ∀ d, (m.destinations d).holding = false → (m.destinations d).deferred = []
  vias : ∀ d, (m.destinations d).routes.map RouteState.via =
    (m.topology.routesOf d).map RouteSpec.via
  agrees : ∀ d ∈ m.topology.dpcs, ∀ r ∈ (m.destinations d).routes, ∀ L, r.via = .linkset L →
    (m.destinations d).deferred.foldl (remark d L) (marks d L) = r.status
  twice : ∀ d, ∀ r ∈ (m.destinations d).routes, ∀ L, r.via = .linkset L →
    1 < m.topology.through d L → r.status = .allowed

/-- A move marks a route, or allows those through a linkset, or puts out what was deferred,
or does nothing about routes. -/
inductive Routing (G : Guard) (m m' : Management) : Prop
  | mark (d : ℕ) (L : LinksetId) (status : RouteStatus) (position : ℕ) (d' : DestinationState)
      (outs : List Action) (hg : G.mark d L status)
      (hp : (m.destinations d).routes.findIdx? (fun r => r.via = .linkset L) = some position)
      (h : MarkMove m.timers d L status ((m.destinations d).setStatus position status) d' outs)
      (hm : m' = (m.setDestination d fun _ => d').extend (testTimer m d L status :: outs))
  | allow (L : LinksetId) (hg : G.allow L) (h : m' = m.allowRoutesThrough L)
  | release (d : ℕ) (hh : (m.destinations d).holding = true)
      (h : m' = (m.setDestination d fun s => { s with holding := false, deferred := [] }).extend
        ((m.destinations d).deferred ++ [Action.releaseDestination d]))
  | still (es : List Entry) (hout : m'.out = m.out ++ es)
      (hes : ∀ a ∈ actions es, a.marking = false) (ht : m'.topology = m.topology)
      (hd : ∀ d, (m'.destinations d).routes = (m.destinations d).routes ∧
        (m'.destinations d).deferred = (m.destinations d).deferred ∧
        (m'.destinations d).holding = (m.destinations d).holding)

theorem Move.routing {P P' : Set Subject} {m m' : Management} (h : Move G P m P' m') :
    Routing G m m' := by
  have hsame : ∀ d, (m.destinations d).routes = (m.destinations d).routes ∧
      (m.destinations d).deferred = (m.destinations d).deferred ∧
      (m.destinations d).holding = (m.destinations d).holding := fun _ => ⟨rfl, rfl, rfl⟩
  have hsaid : ∀ a : Action, a.marking = false → ∀ b ∈ actions [.act a], b.marking = false := by
    intro a ha b hb
    simp only [actions_act, actions_nil, List.mem_singleton] at hb
    rw [hb, ha]
  cases h with
  | mark d L status position d' outs hg hd hp hs h =>
    exact .mark d L status position d' outs hg hp h rfl
  | allow L hg => exact .allow L hg rfl
  | release d hd hh => exact .release d hh rfl
  | link l f outs hl h =>
    refine .still (outs.map .act) rfl (fun a ha => ?_) rfl hsame
    have hmem : a ∈ outs := by simpa [actions] using ha
    have hof := h.ofLink a hmem
    cases a <;> simp_all [Action.ofLink, Action.plain, Action.marking]
  | say a ha =>
    refine .still [.act a] rfl (hsaid a ?_) rfl hsame
    cases a <;> simp_all [Action.plain, Action.marking]
  | told L adjacent d want hr ha hd =>
    refine .still _ rfl (fun a ha => ?_) rfl fun e => ?_
    · have hmap : a ∈ (((if want then about d .tfp else about d .tfa).map fun message =>
          Action.send adjacent 0 message (.adjacent L none)).toList) := by
        simpa [actions] using ha
      rw [Option.mem_toList, Option.map_eq_some_iff] at hmap
      obtain ⟨message, -, rfl⟩ := hmap
      rfl
    · by_cases he : e = d <;> simp [setDestination, extend, he]
  | resync L hr => exact .still [.resynced L] rfl (by simp) rfl hsame
  | unmarked d | paused d =>
    refine .still [] (by simp [setDestination]) (by simp) rfl fun e => ?_
    by_cases he : e = d <;> simp [setDestination, he]
  | accessible d | restricted d =>
    refine .still [.act _] rfl (hsaid _ rfl) rfl fun e => ?_
    by_cases he : e = d <;> simp [setDestination, push, he]
  | unguard | unsync | due | flags | unguards | served | codes | keepAdjacent =>
    exact .still [] (List.append_nil _).symm (by simp) rfl hsame
  | beginRestart => exact .still _ rfl (by simp [Action.marking]) rfl hsame
  | endRestart => exact .still _ rfl (by simp [Action.marking]) rfl hsame
  | isolated on =>
    refine .still [.act _] rfl (hsaid _ ?_) rfl hsame
    cases on <;> rfl
  | toldUnknown | asked | guard | testing | opens | restarted | beginAdjacent | endAdjacent
  | loseAdjacent | guards => exact .still [.act _] rfl (hsaid _ rfl) rfl hsame

/-! ## What a mark does -/

section

variable {timers : Timers} {dpc : ℕ} {L : LinksetId} {status : RouteStatus}
  {d d' : DestinationState} {outs : List Action}

theorem MarkMove.routes (h : MarkMove timers dpc L status d d' outs) : d'.routes = d.routes := by
  cases h <;> rfl

theorem MarkMove.flushed (h : MarkMove timers dpc L status d d' outs)
    (hd : d.holding = false → d.deferred = []) (hh : d'.holding = false) : d'.deferred = [] := by
  cases h with
  | marked => exact hd hh
  | deferred hs hheld => exact absurd (hheld.symm.trans hh) (by simp)
  | held => simp at hh
  | forced | released => rfl

/-- What is marked at once and what is deferred add up to the mark. -/
theorem MarkMove.conveys (h : MarkMove timers dpc L status d d' outs)
    (hd : d.holding = false → d.deferred = []) (e : ℕ) (K : LinksetId) (mark : RouteStatus) :
    d'.deferred.foldl (remark e K) (outs.foldl (remark e K) mark) =
      remark e K (d.deferred.foldl (remark e K) mark) (.route dpc L status) := by
  cases h with
  | marked hs hh => simp [hd hh]
  | deferred hs hh => simp
  | held hs hh =>
    simp only [hd hh, List.nil_append, List.foldl_cons, List.foldl_nil]
    rfl
  | forced => simp
  | released =>
    simp only [List.foldl_append, List.foldl_cons, List.foldl_nil]
    rfl

theorem MarkMove.elsewhere (h : MarkMove timers dpc L status d d' outs)
    (hm : ∀ a ∈ d.deferred, ∃ L status, a = Action.route dpc L status) {e : ℕ} (he : e ≠ dpc)
    (K : LinksetId) (mark : RouteStatus) : outs.foldl (remark e K) mark = mark := by
  have hdeferred : d.deferred.foldl (remark e K) mark = mark := by
    apply remark_foldl_of_absent
    intro s hs
    obtain ⟨K', s', heq⟩ := hm _ hs
    exact he (Action.route.inj heq).1
  have hone := remark_of_ne (K := L) (L := K) (fun h : e = dpc ∧ K = L => he h.1) mark status
  cases h with
  | marked => exact hone
  | deferred => rfl
  | held => rfl
  | forced => rw [List.foldl_append, hdeferred, List.foldl_cons, hone, List.foldl_nil]
  | released =>
    rw [List.foldl_append, List.foldl_append, hdeferred]
    exact hone

end

/-- The marks of the routes that are allowed at once. -/
theorem remark_foldl_cleared (ds : List ℕ) (d : ℕ) (K L : LinksetId) (mark : RouteStatus) :
    (ds.flatMap fun dpc =>
      [Action.stop (.routeSetTest dpc L), .route dpc L .allowed]).foldl (remark d K) mark =
      if d ∈ ds ∧ K = L then .allowed else mark := by
  induction ds generalizing mark with
  | nil => simp
  | cons e ds ih =>
    rw [List.flatMap_cons, List.foldl_append, ih]
    simp only [List.foldl_cons, List.foldl_nil]
    by_cases hK : K = L
    · by_cases he : d = e <;> simp [remark, hK, he]
    · simp [remark, hK]

theorem Current.same {m m' : Management} {marks marks' : ℕ → LinksetId → RouteStatus}
    (hi : Current m marks) (ht : m'.topology = m.topology)
    (hd : ∀ d, (m'.destinations d).routes = (m.destinations d).routes ∧
      (m'.destinations d).deferred = (m.destinations d).deferred ∧
      (m'.destinations d).holding = (m.destinations d).holding)
    (hm : ∀ d L, marks' d L = marks d L) : Current m' marks' where
  flushed d h := by
    rw [(hd d).2.1]
    exact hi.flushed d ((hd d).2.2.symm.trans h)
  vias d := by rw [(hd d).1, ht, hi.vias]
  agrees d hmem r hr L hL := by
    rw [(hd d).2.1, hm]
    exact hi.agrees d (ht ▸ hmem) r ((hd d).1 ▸ hr) L hL
  twice d r hr L hL h := hi.twice d r ((hd d).1 ▸ hr) L hL (ht ▸ h)

theorem Management.Clean.same {m m' : Management} {L : LinksetId} (hi : m.Clean L)
    (ht : m'.topology = m.topology)
    (hd : ∀ d, (m'.destinations d).routes = (m.destinations d).routes ∧
      (m'.destinations d).deferred = (m.destinations d).deferred ∧
      (m'.destinations d).holding = (m.destinations d).holding) : m'.Clean L := by
  intro d hmem r hr hL hs status
  rw [(hd d).2.1]
  exact hi d (ht ▸ hmem) r ((hd d).1 ▸ hr) hL hs status

/-- What the tables say after what was left so far. -/
def marksOf (marks : ℕ → LinksetId → RouteStatus) (es : List Entry) (d : ℕ) (L : LinksetId) :
    RouteStatus :=
  (actions es).foldl (remark d L) (marks d L)

theorem marksOf_append (marks : ℕ → LinksetId → RouteStatus) (es es' : List Entry) (d : ℕ)
    (L : LinksetId) :
    marksOf marks (es ++ es') d L = (actions es').foldl (remark d L) (marksOf marks es d L) := by
  rw [marksOf, actions_append, List.foldl_append]
  rfl

theorem Management.Clean.move {P P' : Set Subject} {m m' : Management} (h : Move G P m P' m')
    {L : LinksetId} (hg : ∀ d K status, ¬G.mark d K status) (hc : m.Clean L) : m'.Clean L := by
  cases h.routing with
  | mark d K status position d' outs hmark => exact absurd hmark (hg d K status)
  | allow K hallow hm =>
    subst hm
    intro d hd r hr hL hs status
    obtain ⟨r₀, hr₀, rfl⟩ := List.mem_map.mp hr
    by_cases hK : r₀.via = .linkset K
    · simp [hK] at hs
    · rw [if_neg hK] at hL hs
      exact hc d hd r₀ hr₀ hL hs status
  | release e hh hm =>
    subst hm
    intro d hd r hr hL hs status
    by_cases he : d = e
    · simp [extend, setDestination, he]
    · rw [extend_destinations, setDestination_ne m _ he] at hr ⊢
      exact hc d hd r hr hL hs status
  | still es hout hes ht hd => exact hc.same ht hd

section

variable {m : Management} {marks : ℕ → LinksetId → RouteStatus}

theorem Current.mark (hi : Current m (marksOf marks m.out)) (hm : Marked m) {dpc : ℕ}
    {K : LinksetId} {status : RouteStatus} {position : ℕ} {d' : DestinationState}
    {outs : List Action}
    (hsole : status ≠ .allowed → m.topology.through dpc K ≤ 1)
    (hp : (m.destinations dpc).routes.findIdx? (fun r => r.via = .linkset K) = some position)
    (h : MarkMove m.timers dpc K status ((m.destinations dpc).setStatus position status) d'
      outs) :
    Current ((m.setDestination dpc fun _ => d').extend (testTimer m dpc K status :: outs))
      (marksOf marks (m.out ++ (testTimer m dpc K status :: outs).map .act)) := by
  have hflush : ((m.destinations dpc).setStatus position status).holding = false →
      ((m.destinations dpc).setStatus position status).deferred = [] := hi.flushed dpc
  have hself : (((m.setDestination dpc fun _ => d').extend
      (testTimer m dpc K status :: outs)).destinations dpc) = d' := by simp
  have hother : ∀ e, e ≠ dpc → (((m.setDestination dpc fun _ => d').extend
      (testTimer m dpc K status :: outs)).destinations e) = m.destinations e := by
    intro e he
    rw [extend_destinations, setDestination_ne m _ he]
  have hroutes : d'.routes = (m.destinations dpc).routes.modify position
      fun r => { r with status := status } := h.routes
  have hsaid : ∀ e L, marksOf marks (m.out ++ (testTimer m dpc K status :: outs).map .act) e L =
      outs.foldl (remark e L) (marksOf marks m.out e L) := by
    intro e L
    have hactions : actions ((testTimer m dpc K status :: outs).map .act) =
        testTimer m dpc K status :: outs := by
      simpa [extend] using actions_extend { m with out := [] } (testTimer m dpc K status :: outs)
    rw [marksOf_append, hactions, List.foldl_cons]
    unfold testTimer
    split_ifs <;> rfl
  constructor
  · intro e hh
    by_cases he : e = dpc
    · subst he
      rw [hself] at hh ⊢
      exact h.flushed hflush hh
    · rw [hother e he] at hh ⊢
      exact hi.flushed e hh
  · intro e
    by_cases he : e = dpc
    · subst he
      rw [hself, hroutes, map_via_setStatus]
      exact hi.vias e
    · rw [hother e he]
      exact hi.vias e
  · intro e hd r hr L hL
    rw [hsaid]
    by_cases he : e = dpc
    · subst he
      rw [hself] at hr ⊢
      rw [h.conveys hflush]
      rw [hroutes] at hr
      rcases mem_setStatus hp hr with ⟨hvia, hs⟩ | ⟨hmem, hmany⟩
      · obtain rfl : L = K := by simpa using hL.symm.trans hvia
        rw [remark_self, hs]
      · by_cases hLK : L = K
        · -- Another route through the same point: it can only have been allowed.
          subst hLK
          have htwice : 1 < m.topology.through e L := by
            rw [Topology.through, ← hi.vias]
            exact hmany hL
          have hallowed : status = .allowed := by
            by_contra hne
            have := hsole hne
            omega
          rw [hallowed, remark_self, hi.twice e r hmem L hL htwice]
        · rw [remark_of_ne fun h => hLK h.2]
          exact hi.agrees e hd r hmem L hL
    · rw [hother e he] at hr ⊢
      rw [h.elsewhere (hm dpc) he]
      exact hi.agrees e hd r hr L hL
  · intro e r hr L hL hmany
    by_cases he : e = dpc
    · subst he
      rw [hself, hroutes] at hr
      rcases mem_setStatus hp hr with ⟨hvia, hs⟩ | ⟨hmem, -⟩
      · obtain rfl : L = K := by simpa using hL.symm.trans hvia
        rw [hs]
        by_contra hne
        have hone := hsole hne
        have hmany' : 1 < m.topology.through e L := hmany
        omega
      · exact hi.twice e r hmem L hL hmany
    · rw [hother e he] at hr
      exact hi.twice e r hr L hL hmany

theorem Current.allow (hi : Current m (marksOf marks m.out)) {K : LinksetId} (hc : m.Clean K) :
    Current (m.allowRoutesThrough K) (marksOf marks (m.allowRoutesThrough K).out) := by
  let cleared := m.topology.dpcs.flatMap fun d =>
    (m.destinations d).routes.filterMap fun r =>
      if r.via = .linkset K ∧ r.status ≠ .allowed then some d else none
  have hcleared : ∀ d, d ∈ cleared ↔ d ∈ m.topology.dpcs ∧
      ∃ r ∈ (m.destinations d).routes, r.via = .linkset K ∧ r.status ≠ .allowed := by
    intro d
    simp only [cleared, List.mem_flatMap, List.mem_filterMap]
    constructor
    · rintro ⟨e, he, r, hr, hif⟩
      split_ifs at hif with h
      obtain rfl := Option.some.inj hif
      exact ⟨he, r, hr, h⟩
    · rintro ⟨hd, r, hr, h⟩
      exact ⟨d, hd, r, hr, if_pos h⟩
  have hsaid : ∀ d L, marksOf marks (m.allowRoutesThrough K).out d L =
      if d ∈ cleared ∧ L = K then .allowed else marksOf marks m.out d L := by
    intro d L
    rw [show (m.allowRoutesThrough K).out = m.out ++ (cleared.flatMap fun dpc =>
      [Action.stop (.routeSetTest dpc K), .route dpc K .allowed]).map .act from rfl,
      marksOf_append]
    have hactions := actions_extend { m with out := [] } (cleared.flatMap fun dpc =>
      [Action.stop (.routeSetTest dpc K), .route dpc K .allowed])
    simp only [extend, List.nil_append, actions_nil] at hactions
    rw [hactions, remark_foldl_cleared]
  have hmem : ∀ d r, r ∈ ((m.allowRoutesThrough K).destinations d).routes ↔
      ∃ r₀ ∈ (m.destinations d).routes,
        (if r₀.via = .linkset K then { r₀ with status := .allowed } else r₀) = r :=
    fun d r => List.mem_map
  constructor
  · exact hi.flushed
  · intro d
    rw [show ((m.allowRoutesThrough K).destinations d).routes = (m.destinations d).routes.map
      fun r => if r.via = .linkset K then { r with status := .allowed } else r from rfl,
      List.map_map, show (m.allowRoutesThrough K).topology = m.topology from rfl, ← hi.vias]
    apply List.map_congr_left
    intro r _
    by_cases h : r.via = .linkset K <;> simp [h]
  · intro d hd r hr L hL
    obtain ⟨r₀, hr₀, rfl⟩ := (hmem d r).mp hr
    rw [hsaid]
    by_cases hK : r₀.via = .linkset K
    · simp only [hK, ↓reduceIte, Via.linkset.injEq] at hL ⊢
      subst hL
      by_cases hcl : d ∈ cleared
      · obtain ⟨-, r₁, hr₁, hvia, hs⟩ := (hcleared d).mp hcl
        rw [if_pos ⟨hcl, rfl⟩]
        exact remark_foldl_of_absent (hc d hd r₁ hr₁ hvia hs) _
      · rw [if_neg fun h => hcl h.1]
        have hallowed : r₀.status = .allowed := by
          by_contra hs
          exact hcl ((hcleared d).mpr ⟨hd, r₀, hr₀, hK, hs⟩)
        rw [← hallowed]
        exact hi.agrees d hd r₀ hr₀ K hK
    · rw [if_neg hK] at hL ⊢
      rw [if_neg fun h : d ∈ cleared ∧ L = K => hK (h.2 ▸ hL)]
      exact hi.agrees d hd r₀ hr₀ L hL
  · intro d r hr L hL hmany
    obtain ⟨r₀, hr₀, rfl⟩ := (hmem d r).mp hr
    by_cases hK : r₀.via = .linkset K
    · simp [hK]
    · rw [if_neg hK] at hL ⊢
      exact hi.twice d r₀ hr₀ L hL hmany

theorem Current.release (hi : Current m (marksOf marks m.out)) (hm : Marked m) (dpc : ℕ) :
    Current ((m.setDestination dpc fun s => { s with holding := false, deferred := [] }).extend
        ((m.destinations dpc).deferred ++ [Action.releaseDestination dpc]))
      (marksOf marks (m.out ++
        ((m.destinations dpc).deferred ++ [Action.releaseDestination dpc]).map .act)) := by
  have hsaid : ∀ d L, marksOf marks (m.out ++
      ((m.destinations dpc).deferred ++ [Action.releaseDestination dpc]).map .act) d L =
        (m.destinations dpc).deferred.foldl (remark d L) (marksOf marks m.out d L) := by
    intro d L
    have hactions := actions_extend { m with out := [] }
      ((m.destinations dpc).deferred ++ [Action.releaseDestination dpc])
    simp only [extend, List.nil_append, actions_nil] at hactions
    rw [marksOf_append, hactions, List.foldl_append]
    rfl
  have hroutes : ∀ d, (((m.setDestination dpc fun s =>
      { s with holding := false, deferred := [] }).extend
        ((m.destinations dpc).deferred ++ [Action.releaseDestination dpc])).destinations d).routes =
      (m.destinations d).routes := by
    intro d
    by_cases hd : d = dpc <;> simp [extend, setDestination, hd]
  constructor
  · intro d hh
    by_cases hd : d = dpc
    · simp [extend, setDestination, hd]
    · rw [extend_destinations, setDestination_ne m _ hd] at hh ⊢
      exact hi.flushed d hh
  · intro d
    rw [hroutes]
    exact hi.vias d
  · intro d hmem r hr L hL
    rw [hroutes] at hr
    rw [hsaid]
    by_cases hd : d = dpc
    · subst hd
      simp only [extend_destinations, setDestination_self, List.foldl_nil]
      exact hi.agrees d hmem r hr L hL
    · have habsent : (m.destinations dpc).deferred.foldl (remark d L) (marksOf marks m.out d L) =
          marksOf marks m.out d L := by
        apply remark_foldl_of_absent
        intro status hs
        obtain ⟨K, s, heq⟩ := hm dpc _ hs
        exact hd (Action.route.inj heq).1
      rw [extend_destinations, setDestination_ne m _ hd, habsent]
      exact hi.agrees d hmem r hr L hL
  · intro d r hr L hL hmany
    rw [hroutes] at hr
    exact hi.twice d r hr L hL hmany

end

theorem Current.move {P P' : Set Subject} {m m' : Management} (h : Move G P m P' m')
    (hm : Marked m) {marks : ℕ → LinksetId → RouteStatus}
    (hsole : ∀ d L status, G.mark d L status → status ≠ .allowed → m.topology.through d L ≤ 1)
    (hclean : ∀ L, G.allow L → m.Clean L) (hi : Current m (marksOf marks m.out)) :
    Current m' (marksOf marks m'.out) := by
  cases h.routing with
  | mark dpc K status position d' outs hg hp hmark heq =>
    subst heq
    exact hi.mark hm (hsole dpc K status hg) hp hmark
  | allow K hg heq =>
    subst heq
    exact hi.allow (hclean K hg)
  | release dpc hh heq =>
    subst heq
    exact hi.release hm dpc
  | still es hout hes ht hd =>
    refine hi.same ht hd fun d L => ?_
    rw [hout, marksOf_append, remark_foldl_of_unmarking hes]

/-- The action marks the routes of the destination through the linkset. -/
def Action.marks (d : ℕ) (L : LinksetId) : Action → Bool
  | .route dpc linkset _ => dpc = d && linkset = L
  | _ => false

namespace Management

/-- The input allows no route about which a mark waits, and marks no destination to which
its sender is on two routes. -/
def keepsMarks (m : Management) (input : Input) : Bool :=
  (m.topology.dpcs.all fun d => (m.destinations d).routes.all fun r =>
    match r.via with
    | .linkset L => r.status = .allowed || !m.allows input L ||
        !(m.destinations d).deferred.any (Action.marks d L)
    | .server _ => true) &&
  match input with
  | .received arrived opc _ (.tfp d) | .received arrived opc _ (.tfr d) =>
    (m.linksetFrom opc arrived).all fun L => m.topology.through d L ≤ 1
  | _ => true

theorem clean_of_keepsMarks {m : Management} {input : Input} (hk : m.keepsMarks input = true)
    {L : LinksetId} (ha : m.allows input L = true) : m.Clean L := by
  intro d hd r hr hL hs status hmem
  simp only [keepsMarks, Bool.and_eq_true, List.all_eq_true] at hk
  have hroute := hk.1 d hd r hr
  rw [hL] at hroute
  have hany : (m.destinations d).deferred.any (Action.marks d L) = true :=
    List.any_eq_true.mpr ⟨_, hmem, by simp [Action.marks]⟩
  simp [hs, ha, hany] at hroute

theorem sole_of_keepsMarks {m : Management} {input : Input} (hk : m.keepsMarks input = true)
    {d : ℕ} {L : LinksetId} {status : RouteStatus} (hm : m.marks input d L status = true)
    (hs : status ≠ .allowed) : m.topology.through d L ≤ 1 := by
  cases input with
  | received arrived opc slc message =>
    simp only [marks, Bool.and_eq_true, decide_eq_true_eq] at hm
    obtain ⟨⟨-, hfrom⟩, htext⟩ := hm
    cases status with
    | allowed => exact absurd rfl hs
    | prohibited | restricted =>
      obtain rfl : message = _ := by simpa using htext
      simp only [keepsMarks, hfrom, Option.all_some, Bool.and_eq_true, decide_eq_true_eq] at hk
      exact hk.2
  | _ => simp [marks] at hm

/-- An input that allows routes is not one that marks them. -/
theorem marks_of_allows {m : Management} {input : Input} {K : LinksetId}
    (ha : m.allows input K = true) (d : ℕ) (L : LinksetId) (status : RouteStatus) :
    m.marks input d L status = false := by
  cases input with
  | received arrived opc slc message =>
    cases message with
    | tfp | tfr | tfa =>
      have hnone : ∀ o : Option LinkId, (o.filter fun _ => false) = none := fun o => by
        cases o <;> rfl
      simp [allows, restartBegins, restored, restoredBy, hnone] at ha
    | _ => cases status <;> simp [marks]
  | _ => rfl

theorem process_current {m : Management} (hcalm : Calm m) (hm : Marked m) {input : Input}
    (hk : m.keepsMarks input = true) {marks : ℕ → LinksetId → RouteStatus}
    (hi : Current m (marksOf marks m.out)) :
    Current (m.process input) (marksOf marks (m.process input).out) := by
  have hinv := Steps.invariant (G := m.guardOf input)
    (I := fun _ m' => m'.topology = m.topology ∧ Marked m' ∧
      Current m' (marksOf marks m'.out) ∧ ∀ L, m.allows input L = true → m'.Clean L)
    (fun hmove ⟨ht, hmarked, hcurrent, hclean⟩ => by
      refine ⟨hmove.topology.trans ht, hmove.marked hmarked, ?_, fun L ha => ?_⟩
      · apply hcurrent.move hmove hmarked _ hclean
        intro d L status hg hs
        rw [ht]
        exact sole_of_keepsMarks hk hg hs
      · apply (hclean L ha).move hmove
        intro d K status hg
        exact Bool.false_ne_true ((marks_of_allows ha d K status).symm.trans hg))
    (process_steps hcalm input) ⟨rfl, hm, hi, fun L ha => clean_of_keepsMarks hk ha⟩
  exact hinv.2.2.1

/-- Management and the routing tables that carry out its actions, after one more input. -/
def marking : Management × RouteMarks LinksetId → Input → Management × RouteMarks LinksetId :=
  Machine.watch handle fun table _ _ out => out.2.foldl markTable table

/-- What holds between two inputs of the tables. -/
structure Tabled (s : Management × RouteMarks LinksetId) : Prop where
  settled : ∃ w, Settled (s.1, w)
  current : Current s.1 (routeStatus s.2)

theorem Tabled.step {s : Management × RouteMarks LinksetId} (h : Tabled s) {input : Input}
    (hk : s.1.keepsMarks input = true) : Tabled (marking s input) := by
  obtain ⟨w, hw⟩ := h.settled
  have hout : s.1.out = [] := hw.out
  have hnow : Current s.1 (marksOf (routeStatus s.2) s.1.out) := by
    rw [hout]
    exact h.current
  have hcurrent := process_current hw.calm hw.marked hk hnow
  refine ⟨⟨_, hw.step input⟩, hcurrent.same rfl (fun _ => ⟨rfl, rfl, rfl⟩) fun d L => ?_⟩
  exact routeStatus_foldl _ _ d L

theorem tabled_new (topology : Topology) (timers : Timers) (tfp : Bool) :
    Tabled (new topology timers tfp, fun _ => []) := by
  refine ⟨⟨_, settled_new topology timers tfp⟩, fun _ _ => rfl, fun d => ?_, ?_, ?_⟩
  · simp [new]
  · intro d hd r hr L hL
    obtain ⟨spec, -, rfl⟩ := List.mem_map.mp hr
    rfl
  · intro d r hr L hL hmany
    obtain ⟨spec, -, rfl⟩ := List.mem_map.mp hr
    rfl

/-- The tables say of every route of a destination that is not held what its status is. -/
theorem marks_current (topology : Topology) (timers : Timers) (tfp : Bool) (is : List Input)
    (h : Machine.Along marking (fun s i => s.1.keepsMarks i = true)
      (new topology timers tfp, fun _ => []) is) :
    let s := Machine.run marking (new topology timers tfp, fun _ => []) is
    ∀ d ∈ s.1.topology.dpcs, (s.1.destinations d).holding = false →
      ∀ r ∈ (s.1.destinations d).routes, ∀ L, r.via = .linkset L →
        routeStatus s.2 d L = r.status := by
  intro s d hd hh r hr L hL
  have hs : Tabled s := Machine.run_invariant (P := Tabled) (fun _ _ hs hk => hs.step hk)
    (tabled_new topology timers tfp) h
  have hagrees := hs.current.agrees d hd r hr L hL
  rw [hs.current.flushed d hh] at hagrees
  exact hagrees

/-- A destination behind two adjacent points, to each of which there is one link. -/
def forkTopology : Topology where
  ownPc := 1
  linksets := [⟨some 100, [0]⟩, ⟨some 200, [1]⟩]
  links := [⟨0, 0⟩, ⟨1, 0⟩]
  servers := 0
  routes := [(100, [⟨.linkset 0, 0⟩]), (200, [⟨.linkset 1, 0⟩]),
    (300, [⟨.linkset 0, 0⟩, ⟨.linkset 1, 0⟩])]
  member := pairTopology.member
  owner := pairTopology.owner
  nodup := pairTopology.nodup
  codes := pairTopology.codes
  destinations := by decide
  itu := by decide

theorem marks_current_of_restriction :
    routeStatus (Machine.run marking (new forkTopology unitTimers false, fun _ => [])
      [.linkUp 0, .linkUp 1, .timeout .restart, .received 0 100 0 (.tfr 300),
        .timeout (.rerouting 300)]).2 300 0 = .restricted :=
  marks_current forkTopology unitTimers false
    [.linkUp 0, .linkUp 1, .timeout .restart, .received 0 100 0 (.tfr 300),
      .timeout (.rerouting 300)] (by decide +kernel) 300 (by decide) (by decide +kernel)
    ⟨.linkset 0, 0, .restricted⟩ (by decide +kernel) 0 rfl

/-- A restriction is deferred, the link to its sender fails, and the restart of the sender
allows the route; then T6 runs out. -/
theorem deferred_mark_overwrites :
    ¬ ∀ (topology : Topology) (timers : Timers) (tfp : Bool) (is : List Input),
      let s := Machine.run marking (new topology timers tfp, fun _ => []) is
      ∀ d ∈ s.1.topology.dpcs, (s.1.destinations d).holding = false →
        ∀ r ∈ (s.1.destinations d).routes, ∀ L, r.via = .linkset L →
          routeStatus s.2 d L = r.status := by
  intro h
  have hallowed := h forkTopology unitTimers false
    [.linkUp 0, .linkUp 1, .timeout .restart, .received 0 100 0 (.tfr 300), .linkDown 0 0,
      .timeout (.changeover 0), .linkUp 0, .timeout (.rerouting 300)] 300 (by decide +kernel)
    (by decide +kernel) ⟨.linkset 0, 0, .allowed⟩ (by decide +kernel) 0 rfl
  exact absurd hallowed (by decide +kernel)

end Management

end SiphonSigtran.Mtp3
