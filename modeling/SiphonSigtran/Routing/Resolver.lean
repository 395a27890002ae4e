import SiphonSigtran.Lib.Least
import SiphonSigtran.Lib.Store
import SiphonSigtran.Routing.RouteState
import SiphonSigtran.Transport.Aspm

/-!
# The route resolver

The routes of a routing domain: those to the adjacent points of its linksets, and
those the configuration lists. A destination is resolved to where its messages
go out, among the routes that are available.
-/

namespace SiphonSigtran.Routing

open Lib Mtp3
open Transport (Adaptation)

inductive Variant
  | itu
  | ansi
  | china
  deriving DecidableEq, Repr

/-- An association of the configuration, as routing reads it. -/
structure Association where
  id : String
  adaptation : Adaptation
  adjacentPc : Option ℕ

/-- A linkset of the configuration: its links are associations by their names. -/
structure Linkset where
  name : String
  links : List String

/-- A route of the configuration. -/
structure Mtp3Route where
  dpc : ℕ
  as_ : Option String
  linkset : Option String
  priority : ℕ

/-- One candidate route to a destination. -/
structure Candidate where
  dest : Destination
  priority : ℕ
  deriving DecidableEq, Repr

/-- The priority of an implicit adjacent route. -/
def adjacentPriority : ℕ := 0

/-- The candidate routes of the destinations, sorted by priority. -/
structure RouteResolver where
  variant : Variant
  routes : Store ℕ (List Candidate)

namespace RouteResolver

/-- One more candidate of a destination. -/
def push (routes : Store ℕ (List Candidate)) (dpc : ℕ) (c : Candidate) :
    Store ℕ (List Candidate) :=
  routes.insert dpc ((routes.lookup dpc).getD [] ++ [c])

/-- The adjacent point code of an association: of those with the name the last one that is of
M2PA and has one. -/
def adjacentOf (associations : List Association) (id : String) : Option ℕ :=
  (associations.reverse.findSome? fun a =>
    if a.id = id ∧ a.adaptation = .m2pa then a.adjacentPc else none)

/-- The route to the adjacent point of a link, once for its linkset. -/
def adjacent (associations : List Association) (name : String)
    (routes : Store ℕ (List Candidate)) (link : String) : Store ℕ (List Candidate) :=
  match adjacentOf associations link with
  | none => routes
  | some pc =>
    let candidate : Candidate := ⟨.linkset name, adjacentPriority⟩
    if candidate ∈ (routes.lookup pc).getD [] then routes else push routes pc candidate

/-- A route of the configuration, to an Application Server or to a linkset. -/
def explicit (routes : Store ℕ (List Candidate)) (r : Mtp3Route) : Store ℕ (List Candidate) :=
  match r.as_, r.linkset with
  | some a, _ => push routes r.dpc ⟨.applicationServer a, r.priority⟩
  | none, some l => push routes r.dpc ⟨.linkset l, r.priority⟩
  | none, none => routes

/-- Build the resolver of a domain. -/
def build (variant : Variant) (linksets : List Linkset) (mtp3Routes : List Mtp3Route)
    (associations : List Association) : RouteResolver :=
  let routes := linksets.foldl
    (fun routes ls => ls.links.foldl (adjacent associations ls.name) routes) ∅
  let routes := mtp3Routes.foldl explicit routes
  ⟨variant, routes.mapValues fun _ candidates => sortByKey Candidate.priority candidates⟩

/-- Whether a candidate can carry a message that is not to go through `avoid`. -/
def usable (state : RouteState) (dpc : ℕ) (avoid : Option Destination) (c : Candidate) : Usable :=
  if state.isAvailable c.dest = false ∨ avoid = some c.dest then .no
  else match routeStatus state.marks dpc c.dest with
    | .allowed => .yes
    | .restricted => .restricted
    | .prohibited => .no

/-- Resolve a destination, without the routes through `avoid`. -/
def resolveAvoiding (r : RouteResolver) (dpc sls : ℕ) (state : RouteState)
    (avoid : Option Destination) : Option Destination :=
  if state.isProhibited dpc then none
  else match r.routes.lookup dpc with
    | none => none
    | some candidates =>
      match chooseRoute Candidate.priority (usable state dpc avoid) candidates sls with
      | none => none
      | some i => candidates[i]?.map Candidate.dest

/-- Resolve a destination for a message with the selection code `sls`. -/
def resolveFor (r : RouteResolver) (dpc sls : ℕ) (state : RouteState) : Option Destination :=
  r.resolveAvoiding dpc sls state none

/-- What a destination resolves to is one of its candidates, is available, and is not what was
to be avoided; neither the destination nor the route is prohibited. -/
theorem resolveAvoiding_some {r : RouteResolver} {dpc sls : ℕ} {state : RouteState}
    {avoid : Option Destination} {via : Destination}
    (h : r.resolveAvoiding dpc sls state avoid = some via) :
    state.isProhibited dpc = false ∧ state.isAvailable via = true ∧ avoid ≠ some via ∧
      routeStatus state.marks dpc via ≠ .prohibited ∧
      ∃ candidates, r.routes.lookup dpc = some candidates ∧
        via ∈ candidates.map Candidate.dest := by
  unfold resolveAvoiding at h
  split_ifs at h with hprohibited
  cases hlookup : r.routes.lookup dpc with
  | none => simp [hlookup] at h
  | some candidates =>
    simp only [hlookup] at h
    cases hchoose : chooseRoute Candidate.priority (usable state dpc avoid) candidates sls with
    | none => simp [hchoose] at h
    | some i =>
      obtain ⟨c, hc, husable⟩ := usable_of_chooseRoute _ _ hchoose
      simp only [hchoose, hc, Option.map_some, Option.some.injEq] at h
      subst h
      have hmem : c.dest ∈ candidates.map Candidate.dest :=
        List.mem_map_of_mem (List.mem_of_getElem? hc)
      unfold usable at husable
      split_ifs at husable with hskip
      · exact absurd rfl husable
      · obtain ⟨hup, havoid⟩ := not_or.mp hskip
        refine ⟨by simpa using hprohibited, by simpa using hup, havoid, ?_, candidates, rfl, hmem⟩
        intro hmark
        simp [hmark] at husable

/-! ## What there is a route to -/

/-- There is a route to a destination through something. -/
def Leads (routes : Store ℕ (List Candidate)) (dpc : ℕ) (via : Destination) : Prop :=
  ∃ c ∈ (routes.lookup dpc).getD [], c.dest = via

theorem leads_push {routes : Store ℕ (List Candidate)} {dpc d : ℕ} {c : Candidate}
    {via : Destination} :
    Leads (push routes dpc c) d via ↔ Leads routes d via ∨ dpc = d ∧ c.dest = via := by
  unfold Leads push
  by_cases hd : d = dpc
  · subst hd
    rw [AList.lookup_insert, Option.getD_some]
    simp [or_and_right, exists_or]
  · have hne : ¬dpc = d := fun h => hd h.symm
    rw [AList.lookup_insert_ne hd]
    simp [hne]

theorem leads_adjacent {associations : List Association} {name link : String}
    {routes : Store ℕ (List Candidate)} {d : ℕ} {via : Destination} :
    Leads (adjacent associations name routes link) d via ↔
      Leads routes d via ∨ adjacentOf associations link = some d ∧ .linkset name = via := by
  unfold adjacent
  cases hadjacent : adjacentOf associations link with
  | none => simp
  | some pc =>
    rw [Option.some.injEq]
    dsimp only
    split_ifs with hold
    · refine ⟨.inl, ?_⟩
      rintro (hleads | ⟨rfl, rfl⟩)
      · exact hleads
      · exact ⟨_, hold, rfl⟩
    · rw [leads_push]

/-- What a route of the configuration goes through. -/
def dest (r : Mtp3Route) : Option Destination :=
  match r.as_, r.linkset with
  | some a, _ => some (.applicationServer a)
  | none, some l => some (.linkset l)
  | none, none => none

theorem leads_explicit {routes : Store ℕ (List Candidate)} {r : Mtp3Route} {d : ℕ}
    {via : Destination} :
    Leads (explicit routes r) d via ↔ Leads routes d via ∨ r.dpc = d ∧ dest r = some via := by
  unfold explicit dest
  cases r.as_ with
  | some a => simp only [leads_push, Option.some.injEq]
  | none =>
    cases r.linkset with
    | some l => simp only [leads_push, Option.some.injEq]
    | none => simp

/-- There is a route to a destination through a linkset that has it as an adjacent point, and
through what the routes of the configuration to it name. -/
theorem leads_build {variant : Variant} {linksets : List Linkset} {mtp3Routes : List Mtp3Route}
    {associations : List Association} {d : ℕ} {via : Destination} :
    Leads (build variant linksets mtp3Routes associations).routes d via ↔
      (∃ ls ∈ linksets, ∃ link ∈ ls.links,
        adjacentOf associations link = some d ∧ .linkset ls.name = via) ∨
        ∃ r ∈ mtp3Routes, r.dpc = d ∧ dest r = some via := by
  have hsorted : ∀ routes : Store ℕ (List Candidate),
      Leads (routes.mapValues fun _ candidates => sortByKey Candidate.priority candidates) d via ↔
        Leads routes d via := by
    intro routes
    unfold Leads
    rw [Store.lookup_mapValues]
    cases routes.lookup d with
    | none => rfl
    | some candidates => simp [sortByKey]
  have hadjacent : ∀ (routes : Store ℕ (List Candidate)) (ls : Linkset),
      Leads (ls.links.foldl (adjacent associations ls.name) routes) d via ↔
        Leads routes d via ∨ ∃ link ∈ ls.links,
          adjacentOf associations link = some d ∧ .linkset ls.name = via :=
    fun routes ls => Store.foldl_iff (f := adjacent associations ls.name)
      (p := fun routes => Leads routes d via) (fun _ _ => leads_adjacent) ls.links routes
  have hempty : ¬Leads ∅ d via := by simp [Leads]
  unfold build
  dsimp only
  rw [hsorted, Store.foldl_iff (f := explicit) (p := fun routes => Leads routes d via)
      (fun _ _ => leads_explicit),
    Store.foldl_iff (p := fun routes => Leads routes d via) hadjacent, or_iff_right hempty]

end RouteResolver

end SiphonSigtran.Routing
