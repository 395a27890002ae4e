import SiphonSigtran.Configuration.Accepted

/-!
# The routing domain of a tenant

Management works on the linksets, the links and the routes of a tenant. The links are numbered one
linkset after the other, and the routes are those of the resolver without the ones to the tenant's
own point code. A valid tenant whose destinations have 14 bits is a domain that management takes.
-/

namespace SiphonSigtran.Configuration

open Lib
open Mtp3 (LinkSpec LinksetSpec RouteSpec Via)
open Routing (Candidate Destination RouteResolver)

def Association.routing (a : Association) : Routing.Association :=
  ⟨a.id, a.adaptation, a.adjacentPc⟩

def Linkset.routing (ls : Linkset) : Routing.Linkset := ⟨ls.name, ls.links.map Link.assoc⟩

/-- The adjacent point code of an M2PA association, by its id. -/
def adjacentOf (associations : List Association) (assoc : String) : Option ℕ :=
  (associations.find? fun a => a.id = assoc ∧ a.adaptation = .m2pa).bind Association.adjacentPc

/-- Number the links of one more linkset. -/
def addLinkset (associations : List Association) (specs : List LinksetSpec × List LinkSpec)
    (ls : Linkset) : List LinksetSpec × List LinkSpec :=
  (specs.1 ++ [⟨ls.links.findSome? fun link => adjacentOf associations link.assoc,
      List.range' specs.2.length ls.links.length⟩],
    specs.2 ++ (List.range ls.links.length).map fun position =>
      ⟨specs.1.length, ls.slcOf position⟩)

/-- The candidates of every destination. -/
def candidates (r : RouteResolver) : List (ℕ × Candidate) :=
  r.routes.entries.flatMap fun e => e.2.map fun c => (e.1, c)

namespace Tenant

variable (t : Tenant) (associations : List Association)

def resolver : RouteResolver :=
  .build t.variant (t.linksets.map Linkset.routing) t.mtp3Routes
    (associations.map Association.routing)

/-- What a destination of the resolver is for management. -/
def viaOf : Destination → Option Via
  | .linkset name => (t.linksetNames.idxOf? name).map .linkset
  | .applicationServer name => (t.serverNames.idxOf? name).map .server

/-- One more route. Two links of one linkset name the same adjacent point twice. -/
def addRoute (routes : Store ℕ (List RouteSpec)) (route : ℕ × Candidate) :
    Store ℕ (List RouteSpec) :=
  match t.viaOf route.2.dest with
  | none => routes
  | some via =>
    let specs := (routes.lookup route.1).getD []
    if ⟨via, route.2.priority⟩ ∈ specs then routes
    else routes.insert route.1 (specs ++ [⟨via, route.2.priority⟩])

/-- The linksets and the links. -/
def specs : List LinksetSpec × List LinkSpec := t.linksets.foldl (addLinkset associations) ([], [])

/-- The routes, in the order of their destinations. -/
def routes : List (ℕ × List RouteSpec) :=
  sortByKey Prod.fst
    ((((candidates (t.resolver associations)).foldl t.addRoute ∅).erase t.pointCode).entries.map
      fun e => (e.1, e.2))

/-- The destinations that the tenant has routes to. -/
def dpcs : List ℕ := (t.routes associations).map Prod.fst

end Tenant

/-! ## Numbering of the links -/

/-- The links of a linkset are those that name it, and have codes of their own. -/
structure Numbered (specs : List LinksetSpec × List LinkSpec) : Prop where
  member : ∀ l < specs.2.length, (specs.2.getD l ⟨0, 0⟩).linkset < specs.1.length ∧
    l ∈ (specs.1.getD (specs.2.getD l ⟨0, 0⟩).linkset ⟨none, []⟩).links
  owner : ∀ L < specs.1.length, ∀ l ∈ (specs.1.getD L ⟨none, []⟩).links,
    l < specs.2.length ∧ (specs.2.getD l ⟨0, 0⟩).linkset = L
  nodup : ∀ L < specs.1.length, (specs.1.getD L ⟨none, []⟩).links.Nodup
  codes : ∀ L < specs.1.length,
    ((specs.1.getD L ⟨none, []⟩).links.map fun l => (specs.2.getD l ⟨0, 0⟩).slc).Nodup

theorem Numbered.next {associations : List Association} {specs : List LinksetSpec × List LinkSpec}
    (h : Numbered specs) {ls : Linkset}
    (hcodes : ((List.range ls.links.length).map ls.slcOf).Nodup) :
    Numbered (addLinkset associations specs ls) := by
  obtain ⟨linksets, links⟩ := specs
  obtain ⟨hmember, howner, hnodup, hold⟩ := h
  dsimp only at hmember howner hnodup hold
  set new : LinksetSpec := ⟨ls.links.findSome? fun link => adjacentOf associations link.assoc,
    List.range' links.length ls.links.length⟩
  set more : List LinkSpec := (List.range ls.links.length).map fun position =>
    ⟨linksets.length, ls.slcOf position⟩ with hmore
  have hadd : addLinkset associations (linksets, links) ls = (linksets ++ [new], links ++ more) :=
    rfl
  have hlength : more.length = ls.links.length := by simp [hmore]
  -- what is there already stays where it is
  have hlink : ∀ l < links.length, (links ++ more).getD l ⟨0, 0⟩ = links.getD l ⟨0, 0⟩ :=
    fun l hl => List.getD_append _ _ _ _ hl
  have hlinkset : ∀ L < linksets.length,
      (linksets ++ [new]).getD L ⟨none, []⟩ = linksets.getD L ⟨none, []⟩ :=
    fun L hL => List.getD_append _ _ _ _ hL
  -- and the new ones come after it
  have hlast : (linksets ++ [new]).getD linksets.length ⟨none, []⟩ = new := by simp
  have hat : ∀ p < ls.links.length, (links ++ more).getD (links.length + p) ⟨0, 0⟩ =
      ⟨linksets.length, ls.slcOf p⟩ := by
    intro p hp
    rw [List.getD_append_right _ _ _ _ (Nat.le_add_right _ _), Nat.add_sub_cancel_left, hmore]
    simp [hp]
  have hnew : ∀ L < (linksets ++ [new]).length, L < linksets.length ∨ L = linksets.length := by
    intro L hL
    rw [List.length_append, List.length_singleton] at hL
    omega
  rw [hadd]
  refine ⟨?_, ?_, ?_, ?_⟩
  · intro l hl
    rw [List.length_append, hlength] at hl
    rw [List.length_append, List.length_singleton]
    rcases Nat.lt_or_ge l links.length with hbefore | hafter
    · obtain ⟨hlt, hmem⟩ := hmember l hbefore
      rw [hlink l hbefore, hlinkset _ hlt]
      exact ⟨Nat.lt_succ_of_lt hlt, hmem⟩
    · obtain ⟨p, rfl⟩ := Nat.exists_eq_add_of_le hafter
      rw [hat p (by omega), hlast]
      exact ⟨Nat.lt_succ_self _, List.mem_range'_1.mpr ⟨hafter, hl⟩⟩
  · intro L hL l hmem
    rw [List.length_append, hlength]
    rcases hnew L hL with hbefore | rfl
    · rw [hlinkset L hbefore] at hmem
      obtain ⟨hl, hL⟩ := howner L hbefore l hmem
      rw [hlink l hl]
      exact ⟨Nat.lt_of_lt_of_le hl (Nat.le_add_right _ _), hL⟩
    · rw [hlast] at hmem
      obtain ⟨hle, hlt⟩ := List.mem_range'_1.mp hmem
      obtain ⟨p, rfl⟩ := Nat.exists_eq_add_of_le hle
      rw [hat p (by omega)]
      exact ⟨hlt, rfl⟩
  · intro L hL
    rcases hnew L hL with hbefore | rfl
    · rw [hlinkset L hbefore]
      exact hnodup L hbefore
    · rw [hlast]
      exact List.nodup_range'
  · intro L hL
    rcases hnew L hL with hbefore | rfl
    · rw [hlinkset L hbefore]
      have hsame : (linksets.getD L ⟨none, []⟩).links.map
          (fun l => ((links ++ more).getD l ⟨0, 0⟩).slc) =
            (linksets.getD L ⟨none, []⟩).links.map fun l => (links.getD l ⟨0, 0⟩).slc :=
        List.map_congr_left fun l hl => by rw [hlink l (howner L hbefore l hl).1]
      rw [hsame]
      exact hold L hbefore
    · rw [hlast]
      have hsame : (List.range' links.length ls.links.length).map
          (fun l => ((links ++ more).getD l ⟨0, 0⟩).slc) =
            (List.range ls.links.length).map ls.slcOf := by
        rw [List.range'_eq_map_range, List.map_map]
        exact List.map_congr_left fun p hp => by
          rw [Function.comp_apply, hat p (List.mem_range.mp hp)]
      rw [hsame]
      exact hcodes

theorem Numbered.all {associations : List Association} {linksets : List Linkset}
    (hcodes : ∀ ls ∈ linksets, ((List.range ls.links.length).map ls.slcOf).Nodup)
    {specs : List LinksetSpec × List LinkSpec} (h : Numbered specs) :
    Numbered (linksets.foldl (addLinkset associations) specs) := by
  induction linksets generalizing specs with
  | nil => exact h
  | cons ls linksets ih =>
    obtain ⟨hfirst, hrest⟩ := List.forall_mem_cons.mp hcodes
    exact ih hrest (h.next hfirst)

/-! ## The associations of a linkset -/

section

variable {associations : List Association} {id : String}

theorem eq_of_id (hids : (associations.map Association.id).Nodup) {a b : Association}
    (ha : a ∈ associations) (hb : b ∈ associations) (h : a.id = b.id) : a = b :=
  List.inj_on_of_nodup_map hids ha hb h

theorem exists_of_adaptationOf {x : Transport.Adaptation}
    (h : adaptationOf associations id = some x) :
    ∃ a ∈ associations, a.id = id ∧ a.adaptation = x := by
  obtain ⟨a, ha, heq⟩ := List.mem_map.mp (Store.mem_of_lookup_ofList h)
  obtain ⟨rfl, rfl⟩ := Prod.mk.inj heq
  exact ⟨a, ha, rfl, rfl⟩

theorem adaptationOf_of_mem (hids : (associations.map Association.id).Nodup) {a : Association}
    (ha : a ∈ associations) : adaptationOf associations a.id = some a.adaptation := by
  refine Store.lookup_ofList ?_ (List.mem_map.mpr ⟨a, ha, rfl⟩)
  rw [List.map_map]
  exact hids

/-- The resolver takes the adjacent point code that the association of a link has. -/
theorem adjacentOf_routing_iff (hids : (associations.map Association.id).Nodup)
    (hm2pa : adaptationOf associations id = some .m2pa) {pc : ℕ} :
    RouteResolver.adjacentOf (associations.map Association.routing) id = some pc ↔
      ∃ a ∈ associations, a.id = id ∧ a.adjacentPc = some pc := by
  unfold RouteResolver.adjacentOf
  constructor
  · intro h
    obtain ⟨b, hb, hpc⟩ := List.exists_of_findSome?_eq_some h
    rw [List.mem_reverse, List.mem_map] at hb
    obtain ⟨a, ha, rfl⟩ := hb
    split_ifs at hpc with hthis
    exact ⟨a, ha, hthis.1, hpc⟩
  · rintro ⟨a, ha, rfl, hpc⟩
    rw [adaptationOf_of_mem hids ha, Option.some.injEq] at hm2pa
    cases hfound : (associations.map Association.routing).reverse.findSome? fun b =>
        if b.id = a.id ∧ b.adaptation = .m2pa then b.adjacentPc else none with
    | none =>
      have hnone := List.findSome?_eq_none_iff.mp hfound a.routing
        (List.mem_reverse.mpr (List.mem_map_of_mem ha))
      simp [Association.routing, hm2pa, hpc] at hnone
    | some pc' =>
      obtain ⟨b, hb, hpc'⟩ := List.exists_of_findSome?_eq_some hfound
      rw [List.mem_reverse, List.mem_map] at hb
      obtain ⟨b, hb, rfl⟩ := hb
      split_ifs at hpc' with hthis
      obtain rfl := eq_of_id hids hb ha hthis.1
      exact hpc'.symm.trans hpc

end

/-! ## The destinations -/

namespace Tenant

variable {crates : Crates} {t : Tenant} {associations : List Association}
  {tenants : Store String Tenant} {d : ℕ}

/-- A point code is the adjacent point of an association that a linkset uses. -/
def Adjacent (t : Tenant) (associations : List Association) (pc : ℕ) : Prop :=
  ∃ ls ∈ t.linksets, ∃ link ∈ ls.links, ∃ a ∈ associations, a.id = link.assoc ∧
    a.adjacentPc = some pc

/-- A destination has a route of the configuration, or is an adjacent point. -/
def Reaches (t : Tenant) (associations : List Association) (d : ℕ) : Prop :=
  (∃ r ∈ t.mtp3Routes, r.dpc = d) ∨ t.Adjacent associations d

theorem mem_addRoute {routes : Store ℕ (List RouteSpec)} {route : ℕ × Candidate} :
    d ∈ t.addRoute routes route ↔
      d ∈ routes ∨ route.1 = d ∧ (t.viaOf route.2.dest).isSome := by
  unfold addRoute
  cases hvia : t.viaOf route.2.dest with
  | none => simp
  | some via =>
    dsimp only
    split_ifs with hold
    · refine ⟨.inl, ?_⟩
      rintro (hmem | ⟨rfl, -⟩)
      · exact hmem
      · by_contra hnot
        rw [AList.lookup_eq_none.mpr hnot] at hold
        simp at hold
    · rw [AList.mem_insert]
      simp [or_comm, eq_comm]

theorem mem_candidates {r : RouteResolver} {c : Candidate} :
    (d, c) ∈ candidates r ↔ c ∈ (r.routes.lookup d).getD [] := by
  unfold candidates
  constructor
  · intro hmem
    obtain ⟨e, he, hc⟩ := List.mem_flatMap.mp hmem
    obtain ⟨c', hc', heq⟩ := List.mem_map.mp hc
    obtain ⟨rfl, rfl⟩ := Prod.mk.inj heq
    rw [AList.mem_lookup_iff.mpr he, Option.getD_some]
    exact hc'
  · intro hc
    cases hlookup : r.routes.lookup d with
    | none => simp [hlookup] at hc
    | some cs =>
      rw [hlookup, Option.getD_some] at hc
      exact List.mem_flatMap.mpr ⟨⟨d, cs⟩, AList.mem_lookup_iff.mp hlookup,
        List.mem_map.mpr ⟨c, hc, rfl⟩⟩

/-- What the resolver leads to is known to management under a name. -/
theorem viaOf_isSome (h : t.Valid crates associations tenants) {via : Destination}
    (hleads : RouteResolver.Leads (t.resolver associations).routes d via) :
    (t.viaOf via).isSome := by
  rcases RouteResolver.leads_build.mp hleads with ⟨_, hnamed, -, -, -, rfl⟩ | ⟨r, hr, -, hdest⟩
  · obtain ⟨ls, hls, rfl⟩ := List.mem_map.mp hnamed
    have hname : ls.name ∈ t.linksetNames := List.mem_map_of_mem hls
    simpa [viaOf, Linkset.routing] using hname
  · rcases (h.routes r hr).dest with ⟨a, hname, ha, hl⟩ | ⟨l, hname, ha, hl⟩
    · obtain rfl : Destination.applicationServer a = via := by
        simpa [RouteResolver.dest, ha] using hdest
      simpa [viaOf] using hname
    · obtain rfl : Destination.linkset l = via := by
        simpa [RouteResolver.dest, ha, hl] using hdest
      simpa [viaOf] using hname

theorem leads_iff_reaches (hids : (associations.map Association.id).Nodup)
    (h : t.Valid crates associations tenants) :
    (∃ via, RouteResolver.Leads (t.resolver associations).routes d via) ↔
      t.Reaches associations d := by
  constructor
  · rintro ⟨via, hleads⟩
    rcases RouteResolver.leads_build.mp hleads with ⟨_, hnamed, _, hrides, hadjacent, -⟩ | hroute
    · obtain ⟨ls, hls, rfl⟩ := List.mem_map.mp hnamed
      obtain ⟨link, hlink, rfl⟩ := List.mem_map.mp hrides
      have hm2pa := (h.linksets ls hls).m2pa link hlink
      exact .inr ⟨ls, hls, link, hlink, (adjacentOf_routing_iff hids hm2pa).mp hadjacent⟩
    · obtain ⟨r, hr, hd, -⟩ := hroute
      exact .inl ⟨r, hr, hd⟩
  · rintro (⟨r, hr, hd⟩ | ⟨ls, hls, link, hlink, hadjacent⟩)
    · have hdest : ∃ via, RouteResolver.dest r = some via := by
        rcases (h.routes r hr).dest with ⟨a, -, ha, -⟩ | ⟨l, -, ha, hl⟩
        · exact ⟨.applicationServer a, by rw [RouteResolver.dest, ha]⟩
        · exact ⟨.linkset l, by rw [RouteResolver.dest, ha, hl]⟩
      obtain ⟨via, hvia⟩ := hdest
      exact ⟨via, RouteResolver.leads_build.mpr (.inr ⟨r, hr, hd, hvia⟩)⟩
    · have hm2pa := (h.linksets ls hls).m2pa link hlink
      exact ⟨.linkset ls.name, RouteResolver.leads_build.mpr (.inl ⟨ls.routing,
        List.mem_map_of_mem hls, link.assoc, List.mem_map_of_mem hlink,
        (adjacentOf_routing_iff hids hm2pa).mpr hadjacent, rfl⟩)⟩

/-- The destinations of a valid tenant are the point codes that it reaches, besides its own. -/
theorem mem_dpcs_iff (hids : (associations.map Association.id).Nodup)
    (h : t.Valid crates associations tenants) :
    d ∈ t.dpcs associations ↔ d ≠ t.pointCode ∧ t.Reaches associations d := by
  have hkeys : ∀ s : Store ℕ (List RouteSpec),
      d ∈ (sortByKey Prod.fst (s.entries.map fun e => (e.1, e.2))).map Prod.fst ↔ d ∈ s := by
    intro s
    simp [sortByKey, AList.mem_keys, AList.keys, List.keys]
  have hfold : d ∈ (candidates (t.resolver associations)).foldl t.addRoute ∅ ↔
      ∃ route ∈ candidates (t.resolver associations),
        route.1 = d ∧ (t.viaOf route.2.dest).isSome := by
    rw [Store.foldl_iff (f := t.addRoute) (p := fun routes => d ∈ routes)
      (fun _ _ => mem_addRoute)]
    simp
  rw [dpcs, routes, hkeys, AList.mem_erase, hfold, ← leads_iff_reaches hids h]
  refine and_congr_right fun _ => ?_
  constructor
  · rintro ⟨⟨_, c⟩, hmem, rfl, -⟩
    exact ⟨c.dest, c, mem_candidates.mp hmem, rfl⟩
  · rintro ⟨via, hleads⟩
    have hvia := viaOf_isSome h hleads
    obtain ⟨c, hc, rfl⟩ := hleads
    exact ⟨(d, c), mem_candidates.mpr hc, rfl, hvia⟩

theorem nodup_dpcs : (t.dpcs associations).Nodup := by
  have hperm : ∀ s : Store ℕ (List RouteSpec),
      ((sortByKey Prod.fst (s.entries.map fun e => (e.1, e.2))).map Prod.fst).Perm s.keys := by
    intro s
    refine ((List.perm_insertionSort _ _).map Prod.fst).trans ?_
    rw [List.map_map]
    exact List.Perm.refl _
  exact (hperm _).nodup_iff.mpr (AList.keys_nodup _)

/-- The domain of a valid tenant whose destinations have 14 bits. -/
def topology (h : t.Valid crates associations tenants)
    (hitu : ∀ d ∈ t.dpcs associations, d < 0x4000) : Mtp3.Topology :=
  have hnumbered : Numbered (t.specs associations) :=
    Numbered.all (fun ls hls => (h.linksets ls hls).codes) ⟨by simp, by simp, by simp, by simp⟩
  { ownPc := t.pointCode
    linksets := (t.specs associations).1
    links := (t.specs associations).2
    servers := t.applicationServers.length
    routes := t.routes associations
    member := hnumbered.member
    owner := hnumbered.owner
    nodup := hnumbered.nodup
    codes := hnumbered.codes
    destinations := nodup_dpcs
    itu := hitu }

end Tenant

end SiphonSigtran.Configuration
