import SiphonSigtran.Configuration.Validate

/-!
# What validation accepts

A configuration is accepted exactly if its associations and tenants are valid: a check of a block
accepts the blocks that have the fields of its structure, and the checks of a list accept the lists
of which every element passes and whose names are distinct.
-/

namespace SiphonSigtran.Configuration

open Lib Lib.Check
open Routing (Variant RouteTarget GttGroup ContentRule Mtp3Route Operation)
open Transport (Adaptation validateLinks)

variable {crates : Crates}

@[simp] theorem pass_ok {α ε : Type} (x : α) : (pass x : Except ε Unit) = .ok () := rfl

@[simp] theorem readable_ok_iff {α : Type} {read : Except String α} :
    readable read = .ok () ↔ ∃ a, read = .ok a := by
  cases read with
  | error e => simp [readable]
  | ok a => simp [readable]

@[simp] theorem Crates.resolve_ok_iff {ε : Type} {variant : Variant} {error : String → ε}
    {value : ℕ} : crates.resolve variant error value = .ok () ↔ crates.fits variant value := by
  unfold Crates.resolve Crates.fits
  cases crates.fromValue variant value with
  | error e => simp [Except.mapError]
  | ok u => simp [Except.mapError]

/-! ## Blocks of a tenant -/

section

variable {adaptation : String → Option Adaptation} {variant : Variant}

structure ApplicationServer.Valid (adaptation : String → Option Adaptation)
    (a : ApplicationServer) : Prop where
  asps : a.asps ≠ []
  pendingQueue : a.pendingQueue ≠ 0
  requiredAsps : a.requiredAsps ≠ 0 ∧ a.requiredAsps ≤ a.most
  served : ∃ x ≠ Adaptation.m2pa, ∀ asp ∈ a.asps, adaptation asp = some x

theorem checkAsps_some_ok_iff {server : String} {x : Adaptation} (hx : x ≠ .m2pa)
    {asps : List String} :
    checkAsps adaptation server (some x) asps = .ok () ↔
      ∀ asp ∈ asps, adaptation asp = some x := by
  induction asps with
  | nil => simp [checkAsps]
  | cons asp asps ih =>
    rw [List.forall_mem_cons, ← ih]
    cases hasp : adaptation asp with
    | none => simp [checkAsps, hasp]
    | some y =>
      by_cases hxy : x = y
      · subst hxy
        cases x with
        | m2pa => exact absurd rfl hx
        | m3ua => simp [checkAsps, hasp]
        | sua => simp [checkAsps, hasp]
      · have hyx : y ≠ x := fun h => hxy h.symm
        cases y with
        | m2pa => simp [checkAsps, hasp, hyx]
        | m3ua => simp [checkAsps, hasp, hxy, hyx]
        | sua => simp [checkAsps, hasp, hxy, hyx]

theorem checkAsps_none_ok_iff {server : String} {asps : List String} :
    checkAsps adaptation server none asps = .ok () ↔
      ∃ x ≠ Adaptation.m2pa, ∀ asp ∈ asps, adaptation asp = some x := by
  cases asps with
  | nil => exact ⟨fun _ => ⟨.m3ua, by decide, by simp⟩, fun _ => rfl⟩
  | cons asp asps =>
    have hfirst : ∀ x : Adaptation, x ≠ .m2pa → adaptation asp = some x →
        (checkAsps adaptation server none (asp :: asps) = .ok () ↔
          ∀ asp ∈ asps, adaptation asp = some x) := by
      intro x hx hasp
      rw [← checkAsps_some_ok_iff hx]
      cases x with
      | m2pa => exact absurd rfl hx
      | m3ua => rw [checkAsps, hasp]
      | sua => rw [checkAsps, hasp]
    constructor
    · intro h
      cases hasp : adaptation asp with
      | none => simp [checkAsps, hasp] at h
      | some x =>
        have hx : x ≠ .m2pa := by
          rintro rfl
          simp [checkAsps, hasp] at h
        exact ⟨x, hx, List.forall_mem_cons.mpr ⟨hasp, (hfirst x hx hasp).mp h⟩⟩
    · rintro ⟨x, hx, hall⟩
      obtain ⟨hasp, hrest⟩ := List.forall_mem_cons.mp hall
      exact (hfirst x hx hasp).mpr hrest

theorem checkServer_ok_iff {a : ApplicationServer} :
    checkServer adaptation a = .ok () ↔ a.Valid adaptation := by
  simp only [checkServer, bind_ok_iff, failIf_ok_iff, checkAsps_none_ok_iff, not_or, not_lt]
  constructor
  · rintro ⟨hasps, hqueue, hrequired, hserved⟩
    exact ⟨hasps, hqueue, hrequired, hserved⟩
  · rintro ⟨hasps, hqueue, hrequired, hserved⟩
    exact ⟨hasps, hqueue, hrequired, hserved⟩

structure Linkset.Valid (variant : Variant) (adaptation : String → Option Adaptation)
    (ls : Linkset) : Prop where
  links : ls.links ≠ []
  atMost : ls.links.length ≤ 16
  codes : ((List.range ls.links.length).map ls.slcOf).Nodup
  codesLe : ∀ index < ls.links.length, ls.slcOf index ≤ 15
  pattern : ls.linkTest.patternOctets ≠ none
  timers : ls.linkTest.t1Ms ≠ 0 ∧ ls.linkTest.t2Ms ≠ 0
  variant : variant ≠ .ansi
  m2pa : ∀ link ∈ ls.links, adaptation link.assoc = some .m2pa

theorem validateLinks_ok_iff {linkset : String} {links : List String} :
    validateLinks variant adaptation linkset links = .ok () ↔
      ∀ link ∈ links, variant ≠ .ansi ∧ adaptation link = some .m2pa := by
  induction links with
  | nil => simp [validateLinks]
  | cons link links ih =>
    rw [List.forall_mem_cons, ← ih]
    cases hlink : adaptation link with
    | none => simp [validateLinks, hlink]
    | some x =>
      cases x with
      | m3ua => simp [validateLinks, hlink]
      | sua => simp [validateLinks, hlink]
      | m2pa =>
        by_cases hansi : variant = .ansi
        · simp [validateLinks, hlink, hansi]
        · simp [validateLinks, hlink, hansi]

theorem checkLinkset_ok_iff {ls : Linkset} :
    checkLinkset variant adaptation ls = .ok () ↔ ls.Valid variant adaptation := by
  simp only [checkLinkset, bind_ok_iff, failIf_ok_iff, eachNew_ok_iff, pass_ok, not_or, not_lt,
    List.not_mem_nil, not_false_eq_true, implies_true, true_and, and_true, List.mem_range,
    validateLinks_ok_iff, List.forall_mem_map]
  constructor
  · rintro ⟨hlinks, hmost, ⟨hcodes, hle⟩, hpattern, htimers, hm2pa⟩
    obtain ⟨link, hlink⟩ := List.exists_mem_of_ne_nil _ hlinks
    exact ⟨hlinks, hmost, hcodes, hle, hpattern, htimers, (hm2pa link hlink).1,
      fun link hlink => (hm2pa link hlink).2⟩
  · rintro ⟨hlinks, hmost, hcodes, hle, hpattern, htimers, hvariant, hm2pa⟩
    exact ⟨hlinks, hmost, ⟨hcodes, hle⟩, hpattern, htimers,
      fun link hlink => ⟨hvariant, hm2pa link hlink⟩⟩

structure GttGroup.Valid (crates : Crates) (variant : Variant) (g : GttGroup) : Prop where
  members : g.members ≠ []
  dpcs : ∀ m ∈ g.members, crates.fits variant m.dpc

theorem checkGttGroup_ok_iff {g : GttGroup} :
    checkGttGroup crates variant g = .ok () ↔ GttGroup.Valid crates variant g := by
  simp only [checkGttGroup, bind_ok_iff, failIf_ok_iff, each_ok_iff, Crates.resolve_ok_iff,
    List.length_eq_zero_iff]
  constructor
  · rintro ⟨hmembers, hdpcs⟩
    exact ⟨hmembers, hdpcs⟩
  · rintro ⟨hmembers, hdpcs⟩
    exact ⟨hmembers, hdpcs⟩

end

/-! ## Routes and rules of a tenant -/

section

variable {tenants : Store String Tenant} {t : Tenant}

/-- A route names one of an Application Server and a linkset, which exists. -/
structure Mtp3Route.Valid (crates : Crates) (t : Tenant) (r : Mtp3Route) : Prop where
  dpc : crates.fits t.variant r.dpc
  dest : (∃ a ∈ t.serverNames, r.as_ = some a ∧ r.linkset = none) ∨
    ∃ l ∈ t.linksetNames, r.as_ = none ∧ r.linkset = some l

theorem checkRoute_ok_iff {r : Mtp3Route} :
    checkRoute crates t r = .ok () ↔ Mtp3Route.Valid crates t r := by
  simp only [checkRoute, bind_ok_iff, Crates.resolve_ok_iff]
  have hdest : ∀ h : crates.fits t.variant r.dpc, Mtp3Route.Valid crates t r ↔
      (∃ a ∈ t.serverNames, r.as_ = some a ∧ r.linkset = none) ∨
        ∃ l ∈ t.linksetNames, r.as_ = none ∧ r.linkset = some l :=
    fun h => ⟨fun hvalid => hvalid.dest, fun hdest => ⟨h, hdest⟩⟩
  constructor
  · rintro ⟨hfits, hcheck⟩
    rw [hdest hfits]
    cases ha : r.as_ with
    | none =>
      cases hl : r.linkset with
      | none => simp [ha, hl] at hcheck
      | some l => simpa [ha, hl] using hcheck
    | some a =>
      cases hl : r.linkset with
      | none => simpa [ha, hl] using hcheck
      | some l => simp [ha, hl] at hcheck
  · intro hvalid
    refine ⟨hvalid.dpc, ?_⟩
    rcases hvalid.dest with ⟨a, hmem, ha, hl⟩ | ⟨l, hmem, ha, hl⟩
    · simpa [ha, hl] using hmem
    · simpa [ha, hl] using hmem

/-- A target names something, and what it names exists. -/
structure RouteTarget.Valid (crates : Crates) (tenants : Store String Tenant) (t : Tenant)
    (target : RouteTarget) : Prop where
  named : named target ≠ 0
  dpc : ∀ dpc ∈ target.dpc, crates.fits t.variant dpc
  group : ∀ group ∈ target.group, group ∈ t.groupNames
  tenant : ∀ tenant ∈ target.tenant, tenant ∈ tenants

theorem validateTarget_ok_iff {target : RouteTarget} :
    validateTarget crates tenants t target = .ok () ↔
      RouteTarget.Valid crates tenants t target := by
  simp only [validateTarget, bind_ok_iff, failIf_ok_iff, ifSome_ok_iff, Crates.resolve_ok_iff,
    not_not]
  constructor
  · rintro ⟨hnamed, hdpc, hgroup, htenant⟩
    exact ⟨hnamed, hdpc, hgroup, htenant⟩
  · rintro ⟨hnamed, hdpc, hgroup, htenant⟩
    exact ⟨hnamed, hdpc, hgroup, htenant⟩

structure ContentRule.Valid (crates : Crates) (tenants : Store String Tenant) (t : Tenant)
    (cr : ContentRouting) (rule : ContentRule) : Prop where
  imsiIn : ∀ table ∈ rule.match_.imsiIn, table ∈ cr.imsiTables.map Prod.fst
  cdpaGtIn : ∀ table ∈ rule.match_.cdpaGtIn, table ∈ cr.addressTables.map Prod.fst
  cgpaGtIn : ∀ table ∈ rule.match_.cgpaGtIn, table ∈ cr.addressTables.map Prod.fst
  operations : ∀ operations ∈ rule.match_.operation, ∀ name ∈ operations,
    ∃ o, Operation.fromKebab name = some o ∧ o.isCap = decide (cr.protocol = .gsmCap)
  route : ∀ target ∈ rule.action.route, RouteTarget.Valid crates tenants t target

theorem checkOperation_ok_iff {protocol : ContentProtocol} {rule name : String} :
    checkOperation protocol rule name = .ok () ↔
      ∃ o, Operation.fromKebab name = some o ∧ o.isCap = decide (protocol = .gsmCap) := by
  unfold checkOperation
  cases Operation.fromKebab name with
  | none => simp
  | some o => simp

theorem checkContentRule_ok_iff {cr : ContentRouting} {rule : ContentRule} :
    checkContentRule crates tenants t cr rule = .ok () ↔
      ContentRule.Valid crates tenants t cr rule := by
  simp only [checkContentRule, bind_ok_iff, failIf_ok_iff, ifSome_ok_iff, each_ok_iff,
    mapError_ok_iff, validateTarget_ok_iff, checkOperation_ok_iff, not_not, List.forall_mem_cons,
    List.not_mem_nil, false_imp_iff, implies_true, and_true]
  constructor
  · rintro ⟨himsi, ⟨hcdpa, hcgpa⟩, hoperations, hroute⟩
    exact ⟨himsi, hcdpa, hcgpa, hoperations, hroute⟩
  · rintro ⟨himsi, hcdpa, hcgpa, hoperations, hroute⟩
    exact ⟨himsi, ⟨hcdpa, hcgpa⟩, hoperations, hroute⟩

structure ContentRouting.Valid (crates : Crates) (tenants : Store String Tenant) (t : Tenant)
    (cr : ContentRouting) : Prop where
  addressTables : (cr.addressTables.map Prod.fst).Nodup
  imsiTables : (cr.imsiTables.map Prod.fst).Nodup
  names : (cr.rules.map ContentRule.name).Nodup
  rules : ∀ rule ∈ cr.rules, ContentRule.Valid crates tenants t cr rule

theorem checkContentRouting_ok_iff {cr : ContentRouting} :
    checkContentRouting crates tenants t cr = .ok () ↔ cr.Valid crates tenants t := by
  simp only [checkContentRouting, bind_ok_iff, eachNew_ok_iff, pass_ok, checkContentRule_ok_iff,
    List.not_mem_nil, not_false_eq_true, implies_true, true_and, and_true]
  constructor
  · rintro ⟨haddress, himsi, hnames, hrules⟩
    exact ⟨haddress, himsi, hnames, hrules⟩
  · rintro ⟨haddress, himsi, hnames, hrules⟩
    exact ⟨haddress, himsi, hnames, hrules⟩

structure IsupScreening.Valid (crates : Crates) (scr : IsupScreening) : Prop where
  names : (scr.rules.map ScreenRule.name).Nodup
  types : ∀ rule ∈ scr.rules, ∀ type ∈ rule.messageType, crates.messageTypeFromName type ≠ none

end

/-! ## Tenants and configurations -/

structure Tenant.Valid (crates : Crates) (associations : List Association)
    (tenants : Store String Tenant) (t : Tenant) : Prop where
  pointCode : crates.fits t.variant t.pointCode
  timers : t.mtp3.zeroKey = none
  serverNames : t.serverNames.Nodup
  servers : ∀ a ∈ t.applicationServers, a.Valid (adaptationOf associations)
  linksetNames : t.linksetNames.Nodup
  apart : ∀ ls ∈ t.linksets, ls.name ∉ t.serverNames
  linksets : ∀ ls ∈ t.linksets, ls.Valid t.variant (adaptationOf associations)
  routes : ∀ r ∈ t.mtp3Routes, Mtp3Route.Valid crates t r
  groupNames : t.groupNames.Nodup
  groups : ∀ g ∈ t.sccp.gttGroups, GttGroup.Valid crates t.variant g
  gtt : ∀ rule ∈ t.sccp.gtt, RouteTarget.Valid crates tenants t rule.to_
  contentRouting : ∀ cr ∈ t.contentRouting, cr.Valid crates tenants t
  isupScreening : ∀ scr ∈ t.isupScreening, scr.Valid crates

theorem checkTenant_ok_iff {associations : List Association} {tenants : Store String Tenant}
    {t : Tenant} : checkTenant crates associations tenants t = .ok () ↔
      t.Valid crates associations tenants := by
  simp only [checkTenant, bind_ok_iff, failIf_ok_iff, failSome_ok_iff, ifSome_ok_iff, each_ok_iff,
    eachNew_ok_iff, pass_ok, mapError_ok_iff, Crates.resolve_ok_iff, checkServer_ok_iff,
    checkLinkset_ok_iff, checkRoute_ok_iff, checkGttGroup_ok_iff, validateTarget_ok_iff,
    checkContentRouting_ok_iff, checkScreenRule, List.not_mem_nil, not_false_eq_true, implies_true,
    true_and]
  constructor
  · rintro ⟨hown, htimers, ⟨hserverNames, hservers⟩, ⟨hapart, hlinksetNames, hlinksets⟩, hroutes,
      ⟨hgroupNames, hgroups⟩, hgtt, hcontent, hscreening⟩
    exact ⟨hown, htimers, hserverNames, hservers, hlinksetNames, hapart, hlinksets, hroutes,
      hgroupNames, hgroups, hgtt, hcontent,
      fun scr hscr => ⟨(hscreening scr hscr).1, (hscreening scr hscr).2⟩⟩
  · rintro ⟨hown, htimers, hserverNames, hservers, hlinksetNames, hapart, hlinksets, hroutes,
      hgroupNames, hgroups, hgtt, hcontent, hscreening⟩
    exact ⟨hown, htimers, ⟨hserverNames, hservers⟩, ⟨hapart, hlinksetNames, hlinksets⟩, hroutes,
      ⟨hgroupNames, hgroups⟩, hgtt, hcontent,
      fun scr hscr => ⟨(hscreening scr hscr).names, (hscreening scr hscr).types⟩⟩

structure Config.Valid (crates : Crates) (c : Config) : Prop where
  ids : (c.associations.map Association.id).Nodup
  associations : ∀ a ∈ c.associations, checkAssociation crates a = .ok ()
  endpoints : ∃ groups, listenGroups crates.text c.associations = .ok groups
  tenants : ∀ id t, c.tenants.lookup id = some t → t.Valid crates c.associations c.tenants

theorem mem_tenantsInOrder {c : Config} {id : String} {t : Tenant} :
    (id, t) ∈ c.tenantsInOrder ↔ c.tenants.lookup id = some t := by
  unfold Config.tenantsInOrder
  rw [List.mem_insertionSort, List.mem_map, ← Option.mem_def, AList.mem_lookup_iff]
  constructor
  · rintro ⟨e, he, heq⟩
    obtain ⟨rfl, rfl⟩ := Prod.mk.inj heq
    exact he
  · intro he
    exact ⟨⟨id, t⟩, he, rfl⟩

theorem Config.validate_ok_iff {c : Config} : c.validate crates = .ok () ↔ c.Valid crates := by
  simp only [validate, validateTenant, bind_ok_iff, eachNew_ok_iff, pass_ok, readable_ok_iff,
    each_ok_iff, mapError_ok_iff, checkTenant_ok_iff, Prod.forall, mem_tenantsInOrder,
    List.not_mem_nil, not_false_eq_true, implies_true, true_and]
  constructor
  · rintro ⟨⟨hids, hassociations⟩, hendpoints, htenants⟩
    exact ⟨hids, hassociations, hendpoints, htenants⟩
  · rintro ⟨hids, hassociations, hendpoints, htenants⟩
    exact ⟨⟨hids, hassociations⟩, hendpoints, htenants⟩

/-- A file is accepted if it can be read, and what it lists is valid. -/
theorem Config.parse_ok_iff {text : String} {c : Config} :
    parse crates text = .ok c ↔
      ∃ raw, crates.fromYaml text = .ok raw ∧ fromRaw raw = .ok c ∧ c.Valid crates := by
  unfold parse
  cases hraw : crates.fromYaml text with
  | error e => simp [bind, Except.bind]
  | ok raw =>
    cases hnormal : fromRaw raw with
    | error e => simp [hnormal, bind, Except.bind]
    | ok c' =>
      have hvalid : c'.validate crates = .ok () ↔ c'.Valid crates := validate_ok_iff
      cases hvalidate : c'.validate crates with
      | error e =>
        rw [hvalidate] at hvalid
        have hnot : ¬c'.Valid crates := fun h => by simpa using hvalid.mpr h
        simp only [bind, Except.bind, hnormal, hvalidate, reduceCtorEq, Except.ok.injEq,
          exists_eq_left', false_iff, not_and]
        rintro rfl
        exact hnot
      | ok u =>
        have hyes : c'.Valid crates := hvalid.mp hvalidate
        simp only [bind, Except.bind, pure, Except.pure, hnormal, hvalidate, Except.ok.injEq,
          exists_eq_left']
        exact ⟨fun h => ⟨h, h ▸ hyes⟩, fun h => h.1⟩

end SiphonSigtran.Configuration
