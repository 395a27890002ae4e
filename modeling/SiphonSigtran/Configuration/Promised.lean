import SiphonSigtran.Configuration.Topology

/-!
# What the node relies on of a configuration

The rest of the node takes every point code of a tenant to fit its variant, a route target to name
one thing, and a destination to have the 14 bits that a management message has room for. Validation
establishes what it checks of this. It lets through a target that names two things, an adjacent
point code that only the widest variant has room for, and destinations of 24 bits in a tenant that
is not of ITU.
-/

namespace SiphonSigtran.Configuration

open Lib
open Mtp3 (ManagementMessage about)
open Routing (RouteTarget)

/-- The route targets of a tenant: those of its rules of GTT and of content routing. -/
def Tenant.targets (t : Tenant) : List RouteTarget :=
  t.sccp.gtt.map (fun rule => rule.to_) ++
    t.contentRouting.toList.flatMap fun cr => cr.rules.filterMap fun rule => rule.action.route

/-- What the node relies on of a tenant. -/
structure Promised (crates : Crates) (c : Config) (t : Tenant) : Prop where
  own : crates.fits t.variant t.pointCode
  routes : ∀ r ∈ t.mtp3Routes, crates.fits t.variant r.dpc
  members : ∀ g ∈ t.sccp.gttGroups, ∀ m ∈ g.members, crates.fits t.variant m.dpc
  targets : ∀ target ∈ t.targets, ∀ dpc ∈ target.dpc, crates.fits t.variant dpc
  adjacents : ∀ pc, t.Adjacent c.associations pc → crates.fits t.variant pc
  one : ∀ target ∈ t.targets, named target = 1
  asps : ∀ server ∈ t.applicationServers, ∀ asp ∈ server.asps, ∃ a ∈ c.associations, a.id = asp
  links : ∀ ls ∈ t.linksets, ∀ link ∈ ls.links, ∃ a ∈ c.associations, a.id = link.assoc
  servers : ∀ r ∈ t.mtp3Routes, ∀ name ∈ r.as_, ∃ server ∈ t.applicationServers, server.name = name
  linksets : ∀ r ∈ t.mtp3Routes, ∀ name ∈ r.linkset, ∃ ls ∈ t.linksets, ls.name = name
  groups : ∀ target ∈ t.targets, ∀ name ∈ target.group, ∃ g ∈ t.sccp.gttGroups, g.name = name
  tenants : ∀ target ∈ t.targets, ∀ id ∈ target.tenant, ∃ other, c.tenants.lookup id = some other
  imsiTables : ∀ cr ∈ t.contentRouting, ∀ rule ∈ cr.rules, ∀ name ∈ rule.match_.imsiIn,
    ∃ table ∈ cr.imsiTables, table.1 = name
  addressTables : ∀ cr ∈ t.contentRouting, ∀ rule ∈ cr.rules,
    ∀ field ∈ [rule.match_.cdpaGtIn, rule.match_.cgpaGtIn], ∀ name ∈ field,
      ∃ table ∈ cr.addressTables, table.1 = name
  announced : ∀ d ∈ t.dpcs c.associations, ∀ make : ℕ → ManagementMessage, (about d make).isSome

/-- What validation leaves open of it. -/
structure Exact (crates : Crates) (c : Config) (t : Tenant) : Prop where
  one : ∀ target ∈ t.targets, named target ≤ 1
  adjacents : ∀ pc, t.Adjacent c.associations pc → crates.fits t.variant pc
  narrow : t.variant ≠ .itu → ∀ d, t.Reaches c.associations d → d ≠ t.pointCode → d < 0x4000

section

variable {crates : Crates} {c : Config} {t : Tenant}

theorem valid_of_mem_targets (h : t.Valid crates c.associations c.tenants) {target : RouteTarget}
    (htarget : target ∈ t.targets) : RouteTarget.Valid crates c.tenants t target := by
  rcases List.mem_append.mp htarget with hgtt | hcontent
  · obtain ⟨rule, hrule, rfl⟩ := List.mem_map.mp hgtt
    exact h.gtt rule hrule
  · obtain ⟨cr, hcr, hmem⟩ := List.mem_flatMap.mp hcontent
    obtain ⟨rule, hrule, hroute⟩ := List.mem_filterMap.mp hmem
    exact ((h.contentRouting cr (Option.mem_toList.mp hcr)).rules rule hrule).route target hroute

theorem announced_iff {d : ℕ} :
    (∀ make : ℕ → ManagementMessage, (about d make).isSome) ↔ d < 0x4000 := by
  unfold about
  constructor
  · intro h
    by_contra hwide
    simpa [hwide] using h .tfp
  · intro h make
    rw [if_pos h, Option.isSome_some]

/-- Of a valid tenant the node can rely on everything, if validation leaves nothing open. -/
theorem promised_iff_exact (hitu : ∀ v, crates.fits .itu v ↔ v < 0x4000)
    (hids : (c.associations.map Association.id).Nodup)
    (h : t.Valid crates c.associations c.tenants) : Promised crates c t ↔ Exact crates c t := by
  constructor
  · intro hp
    refine ⟨fun target htarget => (hp.one target htarget).le, hp.adjacents, fun _ d hd hown => ?_⟩
    exact announced_iff.mp (hp.announced d ((Tenant.mem_dpcs_iff hids h).mpr ⟨hown, hd⟩))
  · intro he
    have hserved : ∀ server ∈ t.applicationServers, ∀ asp ∈ server.asps,
        ∃ a ∈ c.associations, a.id = asp := by
      intro server hserver asp hasp
      obtain ⟨x, -, hall⟩ := (h.servers server hserver).served
      obtain ⟨a, ha, hid, -⟩ := exists_of_adaptationOf (hall asp hasp)
      exact ⟨a, ha, hid⟩
    have hlinks : ∀ ls ∈ t.linksets, ∀ link ∈ ls.links,
        ∃ a ∈ c.associations, a.id = link.assoc := by
      intro ls hls link hlink
      obtain ⟨a, ha, hid, -⟩ := exists_of_adaptationOf ((h.linksets ls hls).m2pa link hlink)
      exact ⟨a, ha, hid⟩
    have hroutes : ∀ r ∈ t.mtp3Routes, (∀ name ∈ r.as_, name ∈ t.serverNames) ∧
        ∀ name ∈ r.linkset, name ∈ t.linksetNames := by
      intro r hr
      rcases (h.routes r hr).dest with ⟨a, hname, ha, hl⟩ | ⟨l, hname, ha, hl⟩
      · exact ⟨by simpa [ha] using hname, by simp [hl]⟩
      · exact ⟨by simp [ha], by simpa [hl] using hname⟩
    have htables : ∀ cr ∈ t.contentRouting, ∀ rule ∈ cr.rules,
        ContentRule.Valid crates c.tenants t cr rule :=
      fun cr hcr => (h.contentRouting cr hcr).rules
    have hnarrow : ∀ d ∈ t.dpcs c.associations, d < 0x4000 := by
      intro d hd
      obtain ⟨hown, hreaches⟩ := (Tenant.mem_dpcs_iff hids h).mp hd
      by_cases hvariant : t.variant = .itu
      · have hfits : crates.fits t.variant d := by
          rcases hreaches with ⟨r, hr, rfl⟩ | hadjacent
          · exact (h.routes r hr).dpc
          · exact he.adjacents d hadjacent
        rw [hvariant] at hfits
        exact (hitu d).mp hfits
      · exact he.narrow hvariant d hreaches hown
    exact
      { own := h.pointCode
        routes := fun r hr => (h.routes r hr).dpc
        members := fun g hg => (h.groups g hg).dpcs
        targets := fun target htarget => (valid_of_mem_targets h htarget).dpc
        adjacents := he.adjacents
        one := fun target htarget => le_antisymm (he.one target htarget)
          (Nat.one_le_iff_ne_zero.mpr (valid_of_mem_targets h htarget).named)
        asps := hserved
        links := hlinks
        servers := fun r hr name hname => List.mem_map.mp ((hroutes r hr).1 name hname)
        linksets := fun r hr name hname => List.mem_map.mp ((hroutes r hr).2 name hname)
        groups := fun target htarget name hname =>
          List.mem_map.mp ((valid_of_mem_targets h htarget).group name hname)
        tenants := fun target htarget id hid =>
          Option.isSome_iff_exists.mp
            (AList.lookup_isSome.mpr ((valid_of_mem_targets h htarget).tenant id hid))
        imsiTables := fun cr hcr rule hrule name hname =>
          List.mem_map.mp ((htables cr hcr rule hrule).imsiIn name hname)
        addressTables := by
          intro cr hcr rule hrule field hfield name hname
          have hvalid := htables cr hcr rule hrule
          rcases List.mem_pair.mp hfield with rfl | rfl
          · exact List.mem_map.mp (hvalid.cdpaGtIn name hname)
          · exact List.mem_map.mp (hvalid.cgpaGtIn name hname)
        announced := fun d hd => announced_iff.mpr (hnarrow d hd) }

end

/-- Of the tenants of an accepted configuration the node can rely on everything exactly if every
target names one thing at most, every adjacent point code of a tenant fits its variant, and the
destinations of a tenant of another variant than ITU have 14 bits. -/
theorem promised_of_accepted_iff (crates : Crates) (hitu : ∀ v, crates.fits .itu v ↔ v < 0x4000)
    (text : String) (c : Config) (h : Config.parse crates text = .ok c) :
    (∀ id t, c.tenants.lookup id = some t → Promised crates c t) ↔
      ∀ id t, c.tenants.lookup id = some t → Exact crates c t := by
  obtain ⟨-, -, -, hvalid⟩ := Config.parse_ok_iff.mp h
  constructor
  · intro hp id t ht
    exact (promised_iff_exact hitu hvalid.ids (hvalid.tenants id t ht)).mp (hp id t ht)
  · intro he id t ht
    exact (promised_iff_exact hitu hvalid.ids (hvalid.tenants id t ht)).mpr (he id t ht)

/-! ## A node with one link -/

/-- The crates, where a reader reads one file. -/
def reading (text : String) (raw : RawFile) : Crates where
  fromYaml file := if file = text then .ok raw else .error (.yaml "" "another file")
  fromValue variant value :=
    if value < Transport.width variant then .ok () else .error s!"{value} is too large"
  text :=
    { parse := fun entry => if entry = "10.0.0.2" then some (.v4 0x0A000002#32) else none
      display := fun _ => "10.0.0.2" }
  acronym code := if code = 1 then some "IAM" else none

theorem reading_fits_iff (text : String) (raw : RawFile) (v : ℕ) :
    (reading text raw).fits .itu v ↔ v < 0x4000 := by
  simp [Crates.fits, reading, Transport.width]

/-- A file with a link to an adjacent point, and a rule for every title of translation type 0. -/
def oneLink (adjacent : String) (target : String) : String :=
  "node:\n  point_code: 1000\n  variant: itu\n" ++
  "associations:\n  - id: link-a\n    adaptation: m2pa\n    role: client\n" ++
  "    addrs: [10.0.0.2]\n    port: 3565\n    adjacent_pc: " ++ adjacent ++ "\n" ++
  "linksets:\n  - name: west\n    links:\n      - assoc: link-a\n" ++
  "sccp:\n  gtt:\n    - match:\n        tt: 0\n      to:\n" ++ target

def rawOneLink (adjacent : ℕ) (target : RouteTarget) : RawFile where
  node := some ⟨1000, .itu, .international⟩
  associations := [⟨"link-a", .m2pa, .client, ["10.0.0.2"], 3565, [], none, [], none, none,
    some adjacent, none, none⟩]
  applicationServers := []
  linksets := [⟨"west", [⟨"link-a", none⟩], .default⟩]
  mtp3Routes := []
  mtp3 := none
  sccp := some ⟨[], [], [⟨⟨none, none, some 0, none, none⟩, target⟩], []⟩
  contentRouting := none
  isupScreening := none
  tcap := none
  tenants := none

/-- The configuration of such a file. -/
def configOneLink (adjacent : ℕ) (target : RouteTarget) : Config where
  associations := (rawOneLink adjacent target).associations
  tcap := tcapDefault
  tenants := (∅ : Store String Tenant).insert defaultTenant
    { pointCode := 1000
      variant := .itu
      networkIndicator := .international
      applicationServers := []
      linksets := (rawOneLink adjacent target).linksets
      mtp3Routes := []
      mtp3 := .default
      sccp := ⟨[], [], [⟨⟨none, none, some 0, none, none⟩, target⟩], []⟩
      contentRouting := none
      isupScreening := none }

/-- The tenant of such a file. -/
theorem lookup_oneLink {adjacent : ℕ} {target : RouteTarget} {id : String} {t : Tenant}
    (h : (configOneLink adjacent target).tenants.lookup id = some t) :
    (configOneLink adjacent target).tenants.lookup defaultTenant = some t := by
  by_cases hid : id = defaultTenant
  · rw [← hid]
    exact h
  · rw [configOneLink, AList.lookup_insert_ne hid] at h
    simp at h

theorem parse_oneLink (text : String) (adjacent : ℕ) (target : RouteTarget)
    (h : (configOneLink adjacent target).validate
      (reading text (rawOneLink adjacent target)) = .ok ()) :
    Config.parse (reading text (rawOneLink adjacent target)) text =
      .ok (configOneLink adjacent target) :=
  Config.parse_ok_iff.mpr ⟨rawOneLink adjacent target, if_pos rfl, rfl,
    Config.validate_ok_iff.mp h⟩

def toPoint : RouteTarget := ⟨some 2000, none, none, none, none⟩

def fileToPoint : String := oneLink "2000" "        dpc: 2000\n"

/-- The node can rely on a file with an adjacent point of 14 bits and one target. -/
theorem promised_of_oneLink :
    Config.parse (reading fileToPoint (rawOneLink 2000 toPoint)) fileToPoint =
        .ok (configOneLink 2000 toPoint) ∧
      ∀ id t, (configOneLink 2000 toPoint).tenants.lookup id = some t →
        Promised (reading fileToPoint (rawOneLink 2000 toPoint))
          (configOneLink 2000 toPoint) t := by
  have hparse := parse_oneLink fileToPoint 2000 toPoint (by decide +kernel)
  refine ⟨hparse, ?_⟩
  apply (promised_of_accepted_iff (reading fileToPoint (rawOneLink 2000 toPoint))
    (reading_fits_iff _ _) fileToPoint (configOneLink 2000 toPoint) hparse).mpr
  intro id t ht
  obtain rfl := Option.some.inj ((AList.lookup_insert _).symm.trans (lookup_oneLink ht))
  refine ⟨by decide, ?_, fun hvariant => absurd rfl hvariant⟩
  rintro pc ⟨ls, -, link, -, a, ha, -, hpc⟩
  obtain rfl := List.mem_singleton.mp ha
  obtain rfl := Option.some.inj hpc
  exact (reading_fits_iff _ _ _).mpr (by decide)

def toTwo : RouteTarget := ⟨some 2000, none, none, some true, none⟩

def fileToTwo : String := oneLink "20000" "        dpc: 2000\n        local: true\n"

/-- A file is accepted whose adjacent point is none of ITU and whose target names two things. -/
theorem accepts_unfit :
    Config.parse (reading fileToTwo (rawOneLink 20000 toTwo)) fileToTwo =
        .ok (configOneLink 20000 toTwo) ∧
      (∃ t, (configOneLink 20000 toTwo).tenants.lookup defaultTenant = some t ∧
        t.variant = .itu ∧ t.Adjacent (configOneLink 20000 toTwo).associations 20000 ∧
        ¬(reading fileToTwo (rawOneLink 20000 toTwo)).fits .itu 20000 ∧
        t.targets.map named = [2] ∧
        t.dpcs (configOneLink 20000 toTwo).associations = [20000] ∧ about 20000 .tfp = none) ∧
      ¬∀ id t, (configOneLink 20000 toTwo).tenants.lookup id = some t →
        Promised (reading fileToTwo (rawOneLink 20000 toTwo)) (configOneLink 20000 toTwo) t := by
  have hparse := parse_oneLink fileToTwo 20000 toTwo (by decide +kernel)
  have hwide : ¬(reading fileToTwo (rawOneLink 20000 toTwo)).fits .itu 20000 := by
    rw [reading_fits_iff]
    decide
  refine ⟨hparse, ⟨_, AList.lookup_insert _, rfl, ?_, hwide, by decide, by decide +kernel,
    by decide⟩, fun h => ?_⟩
  · exact ⟨_, List.mem_singleton_self _, _, List.mem_singleton_self _, _,
      List.mem_singleton_self _, rfl, rfl⟩
  · have htwo := (h defaultTenant _ (AList.lookup_insert _)).one toTwo (by decide)
    exact absurd htwo (by decide)

end SiphonSigtran.Configuration
