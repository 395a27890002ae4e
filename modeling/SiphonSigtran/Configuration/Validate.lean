import SiphonSigtran.Configuration.Tenant
import SiphonSigtran.Lib.Check
import SiphonSigtran.Transport.Framing

/-!
# Validation of a configuration

The checks that a configuration has to pass before a node starts with it, in their order: those of
the associations, which know no variant, and then those of each tenant. The reader of YAML, the
point codes of a variant, the text form of IP addresses and the message types of ISUP are
parameters.
-/

namespace SiphonSigtran.Configuration

open Lib Lib.Check
open Routing (Variant RouteTarget GttGroup ContentRule Mtp3Route Operation)
open Transport (Adaptation validateLinks)

/-- What other crates read. `fromValue` tells whether a value is a point code of a variant, and
`acronym` is that of the message type with a code, if it has a name. -/
structure Crates where
  fromYaml : String → Except Error RawFile
  fromValue : Variant → ℕ → Except String Unit
  text : IpText
  acronym : ℕ → Option String

variable (crates : Crates)

namespace Crates

/-- Whether a value is a point code of a variant. -/
def fits (variant : Variant) (value : ℕ) : Prop := crates.fromValue variant value = .ok ()

/-- Resolve a point code, with the error that it gives where it does not fit. -/
def resolve {ε : Type} (variant : Variant) (error : String → ε) (value : ℕ) : Except ε Unit :=
  (crates.fromValue variant value).mapError error

/-- The message type with a name, by its code. -/
def messageTypeFromName (name : String) : Option ℕ :=
  (List.range 256).find? fun code =>
    (crates.acronym code).any fun acronym => acronym.toLower = name.toLower

end Crates

/-- A check that has nothing to look at. -/
def pass {α ε : Type} (_ : α) : Except ε Unit := .ok ()

/-- Reading a list is a check. -/
def readable {α : Type} (read : Except String α) : Except Error Unit :=
  match read with
  | .error message => .error (.validation message)
  | .ok _ => .ok ()

/-! ## Associations -/

/-- The check of the `dial:` block of an association. -/
def checkDial (id : String) (dial : Transport.Dial.Block) : Except Error Unit := do
  failSome
    (firstZero
      [("connect_timeout_ms", dial.connectTimeoutMs.toNat),
        ("backoff_initial_ms", dial.backoffInitialMs.toNat),
        ("backoff_max_ms", dial.backoffMaxMs.toNat)])
    fun name => .validation s!"association `{id}`: dial `{name}` must not be 0"
  failIf (dial.backoffMaxMs < dial.backoffInitialMs)
    (.validation s!"association `{id}`: dial `backoff_max_ms` is below `backoff_initial_ms`")
  failIf (100 < dial.backoffJitterPercent)
    (.validation s!"association `{id}`: dial `backoff_jitter_percent` is more than 100")

/-- The check of the `m3ua:` block of an association. -/
def checkM3ua (a : Association) (m3ua : M3uaPeer) : Except Error Unit := do
  failIf (a.adaptation ≠ .m3ua)
    (.validation s!"association `{a.id}` has an `m3ua:` block but is not an m3ua association")
  failIf (m3ua.ackMs = 0)
    (.validation s!"association `{a.id}`: m3ua `ack_ms` must not be 0")

/-- The check of the `m2pa:` block of an association. -/
def checkM2pa (a : Association) (m2pa : M2paLink) : Except Error Unit := do
  failIf (a.adaptation ≠ .m2pa)
    (.validation s!"association `{a.id}` has an `m2pa:` block but is not an m2pa association")
  failSome
    (firstZero
      [("t1_ms", m2pa.t1Ms), ("t2_ms", m2pa.t2Ms), ("t3_ms", m2pa.t3Ms), ("t4n_ms", m2pa.t4nMs),
        ("t4e_ms", m2pa.t4eMs), ("t6_ms", m2pa.t6Ms), ("t7_ms", m2pa.t7Ms),
        ("proving_interval_ms", m2pa.provingIntervalMs), ("restart_ms", m2pa.restartMs),
        ("tx_queue", m2pa.txQueue)])
    fun name => .validation s!"association `{a.id}`: m2pa `{name}` must not be 0"

/-- The check of an association, besides that of its id. Of its adjacent point code only the bound
of the widest variant is known here. -/
def checkAssociation (a : Association) : Except Error Unit := do
  failIf (a.addrs = []) (.validation s!"association `{a.id}` has no addresses")
  failIf (a.role = .client ∧ (a.peerAddrs ≠ [] ∨ a.peerPort.isSome))
    (.validation (s!"association `{a.id}` is a client: its peer is `addrs` and `port`, " ++
      "`peer_addrs` and `peer_port` are for a server association"))
  failIf (a.peerPort.isSome ∧ a.peerAddrs = [])
    (.validation s!"association `{a.id}` has a `peer_port` but no `peer_addrs`")
  failIf (a.peerPort = some 0)
    (.validation s!"association `{a.id}`: `peer_port` must not be 0")
  readable (a.peerIps crates.text)
  failIf (a.role = .server ∧ (a.localAddrs ≠ [] ∨ a.localPort.isSome ∨ a.dial.isSome))
    (.validation (s!"association `{a.id}` is a server: it listens on `addrs` and `port`, " ++
      "`local_addrs`, `local_port` and `dial` are for a client association"))
  readable (a.localIps crates.text)
  failIf (a.localPort = some 0)
    (.validation
      s!"association `{a.id}`: `local_port` must not be 0 (leave it out for any port)")
  ifSome a.dial (checkDial a.id)
  ifSome a.adjacentPc (crates.resolve .ansi .pointCode)
  ifSome a.m3ua (checkM3ua a)
  ifSome a.m2pa (checkM2pa a)

/-! ## Application Servers and linksets -/

/-- The adaptations of the associations, by their ids. -/
def adaptationOf (associations : List Association) (id : String) : Option Adaptation :=
  (Store.ofList (associations.map fun a => (a.id, a.adaptation))).lookup id

/-- The check of the ASPs of an Application Server, of which the first had an adaptation. -/
def checkAsps (adaptation : String → Option Adaptation) (server : String) :
    Option Adaptation → List String → Except String Unit
  | _, [] => .ok ()
  | first, asp :: asps =>
    match adaptation asp with
    | none => .error s!"application_server `{server}` references unknown association `{asp}`"
    | some .m2pa =>
      .error (s!"application_server `{server}` asp `{asp}` is a " ++
        Transport.Adaptation.debug .m2pa ++ " association, an AS is served by m3ua or sua ASPs")
    | some adapt =>
      match first with
      | none => checkAsps adaptation server (some adapt) asps
      | some first =>
        if first ≠ adapt then
          .error (s!"application_server `{server}` mixes " ++ Transport.Adaptation.debug first ++
            " and " ++ Transport.Adaptation.debug adapt ++
            " ASPs; all ASPs of an AS must share one adaptation")
        else checkAsps adaptation server (some first) asps

/-- The most ASPs that a server may require. -/
def ApplicationServer.most (a : ApplicationServer) : ℕ :=
  if a.trafficMode = .override then 1 else a.asps.length

/-- The check of an Application Server, besides that of its name. -/
def checkServer (adaptation : String → Option Adaptation) (a : ApplicationServer) :
    Except String Unit := do
  failIf (a.asps = []) s!"application_server `{a.name}` has no asps"
  failIf (a.pendingQueue = 0) s!"application_server `{a.name}`: `pending_queue` must not be 0"
  failIf (a.requiredAsps = 0 ∨ a.most < a.requiredAsps)
    s!"application_server `{a.name}`: `required_asps` must be between 1 and {a.most}"
  checkAsps adaptation a.name none a.asps

/-- The check of a linkset, besides that of its name. -/
def checkLinkset (variant : Variant) (adaptation : String → Option Adaptation) (ls : Linkset) :
    Except String Unit := do
  failIf (ls.links = []) s!"linkset `{ls.name}` has no links"
  failIf (16 < ls.links.length)
    s!"linkset `{ls.name}` has {ls.links.length} links, a linkset has at most 16"
  eachNew ls.slcOf
    (fun index => failIf (15 < ls.slcOf index)
      (s!"linkset `{ls.name}` link `" ++ ((ls.links[index]?).map Link.assoc).getD "" ++
        s!"`: slc {ls.slcOf index} is not 0 to 15"))
    (fun index => s!"linkset `{ls.name}` has two links with slc {ls.slcOf index}")
    pass [] (List.range ls.links.length)
  failIf (ls.linkTest.patternOctets = none)
    (s!"linkset `{ls.name}`: link_test pattern `{ls.linkTest.pattern}` is not 1 to 15 octets " ++
      "of hexadecimal")
  failIf (ls.linkTest.t1Ms = 0 ∨ ls.linkTest.t2Ms = 0)
    s!"linkset `{ls.name}`: link_test timers must not be 0"
  validateLinks variant adaptation ls.name (ls.links.map Link.assoc)

/-! ## Routes -/

/-- The names of the Application Servers of a tenant. -/
def Tenant.serverNames (t : Tenant) : List String := t.applicationServers.map fun a => a.name

def Tenant.linksetNames (t : Tenant) : List String := t.linksets.map Linkset.name

def Tenant.groupNames (t : Tenant) : List String := t.sccp.gttGroups.map GttGroup.name

/-- The check of a route: it names one of an Application Server and a linkset, which exists. -/
def checkRoute (t : Tenant) (r : Mtp3Route) : Except String Unit := do
  crates.resolve t.variant (fun e => s!"mtp3_route dpc: {e}") r.dpc
  match r.as_, r.linkset with
  | some a, none =>
    failIf (a ∉ t.serverNames)
      s!"mtp3_route to {r.dpc} references unknown application_server `{a}`"
  | none, some l =>
    failIf (l ∉ t.linksetNames) s!"mtp3_route to {r.dpc} references unknown linkset `{l}`"
  | some _, some _ => .error s!"mtp3_route to {r.dpc} sets both `as:` and `linkset:` (pick one)"
  | none, none => .error s!"mtp3_route to {r.dpc} sets neither `as:` nor `linkset:`"

/-- How many of a destination, a group, local termination and a tenant a target names. -/
def named (target : RouteTarget) : ℕ :=
  [target.dpc.isSome, target.group.isSome, target.local_.getD false, target.tenant.isSome].count
    true

/-- The check of a route target. One that names nothing is refused. -/
def validateTarget (tenants : Store String Tenant) (t : Tenant) (target : RouteTarget) :
    Except Error Unit := do
  failIf (named target = 0) (.validation "route target names nothing")
  ifSome target.dpc (crates.resolve t.variant .pointCode)
  ifSome target.group fun group =>
    failIf (group ∉ t.groupNames) (.validation s!"unknown gtt_group `{group}`")
  ifSome target.tenant fun tenant =>
    failIf (tenant ∉ tenants) (.validation s!"unknown tenant `{tenant}`")

/-- The check of a group of GTT, besides that of its name. -/
def checkGttGroup (variant : Variant) (g : GttGroup) : Except String Unit := do
  failIf (g.members.length = 0) s!"gtt_group `{g.name}` has no members"
  each (fun m => crates.resolve variant (fun e => s!"gtt_group `{g.name}` member dpc: {e}") m.dpc)
    g.members

/-! ## Rules -/

/-- The check of an operation that a rule names. -/
def checkOperation (protocol : ContentProtocol) (rule operation : String) : Except String Unit :=
  match Operation.fromKebab operation with
  | none => .error s!"content rule `{rule}` names unknown operation `{operation}`"
  | some o =>
    failIf (o.isCap ≠ decide (protocol = .gsmCap))
      (s!"content rule `{rule}` operation `{operation}` does not match the " ++
        s!"content_routing protocol `{protocol.debug}`")

/-- The check of a content rule, besides that of its name. -/
def checkContentRule (tenants : Store String Tenant) (t : Tenant) (cr : ContentRouting)
    (rule : ContentRule) : Except String Unit := do
  ifSome rule.match_.imsiIn fun table =>
    failIf (table ∉ cr.imsiTables.map Prod.fst)
      s!"content rule `{rule.name}` matches unknown imsi_table `{table}`"
  each
    (fun field => ifSome field.2 fun table =>
      failIf (table ∉ cr.addressTables.map Prod.fst)
        (s!"content rule `{rule.name}` {field.1} references unknown address_table `{table}`"))
    [("cdpa_gt_in", rule.match_.cdpaGtIn), ("cgpa_gt_in", rule.match_.cgpaGtIn)]
  ifSome rule.match_.operation (each (checkOperation cr.protocol rule.name))
  ifSome rule.action.route fun target =>
    (validateTarget crates tenants t target).mapError fun e =>
      s!"content rule `{rule.name}`: {e.display}"

/-- The check of the content routing of a tenant. -/
def checkContentRouting (tenants : Store String Tenant) (t : Tenant) (cr : ContentRouting) :
    Except String Unit := do
  eachNew Prod.fst pass (fun table => s!"duplicate address_table `{table.1}`") pass []
    cr.addressTables
  eachNew Prod.fst pass (fun table => s!"duplicate imsi_table `{table.1}`") pass [] cr.imsiTables
  eachNew ContentRule.name pass (fun rule => s!"duplicate content rule `{rule.name}`")
    (checkContentRule crates tenants t cr) [] cr.rules

/-- The check of a screening rule, besides that of its name. -/
def checkScreenRule (rule : ScreenRule) : Except String Unit :=
  ifSome rule.messageType fun type =>
    failIf (crates.messageTypeFromName type = none)
      s!"isup_screening rule `{rule.name}` names unknown message_type `{type}`"

/-! ## Tenants -/

/-- The checks of a tenant. -/
def checkTenant (associations : List Association) (tenants : Store String Tenant) (t : Tenant) :
    Except String Unit := do
  crates.resolve t.variant (fun e => s!"point_code: {(Error.pointCode e).display}") t.pointCode
  failSome t.mtp3.zeroKey fun key => s!"mtp3 `{key}` must not be 0"
  eachNew (fun a => a.name) pass (fun a => s!"duplicate route destination `{a.name}`")
    (checkServer (adaptationOf associations)) [] t.applicationServers
  eachNew Linkset.name pass
    (fun ls => (if ls.name ∈ t.serverNames then "collides with application_server"
      else "duplicate route destination") ++ s!" `{ls.name}`")
    (checkLinkset t.variant (adaptationOf associations)) t.serverNames t.linksets
  each (checkRoute crates t) t.mtp3Routes
  eachNew GttGroup.name pass (fun g => s!"duplicate gtt_group `{g.name}`")
    (checkGttGroup crates t.variant) [] t.sccp.gttGroups
  each
    (fun rule => (validateTarget crates tenants t rule.to_).mapError fun e =>
      s!"gtt rule: {e.display}")
    t.sccp.gtt
  ifSome t.contentRouting (checkContentRouting crates tenants t)
  ifSome t.isupScreening fun scr =>
    eachNew ScreenRule.name pass
      (fun rule => s!"duplicate isup_screening rule `{rule.name}`") (checkScreenRule crates) []
      scr.rules

namespace Config

variable (c : Config)

/-- The tenants in the order of their ids. -/
def tenantsInOrder : List (String × Tenant) :=
  (c.tenants.entries.map fun e => (e.1, e.2)).insertionSort fun x y => x.1 ≤ y.1

def validateTenant (tid : String) (t : Tenant) : Except Error Unit :=
  (checkTenant crates c.associations c.tenants t).mapError fun message =>
    .validation s!"tenant `{tid}`: {message}"

/-- Validate the whole configuration. -/
def validate : Except Error Unit := do
  eachNew Association.id pass (fun a => .validation s!"duplicate association id `{a.id}`")
    (checkAssociation crates) [] c.associations
  readable (listenGroups crates.text c.associations)
  each (fun tenant => c.validateTenant crates tenant.1 tenant.2) c.tenantsInOrder

/-- Read and validate a file. -/
def parse (text : String) : Except Error Config := do
  let raw ← crates.fromYaml text
  let config ← fromRaw raw
  config.validate crates
  return config

end Config

end SiphonSigtran.Configuration
