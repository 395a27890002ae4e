import SiphonSigtran.Configuration.Associations
import SiphonSigtran.Mtp3.Domain
import SiphonSigtran.Routing.Content
import SiphonSigtran.Routing.Resolver
import SiphonSigtran.Tcap.Dialogue

/-!
# The configuration of a node

A file lists the associations of a node and the tables of its routing domains, the tenants. With no
`tenants:` block the top level is the one tenant `default`. Fields that neither validation nor
routing reads are left out.
-/

namespace SiphonSigtran.Configuration

open Lib
open Mtp3 (Timers)
open Routing (Variant RouteTarget GttGroup GttRule PlmnMapEntry Mtp3Route)

/-! ## Errors -/

inductive Error
  | yaml (path source : String)
  | pointCode (message : String)
  | validation (message : String)
  deriving DecidableEq, Repr

def keyPathPrefix (path : String) : String := if path = "" then "" else path ++ ": "

def Error.display : Error → String
  | .yaml path source => "parsing config: " ++ keyPathPrefix path ++ source
  | .pointCode message => "invalid point code: " ++ message
  | .validation message => "invalid config: " ++ message

/-! ## Blocks -/

inductive NetworkIndicator
  | international
  | internationalSpare
  | national
  | nationalSpare
  deriving DecidableEq, Repr

/-- The `node:` block. -/
structure Node where
  pointCode : ℕ
  variant : Variant
  networkIndicator : NetworkIndicator

/-- The `mtp3:` block. Its timers are in milliseconds. -/
structure Mtp3Block where
  timers : Timers
  tfpForUnknownDestination : Bool
  reroutingBuffer : ℕ

def Mtp3Block.default : Mtp3Block :=
  ⟨⟨800, 1400, 800, 800, 800, 800, 1000, 45000, 1150, 1150, 20000, 68000, 60000, 64000, 240000⟩,
    true, 4096⟩

/-- The first key whose value is 0. -/
def firstZero (fields : List (String × ℕ)) : Option String :=
  (fields.find? fun field => field.2 = 0).map Prod.fst

/-- The key of the first timer or size that is 0, which none may be. -/
def Mtp3Block.zeroKey (b : Mtp3Block) : Option String :=
  firstZero
    [("t1_ms", b.timers.t1), ("t2_ms", b.timers.t2), ("t3_ms", b.timers.t3),
      ("t4_ms", b.timers.t4), ("t5_ms", b.timers.t5), ("t6_ms", b.timers.t6),
      ("t8_ms", b.timers.t8), ("t10_ms", b.timers.t10), ("t12_ms", b.timers.t12),
      ("t13_ms", b.timers.t13), ("t18_ms", b.timers.t18), ("t19_ms", b.timers.t19),
      ("t20_ms", b.timers.t20), ("t21_ms", b.timers.t21), ("t23_ms", b.timers.t23),
      ("rerouting_buffer", b.reroutingBuffer)]

/-- The `link_test:` block of a linkset. -/
structure LinkTest where
  t1Ms : ℕ
  t2Ms : ℕ
  pattern : String

def LinkTest.default : LinkTest := ⟨8000, 60000, "a5a5a5a5a5a5a5a5"⟩

def hexDigit (byte : UInt8) : Option ℕ :=
  let n := byte.toNat
  if 48 ≤ n ∧ n ≤ 57 then some (n - 48)
  else if 65 ≤ n ∧ n ≤ 70 then some (n - 55)
  else if 97 ≤ n ∧ n ≤ 102 then some (n - 87)
  else none

/-- An octet of two bytes of text. As in any integer a plus sign may stand in front. -/
def fromHex (first second : UInt8) : Option UInt8 :=
  if first = 43 then (hexDigit second).map UInt8.ofNat
  else do
    let high ← hexDigit first
    let low ← hexDigit second
    return UInt8.ofNat (16 * high + low)

/-- The octets of the pairs of a text. -/
def fromPairs : List UInt8 → Option (List UInt8)
  | first :: second :: rest => do
    let octet ← fromHex first second
    let octets ← fromPairs rest
    return octet :: octets
  | _ => some []

/-- The test pattern as octets, if it is 1 to 15 octets of hexadecimal. -/
def LinkTest.patternOctets (t : LinkTest) : Option (List UInt8) :=
  let text := t.pattern.toUTF8.data.toList
  if text.length % 2 ≠ 0 ∨ ¬(2 ≤ text.length ∧ text.length ≤ 30) then none else fromPairs text

/-! ## Application Servers and linksets -/

structure ApplicationServer extends Transport.ApplicationServer where
  pendingQueue : ℕ

/-- A link of a linkset: the association it rides, and its link code. -/
structure Link where
  assoc : String
  slc : Option ℕ

structure Linkset where
  name : String
  links : List Link
  linkTest : LinkTest

/-- The signalling link code of a link: its `slc`, or its position. -/
def Linkset.slcOf (ls : Linkset) (index : ℕ) : ℕ :=
  ((ls.links[index]?).bind Link.slc).getD (index &&& 0x0F)

/-! ## SCCP, content routing and screening -/

/-- The `sccp:` block, as it is in the file. -/
structure Sccp where
  localSsns : List ℕ
  gttGroups : List GttGroup
  gtt : List GttRule
  plmnMap : List PlmnMapEntry

def Sccp.default : Sccp := ⟨[], [], [], []⟩

inductive ContentProtocol
  | gsmMap
  | gsmCap
  deriving DecidableEq, Repr

def ContentProtocol.debug : ContentProtocol → String
  | .gsmMap => "GsmMap"
  | .gsmCap => "GsmCap"

structure ContentRouting extends Routing.ContentRouting where
  protocol : ContentProtocol

/-- A rule of `isup_screening:`, as validation reads it. -/
structure ScreenRule where
  name : String
  messageType : Option String

structure IsupScreening where
  rules : List ScreenRule

/-! ## Files -/

structure Tenant where
  pointCode : ℕ
  variant : Variant
  networkIndicator : NetworkIndicator
  applicationServers : List ApplicationServer
  linksets : List Linkset
  mtp3Routes : List Mtp3Route
  mtp3 : Mtp3Block
  sccp : Sccp
  contentRouting : Option ContentRouting
  isupScreening : Option IsupScreening

def tcapDefault : Tcap.Config := ⟨15000, 30000, 100000⟩

/-- The file as it is read. -/
structure RawFile where
  node : Option Node
  associations : List Association
  applicationServers : List ApplicationServer
  linksets : List Linkset
  mtp3Routes : List Mtp3Route
  mtp3 : Option Mtp3Block
  sccp : Option Sccp
  contentRouting : Option ContentRouting
  isupScreening : Option IsupScreening
  tcap : Option Tcap.Config
  tenants : Option (Store String Tenant)

structure Config where
  associations : List Association
  tcap : Tcap.Config
  tenants : Store String Tenant

def defaultTenant : String := "default"

/-- Whether the top level has routing fields, besides `node`. -/
def RawFile.routed (raw : RawFile) : Bool :=
  !raw.applicationServers.isEmpty || !raw.linksets.isEmpty || !raw.mtp3Routes.isEmpty ||
    raw.mtp3.isSome || raw.sccp.isSome || raw.contentRouting.isSome || raw.isupScreening.isSome

/-- The tenants of a file: those it lists, or the one of its top level. -/
def RawFile.toTenants (raw : RawFile) : Except Error (Store String Tenant) :=
  match raw.tenants with
  | some tenants =>
    if tenants.keys = [] then .error (.validation "`tenants:` is present but empty")
    else if raw.routed then
      .error (.validation ("top-level routing fields (application_servers/linksets/mtp3_routes/" ++
        "mtp3/sccp/content_routing/isup_screening) cannot be mixed with an explicit " ++
        "`tenants:` block"))
    else .ok tenants
  | none =>
    match raw.node with
    | none => .error (.validation "missing `node:` block")
    | some node =>
      .ok ((∅ : Store String Tenant).insert defaultTenant
        { pointCode := node.pointCode
          variant := node.variant
          networkIndicator := node.networkIndicator
          applicationServers := raw.applicationServers
          linksets := raw.linksets
          mtp3Routes := raw.mtp3Routes
          mtp3 := raw.mtp3.getD .default
          sccp := raw.sccp.getD .default
          contentRouting := raw.contentRouting
          isupScreening := raw.isupScreening })

/-- Normalise the file. -/
def Config.fromRaw (raw : RawFile) : Except Error Config :=
  raw.toTenants.map fun tenants => ⟨raw.associations, raw.tcap.getD tcapDefault, tenants⟩

/-- No timer or size is 0 by default. -/
theorem Mtp3Block.zeroKey_default : Mtp3Block.default.zeroKey = none := by decide

/-- The default pattern is one. -/
theorem LinkTest.patternOctets_default : LinkTest.default.patternOctets.isSome := by
  decide +kernel

end SiphonSigtran.Configuration
