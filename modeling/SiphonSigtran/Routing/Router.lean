import SiphonSigtran.Routing.Content
import SiphonSigtran.Routing.Resolver

/-!
# The router

A message for another point is forwarded by its point code. One for this node is
put to the content rules and to global title translation, and is routed on,
delivered, handed over to another domain or dropped.
-/

namespace SiphonSigtran.Routing

open Lib

inductive RouteDecision
  | route (via : Destination)
  | routeTo (dpc ssn : ℕ) (via : Option Destination) (rewriteCdpaGt : Option Digits)
  | local_
  | crossTenant (tenant : String) (dpc ssn : ℕ) (conversion : Bool)
  | drop (reason : String)
  deriving DecidableEq, Repr

/-- The fields of a message that the router reads. -/
structure Inbound where
  dpc : ℕ
  cdpa : Option GttSelector
  calledSsn : Option ℕ
  view : Option MapView
  contentUndecodable : Bool

/-- The configuration of a routing domain, as the router reads it. -/
structure Tenant where
  pointCode : ℕ
  variant : Variant
  applicationServers : List String
  linksets : List Linkset
  mtp3Routes : List Mtp3Route
  sccp : Sccp
  contentRouting : Option ContentRouting

structure Config where
  associations : List Association
  tenants : Store String Tenant

/-- What routing of a domain works on. -/
structure TenantRuntime where
  id : String
  variant : Variant
  pointCode : ℕ
  routes : RouteResolver
  routeState : RouteState
  gtt : GttResolver
  converter : GtConverter
  content : Option ContentEngine

abbrev Router := Store String TenantRuntime

/-- Compile the runtime of a domain. -/
def TenantRuntime.build (associations : List Association) (id : String) (tenant : Tenant) :
    TenantRuntime :=
  ⟨id, tenant.variant, tenant.pointCode,
    .build tenant.variant tenant.linksets tenant.mtp3Routes associations,
    { RouteState.new with
      asUp := tenant.applicationServers.toFinset
      linksetsUp := (tenant.linksets.map Linkset.name).toFinset },
    .compile tenant.sccp, .ofMap tenant.sccp.plmnMap, tenant.contentRouting.map .compile⟩

/-- A runtime after messages were routed and the state of routes changed. -/
def TenantRuntime.later (rt : TenantRuntime) (cursors : String → ℕ) (state : RouteState) :
    TenantRuntime :=
  { rt with gtt := rt.gtt.withCursors cursors, routeState := state }

namespace Router

/-- The router of a configuration. -/
def ofConfig (config : Config) : Router :=
  config.tenants.mapTo fun id tenant => .build config.associations id tenant

/-- The router after messages were routed and the state of routes changed. -/
def later (r : Router) (cursors : String → String → ℕ) (states : String → RouteState) : Router :=
  r.mapValues fun id rt => rt.later (cursors id) (states id)

end Router

section

-- whether the codec's `PointCode::from_value` takes a value
variable (fits : Variant → ℕ → Bool)

/-- Resolve a destination to where its messages go out. -/
def resolveDestination (rt : TenantRuntime) (dpc sls : ℕ) : Option Destination :=
  if fits rt.variant dpc then rt.routes.resolveFor dpc sls rt.routeState else none

/-- Where a message leaves that is routed by its point code alone, without the routes through
`avoid`. -/
def egressFor (r : Router) (tenant : String) (dpc sls : ℕ) (avoid : Option Destination) :
    Option Destination :=
  match r.lookup tenant with
  | none => none
  | some rt =>
    if fits rt.variant dpc then rt.routes.resolveAvoiding dpc sls rt.routeState avoid else none

/-- Convert an E.214 title to E.164. -/
def preConvert (rt : TenantRuntime) (sel : GttSelector) : GttSelector :=
  if sel.np = some 3 then
    match rt.converter.e214ToE164 sel.digits with
    | some e164 => { sel with digits := e164, np := some 1 }
    | none => sel
  else sel

/-- Whether a message that is handed to another domain is to be converted. -/
def conversion (r : Router) (rt : TenantRuntime) (tenant : String) : Bool :=
  match r.lookup rt.id, r.lookup tenant with
  | some a, some b => a.variant ≠ b.variant
  | _, _ => false

def decisionFromGtt (r : Router) (rt : TenantRuntime) (sls : ℕ) : GttResult → RouteDecision
  | .local_ => .local_
  | .dpc dpc ssn => .routeTo dpc ssn (resolveDestination fits rt dpc sls) none
  | .tenant tenant dpc ssn => .crossTenant tenant dpc ssn (conversion r rt tenant)

/-- A decision with the digits that a content rule stamps on a relayed message. -/
def RouteDecision.rewrite (gt : Option Digits) : RouteDecision → RouteDecision
  | .routeTo dpc ssn via old => .routeTo dpc ssn via (gt.orElse fun _ => old)
  | d => d

@[simp] theorem RouteDecision.rewrite_none (d : RouteDecision) : d.rewrite none = d := by
  cases d <;> rfl

def decisionFromAction (r : Router) (rt : TenantRuntime) (sls : ℕ) :
    Action → Option RouteDecision × GttResolver
  | .screen => (some (.drop "screened by content rule"), rt.gtt)
  | .unevaluable =>
    (some (.drop
      "content rule tests the IMSI and the operation argument cannot be decoded"), rt.gtt)
  | .route target rewriteCdpaGt =>
    let (result, gtt) := rt.gtt.resultOf target
    (result.map fun result => (decisionFromGtt fits r rt sls result).rewrite rewriteCdpaGt, gtt)

/-- The router once members of the groups of a domain were selected. -/
def selected (r : Router) (tenant : String) (rt : TenantRuntime) (gtt : GttResolver) : Router :=
  r.insert tenant { rt with gtt := gtt }

/-- Route a message for this node by its called party. -/
def routeByTitle (r : Router) (tenant : String) (rt : TenantRuntime) (msg : Inbound) (sls : ℕ) :
    RouteDecision × Router :=
  match msg.cdpa with
  | some sel =>
    match rt.gtt.translate (preConvert rt sel) with
    | (some result, gtt) => (decisionFromGtt fits r rt sls result, selected r tenant rt gtt)
    | (none, gtt) => (.drop "no GTT translation", selected r tenant rt gtt)
  | none =>
    if msg.calledSsn.any rt.gtt.ownsSsn then (.local_, r)
    else (.drop "no route-on-GT and no owned SSN", r)

/-- The rule that decides on a message. -/
def hitOf (rt : TenantRuntime) (msg : Inbound) : Option Hit :=
  match rt.content, msg.view with
  | some engine, some view => engine.evaluate view
  | _, _ => none

/-- Route a message within a domain. -/
def routeFor (r : Router) (tenant : String) (msg : Inbound) (sls : ℕ) : RouteDecision × Router :=
  match r.lookup tenant with
  | none => (.drop s!"unknown tenant `{tenant}`", r)
  | some rt =>
    if msg.dpc ≠ rt.pointCode then
      match resolveDestination fits rt msg.dpc sls with
      | some via => (.route via, r)
      | none => (.drop s!"no MTP3 route to {msg.dpc}", r)
    else if msg.calledSsn.any rt.gtt.ownsSsn && msg.cdpa.isNone then (.local_, r)
    else if msg.contentUndecodable && rt.content.any ContentEngine.hasRules then
      (.drop "content rules: the TCAP message cannot be decoded in full", r)
    else match hitOf rt msg with
      | none => routeByTitle fits r tenant rt msg sls
      | some hit =>
        match decisionFromAction fits r rt sls hit.action with
        | (some decision, gtt) => (decision, selected r tenant rt gtt)
        -- the target gives nothing, and nothing was selected
        | (none, _) => routeByTitle fits r tenant rt msg sls

end

end SiphonSigtran.Routing
