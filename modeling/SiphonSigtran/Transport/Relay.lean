import SiphonSigtran.Routing.Router
import SiphonSigtran.Transport.Pending

/-!
# The transfer path

A message that comes in on an association is routed, passes the loop guards and
is handed to an Application Server or to a linkset. It may wait on its way: in a
controlled rerouting buffer, in the queue of a pending server, or on a link that
fails and gives it back. The tasks run beside each other, and what they read of
routes, servers and links changes between their steps.
-/

namespace SiphonSigtran.Transport

open Lib Routing

/-- What the registry of a domain is built of. Servers and linksets have different names, and the
resolver is the one that the linksets were counted with. -/
structure Network where
  associations : List Association
  servers : List ApplicationServer
  linksets : List Linkset
  pendingLimit : String → ℕ
  resolver : RouteResolver
  names : (servers.map ApplicationServer.name ++ linksets.map Linkset.name).Nodup

namespace Network

def server (n : Network) (name : String) : Option ApplicationServer :=
  n.servers.find? fun a => a.name = name

def linkset (n : Network) (name : String) : Option Linkset :=
  n.linksets.find? fun l => l.name = name

/-- The associations that a destination stands for. -/
def members (n : Network) : Destination → List String
  | .applicationServer name => ((n.server name).map ApplicationServer.asps).getD []
  | .linkset name => ((n.linkset name).map Linkset.links).getD []

/-- The destination that an association belongs to: the first Application Server that it is an
ASP of, else the first linkset that it is a link of. -/
def inboundDestination (n : Network) (assoc : String) : Option Destination :=
  match n.servers.find? fun a => assoc ∈ a.asps with
  | some a => some (.applicationServer a.name)
  | none => (n.linksets.find? fun l => assoc ∈ l.links).map fun l => .linkset l.name

/-- Whether a server is served by M3UA ASPs only. -/
def managed (n : Network) (name : String) : Bool :=
  match n.server name with
  | none => false
  | some a => !a.asps.isEmpty && a.asps.all fun asp =>
    n.associations.any fun x => x.id = asp && x.adaptation = .m3ua

/-- In how many ways selection codes are split before a link of the linkset is chosen. -/
def shareWidth (n : Network) (via : Destination) : ℕ :=
  (n.resolver.routes.entries.map fun p => match p.2.find? fun c => c.dest = via with
    | none => 1
    | some own => (p.2.filter fun c => c.priority = own.priority).length).foldl max 1

end Network

/-- Where a message came in: the association, and the Application Server or linkset of it that it
came through, if it has any. -/
structure Origin where
  assoc : String
  through : Option Destination
  deriving DecidableEq, Repr

/-- The association is one of the destination's. -/
def Origin.belongs (o : Origin) (n : Network) : Bool :=
  match o.through with
  | none => true
  | some d => o.assoc ∈ n.members d

/-- What the codecs of the users of MTP3, the screening of ISUP and the admission policy say of a
message. -/
structure Users where
  called : Msu → Option GttSelector × Option ℕ
  view : Msu → Option MapView × Bool
  screened : Msu → Bool
  -- `none` is a pass; a refusal may have an answer
  refused : Handed → Option (Option Msu)
  -- the payload with one hop less, or the answer to a message that has none left
  hop : Msu → Except (Option Msu) (List UInt8)
  rewritten : List UInt8 → Digits → Option (List UInt8)
  returned : Msu → Option Msu
  translated : Msu → String → Bool

/-- A message on its way to a destination, and whether it is held when its point code is. -/
structure Going where
  via : Destination
  msu : Handed
  mayHold : Bool

/-- A message that was sent on an association. -/
structure Sent where
  number : ℕ
  via : Destination
  on : String
  deriving DecidableEq, Repr

/-- What the tasks read of routes, ASPs and links. -/
structure Surroundings where
  states : String → RouteState
  carries : String → String → Bool
  routable : String → Bool
  full : String → Bool

structure Relay where
  router : Router
  around : Surroundings
  state : String → AsState
  pending : String → List Handed
  buffers : Buffers
  onLinks : List (String × Handed)
  released : List Handed
  busy : List Going
  origins : List (Option Origin)

namespace Relay

inductive Turn
  | arrive (origin : Origin) (msu : Msu)
  | send (i : ℕ)
  | change (around : Surroundings)
  | serverState (server : String) (state : AsState)
  | holdDestination (dpc : ℕ)
  | releaseDestination (dpc : ℕ)
  | releaseNext
  | reroute (i : ℕ)

def siIsup : ℕ := 5

def siSccp : ℕ := 3

section

variable (fits : Variant → ℕ → Bool) (n : Network) (users : Users) (tenant : String)

def new (router : Router) (reroutingBuffer : ℕ) : Relay where
  router := router
  around := ⟨fun _ => .new, fun _ _ => false, fun _ => false, fun _ => false⟩
  state := fun _ => .down
  pending := fun _ => []
  buffers := .new reroutingBuffer
  onLinks := []
  released := []
  busy := []
  origins := []

/-- The ASPs of a server that a message goes to. -/
def select (s : Relay) (server : String) (sls : ℕ) : List String :=
  match n.server server with
  | none => []
  | some a =>
    (choose a.trafficMode (a.asps.map (s.around.carries server)) sls).map fun i => a.asps.getD i ""

/-- The link of a linkset that a message goes to, other than `avoid`. -/
def selectLinkAvoiding (s : Relay) (linkset : String) (sls : ℕ) (avoid : Option String) :
    Option String :=
  match n.linkset linkset with
  | none => none
  | some l =>
    if l.links = [] then none
    else
      let key := sls / max (n.shareWidth (.linkset linkset)) 1
      let routable := fun link => avoid ≠ some link && s.around.routable link
      let normal := l.links.getD (key % l.links.length) ""
      if routable normal then some normal
      else
        let left := l.links.filter routable
        if left = [] then none else left[key % left.length]?

/-- Hand a message to a link, unless its queue is full. -/
def sendOnLink (s : Relay) (via : Destination) (link : String) (msu : Handed) :
    Relay × List Sent :=
  if s.around.full link then (s, [])
  else ({ s with onLinks := s.onLinks ++ [(link, msu)] }, [⟨msu.number, via, link⟩])

/-- Queue a message for a server that is pending. -/
def queueIfPending (s : Relay) (server : String) (msu : Handed) : Relay :=
  if n.managed server = false ∨ s.state server ≠ .pending ∨
      n.pendingLimit server ≤ (s.pending server).length then s
  else { s with pending := Function.update s.pending server (s.pending server ++ [msu]) }

/-- Send a message that is not to be held. -/
def sendNow (s : Relay) (via : Destination) (msu : Handed) : Relay × List Sent :=
  match via with
  | .linkset name =>
    match s.selectLinkAvoiding n name msu.msu.sls none with
    | some link => s.sendOnLink via link msu
    | none => (s, [])
  | .applicationServer name =>
    if msu.msu.si = Serving.siManagement then
      let active := (n.members via).filter fun asp => s.around.carries name asp
      (s, (active.filter (users.translated msu.msu)).map fun asp => ⟨msu.number, via, asp⟩)
    else
      let selected := s.select n name msu.msu.sls
      if selected = [] then (s.queueIfPending n name msu, [])
      else (s, selected.map fun asp => ⟨msu.number, via, asp⟩)

/-- Send a message, or hold it with the others for its point code. -/
def send (s : Relay) (going : Going) : Relay × List Sent :=
  if going.mayHold then
    let (outcome, buffers) := s.buffers.holdIfRerouting going.msu
    let s := { s with buffers := buffers }
    if outcome ≠ .passed then (s, []) else s.sendNow n users going.via going.msu
  else s.sendNow n users going.via going.msu

/-- A message is on its way. -/
def forward (s : Relay) (via : Destination) (msu : Handed) (mayHold : Bool) : Relay :=
  { s with busy := s.busy ++ [⟨via, msu, mayHold⟩] }

/-- A message of this node, back to where another one came from. -/
def answer (s : Relay) (src : Option Destination) (msu : Option Msu) : Relay :=
  match src, msu with
  | some src, some msu =>
    { s.forward src ⟨s.origins.length, msu⟩ true with origins := s.origins ++ [none] }
  | _, _ => s

/-- Whether a resolved egress would send a message back where it arrived. -/
def isReflection (inboundSrc : Option Destination) (via : Destination) : Bool :=
  inboundSrc = some via

def inboundOf (s : Relay) (msu : Msu) : Inbound :=
  if msu.si = siSccp then
    let rules := ((s.router.lookup tenant).bind TenantRuntime.content).any ContentEngine.hasRules
    let (view, undecodable) := if rules then users.view msu else (none, false)
    ⟨msu.dpc, (users.called msu).1, (users.called msu).2, view, undecodable⟩
  else ⟨msu.dpc, none, none, none, false⟩

/-- The way of a message that was routed, past the admission policy. -/
def admission (s : Relay) (src : Option Destination) (msu : Handed) (go : Relay → Relay) : Relay :=
  match users.refused msu with
  | some reply => s.answer src reply
  | none => go s

/-- Relay a message whose called party was translated. -/
def relayTo (s : Relay) (src : Option Destination) (via : Destination) (dpc : ℕ)
    (rewriteCdpaGt : Option Digits) (msu : Handed) : Relay :=
  match users.hop msu.msu with
  | .error violation => s.answer src violation
  | .ok payload =>
    let payload := match rewriteCdpaGt with
      | none => payload
      | some gt => (users.rewritten payload gt).getD payload
    s.forward via ⟨msu.number, { msu.msu with dpc := dpc, payload := payload }⟩ true

/-- Carry out a decision on a message. What is delivered to a user of this node, or handed over to
another domain, does not go on. -/
def carryOut (s : Relay) (src : Option Destination) (msu : Handed) : RouteDecision → Relay
  | .route via =>
    if msu.msu.si = siIsup ∧ users.screened msu.msu then s
    else if isReflection src via then s
    else s.admission users src msu fun s => s.forward via msu true
  | .routeTo dpc _ (some via) rewriteCdpaGt =>
    if isReflection src via then s
    else s.admission users src msu fun s => s.relayTo users src via dpc rewriteCdpaGt msu
  | .routeTo _ _ none _ => s.answer src (users.returned msu.msu)
  | .local_ => s
  | .crossTenant _ _ _ _ => s.answer src (users.returned msu.msu)
  | .drop _ => s.answer src (users.returned msu.msu)

/-- The decision on a message that comes in, unless it is one of this node's own. -/
def decision (s : Relay) (msu : Msu) : Option RouteDecision × Router :=
  if (s.router.lookup tenant).map TenantRuntime.pointCode = some msu.opc then (none, s.router)
  else
    let (decision, router) := routeFor fits s.router tenant (s.inboundOf users tenant msu) msu.sls
    (some decision, router)

/-- Route a message that came in on an association. -/
def dispatch (s : Relay) (origin : Origin) (msu : Msu) : Relay :=
  let msu : Handed := ⟨s.origins.length, msu⟩
  let (decision, router) := s.decision fits users tenant msu.msu
  let s := { s with origins := s.origins ++ [some origin], router := router }
  match decision with
  | none => s
  | some decision => s.carryOut users (n.inboundDestination origin.assoc) msu decision

/-- The egress of a message that is routed by its point code, other than `avoid`. -/
def egress (s : Relay) (msu : Msu) (avoid : Option Destination) : Option Destination :=
  egressFor fits s.router tenant msu.dpc msu.sls avoid

/-- Where a message goes that a link gives back: to another link of its linkset, or on by another
route. -/
def reroutedTo (s : Relay) (link : String) (msu : Msu) : Option (Destination × Option String) :=
  let own := n.inboundDestination link
  match s.egress fits tenant msu none with
  | none => none
  | some via =>
    if own = some via then
      let other := match via with
        | .linkset name => s.selectLinkAvoiding n name msu.sls (some link)
        | .applicationServer _ => none
      match other with
      | some slot => some (via, some slot)
      | none => (s.egress fits tenant msu own).map fun via => (via, none)
    else some (via, none)

/-- Send a message that a link held and will not carry. -/
def reroute (s : Relay) (link : String) (msu : Handed) : Relay × List Sent :=
  match s.reroutedTo fits n tenant link msu.msu with
  | none => (s, [])
  | some (via, none) => (s.forward via msu true, [])
  | some (via, some slot) =>
    let (outcome, buffers) := s.buffers.holdIfRerouting msu
    let s := { s with buffers := buffers }
    if outcome ≠ .passed then (s, []) else s.sendOnLink via slot msu

/-- Store the state of a server. Unless it is pending its queue is taken, and sent if the server is
active. -/
def setServerState (s : Relay) (server : String) (state : AsState) : Relay :=
  let queued := s.pending server
  let s := { s with state := Function.update s.state server state }
  if state = .pending then s
  else
    let s := { s with pending := Function.update s.pending server [] }
    if state = .active then
      { s with busy := s.busy ++ queued.map fun msu => ⟨.applicationServer server, msu, true⟩ }
    else s

/-- Take what is buffered for a destination. -/
def release (s : Relay) (dpc : ℕ) : Relay :=
  let (batch, buffers) := s.buffers.releaseDestination dpc
  { s with buffers := buffers, released := s.released ++ batch.getD [] }

/-- Send the next message that was buffered, by the routing as it now is. -/
def releaseNext (s : Relay) : Relay :=
  match s.released with
  | [] => s
  | msu :: rest =>
    let s := { s with released := rest }
    match s.egress fits tenant msu.msu none with
    | some via => s.forward via msu false
    | none => s

def step (s : Relay) : Turn → Relay × List Sent
  | .arrive origin msu => if origin.belongs n then (s.dispatch fits n users tenant origin msu, [])
    else (s, [])
  | .send i => match s.busy[i]? with
    | none => (s, [])
    | some going => { s with busy := s.busy.eraseIdx i }.send n users going
  | .change around =>
    ({ s with
      around := around
      router := s.router.mapValues fun id rt => { rt with routeState := around.states id } }, [])
  | .serverState server state => (s.setServerState server state, [])
  | .holdDestination dpc => ({ s with buffers := s.buffers.holdDestination dpc }, [])
  | .releaseDestination dpc => (s.release dpc, [])
  | .releaseNext => (s.releaseNext fits tenant, [])
  | .reroute i => match s.onLinks[i]? with
    | none => (s, [])
    | some (link, msu) => { s with onLinks := s.onLinks.eraseIdx i }.reroute fits n tenant link msu

/-- The transfer path, and what it sent. -/
def watching : Relay × List Sent → Turn → Relay × List Sent :=
  Machine.watch (step fits n users tenant) fun sent _ _ out => sent ++ out.2

end

end Relay

end SiphonSigtran.Transport
