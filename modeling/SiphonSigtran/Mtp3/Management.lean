import Mathlib.Data.Finset.Insert
import Mathlib.Data.Finset.Basic
import SiphonSigtran.Mtp3.Domain

/-!
# Signalling network management of a transfer point

What level 3 knows about one routing domain, and what it does about each input.
A handler is a function of the state, which keeps in `out` what it leaves for the
caller; `handle` takes that out. The vectors of the state are functions of an
index, and the destinations a function of the point code, of which the topology
says the domain.
-/

namespace SiphonSigtran.Mtp3

/-- Where a link is, as far as traffic goes. -/
inductive Phase
  | closed
  | open
  | changeoverOrdered
  | changeoverTimed
  | changebackDeclared (second : Bool)
  | changebackTimed
  | awaitRestart
  deriving DecidableEq, Repr

/-- A changeover order the far end sent for a link that was up. -/
structure Ordered where
  fsnc : Option ℕ
  emergency : Bool
  deriving DecidableEq, Repr

structure LinkState where
  up : Bool
  phase : Phase
  remoteInhibited : Bool
  bsnt : ℕ
  back : Bool
  ordered : Option Ordered
  declared : List (ℕ × LinkId)
  uninhibitAttempts : ℕ
  forceAttempts : ℕ
  deriving DecidableEq, Repr

structure LinksetState where
  restarting : Bool
  traSent : Bool
  traReceived : Bool
  guarded : Bool
  synced : Bool
  deriving DecidableEq, Repr

structure RouteState where
  via : Via
  priority : ℕ
  status : RouteStatus
  deriving DecidableEq, Repr

structure DestinationState where
  routes : List RouteState
  paused : Bool
  accessible : Bool
  restricted : Bool
  /-- Linksets whose adjacent point was last told transfer-prohibited. -/
  told : Finset LinksetId
  holding : Bool
  deferred : List Action
  deriving DecidableEq

/-- `dest.routes[position].status = status`. -/
def DestinationState.setStatus (dest : DestinationState) (position : ℕ) (status : RouteStatus) :
    DestinationState :=
  { dest with routes := dest.routes.modify position fun r => { r with status := status } }

structure Management where
  topology : Topology
  timers : Timers
  tfpUnknown : Bool
  links : LinkId → LinkState
  linksets : LinksetId → LinksetState
  servers : ℕ → Bool
  destinations : ℕ → DestinationState
  guarded : Finset ℕ
  restarting : Bool
  restartDue : Bool
  isolated : Bool
  without : Option LinkId
  nextCode : ℕ
  out : List Entry

/-- Carries traffic, or is about to. -/
def Phase.available : Phase → Bool
  | .open | .changebackDeclared _ | .changebackTimed => true
  | _ => false

/-- The traffic of the link leaves it, and has not left it yet. -/
def Phase.changingOver : Phase → Bool
  | .changeoverOrdered | .changeoverTimed => true
  | _ => false

/-- What a restarting node does not discard of the messages for itself. -/
def ManagementMessage.ofRestart : ManagementMessage → Bool
  | .tfp _ | .tfr _ | .tfa _ | .tra => true
  | _ => false

namespace Management

/-- The management of a domain in which nothing is up yet. -/
def new (topology : Topology) (timers : Timers) (tfpForUnknownDestination : Bool) :
    Management where
  topology := topology
  timers := timers
  tfpUnknown := tfpForUnknownDestination
  links := fun _ =>
    { up := false
      phase := .closed
      remoteInhibited := false
      bsnt := 0x00FFFFFF
      back := false
      ordered := none
      declared := []
      uninhibitAttempts := 0
      forceAttempts := 0 }
  linksets := fun _ =>
    { restarting := false
      traSent := false
      traReceived := false
      guarded := false
      synced := false }
  servers := fun _ => false
  destinations := fun dpc =>
    { routes := (topology.routesOf dpc).map fun r => ⟨r.via, r.priority, .allowed⟩
      paused := false
      accessible := false
      restricted := false
      told := ∅
      holding := false
      deferred := [] }
  guarded := ∅
  restarting := false
  restartDue := true
  isolated := true
  without := none
  nextCode := 0
  out := []

/-! ## Access -/

def push (m : Management) (action : Action) : Management :=
  { m with out := m.out ++ [.act action] }

def extend (m : Management) (actions : List Action) : Management :=
  { m with out := m.out ++ actions.map .act }

def setLink (m : Management) (link : LinkId) (f : LinkState → LinkState) : Management :=
  { m with links := fun l => if l = link then f (m.links l) else m.links l }

def setLinkset (m : Management) (linkset : LinksetId) (f : LinksetState → LinksetState) :
    Management :=
  { m with linksets := fun l => if l = linkset then f (m.linksets l) else m.linksets l }

def setDestination (m : Management) (dpc : ℕ) (f : DestinationState → DestinationState) :
    Management :=
  { m with destinations := fun d => if d = dpc then f (m.destinations d) else m.destinations d }

/-- `destinations.get`. -/
def destination? (m : Management) (dpc : ℕ) : Option DestinationState :=
  if dpc ∈ m.topology.dpcs then some (m.destinations dpc) else none

def linksetOf (m : Management) (link : LinkId) : LinksetId := (m.topology.link link).linkset
def slcOf (m : Management) (link : LinkId) : ℕ := (m.topology.link link).slc
def adjacentOf (m : Management) (linkset : LinksetId) : Option ℕ :=
  (m.topology.linkset linkset).adjacent
def linksOf (m : Management) (linkset : LinksetId) : List LinkId :=
  (m.topology.linkset linkset).links

/-- The positions of the linksets, and of the links. -/
def linksetIds (m : Management) : List LinksetId := List.range m.topology.linksets.length
def linkIds (m : Management) : List LinkId := List.range m.topology.links.length

def hasLink (m : Management) (link : LinkId) : Bool := link < m.topology.links.length
def hasLinkset (m : Management) (linkset : LinksetId) : Bool :=
  linkset < m.topology.linksets.length

/-! ## Availability -/

def linkAvailable (m : Management) (link : LinkId) : Bool :=
  m.without ≠ some link && (m.links link).phase.available

def linksetAvailable (m : Management) (linkset : LinksetId) : Bool :=
  (m.linksOf linkset).any fun l => m.linkAvailable l

/-- Whether any link of the linkset is up at level 2, whatever it carries. -/
def linksetSignalling (m : Management) (linkset : LinksetId) : Bool :=
  (m.linksOf linkset).any fun l => (m.links l).up

def usable (m : Management) (dest : DestinationState) (route : RouteState) : Usable :=
  if dest.paused then .no
  else match route.via with
    | .server index => if m.servers index then .yes else .no
    | .linkset linkset =>
      if m.linksetAvailable linkset then
        match route.status with
        | .allowed => .yes
        | .restricted => .restricted
        | .prohibited => .no
      else .no

/-- The routes of a destination that carry traffic. -/
def inUse (m : Management) (dpc : ℕ) : List ℕ :=
  match m.destination? dpc with
  | some dest => routesInUse RouteState.priority (m.usable dest) dest.routes
  | none => []

def reachable (m : Management) (dpc : ℕ) : Bool := !(m.inUse dpc).isEmpty

/-- Whether a destination is reached only by routes their adjacent points restricted. -/
def onlyRestricted (m : Management) (dpc : ℕ) : Bool :=
  match m.destination? dpc with
  | some dest =>
    !(m.inUse dpc).isEmpty &&
      (m.inUse dpc).all fun i => (dest.routes[i]?.map (m.usable dest)) = some .restricted
  | none => false

/-- Whether a message can reach the adjacent point of a linkset at all. -/
def canTell (m : Management) (linkset : LinksetId) : Bool :=
  m.linksetSignalling linkset || (m.adjacentOf linkset).any fun pc => m.reachable pc

/-- Whether this node should have the adjacent point of `linkset` believe `dpc` prohibited. -/
def prohibitedToward (m : Management) (dpc : ℕ) (linkset : LinksetId) : Bool :=
  match m.destination? dpc with
  | some dest =>
    (m.inUse dpc).isEmpty ||
      (m.inUse dpc).any fun i => (dest.routes[i]?.map RouteState.via) = some (.linkset linkset)
  | none => true

/-! ## Sending -/

/-- Send a message to the adjacent point of a linkset, if its links say what that is. -/
def send (m : Management) (linkset : LinksetId) (slc : ℕ) (message : ManagementMessage)
    (path : Path) : Management :=
  match m.adjacentOf linkset with
  | some dpc => m.push (.send dpc slc message path)
  | none => m

def tell (m : Management) (linkset : LinksetId) (slc : ℕ) (message : ManagementMessage) :
    Management := m.send linkset slc message (.adjacent linkset none)

def note (m : Management) (procedure : Procedure) (subject : Subject) : Management :=
  m.push (.note procedure subject)

def ignored (m : Management) (name why : String) : Management := m.push (.ignored name why)

/-! ## What adjacent points believe -/

def guard (m : Management) (dpc : ℕ) : Management :=
  { m with guarded := insert dpc m.guarded }.push (.start (.prohibited dpc) m.timers.t8)

/-- The accessibility of one destination, and whether it is restricted. -/
def settleDestination (m : Management) (dpc : ℕ) : Management :=
  let accessible := m.reachable dpc
  let restricted := accessible && m.onlyRestricted dpc
  let m := if accessible then m else m.setDestination dpc fun d => { d with restricted := false }
  let m :=
    if (m.destinations dpc).accessible ≠ accessible then
      let m := (m.setDestination dpc fun d => { d with accessible := accessible }).push
        (.accessibility dpc accessible)
      if !accessible && !m.restarting then m.guard dpc else m
    else m
  if accessible && (m.destinations dpc).restricted ≠ restricted then
    (m.setDestination dpc fun d => { d with restricted := restricted }).push
      (.restricted dpc restricted)
  else m

/-- An adjacent point takes every route through this node to be allowed. -/
def resync (m : Management) (linkset : LinksetId) : Management :=
  { m.setLinkset linkset fun s => { s with synced := true } with
    destinations := fun d =>
      { m.destinations d with told := (m.destinations d).told.erase linkset }
    out := m.out ++ [.resynced linkset] }

/-- What one adjacent point is to believe about one destination, if that has changed. -/
def settleBelief (m : Management) (linkset : LinksetId) (adjacent dpc : ℕ) : Management :=
  if dpc = adjacent then m
  else
    let want := m.prohibitedToward dpc linkset
    if decide (linkset ∈ (m.destinations dpc).told) = want then m
    else
      let told := (m.destinations dpc).told
      let message := if want then about dpc .tfp else about dpc .tfa
      let m := m.setDestination dpc fun d =>
        { d with told := if want then insert linkset told else told.erase linkset }
      match message with
      | some message => m.push (.send adjacent 0 message (.adjacent linkset none))
      | none => m

def settleLinkset (m : Management) (linkset : LinksetId) : Management :=
  match m.adjacentOf linkset with
  | none => m
  | some adjacent =>
    if !m.canTell linkset then m.setLinkset linkset fun s => { s with synced := false }
    else
      let m := if (m.linksets linkset).synced then m else m.resync linkset
      m.topology.dpcs.foldl (fun m dpc => m.settleBelief linkset adjacent dpc) m

/-- Bring what every adjacent point believes in line with what is. -/
def settle (m : Management) : Management :=
  let m := m.topology.dpcs.foldl settleDestination m
  -- A restarting node sends nothing before its second phase.
  if m.restarting then m else m.linksetIds.foldl settleLinkset m

/-- An isolation that lasts longer than T1 calls for the restart procedure. -/
def watchIsolation (m : Management) : Management :=
  let isolated := !(m.linkIds.any fun l => (m.links l).up) &&
    !((List.range m.topology.servers).any m.servers)
  if isolated = m.isolated then m
  else
    let m := { m with isolated := isolated }
    if isolated then m.push (.start .isolation m.timers.t1) else m.push (.stop .isolation)

/-! ## Routes -/

/-- Every route through a linkset is allowed again. -/
def allowRoutesThrough (m : Management) (linkset : LinksetId) : Management :=
  let cleared := m.topology.dpcs.flatMap fun dpc =>
    (m.destinations dpc).routes.filterMap fun r =>
      if r.via = .linkset linkset ∧ r.status ≠ .allowed then some dpc else none
  let m := { m with
    destinations := fun d =>
      { m.destinations d with
        routes := (m.destinations d).routes.map fun r : RouteState =>
          if r.via = Via.linkset linkset then { r with status := .allowed } else r } }
  m.extend (cleared.flatMap fun dpc =>
    [.stop (.routeSetTest dpc linkset), .route dpc linkset .allowed])

/-- The mark of a route that took another status, and the rerouting that goes with it. -/
def markRoute (m : Management) (linkset : LinksetId) (dpc : ℕ) (status : RouteStatus)
    (before after : List ℕ) : Management :=
  let mark := Action.route dpc linkset status
  let moves := before ≠ after
  if status = .prohibited then
    let held := (m.destinations dpc).deferred
    let m := ((m.setDestination dpc fun d => { d with deferred := [] }).extend held).push mark
    let m :=
      if (m.destinations dpc).holding then
        ((m.setDestination dpc fun d => { d with holding := false }).push
          (.stop (.rerouting dpc))).push (.releaseDestination dpc)
      else m
    if moves ∧ before ≠ [] then m.note .forcedRerouting (.destination dpc) else m
  else if (m.destinations dpc).holding then
    m.setDestination dpc fun d => { d with deferred := d.deferred ++ [mark] }
  else if moves ∧ before ≠ [] ∧ after ≠ [] then
    (((m.setDestination dpc fun d =>
      { d with holding := true, deferred := d.deferred ++ [mark] }).push
        (.holdDestination dpc)).push (.start (.rerouting dpc) m.timers.t6)).note
          .controlledRerouting (.destination dpc)
  else m.push mark

/-- A transfer-prohibited, -restricted or -allowed from an adjacent point. -/
def routeMessage (m : Management) (linkset : LinksetId) (dpc : ℕ) (status : RouteStatus)
    (name : String) : Management :=
  let position := (m.destination? dpc).bind fun dest =>
    dest.routes.findIdx? fun r => r.via = .linkset linkset
  match position with
  | none => m.ignored name "there is no route to that destination through the sender"
  | some position =>
    let before := m.inUse dpc
    if (m.destinations dpc).routes[position]?.map RouteState.status = some status then m
    else
      let m := m.setDestination dpc fun d => d.setStatus position status
      let after := m.inUse dpc
      let m :=
        if status = .allowed then m.push (.stop (.routeSetTest dpc linkset))
        else m.push (.start (.routeSetTest dpc linkset) m.timers.t10)
      m.markRoute linkset dpc status before after

/-- A signalling route set test is answered only when the sender is wrong. -/
def routeSetTest (m : Management) (linkset : LinksetId) (dpc : ℕ) (believes : RouteStatus) :
    Management :=
  let prohibited := m.prohibitedToward dpc linkset
  let actual := if prohibited then RouteStatus.prohibited else .allowed
  if actual = believes then m
  else
    let message := if prohibited then about dpc .tfp else about dpc .tfa
    match message with
    | none => m
    | some message =>
      let m :=
        if dpc ∈ m.topology.dpcs then
          m.setDestination dpc fun d =>
            { d with told := if prohibited then insert linkset d.told else d.told.erase linkset }
        else m
      m.tell linkset 0 message

/-- The response method. -/
def unroutable (m : Management) (dpc : ℕ) (link : LinkId) : Management :=
  if m.restarting ∨ dpc = m.topology.ownPc ∨ dpc ∈ m.guarded then m
  else
    let linkset := m.linksetOf link
    if m.adjacentOf linkset = none then m
    else match about dpc .tfp with
      | none => m
      | some message =>
        if dpc ∈ m.topology.dpcs then
          ((m.setDestination dpc fun d => { d with told := insert linkset d.told }).tell
            linkset 0 message).guard dpc
        else if !m.tfpUnknown then m
        else (m.tell linkset 0 message).guard dpc

/-! ## Restoration and changeback -/

def timeControlledChangeback (m : Management) (link : LinkId) : Management :=
  ((m.setLink link fun s => { s with phase := .changebackTimed }).push (.hold link)).push
    (.start (.changeback link) m.timers.t3)

/-- A linkset became available: the time-controlled diversion when traffic it should carry
is on another route now, at once when there is none. -/
def startTraffic (m : Management) (link : LinkId) : Management :=
  let linkset := m.linksetOf link
  let diverted := m.topology.dpcs.any fun dpc =>
    (m.destinations dpc).accessible &&
      (m.destinations dpc).routes.any fun r => r.via = .linkset linkset
  if diverted then m.timeControlledChangeback link
  else (m.setLink link fun s => { s with phase := .open }).settle.push (.open link)

/-- One declaration on each of the links, with the codes from the next one on. -/
def declare (m : Management) (link : LinkId) : List LinkId → Management × List (ℕ × LinkId)
  | [] => (m, [])
  | alternative :: rest =>
    let code := m.nextCode
    let m := { m with nextCode := (m.nextCode + 1) % 256 }
    let m := m.send (m.linksetOf link) (m.slcOf link) (.cbd code) (.behind alternative)
    let others := declare m link rest
    (others.1, (code, alternative) :: others.2)

/-- A link that is up and not inhibited is to carry traffic again. -/
def restore (m : Management) (link : LinkId) : Management :=
  let linkset := m.linksetOf link
  if m.restarting || (m.linksets linkset).restarting then
    m.setLink link fun s => { s with phase := .awaitRestart }
  else
    let carrying := (m.linksOf linkset).filter fun l =>
      l ≠ link && (m.links l).phase = .open
    if m.linksetAvailable linkset then
      if carrying.isEmpty || (m.adjacentOf linkset).isNone then m.timeControlledChangeback link
      else
        let declared := (m.push (.hold link)).declare link carrying
        (declared.1.setLink link fun s =>
          { s with declared := declared.2, phase := .changebackDeclared false }).push
            (.start (.changeback link) m.timers.t4)
    -- The first link of its linkset, and its adjacent point was inaccessible.
    else if (m.adjacentOf linkset).any fun pc => !m.reachable pc then
      let m := m.setLinkset linkset fun s =>
        { s with restarting := true, traReceived := false, synced := false }
      let m := m.allowRoutesThrough linkset
      let m := m.setLink link fun s => { s with phase := .awaitRestart }
      let m := m.push (.start (.adjacentRestart linkset) m.timers.t21)
      let m := m.note .adjacentRestartBegun (.linkset linkset)
      let m := m.settle.send linkset 0 .tra (.link link)
      m.setLinkset linkset fun s => { s with traSent := true }
    else m.startTraffic link

def finishChangeback (m : Management) (link : LinkId) (how : Procedure) : Management :=
  (((m.push (.stop (.changeback link))).setLink link fun s =>
    { s with declared := [], phase := .open }).push (.open link)).note how (.link link)

/-! ## Restart -/

/-- A traffic restart allowed to an adjacent point that can be signalled to. -/
def allowRestart (m : Management) (linkset : LinksetId) : Management :=
  if !m.linksetSignalling linkset then m
  else
    ((m.tell linkset 0 .tra).setLinkset linkset fun s =>
      { s with traSent := true, guarded := true }).push
        (.start (.restartAllowed linkset) m.timers.t19)

/-- The second phase and the end of this node's restart. -/
def endRestart (m : Management) : Management :=
  if !m.restarting then m
  else
    let opened := m.linkIds.filter fun l => (m.links l).phase = .awaitRestart
    let m := ({ m with restarting := false }.push (.stop .restart)).push (.stop .restartOverall)
    let m : Management := { m with
      links := fun l =>
        if (m.links l).phase = Phase.awaitRestart then { m.links l with phase := .open }
        else m.links l
      linksets := fun l => { m.linksets l with synced := false } }
    let m := m.settle.extend (opened.map .open)
    let m := m.linksetIds.foldl allowRestart m
    (m.push (.restarting false)).note .restartEnded .node

/-- The first phase ends when every adjacent point has sent a traffic restart allowed. -/
def restartProgress (m : Management) : Management :=
  let complete := m.linksetIds.all fun linkset =>
    (m.adjacentOf linkset).isNone ||
      ((m.linksets linkset).traReceived && m.linksetSignalling linkset)
  if complete then m.endRestart else m

def endAdjacentRestart (m : Management) (linkset : LinksetId) (how : Procedure) : Management :=
  let m := m.setLinkset linkset fun s => { s with restarting := false }
  let m := (m.push (.stop (.adjacentRestart linkset))).note how (.linkset linkset)
  let waiting := (m.linksOf linkset).filter fun l => (m.links l).phase = .awaitRestart
  waiting.foldl startTraffic m

def trafficRestartAllowed (m : Management) (linkset : LinksetId) : Management :=
  if m.restarting then
    (m.setLinkset linkset fun s => { s with traReceived := true }).restartProgress
  else if (m.linksets linkset).restarting then
    let m := m.setLinkset linkset fun s => { s with traReceived := true }
    if (m.linksets linkset).traSent then m.endAdjacentRestart linkset .adjacentRestartEnded
    else m
  else if (m.linksets linkset).guarded then
    m.ignored "TRA" "T19 is running for the adjacent point"
  else
    let m := (m.setLinkset linkset fun s => { s with synced := false }).settle
    ((m.tell linkset 0 .tra).setLinkset linkset fun s => { s with guarded := true }).push
      (.start (.restartAllowed linkset) m.timers.t19)

/-! ## Links that come up -/

/-- The beginning of this node's restart. -/
def beginRestart (m : Management) : Management :=
  let m := { m with restarting := true, restartDue := false }
  let m := m.linksetIds.foldl (fun m linkset =>
    (m.allowRoutesThrough linkset).setLinkset linkset fun s => { s with traReceived := false }) m
  (((m.push (.restarting true)).push (.start .restart m.timers.t18)).push
    (.start .restartOverall m.timers.t20)).note .restartBegun .node

def linkUp (m : Management) (link : LinkId) : Management :=
  let m := if m.restartDue && !m.restarting && m.isolated then m.beginRestart else m
  let m := if m.isolated then m else { m with restartDue := false }
  let m := m.setLink link fun s => { s with up := true }
  let m := match (m.links link).phase with
    -- Its changeover has to complete first.
    | .changeoverOrdered | .changeoverTimed => m.setLink link fun s => { s with back := true }
    | .closed => if (m.links link).remoteInhibited then m else m.restore link
    | _ => m
  if m.restarting then m.restartProgress else m

/-! ## Failure and changeover -/

/-- The buffer of the link is updated and its traffic diverted. -/
def completeChangeover (m : Management) (link : LinkId) (fsnc : Option ℕ)
    (how : Option Procedure) : Management :=
  let m := (m.push (.stop (.changeover link))).setLink link fun s => { s with phase := .closed }
  let how := how.getD
    (if fsnc.isSome then .changeoverAcknowledged else .changeoverEmergency)
  let m := (m.push (.divert link fsnc)).note how (.link link)
  let s := m.links link
  let m := m.setLink link fun s => { s with back := false }
  if s.back && s.up && !s.remoteInhibited then m.restore link else m

def beginChangeover (m : Management) (link : LinkId) : Management :=
  let linkset := m.linksetOf link
  let m := (m.push (.hold link)).setLink link fun s => { s with phase := .changeoverOrdered }
  if m.canTell linkset && (m.adjacentOf linkset).isSome then
    (m.send linkset (m.slcOf link) (.xco (m.links link).bsnt)
      (.adjacent linkset (some link))).push (.start (.changeover link) m.timers.t2)
  else
    (m.setLink link fun s => { s with phase := .changeoverTimed }).push
      (.start (.changeover link) m.timers.t1)

/-- Answer a changeover order with this end's last accepted sequence number, or without. -/
def acknowledgeOrder (m : Management) (link : LinkId) (emergency : Bool) : Management :=
  let linkset := m.linksetOf link
  let message := if emergency then .eca else .xca (m.links link).bsnt
  m.send linkset (m.slcOf link) message (.adjacent linkset (some link))

def linkDown (m : Management) (link : LinkId) (bsnt : ℕ) : Management :=
  let linkset := m.linksetOf link
  let ordered := (m.links link).ordered
  let m := m.setLink link fun s =>
    { s with up := false, bsnt := bsnt, back := false, ordered := none }
  let m := match ordered with
    | some order => m.acknowledgeOrder link order.emergency
    | none => m
  let m := match (m.links link).phase with
    | .open | .changebackDeclared _ | .changebackTimed =>
      let m := (m.push (.stop (.changeback link))).setLink link fun s => { s with declared := [] }
      match ordered with
      | some order => (m.push (.hold link)).completeChangeover link order.fsnc none
      | none => m.beginChangeover link
    | .changeoverOrdered | .changeoverTimed =>
      match ordered with
      | some order => m.completeChangeover link order.fsnc none
      | none => m
    | .awaitRestart => m.setLink link fun s => { s with phase := .closed }
    | .closed => m
  if m.linksetSignalling linkset then m
  else
    let m :=
      if (m.linksets linkset).restarting then
        (m.setLinkset linkset fun s => { s with restarting := false }).push
          (.stop (.adjacentRestart linkset))
      else m
    m.setLinkset linkset fun s => { s with traSent := false, traReceived := false }

def changeoverOrder (m : Management) (link : LinkId) (fsnc : Option ℕ) (emergency : Bool) :
    Management :=
  if (m.links link).phase.changingOver && !(m.links link).up then
    (m.acknowledgeOrder link emergency).completeChangeover link fsnc none
  -- The answer waits for level 2 to say where it stopped.
  else if (m.links link).up then
    (m.setLink link fun s => { s with ordered := some ⟨fsnc, emergency⟩ }).push (.fail link)
  else
    m.send (m.linksetOf link) (m.slcOf link) .eca (.adjacent (m.linksetOf link) (some link))

def changeoverAcknowledgement (m : Management) (link : LinkId) (fsnc : Option ℕ)
    (name : String) : Management :=
  if (m.links link).phase = .changeoverOrdered then m.completeChangeover link fsnc none
  else m.ignored name "no changeover order is out for the link"

/-! ## Inhibiting -/

/-- Whether taking a link out of traffic would make an accessible destination inaccessible. -/
def wouldIsolate (m : Management) (link : LinkId) : Bool :=
  let before := m.topology.dpcs.filter m.reachable
  before.any fun dpc => !{ m with without := some link }.reachable dpc

def linkOrRoute (m : Management) (link : LinkId) : Path :=
  if (m.links link).up then .link link else .adjacent (m.linksetOf link) (some link)

/-- The far end asks to inhibit the link. -/
def inhibit (m : Management) (link : LinkId) (path : Path) : Management :=
  let linkset := m.linksetOf link
  if (m.links link).remoteInhibited then m.send linkset (m.slcOf link) .lia path
  else if m.linkAvailable link && m.wouldIsolate link then
    (m.send linkset (m.slcOf link) .lid path).note .linkInhibitDenied (.link link)
  else
    let m := m.setLink link fun s => { s with remoteInhibited := true }
    let m := (m.send linkset (m.slcOf link) .lia path).note .linkInhibited (.link link)
    let m := match (m.links link).phase with
      | .open | .changebackDeclared _ | .changebackTimed =>
        (((m.push (.stop (.changeback link))).setLink link fun s =>
          { s with declared := [], phase := .changeoverTimed }).push (.hold link)).push
            (.start (.changeover link) m.timers.t1)
      | .awaitRestart => m.setLink link fun s => { s with phase := .closed }
      | _ => m
    m.push (.start (.inhibitTest link) m.timers.t23)

/-- The far end no longer inhibits the link. -/
def uninhibit (m : Management) (link : LinkId) (path : Path) : Management :=
  let m := (m.send (m.linksetOf link) (m.slcOf link) .lua path).push
    (.stop (.forceUninhibit link))
  let m := m.setLink link fun s => { s with forceAttempts := 0 }
  if !(m.links link).remoteInhibited then m
  else
    let m := (m.setLink link fun s => { s with remoteInhibited := false }).push
      (.stop (.inhibitTest link))
    let m := m.note .linkUninhibited (.link link)
    match (m.links link).phase with
    | .closed => if (m.links link).up then m.restore link else m
    | .changeoverTimed | .changeoverOrdered =>
      if (m.links link).up then m.setLink link fun s => { s with back := true } else m
    | _ => m

def inhibitMessage (m : Management) (link : LinkId) (message : ManagementMessage) :
    Management :=
  let linkset := m.linksetOf link
  let slc := m.slcOf link
  let path := m.linkOrRoute link
  match message with
  | .lin => m.inhibit link path
  | .lun => m.uninhibit link path
  | .lfu => m.send linkset slc .lun path
  | .lua =>
    if (m.links link).uninhibitAttempts > 0 then
      (m.setLink link fun s => { s with uninhibitAttempts := 0 }).push (.stop (.uninhibit link))
    else m.ignored "LUA" "no uninhibit message is outstanding for the link"
  | .lia => m.ignored "LIA" "no inhibit message is outstanding for the link"
  | .lid => m.ignored "LID" "no inhibit message is outstanding for the link"
  | .llt =>
    if !(m.links link).remoteInhibited && (m.links link).forceAttempts = 0 then
      ((m.setLink link fun s => { s with forceAttempts := 1 }).send linkset slc .lfu path).push
        (.start (.forceUninhibit link) m.timers.t13)
    else m
  | .lrt =>
    if (m.links link).uninhibitAttempts = 0 then
      ((m.setLink link fun s => { s with uninhibitAttempts := 1 }).send linkset slc .lun path).push
        (.start (.uninhibit link) m.timers.t12)
    else m
  | _ => m

/-! ## Received messages -/

def changebackAcknowledgement (m : Management) (link : LinkId) (code : ℕ) (name : String) :
    Management :=
  let declared := (m.links link).declared.filter fun d => d.1 ≠ code
  let matched := declared.length ≠ (m.links link).declared.length ∧
    ((m.links link).phase = .changebackDeclared false ∨
      (m.links link).phase = .changebackDeclared true)
  let m := m.setLink link fun s => { s with declared := declared }
  if ¬ matched then m.ignored name "no changeback declaration with that code is out"
  else if declared.isEmpty then m.finishChangeback link .changebackAcknowledged
  else m

def linkMessage (m : Management) (link : LinkId) (message : ManagementMessage)
    (name : String) : Management :=
  match message with
  | .xco fsn => m.changeoverOrder link (some fsn) false
  | .coo => m.changeoverOrder link none true
  | .eco => m.changeoverOrder link none false
  | .xca fsn => m.changeoverAcknowledgement link (some fsn) name
  | .coa | .eca => m.changeoverAcknowledgement link none name
  | .cba code => m.changebackAcknowledgement link code name
  | .lin | .lun | .lia | .lua | .lid | .lfu | .llt | .lrt => m.inhibitMessage link message
  | .dlc | .css | .cns | .cnp =>
    m.ignored name "signalling data links are not allocated on request"
  | _ => m.ignored name "not a message about a link"

/-- The linkset whose adjacent point is `opc`: the one the message arrived on if that fits. -/
def linksetFrom (m : Management) (opc : ℕ) (link : LinkId) : Option LinksetId :=
  if m.adjacentOf (m.linksetOf link) = some opc then some (m.linksetOf link)
  else m.topology.linksets.findIdx? fun l => l.adjacent = some opc

/-- A message from the adjacent point of a linkset. -/
def receivedFrom (m : Management) (linkset : LinksetId) (slc : ℕ) (message : ManagementMessage)
    (name : String) : Management :=
  match message with
  | .tfp destination => m.routeMessage linkset destination .prohibited name
  | .tfr destination => m.routeMessage linkset destination .restricted name
  | .tfa destination => m.routeMessage linkset destination .allowed name
  | .rst destination => m.routeSetTest linkset destination .prohibited
  | .rsr destination => m.routeSetTest linkset destination .restricted
  | .tra => m.trafficRestartAllowed linkset
  | .cbd code => m.tell linkset slc (.cba code)
  | other =>
    match (m.linksOf linkset).find? fun l => m.slcOf l = slc with
    | some link => m.linkMessage link other name
    | none => m.ignored name "the linkset has no link with that code"

def received (m : Management) (arrived : LinkId) (opc slc : ℕ) (message : ManagementMessage) :
    Management :=
  let name := message.name
  match message with
  -- These come from anywhere in the network.
  | .tfc destination status =>
    if m.restarting then m.ignored name "this node is restarting"
    else m.push (.congestion destination status)
  | .upu => m.ignored name "no user part of this node sent to that destination"
  | .rct => m.ignored name "discarded at its destination"
  | _ =>
    match m.linksetFrom opc arrived with
    | none => m.ignored name "its originating point is not an adjacent point"
    | some linkset =>
      if m.restarting && !message.ofRestart then m.ignored name "this node is restarting"
      else m.receivedFrom linkset slc message name

/-! ## Timers -/

/-- T12 or T13 ran out: once more, then give up. -/
def repeatUninhibit (m : Management) (link : LinkId) (force : Bool) : Management :=
  let attempts := if force then (m.links link).forceAttempts else (m.links link).uninhibitAttempts
  let timer := if force then Timer.forceUninhibit link else .uninhibit link
  let after := if force then m.timers.t13 else m.timers.t12
  let message := if force then ManagementMessage.lfu else .lun
  let set (m : Management) (next : ℕ) : Management := m.setLink link fun s =>
    if force then { s with forceAttempts := next } else { s with uninhibitAttempts := next }
  if attempts = 0 then m
  else if attempts = 1 then
    set ((m.send (m.linksetOf link) (m.slcOf link) message (m.linkOrRoute link)).push
      (.start timer after)) 2
  else set (m.note .uninhibitAbandoned (.link link)) 0

/-- The declarations of the link that are still out, sent again. -/
def redeclare (m : Management) (link : LinkId) : List (ℕ × LinkId) → Management
  | [] => m
  | d :: rest =>
    redeclare (m.send (m.linksetOf link) (m.slcOf link) (.cbd d.1) (.behind d.2)) link rest

def timeout (m : Management) (timer : Timer) : Management :=
  match timer with
  | .changeover link =>
    if m.hasLink link then
      match (m.links link).phase with
      | .changeoverOrdered => m.completeChangeover link none (some .changeoverUnacknowledged)
      | .changeoverTimed => m.completeChangeover link none (some .changeoverTimeControlled)
      | _ => m
    else m
  | .changeback link =>
    if m.hasLink link then
      match (m.links link).phase with
      | .changebackDeclared false =>
        ((m.redeclare link (m.links link).declared).setLink link fun s =>
          { s with phase := .changebackDeclared true }).push
            (.start (.changeback link) m.timers.t5)
      | .changebackDeclared true => m.finishChangeback link .changebackUnacknowledged
      | .changebackTimed => m.finishChangeback link .changebackTimeControlled
      | _ => m
    else m
  | .rerouting dpc =>
    if dpc ∈ m.topology.dpcs ∧ (m.destinations dpc).holding then
      let marks := (m.destinations dpc).deferred
      ((m.setDestination dpc fun d => { d with holding := false, deferred := [] }).extend
        marks).push (.releaseDestination dpc)
    else m
  | .prohibited dpc => { m with guarded := m.guarded.erase dpc }
  | .routeSetTest dpc linkset =>
    if m.hasLinkset linkset then
      let status := (m.destination? dpc).bind fun dest =>
        (dest.routes.find? fun r => r.via = .linkset linkset).map RouteState.status
      let message := match status with
        | some .prohibited => about dpc .rst
        | some .restricted => about dpc .rsr
        | _ => none
      match message with
      | none => m
      | some message =>
        (if !m.restarting && m.canTell linkset then m.tell linkset 0 message else m).push
          (.start (.routeSetTest dpc linkset) m.timers.t10)
    else m
  | .uninhibit link => if m.hasLink link then m.repeatUninhibit link false else m
  | .forceUninhibit link => if m.hasLink link then m.repeatUninhibit link true else m
  | .inhibitTest link =>
    if m.hasLink link && (m.links link).remoteInhibited then
      (m.send (m.linksetOf link) (m.slcOf link) .lrt (m.linkOrRoute link)).push
        (.start (.inhibitTest link) m.timers.t23)
    else m
  | .restart | .restartOverall => m.endRestart
  | .restartAllowed linkset =>
    if m.hasLinkset linkset then m.setLinkset linkset fun s => { s with guarded := false } else m
  | .adjacentRestart linkset =>
    if m.hasLinkset linkset && (m.linksets linkset).restarting then
      m.endAdjacentRestart linkset .adjacentRestartExpired
    else m
  | .isolation => if m.isolated then { m with restartDue := true } else m

/-! ## Inputs -/

/-- What an input changes, before what follows from it is settled. -/
def dispatch (m : Management) : Input → Management
  | .linkUp link => if m.hasLink link then m.linkUp link else m
  | .linkDown link bsnt => if m.hasLink link then m.linkDown link bsnt else m
  | .received link opc slc message =>
    if m.hasLink link then m.received link opc slc message else m
  | .timeout timer => m.timeout timer
  | .unroutable dpc link => if m.hasLink link then m.unroutable dpc link else m
  | .server index up =>
    if index < m.topology.servers then
      { m with servers := fun i => if i = index then up else m.servers i }
    else m
  | .paused dpc paused =>
    if dpc ∈ m.topology.dpcs then m.setDestination dpc fun d => { d with paused := paused } else m

/-- The state after an input, with what was left in `out`. -/
def process (m : Management) (input : Input) : Management :=
  match input with
  -- Nothing became available or unavailable: there is nothing to settle.
  | .unroutable _ link =>
    if m.hasLink link then m.dispatch input else (m.dispatch input).settle.watchIsolation
  | _ => (m.dispatch input).settle.watchIsolation

/-- One event in, and what it leaves out. -/
def step (m : Management) (input : Input) : Management × List Entry :=
  ({ m.process input with out := [] }, (m.process input).out)

/-- One event in, the actions it calls for out. -/
def handle (m : Management) (input : Input) : Management × List Action :=
  ((m.step input).1, actions (m.step input).2)

end Management

end SiphonSigtran.Mtp3
