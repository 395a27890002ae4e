import Mathlib.Data.List.GetD
import Mathlib.Data.List.Nodup
import Mathlib.Logic.Function.Basic
import SiphonSigtran.Lib.Machine

/-!
# ASP and AS state maintenance

The state of every ASP in every Application Server it is configured in, and the
state of every Application Server. One event is taken at a time, and gives the
actions it calls for.
-/

namespace SiphonSigtran.Transport

open Lib

inductive TrafficMode
  | override
  | loadshare
  | broadcast
  deriving DecidableEq, Repr

inductive Adaptation
  | m3ua
  | m2pa
  | sua
  deriving DecidableEq, Repr

inductive Role
  | client
  | server
  deriving DecidableEq, Repr

/-- An association of the configuration. -/
structure Association where
  id : String
  adaptation : Adaptation
  role : Role

/-- An Application Server of the configuration: its ASPs are associations by their names, its
times are in milliseconds. -/
structure ApplicationServer where
  name : String
  trafficMode : TrafficMode
  routingContext : ℕ
  asps : List String
  recoveryMs : ℕ
  requiredAsps : ℕ

/-- One Application Server as the configuration has it. -/
structure ServerSpec where
  name : String
  routingContext : ℕ
  mode : TrafficMode
  asps : List ℕ
  required : ℕ
  recovery : Option ℕ

/-- One ASP as the configuration has it: an M3UA association. -/
structure AspSpec where
  name : String
  servers : List ℕ
  gateway : Bool

/-- The ASPs and Application Servers of a routing domain. -/
structure Layout where
  asps : List AspSpec
  servers : List ServerSpec

namespace Layout

/-- The ASP at a position. -/
def asp (l : Layout) (asp : ℕ) : AspSpec := l.asps.getD asp ⟨"", [], false⟩

/-- The Application Server at a position. -/
def server (l : Layout) (server : ℕ) : ServerSpec :=
  l.servers.getD server ⟨"", 0, .loadshare, [], 1, none⟩

/-- The next Application Server of the configuration, at this position. -/
def addServer (l : Layout) (entry : ApplicationServer × ℕ) : Layout :=
  let (server, index) := entry
  let members := server.asps.filterMap fun id => l.asps.findIdx? fun a => a.name = id
  let asps := members.foldl (fun asps asp =>
    asps.modify asp fun a => { a with servers := a.servers ++ [index] }) l.asps
  let gateway := members.any fun a => (asps.getD a ⟨"", [], false⟩).gateway
  ⟨asps, l.servers ++ [⟨server.name, server.routingContext, server.trafficMode, members,
    max server.requiredAsps 1,
    if gateway && decide (0 < server.recoveryMs) then some server.recoveryMs else none⟩]⟩

/-- The layout of one tenant of the configuration. -/
def build (servers : List ApplicationServer) (associations : List Association) : Layout :=
  let asps := (associations.filter fun a => a.adaptation = .m3ua).map fun a =>
    ⟨a.id, [], a.role = .server⟩
  servers.zipIdx.foldl addServer ⟨asps, []⟩

/-- An ASP is in the list of a server when the server is in the list of the ASP. -/
def Consistent (l : Layout) : Prop :=
  ∀ a s, s ∈ (l.asp a).servers ↔ a ∈ (l.server s).asps

theorem asp_of_le {l : Layout} {a : ℕ} (h : l.asps.length ≤ a) : l.asp a = ⟨"", [], false⟩ :=
  List.getD_eq_default _ _ h

theorem server_of_le {l : Layout} {s : ℕ} (h : l.servers.length ≤ s) :
    l.server s = ⟨"", 0, .loadshare, [], 1, none⟩ := List.getD_eq_default _ _ h

theorem consistent_iff {l : Layout} : l.Consistent ↔
    (∀ a < l.asps.length, ∀ s ∈ (l.asp a).servers, a ∈ (l.server s).asps) ∧
    ∀ s < l.servers.length, ∀ a ∈ (l.server s).asps, s ∈ (l.asp a).servers := by
  constructor
  · intro h
    exact ⟨fun a _ s => (h a s).mp, fun s _ a => (h a s).mpr⟩
  · rintro ⟨hasps, hservers⟩ a s
    constructor
    · intro hs
      rcases Nat.lt_or_ge a l.asps.length with ha | ha
      · exact hasps a ha s hs
      · simp [asp_of_le ha] at hs
    · intro ha
      rcases Nat.lt_or_ge s l.servers.length with hs | hs
      · exact hservers s hs a ha
      · simp [server_of_le hs] at ha

instance (l : Layout) : Decidable l.Consistent := decidable_of_iff' _ consistent_iff

/-- A server is added to the lists of its ASPs. -/
theorem asp_addServer (members : List ℕ) (index : ℕ) (asps : List AspSpec) (a s : ℕ)
    (ha : a < asps.length) : s ∈ ((members.foldl (fun asps asp =>
      asps.modify asp fun a => { a with servers := a.servers ++ [index] }) asps).getD a
        ⟨"", [], false⟩).servers ↔
      s ∈ (asps.getD a ⟨"", [], false⟩).servers ∨ (a ∈ members ∧ s = index) := by
  induction members generalizing asps with
  | nil => simp
  | cons b members ih =>
    rw [List.foldl_cons, ih _ (by simpa using ha)]
    simp only [List.getD_eq_getElem?_getD, List.getElem?_modify, List.getElem?_eq_getElem ha]
    by_cases hab : b = a
    · subst hab
      simp
      tauto
    · simp [hab, Ne.symm hab]

theorem length_addServer (members : List ℕ) (index : ℕ) (asps : List AspSpec) :
    (members.foldl (fun asps asp =>
      asps.modify asp fun a => { a with servers := a.servers ++ [index] }) asps).length =
      asps.length := by
  induction members generalizing asps with
  | nil => rfl
  | cons b members ih => rw [List.foldl_cons, ih, List.length_modify]

theorem consistent_addServer {l : Layout} (hl : l.Consistent) (server : ApplicationServer) :
    (l.addServer (server, l.servers.length)).Consistent := by
  set members := server.asps.filterMap fun id => l.asps.findIdx? fun a => a.name = id
    with hmembers
  have hlt : ∀ a ∈ members, a < l.asps.length := by
    intro a ha
    obtain ⟨id, -, hid⟩ := List.mem_filterMap.mp ha
    exact (List.findIdx?_eq_some_iff_getElem.mp hid).1
  have hasp : ∀ a s, s ∈ ((l.addServer (server, l.servers.length)).asp a).servers ↔
      s ∈ (l.asp a).servers ∨ (a ∈ members ∧ s = l.servers.length) := by
    intro a s
    rcases Nat.lt_or_ge a l.asps.length with ha | ha
    · exact asp_addServer members l.servers.length l.asps a s ha
    · have hmem : a ∉ members := fun h => absurd (hlt a h) (by omega)
      have hout : (l.addServer (server, l.servers.length)).asps.length ≤ a :=
        Nat.le_trans (Nat.le_of_eq (length_addServer members l.servers.length l.asps)) ha
      rw [asp_of_le ha, asp_of_le hout]
      simp [hmem]
  have hserver : ∀ s, ((l.addServer (server, l.servers.length)).server s).asps =
      if s = l.servers.length then members else (l.server s).asps := by
    intro s
    simp only [Layout.server, addServer, List.getD_eq_getElem?_getD, ← hmembers]
    rcases Nat.lt_trichotomy s l.servers.length with hlt | rfl | hgt
    · rw [List.getElem?_append_left hlt, if_neg (by omega)]
    · simp
    · have hne : s ≠ l.servers.length := by omega
      rw [List.getElem?_eq_none (by simp; omega), List.getElem?_eq_none (by omega), if_neg hne]
  intro a s
  rw [hasp, hserver, hl]
  by_cases hsl : s = l.servers.length
  · subst hsl
    simp [server_of_le (Nat.le_refl _)]
  · simp [hsl]

/-- Every server of the layout needs an active ASP. -/
def Demanding (l : Layout) : Prop := ∀ s < l.servers.length, 1 ≤ (l.server s).required

instance (l : Layout) : Decidable l.Demanding :=
  inferInstanceAs (Decidable (∀ s < l.servers.length, 1 ≤ (l.server s).required))

theorem demanding_addServer {l : Layout} (hl : l.Demanding) (entry : ApplicationServer × ℕ) :
    (l.addServer entry).Demanding := by
  intro s hs
  have hlength : s < l.servers.length + 1 := by simpa [addServer] using hs
  rcases Nat.lt_or_ge s l.servers.length with hlt | hge
  · have hsame : (l.addServer entry).server s = l.server s := by
      simp [Layout.server, addServer, List.getElem?_append_left hlt]
    rw [hsame]
    exact hl s hlt
  · obtain rfl : s = l.servers.length := by omega
    have hadded : ((l.addServer entry).server l.servers.length).required =
        max entry.1.requiredAsps 1 := by
      simp [Layout.server, addServer]
    rw [hadded]
    exact Nat.le_max_right _ _

/-- A layout of the configuration is consistent, and each of its servers needs an active ASP. -/
theorem build_consistent (servers : List ApplicationServer) (associations : List Association) :
    (build servers associations).Consistent ∧ (build servers associations).Demanding := by
  have hfold : ∀ (l : Layout), l.Consistent → l.Demanding →
      ((servers.zipIdx l.servers.length).foldl addServer l).Consistent ∧
      ((servers.zipIdx l.servers.length).foldl addServer l).Demanding := by
    induction servers with
    | nil => exact fun l hl hd => ⟨hl, hd⟩
    | cons server servers ih =>
      intro l hl hd
      rw [List.zipIdx_cons, List.foldl_cons]
      have hlength : l.servers.length + 1 =
          (l.addServer (server, l.servers.length)).servers.length := by simp [addServer]
      rw [hlength]
      exact ih _ (consistent_addServer hl server) (demanding_addServer hd _)
  refine hfold ⟨_, []⟩ (consistent_iff.mpr ⟨fun a _ => ?_, fun s hs => ?_⟩) fun s hs => ?_
  · rw [asp, List.getD_eq_getElem?_getD, List.getElem?_map]
    cases (associations.filter fun a => a.adaptation = .m3ua)[a]? <;> simp
  · exact absurd hs (Nat.not_lt_zero s)
  · exact absurd hs (Nat.not_lt_zero s)

end Layout

/-- The state of an ASP in one Application Server. -/
inductive AspState
  | down
  | inactive
  | active
  deriving DecidableEq, Repr

/-- The state of an Application Server. -/
inductive AsState
  | down
  | inactive
  | active
  | pending
  deriving DecidableEq, Repr

/-- What a Notify says. -/
inductive Status
  | asInactive
  | asActive
  | asPending
  | insufficientResources
  | alternateAspActive
  | aspFailure
  deriving DecidableEq, Repr

def Status.of : AsState → Option Status
  | .down => none
  | .inactive => some .asInactive
  | .active => some .asActive
  | .pending => some .asPending

inductive ErrorCode
  | unsupportedTrafficModeType
  | unexpectedMessage
  | invalidRoutingContext
  | noConfiguredAsForAsp
  deriving DecidableEq, Repr

/-- A message this layer has sent to an ASP. The server of a Notify is for the proofs only: the
message has its Routing Context. -/
inductive Message
  | upAck
  | downAck
  | activeAck (mode : Option ℕ) (contexts : List ℕ)
  | inactiveAck (contexts : List ℕ)
  | notify (server : ℕ) (status : Status) (aspIdentifier : Option ℕ) (context : ℕ)
  | error (code : ErrorCode) (contexts : List ℕ)
  deriving DecidableEq, Repr

/-- The timer of this layer: T(r) of an Application Server. -/
inductive Timer
  | recovery (server : ℕ)
  deriving DecidableEq, Repr

/-- What happened, as the caller reports it. -/
inductive Input
  | up (asp : ℕ) (identifier : Option ℕ)
  | down (asp : ℕ)
  | active (asp : ℕ) (mode : Option ℕ) (contexts : Option (List ℕ))
  | inactive (asp : ℕ) (contexts : Option (List ℕ))
  | lost (asp : ℕ)
  | peerUp (asp : ℕ)
  | peerActive (asp : ℕ) (contexts : Option (List ℕ))
  | peerInactive (asp : ℕ) (contexts : Option (List ℕ))
  | timeout (timer : Timer)
  deriving DecidableEq, Repr

/-- What the caller has to do. -/
inductive Action
  | send (asp : ℕ) (message : Message)
  | start (timer : Timer) (after : ℕ)
  | stop (timer : Timer)
  | asp (asp server : ℕ) (state : AspState)
  | server (server : ℕ) (state : AsState)
  | activated (asp server : ℕ)
  deriving DecidableEq, Repr

/-- An ASP. The code keeps the flags by the position of the server in the list of the ASP. -/
structure AspEntry where
  up : Bool
  identifier : Option ℕ
  active : ℕ → Bool

structure Aspm where
  asps : ℕ → AspEntry
  servers : ℕ → AsState
  out : List Action

/-- The Traffic Mode Type value of a mode. -/
def modeValue : TrafficMode → ℕ
  | .override => 1
  | .loadshare => 2
  | .broadcast => 3

namespace Aspm

/-- A domain in which every ASP is down. -/
def new : Aspm := ⟨fun _ => ⟨false, none, fun _ => false⟩, fun _ => .down, []⟩

def push (m : Aspm) (action : Action) : Aspm := { m with out := m.out ++ [action] }

def setUp (m : Aspm) (asp : ℕ) (up : Bool) : Aspm :=
  { m with asps := Function.update m.asps asp { (m.asps asp) with up := up } }

def setIdentifier (m : Aspm) (asp : ℕ) (identifier : Option ℕ) : Aspm :=
  { m with asps := Function.update m.asps asp { (m.asps asp) with identifier := identifier } }

def setActive (m : Aspm) (asp server : ℕ) (on : Bool) : Aspm :=
  let active := Function.update (m.asps asp).active server on
  { m with asps := Function.update m.asps asp { (m.asps asp) with active := active } }

def setServer (m : Aspm) (server : ℕ) (state : AsState) : Aspm :=
  { m with servers := Function.update m.servers server state }

section

variable (l : Layout)

/-! ## Reading the layout -/

/-- The state of an ASP in an Application Server it is configured in. -/
def aspState (m : Aspm) (asp server : ℕ) : AspState :=
  if (m.asps asp).up = false then .down
  else if server ∈ (l.asp asp).servers ∧ (m.asps asp).active server = true then .active
  else .inactive

def isActive (m : Aspm) (asp server : ℕ) : Bool := m.aspState l asp server = .active

def anywhereActive (m : Aspm) (asp : ℕ) : Bool :=
  (m.asps asp).up && (l.asp asp).servers.any (m.asps asp).active

/-- The ASPs of a server that are active, and those that are inactive. -/
def counts (m : Aspm) (server : ℕ) : ℕ × ℕ :=
  let active := (l.server server).asps.countP fun a => m.isActive l a server
  let up := (l.server server).asps.countP fun a => (m.asps a).up
  (active, up - active)

/-- The servers a request with these Routing Contexts, or without, is about, among those the
ASP is configured in. -/
def concerned (asp : ℕ) : Option (List ℕ) → List ℕ
  | none => (l.asp asp).servers
  | some wanted => (l.asp asp).servers.filter fun s => (l.server s).routingContext ∈ wanted

/-- The Routing Contexts of a request that the ASP is not configured in. -/
def unconfigured (asp : ℕ) (contexts : Option (List ℕ)) : List ℕ :=
  (contexts.getD []).filter fun rc =>
    !(l.asp asp).servers.any fun s => (l.server s).routingContext = rc

/-! ## Sending -/

/-- Send to an ASP this node is the signalling gateway of. -/
def send (m : Aspm) (asp : ℕ) (message : Message) : Aspm :=
  if (l.asp asp).gateway then m.push (.send asp message) else m

/-- Tell the ASPs of a server that are not down, as far as `whom` goes. -/
def notify (m : Aspm) (server : ℕ) (status : Status) (about : Option ℕ) (whom : ℕ → Bool) : Aspm :=
  let identifier := about.bind fun asp => (m.asps asp).identifier
  (l.server server).asps.foldl (fun m asp =>
    if (m.asps asp).up && whom asp then
      m.send l asp (.notify server status identifier (l.server server).routingContext)
    else m) m

/-! ## State of a server -/

/-- The state its ASPs put a server in. -/
def target (m : Aspm) (server : ℕ) : AsState :=
  let (active, inactive) := m.counts l server
  match m.servers server with
  | .down | .inactive =>
    if (l.server server).required ≤ active then .active
    else if 0 < active + inactive then .inactive
    else .down
  | .active =>
    if 0 < active then .active
    else if (l.server server).recovery.isSome then .pending
    else if 0 < inactive then .inactive
    else .down
  | .pending => if 0 < active then .active else .pending

/-- Stop and start T(r) as a server leaves and enters the pending state. -/
def timers (m : Aspm) (server : ℕ) (old new : AsState) : Aspm :=
  let m := if old = .pending then m.push (.stop (.recovery server)) else m
  match new, (l.server server).recovery with
  | .pending, some after => m.push (.start (.recovery server) after)
  | _, _ => m

/-- Tell the ASPs of a server the state it is in. -/
def announce (m : Aspm) (server : ℕ) (whom : ℕ → Bool) : Aspm :=
  match Status.of (m.servers server) with
  | some status => m.notify l server status none whom
  | none => m

/-- Move a server to the state its ASPs put it in, and tell its ASPs if that is another one. -/
def evaluate (m : Aspm) (server : ℕ) : Bool × Aspm :=
  let old := m.servers server
  let new := m.target l server
  if new = old then (false, m)
  else
    let m := (m.setServer server new).timers l server old new
    (true, (m.push (.server server new)).announce l server fun _ => true)

/-- Tell the inactive ASPs of a server that has fewer active ones than it needs. -/
def resources (m : Aspm) (server : ℕ) : Aspm :=
  if (l.server server).mode ≠ .override ∧ m.servers server = .active ∧
      (m.counts l server).1 < (l.server server).required then
    m.notify l server .insufficientResources none fun asp => !m.isActive l asp server
  else m

def recoveryExpired (m : Aspm) (server : ℕ) : Aspm :=
  if m.servers server ≠ .pending then m
  else
    let new : AsState := if 0 < (m.counts l server).2 then .inactive else .down
    ((m.setServer server new).push (.server server new)).announce l server fun _ => true

/-! ## State of an ASP -/

/-- What an ASP that came up is told of one server. -/
def bringUpIn (asp : ℕ) (m : Aspm) (server : ℕ) : Aspm :=
  let (changed, m) := (m.push (.asp asp server .inactive)).evaluate l server
  if changed then m else m.announce l server fun other => other = asp

def bringUp (m : Aspm) (asp : ℕ) (identifier : Option ℕ) : Aspm :=
  (l.asp asp).servers.foldl (bringUpIn l asp) ((m.setUp asp true).setIdentifier asp identifier)

/-- What follows in one server from an ASP that went down. -/
def takeDownIn (asp : ℕ) (failed : Bool) (m : Aspm) (server : ℕ) : Aspm :=
  let m := m.push (.asp asp server .down)
  let m := if failed then m.notify l server .aspFailure (some asp) fun _ => true else m
  (m.evaluate l server).2.resources l server

/-- Take an ASP down in every server. -/
def takeDown (m : Aspm) (asp : ℕ) (failed : Bool) : Aspm :=
  if (m.asps asp).up = false then m
  else
    let m := (l.asp asp).servers.foldl (fun m server => m.setActive asp server false) m
    let m := m.setUp asp false
    ((l.asp asp).servers.foldl (takeDownIn l asp failed) m).setIdentifier asp none

/-- Make an ASP inactive because another one took over. -/
def displace (asp server : ℕ) (m : Aspm) (other : ℕ) : Aspm :=
  ((m.setActive other server false).push (.asp other server .inactive)).notify l server
    .alternateAspActive (some asp) fun whom => whom = other

def activate (m : Aspm) (asp server : ℕ) : Aspm :=
  if server ∉ (l.asp asp).servers then m
  else if (m.asps asp).active server = true then m
  else
    let displaced := if (l.server server).mode = .override then
      (l.server server).asps.filter fun other => other ≠ asp && m.isActive l other server else []
    let m := (m.setActive asp server true).push (.asp asp server .active)
    let m := displaced.foldl (displace l asp server) m
    (m.evaluate l server).2.push (.activated asp server)

def deactivate (m : Aspm) (asp server : ℕ) : Aspm :=
  if server ∉ (l.asp asp).servers then m
  else if (m.asps asp).up = false ∨ (m.asps asp).active server = false then m
  else
    let m := (m.setActive asp server false).push (.asp asp server .inactive)
    (m.evaluate l server).2.resources l server

/-! ## Requests of an ASP -/

/-- ASP Up. -/
def up (m : Aspm) (asp : ℕ) (identifier : Option ℕ) : Aspm :=
  let m := m.send l asp .upAck
  if (m.asps asp).up = false then m.bringUp l asp identifier
  else
    let m := if m.anywhereActive l asp then
      (l.asp asp).servers.foldl (fun m server => m.deactivate l asp server)
        (m.send l asp (.error .unexpectedMessage []))
      else m
    if identifier.isSome then m.setIdentifier asp identifier else m

/-- ASP Down. -/
def down (m : Aspm) (asp : ℕ) : Aspm := (m.send l asp .downAck).takeDown l asp false

/-- The association was lost. -/
def lost (m : Aspm) (asp : ℕ) : Aspm := m.takeDown l asp true

/-- Answer what a request with these Routing Contexts cannot be about, and give the servers it
can be about. -/
def admitted (m : Aspm) (asp : ℕ) (contexts : Option (List ℕ)) : List ℕ × Aspm :=
  if (m.asps asp).up = false then
    ([], m.send l asp (.error .unexpectedMessage (contexts.getD [])))
  else
    let unconfigured := unconfigured l asp contexts
    let m := if unconfigured ≠ [] then
      m.send l asp (.error .invalidRoutingContext unconfigured) else m
    let servers := concerned l asp contexts
    let m := if servers = [] ∧ contexts = none then
      m.send l asp (.error .noConfiguredAsForAsp []) else m
    (servers, m)

/-- The Routing Contexts of an acknowledgement. -/
def reflected (contexts : Option (List ℕ)) (servers : List ℕ) : List ℕ :=
  if contexts.isSome then servers.map fun s => (l.server s).routingContext else []

/-- ASP Active. -/
def active (m : Aspm) (asp : ℕ) (mode : Option ℕ) (contexts : Option (List ℕ)) : Aspm :=
  let (servers, m) := m.admitted l asp contexts
  let suits := fun s => mode = none || mode = some (modeValue (l.server s).mode)
  let accepted := servers.filter fun s => suits s
  let refused := servers.filter fun s => !suits s
  let m := if refused ≠ [] then
    m.send l asp (.error .unsupportedTrafficModeType
      (refused.map fun s => (l.server s).routingContext)) else m
  if accepted = [] then m
  else
    accepted.foldl (fun m server => m.activate l asp server)
      (m.send l asp (.activeAck mode (reflected l contexts accepted)))

/-- ASP Inactive. -/
def inactive (m : Aspm) (asp : ℕ) (contexts : Option (List ℕ)) : Aspm :=
  let (servers, m) := m.admitted l asp contexts
  if servers = [] then m
  else
    servers.foldl (fun m server => m.deactivate l asp server)
      (m.send l asp (.inactiveAck (reflected l contexts servers)))

/-- What one event does. -/
def react (m : Aspm) : Input → Aspm
  | .up asp identifier => if asp < l.asps.length then m.up l asp identifier else m
  | .down asp => if asp < l.asps.length then m.down l asp else m
  | .active asp mode contexts =>
    if asp < l.asps.length then m.active l asp mode contexts else m
  | .inactive asp contexts => if asp < l.asps.length then m.inactive l asp contexts else m
  | .lost asp => if asp < l.asps.length then m.lost l asp else m
  | .peerUp asp =>
    if asp < l.asps.length ∧ (m.asps asp).up = false then m.bringUp l asp none else m
  | .peerActive asp contexts =>
    if asp < l.asps.length ∧ (m.asps asp).up = true then
      (concerned l asp contexts).foldl (fun m server => m.activate l asp server) m
    else m
  | .peerInactive asp contexts =>
    if asp < l.asps.length then
      (concerned l asp contexts).foldl (fun m server => m.deactivate l asp server) m
    else m
  | .timeout (.recovery server) =>
    if server < l.servers.length then m.recoveryExpired l server else m

/-- One event in, the actions it calls for out. -/
def handle (m : Aspm) (input : Input) : Aspm × List Action :=
  ({ m.react l input with out := [] }, (m.react l input).out)

end

end Aspm

end SiphonSigtran.Transport
