import Mathlib.Data.List.Nodup
import SiphonSigtran.Mtp3.Route

/-!
# What management of a routing domain works on

The domain as the configuration has it, the timers, the management messages, and
what goes into signalling network management and comes out of it. Names that
only the caller reads (of links, linksets and servers) are left out, and a server
is its position.
-/

namespace SiphonSigtran.Mtp3

abbrev LinkId := ℕ
abbrev LinksetId := ℕ

/-- The timers of Q.704 16.8 that this layer runs, as durations. -/
structure Timers where
  t1 : ℕ
  t2 : ℕ
  t3 : ℕ
  t4 : ℕ
  t5 : ℕ
  t6 : ℕ
  t8 : ℕ
  t10 : ℕ
  t12 : ℕ
  t13 : ℕ
  t18 : ℕ
  t19 : ℕ
  t20 : ℕ
  t21 : ℕ
  t23 : ℕ
  deriving DecidableEq, Repr

/-- What a route goes through. -/
inductive Via
  | linkset (id : LinksetId)
  | server (index : ℕ)
  deriving DecidableEq, Repr

structure LinksetSpec where
  adjacent : Option ℕ
  links : List LinkId
  deriving DecidableEq, Repr

structure LinkSpec where
  linkset : LinksetId
  slc : ℕ
  deriving DecidableEq, Repr

structure RouteSpec where
  via : Via
  priority : ℕ
  deriving DecidableEq, Repr

/-- The routing domain. A destination is a 14-bit point code and has its routes in priority
order. The links of a linkset are those that name it, and its link codes are distinct. -/
structure Topology where
  ownPc : ℕ
  linksets : List LinksetSpec
  links : List LinkSpec
  servers : ℕ
  routes : List (ℕ × List RouteSpec)
  member : ∀ l < links.length, (links.getD l ⟨0, 0⟩).linkset < linksets.length ∧
    l ∈ (linksets.getD (links.getD l ⟨0, 0⟩).linkset ⟨none, []⟩).links
  owner : ∀ L < linksets.length, ∀ l ∈ (linksets.getD L ⟨none, []⟩).links,
    l < links.length ∧ (links.getD l ⟨0, 0⟩).linkset = L
  nodup : ∀ L < linksets.length, (linksets.getD L ⟨none, []⟩).links.Nodup
  codes : ∀ L < linksets.length,
    ((linksets.getD L ⟨none, []⟩).links.map fun l => (links.getD l ⟨0, 0⟩).slc).Nodup
  destinations : (routes.map Prod.fst).Nodup
  itu : ∀ dpc ∈ routes.map Prod.fst, dpc < 0x4000

namespace Topology

def linkset (t : Topology) (linkset : LinksetId) : LinksetSpec :=
  t.linksets.getD linkset ⟨none, []⟩

def link (t : Topology) (link : LinkId) : LinkSpec := t.links.getD link ⟨0, 0⟩

/-- The configured destinations. -/
def dpcs (t : Topology) : List ℕ := t.routes.map Prod.fst

def routesOf (t : Topology) (dpc : ℕ) : List RouteSpec := (t.routes.lookup dpc).getD []

theorem linkset_of_length_le {t : Topology} {L : LinksetId} (h : t.linksets.length ≤ L) :
    t.linkset L = ⟨none, []⟩ := by
  simp [linkset, List.getElem?_eq_none h]

theorem lt_of_mem {t : Topology} {L : LinksetId} {l : LinkId} (h : l ∈ (t.linkset L).links) :
    L < t.linksets.length := by
  by_contra hL
  rw [linkset_of_length_le (Nat.le_of_not_lt hL)] at h
  cases h

theorem mem_links {t : Topology} {L : LinksetId} {l : LinkId} :
    l ∈ (t.linkset L).links ↔ l < t.links.length ∧ (t.link l).linkset = L := by
  constructor
  · intro h
    exact t.owner L (lt_of_mem h) l h
  · rintro ⟨hl, rfl⟩
    exact (t.member l hl).2

theorem nodup_links (t : Topology) (L : LinksetId) : (t.linkset L).links.Nodup := by
  by_cases hL : L < t.linksets.length
  · exact t.nodup L hL
  · rw [linkset_of_length_le (Nat.le_of_not_lt hL)]
    exact List.nodup_nil

end Topology

inductive Timer
  | changeover (link : LinkId)
  | changeback (link : LinkId)
  | rerouting (dpc : ℕ)
  | prohibited (dpc : ℕ)
  | routeSetTest (dpc : ℕ) (linkset : LinksetId)
  | uninhibit (link : LinkId)
  | forceUninhibit (link : LinkId)
  | restart
  | restartAllowed (linkset : LinksetId)
  | restartOverall
  | adjacentRestart (linkset : LinksetId)
  | inhibitTest (link : LinkId)
  | isolation
  deriving DecidableEq, Repr

/-- The management messages of Table 1/Q.704, with the fields this layer reads. -/
inductive ManagementMessage
  | xco (fsn : ℕ) | coo | eco | xca (fsn : ℕ) | coa | eca
  | cbd (code : ℕ) | cba (code : ℕ)
  | lin | lun | lia | lua | lid | lfu | llt | lrt
  | tfp (destination : ℕ) | tfr (destination : ℕ) | tfa (destination : ℕ)
  | rst (destination : ℕ) | rsr (destination : ℕ)
  | tra | tfc (destination status : ℕ) | upu | rct
  | dlc | css | cns | cnp
  deriving DecidableEq, Repr

/-- The abbreviation of a message in Table 1/Q.704. -/
def ManagementMessage.name : ManagementMessage → String
  | .xco _ => "XCO" | .coo => "COO" | .eco => "ECO" | .xca _ => "XCA" | .coa => "COA"
  | .eca => "ECA" | .cbd _ => "CBD" | .cba _ => "CBA" | .lin => "LIN" | .lun => "LUN"
  | .lia => "LIA" | .lua => "LUA" | .lid => "LID" | .lfu => "LFU" | .llt => "LLT"
  | .lrt => "LRT" | .tfp _ => "TFP" | .tfr _ => "TFR" | .tfa _ => "TFA" | .rst _ => "RST"
  | .rsr _ => "RSR" | .tra => "TRA" | .tfc _ _ => "TFC" | .upu => "UPU" | .rct => "RCT"
  | .dlc => "DLC" | .css => "CSS" | .cns => "CNS" | .cnp => "CNP"

/-- What happened, as the caller reports it. -/
inductive Input
  | linkUp (link : LinkId)
  | linkDown (link : LinkId) (bsnt : ℕ)
  | received (link : LinkId) (opc slc : ℕ) (message : ManagementMessage)
  | timeout (timer : Timer)
  | unroutable (dpc : ℕ) (link : LinkId)
  | server (index : ℕ) (up : Bool)
  | paused (dpc : ℕ) (paused : Bool)
  deriving DecidableEq, Repr

/-- The way a management message is to leave. -/
inductive Path
  | link (link : LinkId)
  | behind (link : LinkId)
  | adjacent (linkset : LinksetId) (avoid : Option LinkId)
  deriving DecidableEq, Repr

/-- A procedure that ran. -/
inductive Procedure
  | changeoverAcknowledged | changeoverEmergency | changeoverUnacknowledged
  | changeoverTimeControlled | changebackAcknowledged | changebackUnacknowledged
  | changebackTimeControlled | forcedRerouting | controlledRerouting | restartBegun
  | restartEnded | adjacentRestartBegun | adjacentRestartEnded | adjacentRestartExpired
  | linkInhibited | linkInhibitDenied | linkUninhibited | uninhibitAbandoned
  deriving DecidableEq, Repr

inductive Subject
  | node
  | link (link : LinkId)
  | linkset (linkset : LinksetId)
  | destination (dpc : ℕ)
  deriving DecidableEq, Repr

/-- What the caller has to do. -/
inductive Action
  | send (dpc slc : ℕ) (message : ManagementMessage) (path : Path)
  | start (timer : Timer) (after : ℕ)
  | stop (timer : Timer)
  | hold (link : LinkId)
  | divert (link : LinkId) (fsnc : Option ℕ)
  | open (link : LinkId)
  | fail (link : LinkId)
  | route (dpc : ℕ) (linkset : LinksetId) (status : RouteStatus)
  | holdDestination (dpc : ℕ)
  | releaseDestination (dpc : ℕ)
  | accessibility (dpc : ℕ) (accessible : Bool)
  | restricted (dpc : ℕ) (restricted : Bool)
  | restarting (on : Bool)
  | congestion (dpc status : ℕ)
  | note (procedure : Procedure) (subject : Subject)
  | ignored (name why : String)
  deriving DecidableEq, Repr

/-- What management leaves for its caller, in order. The mark says, for the proofs only,
that a linkset was resynchronised here; the caller never sees it. -/
inductive Entry
  | act (action : Action)
  | resynced (linkset : LinksetId)
  deriving DecidableEq, Repr

/-- The actions of what was left. -/
def actions (out : List Entry) : List Action :=
  out.filterMap fun
    | .act action => some action
    | .resynced _ => none

/-- A message about a destination. `none` for a value that is not a 14-bit point code. -/
def about (dpc : ℕ) (make : ℕ → ManagementMessage) : Option ManagementMessage :=
  if dpc < 0x4000 then some (make dpc) else none

@[simp] theorem actions_nil : actions [] = [] := rfl

@[simp] theorem actions_append (xs ys : List Entry) :
    actions (xs ++ ys) = actions xs ++ actions ys := List.filterMap_append

@[simp] theorem actions_act (a : Action) (xs : List Entry) :
    actions (.act a :: xs) = a :: actions xs := rfl

@[simp] theorem actions_resynced (l : LinksetId) (xs : List Entry) :
    actions (.resynced l :: xs) = actions xs := rfl

end SiphonSigtran.Mtp3
