import SiphonSigtran.Lib.Refresh
import SiphonSigtran.Transport.Reflection

/-!
# The availability of servers and linksets

The tasks of associations, links and servers set flags, and have the availability recomputed after
that. A recompute reads the flags one by one and writes the route state; recomputes exclude each
other, and the flags change meanwhile.
-/

namespace SiphonSigtran.Transport

open Lib Routing

namespace Availability

/-- What the tasks set: whether the adaptation of an association is active and whether it has a
sender, whether routing leads to a link, and the state of a server. -/
inductive Cell
  | active (assoc : String)
  | sender (assoc : String)
  | routable (link : String)
  | state (server : String)
  deriving DecidableEq, Repr

inductive Value
  | flag (on : Bool)
  | state (state : AsState)
  deriving DecidableEq, Repr

/-- What is set before any task runs. -/
def unset : Cell → Value
  | .active _ | .sender _ | .routable _ => .flag false
  | .state _ => .state .down

variable (n : Network)

/-- What a recompute reads for a destination. -/
def reads : Destination → List Cell
  | .applicationServer name =>
    if n.managed name then [.state name]
    else ((n.server name).map ApplicationServer.asps).getD [] |>.flatMap fun asp =>
      [.active asp, .sender asp]
  | .linkset name => (((n.linkset name).map Linkset.links).getD []).map .routable

/-- An association among those read is active and has a sender. -/
def carries : List Value → Bool
  | active :: sender :: rest => (active = .flag true && sender = .flag true) || carries rest
  | _ => false

/-- Whether a destination is up, by what was read. -/
def up : Destination → List Value → Bool
  | .applicationServer name, read =>
    if n.managed name then read = [.state .active] ∨ read = [.state .pending] else carries read
  | .linkset _, read => read.any fun value => value = .flag true

def recipe : Refresh.Recipe Cell Value Destination Bool where
  entries := n.servers.map (fun a => .applicationServer a.name) ++
    n.linksets.map fun l => .linkset l.name
  reads := reads n
  value := up n

def start : Refresh.Shared Cell Value Destination Bool where
  cells := unset
  table := fun _ => false
  owed := 0
  pass := none

/-- Record in the route state that a destination is up or down. -/
def note (state : RouteState) (entry : Destination × Bool) : RouteState :=
  match entry with
  | (.applicationServer name, true) => { state with asUp := insert name state.asUp }
  | (.applicationServer name, false) => { state with asUp := state.asUp.erase name }
  | (.linkset name, true) => { state with linksetsUp := insert name state.linksetsUp }
  | (.linkset name, false) => { state with linksetsUp := state.linksetsUp.erase name }

/-- The route state after what recomputes have told. -/
def routeState (told : List (Destination × Bool)) : RouteState := told.foldl note .new

/-! ## What is read -/

variable {n}

theorem isAvailable_note (state : RouteState) (d : Destination) (on : Bool) :
    (note state (d, on)).isAvailable = Function.update state.isAvailable d on := by
  funext d'
  by_cases hd : d' = d
  · subst hd
    rw [Function.update_self]
    cases d' <;> cases on <;> simp [note, RouteState.isAvailable]
  · rw [Function.update_of_ne hd]
    cases d with
    | applicationServer name =>
      cases d' with
      | applicationServer name' =>
        have hname : name' ≠ name := fun h => hd (congrArg Destination.applicationServer h)
        cases on <;> simp [note, RouteState.isAvailable, hname]
      | linkset name' => cases on <;> rfl
    | linkset name =>
      cases d' with
      | applicationServer name' => cases on <;> rfl
      | linkset name' =>
        have hname : name' ≠ name := fun h => hd (congrArg Destination.linkset h)
        cases on <;> simp [note, RouteState.isAvailable, hname]

theorem isAvailable_routeState (told : List (Destination × Bool)) :
    (routeState told).isAvailable = Refresh.lastTold (fun _ => false) told := by
  have hfrom : ∀ state : RouteState, (told.foldl note state).isAvailable =
      Refresh.lastTold state.isAvailable told := by
    induction told with
    | nil => exact fun _ => rfl
    | cons entry told ih =>
      intro state
      rw [List.foldl_cons, ih, isAvailable_note]
      rfl
  have hnew : RouteState.new.isAvailable = fun _ => false := by
    funext d
    cases d <;> rfl
  rw [routeState, hfrom, hnew]

theorem carries_flatMap_iff (cells : Cell → Value) (asps : List String) :
    carries ((asps.flatMap fun asp => [Cell.active asp, Cell.sender asp]).map cells) = true ↔
      ∃ asp ∈ asps, cells (.active asp) = .flag true ∧ cells (.sender asp) = .flag true := by
  induction asps with
  | nil => simp [carries]
  | cons asp asps ih => simp [carries, ih]

/-- A server is up while it is active or pending, if M3UA ASPs serve it, and otherwise while one of
its associations carries traffic. -/
theorem now_server_iff {s : Refresh.Shared Cell Value Destination Bool} {a : ApplicationServer}
    (ha : n.server a.name = some a) :
    Refresh.now (recipe n) s (.applicationServer a.name) = true ↔
      if n.managed a.name then
        s.cells (.state a.name) = .state .active ∨ s.cells (.state a.name) = .state .pending
      else ∃ asp ∈ a.asps,
        s.cells (.active asp) = .flag true ∧ s.cells (.sender asp) = .flag true := by
  unfold Refresh.now recipe reads up
  dsimp only
  by_cases hmanaged : n.managed a.name = true
  · simp [hmanaged]
  · simp only [hmanaged, Bool.false_eq_true, ↓reduceIte, ha, Option.map_some, Option.getD_some]
    exact carries_flatMap_iff s.cells a.asps

/-- A linkset is up while routing leads to one of its links. -/
theorem now_linkset_iff {s : Refresh.Shared Cell Value Destination Bool} {l : Linkset}
    (hl : n.linkset l.name = some l) :
    Refresh.now (recipe n) s (.linkset l.name) = true ↔
      ∃ link ∈ l.links, s.cells (.routable link) = .flag true := by
  simp [Refresh.now, recipe, reads, up, hl]

theorem now_start (d : Destination) : Refresh.now (recipe n) start d = false := by
  cases d with
  | applicationServer name =>
    unfold Refresh.now recipe reads up
    dsimp only
    split_ifs
    · rfl
    · apply Bool.eq_false_iff.mpr
      intro hcarries
      obtain ⟨asp, -, hactive, -⟩ := (carries_flatMap_iff _ _).mp hcarries
      cases hactive
  | linkset name => simp [Refresh.now, recipe, reads, up, start, unset]

end Availability

end SiphonSigtran.Transport
