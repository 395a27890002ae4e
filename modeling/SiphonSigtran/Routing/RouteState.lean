import Mathlib.Data.Finset.Insert
import Mathlib.Data.Finset.Erase
import SiphonSigtran.Mtp3.Route

/-!
# The availability of routes

What the per-message resolver knows of servers, linksets and destinations. It is
fed by network management events and by what comes into and goes out of service.
-/

namespace SiphonSigtran.Routing

open Mtp3

/-- Where a message goes out: to the servers of an Application Server, or on a linkset. -/
inductive Destination
  | applicationServer (name : String)
  | linkset (name : String)
  deriving DecidableEq, Repr

def Destination.name : Destination → String
  | .applicationServer name | .linkset name => name

/-- A network management event for the users of MTP3. -/
inductive Mtp3Event
  | pause (affected : ℕ)
  | resume (affected : ℕ)
  | congested (affected level : ℕ)
  | userPartUnavailable (affected si cause : ℕ)
  | transfer
  deriving DecidableEq, Repr

structure RouteState where
  asUp : Finset String
  linksetsUp : Finset String
  prohibited : Finset ℕ
  congestion : ℕ → ℕ
  marks : RouteMarks Destination

namespace RouteState

def new : RouteState := ⟨∅, ∅, ∅, fun _ => 0, fun _ => []⟩

def isAvailable (state : RouteState) : Destination → Bool
  | .applicationServer name => name ∈ state.asUp
  | .linkset name => name ∈ state.linksetsUp

def isProhibited (state : RouteState) (dpc : ℕ) : Bool := dpc ∈ state.prohibited

/-- Fold a network management event into the state. -/
def applyEvent (state : RouteState) : Mtp3Event → RouteState
  | .pause affected => { state with prohibited := insert affected state.prohibited }
  | .resume affected =>
    { state with
      prohibited := state.prohibited.erase affected
      congestion := fun d => if d = affected then 0 else state.congestion d }
  | .congested affected level =>
    { state with congestion := fun d => if d = affected then level else state.congestion d }
  | .userPartUnavailable _ _ _ => state
  | .transfer => state

@[simp] theorem isProhibited_pause (state : RouteState) (dpc d : ℕ) :
    (state.applyEvent (.pause dpc)).isProhibited d = (d = dpc || state.isProhibited d) := by
  simp [isProhibited, applyEvent]

@[simp] theorem isProhibited_resume (state : RouteState) (dpc d : ℕ) :
    (state.applyEvent (.resume dpc)).isProhibited d = (d ≠ dpc && state.isProhibited d) := by
  simp [isProhibited, applyEvent]

end RouteState

end SiphonSigtran.Routing
