import SiphonSigtran.M2pa.LinkLedger

/-!
# The traffic of one link

What level 3 has one link do with the traffic handed to it: carry it, buffer it while a changeover
or a changeback runs, or pass it on to the alternative links. What a failed link held at level 2 is
kept here until the changeover says what the far end has.
-/

namespace SiphonSigtran.M2pa

/-- The service indicator of a signalling link test message (Q.707 5.4). -/
def siLinkTest : ℕ := 1

def isLinkTest (msu : Msu) : Bool := serviceIndicator msu = some siLinkTest

/-- What the link does with traffic. -/
inductive TrafficState
  | closed | hold | open
  deriving DecidableEq, Repr

/-- What to do with one message handed to the link. -/
inductive Offer
  | send (msu : Msu)
  | held
  | divert (msu : Msu)
  | full
  deriving DecidableEq, Repr

/-- The outcome of the diversion that ends a changeover: of `messages`, the first `resent`
were sent once already on the failed link. -/
structure Diverted where
  messages : List Msu
  resent : ℕ
  confirmed : ℕ
  unconfirmed : ℕ
  linkTests : ℕ
  deriving DecidableEq, Repr

structure LinkTraffic where
  state : TrafficState
  held : List Msu
  kept : Option Retrievable
  capacity : ℕ
  bounded : held.length ≤ capacity
  deriving DecidableEq

/-- How many messages a failure takes with it when no changeover retrieves them. -/
def Retrievable.lost (r : Retrievable) : ℕ :=
  let all := r.retrieve none
  (all.unconfirmed ++ all.resend).countP fun msu => !isLinkTest msu

namespace LinkTraffic

/-- A link that carries nothing yet. -/
def new (capacity : ℕ) : LinkTraffic where
  state := .closed
  held := []
  kept := none
  capacity := max capacity 1
  bounded := Nat.zero_le _

/-- A message for the link. `inService` says whether level 2 can send now. -/
def offer (t : LinkTraffic) (msu : Msu) (inService : Bool) : LinkTraffic × Offer :=
  match t.state, inService with
  | .open, true => (t, .send msu)
  | .closed, _ => (t, .divert msu)
  | .open, false | .hold, _ =>
    if h : t.held.length ≥ t.capacity then (t, .full)
    else ({ t with
      held := t.held ++ [msu]
      bounded := by simpa using Nat.succ_le_of_lt (Nat.lt_of_not_le h) }, .held)

/-- Buffer from now on. -/
def hold (t : LinkTraffic) : LinkTraffic := { t with state := .hold }

/-- Level 2 failed, with `left` what it held. The answer is how many messages are lost. -/
def failed (t : LinkTraffic) (left : Option Retrievable) : LinkTraffic × ℕ :=
  let carried := t.state ≠ .closed
  let t := if t.state = .open then { t with state := .hold } else t
  match left with
  | none => (t, 0)
  | some left =>
    if carried ∧ t.kept = none then ({ t with kept := some left }, 0) else (t, left.lost)

/-- The changeover is complete: everything the link holds goes to the alternatives. -/
def divert (t : LinkTraffic) (fsnc : Option ℕ) : LinkTraffic × Diverted :=
  let out : Diverted := match t.kept with
    | some kept =>
      let retrieval := kept.retrieve fsnc
      let messages := retrieval.resend.filter fun msu => !isLinkTest msu
      { messages := messages
        resent := messages.length
        confirmed := retrieval.confirmed
        unconfirmed := retrieval.unconfirmed.countP fun msu => !isLinkTest msu
        linkTests := retrieval.unconfirmed.countP isLinkTest +
          retrieval.resend.countP isLinkTest }
    | none => ⟨[], 0, 0, 0, 0⟩
  ({ t with state := .closed, held := [], kept := none, bounded := Nat.zero_le _ },
    { out with messages := out.messages ++ t.held })

/-- The link carries traffic (again): the buffer goes out on the link itself. -/
def «open» (t : LinkTraffic) : LinkTraffic × List Msu × ℕ :=
  ({ t with state := .open, held := [], kept := none, bounded := Nat.zero_le _ },
    t.held, (t.kept.map Retrievable.lost).getD 0)

end LinkTraffic

/-! ## What became of what a failed link held -/

/-- The signalling link test messages among what a failed link holds. -/
def Retrievable.linkTests (r : Retrievable) : ℕ :=
  (r.unacked.map Prod.snd ++ r.unsent).countP isLinkTest

theorem countP_add_not (xs : List Msu) :
    (xs.countP fun msu => !isLinkTest msu) + xs.countP isLinkTest = xs.length := by
  rw [List.length_eq_countP_add_countP isLinkTest (l := xs), Nat.add_comm]
  simp

theorem Retrievable.lost_add_linkTests (r : Retrievable) : r.lost + r.linkTests = r.len := by
  have hlost : r.lost =
      (r.unacked.map Prod.snd ++ r.unsent).countP fun msu => !isLinkTest msu := rfl
  rw [hlost, Retrievable.linkTests, countP_add_not]
  simp [Retrievable.len]

/-- Resent, confirmed, unconfirmed and link tests are the whole of what a failed link held. -/
theorem LinkTraffic.divert_accounts {t : LinkTraffic} {r : Retrievable} (hr : t.kept = some r)
    (fsnc : Option ℕ) : (t.divert fsnc).2.resent + (t.divert fsnc).2.confirmed +
      (t.divert fsnc).2.unconfirmed + (t.divert fsnc).2.linkTests = r.len := by
  have hresend := countP_add_not (r.retrieve fsnc).resend
  have hunconfirmed := countP_add_not (r.retrieve fsnc).unconfirmed
  have hall := r.retrieve_length fsnc
  simp only [divert, hr, ← List.countP_eq_length_filter]
  omega

/-- No link test goes to an alternative. -/
theorem LinkTraffic.divert_retrieved {t : LinkTraffic} {fsnc : Option ℕ} {msu : Msu}
    (h : msu ∈ (t.divert fsnc).2.messages.take (t.divert fsnc).2.resent) :
    isLinkTest msu = false := by
  cases hr : t.kept with
  | none => simp [divert, hr] at h
  | some r =>
    simp only [divert, hr, List.take_left] at h
    simpa using (List.mem_filter.mp h).2

theorem LinkTraffic.divert_held (t : LinkTraffic) (fsnc : Option ℕ) :
    (t.divert fsnc).2.messages.drop (t.divert fsnc).2.resent = t.held := by
  cases hr : t.kept with
  | none => simp [divert, hr]
  | some r => simp only [divert, hr, List.drop_left]

end SiphonSigtran.M2pa
