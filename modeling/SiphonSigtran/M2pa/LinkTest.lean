import SiphonSigtran.M2pa.Link

/-!
# The signalling link test

The test of Q.707 2.2: a message of the test is sent when the link comes into service and then at
intervals, and is repeated once when its acknowledgement does not arrive or is wrong. When the
repeat fails too the link is to be taken out of service. Like the link it owns no clock.
-/

namespace SiphonSigtran.M2pa

inductive TestTimer
  | t1 | t2
  deriving DecidableEq, Repr

/-- Both timers, in index order. -/
def TestTimer.all : List TestTimer := [.t1, .t2]

inductive TestAction
  | sendTest
  | start (timer : TestTimer) (after : ℕ)
  | stop (timer : TestTimer)
  | available
  | attemptFailed
  | failed
  deriving DecidableEq, Repr

/-- Where the test stands. -/
inductive TestState
  | idle | first | second | passed
  deriving DecidableEq, Repr

structure LinkTest where
  t1 : ℕ
  t2 : ℕ
  state : TestState
  available : Bool
  deriving DecidableEq, Repr

namespace LinkTest

def new (t1 t2 : ℕ) : LinkTest := ⟨t1, t2, .idle, false⟩

/-- Whether an acknowledgement is awaited. -/
def isWaiting (t : LinkTest) : Bool := t.state = .first || t.state = .second

/-- The link came into service at level 2: test it. -/
def begin (t : LinkTest) : LinkTest × List TestAction :=
  ({ t with available := false, state := .first }, [.stop .t2, .sendTest, .start .t1 t.t1])

/-- The link left service: forget the test. -/
def stop (t : LinkTest) : LinkTest × List TestAction :=
  ({ t with state := .idle, available := false },
    if t.state ≠ .idle then [.stop .t1, .stop .t2] else [])

def attemptFailed (t : LinkTest) : LinkTest × List TestAction :=
  match t.state with
  | .first => ({ t with state := .second }, [.attemptFailed, .sendTest, .start .t1 t.t1])
  | _ => ({ t with state := .idle, available := false }, [.attemptFailed, .stop .t1, .failed])

/-- An acknowledgement arrived. `correct` says whether it met the criteria of Q.707 2.2. -/
def acknowledged (t : LinkTest) (correct : Bool) : LinkTest × List TestAction :=
  if !t.isWaiting then (t, [])
  else if !correct then t.attemptFailed
  else
    ({ t with state := .passed, available := true },
      .stop .t1 :: (if !t.available then [.available] else []) ++ [.start .t2 t.t2])

def timeout (t : LinkTest) (timer : TestTimer) : LinkTest × List TestAction :=
  match timer, t.state with
  | .t1, .first | .t1, .second => t.attemptFailed
  | .t2, .passed => ({ t with state := .first }, [.sendTest, .start .t1 t.t1])
  | _, _ => (t, [])

end LinkTest

/-! ## What a test asks of its link -/

/-- Whether an action is for the link: a test message, or taking it out of service. -/
def TestAction.asks : TestAction → Bool
  | .sendTest | .failed => true
  | _ => false

namespace LinkTest

/-- An operation of the test sends one message, fails the link, or asks nothing of it. -/
def Asks (out : List TestAction) : Prop :=
  out.filter TestAction.asks = [] ∨ out.filter TestAction.asks = [.sendTest] ∨
    out.filter TestAction.asks = [.failed]

theorem begin_asks (t : LinkTest) : t.begin.2.filter TestAction.asks = [.sendTest] := rfl

theorem stop_asks (t : LinkTest) : t.stop.2.filter TestAction.asks = [] := by
  unfold stop
  split_ifs <;> rfl

theorem attemptFailed_asks (t : LinkTest) : Asks t.attemptFailed.2 := by
  unfold attemptFailed
  split
  · exact .inr (.inl rfl)
  · exact .inr (.inr rfl)

theorem acknowledged_asks (t : LinkTest) (correct : Bool) : Asks (t.acknowledged correct).2 := by
  unfold acknowledged
  split_ifs
  · exact .inl rfl
  · exact t.attemptFailed_asks
  · exact .inl rfl
  · exact .inl rfl

theorem timeout_asks (t : LinkTest) (timer : TestTimer) : Asks (t.timeout timer).2 := by
  unfold timeout
  split
  · exact t.attemptFailed_asks
  · exact t.attemptFailed_asks
  · exact .inr (.inl rfl)
  · exact .inl rfl

/-- A test that just asked for something asks for nothing more when the other timer runs out at
the same time. -/
theorem timeout_twice (t : LinkTest) :
    (t.timeout .t1).2.filter TestAction.asks = [] ∨
      (((t.timeout .t1).1).timeout .t2).2.filter TestAction.asks = [] := by
  cases hs : t.state <;> simp [timeout, attemptFailed, hs, TestAction.asks]

end LinkTest

end SiphonSigtran.M2pa
