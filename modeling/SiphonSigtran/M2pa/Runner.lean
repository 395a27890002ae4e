import SiphonSigtran.M2pa.LinkSupervision
import SiphonSigtran.M2pa.LinkTest
import SiphonSigtran.M2pa.Serving
import SiphonSigtran.Transport.Framing

/-!
# The task of one link

The task connects the link and its test to the association, to the clock and to level 3. It takes
one event at a time, carries out what the link asks for, one action after the other, and whatever
follows from that, acknowledges what was delivered, and then says whether the link is available.
Between associations a task without one serves the queue. The packages that read and write MTP3
messages are parameters, and so is whether the association takes what is sent on it.
-/

namespace SiphonSigtran.M2pa

open Transport (Mtp3Msu Mtp3Codec ituPc)

structure LinkTestSettings where
  t1 : ℕ
  t2 : ℕ
  pattern : List UInt8
  deriving DecidableEq, Repr

/-- What the task of one link is configured with. -/
structure LinkSettings where
  timers : LinkTimers
  proving : Proving
  txQueue : ℕ
  restart : ℕ
  test : Option LinkTestSettings
  ownPc : ℕ
  adjacentPc : Option ℕ
  ni : ℕ
  slc : ℕ
  index : Option ℕ
  deriving DecidableEq, Repr

/-- The messages of Q.707. -/
inductive TestMessage
  | sltm (pattern : List UInt8)
  | slta (pattern : List UInt8)
  deriving DecidableEq, Repr

/-- A link with the packages its task reads and writes messages with. -/
structure LinkPort (ι : Type*) where
  settings : LinkSettings
  codec : Codec
  mtp3 : Mtp3Codec ι
  encodeTest : TestMessage → Option (List UInt8)
  decodeTest : List UInt8 → Option TestMessage

/-- Signalling network testing messages. -/
def siSnt : ℕ := 1

def ppidM2pa : ℕ := 5

/-- The deadlines of every timer of one link. -/
structure Deadlines where
  link : Timer → Option ℕ
  test : TestTimer → Option ℕ
  restart : Option ℕ

def Deadlines.default : Deadlines := ⟨fun _ => none, fun _ => none, none⟩

/-- What the task does that others see. -/
inductive Report
  | transmitted (frame : Frame) (stream : ℕ)
  | delivered (msu : Msu)
  | direct (slc : ℕ) (msu : Msu)
  | discarded (reason : Discard) (count : ℕ)
  | traffic (effect : Effect)
  | aligned (on : Bool)
  | active (on : Bool)
  | linkUp
  | linkDown (bsnt : ℕ)
  deriving DecidableEq, Repr

/-- Which task serves the link: one without an association, one with, or one that is done with its
association and still has to say so. -/
inductive Phase
  | idle | serving | ending
  deriving DecidableEq, Repr

structure Runner where
  phase : Phase
  link : Link
  test : Option LinkTest
  deadlines : Deadlines
  lost : Bool
  available : Bool
  traffic : LinkTraffic
  applying : Bool
  pending : List Action

/-- The test message of this node to `dpc`, about link code `slc`. -/
def LinkPort.testMsu {ι : Type*} (port : LinkPort ι) (dpc slc : ℕ) (message : TestMessage) :
    Option Msu := do
  let opc ← ituPc port.mtp3 port.settings.ownPc
  let dpc ← ituPc port.mtp3 dpc
  let data ← port.encodeTest message
  return port.mtp3.encode .itu
    { si := siSnt
      ni := port.mtp3.fromBits port.settings.ni
      mp := 0
      opc := opc
      dpc := dpc
      sls := slc
      data := data }

namespace Runner

variable {ι : Type*} (port : LinkPort ι) (now : ℕ)

/-- Before the first association. -/
def new : Runner where
  phase := .idle
  link := .new port.settings.timers port.settings.proving port.settings.txQueue
  test := none
  deadlines := .default
  lost := false
  available := false
  traffic := .new port.settings.txQueue
  applying := false
  pending := []

/-- An operation of the link, with what it asks for. The actions of a batch and what they bring
are carried out in the order they were asked for. -/
def ask (r : Runner) (asked : Link × List Action) : Runner :=
  { r with link := asked.1, pending := r.pending ++ asked.2 }

def canSend (r : Runner) : Bool := r.link.isAligned && !r.lost

/-! ## The signalling link test -/

/-- Send our signalling link test message on the link. -/
def sendTest (r : Runner) : Runner :=
  match port.settings.test, port.settings.adjacentPc with
  | some test, some adjacent =>
    match port.testMsu adjacent port.settings.slc (.sltm test.pattern) with
    | some msu => r.ask (r.link.send port.codec msu now)
    | none => r
  | _, _ => r

def applyTestAction (r : Runner) : TestAction → Runner
  | .sendTest => r.sendTest port now
  | .start timer after => { r with
      deadlines := { r.deadlines with
        test := Function.update r.deadlines.test timer (some (now + after)) } }
  | .stop timer => { r with
      deadlines := { r.deadlines with test := Function.update r.deadlines.test timer none } }
  | .available | .attemptFailed => r
  | .failed => r.ask (r.link.fail port.codec .linkTest)

/-- An operation of the test of a link, with what it asks for. -/
def applyTest (r : Runner) (operation : LinkTest → LinkTest × List TestAction) : Runner :=
  match r.test with
  | some test =>
    (operation test).2.foldl (applyTestAction port now) { r with test := some (operation test).1 }
  | none => r

/-! ## What the link asks for -/

/-- A signalling network testing message. -/
def linkTestMessage (r : Runner) (msu : Mtp3Msu ι) : Runner × List Report :=
  match port.decodeTest msu.data with
  | none => (r, [])
  | some message =>
    if msu.dpc ≠ port.settings.ownPc then (r, [])
    else match message with
      | .sltm pattern =>
        match port.testMsu msu.opc msu.sls (.slta pattern) with
        | none => (r, [])
        | some reply =>
          if msu.sls = port.settings.slc then (r.ask (r.link.send port.codec reply now), [])
          -- On the link that code names and no other, whatever it carries.
          else (r, [.direct msu.sls reply])
      | .slta pattern =>
        if (r.test.map LinkTest.isWaiting).getD false then
          let correct := msu.sls = port.settings.slc ∧ some msu.opc = port.settings.adjacentPc ∧
            some pattern = port.settings.test.map LinkTestSettings.pattern
          (r.applyTest port now fun test => test.acknowledged correct, [])
        else (r, [])

/-- An MSU the link accepted. What is not a link test goes to level 3 or to the router. -/
def deliver (r : Runner) (raw : Msu) : Runner × List Report :=
  match port.mtp3.decode .itu raw with
  | none => (r, [.delivered raw])
  | some msu =>
    if msu.si = siSnt then
      let tested := r.linkTestMessage port now msu
      (tested.1, .delivered raw :: tested.2)
    else (r, [.delivered raw])

/-- Carry out one action. `refused` is whether the association refuses what is sent. -/
def applyOne (refused : Bool) (r : Runner) : Action → Runner × List Report
  | .send frame stream _ =>
    if r.lost then (r, [])
    else if refused then
      (({ r with lost := true }).ask (r.link.fail port.codec .association), [])
    else (r, [.transmitted frame stream])
  | .deliver msu => r.deliver port now msu
  | .start timer after => ({ r with
      deadlines := { r.deadlines with
        link := Function.update r.deadlines.link timer (some (now + after)) } }, [])
  | .stop timer => ({ r with
      deadlines := { r.deadlines with
        link := Function.update r.deadlines.link timer none } }, [])
  | .inService => (r.applyTest port now LinkTest.begin, [])
  | .outOfService _ =>
    let stopped := r.applyTest port now LinkTest.stop
    ({ stopped with
        deadlines := { stopped.deadlines with restart := some (now + port.settings.restart) } },
      [])
  | .remoteProcessorOutage _ => (r, [])
  | .discarded reason count => (r, [.discarded reason count])

/-- Tell level 3 when the link becomes available (in service and tested) or stops being it. -/
def refreshAvailability (r : Runner) : Runner × List Report :=
  let tested := (r.test.map LinkTest.available).getD true
  let available := r.link.state = .inService && tested && !r.lost
  if available = r.available then (r, [.aligned r.link.isAligned])
  else if available then
    ({ r with available := true },
      .aligned r.link.isAligned :: .active true ::
        (if port.settings.index.isSome then [.linkUp] else []))
  else
    let detached := r.link.detach
    let failed := r.traffic.unavailable detached.2
    ({ r with available := false, link := detached.1, traffic := failed.1 },
      .aligned r.link.isAligned :: .active false :: failed.2.map .traffic ++
        (if port.settings.index.isSome then [.linkDown r.link.bsnt] else []))

/-- Everything asked for is done and acknowledged: what a task does before its next event, and
when it is done with its association. -/
def finish (r : Runner) : Runner × List Report :=
  let refreshed := r.refreshAvailability port
  match r.phase with
  | .ending =>
    let abandoned := refreshed.1.link.abandon
    ({ refreshed.1 with
        phase := .idle, applying := false, deadlines := .default, link := abandoned.1 },
      refreshed.2 ++
        (if abandoned.2 > 0 then [.discarded .txLostOnFailure abandoned.2] else []) ++
        [.aligned false, .active false])
  | _ =>
    -- Without its association the link is out of service.
    if refreshed.1.lost then
      (({ refreshed.1 with phase := .ending }).ask
        (refreshed.1.link.fail port.codec .association), refreshed.2)
    else ({ refreshed.1 with applying := false }, refreshed.2)

/-- The next thing to carry out. -/
def work (refused : Bool) (r : Runner) : Runner × List Report :=
  match r.pending with
  | action :: rest => ({ r with pending := rest }).applyOne port now refused action
  | [] =>
    let flushed := r.ask (r.link.flushAck port.codec)
    if flushed.pending = [] then flushed.finish port else (flushed, [])

/-! ## Events -/

def apply (r : Runner) : Runner := { r with applying := true }

/-- An association comes up for the link. -/
def associated (r : Runner) : Runner :=
  let r := { r with
    phase := .serving
    link := .new port.settings.timers port.settings.proving port.settings.txQueue
    test := port.settings.test.map fun (test : LinkTestSettings) => .new test.t1 test.t2
    deadlines := .default
    lost := false
    available := false }
  let r := r.ask (r.link.established port.codec)
  (r.ask (r.link.start port.codec)).apply

/-- An MSU handed to the link for transmission. -/
def carry (r : Runner) (msu : Msu) : Runner × List Report :=
  let offered := r.traffic.offer msu r.canSend
  let r := { r with traffic := offered.1 }
  match offered.2 with
  | .send msu => ((r.ask (r.link.send port.codec msu now)).apply, [])
  | .held => (r, [])
  | .divert msu => (r, [.traffic (.rerouted msu)])
  | .full => (r, [.traffic (.full msu)])

/-- The buffered messages, offered to the link one after the other. -/
def carryBuffered (canSend : Bool) : List Msu → Runner → Runner × List Report
  | [], r => (r, [])
  | msu :: rest, r =>
    let offered := r.traffic.offer msu canSend
    let r := { r with traffic := offered.1 }
    let first : Runner × List Report := match offered.2 with
      | .send msu => (r.ask (r.link.send port.codec msu now), [])
      | .full => (r, [.traffic (.full msu)])
      | .held | .divert _ => (r, [])
    let others := carryBuffered canSend rest first.1
    (others.1, first.2 ++ others.2)

/-- What level 3 wants of the link. -/
def command (r : Runner) : LinkCommand → Runner × List Report
  | .hold => ({ r with traffic := r.traffic.hold, applying := true }, [.traffic (.routable true)])
  | .divert fsnc =>
    let diverted := r.traffic.divertAll fsnc
    ({ r with traffic := diverted.1, applying := true }, diverted.2.map .traffic)
  | .open =>
    let opened := r.traffic.open
    let carried := carryBuffered port now r.canSend opened.2.1 { r with traffic := opened.1 }
    (carried.1.apply, .traffic (.routable true) ::
      (LinkTraffic.lostWithTheLink opened.2.2).map .traffic ++ carried.2)
  | .fail => ((r.ask (r.link.fail port.codec .stopped)).apply, [])
  | .direct msu => ((r.ask (r.link.send port.codec msu now)).apply, [])

def fireLink (r : Runner) (timer : Timer) : Runner :=
  if (r.deadlines.link timer).any (· ≤ now) then
    let r := { r with
      deadlines := { r.deadlines with link := Function.update r.deadlines.link timer none } }
    r.ask (r.link.timeout port.codec timer now)
  else r

def fireTest (r : Runner) (timer : TestTimer) : Runner :=
  if (r.deadlines.test timer).any (· ≤ now) then
    ({ r with
      deadlines := { r.deadlines with
        test := Function.update r.deadlines.test timer none } }).applyTest port now
      fun test => test.timeout timer
  else r

def fireRestart (r : Runner) : Runner :=
  if r.deadlines.restart.any (· ≤ now) then
    ({ r with deadlines := { r.deadlines with restart := none } }).ask (r.link.start port.codec)
  else r

/-- A timer of the link, of its test, or the restart delay ran out. -/
def fire (r : Runner) : Runner :=
  let r := Timer.all.foldl (fireLink port now) r
  let r := TestTimer.all.foldl (fireTest port now) r
  (r.fireRestart port now).apply

/-- One message from the association. -/
def received (r : Runner) (data : Frame) (ppid : ℕ) : Runner :=
  if ppid ≠ ppidM2pa then r
  else match port.codec.decode data with
    | some (.linkStatus bsn _ state) => (r.ask (r.link.onStatus port.codec state bsn now)).apply
    | some (.userData bsn fsn message) =>
      (r.ask (r.link.onData port.codec bsn fsn message now)).apply
    | none => r.apply

/-- The association is gone, or the task is to leave it. -/
def leave (r : Runner) (lost : Bool) : Runner :=
  (({ r with lost := lost, phase := .ending }).ask
    (r.link.fail port.codec (if lost then .association else .stopped))).apply

/-- What the task of a link comes across, its own next thing to carry out included. -/
inductive Input
  | associated
  | carry (msu : Msu)
  | command (command : LinkCommand)
  | received (data : Frame) (ppid : ℕ)
  | fire
  | lost
  | stopped
  | work (refused : Bool)
  deriving DecidableEq, Repr

/-- One step at the instant `e.1`. A task that carries something out takes no event. -/
def step (r : Runner) (e : ℕ × Input) : Runner × List Report :=
  match r.applying, r.phase, e.2 with
  | true, _, .work refused => r.work port e.1 refused
  | false, .idle, .associated => (r.associated port, [])
  | false, .idle, .carry msu =>
    let carried := r.traffic.idleCarry msu
    ({ r with traffic := carried.1 }, carried.2.map .traffic)
  | false, .idle, .command command =>
    let commanded := r.traffic.idleCommand command
    ({ r with traffic := commanded.1 }, commanded.2.map .traffic)
  | false, .serving, .carry msu => r.carry port e.1 msu
  | false, .serving, .command command => r.command port e.1 command
  | false, .serving, .received data ppid => (r.received port e.1 data ppid, [])
  | false, .serving, .fire => (r.fire port e.1, [])
  | false, .serving, .lost => (r.leave port true, [])
  | false, .serving, .stopped => (r.leave port false, [])
  | _, _, _ => (r, [])

end Runner

end SiphonSigtran.M2pa
