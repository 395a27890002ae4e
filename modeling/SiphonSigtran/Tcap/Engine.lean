import SiphonSigtran.Lib.Store
import SiphonSigtran.Tcap.Dialogue

/-!
# The dialogue engine

The transaction store and what the engine does with an inbound message, with a request to
begin a dialogue and with the timers. An operation gets the calls that its handler makes in
each callback and the time its clock reads. Counters other than the gauge of open dialogues
are left out.
-/

namespace SiphonSigtran.Tcap

open Lib

/-- A registered handler. -/
abbrev Handler := ℕ

structure OutgoingBegin where
  applicationContext : List ℕ
  called : SccpAddress
  calling : SccpAddress
  opc : ℕ
  dpc : ℕ
  ni : ℕ
  sls : ℕ
  ingressAssoc : String
  deriving DecidableEq, Repr

structure Record where
  handler : Handler
  dialogue : Dialogue
  ingressAssoc : String
  lastActivity : ℕ
  /-- Its timers are due and wait for `expire`. -/
  claimed : Bool
  deriving DecidableEq, Repr

/-- Something that happened, with the dialogue it happened with and the handler of that. -/
structure Entry where
  serial : ℕ
  handler : Handler
  event : Event
  deriving DecidableEq, Repr

/-- The engine. How many ids were allocated and what happened are for the proofs only. -/
structure Engine where
  config : Config
  handlers : ℕ × ℤ → Option Handler
  fallbackHandlers : ℕ × ℤ → Option Handler
  dialogues : Store Tid Record
  tidCounter : UInt32
  allocated : ℕ
  log : List Entry

/-- Which callback a turn of the handler came from. -/
inductive Turn
  | begins
  | continues
  | timer
  deriving DecidableEq, Repr

/-- The four octets of a number, with the high bit set. -/
def tidOf (counter : UInt32) : Tid :=
  let id := counter ||| 0x80000000
  [(id >>> 24).toUInt8, (id >>> 16).toUInt8, (id >>> 8).toUInt8, id.toUInt8]

def idleExpired (r : Record) (now : ℕ) : Bool :=
  r.dialogue.idleTimeout.any fun idle => now - r.lastActivity ≥ idle

/-- Whether the timer of an invoke has run out. -/
def Outstanding.expired (o : Outstanding) (now : ℕ) : Bool := o.deadline.any fun d => now ≥ d

/-- Whether an invocation timer has expired, or the dialogue has been idle for too long. -/
def timersDue (r : Record) (now : ℕ) : Bool :=
  r.dialogue.outstanding.any (fun o => o.expired now) || idleExpired r now

def hopCounterViolated (xudt : ExtendedUnitData) : Bool :=
  !xudt.calledParty.routeOnSsn && xudt.hopCounter ≤ 1

def xudtAsUnitdata (xudt : ExtendedUnitData) : UnitData :=
  ⟨xudt.calledParty, xudt.callingParty, xudt.data⟩

/-- An XUDT whose hop counter ran out is returned if it asked to be. -/
def hopCounterViolation (c : Codec) (inbound : Msu) (xudt : ExtendedUnitData) : List Msu :=
  if xudt.messageHandling ≠ sccpReturnOnError then []
  else
    (c.encodeXudts xudt.callingParty xudt.calledParty xudt.data).toList.map fun payload =>
      { inbound with opc := inbound.dpc, dpc := inbound.opc, payload := payload }

/-- An Abort toward the peer, for a message that belongs to no dialogue. -/
def sendAbort (c : Codec) (abort : Abort) (a : Addressing) : List Msu :=
  match wrapMsu c (.aborts abort) a with
  | .ok msu => [msu]
  | .error _ => []

/-- What kind of abort the peer sent. -/
def classifyAbort (c : Codec) (abort : Abort) : PeerAbort :=
  match abort.reason with
  | none => .user .noInformation
  | some (.pAbort cause) => .provider cause
  | some (.uAbort information) =>
    match c.dialoguePdu information with
    | some (some (.abrt .dialogueServiceUser)) => .user .dialogueServiceUser
    | some (some (.abrt .dialogueServiceProvider)) => .abnormalDialogue
    | some (some (.aare .providerNoCommonDialoguePortion)) => .noCommonDialoguePortion
    | some (some (.aare (.dialogueServiceProvider _))) => .abnormalDialogue
    | some (some (.aare .userApplicationContextNameNotSupported)) =>
      .user .applicationContextNotSupported
    | some (some (.aare (.dialogueServiceUser _))) => .user .dialogueRefused
    | some _ => .user .userDefined
    | none => .abnormalDialogue

/-- The application context a Begin offers, or the information of the Abort that answers it. -/
def offeredContext (c : Codec) (b : Begin) : Except Bytes (Option (List ℕ)) :=
  match b.dialoguePortion.map c.dialoguePdu with
  | none | some (some none) => .ok none
  | some (some (some (.aarq version1 name))) =>
    if version1 then .ok (some name) else .error (c.noCommonDialoguePortion name)
  | some none | some (some (some _)) => .error c.abnormalDialogue

/-- An Invoke of an operation that a handler may serve. -/
def PeerComponent.dispatchable : PeerComponent → Bool
  | .invoke _ operationCode _ => operationCode ≥ 0
  | _ => false

namespace Engine

def new (config : Config) (handlers fallbackHandlers : ℕ × ℤ → Option Handler) : Engine :=
  ⟨config, handlers, fallbackHandlers, ∅, 0, 0, []⟩

def note (e : Engine) (handler : Handler) (d : Dialogue) (events : List Event) : Engine :=
  { e with log := e.log ++ events.map fun event => ⟨d.serial, handler, event⟩ }

def openDialogues (e : Engine) : ℕ := Store.size e.dialogues

/-! ## The store -/

def allocTid (e : Engine) : Tid × Engine :=
  (tidOf (e.tidCounter + 1),
    { e with tidCounter := e.tidCounter + 1, allocated := e.allocated + 1 })

def take (e : Engine) (tid : Tid) : Option Record × Engine :=
  match e.dialogues.lookup tid with
  | none => (none, e)
  | some r =>
    (some r, { e with dialogues := e.dialogues.erase tid }.note r.handler r.dialogue
      [.taken tid])

def store (e : Engine) (dialogue : Dialogue) (handler : Handler) (ingressAssoc : String)
    (lastActivity : ℕ) : Engine :=
  let record : Record := ⟨handler, dialogue, ingressAssoc, lastActivity, false⟩
  { e with dialogues := e.dialogues.insert dialogue.ourTid record }.note handler dialogue
    [.stored dialogue.ourTid]

/-- Tell a handler its dialogue ended. -/
def closed (e : Engine) (handler : Handler) (d : Dialogue) (reason : CloseReason) : Engine :=
  e.note handler d [.closes (d.closedEvent reason)]

/-! ## Turns -/

/-- Common tail after a handler callback. -/
def finishTurn (c : Codec) (e : Engine) (d : Dialogue) (handler : Handler) (ingressAssoc : String)
    (turn : Turn) (lastActivity now : ℕ) : List Msu × Engine :=
  let d :=
    if turn = .begins ∧ d.closed.isNone ∧ d.out.isEmpty then (d.abortAs c .noAnswer).2 else d
  let frames := d.out
  let d := { d with sendError := none, out := [] }
  match d.closed with
  | some reason => (frames, e.closed handler d reason)
  | none =>
    -- A timer callback that sent nothing is not activity.
    let activity := if turn = .timer ∧ frames.isEmpty then lastActivity else now
    (frames, e.store d handler ingressAssoc activity)

/-- A callback of the handler, and the calls it makes. -/
def callback (c : Codec) (e : Engine) (handler : Handler) (d : Dialogue) (event : Event)
    (script : List Call) : Dialogue × Engine :=
  let turn := d.calls c script
  (turn.1, e.note handler d (event :: turn.2))

def handlerOf (e : Engine) (ssn : ℕ) (operationCode : ℤ) : Option Handler :=
  (e.handlers (ssn, operationCode)).or (e.fallbackHandlers (ssn, operationCode))

def onBegin (c : Codec) (e : Engine) (b : Begin) (rejected : Option Rejected)
    (replyTo : Addressing) (udt : UnitData) (ingressAssoc : String) (script : List Call)
    (now : ℕ) : List Msu × Engine :=
  if e.openDialogues ≥ e.config.maxDialogues then
    (sendAbort c (.pAbort b.otid .resourceLimitation) replyTo, e)
  else match offeredContext c b with
    | .error information => (sendAbort c (.uAbort b.otid (some information)) replyTo, e)
    | .ok ac =>
      let calledSsn := udt.calledParty.ssn.getD 0
      let (ourTid, e) := e.allocTid
      let d := Dialogue.new e.allocated .responder ourTid b.otid (ac.getD []) 0 replyTo e.config
      let (components, d) := d.receive false (b.components.getD []) rejected
      match components.findIdx? PeerComponent.dispatchable with
      | none =>
        -- Nothing could be dispatched: the Rejects leave in an End, or there is nothing at all.
        if !d.rejects.isEmpty then ((d.sendEnd c).2.out, e) else ((d.abort c).2.out, e)
      | some first =>
        match components[first]? with
        | some (.invoke invokeId op argument) =>
          let d := { d with replyInvokeId := invokeId }
          match e.handlerOf calledSsn op with
          | none => ((d.abort c).2.out, e)
          | some handler =>
            let incoming : IncomingOp :=
              { operationCode := op
                invokeId := invokeId
                argument := argument
                applicationContext := ac
                calledSsn := calledSsn
                callingGt := udt.callingParty.digits
                calledGt := udt.calledParty.digits
                further := components.eraseIdx first }
            let (d, e) := e.callback c handler d (.begins incoming) script
            e.finishTurn c d handler ingressAssoc .begins now now
        | _ => ([], e)

def onTurn (c : Codec) (e : Engine) (ourTid : Tid) (peerOtid : Option Tid)
    (components : List Component) (rejected : Option Rejected) (isEnd : Bool)
    (replyTo : Addressing) (script : List Call) (now : ℕ) : List Msu × Engine :=
  match e.take ourTid with
  | (none, e) =>
    match peerOtid with
    | some otid => (sendAbort c (.pAbort otid .unrecognizedTransactionId) replyTo, e)
    | none => ([], e)
  | (some r, e) =>
    let d := r.dialogue
    -- The first response to our Begin carries the peer's id.
    let d := if d.peerTid.isEmpty then { d with peerTid := peerOtid.getD d.peerTid } else d
    let (components, d) := d.receive isEnd components rejected
    let peer : PeerTurn := ⟨isEnd, components⟩
    if isEnd then
      let d := { d with outstanding := [], rejects := [], closed := some .peerEnded }
      let (d, e) := e.callback c r.handler d (.continues peer) script
      ([], e.closed r.handler d .peerEnded)
    else
      let (d, e) := e.callback c r.handler d (.continues peer) script
      e.finishTurn c d r.handler r.ingressAssoc .continues now now

def onAbort (c : Codec) (e : Engine) (abort : Abort) : Engine :=
  match e.take abort.dtid with
  | (none, e) => e
  | (some r, e) => e.closed r.handler r.dialogue (.peerAbort (classifyAbort c abort))

/-- A message that was understood, or the understood part of one. -/
def onMessage (c : Codec) (e : Engine) (message : TcapMessage) (rejected : Option Rejected)
    (replyTo : Addressing) (udt : UnitData) (ingressAssoc : String) (script : List Call)
    (now : ℕ) : List Msu × Engine :=
  match message with
  | .begins b => e.onBegin c b rejected replyTo udt ingressAssoc script now
  | .continues m =>
    e.onTurn c m.dtid (some m.otid) (m.components.getD []) rejected false replyTo script now
  | .ends m => e.onTurn c m.dtid none (m.components.getD []) rejected true replyTo script now
  | .aborts a => ([], e.onAbort c a)
  | .unidirectional => ([], e)

/-- A message that was not fully understood. -/
def onProblem (c : Codec) (e : Engine) (problem : DecodeProblem) (replyTo : Addressing)
    (udt : UnitData) (ingressAssoc : String) (script : List Call) (now : ℕ) :
    List Msu × Engine :=
  match problem.fault with
  | .component invokeId general =>
    match problem.understood with
    | some message =>
      e.onMessage c message (some ⟨invokeId, .general general, problem.reject⟩) replyTo udt
        ingressAssoc script now
    | none => ([], e)
  | fault =>
    let frames := match problem.abort with
      | some abort => sendAbort c abort replyTo
      | none => []
    match problem.dtid with
    | none => (frames, e)
    | some dtid =>
      match e.take dtid with
      | (none, e) => (frames, e)
      | (some r, e) =>
        let sent := !frames.isEmpty
        let reason := match fault with
          | .transactionPortion cause => CloseReason.providerAbort cause sent
          | _ => .abnormalDialogue sent
        (frames, e.closed r.handler r.dialogue reason)

/-- The unitdata of a message that the engine terminates, and the form it came in. -/
def terminated (message : SccpMessage) : Option (UnitData × UnitdataForm) :=
  match message with
  | .udt udt => some (udt, .udt)
  | .xudt xudt =>
    if isSegment message || hopCounterViolated xudt then none
    else some (xudtAsUnitdata xudt, .xudt)
  | .other _ => none

/-- Terminate one inbound MSU. -/
def deliver (c : Codec) (e : Engine) (inbound : Msu) (ingressAssoc : String)
    (script : List Call) (now : ℕ) : List Msu × Engine :=
  if inbound.si ≠ siSccp then ([], e)
  else match c.decodeSccp inbound.payload with
    | none => ([], e)
    | some message =>
      match terminated message with
      | some (udt, form) =>
        let replyTo := Addressing.reverse udt inbound form
        match c.decodeDetailed udt.data with
        | .complete message => e.onMessage c message none replyTo udt ingressAssoc script now
        | .problem problem => e.onProblem c problem replyTo udt ingressAssoc script now
      | none =>
        match message with
        | .xudt xudt =>
          if isSegment message then ([], e) else (hopCounterViolation c inbound xudt, e)
        | _ => ([], e)

/-- Start an originating dialogue. -/
def begin (c : Codec) (e : Engine) (req : OutgoingBegin) (handler : Handler)
    (script : List Call) (now : ℕ) : Except DialogueError (Tid × List Msu) × Engine :=
  let (ourTid, e) := e.allocTid
  let addressing : Addressing :=
    { outCalled := req.called
      outCalling := req.calling
      opc := req.opc
      dpc := req.dpc
      ni := req.ni
      sls := req.sls
      form := .udt }
  let d := Dialogue.new e.allocated .initiator ourTid [] req.applicationContext 0 addressing
    e.config
  let (d, e) := e.callback c handler d .starts script
  let frames := d.out
  let d := { d with out := [] }
  match d.closed with
  | some reason => (.error (d.sendError.getD .nothingSent), e.closed handler d reason)
  | none =>
    if frames.isEmpty then
      (.error (d.sendError.getD .nothingSent), e.closed handler d .notSent)
    else (.ok (ourTid, frames), e.store d handler req.ingressAssoc now)

/-! ## Timers -/

/-- The dialogues whose timers are due. Each is claimed until they are run. -/
def claimExpired (e : Engine) (now : ℕ) : List Tid × Engine :=
  let due (r : Record) : Bool := !r.claimed && timersDue r now
  let claim (_ : Tid) (r : Record) : Record := if due r then { r with claimed := true } else r
  ((e.dialogues.entries.filter fun p => due p.2).map Sigma.fst,
    { e with dialogues := Store.mapValues claim e.dialogues })

def releaseClaim (e : Engine) (tid : Tid) : Engine :=
  { e with dialogues := Store.modify tid (fun r => { r with claimed := false }) e.dialogues }

/-- Tell the handler of the invokes whose timers expired, one after the other. -/
def cancel (c : Codec) (e : Engine) (handler : Handler) (now : ℕ) (d : Dialogue) :
    List Outstanding → List (List Call) → Dialogue × Engine
  | [], _ => (d, e)
  | invoke :: rest, scripts =>
    if d.closed.isSome then (d, e)
    else if invoke.opClass = .four then cancel c e handler now d rest scripts
    else
      let timeout : InvokeTimeout := ⟨invoke.id, invoke.op, invoke.opClass⟩
      let (d, e) := e.callback c handler d (.timesOut timeout now) (scripts.headD [])
      let d :=
        if d.closed = some .aborted then
          { d with closed := some (.invokeTimeout invoke.id invoke.op) }
        else d
      cancel c e handler now d rest scripts.tail

/-- Run the timers of one dialogue that are due. -/
def expire (c : Codec) (e : Engine) (tid : Tid) (now : ℕ) (scripts : List (List Call))
    (clock : ℕ) : List (String × Msu) × Engine :=
  match e.dialogues.lookup tid with
  | none => ([], e)
  | some r =>
    if !timersDue r now then ([], e.releaseClaim tid)
    else
      let e := (e.take tid).2
      let idle := idleExpired r now
      let (expired, running) := r.dialogue.outstanding.partition fun o => o.expired now
      let d := { r.dialogue with outstanding := running }
      let (d, e) := e.cancel c r.handler now d expired scripts
      let d := if d.closed.isNone && idle then (d.abortAs c .idleTimeout).2 else d
      let (frames, e) := e.finishTurn c d r.handler r.ingressAssoc .timer r.lastActivity
        clock
      (frames.map fun m => (r.ingressAssoc, m), e)

/-- Run the timers of some dialogues. -/
def expireAll (c : Codec) (now : ℕ) (scripts : Tid → List (List Call)) (clock : Tid → ℕ)
    (e : Engine) : List Tid → List (String × Msu) × Engine
  | [] => ([], e)
  | tid :: rest =>
    let (frames, e) := e.expire c tid now (scripts tid) (clock tid)
    let (others, e) := expireAll c now scripts clock e rest
    (frames ++ others, e)

/-- Run the timers. The map yields the claimed dialogues in any order. -/
def sweep (c : Codec) (e : Engine) (now : ℕ) (order : List Tid → List Tid)
    (scripts : Tid → List (List Call)) (clock : Tid → ℕ) : List (String × Msu) × Engine :=
  let (tids, e) := e.claimExpired now
  e.expireAll c now scripts clock (order tids)

/-! ## Runs -/

/-- What is done with an engine, with what the handlers do and the clocks read meanwhile. -/
inductive Op
  | deliver (inbound : Msu) (ingressAssoc : String) (script : List Call) (now : ℕ)
  | begin (req : OutgoingBegin) (handler : Handler) (script : List Call) (now : ℕ)
  | sweep (now : ℕ) (order : List Tid → List Tid) (scripts : Tid → List (List Call))
      (clock : Tid → ℕ)
  | claimExpired (now : ℕ)
  | expire (tid : Tid) (now : ℕ) (scripts : List (List Call)) (clock : ℕ)
  | releaseClaim (tid : Tid)

def step (c : Codec) (e : Engine) : Op → Engine
  | .deliver inbound ingressAssoc script now => (e.deliver c inbound ingressAssoc script now).2
  | .begin req handler script now => (e.begin c req handler script now).2
  | .sweep now order scripts clock => (e.sweep c now order scripts clock).2
  | .claimExpired now => (e.claimExpired now).2
  | .expire tid now scripts clock => (e.expire c tid now scripts clock).2
  | .releaseClaim tid => e.releaseClaim tid

end Engine

end SiphonSigtran.Tcap
