import SiphonSigtran.Tcap.Message

/-!
# A dialogue

What one dialogue knows, what its handler can do with it, and what is made of the
components that the peer sends in it. A handler is a list of calls: whatever it
decides from, it makes some list of them.
-/

namespace SiphonSigtran.Tcap

inductive Role
  | responder
  | initiator
  deriving DecidableEq, Repr

inductive DialogueError
  | closed
  | noInvokeId
  | noPeerTransaction
  | nothingSent
  | encode (text : String)
  | sccp (text : String)
  deriving DecidableEq, Repr

/-! ## What a handler is told -/

inductive PeerComponent
  | invoke (invokeId : InvokeId) (operationCode : ℤ) (argument : Option Bytes)
  | result (invokeId : InvokeId) (operationCode : Option ℤ) (parameter : Option Bytes)
  | error (invokeId : InvokeId) (errorCode : ℤ)
  | reject (invokeId : Option InvokeId) (problem : Problem)
  | localReject (invokeId : Option InvokeId) (problem : Problem)
  deriving DecidableEq, Repr

/-- The opening operation of a dialogue that the peer began. -/
structure IncomingOp where
  operationCode : ℤ
  invokeId : InvokeId
  argument : Option Bytes
  applicationContext : Option (List ℕ)
  calledSsn : ℕ
  callingGt : Option String
  calledGt : Option String
  further : List PeerComponent
  deriving DecidableEq, Repr

structure PeerTurn where
  isEnd : Bool
  components : List PeerComponent
  deriving DecidableEq, Repr

structure InvokeTimeout where
  invokeId : InvokeId
  operationCode : ℤ
  opClass : OperationClass
  deriving DecidableEq, Repr

inductive UserAbort
  | noInformation
  | dialogueServiceUser
  | applicationContextNotSupported
  | dialogueRefused
  | userDefined
  deriving DecidableEq, Repr

inductive PeerAbort
  | provider (cause : PAbortCause)
  | abnormalDialogue
  | noCommonDialoguePortion
  | user (abort : UserAbort)
  deriving DecidableEq, Repr

inductive CloseReason
  | ended
  | peerEnded
  | aborted
  | peerAbort (abort : PeerAbort)
  | providerAbort (cause : PAbortCause) (sent : Bool)
  | abnormalDialogue (sent : Bool)
  | invokeTimeout (invokeId : InvokeId) (operationCode : ℤ)
  | idleTimeout
  | noAnswer
  | notSent
  deriving DecidableEq, Repr

structure DialogueClosed where
  otid : Tid
  dtid : Tid
  role : Role
  reason : CloseReason
  deriving DecidableEq, Repr

/-! ## The dialogue -/

inductive UnitdataForm
  | udt
  | xudt
  deriving DecidableEq, Repr

structure Addressing where
  outCalled : SccpAddress
  outCalling : SccpAddress
  opc : ℕ
  dpc : ℕ
  ni : ℕ
  sls : ℕ
  form : UnitdataForm
  deriving DecidableEq, Repr

/-- The addressing of the answer to an inbound unitdata. -/
def Addressing.reverse (udt : UnitData) (inbound : Msu) (form : UnitdataForm) : Addressing where
  outCalled := udt.callingParty
  outCalling := udt.calledParty
  opc := inbound.dpc
  dpc := inbound.opc
  ni := inbound.ni
  sls := inbound.sls
  form := form

/-- One of our invokes. Its timer runs once it has been passed on. -/
structure Outstanding where
  id : InvokeId
  op : ℤ
  opClass : OperationClass
  timeout : ℕ
  deadline : Option ℕ
  deriving DecidableEq, Repr

/-- `config::Tcap`. -/
structure Config where
  invokeTimerMs : ℕ
  dialogueTimerMs : ℕ
  maxDialogues : ℕ
  deriving DecidableEq, Repr

def fromMillis (ms : ℕ) : ℕ := ms * 1000000

/-- A dialogue. Which allocation gave it its transaction id is for the proofs only. -/
structure Dialogue where
  serial : ℕ
  role : Role
  ourTid : Tid
  peerTid : Tid
  ac : List ℕ
  replyInvokeId : InvokeId
  nextInvokeId : InvokeId
  firstFlushDone : Bool
  aarePending : Bool
  closed : Option CloseReason
  addressing : Addressing
  pending : List Component
  staged : List Outstanding
  outstanding : List Outstanding
  rejects : List Reject
  out : List Msu
  sendError : Option DialogueError
  defaultInvokeTimeout : ℕ
  idleTimeout : Option ℕ
  deriving DecidableEq, Repr

/-- What happens with a dialogue, as its handler and the gauge of open dialogues see it. -/
inductive Event
  | begins (op : IncomingOp)
  | starts
  | continues (turn : PeerTurn)
  | timesOut (timeout : InvokeTimeout) (now : ℕ)
  | closes (closed : DialogueClosed)
  | handed (id : InvokeId)
  | flushed (invokes : List Outstanding)
  | stored (tid : Tid)
  | taken (tid : Tid)
  deriving DecidableEq, Repr

/-- Wrap one TCAP message in an SCCP UDT or XUDT and a routing label. -/
def wrapMsu (c : Codec) (message : TcapMessage) (a : Addressing) : Except DialogueError Msu :=
  match c.encode message with
  | .error text => .error (.encode text)
  | .ok bytes =>
    let sccp := match a.form with
      | .udt => c.encodeUdt a.outCalled a.outCalling bytes
      | .xudt => c.encodeXudt a.outCalled a.outCalling bytes
    match sccp with
    | .error text => .error (.sccp text)
    | .ok payload => .ok ⟨a.opc, a.dpc, siSccp, a.ni, 0, a.sls, payload⟩

namespace Dialogue

def new (serial : ℕ) (role : Role) (ourTid peerTid : Tid) (ac : List ℕ)
    (replyInvokeId : InvokeId) (addressing : Addressing) (config : Config) : Dialogue where
  serial := serial
  role := role
  ourTid := ourTid
  peerTid := peerTid
  ac := ac
  replyInvokeId := replyInvokeId
  nextInvokeId := 1
  firstFlushDone := false
  -- An AARE answers an AARQ.
  aarePending := decide (role = .responder) && !ac.isEmpty
  closed := none
  addressing := addressing
  pending := []
  staged := []
  outstanding := []
  rejects := []
  out := []
  sendError := none
  defaultInvokeTimeout := fromMillis config.invokeTimerMs
  idleTimeout :=
    if config.dialogueTimerMs > 0 then some (fromMillis config.dialogueTimerMs) else none

def closedEvent (d : Dialogue) (reason : CloseReason) : DialogueClosed :=
  ⟨d.ourTid, d.peerTid, d.role, reason⟩

/-! ## Staging -/

def inUse (d : Dialogue) (id : InvokeId) : Bool :=
  d.outstanding.any (fun o => o.id = id) || d.staged.any fun o => o.id = id

/-- The invoke ids in the order they are tried: a ring over 0 to 127, then -1 down. -/
def candidates (start : ℤ) : List InvokeId :=
  ((List.range 128).map fun k : ℕ => (start + k) % 128) ++
    (List.range 128).map fun k : ℕ => -((k : ℤ) + 1)

/-- The next invoke id that is not assigned to an operation in progress. -/
def allocateInvokeId (d : Dialogue) : Option InvokeId × Dialogue :=
  match (candidates (max d.nextInvokeId 0)).find? fun id => !d.inUse id with
  | none => (none, d)
  | some id =>
    (some id, if id ≥ 0 then { d with nextInvokeId := (id + 1) % 128 } else d)

def invokeWith (d : Dialogue) (operationCode : ℤ) (argument : Option Bytes)
    (opClass : OperationClass) (timeout : Option ℕ) : Except DialogueError InvokeId × Dialogue :=
  if d.closed.isSome then (.error .closed, d)
  else match d.allocateInvokeId with
    | (none, d) => (.error .noInvokeId, d)
    | (some id, d) =>
      (.ok id, { d with
        pending := d.pending ++ [.invoke ⟨id, none, .localCode operationCode, argument⟩]
        staged := d.staged ++
          [⟨id, operationCode, opClass, timeout.getD d.defaultInvokeTimeout, none⟩] })

def stage (d : Dialogue) (component : Component) : Dialogue :=
  { d with pending := d.pending ++ [component] }

def replyTo (d : Dialogue) (invokeId : InvokeId) (operationCode : ℤ) (result : Option Bytes) :
    Dialogue :=
  d.stage (.returnResultLast
    ⟨invokeId, result.map fun parameter => ⟨.localCode operationCode, some parameter⟩⟩)

def reply (d : Dialogue) (operationCode : ℤ) (result : Option Bytes) : Dialogue :=
  d.replyTo d.replyInvokeId operationCode result

def error (d : Dialogue) (invokeId : InvokeId) (errorCode : ℤ) : Dialogue :=
  d.stage (.returnError ⟨invokeId, .localCode errorCode, none⟩)

def reject (d : Dialogue) (invokeId : Option InvokeId) (problem : Problem) : Dialogue :=
  d.stage (.reject ⟨invokeId, problem⟩)

def discardStaged (d : Dialogue) : Dialogue := { d with pending := [], staged := [] }

def setIdleTimeout (d : Dialogue) (timeout : Option ℕ) : Dialogue :=
  { d with idleTimeout := timeout }

/-! ## Sending -/

/-- The first error of a turn is kept for the engine. -/
def fail (d : Dialogue) (e : DialogueError) : Dialogue :=
  { d with sendError := d.sendError.or (some e) }

/-- Encode a message and queue it for sending. -/
def emit (c : Codec) (d : Dialogue) (message : TcapMessage) :
    Except DialogueError Unit × Dialogue :=
  match wrapMsu c message d.addressing with
  | .ok msu => (.ok (), { d with out := d.out ++ [msu] })
  | .error e => (.error e, d.fail e)

def abortAs (c : Codec) (d : Dialogue) (reason : CloseReason) :
    Except DialogueError Unit × Dialogue :=
  if d.closed.isSome then (.error .closed, d)
  else
    let d := { d with
      pending := []
      staged := []
      outstanding := []
      rejects := []
      closed := some reason }
    if d.peerTid.isEmpty then (.ok (), d)
    else
      let information :=
        if d.ac.isEmpty then none else some (c.abrt .dialogueServiceUser)
      d.emit c (.aborts (.uAbort d.peerTid information))

def abort (c : Codec) (d : Dialogue) : Except DialogueError Unit × Dialogue :=
  d.abortAs c .aborted

/-- The initiator's first flush is its Begin. -/
def opening (d : Dialogue) : Bool := decide (d.role = .initiator) && !d.firstFlushDone

/-- The message that carries what is staged, and the Rejects built here before it. -/
def leg (c : Codec) (d : Dialogue) (closing : Bool) : TcapMessage :=
  let comps := d.rejects.map .reject ++ d.pending
  let components := if comps.isEmpty then none else some comps
  let portion :=
    if d.opening then c.aarq d.ac
    else if d.aarePending then c.aareAccept d.ac
    else none
  if d.opening then .begins ⟨d.ourTid, portion, components⟩
  else if closing then .ends ⟨d.peerTid, portion, components⟩
  else .continues ⟨d.ourTid, d.peerTid, portion, components⟩

/-- The timer of an invoke is started when the invoke is passed on. -/
def started (now : ℕ) (o : Outstanding) : Outstanding :=
  { o with deadline := some (now + o.timeout) }

def flush (c : Codec) (d : Dialogue) (closing : Bool) (now : ℕ) :
    Except DialogueError Unit × Dialogue :=
  if d.closed.isSome then (.error .closed, d)
  else if !d.opening && d.peerTid.isEmpty then
    (.error .noPeerTransaction, d.fail .noPeerTransaction)
  else
    let message := d.leg c closing
    let staged := d.staged
    -- What is staged is gone whether or not the message can be sent.
    match { d with pending := [], staged := [] }.emit c message with
    | (.error e, d) => (.error e, d)
    | (.ok (), d) =>
      let d := { d with rejects := [], aarePending := false, firstFlushDone := true }
      if closing then (.ok (), { d with outstanding := [], closed := some .ended })
      else (.ok (), { d with outstanding := d.outstanding ++ staged.map (started now) })

def send (c : Codec) (d : Dialogue) (now : ℕ) : Except DialogueError Unit × Dialogue :=
  d.flush c false now

/-- No timer is started, so the time of an End does not matter. -/
def sendEnd (c : Codec) (d : Dialogue) : Except DialogueError Unit × Dialogue := d.flush c true 0

end Dialogue

/-! ## What a handler does -/

/-- A call of a handler. The sending ones read the clock. -/
inductive Call
  | invokeWith (operationCode : ℤ) (argument : Option Bytes) (opClass : OperationClass)
      (timeout : Option ℕ)
  | reply (operationCode : ℤ) (result : Option Bytes)
  | replyTo (invokeId : InvokeId) (operationCode : ℤ) (result : Option Bytes)
  | error (invokeId : InvokeId) (errorCode : ℤ)
  | reject (invokeId : Option InvokeId) (problem : Problem)
  | discardStaged
  | setIdleTimeout (timeout : Option ℕ)
  | send (now : ℕ)
  | sendEnd
  | abort
  deriving DecidableEq, Repr

namespace Dialogue

/-- One call: what becomes of the dialogue, and what happens with it. -/
def call (c : Codec) (d : Dialogue) : Call → Dialogue × List Event
  | .invokeWith operationCode argument opClass timeout =>
    match d.invokeWith operationCode argument opClass timeout with
    | (.ok id, d) => (d, [.handed id])
    | (.error _, d) => (d, [])
  | .reply operationCode result => (d.reply operationCode result, [])
  | .replyTo invokeId operationCode result => (d.replyTo invokeId operationCode result, [])
  | .error invokeId errorCode => (d.error invokeId errorCode, [])
  | .reject invokeId problem => (d.reject invokeId problem, [])
  | .discardStaged => (d.discardStaged, [])
  | .setIdleTimeout timeout => (d.setIdleTimeout timeout, [])
  | .send now =>
    match d.send c now with
    | (.ok (), d') => (d', [.flushed (d.staged.map (started now))])
    | (.error _, d') => (d', [])
  | .sendEnd => ((d.sendEnd c).2, [])
  | .abort => ((d.abort c).2, [])

def calls (c : Codec) (d : Dialogue) : List Call → Dialogue × List Event
  | [] => (d, [])
  | call :: rest =>
    let next := d.call c call
    let after := calls c next.1 rest
    (after.1, next.2 ++ after.2)

/-! ## Receiving -/

/-- An invoke returns to idle. -/
def release (d : Dialogue) (id : InvokeId) : Dialogue :=
  { d with outstanding := d.outstanding.eraseP fun o => o.id = id }

/-- A component that is rejected here. After an End there is nothing to send the Reject in. -/
def rejectHere (d : Dialogue) (isEnd : Bool) (reject : Reject) : PeerComponent × Dialogue :=
  (.localReject reject.invokeId reject.problem,
    if isEnd then d else { d with rejects := d.rejects ++ [reject] })

end Dialogue

def OperationCode.localOp : OperationCode → ℤ
  | .localCode value => value
  | .globalCode _ => -1

def ErrorCode.localError : ErrorCode → ℤ
  | .localCode value => value
  | .globalCode _ => -1

namespace Dialogue

/-- A result, of which `last` says whether it is the last one. -/
def receiveResult (d : Dialogue) (isEnd last : Bool) (r : ReturnResult) :
    PeerComponent × Dialogue :=
  match d.outstanding.find? fun o => o.id = r.invokeId with
  | none => d.rejectHere isEnd ⟨some r.invokeId, .returnResult .unrecognizedInvokeId⟩
  | some o =>
    if !o.opClass.reportsSuccess then
      (d.release r.invokeId).rejectHere isEnd
        ⟨some r.invokeId, .returnResult .returnResultUnexpected⟩
    else
      (.result r.invokeId (r.result.map fun v => v.operationCode.localOp)
        (r.result.bind ReturnResultValue.parameter),
        if last then d.release r.invokeId else d)

def receiveError (d : Dialogue) (isEnd : Bool) (e : ReturnError) : PeerComponent × Dialogue :=
  match d.outstanding.find? fun o => o.id = e.invokeId with
  | none => d.rejectHere isEnd ⟨some e.invokeId, .returnError .unrecognizedInvokeId⟩
  | some o =>
    if !o.opClass.reportsFailure then
      (d.release e.invokeId).rejectHere isEnd
        ⟨some e.invokeId, .returnError .returnErrorUnexpected⟩
    else (.error e.invokeId e.errorCode.localError, d.release e.invokeId)

/-- A Reject of one of our invokes ends that operation. -/
def receiveReject (d : Dialogue) (r : Reject) : PeerComponent × Dialogue :=
  (.reject r.invokeId r.problem,
    match r.problem, r.invokeId with
    | .general _, some id | .invoke _, some id =>
      { d with outstanding := d.outstanding.filter fun o => o.id ≠ id }
    | _, _ => d)

def receiveComponent (d : Dialogue) (isEnd : Bool) : Component → PeerComponent × Dialogue
  | .invoke i =>
    if i.linkedId.any fun linked => !d.outstanding.any fun o => o.id = linked then
      d.rejectHere isEnd ⟨some i.invokeId, .invoke .unrecognizedLinkedId⟩
    else (.invoke i.invokeId i.operationCode.localOp i.parameter, d)
  | .returnResultLast r => d.receiveResult isEnd true r
  | .returnResultNotLast r => d.receiveResult isEnd false r
  | .returnError e => d.receiveError isEnd e
  | .reject r => d.receiveReject r

/-- The handler's view of the components of a message, each checked against the state of the
operation it names. -/
def receiveComponents (d : Dialogue) (isEnd : Bool) :
    List Component → List PeerComponent × Dialogue
  | [] => ([], d)
  | component :: rest =>
    let next := d.receiveComponent isEnd component
    let after := receiveComponents next.2 isEnd rest
    (next.1 :: after.1, after.2)

end Dialogue

/-- A component that could not be read. No Reject answers one that was a Reject itself. -/
structure Rejected where
  invokeId : Option InvokeId
  problem : Problem
  reject : Option Reject
  deriving DecidableEq, Repr

namespace Dialogue

/-- Keep the Reject for the next message, and build the indication for the handler. -/
def stageRejected (d : Dialogue) (isEnd : Bool) (r : Rejected) : PeerComponent × Dialogue :=
  (.localReject r.invokeId r.problem,
    match r.reject, isEnd with
    | some reject, false => { d with rejects := d.rejects ++ [reject] }
    | _, _ => d)

/-- The components of a message, with the one after them that could not be read. -/
def receive (d : Dialogue) (isEnd : Bool) (components : List Component)
    (rejected : Option Rejected) : List PeerComponent × Dialogue :=
  let read := d.receiveComponents isEnd components
  match rejected with
  | none => read
  | some r =>
    let last := read.2.stageRejected isEnd r
    (read.1 ++ [last.1], last.2)

end Dialogue

end SiphonSigtran.Tcap
