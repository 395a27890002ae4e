import Mathlib.Data.Int.Notation
import Mathlib.Data.Nat.Notation

/-!
# What the dialogue engine reads and sends

TCAP messages, the SCCP unitdata that carry them and the MSU around those, as the
codecs give them. The codecs themselves are not part of the repository and are the
fields of a structure. Instants and durations are in nanoseconds.
-/

namespace SiphonSigtran.Tcap

abbrev Bytes := List UInt8

/-- A transaction id, 1 to 4 octets. -/
abbrev Tid := Bytes

/-- An invoke id, -128 to 127. -/
abbrev InvokeId := ℤ

inductive OperationClass
  | one
  | two
  | three
  | four
  deriving DecidableEq, Repr

namespace OperationClass

/-- Whether the performer reports success (a ReturnResult is a valid reply). -/
def reportsSuccess : OperationClass → Bool
  | .one | .three => true
  | _ => false

/-- Whether the performer reports failure (a ReturnError is a valid reply). -/
def reportsFailure : OperationClass → Bool
  | .one | .two => true
  | _ => false

end OperationClass

/-! ## Components -/

inductive OperationCode
  | localCode (value : ℤ)
  | globalCode (arcs : List ℕ)
  deriving DecidableEq, Repr

inductive ErrorCode
  | localCode (value : ℤ)
  | globalCode (arcs : List ℕ)
  deriving DecidableEq, Repr

/-- The problems this layer reports by name, and any other that a peer names. -/
inductive InvokeProblem
  | unrecognizedLinkedId
  | other (code : ℕ)
  deriving DecidableEq, Repr

inductive ReturnResultProblem
  | unrecognizedInvokeId
  | returnResultUnexpected
  | other (code : ℕ)
  deriving DecidableEq, Repr

inductive ReturnErrorProblem
  | unrecognizedInvokeId
  | returnErrorUnexpected
  | other (code : ℕ)
  deriving DecidableEq, Repr

inductive Problem
  | general (code : ℕ)
  | invoke (problem : InvokeProblem)
  | returnResult (problem : ReturnResultProblem)
  | returnError (problem : ReturnErrorProblem)
  deriving DecidableEq, Repr

structure Invoke where
  invokeId : InvokeId
  linkedId : Option InvokeId
  operationCode : OperationCode
  parameter : Option Bytes
  deriving DecidableEq, Repr

structure ReturnResultValue where
  operationCode : OperationCode
  parameter : Option Bytes
  deriving DecidableEq, Repr

structure ReturnResult where
  invokeId : InvokeId
  result : Option ReturnResultValue
  deriving DecidableEq, Repr

structure ReturnError where
  invokeId : InvokeId
  errorCode : ErrorCode
  parameter : Option Bytes
  deriving DecidableEq, Repr

structure Reject where
  invokeId : Option InvokeId
  problem : Problem
  deriving DecidableEq, Repr

inductive Component
  | invoke (invoke : Invoke)
  | returnResultLast (result : ReturnResult)
  | returnResultNotLast (result : ReturnResult)
  | returnError (error : ReturnError)
  | reject (reject : Reject)
  deriving DecidableEq, Repr

/-! ## Messages -/

inductive AbortSource
  | dialogueServiceUser
  | dialogueServiceProvider
  deriving DecidableEq, Repr

/-- What a refusing AARE gives as its reason. -/
inductive AssociateSourceDiagnostic
  | providerNoCommonDialoguePortion
  | userApplicationContextNameNotSupported
  | dialogueServiceProvider (code : ℕ)
  | dialogueServiceUser (code : ℕ)
  deriving DecidableEq, Repr

inductive DialoguePdu
  | aarq (version1 : Bool) (applicationContextName : List ℕ)
  | aare (resultSourceDiagnostic : AssociateSourceDiagnostic)
  | abrt (abortSource : AbortSource)
  deriving DecidableEq, Repr

inductive PAbortCause
  | unrecognizedTransactionId
  | resourceLimitation
  | other (code : ℕ)
  deriving DecidableEq, Repr

/-- A dialogue portion is the octets of it. -/
inductive AbortReason
  | pAbort (cause : PAbortCause)
  | uAbort (information : Bytes)
  deriving DecidableEq, Repr

structure Begin where
  otid : Tid
  dialoguePortion : Option Bytes
  components : Option (List Component)
  deriving DecidableEq, Repr

structure Continue where
  otid : Tid
  dtid : Tid
  dialoguePortion : Option Bytes
  components : Option (List Component)
  deriving DecidableEq, Repr

structure End where
  dtid : Tid
  dialoguePortion : Option Bytes
  components : Option (List Component)
  deriving DecidableEq, Repr

structure Abort where
  dtid : Tid
  reason : Option AbortReason
  deriving DecidableEq, Repr

def Abort.pAbort (dtid : Tid) (cause : PAbortCause) : Abort := ⟨dtid, some (.pAbort cause)⟩

def Abort.uAbort (dtid : Tid) (information : Option Bytes) : Abort :=
  ⟨dtid, information.map .uAbort⟩

inductive TcapMessage
  | begins (message : Begin)
  | continues (message : Continue)
  | ends (message : End)
  | aborts (message : Abort)
  | unidirectional
  deriving DecidableEq, Repr

/-- The destination transaction a message names. -/
def TcapMessage.dtid : TcapMessage → Option Tid
  | .continues message => some message.dtid
  | .ends message => some message.dtid
  | .aborts message => some message.dtid
  | .begins _ | .unidirectional => none

/-- Where a message is damaged. -/
inductive Fault
  | component (invokeId : Option InvokeId) (problem : ℕ)
  | transactionPortion (cause : PAbortCause)
  | dialoguePortion
  deriving DecidableEq, Repr

/-- What could be read of a damaged message, with the Reject and the Abort that answer it. -/
structure DecodeProblem where
  fault : Fault
  understood : Option TcapMessage
  dtid : Option Tid
  reject : Option Reject
  abort : Option Abort
  deriving DecidableEq, Repr

inductive Decoded
  | complete (message : TcapMessage)
  | problem (problem : DecodeProblem)
  deriving DecidableEq, Repr

/-! ## Unitdata -/

structure SccpAddress where
  routeOnSsn : Bool
  ssn : Option ℕ
  digits : Option String
  deriving DecidableEq, Repr

structure UnitData where
  calledParty : SccpAddress
  callingParty : SccpAddress
  data : Bytes
  deriving DecidableEq, Repr

structure ExtendedUnitData where
  calledParty : SccpAddress
  callingParty : SccpAddress
  data : Bytes
  hopCounter : ℕ
  messageHandling : ℕ
  optionalPart : Bytes
  deriving DecidableEq, Repr

inductive SccpMessage
  | udt (message : UnitData)
  | xudt (message : ExtendedUnitData)
  | other (name : String)
  deriving DecidableEq, Repr

structure Msu where
  opc : ℕ
  dpc : ℕ
  si : ℕ
  ni : ℕ
  mp : ℕ
  sls : ℕ
  payload : Bytes
  deriving DecidableEq, Repr

/-- The service indicator of SCCP. -/
def siSccp : ℕ := 3

/-- The message handling that asks for a return on error. -/
def sccpReturnOnError : ℕ := 8

/-- Whether the segmentation parameter among optional parameters is of one of several
segments. `fuel` bounds the parameters. -/
def segmented : ℕ → Bytes → Bool
  | fuel + 1, name :: len :: tail =>
    if name = 0 ∨ tail.length < len.toNat then false
    else if name = 0x10 then
      match tail.head? with
      | some first => !((first &&& 0x80 ≠ 0) && (first &&& 0x0F = 0))
      | none => true
    else segmented fuel (tail.drop len.toNat)
  | _, _ => false

/-- Whether a message is a segment of a segmented one. -/
def isSegment : SccpMessage → Bool
  | .xudt message => segmented message.optionalPart.length message.optionalPart
  | _ => false

/-- The codecs of TCAP and SCCP. An encoder gives the error's text where it fails. A dialogue
portion cannot be built for an application context that is no object identifier. -/
structure Codec where
  decodeSccp : Bytes → Option SccpMessage
  encodeUdt : SccpAddress → SccpAddress → Bytes → Except String Bytes
  encodeXudt : SccpAddress → SccpAddress → Bytes → Except String Bytes
  /-- An XUDTS with the cause "hop counter violation". -/
  encodeXudts : SccpAddress → SccpAddress → Bytes → Option Bytes
  decode : Bytes → Option TcapMessage
  decodeDetailed : Bytes → Decoded
  encode : TcapMessage → Except String Bytes
  /-- `none` for a dialogue portion that cannot be read. -/
  dialoguePdu : Bytes → Option (Option DialoguePdu)
  aarq : List ℕ → Option Bytes
  aareAccept : List ℕ → Option Bytes
  abrt : AbortSource → Bytes
  noCommonDialoguePortion : List ℕ → Bytes
  abnormalDialogue : Bytes

end SiphonSigtran.Tcap
