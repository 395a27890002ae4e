import SiphonSigtran.Routing.ContentRules
import SiphonSigtran.Tcap.Message
import SiphonSigtran.Transport.Bridge

/-!
# What the node reads of the application

The TCAP message in an SCCP message that is relayed, and of the arguments of its operations the
subscriber they are about. The readers of TCAP and of the arguments are parameters: for TCAP the
message, or what is known of one that cannot be read, and for an argument the octets of the
identity in it. An operation code is its value.
-/

namespace SiphonSigtran.Routing

open Tcap (Bytes Tid Begin Continue Component Invoke OperationCode)
open Transport (SccpMessage SccpGt isSegment)

/-! ## TCAP -/

structure Unidirectional where
  dialoguePortion : Option Bytes
  deriving DecidableEq, Repr

inductive TcapMessage
  | begins (message : Begin)
  | continues (message : Continue)
  | ends (message : Tcap.End)
  | aborts (message : Tcap.Abort)
  | unidirectional (message : Unidirectional)
  deriving DecidableEq, Repr

inductive MessageType
  | begins
  | continues
  | ends
  | aborts
  | unidirectional
  deriving DecidableEq, Repr

/-- What could be read of a message that is damaged. -/
structure DecodeProblem where
  messageType : Option MessageType
  otid : Option Tid
  deriving DecidableEq, Repr

inductive Decoded
  | complete (message : TcapMessage)
  | problem (problem : DecodeProblem)
  deriving DecidableEq, Repr

inductive DialoguePdu
  | aarq (applicationContextName : List ℕ)
  | audt (applicationContextName : List ℕ)
  | other
  deriving DecidableEq, Repr

structure TcapCodec where
  decodeDetailed : Bytes → Decoded
  encode : TcapMessage → Bytes
  /-- `none` for a dialogue portion that cannot be read, or of another dialogue. -/
  dialoguePdu : Bytes → Option DialoguePdu

/-- The digits of a global title. -/
def digitsOf : SccpGt → Option String
  | .noTitle => none
  | .gt0001 _ _ digits | .gt0010 _ digits | .gt0011 _ _ _ digits | .gt0100 _ _ _ _ digits =>
    some digits

/-! ## Operations and their arguments -/

namespace OpCode

def initialDp : ℤ := 0
def updateLocation : ℤ := 2
def cancelLocation : ℤ := 3
def insertSubscriberData : ℤ := 7
def connect : ℤ := 20
def mtForwardSm : ℤ := 44
def sendRoutingInfoForSm : ℤ := 45
def moForwardSm : ℤ := 46
def reportSmDeliveryStatus : ℤ := 47
def sendAuthenticationInfo : ℤ := 56
def readyForSm : ℤ := 66
def purgeMs : ℤ := 67
def provideSubscriberInfo : ℤ := 70

end OpCode

/-- The operation with a code that rules can name. -/
def Operation.fromOpCode (code : ℤ) : Option Operation :=
  if code = OpCode.sendRoutingInfoForSm then some .sriSm
  else if code = OpCode.moForwardSm then some .moForwardSm
  else if code = OpCode.mtForwardSm then some .mtForwardSm
  else if code = OpCode.updateLocation then some .updateLocation
  else if code = OpCode.cancelLocation then some .cancelLocation
  else if code = OpCode.sendAuthenticationInfo then some .sendAuthInfo
  else if code = OpCode.insertSubscriberData then some .insertSubscriberData
  else if code = OpCode.provideSubscriberInfo then some .provideSubscriberInfo
  else if code = OpCode.initialDp then some .initialDp
  else if code = OpCode.connect then some .connect
  else none

inductive Identity
  | imsi (imsi : Bytes)
  | imsiWithLmsi (imsi : Bytes)
  deriving DecidableEq, Repr

/-- The arguments of the operations, by what is read of them. `none` is one that does not decode. -/
structure MapCodec where
  updateLocation : Bytes → Option Bytes
  cancelLocation : Bytes → Option Identity
  purgeMs : Bytes → Option Bytes
  sendAuthenticationInfo : Bytes → Option Bytes
  readyForSm : Bytes → Option Bytes
  provideSubscriberInfo : Bytes → Option Bytes
  moForwardSm : Bytes → Option (Option Bytes)
  routingInfoForSm : Bytes → Option Bytes
  reportSmDeliveryStatus : Bytes → Option Bytes

/-- A decimal digit. -/
def digitChar (n : UInt8) : Char := Char.ofNat (0x30 + n.toNat)

/-- The digits of octets that hold two each, the low one first, up to the first that is none. -/
def tbcdSlice : Bytes → Digits
  | [] => []
  | b :: bytes =>
    let lo := b &&& 0x0F
    let hi := b >>> 4
    if lo > 9 then []
    else if hi > 9 then [digitChar lo]
    else digitChar lo :: digitChar hi :: tbcdSlice bytes

/-- The digits of an address, which begins with an octet of its own. -/
def addrDigits : Bytes → Digits
  | [] => []
  | _ :: rest => tbcdSlice rest

/-- The identity that cannot be read of an argument. -/
inductive Unreadable
  | imsi
  | msisdn
  deriving DecidableEq, Repr

/-- Read an argument, which may be missing. -/
def readArgument {α : Type} (decode : Bytes → Option α) (what : Unreadable) (arg : Option Bytes) :
    Except Unreadable α :=
  match arg.bind decode with
  | some value => .ok value
  | none => .error what

/-- The IMSI and the MSISDN in the argument of an operation. -/
def subscriberIdentity (codec : MapCodec) (opCode : ℤ) (arg : Option Bytes) :
    Except Unreadable (Option Digits × Option Digits) :=
  let imsi (decode : Bytes → Option Bytes) :=
    (readArgument decode .imsi arg).map fun octets => (some (tbcdSlice octets), none)
  let msisdn (decode : Bytes → Option Bytes) :=
    (readArgument decode .msisdn arg).map fun octets => (none, some (addrDigits octets))
  if opCode = OpCode.updateLocation then imsi codec.updateLocation
  else if opCode = OpCode.cancelLocation then
    (readArgument codec.cancelLocation .imsi arg).map fun
      | .imsi octets => (some (tbcdSlice octets), none)
      | .imsiWithLmsi octets => (some (tbcdSlice octets), none)
  else if opCode = OpCode.purgeMs then imsi codec.purgeMs
  else if opCode = OpCode.sendAuthenticationInfo then imsi codec.sendAuthenticationInfo
  else if opCode = OpCode.readyForSm then imsi codec.readyForSm
  else if opCode = OpCode.provideSubscriberInfo then imsi codec.provideSubscriberInfo
  else if opCode = OpCode.moForwardSm then
    (readArgument codec.moForwardSm .imsi arg).map fun octets => (octets.map tbcdSlice, none)
  else if opCode = OpCode.sendRoutingInfoForSm then msisdn codec.routingInfoForSm
  else if opCode = OpCode.reportSmDeliveryStatus then msisdn codec.reportSmDeliveryStatus
  else .ok (none, none)

/-! ## Screening -/

/-- What the content layer can tell of a message. The MSISDN is no rule's. -/
inductive Screening
  | view (view : MapView) (msisdn : Option Digits)
  | notApplicable
  | undecodable
  | segmented

/-- The local operation of an Invoke and its argument. -/
def localInvoke : Component → Option (ℤ × Option Bytes)
  | .invoke inv =>
    match inv.operationCode with
    | .localCode op => some (op, inv.parameter)
    | .globalCode _ => none
  | _ => none

/-- The first Invoke of a local operation among components. -/
def firstOf (components : Option (List Component)) : Option (ℤ × Option Bytes) :=
  (components.getD []).findSome? localInvoke

/-- The first Invoke of a local operation in a message, or that the message cannot be decoded. -/
def firstInvoke (codec : TcapCodec) (data : Bytes) : Except Unit (Option (ℤ × Option Bytes)) :=
  match codec.decodeDetailed data with
  | .complete (.begins b) => .ok (firstOf b.components)
  | .complete (.continues c) => .ok (firstOf c.components)
  | .complete _ => .ok none
  | .problem problem =>
    match problem.messageType with
    | some .begins | some .continues => .error ()
    | _ => .ok none

/-- The view of an Invoke in a message, and its MSISDN. -/
def viewOf (codec : MapCodec) (sccp : SccpMessage) (invoke : ℤ × Option Bytes) :
    MapView × Option Digits :=
  let title (gt : SccpGt) : Option Digits := (digitsOf gt).map String.toList
  let view (imsi : Option Digits) (unreadable : Bool) : MapView :=
    ⟨Operation.fromOpCode invoke.1, title sccp.callingParty.globalTitle,
      title sccp.calledParty.globalTitle, imsi, unreadable⟩
  match subscriberIdentity codec invoke.1 invoke.2 with
  | .ok (imsi, msisdn) => (view imsi false, msisdn)
  | .error unreadable => (view none (unreadable = .imsi), none)

/-- What the content rules are put to of a message. -/
def screen (tcap : TcapCodec) (map : MapCodec) (sccp : SccpMessage) : Screening :=
  if isSegment sccp then .segmented
  else match firstInvoke tcap sccp.data with
    | .ok (some invoke) => .view (viewOf map sccp invoke).1 (viewOf map sccp invoke).2
    | .ok none => .notApplicable
    | .error _ => .undecodable

/-- An inbound message after the content layer looked at what it carries. -/
def Inbound.screened (inbound : Inbound) : Screening → Inbound
  | .view view _ => { inbound with view := some view }
  | .undecodable => { inbound with contentUndecodable := true }
  | .segmented | .notApplicable => inbound

end SiphonSigtran.Routing
