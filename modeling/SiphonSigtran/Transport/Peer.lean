import SiphonSigtran.Routing.RouteState
import SiphonSigtran.Transport.AspSide
import SiphonSigtran.Transport.Layer
import SiphonSigtran.Transport.Registry
import SiphonSigtran.Transport.Ssnm

/-!
# The task of an M3UA association

Every message that arrives is read, checked and acted on, or refused: counted, and answered with
the Error that says why. T(ack) and T(beat) run beside that.
-/

namespace SiphonSigtran.Transport

/-- The status that a Notify has, if it is one that the layer knows. -/
def Status.code : Status → ℕ × ℕ
  | .asInactive => (1, 2)
  | .asActive => (1, 3)
  | .asPending => (1, 4)
  | .insufficientResources => (2, 1)
  | .alternateAspActive => (2, 2)
  | .aspFailure => (2, 3)

def Status.all : List Status :=
  [.asInactive, .asActive, .asPending, .insufficientResources, .alternateAspActive, .aspFailure]

def Status.fromCode (code : ℕ × ℕ) : Option Status :=
  Status.all.find? fun status => status.code = code

theorem Status.fromCode_code (status : Status) : Status.fromCode status.code = some status := by
  cases status <;> rfl

namespace Peer

open Routing (Destination Mtp3Event)

/-! ## Messages -/

inductive MessageType
  | error
  | notify
  | data
  | duna
  | dava
  | daud
  | scon
  | dupu
  | drst
  | aspUp
  | aspDown
  | heartbeat
  | aspUpAck
  | aspDownAck
  | heartbeatAck
  | aspActive
  | aspInactive
  | aspActiveAck
  | aspInactiveAck
  | regReq
  | regRsp
  | deregReq
  | deregRsp
  deriving DecidableEq, Repr

/-- Why the codec does not read a message. -/
inductive M3uaError
  | invalidVersion
  | invalidMessageClass
  | invalidMessageType (messageClass : ℕ)
  | invalidParameter
  | parameterTooShort
  | missingParameter
  | tooShort
  deriving DecidableEq, Repr

structure ProtocolData where
  opc : ℕ
  dpc : ℕ
  si : ℕ
  ni : ℕ
  mp : ℕ
  sls : ℕ
  userData : List UInt8
  deriving DecidableEq, Repr

/-- What the codec reads in a message: its parameters, and the octets of those that are lists. -/
structure M3uaMessage where
  messageType : MessageType
  routingContext : Option ℕ
  routingContextOctets : Option ℕ
  routingContexts : List ℕ
  affectedPointCodeOctets : Option ℕ
  affectedDestinations : List (ℕ × ℕ)
  aspIdentifier : Option ℕ
  trafficModeType : Option ℕ
  status : Option (ℕ × ℕ)
  heartbeatData : Option (List UInt8)
  userCause : Option (ℕ × ℕ)
  congestionLevel : Option ℕ
  concernedDestination : Option ℕ
  protocolData : Except M3uaError ProtocolData

/-- The codec and the point codes of the network. `declared` is the Message Length of the common
header, and `tfc` encodes a transfer-controlled. -/
structure Crate where
  decode : List UInt8 → Except M3uaError M3uaMessage
  declared : List UInt8 → ℕ
  isClass : ℕ → Bool
  valid : ℕ → Bool
  tfc : ℕ → ℕ → Option (List UInt8)

/-- The octets of a common header. -/
def headerSize : ℕ := 8

/-- The Error Codes that the task answers with. -/
inductive Code
  | invalidVersion
  | unsupportedMessageClass
  | unsupportedMessageType
  | unexpectedMessage
  | protocolError
  | invalidParameterValue
  | parameterFieldError
  | missingParameter
  | invalidRoutingContext
  deriving DecidableEq, Repr

/-- Why a message that arrived was dropped. -/
inductive RxDiscard
  | ppid
  | undecodable
  | outOfState
  | noPayload
  | routingContext
  | unexpected
  | parameter
  | management
  deriving DecidableEq, Repr

/-- A message that the task sends on its association. -/
inductive Sent
  | error (code : Code) (contexts : List ℕ) (diagnostic : Option (List UInt8))
  | heartbeat (data : List UInt8)
  | heartbeatAck (data : Option (List UInt8))
  | availability (what : Told) (context : Option ℕ) (dpcs : List ℕ)
  | aspUp (identifier : Option ℕ)
  | aspActive (mode context : ℕ)
  deriving DecidableEq, Repr

/-- What is noticed on the way. -/
inductive Noted
  | beatTimeout
  | beatMismatch
  | ackTimeout
  | dataOnStream0
  deriving DecidableEq, Repr

inductive Act
  | discard (reason : RxDiscard)
  | count (type : MessageType)
  | send (message : Sent)
  | event (noted : Noted)
  | submit (input : Input)
  | dispatch (msu : Msu)
  | apply (event : Mtp3Event)
  | paused (dpc : ℕ) (on : Bool)
  | sendVia (via : Destination) (msu : Msu)
  | noPath
  | abort
  | clearSender
  | recompute
  deriving DecidableEq, Repr

/-- What the task finds in the registry and in the routing tables. -/
structure Sight where
  isSender : Bool
  admits : Option ℕ → Admission
  destinations : List ℕ
  egressFor : ℕ → Option Destination
  isRestricted : ℕ → Bool
  isRestarting : Bool
  nodePointCode : ℕ
  networkIndicator : ℕ

/-- An association, as it is configured. The far end is the ASP of a `gateway`. -/
structure Conf where
  slot : AspSide.Slot
  gateway : Bool
  beatMs : ℕ

/-- What the task keeps: whether something arrived since the last Heartbeat, the intervals in a row
in which nothing did, and the Heartbeat Data last sent. -/
structure State where
  heard : Bool
  silent : ℕ
  beat : ℕ
  asking : AspSide.Asking
  deriving DecidableEq, Repr

def State.new : State := ⟨false, 0, 0, ⟨false, [], none⟩⟩

inductive Next
  | continue
  | superseded
  deriving DecidableEq, Repr

/-! ## Refusing -/

/-- Octets of an offending message that go into an Error. -/
def diagnosticOctets : ℕ := 40

def diagnostic (offending : List UInt8) : Option (List UInt8) :=
  if offending = [] then none else some (offending.take diagnosticOctets)

/-- Answer a message with an Error and count it as dropped. -/
def refuse (code : Option Code) (contexts : List ℕ) (offending : List UInt8)
    (reason : RxDiscard) : List Act :=
  .discard reason ::
    (code.map fun code => .send (.error code contexts (diagnostic offending))).toList

/-! ## Reading -/

section

variable (crate : Crate) (c : Conf) (sight : Sight)

/-- The Error that says why a message cannot be read. -/
def unreadable : M3uaError → Code
  | .invalidVersion => .invalidVersion
  | .invalidMessageClass => .unsupportedMessageClass
  | .invalidMessageType messageClass =>
    if crate.isClass messageClass then .unsupportedMessageType else .unsupportedMessageClass
  | .invalidParameter | .parameterTooShort => .parameterFieldError
  | .missingParameter => .missingParameter
  | .tooShort => .protocolError

/-- Class 0, type 0 is an Error, readable or not. -/
def isError (data : List UInt8) : Bool := (data.drop 2).take 2 = [0, 0]

def read (data : List UInt8) : Except (List Act) M3uaMessage :=
  let refused := fun code =>
    refuse (if isError data then none else some code) [] data .undecodable
  match crate.decode data with
  | .ok message =>
    if headerSize ≤ crate.declared data ∧ crate.declared data ≤ data.length then .ok message
    else .error (refused .protocolError)
  | .error error => .error (refused (unreadable crate error))

/-! ## Both sides -/

/-- A DATA message: admitted, read and routed. -/
def data (message : M3uaMessage) (raw : List UInt8) (stream : ℕ) : List Act :=
  let admission := sight.admits message.routingContext
  if admission = .notActive then
    refuse (if c.gateway then some .unexpectedMessage else none) message.routingContexts raw
      .outOfState
  else match message.protocolData with
    | .error .missingParameter => refuse (some .missingParameter) [] raw .noPayload
    | .error _ => refuse (some .parameterFieldError) [] raw .noPayload
    | .ok payload =>
      if admission = .unconfigured then
        refuse (some .invalidRoutingContext) message.routingContexts raw .routingContext
      else if payload.si = 0 then
        refuse (some .protocolError) message.routingContexts raw .management
      else
        (if stream = 0 then [.event .dataOnStream0] else []) ++
          [.dispatch ⟨payload.opc, payload.dpc, payload.si, payload.ni, payload.mp, payload.sls,
            payload.userData⟩]

/-- The point codes of the routing table that an entry stands for. -/
def range (mask pc : ℕ) : List ℕ :=
  if mask = 0 then [pc]
  else sight.destinations.filter fun dpc => dpc >>> min mask 24 = pc >>> min mask 24

/-- A destination became unavailable or available behind this peer. -/
def pause (on : Bool) (dpc : ℕ) : List Act :=
  if crate.valid dpc then [.apply (if on then .pause dpc else .resume dpc), .paused dpc on] else []

/-- What an ASP that asks is told of a destination: it is unavailable while this node restarts. -/
def destinationStatus (dpc : ℕ) : Told :=
  match sight.egressFor dpc with
  | none => .unavailable
  | some (.linkset _) =>
    if sight.isRestarting then .unavailable
    else if sight.isRestricted dpc then .restricted else .available
  | some (.applicationServer _) => if sight.isRestricted dpc then .restricted else .available

/-- What one entry of a DAUD asks for, with its status. A range that no destination is in is
unavailable, as it was asked. -/
def audited (entry : ℕ × ℕ) : List (ℕ × Told) :=
  if range sight entry.1 entry.2 = [] then [(entry.1 <<< 24 ||| entry.2, .unavailable)]
  else (range sight entry.1 entry.2).map fun dpc => (dpc, destinationStatus sight dpc)

/-- Answer a DAUD. -/
def audit (context : Option ℕ) (affected : List (ℕ × ℕ)) : List Act :=
  [Told.unavailable, .restricted, .available].flatMap fun what =>
    let dpcs := ((affected.flatMap (audited sight)).filter fun a => a.2 = what).map Prod.fst
    (parts dpcs.length dpcs).map fun part => .send (.availability what context part)

/-- The congestion that a SCON of an ASP reports goes on to the point whose traffic it is about. -/
def controlled (message : M3uaMessage) (affected : List (ℕ × ℕ)) (level : ℕ) : List Act :=
  match message.concernedDestination, affected, c.gateway with
  | some concerned, [(0, pc)], true =>
    if crate.valid pc then
      match crate.tfc pc (level % 4) with
      | none => [.noPath]
      | some payload =>
        match sight.egressFor concerned with
        | some via =>
          [.sendVia via ⟨sight.nodePointCode, concerned, 0, sight.networkIndicator, 0, 0, payload⟩]
        | none => [.noPath]
    else []
  | _, _, _ => []

/-- A SCON from the peer. Without the Congestion Indications it still says congested. -/
def congestion (message : M3uaMessage) (affected : List (ℕ × ℕ)) : List Act :=
  let level := message.congestionLevel.getD 1
  ((affected.flatMap fun entry => range sight entry.1 entry.2).filter crate.valid).map
      (fun dpc => .apply (.congested dpc level)) ++
    controlled crate c sight message affected level

/-- The first Routing Context that is not one of an active ASP decides. -/
def ssnmAdmission (contexts : List ℕ) : Admission :=
  if contexts = [] then sight.admits none
  else ((contexts.map fun context => sight.admits (some context)).find? (· ≠ .active)).getD .active

/-- A DUPU has one destination and no mask. -/
def userPart (message : M3uaMessage) (raw : List UInt8) (entry : ℕ × ℕ) : List Act :=
  match message.userCause with
  | some (cause, user) =>
    if entry.1 ≠ 0 then
      refuse (some .invalidParameterValue) message.routingContexts raw .parameter
    else if crate.valid entry.2 then
      [.apply (.userPartUnavailable entry.2 (user % 256) (cause % 256))]
    else []
  | none =>
    refuse (some (if entry.1 ≠ 0 then .invalidParameterValue else .missingParameter))
      message.routingContexts raw .parameter

/-- A message of signalling network management. -/
def networkManagement (message : M3uaMessage) (raw : List UInt8) : List Act :=
  let contexts := message.routingContexts
  match ssnmAdmission sight contexts with
  | .notActive =>
    refuse (if c.gateway then some .unexpectedMessage else none) contexts raw .outOfState
  | .unconfigured =>
    refuse (some .invalidRoutingContext)
      (contexts.filter fun context => context ∉ c.slot.configured) raw .routingContext
  | .active =>
    match message.affectedDestinations with
    | [] => refuse (some .missingParameter) contexts raw .parameter
    | first :: rest =>
      let affected := first :: rest
      if affected.any fun entry => !crate.valid entry.2 then
        refuse (some .invalidParameterValue) contexts raw .parameter
      else match message.messageType with
        | .duna =>
          affected.flatMap fun entry => (range sight entry.1 entry.2).flatMap (pause crate true)
        | .dava | .drst =>
          affected.flatMap fun entry => (range sight entry.1 entry.2).flatMap (pause crate false)
        | .daud => audit sight message.routingContext affected
        | .scon => congestion crate c sight message affected
        | .dupu =>
          if c.gateway then refuse (some .unexpectedMessage) contexts raw .unexpected
          else userPart crate message raw first
        | _ => []

/-! ## The gateway -/

/-- A message of an ASP about its state or its traffic. -/
def aspAsked (message : M3uaMessage) (raw : List UInt8) : List Act :=
  let asp := c.slot.asp
  let contexts := message.routingContextOctets.map fun _ => message.routingContexts
  match message.messageType with
  | .aspUp => [.submit (.up asp message.aspIdentifier)]
  | .aspDown => [.submit (.down asp)]
  | .aspActive => [.submit (.active asp message.trafficModeType contexts)]
  | .aspInactive => [.submit (.inactive asp contexts)]
  | _ => refuse (some .unexpectedMessage) message.routingContexts raw .unexpected

/-! ## The ASP -/

/-- What the ASP side does, on the association. -/
def actsOf (raw : List UInt8) : AspSide.Act → List Act
  | .aspUp identifier => [.send (.aspUp identifier)]
  | .aspActive mode context => [.send (.aspActive mode context)]
  | .missingParameter => refuse (some .missingParameter) [] raw .parameter
  | .unexpected named => refuse (some .unexpectedMessage) named raw .unexpected
  | .submit input => [.submit input]
  | .ackTimeout => [.event .ackTimeout]

/-- A message as the ASP side takes it. -/
def said (message : M3uaMessage) : AspSide.Said :=
  let named := message.routingContexts
  match message.messageType with
  | .aspUpAck => .upAck named
  | .aspActiveAck => .activeAck named
  | .aspInactiveAck => .inactiveAck named
  | .aspDownAck => .downAck named
  | .notify => .notify (message.status.map Status.fromCode) named
  | _ => .request named

def gatewaySaid (message : M3uaMessage) (raw : List UInt8) (now : ℕ) (asking : AspSide.Asking) :
    AspSide.Asking × List Act :=
  let about := c.slot.about message.routingContexts
  let active := fun position =>
    decide (sight.admits (some (about.getD position 0)) = .active)
  let (asking, out) := c.slot.gatewaySaid (said message) active now asking
  (asking, out.flatMap (actsOf raw))

/-! ## What arrives -/

/-- A list parameter that is not a whole number of entries. -/
def wrongLength (message : M3uaMessage) : Bool :=
  [message.routingContextOctets, message.affectedPointCodeOctets].any fun octets =>
    octets.any fun n => n = 0 || n % 4 ≠ 0

/-- The Heartbeat Data of a Heartbeat. -/
def beatOctets (beat : ℕ) : List UInt8 :=
  (List.range 8).map fun i => UInt8.ofNat (beat >>> (8 * (7 - i)))

def received (now : ℕ) (raw : List UInt8) (stream : ℕ) (s : State) : State × Next × List Act :=
  match read crate raw with
  | .error acts => (s, .continue, acts)
  | .ok message =>
    if message.messageType = .data then (s, .continue, data c sight message raw stream)
    -- Whatever follows changes state that belongs to the association that the slot has now.
    else if sight.isSender = false then (s, .superseded, [])
    else
      let counted := fun acts => (s, Next.continue, Act.count message.messageType :: acts)
      if wrongLength message ∧ message.messageType ≠ .error then
        counted (refuse (some .parameterFieldError) [] raw .parameter)
      else match message.messageType with
        | .heartbeat => counted [.send (.heartbeatAck message.heartbeatData)]
        | .heartbeatAck =>
          counted (if 0 < c.beatMs ∧ message.heartbeatData ≠ some (beatOctets s.beat) then
            [.event .beatMismatch] else [])
        | .error => counted []
        | .duna | .dava | .daud | .scon | .dupu | .drst =>
          counted (networkManagement crate c sight message raw)
        | .regReq | .regRsp | .deregReq | .deregRsp =>
          counted (refuse (some .unsupportedMessageClass) [] raw .unexpected)
        | _ =>
          if c.gateway then counted (aspAsked c message raw)
          else
            let (asking, acts) := gatewaySaid c sight message raw now s.asking
            ({ s with asking }, .continue, .count message.messageType :: acts)

/-! ## The task -/

/-- The payload protocol identifier of M3UA. -/
def ppidM3ua : ℕ := 3

/-- The task serves its association, or found another one in the slot, or the association ended. -/
inductive Task
  | serving (s : State)
  | superseded
  | ended
  deriving DecidableEq, Repr

/-- What wakes the task. -/
inductive Event
  | arrived (sight : Sight) (now ppid stream : ℕ) (raw : List UInt8)
  | ack (now : ℕ)
  | tick (isSender : Bool)
  | closed (isSender : Bool)

/-- T(beat) ran out. `none` when the peer is taken to be unavailable. -/
def beat (s : State) : Option State × List Act :=
  let silent := if s.heard then 0 else s.silent + 1
  if 2 ≤ silent then (none, [.event .beatTimeout, .abort])
  else
    let beat := (s.beat + 1) % 2 ^ 64
    (some { s with heard := false, silent, beat }, [.send (.heartbeat (beatOctets beat))])

/-- The association is gone: the ASP is down, unless another association has the slot by now. -/
def leave (isSender : Bool) : List Act :=
  (if isSender then [.clearSender, .submit (.lost c.slot.asp)] else []) ++ [.recompute]

/-- One turn of the loop. Whatever the payload protocol identifier, only what is M3UA is heard. -/
def step : Task → Event → Task × List Act
  | .serving s, .arrived sight now ppid stream raw =>
    if ppid ≠ ppidM3ua then (.serving s, [.discard .ppid])
    else match received crate c sight now raw stream { s with heard := true } with
      | (s, .continue, acts) => (.serving s, acts)
      | (_, .superseded, acts) => (.superseded, acts)
  | .serving s, .ack now =>
    let (asking, out) := c.slot.handle s.asking (.clock now)
    (.serving { s with asking }, out.flatMap (actsOf []))
  | .serving s, .tick isSender =>
    if c.beatMs = 0 then (.serving s, [])
    else match beat s with
      | (some s, acts) => (.serving s, acts)
      | (none, acts) => (.ended, acts ++ leave c isSender)
  | .serving _, .closed isSender => (.ended, leave c isSender)
  | task, _ => (task, [])

/-- A gateway starts with the ASP down, an ASP by asking its gateway to bring it up. -/
def start (now : ℕ) : State × List Act :=
  if c.gateway then (.new, [.submit (.lost c.slot.asp), .recompute])
  else
    let (asking, out) := c.slot.askUp now
    ({ State.new with asking }, out.flatMap (actsOf []))

end

/-! ## What a message comes to -/

/-- A message is dropped, or an Error says so. -/
def Act.refuses : Act → Bool
  | .discard _ | .send (.error _ _ _) => true
  | _ => false

/-- Something is sent to the peer. -/
def Act.sends : Act → Bool
  | .send _ => true
  | _ => false

/-- These actions refuse nothing. -/
def Silent (acts : List Act) : Prop := ∀ act ∈ acts, act.refuses = false

/-- These actions refuse a message, or nothing. -/
inductive Answers (raw : List UInt8) : List Act → Prop
  | refused (code : Option Code) (contexts : List ℕ) (reason : RxDiscard) :
      Answers raw (refuse code contexts raw reason)
  | taken {acts : List Act} (h : Silent acts) : Answers raw acts

/-- A message is left to another association, or refused, and then nothing of the task changes, or
taken, and then nothing is refused and only what this node has asked for changes. -/
inductive Fate (raw : List UInt8) (s : State) : State × Next × List Act → Prop
  | superseded : Fate raw s (s, .superseded, [])
  | refused (counted : Option MessageType) (code : Option Code) (contexts : List ℕ)
      (reason : RxDiscard) : Fate raw s
        (s, .continue, (counted.map Act.count).toList ++ refuse code contexts raw reason)
  | taken (asking : AspSide.Asking) {acts : List Act} (h : Silent acts) :
      Fate raw s ({ s with asking }, .continue, acts)

variable {crate : Crate} {c : Conf} {sight : Sight} {raw : List UInt8} {s : State}

theorem silent_nil : Silent [] := List.forall_mem_nil _

theorem silent_one {act : Act} (h : act.refuses = false) : Silent [act] :=
  List.forall_mem_singleton.mpr h

theorem Silent.cons {act : Act} {acts : List Act} (hact : act.refuses = false) (h : Silent acts) :
    Silent (act :: acts) := List.forall_mem_cons.mpr ⟨hact, h⟩

theorem Silent.append {acts acts' : List Act} (h : Silent acts) (h' : Silent acts') :
    Silent (acts ++ acts') := List.forall_mem_append.mpr ⟨h, h'⟩

theorem silent_flatMap {α : Type*} {f : α → List Act} (xs : List α) (h : ∀ x ∈ xs, Silent (f x)) :
    Silent (xs.flatMap f) := List.forall_mem_flatMap.mpr h

theorem silent_map {α : Type*} {f : α → Act} (xs : List α) (h : ∀ x, (f x).refuses = false) :
    Silent (xs.map f) := List.forall_mem_map.mpr fun x _ => h x

/-- A message that was counted comes to what it is answered with. -/
theorem Answers.fate {acts : List Act} (h : Answers raw acts) (s : State) (type : MessageType) :
    Fate raw s (s, .continue, .count type :: acts) := by
  cases h with
  | refused code contexts reason => exact .refused (some type) code contexts reason
  | taken hacts => exact .taken s.asking (hacts.cons rfl)

/-- DATA is not counted among the messages of management. -/
theorem Answers.fate_data {acts : List Act} (h : Answers raw acts) (s : State) :
    Fate raw s (s, .continue, acts) := by
  cases h with
  | refused code contexts reason => exact .refused none code contexts reason
  | taken hacts => exact .taken s.asking hacts

theorem data_answers (message : M3uaMessage) (stream : ℕ) :
    Answers raw (data c sight message raw stream) := by
  unfold data
  dsimp only
  by_cases hactive : sight.admits message.routingContext = .notActive
  · rw [if_pos hactive]
    exact .refused _ _ _
  · rw [if_neg hactive]
    split
    · exact .refused _ _ _
    · exact .refused _ _ _
    · split_ifs
      · exact .refused _ _ _
      · exact .refused _ _ _
      · exact .taken (.append (by simp [Silent, Act.refuses]) (silent_one rfl))
      · exact .taken (.append silent_nil (silent_one rfl))

theorem silent_pause (on : Bool) (dpc : ℕ) : Silent (pause crate on dpc) := by
  unfold pause
  by_cases hvalid : crate.valid dpc = true
  · rw [if_pos hvalid]
    exact .cons rfl (silent_one rfl)
  · rw [if_neg hvalid]
    exact silent_nil

theorem silent_pauses (on : Bool) (affected : List (ℕ × ℕ)) : Silent (affected.flatMap fun entry =>
    (range sight entry.1 entry.2).flatMap (pause crate on)) :=
  silent_flatMap _ fun _ _ => silent_flatMap _ fun _ _ => silent_pause on _

theorem silent_audit (context : Option ℕ) (affected : List (ℕ × ℕ)) :
    Silent (audit sight context affected) :=
  silent_flatMap _ fun _ _ => silent_map _ fun _ => rfl

theorem silent_congestion (message : M3uaMessage) (affected : List (ℕ × ℕ)) :
    Silent (congestion crate c sight message affected) := by
  refine .append (silent_map _ fun _ => rfl) ?_
  unfold controlled
  split
  · split_ifs
    · split
      · exact silent_one rfl
      · split
        · exact silent_one rfl
        · exact silent_one rfl
    · exact silent_nil
  · exact silent_nil

theorem userPart_answers (message : M3uaMessage) (entry : ℕ × ℕ) :
    Answers raw (userPart crate message raw entry) := by
  unfold userPart
  split
  · split_ifs
    · exact .refused _ _ _
    · exact .taken (silent_one rfl)
    · exact .taken silent_nil
  · exact .refused _ _ _

theorem networkManagement_answers (message : M3uaMessage) :
    Answers raw (networkManagement crate c sight message raw) := by
  unfold networkManagement
  dsimp only
  split
  · exact .refused _ _ _
  · exact .refused _ _ _
  · split
    · exact .refused _ _ _
    · rename_i first rest _
      by_cases hvalid : (first :: rest).any (fun entry => !crate.valid entry.2) = true
      · rw [if_pos hvalid]
        exact .refused _ _ _
      · rw [if_neg hvalid]
        split
        · exact .taken (silent_pauses true _)
        · exact .taken (silent_pauses false _)
        · exact .taken (silent_pauses false _)
        · exact .taken (silent_audit _ _)
        · exact .taken (silent_congestion _ _)
        · split_ifs
          · exact .refused _ _ _
          · exact userPart_answers _ _
        · exact .taken silent_nil

theorem aspAsked_answers (message : M3uaMessage) : Answers raw (aspAsked c message raw) := by
  unfold aspAsked
  dsimp only
  split
  · exact .taken (silent_one rfl)
  · exact .taken (silent_one rfl)
  · exact .taken (silent_one rfl)
  · exact .taken (silent_one rfl)
  · exact .refused _ _ _

/-! ### The ASP side -/

/-- The ASP side asks, and refuses nothing. -/
def Asks (out : List AspSide.Act) : Prop :=
  ∀ act ∈ out, act ≠ .missingParameter ∧ ∀ named, act ≠ .unexpected named

theorem Asks.silent {out : List AspSide.Act} (h : Asks out) :
    Silent (out.flatMap (actsOf raw)) := by
  refine silent_flatMap _ fun act hact => ?_
  obtain ⟨hmissing, hunexpected⟩ := h act hact
  cases act with
  | missingParameter => exact absurd rfl hmissing
  | unexpected named => exact absurd rfl (hunexpected named)
  | _ => exact silent_one rfl

theorem asks_nil : Asks [] := List.forall_mem_nil _

theorem Asks.cons {act : AspSide.Act} {out : List AspSide.Act}
    (hact : act ≠ .missingParameter ∧ ∀ named, act ≠ .unexpected named) (h : Asks out) :
    Asks (act :: out) := List.forall_mem_cons.mpr ⟨hact, h⟩

theorem Asks.append {out out' : List AspSide.Act} (h : Asks out) (h' : Asks out') :
    Asks (out ++ out') := List.forall_mem_append.mpr ⟨h, h'⟩

variable {slot : AspSide.Slot} {now : ℕ}

theorem askActive_asks (a : AspSide.Asking) (context : ℕ) :
    Asks (slot.askActive now a context).2 := by
  unfold AspSide.Slot.askActive
  split
  · exact asks_nil
  · exact asks_nil.cons (by simp)

theorem askEach_asks (a : AspSide.Asking) (contexts : List ℕ) :
    Asks (slot.askEach now a contexts).2 := by
  induction contexts generalizing a with
  | nil => exact asks_nil
  | cons context contexts ih => exact (askActive_asks a context).append (ih _)

theorem resend_asks (a : AspSide.Asking) (contexts : List ℕ) :
    Asks (slot.resend now a contexts).2 := by
  induction contexts generalizing a with
  | nil => exact asks_nil
  | cons context contexts ih =>
    exact ((askActive_asks a context).append (ih _)).cons (by simp)

theorem takeOver_asks (active : ℕ → Bool) (a : AspSide.Asking) (contexts : List ℕ)
    (position : ℕ) : Asks (slot.takeOver active now a contexts position).2 := by
  induction contexts generalizing a position with
  | nil => exact asks_nil
  | cons context contexts ih =>
    unfold AspSide.Slot.takeOver
    split_ifs
    · exact (askActive_asks a context).append (ih _ _)
    · exact ih a _

/-- The ASP side refuses a message, and then asks nothing, or refuses nothing. -/
theorem gatewaySaid_asks (slot : AspSide.Slot) (now : ℕ) (message : AspSide.Said)
    (active : ℕ → Bool) (a : AspSide.Asking) :
    Asks (slot.gatewaySaid message active now a).2 ∨
      slot.gatewaySaid message active now a = (a, [.missingParameter]) ∨
      ∃ named, slot.gatewaySaid message active now a = (a, [.unexpected named]) := by
  cases message with
  | upAck named => exact .inl ((askEach_asks _ _).cons (by simp))
  | activeAck named => exact .inl (asks_nil.cons (by simp))
  | inactiveAck named => exact .inl (asks_nil.cons (by simp))
  | downAck named => exact .inl (asks_nil.cons (by simp))
  | notify status named =>
    cases status with
    | none => exact .inr (.inl rfl)
    | some known =>
      refine .inl ?_
      cases known with
      | none => exact asks_nil
      | some status =>
        cases status with
        | alternateAspActive => exact asks_nil.cons (by simp)
        | asPending | asInactive | insufficientResources => exact takeOver_asks _ _ _ _
        | asActive | aspFailure => exact asks_nil
  | request named => exact .inr (.inr ⟨named, rfl⟩)

theorem gatewaySaid_fate (message : M3uaMessage) :
    Fate raw s ({ s with asking := (gatewaySaid c sight message raw now s.asking).1 }, .continue,
      .count message.messageType :: (gatewaySaid c sight message raw now s.asking).2) := by
  unfold gatewaySaid
  dsimp only
  rcases gatewaySaid_asks c.slot now (said message) _ s.asking with
    hasks | hmissing | ⟨named, hunexpected⟩
  · exact .taken _ (hasks.silent.cons rfl)
  · have hrefused : Answers raw (refuse (some .missingParameter) [] raw .parameter) :=
      .refused _ _ _
    rw [hmissing]
    simpa [actsOf] using hrefused.fate s message.messageType
  · have hrefused : Answers raw (refuse (some .unexpectedMessage) named raw .unexpected) :=
      .refused _ _ _
    rw [hunexpected]
    simpa [actsOf] using hrefused.fate s message.messageType

/-! ### Every message -/

theorem read_refused {acts : List Act} (h : read crate raw = .error acts) :
    ∃ code, acts = refuse (if isError raw then none else some code) [] raw .undecodable := by
  unfold read at h
  dsimp only at h
  split at h
  · by_cases hlength : headerSize ≤ crate.declared raw ∧ crate.declared raw ≤ raw.length
    · rw [if_pos hlength] at h
      cases h
    · rw [if_neg hlength] at h
      exact ⟨_, (Except.error.inj h).symm⟩
  · exact ⟨_, (Except.error.inj h).symm⟩

theorem read_ok {message : M3uaMessage} (h : read crate raw = .ok message) :
    crate.decode raw = .ok message := by
  unfold read at h
  dsimp only at h
  split at h
  · rename_i hdecode
    split_ifs at h
    rw [hdecode, Except.ok.inj h]
  · cases h

/-- What a message comes to that the association has the slot for. -/
theorem taken_fate {message : M3uaMessage} (now stream : ℕ) (s : State)
    (hread : read crate raw = .ok message) (hdata : message.messageType ≠ .data)
    (hsender : sight.isSender = true) (hwrong : wrongLength message = true →
      message.messageType = .error) :
    Fate raw s (received crate c sight now raw stream s) := by
  have hlength : ¬(wrongLength message = true ∧ message.messageType ≠ .error) :=
    fun h => h.2 (hwrong h.1)
  unfold received
  rw [hread]
  dsimp only
  rw [if_neg hdata, if_neg (by simp [hsender]), if_neg hlength]
  split
  · exact .taken s.asking (.cons rfl (silent_one rfl))
  · refine .taken s.asking (.cons rfl ?_)
    split_ifs
    · exact silent_one rfl
    · exact silent_nil
  · exact .taken s.asking (silent_one rfl)
  all_goals first
    | exact (networkManagement_answers message).fate s _
    | exact .refused (some message.messageType) _ _ _
    | skip
  split_ifs
  · exact (aspAsked_answers message).fate s _
  · exact gatewaySaid_fate message

/-- What every message comes to. -/
theorem received_fate (crate : Crate) (c : Conf) (sight : Sight) (raw : List UInt8)
    (now stream : ℕ) (s : State) :
    Fate raw s (received crate c sight now raw stream s) := by
  cases hread : read crate raw with
  | error acts =>
    obtain ⟨code, rfl⟩ := read_refused hread
    unfold received
    rw [hread]
    exact .refused none _ _ _
  | ok message =>
    by_cases htaken : message.messageType ≠ .data ∧ sight.isSender = true ∧
        (wrongLength message = true → message.messageType = .error)
    · exact taken_fate now stream s hread htaken.1 htaken.2.1 htaken.2.2
    · unfold received
      rw [hread]
      dsimp only
      by_cases hdata : message.messageType = .data
      · rw [if_pos hdata]
        exact (data_answers message stream).fate_data s
      · rw [if_neg hdata]
        by_cases hsender : sight.isSender = false
        · rw [if_pos hsender]
          exact .superseded
        · have hwrong : wrongLength message = true ∧ message.messageType ≠ .error := by
            by_contra hwrong
            exact htaken ⟨hdata, by simpa using hsender, fun hw => by
              by_contra herror
              exact hwrong ⟨hw, herror⟩⟩
          rw [if_neg hsender, if_pos hwrong]
          exact .refused (some message.messageType) _ _ _

end Peer

end SiphonSigtran.Transport
