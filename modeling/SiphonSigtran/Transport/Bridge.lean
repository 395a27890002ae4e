import SiphonSigtran.Transport.Registry

/-!
# The SUA bridge

A message of connectionless SCCP goes to an SUA peer as a CLDT or a CLDR, and one of these comes in
as a UDT, an XUDT or a UDTS. The codecs of SCCP and SUA are parameters. Subsystem numbers and
return causes are their values.
-/

namespace SiphonSigtran.Transport

/-! ## SCCP -/

inductive SccpGt
  | noTitle
  | gt0001 (natureOfAddress : UInt8) (oddEven : Bool) (digits : String)
  | gt0010 (translationType : UInt8) (digits : String)
  | gt0011 (translationType numberingPlan encodingScheme : UInt8) (digits : String)
  | gt0100 (translationType numberingPlan encodingScheme natureOfAddress : UInt8) (digits : String)
  deriving DecidableEq, Repr

structure SccpAddress where
  routeOnSsn : Bool
  ssn : Option UInt8
  pointCode : Option UInt16
  globalTitle : SccpGt
  deriving DecidableEq, Repr

def SccpAddress.withGt (gt : SccpGt) (ssn : Option UInt8) : SccpAddress := ⟨false, ssn, none, gt⟩

def SccpAddress.withSsn (ssn : UInt8) (pointCode : Option UInt16) : SccpAddress :=
  ⟨true, some ssn, pointCode, .noTitle⟩

structure UnitData where
  protocolClass : UInt8
  messageHandling : UInt8
  calledParty : SccpAddress
  callingParty : SccpAddress
  data : List UInt8
  deriving DecidableEq, Repr

def UnitData.new (called calling : SccpAddress) (data : List UInt8) : UnitData :=
  ⟨0, 0, called, calling, data⟩

/-- An XUDT, and an LUDT. -/
structure ExtendedUnitData extends UnitData where
  hopCounter : UInt8
  optionalPart : List UInt8
  deriving DecidableEq, Repr

def ExtendedUnitData.new (called calling : SccpAddress) (data : List UInt8) : ExtendedUnitData :=
  ⟨.new called calling data, 15, []⟩

structure UnitDataService where
  returnCause : UInt8
  calledParty : SccpAddress
  callingParty : SccpAddress
  data : List UInt8
  deriving DecidableEq, Repr

/-- An XUDTS, and an LUDTS. -/
structure ExtendedUnitDataService extends UnitDataService where
  hopCounter : UInt8
  deriving DecidableEq, Repr

inductive SccpMessage
  | udt (m : UnitData)
  | xudt (m : ExtendedUnitData)
  | ludt (m : ExtendedUnitData)
  | udts (m : UnitDataService)
  | xudts (m : ExtendedUnitDataService)
  | ludts (m : ExtendedUnitDataService)
  deriving DecidableEq, Repr

namespace SccpMessage

def calledParty : SccpMessage → SccpAddress
  | udt m => m.calledParty
  | xudt m | ludt m => m.calledParty
  | udts m => m.calledParty
  | xudts m | ludts m => m.calledParty

def callingParty : SccpMessage → SccpAddress
  | udt m => m.callingParty
  | xudt m | ludt m => m.callingParty
  | udts m => m.callingParty
  | xudts m | ludts m => m.callingParty

def data : SccpMessage → List UInt8
  | udt m => m.data
  | xudt m | ludt m => m.data
  | udts m => m.data
  | xudts m | ludts m => m.data

def hopCounter : SccpMessage → Option UInt8
  | udt _ | udts _ => none
  | xudt m | ludt m => some m.hopCounter
  | xudts m | ludts m => some m.hopCounter

/-- The protocol class and the message handling of a message that carries data. -/
def handling : SccpMessage → Option (UInt8 × UInt8)
  | udt m => some (m.protocolClass, m.messageHandling)
  | xudt m | ludt m => some (m.protocolClass, m.messageHandling)
  | udts _ | xudts _ | ludts _ => none

/-- The cause of a message that is returned. -/
def returnCause : SccpMessage → Option UInt8
  | udt _ | xudt _ | ludt _ => none
  | udts m => some m.returnCause
  | xudts m | ludts m => some m.returnCause

end SccpMessage

def sccpReturnOnError : UInt8 := 0x8

/-- The message asks to be returned on error. -/
def SccpMessage.returnOnError (m : SccpMessage) : Bool :=
  m.handling.any fun h => h.2 = sccpReturnOnError

/-- The Segmentation parameter of an optional part, if it has one, says that there is more than this
segment. There are at most `fuel` parameters. -/
def segmented : ℕ → List UInt8 → Bool
  | fuel + 1, name :: len :: tail =>
    if name = 0 ∨ tail.length < len.toNat then false
    else if name = 0x10 then
      match tail.head? with
      | some first => !(first &&& 0x80 ≠ 0 && first &&& 0x0F = 0)
      | none => true
    else segmented fuel (tail.drop len.toNat)
  | _, _ => false

/-- The message is one segment of a segmented message. -/
def isSegment : SccpMessage → Bool
  | .xudt m | .ludt m => segmented m.optionalPart.length m.optionalPart
  | _ => false

structure SccpCodec where
  encode : SccpMessage → Except String (List UInt8)
  decode : List UInt8 → Except String SccpMessage

def SccpCodec.Exact (codec : SccpCodec) : Prop :=
  ∀ m bytes, codec.encode m = .ok bytes → codec.decode bytes = .ok m

/-! ## SUA -/

structure SuaGt where
  gti : UInt8
  translationType : UInt8
  numberingPlan : UInt8
  natureOfAddress : UInt8
  digits : String
  deriving DecidableEq, Repr

inductive RoutingIndicator
  | routeOnGt
  | routeOnSsnAndPc
  | routeOnHostname
  | routeOnSsnAndIp
  deriving DecidableEq, Repr

structure SuaAddress where
  routingIndicator : RoutingIndicator
  globalTitle : Option SuaGt
  ssn : Option UInt8
  pointCode : Option UInt32
  includePc : Bool
  deriving DecidableEq, Repr

def SuaAddress.withGt (gt : SuaGt) (ssn : Option UInt8) : SuaAddress :=
  ⟨.routeOnGt, some gt, ssn, none, false⟩

def SuaAddress.withSsnPc (ssn : UInt8) (pointCode : UInt32) : SuaAddress :=
  ⟨.routeOnSsnAndPc, none, some ssn, some pointCode, true⟩

inductive SuaType
  | cldt
  | cldr
  | other (name : String)
  deriving DecidableEq, Repr

structure SuaMessage where
  messageType : SuaType
  routingContext : Option ℕ
  protocolClass : Option UInt8
  sourceAddress : Option SuaAddress
  destinationAddress : Option SuaAddress
  sequenceControl : Option UInt32
  ss7HopCount : Option UInt8
  sccpCause : Option (UInt8 × UInt8)
  data : Option (List UInt8)
  deriving DecidableEq, Repr

def SuaMessage.cldt (routingContext : ℕ) (protocolClass : UInt8) (source destination : SuaAddress)
    (sequenceControl : UInt32) (ss7HopCount : Option UInt8) (data : List UInt8) : SuaMessage where
  messageType := .cldt
  routingContext := some routingContext
  protocolClass := some protocolClass
  sourceAddress := some source
  destinationAddress := some destination
  sequenceControl := some sequenceControl
  ss7HopCount := ss7HopCount
  sccpCause := none
  data := some data

def SuaMessage.cldr (routingContext : ℕ) (causeType causeValue : UInt8)
    (source destination : SuaAddress) (data : Option (List UInt8)) : SuaMessage where
  messageType := .cldr
  routingContext := some routingContext
  protocolClass := none
  sourceAddress := some source
  destinationAddress := some destination
  sequenceControl := none
  ss7HopCount := none
  sccpCause := some (causeType, causeValue)
  data := data

/-- The codec of SUA. It may refuse to build a message, and has an error for an address that is
missing. -/
structure SuaCodec where
  build : SuaMessage → Except String SuaMessage
  missing : String
  encode : SuaMessage → List UInt8
  decode : List UInt8 → Except String SuaMessage

structure SuaCodec.Exact (codec : SuaCodec) : Prop where
  built : ∀ m m', codec.build m = .ok m' → m' = m
  decode_encode : ∀ m m', codec.build m = .ok m' → codec.decode (codec.encode m) = .ok m

def SuaCodec.address (codec : SuaCodec) : Option SuaAddress → Except String SuaAddress
  | some address => .ok address
  | none => .error codec.missing

/-! ## Addresses -/

/-- The equivalent of an SCCP party address. -/
def sccpAddrToSua (addr : SccpAddress) : SuaAddress :=
  let gt := match addr.globalTitle with
    | .gt0100 translationType numberingPlan _ natureOfAddress digits =>
      some (⟨4, translationType, numberingPlan, natureOfAddress, digits⟩ : SuaGt)
    | .gt0011 translationType numberingPlan _ digits =>
      some ⟨3, translationType, numberingPlan, 0, digits⟩
    | .gt0010 translationType digits => some ⟨2, translationType, 0, 0, digits⟩
    | .gt0001 natureOfAddress _ digits => some ⟨1, 0, 0, natureOfAddress, digits⟩
    | .noTitle => none
  match gt with
  | some gt =>
    let out := SuaAddress.withGt gt addr.ssn
    match addr.pointCode with
    | some pc => { out with pointCode := some pc.toUInt32, includePc := true }
    | none => out
  | none =>
    .withSsnPc (addr.ssn.getD 0) ((addr.pointCode.map UInt16.toUInt32).getD 0)

/-- The equivalent of an SUA address. The encoding scheme is that of the number of digits. -/
def suaAddrToSccp (addr : SuaAddress) : SccpAddress :=
  match addr.globalTitle with
  | some gt =>
    let odd := gt.digits.length % 2 = 1
    let es : UInt8 := if odd then 1 else 2
    let title : SccpGt := match gt.gti with
      | 1 => .gt0001 gt.natureOfAddress odd gt.digits
      | 2 => .gt0010 gt.translationType gt.digits
      | 3 => .gt0011 gt.translationType gt.numberingPlan es gt.digits
      | _ => .gt0100 gt.translationType gt.numberingPlan es gt.natureOfAddress gt.digits
    let out := SccpAddress.withGt title addr.ssn
    match addr.pointCode with
    | some pc => { out with pointCode := some pc.toUInt16 }
    | none => out
  | none => .withSsn (addr.ssn.getD 0) (addr.pointCode.map UInt32.toUInt16)

/-! ## Messages -/

def siSccp : ℕ := 3

/-- The point code that a message from an SUA peer is routed by. -/
def suaDestDpc (dest : SuaAddress) (nodePc : ℕ) : ℕ :=
  match dest.routingIndicator with
  | .routeOnSsnAndPc | .routeOnSsnAndIp => (dest.pointCode.map UInt32.toNat).getD nodePc
  | _ => nodePc

section

variable (sccp : SccpCodec) (sua : SuaCodec)

/-- A CLDT as a UDT, or as an XUDT if it has a hop counter. -/
def cldtToMsu (msg : SuaMessage) (nodePc nodeNi : ℕ) : Except String Msu := do
  let dest ← sua.address msg.destinationAddress
  let src ← sua.address msg.sourceAddress
  let data := msg.data.getD []
  let protocolClass := msg.protocolClass.getD 0
  let called := suaAddrToSccp dest
  let calling := suaAddrToSccp src
  let m := match msg.ss7HopCount with
    | some hop =>
      let x := ExtendedUnitData.new called calling data
      SccpMessage.xudt { x with protocolClass := protocolClass, hopCounter := hop }
    | none => .udt { UnitData.new called calling data with protocolClass := protocolClass }
  let payload ← sccp.encode m
  return ⟨(src.pointCode.map UInt32.toNat).getD 0, suaDestDpc dest nodePc, siSccp, nodeNi, 0,
    (msg.sequenceControl.getD 0 &&& 0xFF).toNat, payload⟩

/-- A CLDR as a UDTS. -/
def cldrToMsu (msg : SuaMessage) (nodePc nodeNi : ℕ) : Except String Msu := do
  let dest ← sua.address msg.destinationAddress
  let src ← sua.address msg.sourceAddress
  let data := msg.data.getD []
  let causeValue := (msg.sccpCause.getD (0, 0)).2
  let called := suaAddrToSccp dest
  let calling := suaAddrToSccp src
  let payload ← sccp.encode (.udts ⟨causeValue, called, calling, data⟩)
  return ⟨(src.pointCode.map UInt32.toNat).getD 0, suaDestDpc dest nodePc, siSccp, nodeNi, 0, 0,
    payload⟩

def extractSua (payload : List UInt8) (nodePc nodeNi : ℕ) : Except String Msu := do
  let msg ← sua.decode payload
  match msg.messageType with
  | .cldt => cldtToMsu sccp sua msg nodePc nodeNi
  | .cldr => cldrToMsu sccp sua msg nodePc nodeNi
  | .other name => .error s!"expected SUA CLDT/CLDR, got {name}"

/-- The CLDT or CLDR of a message with the selection code `sls`. -/
def suaOf (m : SccpMessage) (routingContext sls : ℕ) : SuaMessage :=
  let source := sccpAddrToSua m.callingParty
  let destination := sccpAddrToSua m.calledParty
  let seq := UInt32.ofNat sls
  match m with
  | .udt u => .cldt routingContext u.protocolClass source destination seq none m.data
  | .xudt u | .ludt u =>
    .cldt routingContext u.protocolClass source destination seq (some u.hopCounter) m.data
  | .udts u => .cldr routingContext 0 u.returnCause source destination (some m.data)
  | .xudts u | .ludts u => .cldr routingContext 0 u.returnCause source destination (some m.data)

def wrapSua (msu : Msu) (routingContext : ℕ) : Except String (List UInt8) :=
  let si := msu.si
  if si ≠ siSccp then .error s!"sua carries only the SCCP user (SI=3); cannot wrap SI={si}"
  else do
    let m ← sccp.decode msu.payload
    let msg ← sua.build (suaOf m routingContext msu.sls)
    return sua.encode msg

end

/-! ## What comes out -/

/-- A global title without its encoding, which is that of its digits. -/
def SccpGt.plain : SccpGt → SccpGt
  | .gt0001 natureOfAddress _ digits => .gt0001 natureOfAddress false digits
  | .gt0011 translationType numberingPlan _ digits => .gt0011 translationType numberingPlan 0 digits
  | .gt0100 translationType numberingPlan _ natureOfAddress digits =>
    .gt0100 translationType numberingPlan 0 natureOfAddress digits
  | gt => gt

def SccpAddress.plain (addr : SccpAddress) : SccpAddress :=
  { addr with globalTitle := addr.globalTitle.plain }

/-- The bridge has room for the address: it routes on its global title if it has one, and otherwise
has both a subsystem number and a point code. -/
def SccpAddress.Bridges (addr : SccpAddress) : Prop :=
  if addr.globalTitle = .noTitle then
    addr.routeOnSsn = true ∧ addr.ssn.isSome = true ∧ addr.pointCode.isSome = true
  else addr.routeOnSsn = false

/-- An address as it comes out. -/
def SccpAddress.bridged (addr : SccpAddress) : SccpAddress := suaAddrToSccp (sccpAddrToSua addr)

theorem SccpAddress.bridged_noTitle {addr : SccpAddress} (h : addr.globalTitle = .noTitle) :
    addr.bridged = .withSsn (addr.ssn.getD 0) (some (addr.pointCode.getD 0)) := by
  unfold bridged suaAddrToSccp sccpAddrToSua
  rw [h]
  cases hpc : addr.pointCode with
  | none => rfl
  | some pc => simp [SuaAddress.withSsnPc]

theorem SccpAddress.bridged_title {addr : SccpAddress} (h : addr.globalTitle ≠ .noTitle) :
    addr.bridged.plain = { addr with routeOnSsn := false }.plain := by
  obtain ⟨routeOnSsn, ssn, pointCode, globalTitle⟩ := addr
  cases globalTitle with
  | noTitle => exact absurd rfl h
  | _ =>
    cases pointCode with
    | none => rfl
    | some pc =>
      simp [bridged, suaAddrToSccp, sccpAddrToSua, plain, SccpGt.plain, SuaAddress.withGt, withGt]

theorem SccpAddress.bridged_plain_iff (addr : SccpAddress) :
    addr.bridged.plain = addr.plain ↔ addr.Bridges := by
  unfold Bridges
  by_cases h : addr.globalTitle = .noTitle
  · rw [if_pos h, bridged_noTitle h]
    obtain ⟨routeOnSsn, ssn, pointCode, globalTitle⟩ := addr
    obtain rfl : globalTitle = .noTitle := h
    cases ssn <;> cases pointCode <;> simp [withSsn, plain, SccpGt.plain, eq_comm]
  · rw [if_neg h, bridged_title h]
    constructor
    · intro hplain
      exact (congrArg SccpAddress.routeOnSsn hplain).symm
    · intro hroute
      have hsame : { addr with routeOnSsn := false } = addr := by rw [← hroute]
      rw [hsame]

namespace SccpMessage

/-- A message as it comes out. -/
def bridged : SccpMessage → SccpMessage
  | udt m =>
    udt { UnitData.new m.calledParty.bridged m.callingParty.bridged m.data with
      protocolClass := m.protocolClass }
  | xudt m | ludt m =>
    let x := ExtendedUnitData.new m.calledParty.bridged m.callingParty.bridged m.data
    xudt { x with protocolClass := m.protocolClass, hopCounter := m.hopCounter }
  | udts m => udts ⟨m.returnCause, m.calledParty.bridged, m.callingParty.bridged, m.data⟩
  | xudts m | ludts m =>
    udts ⟨m.returnCause, m.calledParty.bridged, m.callingParty.bridged, m.data⟩

/-- The message carries data, and is not one that is returned. -/
def carriesData (m : SccpMessage) : Bool := m.handling.isSome

@[simp] theorem bridged_calledParty (m : SccpMessage) :
    m.bridged.calledParty = m.calledParty.bridged := by
  cases m <;> rfl

@[simp] theorem bridged_callingParty (m : SccpMessage) :
    m.bridged.callingParty = m.callingParty.bridged := by
  cases m <;> rfl

@[simp] theorem bridged_data (m : SccpMessage) : m.bridged.data = m.data := by
  cases m <;> rfl

@[simp] theorem bridged_returnCause (m : SccpMessage) :
    m.bridged.returnCause = m.returnCause := by
  cases m <;> rfl

@[simp] theorem bridged_handling (m : SccpMessage) :
    m.bridged.handling = m.handling.map fun h => (h.1, 0) := by
  cases m <;> rfl

@[simp] theorem bridged_returnOnError (m : SccpMessage) : m.bridged.returnOnError = false := by
  cases m <;> rfl

/-- What comes out is never marked as a segment. -/
@[simp] theorem isSegment_bridged (m : SccpMessage) : isSegment m.bridged = false := by
  cases m <;> rfl

end SccpMessage

/-- What comes out of a message with the selection code `sls` is `m'` with the code `sls'`: the same
addresses, handling, cause and data, and still a segment if it was one. -/
structure Lossless (sls : ℕ) (m : SccpMessage) (sls' : ℕ) (m' : SccpMessage) : Prop where
  direction : m'.carriesData = m.carriesData
  called : m'.calledParty.plain = m.calledParty.plain
  calling : m'.callingParty.plain = m.callingParty.plain
  protocolClass : m'.handling.map Prod.fst = m.handling.map Prod.fst
  returnOnError : m'.returnOnError = m.returnOnError
  hopCounter : ∀ hop, m.hopCounter = some hop → m'.hopCounter = some hop
  returnCause : m'.returnCause = m.returnCause
  data : m'.data = m.data
  sls : sls' = sls
  segment : isSegment m = true → isSegment m' = true

/-- The selection code of what comes out. -/
def slsOut (m : SccpMessage) (sls : ℕ) : ℕ :=
  if m.carriesData then (UInt32.ofNat sls &&& 0xFF).toNat else 0

/-- The bridge has room for a message with the selection code `sls`, of which the addresses are
looked at apart. -/
def SccpMessage.Bridges (m : SccpMessage) (sls : ℕ) : Prop :=
  match m with
  | .udt _ => m.returnOnError = false
  | .xudt _ | .ludt _ => m.returnOnError = false ∧ isSegment m = false
  | .udts _ => sls = 0
  | .xudts _ | .ludts _ => False

theorem slsOut_of_data {m : SccpMessage} (h : m.carriesData = true) {sls : ℕ} (hsls : sls < 256) :
    slsOut m sls = sls := by
  have hmask : sls &&& 0xFF = sls % 256 := Nat.and_two_pow_sub_one_eq_mod sls 8
  unfold slsOut
  rw [if_pos h, UInt32.toNat_and, UInt32.toNat_ofNat', Nat.mod_eq_of_lt (by omega)]
  change sls &&& 0xFF = sls
  rw [hmask, Nat.mod_eq_of_lt hsls]

theorem bridged_lossless_iff (m : SccpMessage) {sls : ℕ} (hsls : sls < 256) :
    Lossless sls m (slsOut m sls) m.bridged ↔
      m.calledParty.Bridges ∧ m.callingParty.Bridges ∧ m.Bridges sls := by
  rw [← SccpAddress.bridged_plain_iff, ← SccpAddress.bridged_plain_iff]
  constructor
  · intro h
    refine ⟨by simpa using h.called, by simpa using h.calling, ?_⟩
    have hreturn : m.returnOnError = false := by simpa using h.returnOnError.symm
    have hsegment : isSegment m = false := by simpa using h.segment
    cases m with
    | udt m => exact hreturn
    | xudt m | ludt m => exact ⟨hreturn, hsegment⟩
    | udts m => exact h.sls.symm
    | xudts m | ludts m =>
      have hhop := h.hopCounter m.hopCounter rfl
      cases hhop
  · rintro ⟨hcalled, hcalling, hm⟩
    have hrest : m.returnOnError = false ∧ isSegment m = false ∧ slsOut m sls = sls ∧
        ∀ hop, m.hopCounter = some hop → m.bridged.hopCounter = some hop := by
      cases m with
      | udt m => exact ⟨hm, rfl, slsOut_of_data rfl hsls, by simp [SccpMessage.hopCounter]⟩
      | xudt m | ludt m => exact ⟨hm.1, hm.2, slsOut_of_data rfl hsls, fun _ h => h⟩
      | udts m => exact ⟨rfl, rfl, hm.symm, by simp [SccpMessage.hopCounter]⟩
      | xudts m | ludts m => exact hm.elim
    obtain ⟨hreturn, hsegment, hslsOut, hhop⟩ := hrest
    exact
      { direction := by simp [SccpMessage.carriesData]
        called := by simpa using hcalled
        calling := by simpa using hcalling
        protocolClass := by cases m <;> rfl
        returnOnError := by simp [hreturn]
        hopCounter := hhop
        returnCause := by simp
        data := by simp
        sls := hslsOut
        segment := by simp [hsegment] }

section

variable {sccp : SccpCodec} {sua : SuaCodec} {msu : Msu} {routingContext : ℕ} {m : SccpMessage}
  {out : List UInt8}

theorem decode_wrapSua (h : sua.Exact) (hm : sccp.decode msu.payload = .ok m)
    (hout : wrapSua sccp sua msu routingContext = .ok out) :
    sua.decode out = .ok (suaOf m routingContext msu.sls) := by
  unfold wrapSua at hout
  dsimp only at hout
  split_ifs at hout
  rw [hm] at hout
  cases hbuild : sua.build (suaOf m routingContext msu.sls) with
  | error e =>
    simp only [hbuild, bind, Except.bind] at hout
    cases hout
  | ok msg =>
    simp only [hbuild, bind, Except.bind, pure, Except.pure] at hout
    obtain rfl := Except.ok.inj hout
    rw [h.built _ _ hbuild]
    exact h.decode_encode _ _ hbuild

/-- What comes out is the message with its addresses as they come out, if the codec has room
for it. -/
theorem extractSua_wrapSua (h : sua.Exact) (hm : sccp.decode msu.payload = .ok m)
    (hout : wrapSua sccp sua msu routingContext = .ok out) (nodePc nodeNi : ℕ) :
    ∃ opc dpc, extractSua sccp sua out nodePc nodeNi = do
      let payload ← sccp.encode m.bridged
      return ⟨opc, dpc, siSccp, nodeNi, 0, slsOut m msu.sls, payload⟩ := by
  unfold extractSua
  rw [decode_wrapSua h hm hout]
  cases m with
  | udt m | xudt m | ludt m => exact ⟨_, _, rfl⟩
  | udts m | xudts m | ludts m => exact ⟨_, _, rfl⟩

/-- What comes out of a message that was wrapped carries it if and only if both addresses route on
their global title or have none and are complete, it carries data, does not ask to be returned and
is no segment, or is a UDTS with the selection code 0, and the codec has room for what comes out. -/
theorem bridge_lossless_iff (hsccp : sccp.Exact) (hsua : sua.Exact) (hsls : msu.sls < 256)
    (hm : sccp.decode msu.payload = .ok m)
    (hout : wrapSua sccp sua msu routingContext = .ok out) (nodePc nodeNi : ℕ) :
    (∃ msu' m', extractSua sccp sua out nodePc nodeNi = .ok msu' ∧
      sccp.decode msu'.payload = .ok m' ∧ Lossless msu.sls m msu'.sls m') ↔
      (m.calledParty.Bridges ∧ m.callingParty.Bridges ∧ m.Bridges msu.sls) ∧
        ∃ payload, sccp.encode m.bridged = .ok payload := by
  rw [← bridged_lossless_iff m hsls]
  obtain ⟨opc, dpc, hback⟩ := extractSua_wrapSua hsua hm hout nodePc nodeNi
  cases hencode : sccp.encode m.bridged with
  | error e =>
    rw [hback, hencode]
    constructor
    · rintro ⟨msu', m', hextract, -⟩
      cases hextract
    · rintro ⟨-, payload, hpayload⟩
      cases hpayload
  | ok payload =>
    rw [hback, hencode]
    have hdecode : sccp.decode payload = .ok m.bridged := hsccp _ _ hencode
    constructor
    · rintro ⟨msu', m', hextract, hm', hlossless⟩
      obtain rfl := Except.ok.inj hextract
      obtain rfl := Except.ok.inj (hdecode.symm.trans hm')
      exact ⟨hlossless, payload, rfl⟩
    · rintro ⟨hlossless, -⟩
      exact ⟨_, m.bridged, rfl, hdecode, hlossless⟩

end

/-! ## Two messages -/

/-- The codec of SCCP on some messages and their octets. -/
def sccpOf (table : List (SccpMessage × List UInt8)) : SccpCodec where
  encode m := match table.find? fun p => p.1 = m with
    | some p => .ok p.2
    | none => .error "not one of these messages"
  decode bytes := match table.find? fun p => p.2 = bytes with
    | some p => .ok p.1
    | none => .error "not one of these messages"

/-- The codec of SUA on some messages and their octets. -/
def suaCodecOf (table : List (SuaMessage × List UInt8)) : SuaCodec where
  build m := if m ∈ table.map Prod.fst then .ok m else .error "not one of these messages"
  missing := "missing address"
  encode m := match table.find? fun p => p.1 = m with
    | some p => p.2
    | none => []
  decode bytes := match table.find? fun p => p.2 = bytes with
    | some p => .ok p.1
    | none => .error "not one of these messages"

theorem find?_of_nodup {α : Type*} {table : List (α × List UInt8)}
    (h : (table.map Prod.snd).Nodup) {p : α × List UInt8} (hp : p ∈ table) :
    table.find? (fun q => q.2 = p.2) = some p := by
  cases hfind : table.find? fun q => q.2 = p.2 with
  | none =>
    have hnone := List.find?_eq_none.mp hfind p hp
    simp at hnone
  | some q =>
    have hq : q.2 = p.2 := by simpa using List.find?_some hfind
    rw [List.inj_on_of_nodup_map h (List.mem_of_find?_eq_some hfind) hp hq]

theorem sccpOf_exact {table : List (SccpMessage × List UInt8)}
    (h : (table.map Prod.snd).Nodup) : (sccpOf table).Exact := by
  intro m bytes hencode
  dsimp only [sccpOf] at hencode ⊢
  split at hencode
  · rename_i p hfind
    obtain rfl := Except.ok.inj hencode
    obtain rfl : p.1 = m := by simpa using List.find?_some hfind
    rw [find?_of_nodup h (List.mem_of_find?_eq_some hfind)]
  · cases hencode

theorem suaCodecOf_exact {table : List (SuaMessage × List UInt8)}
    (h : (table.map Prod.snd).Nodup) : (suaCodecOf table).Exact where
  built := by
    intro m m' hbuild
    dsimp only [suaCodecOf] at hbuild
    split_ifs at hbuild
    exact (Except.ok.inj hbuild).symm
  decode_encode := by
    intro m m' hbuild
    dsimp only [suaCodecOf] at hbuild ⊢
    split_ifs at hbuild with hin
    obtain ⟨p, hp, rfl⟩ := List.mem_map.mp hin
    cases hfind : table.find? fun q => q.1 = p.1 with
    | none =>
      have hnone := List.find?_eq_none.mp hfind p hp
      simp at hnone
    | some q =>
      have hq : q.1 = p.1 := by simpa using List.find?_some hfind
      dsimp only
      rw [find?_of_nodup h (List.mem_of_find?_eq_some hfind)]
      exact congrArg Except.ok hq

/-- A UDT between global titles. -/
def titledUdt : SccpMessage :=
  .udt ⟨0, 0, ⟨false, some 6, none, .gt0100 0 1 2 4 "15550100"⟩,
    ⟨false, some 8, none, .gt0100 0 1 2 4 "15559999"⟩, [1]⟩

/-- A UDT between subsystems, without point codes. -/
def subsystemUdt : SccpMessage :=
  .udt ⟨0, 0, .withSsn 6 none, .withSsn 8 none, [1]⟩

def titledOctets : List UInt8 :=
  [0x09, 0, 3, 12, 21, 9, 0x12, 6, 0, 0x12, 4, 0x51, 0x55, 0x10, 0, 9, 0x12, 8, 0, 0x12, 4, 0x51,
    0x55, 0x99, 0x99, 1, 1]

def subsystemOctets : List UInt8 := [0x09, 0, 3, 5, 7, 2, 0x42, 6, 2, 0x42, 8, 1, 1]

/-- The codec of SCCP, on these and on what comes out of them. -/
def twoUdts : SccpCodec :=
  sccpOf [(titledUdt, titledOctets), (subsystemUdt, subsystemOctets),
    (subsystemUdt.bridged,
      [0x09, 0, 3, 7, 11, 4, 0x43, 0, 0, 6, 4, 0x43, 0, 0, 8, 1, 1])]

/-- The codec of SUA, on the CLDTs of these. -/
def twoCldts : SuaCodec :=
  suaCodecOf
    [(suaOf titledUdt 100 5,
      [1, 0, 7, 1, 0, 0, 0, 0x68, 0, 6, 0, 8, 0, 0, 0, 100, 1, 0x15, 0, 8, 0, 0, 0, 0,
        1, 2, 0, 0x20, 0, 1, 0, 5, 0x80, 1, 0, 0x10, 0, 0, 0, 4, 8, 0, 1, 4, 0x51, 0x55, 0x99, 0x99,
        0x80, 3, 0, 8, 0, 0, 0, 8,
        1, 3, 0, 0x20, 0, 1, 0, 5, 0x80, 1, 0, 0x10, 0, 0, 0, 4, 8, 0, 1, 4, 0x51, 0x55, 0x10, 0,
        0x80, 3, 0, 8, 0, 0, 0, 6,
        1, 0x16, 0, 8, 0, 0, 0, 5, 1, 0x0b, 0, 5, 1, 0, 0, 0]),
    (suaOf subsystemUdt 100 5,
      [1, 0, 7, 1, 0, 0, 0, 0x58, 0, 6, 0, 8, 0, 0, 0, 100, 1, 0x15, 0, 8, 0, 0, 0, 0,
        1, 2, 0, 0x18, 0, 2, 0, 3, 0x80, 2, 0, 8, 0, 0, 0, 0, 0x80, 3, 0, 8, 0, 0, 0, 8,
        1, 3, 0, 0x18, 0, 2, 0, 3, 0x80, 2, 0, 8, 0, 0, 0, 0, 0x80, 3, 0, 8, 0, 0, 0, 6,
        1, 0x16, 0, 8, 0, 0, 0, 5, 1, 0x0b, 0, 5, 1, 0, 0, 0])]

theorem twoUdts_exact : twoUdts.Exact := sccpOf_exact (by decide +kernel)

theorem twoCldts_exact : twoCldts.Exact := suaCodecOf_exact (by decide +kernel)

/-- The UDT between global titles comes out. -/
theorem bridge_lossless_titled :
    ∃ msu' m', extractSua twoUdts twoCldts (twoCldts.encode (suaOf titledUdt 100 5)) 3000 2 =
      .ok msu' ∧ twoUdts.decode msu'.payload = .ok m' ∧ Lossless 5 titledUdt msu'.sls m' := by
  have hm : twoUdts.decode titledOctets = .ok titledUdt := by decide +kernel
  have hout : wrapSua twoUdts twoCldts ⟨1000, 2000, 3, 2, 0, 5, titledOctets⟩ 100 =
      .ok (twoCldts.encode (suaOf titledUdt 100 5)) := by decide +kernel
  apply (bridge_lossless_iff twoUdts_exact twoCldts_exact (by decide) hm hout 3000 2).mpr
  refine ⟨⟨?_, ?_, ?_⟩, titledOctets, by decide +kernel⟩
  · unfold SccpAddress.Bridges
    decide
  · unfold SccpAddress.Bridges
    decide
  · exact rfl

/-- The UDT between subsystems comes out with point codes that it did not have. -/
theorem bridge_adds_point_codes :
    ¬ ∀ (sccp : SccpCodec) (sua : SuaCodec) (msu : Msu) (routingContext : ℕ) (m : SccpMessage)
      (out : List UInt8) (nodePc nodeNi : ℕ), sccp.Exact → sua.Exact → msu.sls < 256 →
        sccp.decode msu.payload = .ok m → wrapSua sccp sua msu routingContext = .ok out →
          ∃ msu' m', extractSua sccp sua out nodePc nodeNi = .ok msu' ∧
            sccp.decode msu'.payload = .ok m' ∧ Lossless msu.sls m msu'.sls m' := by
  intro h
  have hm : twoUdts.decode subsystemOctets = .ok subsystemUdt := by decide +kernel
  have hout : wrapSua twoUdts twoCldts ⟨1000, 2000, 3, 2, 0, 5, subsystemOctets⟩ 100 =
      .ok (twoCldts.encode (suaOf subsystemUdt 100 5)) := by decide +kernel
  obtain ⟨msu', m', hextract, hm', hlossless⟩ := h twoUdts twoCldts
    ⟨1000, 2000, 3, 2, 0, 5, subsystemOctets⟩ 100 subsystemUdt _ 3000 2 twoUdts_exact
    twoCldts_exact (by decide) hm hout
  have hback : extractSua twoUdts twoCldts (twoCldts.encode (suaOf subsystemUdt 100 5)) 3000 2 =
      .ok ⟨0, 0, 3, 2, 0, 5, [0x09, 0, 3, 7, 11, 4, 0x43, 0, 0, 6, 4, 0x43, 0, 0, 8, 1, 1]⟩ := by
    decide +kernel
  obtain rfl := Except.ok.inj (hback.symm.trans hextract)
  have hbridged : twoUdts.decode
      [0x09, 0, 3, 7, 11, 4, 0x43, 0, 0, 6, 4, 0x43, 0, 0, 8, 1, 1] = .ok subsystemUdt.bridged := by
    decide +kernel
  obtain rfl := Except.ok.inj (hbridged.symm.trans hm')
  exact absurd hlossless.called (by decide +kernel)

end SiphonSigtran.Transport
