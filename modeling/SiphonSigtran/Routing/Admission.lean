import SiphonSigtran.Routing.Application

/-!
# Admission of dialogues

A policy of the embedding program decides on each dialogue that is to start. A message is put to it
by its first data octet, and the Segmentation parameter is not looked at: a later segment whose
octets happen to begin like a Begin is put to it too.
-/

namespace SiphonSigtran.Routing

open Tcap (Bytes Tid)
open Transport (SccpMessage SccpAddress SccpCodec Msu isSegment segmented)

inductive DialogueKind
  | begins
  | unidirectional
  deriving DecidableEq, Repr

/-- One SCCP party address, as the message carries it. -/
structure Party where
  globalTitle : Option String
  ssn : Option UInt8
  pointCode : Option UInt16
  deriving DecidableEq, Repr

def Party.ofAddress (address : SccpAddress) : Party :=
  ⟨digitsOf address.globalTitle, address.ssn, address.pointCode⟩

/-- What the policy is asked about. -/
structure DialogueStart where
  kind : DialogueKind
  calling : Party
  called : Party
  opc : ℕ
  dpc : ℕ
  applicationContext : Option (List ℕ)
  domain : String
  terminatesHere : Bool
  deriving DecidableEq, Repr

structure RefuseCause where
  reason : String
  returnCause : UInt8
  deriving DecidableEq, Repr

/-- A refusal with the return cause "unqualified". -/
def RefuseCause.new (reason : String) : RefuseCause := ⟨reason, 7⟩

inductive Admission
  | admitted
  | refuse (cause : RefuseCause)
  deriving DecidableEq, Repr

abbrev AdmissionPolicy := DialogueStart → Admission

structure Refusal where
  cause : RefuseCause
  kind : DialogueKind
  otid : Option Tid
  sccp : SccpMessage
  deriving DecidableEq, Repr

inductive Gate
  | pass
  | refused (refusal : Refusal)
  deriving DecidableEq, Repr

def tagUnidirectional : UInt8 := 0x61

def tagBegin : UInt8 := 0x62

/-- The kind of dialogue that data starts, by its first octet. -/
def kindOf (data : Bytes) : Option DialogueKind :=
  match data.head? with
  | some tag =>
    if tag = tagBegin then some .begins
    else if tag = tagUnidirectional then some .unidirectional
    else none
  | none => none

/-- What can be read of a message that starts a dialogue: the transaction id and the PDU of the
dialogue portion. -/
def readStart (codec : TcapCodec) (data : Bytes) : Option Tid × Option DialoguePdu :=
  match codec.decodeDetailed data with
  | .complete (.begins b) => (some b.otid, b.dialoguePortion.bind codec.dialoguePdu)
  | .complete (.unidirectional u) => (none, u.dialoguePortion.bind codec.dialoguePdu)
  | .complete _ => (none, none)
  | .problem problem => (problem.otid, none)

/-- Whether a message is returned to its sender. -/
def isService : SccpMessage → Bool
  | .udt _ | .xudt _ | .ludt _ => false
  | .udts _ | .xudts _ | .ludts _ => true

/-- What the policy is told of a message that starts a dialogue. -/
def startOf (codec : TcapCodec) (msu : Msu) (domain : String) (terminatesHere : Bool)
    (sccp : SccpMessage) (kind : DialogueKind) : DialogueStart :=
  let applicationContext := match (readStart codec sccp.data).2 with
    | some (.aarq name) | some (.audt name) => some name
    | _ => none
  ⟨kind, .ofAddress sccp.callingParty, .ofAddress sccp.calledParty, msu.opc, msu.dpc,
    applicationContext, domain, terminatesHere⟩

/-- Put one inbound MSU to the policy. The second part is what the policy was asked about. -/
def check (sccpCodec : SccpCodec) (tcapCodec : TcapCodec) (policy : AdmissionPolicy) (msu : Msu)
    (domain : String) (terminatesHere : Bool) : Gate × Option DialogueStart :=
  if msu.si ≠ Tcap.siSccp then (.pass, none)
  else match sccpCodec.decode msu.payload with
    | .error _ => (.pass, none)
    | .ok sccp =>
      if isService sccp then (.pass, none)
      else match kindOf sccp.data with
        | none => (.pass, none)
        | some kind =>
          let start := startOf tcapCodec msu domain terminatesHere sccp kind
          match policy start with
          | .admitted => (.pass, some start)
          | .refuse cause =>
            let otid := match kind with
              | .begins => (readStart tcapCodec sccp.data).1
              | .unidirectional => none
            (.refused ⟨cause, kind, otid, sccp⟩, some start)

/-- The first octet of the Segmentation parameter of an optional part, if it has one. There are at
most `fuel` parameters. -/
def segmentation : ℕ → Bytes → Option (Option UInt8)
  | fuel + 1, name :: len :: tail =>
    if name = 0 ∨ tail.length < len.toNat then none
    else if name = 0x10 then some tail.head?
    else segmentation fuel (tail.drop len.toNat)
  | _, _ => none

/-- A message that carries a segment other than the first of a segmented one. -/
def laterSegment : SccpMessage → Bool
  | .xudt m | .ludt m =>
    (segmentation m.optionalPart.length m.optionalPart).any fun first =>
      !first.any fun octet => octet &&& 0x80 ≠ 0
  | _ => false

theorem segmented_eq (fuel : ℕ) (optional : Bytes) :
    segmented fuel optional = (segmentation fuel optional).any fun first =>
      !first.any fun octet => octet &&& 0x80 ≠ 0 && octet &&& 0x0F = 0 := by
  induction fuel generalizing optional with
  | zero => simp [segmented, segmentation]
  | succ fuel ih =>
    match optional with
    | [] => rfl
    | [name] => rfl
    | name :: len :: tail =>
      unfold segmented segmentation
      split_ifs with hend hname
      · rfl
      · cases tail.head? <;> simp
      · exact ih (tail.drop len.toNat)

/-- A later segment is a segment. -/
theorem isSegment_of_laterSegment {m : SccpMessage} (h : laterSegment m = true) :
    isSegment m = true := by
  have hpart : ∀ optional : Bytes,
      ((segmentation optional.length optional).any fun first =>
        !first.any fun octet => octet &&& 0x80 ≠ 0) = true →
      segmented optional.length optional = true := by
    intro optional hlater
    rw [segmented_eq]
    cases hs : segmentation optional.length optional with
    | none => simp [hs] at hlater
    | some first =>
      cases first with
      | none => rfl
      | some octet =>
        have hbit : octet &&& 0x80 = 0 := by simpa [hs] using hlater
        simp [hbit]
  cases m with
  | xudt m => exact hpart m.optionalPart h
  | ludt m => exact hpart m.optionalPart h
  | udt m => cases h
  | udts m => cases h
  | xudts m => cases h
  | ludts m => cases h

/-- An SCCP message of a user that starts a dialogue, in one piece or with its first segment. -/
def StartsDialogue (codec : SccpCodec) (msu : Msu) : Prop :=
  msu.si = Tcap.siSccp ∧ ∃ sccp, codec.decode msu.payload = .ok sccp ∧ isService sccp = false ∧
    laterSegment sccp = false ∧ (kindOf sccp.data).isSome

/-- The octets of a later segment begin like a message that starts a dialogue. -/
def LooksLikeStart (codec : SccpCodec) (msu : Msu) : Prop :=
  msu.si = Tcap.siSccp ∧ ∃ sccp, codec.decode msu.payload = .ok sccp ∧
    laterSegment sccp = true ∧ (kindOf sccp.data).isSome

/-- The policy is asked about starts of dialogues alone, and what it is not asked about passes. -/
structure AsksOfStarts (sccpCodec : SccpCodec) (tcapCodec : TcapCodec) (policy : AdmissionPolicy)
    (msu : Msu) (domain : String) (terminatesHere : Bool) : Prop where
  asks : (check sccpCodec tcapCodec policy msu domain terminatesHere).2.isSome ↔
    StartsDialogue sccpCodec msu
  passes : ¬ StartsDialogue sccpCodec msu →
    (check sccpCodec tcapCodec policy msu domain terminatesHere).1 = .pass

section

variable {sccpCodec : SccpCodec} {tcapCodec : TcapCodec} {policy : AdmissionPolicy} {msu : Msu}
  {domain : String} {terminatesHere : Bool}

/-- The policy is asked about every message of a user that begins like a start. -/
theorem check_asks_iff (sccpCodec : SccpCodec) (tcapCodec : TcapCodec) (policy : AdmissionPolicy)
    (msu : Msu) (domain : String) (terminatesHere : Bool) :
    (check sccpCodec tcapCodec policy msu domain terminatesHere).2.isSome ↔
      msu.si = Tcap.siSccp ∧ ∃ sccp, sccpCodec.decode msu.payload = .ok sccp ∧
        isService sccp = false ∧ (kindOf sccp.data).isSome := by
  unfold check
  by_cases hsi : msu.si = Tcap.siSccp
  · rw [if_neg (not_not.mpr hsi)]
    cases hdecode : sccpCodec.decode msu.payload with
    | error reason => simp
    | ok sccp =>
      cases hservice : isService sccp with
      | true => simp [hservice]
      | false =>
        cases hkind : kindOf sccp.data with
        | none => simp [hservice, hkind]
        | some kind =>
          have hpolicy : ∃ start, (check sccpCodec tcapCodec policy msu domain
              terminatesHere).2 = some start := by
            simp only [check, hsi, ne_eq, not_true_eq_false, ↓reduceIte, hdecode, hservice,
              Bool.false_eq_true, hkind]
            cases policy (startOf tcapCodec msu domain terminatesHere sccp kind) with
            | admitted => exact ⟨_, rfl⟩
            | refuse cause => exact ⟨_, rfl⟩
          obtain ⟨start, hstart⟩ := hpolicy
          simp only [check, hsi, ne_eq, not_true_eq_false, ↓reduceIte, hdecode] at hstart
          rw [hstart]
          simp [hsi, hservice, hkind]
  · rw [if_pos hsi]
    simp [hsi]

/-- What the policy is not asked about passes. -/
theorem check_passes
    (h : (check sccpCodec tcapCodec policy msu domain terminatesHere).2 = none) :
    (check sccpCodec tcapCodec policy msu domain terminatesHere).1 = .pass := by
  unfold check at h ⊢
  split_ifs at h ⊢ with hsi
  · rfl
  · cases hdecode : sccpCodec.decode msu.payload with
    | error reason => rfl
    | ok sccp =>
      simp only [hdecode] at h ⊢
      split_ifs at h ⊢ with hservice
      · rfl
      · cases hkind : kindOf sccp.data with
        | none => rfl
        | some kind =>
          simp only [hkind] at h
          cases hpolicy : policy (startOf tcapCodec msu domain terminatesHere sccp kind) with
          | admitted => simp [hpolicy] at h
          | refuse cause => simp [hpolicy] at h

theorem isService_of_laterSegment {m : SccpMessage} (h : laterSegment m = true) :
    isService m = false := by
  cases m with
  | udt m => cases h
  | xudt m => rfl
  | ludt m => rfl
  | udts m => cases h
  | xudts m => cases h
  | ludts m => cases h

end

/-- The policy is asked about starts of dialogues and nothing else, exactly of a message that is no
later segment whose octets begin like a start. -/
theorem asksOfStarts_iff (sccpCodec : SccpCodec) (tcapCodec : TcapCodec) (policy : AdmissionPolicy)
    (msu : Msu) (domain : String) (terminatesHere : Bool) :
    AsksOfStarts sccpCodec tcapCodec policy msu domain terminatesHere ↔
      ¬ LooksLikeStart sccpCodec msu := by
  constructor
  · rintro h ⟨hsi, sccp, hdecode, hlater, hkind⟩
    have hasks := (check_asks_iff sccpCodec tcapCodec policy msu domain terminatesHere).mpr
      ⟨hsi, sccp, hdecode, isService_of_laterSegment hlater, hkind⟩
    obtain ⟨-, sccp', hdecode', -, hfirst, -⟩ := h.asks.mp hasks
    rw [hdecode, Except.ok.injEq] at hdecode'
    subst hdecode'
    rw [hlater] at hfirst
    cases hfirst
  · intro h
    have hasks : (check sccpCodec tcapCodec policy msu domain terminatesHere).2.isSome ↔
        StartsDialogue sccpCodec msu := by
      rw [check_asks_iff]
      constructor
      · rintro ⟨hsi, sccp, hdecode, hservice, hkind⟩
        refine ⟨hsi, sccp, hdecode, hservice, ?_, hkind⟩
        cases hlater : laterSegment sccp with
        | false => rfl
        | true => exact absurd ⟨hsi, sccp, hdecode, hlater, hkind⟩ h
      · rintro ⟨hsi, sccp, hdecode, hservice, -, hkind⟩
        exact ⟨hsi, sccp, hdecode, hservice, hkind⟩
    refine ⟨hasks, fun hnot => check_passes ?_⟩
    exact Option.not_isSome_iff_eq_none.mp (mt hasks.mp hnot)

/-- The last segment of a message, whose octets begin like a Begin. -/
def lastSegment : SccpMessage :=
  .xudt
    { Transport.ExtendedUnitData.new (.withSsn 6 none) (.withSsn 8 none) [0x62, 1, 2, 3] with
      protocolClass := 1
      optionalPart := [0x10, 4, 0, 0, 0, 7, 0] }

def lastSegmentOctets : Bytes :=
  [0x11, 1, 15, 4, 6, 8, 12, 2, 0x42, 6, 2, 0x42, 8, 4, 0x62, 1, 2, 3, 0x10, 4, 0, 0, 0, 7, 0]

def segmentCodec : SccpCodec := Transport.sccpOf [(lastSegment, lastSegmentOctets)]

/-- Octets of which none are a whole TCAP message. -/
def damagedTcap : TcapCodec where
  decodeDetailed data :=
    .problem ⟨if data.head? = some tagBegin then some .begins else none, none⟩
  encode _ := []
  dialoguePdu _ := none

def lastSegmentMsu : Msu := ⟨1, 2, Tcap.siSccp, 2, 0, 5, lastSegmentOctets⟩

def refuseAll : AdmissionPolicy := fun _ => .refuse (.new "closed")

/-- The last segment of a message is put to the policy, and refused. -/
theorem lastSegment_refused :
    laterSegment lastSegment = true ∧
      (check segmentCodec damagedTcap refuseAll lastSegmentMsu "default" false).1 =
        .refused ⟨.new "closed", .begins, none, lastSegment⟩ ∧
      ¬ AsksOfStarts segmentCodec damagedTcap refuseAll lastSegmentMsu "default" false := by
  have hrefused : (check segmentCodec damagedTcap refuseAll lastSegmentMsu "default"
      false).1 = .refused ⟨.new "closed", .begins, none, lastSegment⟩ := by decide +kernel
  refine ⟨by decide +kernel, hrefused, fun h => ?_⟩
  have hstarts : ¬ StartsDialogue segmentCodec lastSegmentMsu := by
    rintro ⟨-, sccp, hdecode, -, hlater, -⟩
    have hlast : segmentCodec.decode lastSegmentMsu.payload = .ok lastSegment := rfl
    rw [hlast, Except.ok.injEq] at hdecode
    subst hdecode
    exact absurd hlater (by decide +kernel)
  rw [h.passes hstarts] at hrefused
  cases hrefused

end SiphonSigtran.Routing
