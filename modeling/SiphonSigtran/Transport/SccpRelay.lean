import SiphonSigtran.Routing.Admission
import SiphonSigtran.Routing.Isup
import SiphonSigtran.Transport.Lineage

/-!
# Relaying SCCP

What a node reads and writes of the SCCP messages that it relays: the called party, by which a title
is translated, the hop counter, the digits that a content rule stamps, and the return of a message
that cannot go on. The return causes and the hop counter of a new return are those of the codec.
-/

namespace SiphonSigtran.Transport

open Lib Routing

structure SccpCrate extends SccpCodec where
  noTranslationForAddress : UInt8
  mtpFailure : UInt8
  sccpFailure : UInt8
  hopCounterViolation : UInt8
  newHopCounter : UInt8

/-! ## Messages -/

/-- Map a global title into the fields that a rule matches on. -/
def selectorFromGt (gt : SccpGt) : GttSelector :=
  let digits := ((digitsOf gt).getD "").toList
  match gt with
  | .gt0100 translationType numberingPlan _ natureOfAddress _ =>
    ⟨digits, some 4, some translationType.toNat, some numberingPlan.toNat,
      some natureOfAddress.toNat⟩
  | .gt0011 translationType numberingPlan _ _ =>
    ⟨digits, some 3, some translationType.toNat, some numberingPlan.toNat, none⟩
  | .gt0010 translationType _ => ⟨digits, some 2, some translationType.toNat, none, none⟩
  | .gt0001 natureOfAddress _ _ => ⟨digits, some 1, none, none, some natureOfAddress.toNat⟩
  | .noTitle => ⟨digits, none, none, none, none⟩

/-- Replace the digits of a global title, if it has any. -/
def setGtDigits (digits : String) : SccpGt → Option SccpGt
  | .gt0001 natureOfAddress oddEven _ => some (.gt0001 natureOfAddress oddEven digits)
  | .gt0010 translationType _ => some (.gt0010 translationType digits)
  | .gt0011 translationType numberingPlan encodingScheme _ =>
    some (.gt0011 translationType numberingPlan encodingScheme digits)
  | .gt0100 translationType numberingPlan encodingScheme natureOfAddress _ =>
    some (.gt0100 translationType numberingPlan encodingScheme natureOfAddress digits)
  | .noTitle => none

def UnitData.setCalledGt (gt : SccpGt) (m : UnitData) : UnitData :=
  { m with calledParty := { m.calledParty with globalTitle := gt } }

def ExtendedUnitData.setCalledGt (gt : SccpGt) (m : ExtendedUnitData) : ExtendedUnitData :=
  { m with calledParty := { m.calledParty with globalTitle := gt } }

namespace SccpMessage

/-- A message with other digits in the title of its called party, if it is one that may have
them. -/
def retitle (digits : String) : SccpMessage → Option SccpMessage
  | udt m => (setGtDigits digits m.calledParty.globalTitle).map fun gt => udt (m.setCalledGt gt)
  | xudt m => (setGtDigits digits m.calledParty.globalTitle).map fun gt => xudt (m.setCalledGt gt)
  | ludt m => (setGtDigits digits m.calledParty.globalTitle).map fun gt => ludt (m.setCalledGt gt)
  | udts _ | xudts _ | ludts _ => none

/-- A message with another hop counter, if it has one. -/
def setHopCounter (hop : UInt8) : SccpMessage → SccpMessage
  | xudt m => xudt { m with hopCounter := hop }
  | ludt m => ludt { m with hopCounter := hop }
  | xudts m => xudts { m with hopCounter := hop }
  | ludts m => ludts { m with hopCounter := hop }
  | udt m => udt m
  | udts m => udts m

/-- The return of a message, from the called party to the calling party. -/
def returned (cause newHopCounter : UInt8) (m : SccpMessage) : SccpMessage :=
  let ret : UnitDataService := ⟨cause, m.callingParty, m.calledParty, m.data⟩
  match m with
  | ludt _ => ludts ⟨ret, newHopCounter⟩
  | xudt _ => xudts ⟨ret, newHopCounter⟩
  | _ => udts ret

end SccpMessage

section

variable (sccp : SccpCrate)

/-- The title and the subsystem of the called party, by which a message is routed. -/
def calledOf (msu : Msu) : Option GttSelector × Option ℕ :=
  match sccp.decode msu.payload with
  | .error _ => (none, none)
  | .ok m =>
    ((digitsOf m.calledParty.globalTitle).map fun _ => selectorFromGt m.calledParty.globalTitle,
      m.calledParty.ssn.map UInt8.toNat)

/-- Stamp digits on the title of the called party. `none` is a message that is no such one, or does
not encode again. -/
def rewriteCalledGt (payload : List UInt8) (digits : Digits) : Option (List UInt8) :=
  match sccp.decode payload with
  | .error _ => none
  | .ok m => (m.retitle (String.ofList digits)).bind fun m => (sccp.encode m).toOption

/-- The return of a message that asked for it, to where the message came from. -/
def sccpReturn (inbound : Msu) (m : SccpMessage) (cause : UInt8) (ourPc : Option ℕ) : Option Msu :=
  if m.returnOnError then
    (sccp.encode (m.returned cause sccp.newHopCounter)).toOption.map fun payload =>
      { inbound with opc := ourPc.getD inbound.dpc, dpc := inbound.opc, payload := payload }
  else none

/-- Answer a message that cannot be delivered. -/
def returnUndeliverable (msu : Msu) (cause : UInt8) (ourPc : Option ℕ) : Option Msu :=
  if msu.si ≠ siSccp then none
  else match sccp.decode msu.payload with
    | .error _ => none
    | .ok m => sccpReturn sccp msu m cause ourPc

/-- Take one from the hop counter. A message with none left is a loop. -/
def hopCounterGuard (msu : Msu) (ourPc : Option ℕ) : Except (Option Msu) (List UInt8) :=
  if msu.si ≠ siSccp then .ok msu.payload
  else match sccp.decode msu.payload with
    | .error _ => .ok msu.payload
    | .ok m => match m.hopCounter with
      | none => .ok msu.payload
      | some hop =>
        let remaining := if hop = 0 then 0 else hop - 1
        if remaining ≠ 0 then
          .ok ((sccp.encode (m.setHopCounter remaining)).toOption.getD msu.payload)
        else .error (sccpReturn sccp msu m sccp.hopCounterViolation ourPc)

end

/-! ## A node -/

/-- What a node has beside its router: its codecs, the screening of its domain, and the admission
policy, which need not say the same of two messages. -/
structure Stp where
  sccp : SccpCrate
  tcap : TcapCodec
  map : MapCodec
  isup : Isup.Codec
  isupScreen : Option Isup.IsupScreen
  admissionPolicy : Option (ℕ → AdmissionPolicy)
  translated : Msu → String → Bool

namespace Stp

variable (stp : Stp) (fits : Variant → ℕ → Bool) (n : Network) (tenant : String)

/-- What the content layer sees of a message: a view, and whether it cannot be decoded. -/
def view (msu : Msu) : Option MapView × Bool :=
  match stp.sccp.decode msu.payload with
  | .error _ => (none, false)
  | .ok m => match screen stp.tcap stp.map m with
    | .view view _ => (some view, false)
    | .undecodable => (none, true)
    | .segmented | .notApplicable => (none, false)

/-- Whether the screening of ISUP drops a message. -/
def screened (msu : Msu) : Bool :=
  stp.isupScreen.any fun scr => scr.applyIsupScreen stp.isup msu.payload

/-- The refusal of a message that is relayed, and the return of the message if it asked for it. -/
def refusedByAdmission (ourPc : Option ℕ) (msu : Handed) : Option (Option Msu) :=
  match stp.admissionPolicy with
  | none => none
  | some policy =>
    match (check stp.sccp.toSccpCodec stp.tcap (policy msu.number) msu.msu tenant false).1 with
    | .pass => none
    | .refused refusal =>
      some (sccpReturn stp.sccp msu.msu refusal.sccp refusal.cause.returnCause ourPc)

/-- What the transfer path asks of the users of MTP3. -/
def users (ourPc : Option ℕ) (cause : UInt8) : Users where
  called := calledOf stp.sccp
  view := stp.view
  screened := stp.screened
  refused := stp.refusedByAdmission tenant ourPc
  hop msu := hopCounterGuard stp.sccp msu ourPc
  rewritten := rewriteCalledGt stp.sccp
  returned msu := returnUndeliverable stp.sccp msu cause ourPc
  translated := stp.translated

/-- The return cause that goes with a decision. -/
def causeOf : Option RouteDecision → UInt8
  | some (.routeTo _ _ none _) => stp.sccp.mtpFailure
  | some (.crossTenant _ _ _ _) => stp.sccp.sccpFailure
  | _ => stp.sccp.noTranslationForAddress

/-- The point code of the node in its domain. -/
def nodePointCode (s : Relay) : Option ℕ := (s.router.lookup tenant).map TenantRuntime.pointCode

/-- The users at one step of the transfer path. -/
def usersAt (s : Relay) : Relay.Turn → Users
  | .arrive _ msu =>
    let ourPc := nodePointCode tenant s
    stp.users tenant ourPc (stp.causeOf (s.decision fits (stp.users tenant ourPc 0) tenant msu).1)
  | _ => stp.users tenant (nodePointCode tenant s) 0

/-- The transfer path of the node. -/
def step (s : Relay) (turn : Relay.Turn) : Relay × List Sent :=
  s.step fits n (stp.usersAt fits tenant s turn) tenant turn

end Stp

/-! ## Messages up to the encoding of their titles -/

namespace SccpMessage

/-- A message without the encodings of its titles, which are those of their digits. -/
def plain : SccpMessage → SccpMessage
  | udt m => udt { m with
      calledParty := m.calledParty.plain, callingParty := m.callingParty.plain }
  | xudt m => xudt { m with
      calledParty := m.calledParty.plain, callingParty := m.callingParty.plain }
  | ludt m => ludt { m with
      calledParty := m.calledParty.plain, callingParty := m.callingParty.plain }
  | udts m => udts { m with
      calledParty := m.calledParty.plain, callingParty := m.callingParty.plain }
  | xudts m => xudts { m with
      calledParty := m.calledParty.plain, callingParty := m.callingParty.plain }
  | ludts m => ludts { m with
      calledParty := m.calledParty.plain, callingParty := m.callingParty.plain }

/-- A message that is returned to its sender. -/
def isReturn (m : SccpMessage) : Bool := m.returnCause.isSome

/-- A message with one hop less, if it counts them. -/
def lower (m : SccpMessage) : SccpMessage :=
  match m.hopCounter with
  | some hop => m.setHopCounter (hop - 1)
  | none => m

variable (m : SccpMessage)

@[simp] theorem data_plain : m.plain.data = m.data := by cases m <;> rfl

@[simp] theorem hopCounter_plain : m.plain.hopCounter = m.hopCounter := by cases m <;> rfl

@[simp] theorem handling_plain : m.plain.handling = m.handling := by cases m <;> rfl

@[simp] theorem returnCause_plain : m.plain.returnCause = m.returnCause := by cases m <;> rfl

@[simp] theorem calledParty_plain : m.plain.calledParty = m.calledParty.plain := by
  cases m <;> rfl

@[simp] theorem callingParty_plain : m.plain.callingParty = m.callingParty.plain := by
  cases m <;> rfl

@[simp] theorem data_lower : m.lower.data = m.data := by cases m <;> rfl

@[simp] theorem handling_lower : m.lower.handling = m.handling := by cases m <;> rfl

@[simp] theorem returnCause_lower : m.lower.returnCause = m.returnCause := by cases m <;> rfl

@[simp] theorem callingParty_lower : m.lower.callingParty = m.callingParty := by cases m <;> rfl

@[simp] theorem calledParty_lower : m.lower.calledParty = m.calledParty := by cases m <;> rfl

@[simp] theorem hopCounter_lower : m.lower.hopCounter = m.hopCounter.map fun hop => hop - 1 := by
  cases m <;> rfl

end SccpMessage

/-- What a codec of SCCP does: what it writes it reads again, but for the encoding of titles, and
what it reads it can write with another hop counter. -/
structure SccpCodec.Sound (codec : SccpCodec) : Prop where
  decode_encode : ∀ m bytes, codec.encode m = .ok bytes →
    ∃ m', codec.decode bytes = .ok m' ∧ m'.plain = m.plain
  encode_decoded : ∀ bytes m hop, codec.decode bytes = .ok m →
    ∃ bytes', codec.encode (m.setHopCounter hop) = .ok bytes'

theorem setGtDigits_plain (digits : String) (gt : SccpGt) :
    setGtDigits digits gt.plain = (setGtDigits digits gt).map SccpGt.plain := by
  cases gt <;> rfl

@[simp] theorem SccpGt.plain_plain (gt : SccpGt) : gt.plain.plain = gt.plain := by
  cases gt <;> rfl

@[simp] theorem SccpAddress.plain_plain (addr : SccpAddress) : addr.plain.plain = addr.plain := by
  simp [SccpAddress.plain]

theorem retitle_plain (digits : String) (m : SccpMessage) :
    (m.plain.retitle digits).map SccpMessage.plain =
      (m.retitle digits).map SccpMessage.plain := by
  cases m with
  | udt m | xudt m | ludt m =>
    simp only [SccpMessage.plain, SccpMessage.retitle, SccpAddress.plain, setGtDigits_plain,
      Option.map_map]
    congr 1
    funext gt
    simp [UnitData.setCalledGt, ExtendedUnitData.setCalledGt, SccpMessage.plain, SccpAddress.plain]
  | udts m | xudts m | ludts m => rfl

/-- Other digits change nothing but the title of the called party. -/
theorem retitle_some {digits : String} {m m' : SccpMessage} (h : m.retitle digits = some m') :
    m'.data = m.data ∧ m'.handling = m.handling ∧ m'.returnCause = m.returnCause ∧
      m'.hopCounter = m.hopCounter ∧ m'.callingParty = m.callingParty ∧
      m'.calledParty.ssn = m.calledParty.ssn := by
  cases m with
  | udt m | xudt m | ludt m =>
    obtain ⟨gt, -, rfl⟩ := Option.map_eq_some_iff.mp h
    exact ⟨rfl, rfl, rfl, rfl, rfl, rfl⟩
  | udts m | xudts m | ludts m => cases h

/-! ## What a translation does to a message -/

/-- A message that a translation lets through: it had hops left, and has one less, and may have got
other digits. Nothing else is changed. -/
structure Translation (m m' : SccpMessage) : Prop where
  hops : ∀ hop, m.hopCounter = some hop → 2 ≤ hop.toNat
  same : ∃ digits : Option String,
    m'.plain = ((digits.bind fun digits => m.lower.retitle digits).getD m.lower).plain

namespace Translation

variable {m m' : SccpMessage}

theorem keeps (h : Translation m m') : m'.data = m.data ∧ m'.handling = m.handling ∧
    m'.returnCause = m.returnCause ∧ m'.hopCounter = m.hopCounter.map (fun hop => hop - 1) ∧
    m'.callingParty.plain = m.callingParty.plain ∧ m'.calledParty.ssn = m.calledParty.ssn := by
  obtain ⟨digits, hsame⟩ := h.same
  generalize hx : (digits.bind fun digits => m.lower.retitle digits).getD m.lower = x at hsame
  have hkept : x.data = m.data ∧ x.handling = m.handling ∧ x.returnCause = m.returnCause ∧
      x.hopCounter = m.hopCounter.map (fun hop => hop - 1) ∧ x.callingParty = m.callingParty ∧
      x.calledParty.ssn = m.calledParty.ssn := by
    have hlower : x = m.lower ∨ ∃ digits, m.lower.retitle digits = some x := by
      cases digits with
      | none => exact Or.inl hx.symm
      | some digits =>
        rw [Option.bind_some] at hx
        cases hretitle : m.lower.retitle digits with
        | none =>
          rw [hretitle] at hx
          exact Or.inl hx.symm
        | some m₁ =>
          rw [hretitle, Option.getD_some] at hx
          exact Or.inr ⟨digits, hx ▸ hretitle⟩
    rcases hlower with rfl | ⟨digits, hretitle⟩
    · simp
    · obtain ⟨hdata, hhandling, hcause, hhop, hcalling, hssn⟩ := retitle_some hretitle
      refine ⟨by simp [hdata], by simp [hhandling], by simp [hcause], by simp [hhop],
        by simp [hcalling], by simp [hssn]⟩
  obtain ⟨hdata, hhandling, hcause, hhop, hcalling, hssn⟩ := hkept
  refine ⟨?_, ?_, ?_, ?_, ?_, ?_⟩
  · rw [← hdata, ← m'.data_plain, hsame, x.data_plain]
  · rw [← hhandling, ← m'.handling_plain, hsame, x.handling_plain]
  · rw [← hcause, ← m'.returnCause_plain, hsame, x.returnCause_plain]
  · rw [← hhop, ← m'.hopCounter_plain, hsame, x.hopCounter_plain]
  · rw [← m'.callingParty_plain, hsame, x.callingParty_plain, hcalling]
  · have hcalled : m'.calledParty.plain = x.calledParty.plain := by
      rw [← m'.calledParty_plain, hsame, x.calledParty_plain]
    have hsame := congrArg SccpAddress.ssn hcalled
    rw [← hssn]
    exact hsame

/-- A message that counts its hops has some left after a translation. -/
theorem hopCounter_lt (h : Translation m m') {hop : UInt8} (hhop : m.hopCounter = some hop) :
    ∃ hop', m'.hopCounter = some hop' ∧ hop'.toNat + 1 = hop.toNat ∧ 1 ≤ hop'.toNat := by
  have hleft := h.hops hop hhop
  refine ⟨hop - 1, by rw [h.keeps.2.2.2.1, hhop]; rfl, ?_⟩
  have hsub : (hop - 1).toNat = hop.toNat - 1 := by
    apply UInt8.toNat_sub_of_le
    exact UInt8.le_iff_toNat_le.mpr (by simpa using Nat.le_of_succ_le hleft)
  omega

end Translation

section

variable {sccp : SccpCrate} {msu : Msu} {m : SccpMessage} {ourPc : Option ℕ}

/-- What the guard lets through has one hop less. -/
theorem hopCounterGuard_ok (hsound : sccp.Sound) (hsi : msu.si = siSccp)
    (hdecode : sccp.decode msu.payload = .ok m) {payload : List UInt8}
    (h : hopCounterGuard sccp msu ourPc = .ok payload) :
    (∀ hop, m.hopCounter = some hop → 2 ≤ hop.toNat) ∧
      ∃ m', sccp.decode payload = .ok m' ∧ m'.plain = m.lower.plain := by
  unfold hopCounterGuard at h
  rw [if_neg (not_not.mpr hsi), hdecode] at h
  dsimp only at h
  cases hhop : m.hopCounter with
  | none =>
    rw [hhop] at h
    obtain rfl := Except.ok.inj h
    refine ⟨fun hop hop' => (Option.some_ne_none hop hop'.symm).elim, m, hdecode, ?_⟩
    simp [SccpMessage.lower, hhop]
  | some hop =>
    rw [hhop] at h
    dsimp only at h
    split_ifs at h with hzero hno hleft
    · exact absurd rfl hno
    have htwo : 2 ≤ hop.toNat := by
      have hone : hop ≠ 1 := by
        rintro rfl
        exact hleft rfl
      have h0 : hop.toNat ≠ 0 := fun h => hzero (UInt8.toNat_inj.mp h)
      have h1 : hop.toNat ≠ 1 := fun h => hone (UInt8.toNat_inj.mp h)
      omega
    obtain ⟨bytes, hencode⟩ := hsound.encode_decoded msu.payload m (hop - 1) hdecode
    rw [hencode] at h
    obtain rfl := Except.ok.inj h
    obtain ⟨m', hdecode', hplain⟩ := hsound.decode_encode _ bytes hencode
    refine ⟨fun hop' hhop' => Option.some.inj hhop' ▸ htwo, m', hdecode', ?_⟩
    simpa [SccpMessage.lower, hhop] using hplain

/-- What the guard stops is returned if it asked for that. -/
theorem hopCounterGuard_error {violation : Option Msu}
    (h : hopCounterGuard sccp msu ourPc = .error violation) :
    msu.si = siSccp ∧ ∃ m, sccp.decode msu.payload = .ok m ∧
      violation = sccpReturn sccp msu m sccp.hopCounterViolation ourPc := by
  unfold hopCounterGuard at h
  split_ifs at h with hsi
  refine ⟨not_not.mp hsi, ?_⟩
  cases hdecode : sccp.decode msu.payload with
  | error e => simp [hdecode] at h
  | ok m =>
    cases hhop : m.hopCounter with
    | none => simp [hdecode, hhop] at h
    | some hop =>
      simp only [hdecode, hhop] at h
      split_ifs at h
      · exact ⟨m, rfl, (Except.error.inj h).symm⟩
      · exact ⟨m, rfl, (Except.error.inj h).symm⟩

/-- What goes on past a translation. -/
theorem translation_of_guard (hsound : sccp.Sound) (hsi : msu.si = siSccp)
    (hdecode : sccp.decode msu.payload = .ok m) {payload : List UInt8}
    (h : hopCounterGuard sccp msu ourPc = .ok payload) (gt : Option Digits) :
    ∃ m', sccp.decode (match gt with
        | none => payload
        | some gt => (rewriteCalledGt sccp payload gt).getD payload) = .ok m' ∧
      Translation m m' := by
  obtain ⟨hops, m₁, hm₁, hplain⟩ := hopCounterGuard_ok hsound hsi hdecode h
  cases gt with
  | none => exact ⟨m₁, hm₁, hops, none, hplain⟩
  | some gt =>
    dsimp only
    cases hrewrite : rewriteCalledGt sccp payload gt with
    | none => exact ⟨m₁, hm₁, hops, none, hplain⟩
    | some bytes =>
      unfold rewriteCalledGt at hrewrite
      rw [hm₁] at hrewrite
      obtain ⟨m₂, hretitle, hencode⟩ := Option.bind_eq_some_iff.mp hrewrite
      have hok : sccp.encode m₂ = .ok bytes := by
        cases hx : sccp.encode m₂ with
        | error e => simp [hx, Except.toOption] at hencode
        | ok b => simpa [hx, Except.toOption] using hencode
      obtain ⟨m', hm', hplain'⟩ := hsound.decode_encode m₂ bytes hok
      refine ⟨m', hm', hops, some (String.ofList gt), ?_⟩
      have hsame := retitle_plain (String.ofList gt) m₁
      rw [hplain, retitle_plain (String.ofList gt) m.lower, hretitle] at hsame
      cases hlower : m.lower.retitle (String.ofList gt) with
      | none => simp [hlower] at hsame
      | some m₃ =>
        rw [hlower, Option.map_some, Option.map_some, Option.some.injEq] at hsame
        rw [Option.bind_some, hlower, Option.getD_some, hplain', hsame]

/-- A return is what its message asked for. -/
theorem sccpReturn_some (hsound : sccp.Sound) {cause : UInt8} {ret : Msu}
    (h : sccpReturn sccp msu m cause ourPc = some ret) :
    m.returnOnError = true ∧
      ret = { msu with opc := ourPc.getD msu.dpc, dpc := msu.opc, payload := ret.payload } ∧
      ∃ m', sccp.decode ret.payload = .ok m' ∧
        m'.plain = (m.returned cause sccp.newHopCounter).plain := by
  unfold sccpReturn at h
  split_ifs at h with hasked
  obtain ⟨bytes, hencode, rfl⟩ := Option.map_eq_some_iff.mp h
  have hok : sccp.encode (m.returned cause sccp.newHopCounter) = .ok bytes := by
    cases hx : sccp.encode (m.returned cause sccp.newHopCounter) with
    | error e => simp [hx, Except.toOption] at hencode
    | ok b => simpa [hx, Except.toOption] using hencode
  exact ⟨hasked, rfl, hsound.decode_encode _ bytes hok⟩

end

end SiphonSigtran.Transport
