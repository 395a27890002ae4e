import SiphonSigtran.Transport.SccpRelay

/-!
# What a node makes of the messages it transfers

Whatever a message goes through on the transfer path, it leaves as it came in but for what a
translation changes, and what the node sends of its own is the return of a message that asked to be
returned.
-/

namespace SiphonSigtran.Transport

open Lib Routing

namespace Stp

variable (stp : Stp) (tenant : String) (ourPc : Option ℕ)

/-- What a message with a number is that leaves the node, of the message that came in. -/
structure Carries (a : Msu) (m : Handed) : Prop where
  label : m.msu = { a with dpc := m.msu.dpc, payload := m.msu.payload }
  foreign : ourPc ≠ some a.opc
  unscreened : a.si = Relay.siIsup → stp.screened a = false
  admitted : stp.refusedByAdmission tenant ourPc ⟨m.number, a⟩ = none
  content : m.msu = a ∨ a.si = siSccp ∧ ∃ x x', stp.sccp.decode a.payload = .ok x ∧
    stp.sccp.decode m.msu.payload = .ok x' ∧ Translation x x'

/-- What a message of the node's own is, of the message that it answers. -/
structure Answers (a : Msu) (m : Handed) : Prop where
  label : m.msu =
    { a with opc := ourPc.getD a.dpc, dpc := a.opc, payload := m.msu.payload }
  foreign : ourPc ≠ some a.opc
  sccp : a.si = siSccp
  content : ∃ x x' cause, stp.sccp.decode a.payload = .ok x ∧ x.returnOnError = true ∧
    stp.sccp.decode m.msu.payload = .ok x' ∧
      x'.plain = (x.returned cause stp.sccp.newHopCounter).plain

variable {stp tenant ourPc} {fits : Variant → ℕ → Bool} {n : Network} {s : Relay} {cause : UInt8}

/-! ## Decisions -/

/-- A message is not one of the node's own if it is decided on. -/
theorem foreign_of_decision {a : Msu} {d : RouteDecision} {users : Users}
    (h : (s.decision fits users tenant a).1 = some d) : nodePointCode tenant s ≠ some a.opc := by
  unfold Relay.decision at h
  intro hown
  rw [nodePointCode] at hown
  rw [if_pos hown] at h
  cases h

/-- Only SCCP messages that can be read are routed by their title. -/
theorem routeFor_routeTo {r : Routing.Router} {dpc sls pc ssn : ℕ} {via : Option Destination}
    {gt : Option Digits} :
    (routeFor fits r tenant ⟨dpc, none, none, none, false⟩ sls).1 ≠ .routeTo pc ssn via gt := by
  unfold routeFor
  cases hrt : r.lookup tenant with
  | none => simp
  | some rt =>
    dsimp only
    have htitle : ∀ d, (routeByTitle fits r tenant rt ⟨dpc, none, none, none, false⟩ sls).1 = d →
        d ≠ .routeTo pc ssn via gt := by
      intro d hd
      simp only [routeByTitle, Option.any_none, Bool.false_eq_true, ↓reduceIte] at hd
      rw [← hd]
      simp
    split_ifs with hdpc hlocal hundecodable
    · cases resolveDestination fits rt dpc sls <;> simp
    · simp
    · simp
    · have hhit : hitOf rt ⟨dpc, none, none, none, false⟩ = none := by
        unfold hitOf
        cases rt.content <;> rfl
      rw [hhit]
      exact htitle _ rfl

theorem sccp_of_routeTo {a : Msu} {pc ssn : ℕ} {via : Option Destination} {gt : Option Digits}
    (h : (s.decision fits (stp.users tenant ourPc cause) tenant a).1 =
      some (.routeTo pc ssn via gt)) :
    a.si = siSccp ∧ ∃ x, stp.sccp.decode a.payload = .ok x := by
  unfold Relay.decision at h
  split_ifs at h with hown
  have hrouted := Option.some.inj h
  unfold Relay.inboundOf at hrouted
  by_cases hsi : a.si = Relay.siSccp
  · refine ⟨hsi, ?_⟩
    cases hdecode : stp.sccp.decode a.payload with
    | ok x => exact ⟨x, rfl⟩
    | error e =>
      have hcalled : (stp.users tenant ourPc cause).called a = (none, none) := by
        simp [users, calledOf, hdecode]
      have hview : (stp.users tenant ourPc cause).view a = (none, false) := by
        simp [users, view, hdecode]
      simp only [if_pos hsi, hcalled, hview, ite_self] at hrouted
      exact absurd hrouted routeFor_routeTo
  · rw [if_neg hsi] at hrouted
    exact absurd hrouted routeFor_routeTo

/-! ## One step -/

variable {router : Routing.Router} {reroutingBuffer : ℕ}

theorem carries_of_leaves (hsound : stp.sccp.Sound) {a b : Msu} {d : RouteDecision} {number : ℕ}
    (hpc : nodePointCode tenant s = ourPc)
    (hd : (s.decision fits (stp.users tenant ourPc cause) tenant a).1 = some d)
    (h : Relay.Leaves (stp.users tenant ourPc cause) ⟨number, a⟩ d b) :
    stp.Carries tenant ourPc a ⟨number, b⟩ := by
  have hforeign : ourPc ≠ some a.opc := hpc ▸ foreign_of_decision hd
  cases h with
  | transferred via hscreened hadmitted =>
    refine ⟨rfl, hforeign, fun hsi => ?_, hadmitted, Or.inl rfl⟩
    have hnot : ¬ stp.screened a = true := fun h => hscreened ⟨hsi, h⟩
    simpa using hnot
  | translated via dpc ssn gt payload hadmitted hhop =>
    obtain ⟨hsi, x, hx⟩ := sccp_of_routeTo hd
    obtain ⟨x', hx', htranslation⟩ := translation_of_guard hsound hsi hx hhop gt
    refine ⟨rfl, hforeign, fun hisup => ?_, hadmitted, Or.inr ⟨hsi, x, x', hx, hx', htranslation⟩⟩
    rw [hsi] at hisup
    cases hisup

theorem answers_of_sccpReturn (hsound : stp.sccp.Sound) {a ret : Msu} {x : SccpMessage}
    {number : ℕ} (hforeign : ourPc ≠ some a.opc) (hsi : a.si = siSccp)
    (hx : stp.sccp.decode a.payload = .ok x)
    (h : sccpReturn stp.sccp a x cause ourPc = some ret) :
    stp.Answers ourPc a ⟨number, ret⟩ := by
  obtain ⟨hasked, hlabel, x', hx', hplain⟩ := sccpReturn_some hsound h
  exact ⟨hlabel, hforeign, hsi, x, x', cause, hx, hasked, hx', hplain⟩

theorem answers_of_returnUndeliverable (hsound : stp.sccp.Sound) {a ret : Msu} {number : ℕ}
    (hforeign : ourPc ≠ some a.opc)
    (h : returnUndeliverable stp.sccp a cause ourPc = some ret) :
    stp.Answers ourPc a ⟨number, ret⟩ := by
  unfold returnUndeliverable at h
  split_ifs at h with hsi
  cases hx : stp.sccp.decode a.payload with
  | error e => simp [hx] at h
  | ok x =>
    rw [hx] at h
    exact answers_of_sccpReturn hsound hforeign (not_not.mp hsi) hx h

/-- A refusal has the message that was read. -/
theorem refused_sccp {sccp : SccpCodec} {tcap : TcapCodec} {policy : AdmissionPolicy} {a : Msu}
    {refusal : Routing.Refusal}
    (h : (check sccp tcap policy a tenant false).1 = .refused refusal) :
    a.si = siSccp ∧ sccp.decode a.payload = .ok refusal.sccp := by
  unfold check at h
  split_ifs at h with hsi
  refine ⟨not_not.mp hsi, ?_⟩
  cases hx : sccp.decode a.payload with
  | error e => simp [hx] at h
  | ok x =>
    simp only [hx] at h
    split_ifs at h
    cases hkind : kindOf x.data with
    | none => simp [hkind] at h
    | some kind =>
      simp only [hkind] at h
      cases hpolicy : policy (startOf tcap a tenant false x kind) with
      | admitted => simp [hpolicy] at h
      | refuse cause =>
        simp only [hpolicy, Gate.refused.injEq] at h
        rw [← h]

theorem answers_of_refused (hsound : stp.sccp.Sound) {a ret : Msu} {number k : ℕ}
    (hforeign : ourPc ≠ some a.opc)
    (h : stp.refusedByAdmission tenant ourPc ⟨number, a⟩ = some (some ret)) :
    stp.Answers ourPc a ⟨k, ret⟩ := by
  unfold refusedByAdmission at h
  cases hpolicy : stp.admissionPolicy with
  | none => simp [hpolicy] at h
  | some policy =>
    rw [hpolicy] at h
    dsimp only at h
    cases hgate : (check stp.sccp.toSccpCodec stp.tcap (policy number) a tenant false).1 with
    | pass => simp [hgate] at h
    | refused refusal =>
      rw [hgate] at h
      have hret := Option.some.inj h
      have hread := refused_sccp hgate
      exact answers_of_sccpReturn hsound hforeign hread.1 hread.2 hret

theorem answers_of_returnOf (hsound : stp.sccp.Sound) {a ret : Msu} {d : RouteDecision}
    {src : Option Destination} {number k : ℕ} (hforeign : ourPc ≠ some a.opc)
    (h : returnOf (stp.users tenant ourPc cause) src ⟨number, a⟩ d = some ret) :
    stp.Answers ourPc a ⟨k, ret⟩ := by
  cases d with
  | local_ => cases h
  | drop reason => exact answers_of_returnUndeliverable hsound hforeign h
  | crossTenant t dpc ssn conversion => exact answers_of_returnUndeliverable hsound hforeign h
  | route via =>
    simp only [returnOf] at h
    split_ifs at h
    exact answers_of_refused hsound hforeign (Option.join_eq_some_iff.mp h)
  | routeTo dpc ssn via gt =>
    cases via with
    | none => exact answers_of_returnUndeliverable hsound hforeign h
    | some via =>
      simp only [returnOf] at h
      split_ifs at h
      cases hrefused : (stp.users tenant ourPc cause).refused ⟨number, a⟩ with
      | some refusal =>
        rw [hrefused] at h
        dsimp only at h
        exact answers_of_refused hsound hforeign (hrefused.trans (congrArg some h))
      | none =>
        rw [hrefused] at h
        cases hhop : (stp.users tenant ourPc cause).hop a with
        | ok payload => simp [hhop] at h
        | error violation =>
          simp only [hhop] at h
          obtain ⟨hsi, x, hx, hviolation⟩ := hopCounterGuard_error hhop
          exact answers_of_sccpReturn hsound hforeign hsi hx (hviolation.symm.trans h)

/-! ## The point code of the node -/

theorem pointCode_selected {r : Routing.Router} {rt : TenantRuntime}
    (hrt : r.lookup tenant = some rt) (gtt : GttResolver) : ((selected r tenant rt gtt).lookup tenant).map TenantRuntime.pointCode =
      (r.lookup tenant).map TenantRuntime.pointCode := by
  simp [selected, hrt]

/-- Routing moves the cursors of groups and leaves the point code as it is. -/
theorem pointCode_routeFor (r : Routing.Router) (msg : Inbound) (sls : ℕ) :
    ((routeFor fits r tenant msg sls).2.lookup tenant).map TenantRuntime.pointCode =
      (r.lookup tenant).map TenantRuntime.pointCode := by
  unfold routeFor
  cases hrt : r.lookup tenant with
  | none => simp [hrt]
  | some rt =>
    have htitle : ((routeByTitle fits r tenant rt msg sls).2.lookup tenant).map
        TenantRuntime.pointCode = (r.lookup tenant).map TenantRuntime.pointCode := by
      unfold routeByTitle
      cases msg.cdpa with
      | none =>
        dsimp only
        split_ifs <;> rfl
      | some sel =>
        dsimp only
        cases rt.gtt.translate (preConvert rt sel) with
        | mk result gtt =>
          cases result with
          | none => exact pointCode_selected hrt gtt
          | some result => exact pointCode_selected hrt gtt
    rw [hrt] at htitle
    dsimp only
    split_ifs
    · cases resolveDestination fits rt msg.dpc sls <;> simp [hrt]
    · simp [hrt]
    · simp [hrt]
    · cases hitOf rt msg with
      | none => exact htitle
      | some hit =>
        dsimp only
        cases decisionFromAction fits r rt sls hit.action with
        | mk decision gtt =>
          cases decision with
          | none => exact htitle
          | some decision =>
            have hselected := pointCode_selected hrt gtt
            rw [hrt] at hselected
            exact hselected

theorem pointCode_decision (users : Users) (a : Msu) :
    ((s.decision fits users tenant a).2.lookup tenant).map TenantRuntime.pointCode =
      nodePointCode tenant s := by
  unfold Relay.decision
  split_ifs
  · rfl
  · exact pointCode_routeFor s.router _ a.sls

theorem nodePointCode_step (turn : Relay.Turn) :
    nodePointCode tenant (stp.step fits n tenant s turn).1 = nodePointCode tenant s := by
  unfold step
  by_cases harrive : ∃ origin a, turn = .arrive origin a
  · obtain ⟨origin, a, rfl⟩ := harrive
    simp only [Relay.step]
    split_ifs
    · rw [nodePointCode, Relay.router_dispatch]
      exact pointCode_decision _ a
    · rfl
  · have hturn : ∀ origin a, turn ≠ .arrive origin a := fun origin a heq => harrive ⟨origin, a, heq⟩
    have hkept : _ ∧
        ((s.step fits n (stp.usersAt fits tenant s turn) tenant turn).1.router = _ ∨ _) :=
      Relay.kept_step hturn
    obtain ⟨-, hrouter | ⟨states, hrouter⟩⟩ := hkept
    · rw [nodePointCode, hrouter]
      rfl
    · rw [nodePointCode, hrouter, nodePointCode, Store.lookup_mapValues, Option.map_map]
      rfl

/-! ## Every run -/

variable (stp tenant fits n)

/-- The transfer path of the node, with the messages that came in: by each number the one that has
it, or that the answer with that number is to. -/
def watching : Relay × List Msu → Relay.Turn → Relay × List Msu :=
  Machine.watch (stp.step fits n tenant) fun asked s turn out =>
    asked ++ Relay.askedAt s out.1 turn

variable {stp tenant fits n} {asked : List Msu}

theorem traced_step (hsound : stp.sccp.Sound) (hpc : nodePointCode tenant s = ourPc)
    (h : Relay.Traced (stp.Carries tenant ourPc) (stp.Answers ourPc) s asked)
    (turn : Relay.Turn) :
    Relay.Traced (stp.Carries tenant ourPc) (stp.Answers ourPc) (stp.step fits n tenant s turn).1
      (asked ++ Relay.askedAt s (stp.step fits n tenant s turn).1 turn) := by
  subst hpc
  apply h.step turn
  · rintro origin a d b rfl hd hb
    exact carries_of_leaves hsound rfl hd hb
  · rintro origin a d src ret rfl hd hret
    exact answers_of_returnOf hsound (foreign_of_decision hd) hret

/-- The causes that a message is returned for, by the decision on it. -/
def Cause (stp : Stp) (tenant : String) (a : Handed) (cause : UInt8) : RouteDecision → Prop
  | .drop _ => cause = stp.sccp.noTranslationForAddress
  | .crossTenant _ _ _ _ => cause = stp.sccp.sccpFailure
  | .routeTo _ _ none _ => cause = stp.sccp.mtpFailure
  | .routeTo _ _ (some _) _ => cause = stp.sccp.hopCounterViolation ∨ Refused
  | .route _ => Refused
  | .local_ => False
where
  /-- The policy refused the message with the cause. -/
  Refused : Prop :=
    ∃ policy refusal, stp.admissionPolicy = some policy ∧
      (check stp.sccp.toSccpCodec stp.tcap (policy a.number) a.msu tenant false).1 =
        .refused refusal ∧ cause = refusal.cause.returnCause

section

variable {a : Msu} {x : SccpMessage} {src : Destination} {number : ℕ}

theorem sccpReturn_isSome (cause : UInt8) (ourPc : Option ℕ) (a : Msu)
    (hencodes : ∀ cause, ∃ bytes, stp.sccp.encode (x.returned cause stp.sccp.newHopCounter) =
      .ok bytes) (hasked : x.returnOnError = true) :
    ∃ ret, sccpReturn stp.sccp a x cause ourPc = some ret := by
  obtain ⟨bytes, hbytes⟩ := hencodes cause
  unfold sccpReturn
  rw [if_pos hasked, hbytes]
  exact ⟨_, rfl⟩

theorem refused_return {refused : Option Msu} (hx : stp.sccp.decode a.payload = .ok x)
    (h : stp.refusedByAdmission tenant ourPc ⟨number, a⟩ = some refused) :
    ∃ cause, Cause.Refused stp tenant ⟨number, a⟩ cause ∧
      refused = sccpReturn stp.sccp a x cause ourPc := by
  unfold refusedByAdmission at h
  cases hpolicy : stp.admissionPolicy with
  | none => simp [hpolicy] at h
  | some policy =>
    rw [hpolicy] at h
    dsimp only at h
    cases hgate : (check stp.sccp.toSccpCodec stp.tcap (policy number) a tenant false).1 with
    | pass => simp [hgate] at h
    | refused refusal =>
      rw [hgate] at h
      have hread : x = refusal.sccp :=
        Except.ok.inj (hx.symm.trans (refused_sccp hgate).2)
      refine ⟨refusal.cause.returnCause, ⟨policy, refusal, hpolicy, hgate, rfl⟩, ?_⟩
      rw [hread]
      exact (Option.some.inj h).symm

/-- A message that asked to be returned leaves by the decision on it, or is returned for a cause of
the decision. -/
theorem leaves_or_returned (s : Relay) (ourPc : Option ℕ) (number : ℕ) (hsi : a.si = siSccp)
    (hx : stp.sccp.decode a.payload = .ok x)
    {d : RouteDecision} (hcause : cause = stp.causeOf (some d)) (hlocal : d ≠ .local_)
    (hforward : ∀ via, Relay.viaOf d = some via → via ≠ src) :
    (∃ b, Relay.Leaves (stp.users tenant ourPc cause) ⟨number, a⟩ d b ∧
      ∃ via, s.carryOut (stp.users tenant ourPc cause) (some src) ⟨number, a⟩ d =
        s.forward via ⟨number, b⟩ true) ∨
    ∃ why, Cause stp tenant ⟨number, a⟩ why d ∧
      s.carryOut (stp.users tenant ourPc cause) (some src) ⟨number, a⟩ d =
        s.answer (some src) (sccpReturn stp.sccp a x why ourPc) := by
  have hreturned : ∀ why, returnUndeliverable stp.sccp a why ourPc =
      sccpReturn stp.sccp a x why ourPc := by
    intro why
    unfold returnUndeliverable
    rw [if_neg (not_not.mpr hsi), hx]
  have hguard : ∀ via, Relay.viaOf d = some via → ¬ Relay.isReflection (some src) via = true := by
    intro via hvia h
    exact hforward via hvia (Option.some.inj (of_decide_eq_true h)).symm
  subst hcause
  cases d with
  | local_ => exact absurd rfl hlocal
  | drop reason => exact Or.inr ⟨_, rfl, congrArg (s.answer (some src)) (hreturned _)⟩
  | crossTenant t dpc ssn conversion =>
    exact Or.inr ⟨_, rfl, congrArg (s.answer (some src)) (hreturned _)⟩
  | route via =>
    have hscreened : ¬ ((⟨number, a⟩ : Handed).msu.si = Relay.siIsup ∧
        (stp.users tenant ourPc (stp.causeOf (some (.route via)))).screened
          (⟨number, a⟩ : Handed).msu = true) := by
      rintro ⟨hisup, -⟩
      rw [hsi] at hisup
      cases hisup
    rw [Relay.carryOut, if_neg hscreened, if_neg (hguard via rfl), Relay.admission]
    cases hrefused : (stp.users tenant ourPc (stp.causeOf (some (.route via)))).refused
        ⟨number, a⟩ with
    | none => exact Or.inl ⟨a, .transferred via hscreened hrefused, via, rfl⟩
    | some refused =>
      obtain ⟨why, hwhy, rfl⟩ := refused_return hx hrefused
      exact Or.inr ⟨why, hwhy, rfl⟩
  | routeTo dpc ssn via gt =>
    cases via with
    | none => exact Or.inr ⟨_, rfl, congrArg (s.answer (some src)) (hreturned _)⟩
    | some via =>
      rw [Relay.carryOut, if_neg (hguard via rfl), Relay.admission]
      generalize stp.causeOf (some (.routeTo dpc ssn (some via) gt)) = cause
      cases hrefused : (stp.users tenant ourPc cause).refused ⟨number, a⟩ with
      | some refused =>
        obtain ⟨why, hwhy, rfl⟩ := refused_return hx hrefused
        exact Or.inr ⟨why, Or.inr hwhy, rfl⟩
      | none =>
        dsimp only
        rw [Relay.relayTo]
        cases hhop : (stp.users tenant ourPc cause).hop a with
        | ok payload => exact Or.inl ⟨_, .translated via dpc ssn gt payload hrefused hhop, via, rfl⟩
        | error violation =>
          obtain ⟨-, x', hx', rfl⟩ := hopCounterGuard_error hhop
          obtain rfl := Except.ok.inj (hx.symm.trans hx')
          exact Or.inr ⟨_, Or.inl rfl, rfl⟩

end

/-- An XUDT that asks to be returned, with these hops left. -/
def asking (hop : UInt8) : SccpMessage :=
  .xudt { ExtendedUnitData.new (.withSsn 6 none) (.withSsn 8 none) [0x62, 1, 2, 3] with
    messageHandling := 8, hopCounter := hop }

def askingOctets (hop : UInt8) : List UInt8 :=
  [0x11, 0x80, hop, 4, 6, 8, 0, 2, 0x42, 6, 2, 0x42, 8, 4, 0x62, 1, 2, 3]

/-- Its return. -/
def comingBack (cause hop : UInt8) : SccpMessage :=
  .xudts ⟨⟨cause, .withSsn 8 none, .withSsn 6 none, [0x62, 1, 2, 3]⟩, hop⟩

def comingBackOctets (cause hop : UInt8) : List UInt8 :=
  [0x12, cause, hop, 4, 6, 8, 0, 2, 0x42, 8, 2, 0x42, 6, 4, 0x62, 1, 2, 3]

def askingCrate : SccpCrate where
  encode
    | .xudt x => if .xudt x = asking x.hopCounter then .ok (askingOctets x.hopCounter)
      else .error "another message"
    | .xudts x => if .xudts x = comingBack x.returnCause x.hopCounter then
        .ok (comingBackOctets x.returnCause x.hopCounter)
      else .error "another message"
    | _ => .error "another message"
  decode bytes :=
    let second := bytes.getD 1 0
    let hop := bytes.getD 2 0
    if bytes = askingOctets hop then .ok (asking hop)
    else if bytes = comingBackOctets second hop then .ok (comingBack second hop)
    else .error "another message"
  noTranslationForAddress := 1
  mtpFailure := 5
  sccpFailure := 11
  hopCounterViolation := 12
  newHopCounter := 15

theorem askingCrate_sound : askingCrate.Sound := by
  have hasking : ∀ hop, askingCrate.decode (askingOctets hop) = .ok (asking hop) := by
    intro hop
    simp [askingCrate, askingOctets]
  have hback : ∀ cause hop,
      askingCrate.decode (comingBackOctets cause hop) = .ok (comingBack cause hop) := by
    intro cause hop
    simp [askingCrate, askingOctets, comingBackOctets]
  constructor
  · intro m bytes h
    cases m with
    | xudt x =>
      simp only [askingCrate] at h
      split_ifs at h with hx
      obtain rfl := Except.ok.inj h
      exact ⟨_, hasking x.hopCounter, by rw [← hx]⟩
    | xudts x =>
      simp only [askingCrate] at h
      split_ifs at h with hx
      obtain rfl := Except.ok.inj h
      exact ⟨_, hback x.returnCause x.hopCounter, by rw [← hx]⟩
    | udt | ludt | udts | ludts => cases h
  · intro bytes m hop h
    simp only [askingCrate] at h
    split_ifs at h
    · obtain rfl := Except.ok.inj h
      exact ⟨askingOctets hop, if_pos rfl⟩
    · obtain rfl := Except.ok.inj h
      exact ⟨comingBackOctets (bytes.getD 1 0) hop, if_pos rfl⟩

/-- A node that relays such messages, and screens none. -/
def relaying : Stp where
  sccp := askingCrate
  tcap := damagedTcap
  map :=
    { updateLocation := fun _ => none
      cancelLocation := fun _ => none
      purgeMs := fun _ => none
      sendAuthenticationInfo := fun _ => none
      readyForSm := fun _ => none
      provideSubscriberInfo := fun _ => none
      moForwardSm := fun _ => none
      routingInfoForSm := fun _ => none
      reportSmDeliveryStatus := fun _ => none }
  isup := ⟨fun _ => .error "not ISUP"⟩
  isupScreen := none
  admissionPolicy := none
  translated := fun _ _ => false

def fourteenBits : Variant → ℕ → Bool := fun _ pc => pc < 0x4000

def crossroadsRouter : Routing.Router :=
  .ofConfig ⟨[], AList.singleton "default" Relay.crossroads⟩

/-- A message from a linkset that leaves on another, and one that has no route. -/
def acrossAndNowhere : List Relay.Turn :=
  [.change (Relay.withLinksets ["west", "east"]),
    .arrive ⟨"a", some (.linkset "west")⟩ ⟨7, 3000, 3, 2, 0, 5, askingOctets 15⟩, .send 0,
    .arrive ⟨"a", some (.linkset "west")⟩ ⟨7, 4000, 3, 2, 0, 5, askingOctets 15⟩]

/-- The node when its linksets are up. -/
def crossroadsUp : Relay :=
  (relaying.step fourteenBits Relay.crossroadsNetwork "default" (Relay.new crossroadsRouter 10)
    (.change (Relay.withLinksets ["west", "east"]))).1

end Stp

end SiphonSigtran.Transport
