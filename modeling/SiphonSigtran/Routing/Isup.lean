import SiphonSigtran.Configuration.Accepted

/-!
# Screening of ISUP

The ISUP messages that a node transfers are put to the rules of `isup_screening:`, in their order.
The codec of ISUP is a parameter: of a message it gives the code of its type and, for each of its
parameters, the digits if it is a number.
-/

namespace SiphonSigtran.Isup

open SiphonSigtran.Configuration (Crates)

def calledPartyNumber : ℕ := 0x04

def callingPartyNumber : ℕ := 0x0A

structure Message where
  messageType : ℕ
  parameters : List (ℕ × Option String)
  deriving DecidableEq, Repr

/-- The digits of a parameter that is a number. -/
def numberDigits (msg : Message) (code : ℕ) : Option String :=
  (msg.parameters.find? fun p => p.1 = code).bind Prod.snd

structure Codec where
  decode : List UInt8 → Except String Message

/-! ## The configuration -/

inductive ScreenAction
  | block
  | allow
  deriving DecidableEq, Repr

structure ScreenMatch where
  messageType : Option String
  calledPrefix : Option String
  callingPrefix : Option String

structure ScreenRule where
  name : String
  match_ : ScreenMatch
  action : ScreenAction

structure IsupScreening where
  default : ScreenAction
  rules : List ScreenRule

/-- What validation reads of it. -/
def IsupScreening.validated (cfg : IsupScreening) : Configuration.IsupScreening :=
  ⟨cfg.rules.map fun rule => ⟨rule.name, rule.match_.messageType⟩⟩

/-! ## The compiled rules -/

structure CompiledRule where
  name : String
  messageType : Option ℕ
  calledPrefix : Option String
  callingPrefix : Option String
  action : ScreenAction

/-- A name that is not one of a message type leaves no criterion. -/
def CompiledRule.compile (crates : Crates) (rule : ScreenRule) : CompiledRule where
  name := rule.name
  messageType := rule.match_.messageType.bind crates.messageTypeFromName
  calledPrefix := rule.match_.calledPrefix
  callingPrefix := rule.match_.callingPrefix
  action := rule.action

/-- A number of the message begins with these digits. -/
def startsWith (msg : Message) (code : ℕ) (digits : String) : Bool :=
  (numberDigits msg code).any fun d => digits.toList.isPrefixOf d.toList

/-- Whether all criteria of a rule hold. One that is absent always does. -/
def CompiledRule.matches (rule : CompiledRule) (msg : Message) : Bool :=
  rule.messageType.all (fun mt => msg.messageType = mt) &&
    rule.calledPrefix.all (startsWith msg calledPartyNumber) &&
    rule.callingPrefix.all (startsWith msg callingPartyNumber)

inductive Screened
  | pass
  | passUndecoded (error : String)
  | blockRule (rule : String)
  | blockDefault
  | blockUndecoded (error : String)
  deriving DecidableEq, Repr

inductive ScreenReason
  | rule
  | default
  | decodeError
  deriving DecidableEq, Repr

/-- The reason that a drop is counted under. -/
def Screened.reason : Screened → Option ScreenReason
  | pass | passUndecoded _ => none
  | blockRule _ => some .rule
  | blockDefault => some .default
  | blockUndecoded _ => some .decodeError

structure IsupScreen where
  default : ScreenAction
  rules : List CompiledRule

namespace IsupScreen

def compile (crates : Crates) (cfg : IsupScreening) : IsupScreen :=
  ⟨cfg.default, cfg.rules.map (CompiledRule.compile crates)⟩

/-- The verdict of the first rule that matches, among these. -/
def evaluateFrom (scr : IsupScreen) (msg : Message) : List CompiledRule → Screened
  | [] => match scr.default with
    | .block => .blockDefault
    | .allow => .pass
  | rule :: rules =>
    if rule.matches msg then
      match rule.action with
      | .block => .blockRule rule.name
      | .allow => .pass
    else scr.evaluateFrom msg rules

def evaluate (scr : IsupScreen) (msg : Message) : Screened := scr.evaluateFrom msg scr.rules

/-- Screen a payload. One that cannot be decoded takes the default. -/
def screen (codec : Codec) (scr : IsupScreen) (payload : List UInt8) : Screened :=
  match codec.decode payload with
  | .ok msg => scr.evaluate msg
  | .error e => match scr.default with
    | .block => .blockUndecoded e
    | .allow => .passUndecoded e

/-- Whether a message is dropped: whether its drop is counted. -/
def applyIsupScreen (codec : Codec) (scr : IsupScreen) (payload : List UInt8) : Bool :=
  (scr.screen codec payload).reason.isSome

end IsupScreen

/-! ## What a rule means -/

/-- What the configuration calls for of a rule: a message of the type it names, with numbers that
begin as it asks. -/
structure ScreenRule.Applies (crates : Crates) (rule : ScreenRule) (msg : Message) : Prop where
  messageType : ∀ name ∈ rule.match_.messageType,
    crates.messageTypeFromName name = some msg.messageType
  called : ∀ digits ∈ rule.match_.calledPrefix,
    ∃ d, numberDigits msg calledPartyNumber = some d ∧ digits.toList <+: d.toList
  calling : ∀ digits ∈ rule.match_.callingPrefix,
    ∃ d, numberDigits msg callingPartyNumber = some d ∧ digits.toList <+: d.toList

/-- The rule is the first that applies to a message. -/
def IsupScreening.FirstThatApplies (crates : Crates) (cfg : IsupScreening) (msg : Message)
    (rule : ScreenRule) : Prop :=
  ∃ before after, cfg.rules = before ++ rule :: after ∧ rule.Applies crates msg ∧
    ∀ r ∈ before, ¬ r.Applies crates msg

/-- What the configuration does with a message: what the first rule that applies to it has, or else
the default. -/
def IsupScreening.Decides (crates : Crates) (cfg : IsupScreening) (msg : Message)
    (rule : Option ScreenRule) (action : ScreenAction) : Prop :=
  match rule with
  | some rule => cfg.FirstThatApplies crates msg rule ∧ rule.action = action
  | none => (∀ r ∈ cfg.rules, ¬ r.Applies crates msg) ∧ cfg.default = action

section

variable {crates : Crates} {rule : ScreenRule} {msg : Message}

theorem startsWith_iff {code : ℕ} {digits : String} : startsWith msg code digits = true ↔
    ∃ d, numberDigits msg code = some d ∧ digits.toList <+: d.toList := by
  unfold startsWith
  rw [Option.any_eq_true]
  constructor
  · rintro ⟨d, hd, hstarts⟩
    exact ⟨d, hd, List.isPrefixOf_iff_prefix.mp hstarts⟩
  · rintro ⟨d, hd, hstarts⟩
    exact ⟨d, hd, List.isPrefixOf_iff_prefix.mpr hstarts⟩

/-- A rule whose type name is known matches what it applies to. -/
theorem matches_compile_iff
    (hknown : ∀ name ∈ rule.match_.messageType, crates.messageTypeFromName name ≠ none) :
    (CompiledRule.compile crates rule).matches msg = true ↔ rule.Applies crates msg := by
  have htype : ((CompiledRule.compile crates rule).messageType.all fun mt =>
      msg.messageType = mt) = true ↔ ∀ name ∈ rule.match_.messageType,
        crates.messageTypeFromName name = some msg.messageType := by
    cases hname : rule.match_.messageType with
    | none => simp [CompiledRule.compile, hname]
    | some name =>
      have hsome := hknown name hname
      cases hcode : crates.messageTypeFromName name with
      | none => exact absurd hcode hsome
      | some code => simp [CompiledRule.compile, hname, hcode, eq_comm]
  have hdigits : ∀ (want : Option String) (code : ℕ), want.all (startsWith msg code) = true ↔
      ∀ digits ∈ want, ∃ d, numberDigits msg code = some d ∧ digits.toList <+: d.toList := by
    intro want code
    cases want with
    | none => simp
    | some digits => simp [startsWith_iff]
  unfold CompiledRule.matches
  rw [Bool.and_eq_true, Bool.and_eq_true, htype, hdigits, hdigits]
  constructor
  · rintro ⟨⟨hmessageType, hcalled⟩, hcalling⟩
    exact ⟨hmessageType, hcalled, hcalling⟩
  · intro h
    exact ⟨⟨h.messageType, h.called⟩, h.calling⟩

/-- A message of a rule's numbers, and of some type. -/
def messageOf (rule : ScreenRule) : Message :=
  ⟨0, [(calledPartyNumber, some (rule.match_.calledPrefix.getD "")),
    (callingPartyNumber, some (rule.match_.callingPrefix.getD ""))]⟩

/-- Compilation keeps what a rule means exactly if validation knows its type name. A rule with
another name would match messages of every type. -/
theorem compile_exact_iff (crates : Crates) (rule : ScreenRule) :
    (∀ msg, (CompiledRule.compile crates rule).matches msg = true ↔ rule.Applies crates msg) ↔
      ∀ name ∈ rule.match_.messageType, crates.messageTypeFromName name ≠ none := by
  constructor
  · intro hexact name hname hunknown
    have hmatches : (CompiledRule.compile crates rule).matches (messageOf rule) = true := by
      have hcalled : rule.match_.calledPrefix.all
          (startsWith (messageOf rule) calledPartyNumber) = true := by
        cases hwant : rule.match_.calledPrefix with
        | none => rfl
        | some digits =>
          refine startsWith_iff.mpr ⟨digits, ?_, List.prefix_refl _⟩
          simp [numberDigits, messageOf, hwant]
      have hcalling : rule.match_.callingPrefix.all
          (startsWith (messageOf rule) callingPartyNumber) = true := by
        cases hwant : rule.match_.callingPrefix with
        | none => rfl
        | some digits =>
          refine startsWith_iff.mpr ⟨digits, ?_, List.prefix_refl _⟩
          simp [numberDigits, messageOf, hwant, calledPartyNumber, callingPartyNumber]
      have hany : (CompiledRule.compile crates rule).messageType = none := by
        simp [CompiledRule.compile, Option.mem_def.mp hname, hunknown]
      unfold CompiledRule.matches
      rw [hany]
      simpa [CompiledRule.compile] using And.intro hcalled hcalling
    have happlies := ((hexact (messageOf rule)).mp hmatches).messageType name hname
    rw [hunknown] at happlies
    cases happlies
  · intro hknown msg
    exact matches_compile_iff hknown

end

/-! ## The verdict -/

section

variable {crates : Crates} {cfg : IsupScreening} {msg : Message}

/-- The verdict that goes with a decision. -/
def verdict (rule : Option ScreenRule) (action : ScreenAction) : Screened :=
  match action, rule with
  | .allow, _ => .pass
  | .block, some rule => .blockRule rule.name
  | .block, none => .blockDefault

/-- The rules from some point on decide as the first of them that applies. -/
theorem evaluateFrom_compile (scr : IsupScreen) (rules : List ScreenRule)
    (hknown : ∀ rule ∈ rules, ∀ name ∈ rule.match_.messageType,
      crates.messageTypeFromName name ≠ none) :
    ∃ rule action, IsupScreening.Decides crates ⟨scr.default, rules⟩ msg rule action ∧
      scr.evaluateFrom msg (rules.map (CompiledRule.compile crates)) = verdict rule action := by
  induction rules with
  | nil =>
    refine ⟨none, scr.default, ⟨fun r hr => absurd hr List.not_mem_nil, rfl⟩, ?_⟩
    simp only [List.map_nil, IsupScreen.evaluateFrom]
    cases scr.default <;> rfl
  | cons r rules ih =>
    have hmatches : (CompiledRule.compile crates r).matches msg = true ↔ r.Applies crates msg :=
      matches_compile_iff (hknown r List.mem_cons_self)
    rw [List.map_cons, IsupScreen.evaluateFrom]
    by_cases happlies : r.Applies crates msg
    · rw [if_pos (hmatches.mpr happlies)]
      refine ⟨some r, r.action, ⟨⟨[], rules, rfl, happlies, ?_⟩, rfl⟩, ?_⟩
      · intro r' hr'
        exact absurd hr' List.not_mem_nil
      · simp only [CompiledRule.compile]
        cases r.action <;> rfl
    · rw [if_neg (mt hmatches.mp happlies)]
      obtain ⟨rule, action, hdecides, heval⟩ :=
        ih fun rule hrule => hknown rule (List.mem_cons_of_mem r hrule)
      refine ⟨rule, action, ?_, heval⟩
      cases rule with
      | none =>
        refine ⟨fun r' hr' => ?_, hdecides.2⟩
        rcases List.mem_cons.mp hr' with rfl | hr'
        · exact happlies
        · exact hdecides.1 r' hr'
      | some rule =>
        obtain ⟨⟨before, after, hrules, hrule, hbefore⟩, haction⟩ := hdecides
        refine ⟨⟨r :: before, after, congrArg (r :: ·) hrules, hrule, ?_⟩, haction⟩
        intro r' hr'
        rcases List.mem_cons.mp hr' with rfl | hr'
        · exact happlies
        · exact hbefore r' hr'

/-- At most one rule is the first that applies. -/
theorem FirstThatApplies.unique {rule rule' : ScreenRule}
    (h : cfg.FirstThatApplies crates msg rule) (h' : cfg.FirstThatApplies crates msg rule') :
    rule = rule' := by
  obtain ⟨before, after, hrules, hrule, hbefore⟩ := h
  obtain ⟨before', after', hrules', hrule', hbefore'⟩ := h'
  rcases List.append_eq_append_iff.mp (hrules.symm.trans hrules') with
    ⟨more, hmore, htail⟩ | ⟨more, hmore, htail⟩
  · cases more with
    | nil => exact (List.cons.inj htail).1
    | cons r more =>
      obtain rfl := (List.cons.inj htail).1
      exact absurd hrule (hbefore' rule (by rw [hmore]; simp))
  · cases more with
    | nil => exact (List.cons.inj htail).1.symm
    | cons r more =>
      obtain rfl := (List.cons.inj htail).1
      exact absurd hrule' (hbefore rule' (by rw [hmore]; simp))

/-- A configuration decides one thing. -/
theorem Decides.unique {rule rule' : Option ScreenRule} {action action' : ScreenAction}
    (h : cfg.Decides crates msg rule action) (h' : cfg.Decides crates msg rule' action') :
    rule = rule' ∧ action = action' := by
  have hmem : ∀ {r}, cfg.FirstThatApplies crates msg r → r ∈ cfg.rules := by
    rintro r ⟨before, after, hrules, -⟩
    rw [hrules]
    simp
  cases rule with
  | none =>
    cases rule' with
    | none => exact ⟨rfl, h.2.symm.trans h'.2⟩
    | some r =>
      have hfirst := h'.1
      obtain ⟨-, -, -, happlies, -⟩ := h'.1
      exact absurd happlies (h.1 r (hmem hfirst))
  | some r =>
    cases rule' with
    | none =>
      have hfirst := h.1
      obtain ⟨-, -, -, happlies, -⟩ := h.1
      exact absurd happlies (h'.1 r (hmem hfirst))
    | some r' =>
      obtain rfl := FirstThatApplies.unique h.1 h'.1
      exact ⟨rfl, h.2.symm.trans h'.2⟩

end

/-- Every message is decided on. -/
theorem exists_decides (crates : Crates) (cfg : IsupScreening) (hvalid : cfg.validated.Valid crates)
    (msg : Message) : ∃ rule action, cfg.Decides crates msg rule action ∧
      (IsupScreen.compile crates cfg).evaluate msg = verdict rule action := by
  apply evaluateFrom_compile (IsupScreen.compile crates cfg) cfg.rules
  intro rule hrule name hname
  exact hvalid.types ⟨rule.name, rule.match_.messageType⟩ (List.mem_map_of_mem hrule) name hname

/-- A drop is put down to the rule that decided it. -/
theorem verdict_blockRule {crates : Crates} {cfg : IsupScreening} {msg : Message}
    (hnames : (cfg.rules.map ScreenRule.name).Nodup) {rule : Option ScreenRule}
    {action : ScreenAction} (hdecides : cfg.Decides crates msg rule action) {r : ScreenRule}
    (hr : r ∈ cfg.rules) (h : verdict rule action = .blockRule r.name) :
    rule = some r ∧ r.action = .block := by
  cases action with
  | allow => cases h
  | block =>
    cases rule with
    | none => cases h
    | some first =>
      have hname : first.name = r.name := Screened.blockRule.inj h
      obtain ⟨⟨before, after, hrules, -⟩, haction⟩ := hdecides
      have hfirst : first ∈ cfg.rules := by
        rw [hrules]
        simp
      obtain rfl := List.inj_on_of_nodup_map hnames hfirst hr hname
      exact ⟨rfl, haction⟩

/-- A node with an accepted configuration does with every ISUP message what the configuration has
for it, which is one thing. A message is dropped exactly if the first rule that applies to it blocks
it, or there is none and the default does, and the drop is put down to that rule and no other. What
cannot be decoded takes the default. -/
theorem screens_as_configured (crates : Crates) (cfg : IsupScreening)
    (hvalid : cfg.validated.Valid crates) (codec : Codec) (payload : List UInt8) :
    (∀ msg, codec.decode payload = .ok msg → ∃ rule action, cfg.Decides crates msg rule action ∧
      (∀ rule' action', cfg.Decides crates msg rule' action' → rule' = rule ∧ action' = action) ∧
      (IsupScreen.compile crates cfg).screen codec payload = verdict rule action ∧
      ((IsupScreen.compile crates cfg).applyIsupScreen codec payload = true ↔ action = .block) ∧
      ∀ r ∈ cfg.rules,
        (IsupScreen.compile crates cfg).screen codec payload = .blockRule r.name →
          rule = some r ∧ r.action = .block) ∧
    (∀ error, codec.decode payload = .error error →
      ((IsupScreen.compile crates cfg).applyIsupScreen codec payload = true ↔
        cfg.default = .block)) := by
  constructor
  · intro msg hdecode
    obtain ⟨rule, action, hdecides, heval⟩ := exists_decides crates cfg hvalid msg
    have hscreen : (IsupScreen.compile crates cfg).screen codec payload = verdict rule action := by
      unfold IsupScreen.screen
      rw [hdecode]
      exact heval
    have hnames : (cfg.rules.map ScreenRule.name).Nodup := by
      simpa [IsupScreening.validated, Function.comp_def] using hvalid.names
    refine ⟨rule, action, hdecides, fun rule' action' h' => Decides.unique h' hdecides, hscreen,
      ?_, fun r hr hblock => ?_⟩
    · unfold IsupScreen.applyIsupScreen
      rw [hscreen]
      cases action <;> cases rule <;> simp [verdict, Screened.reason]
    · rw [hscreen] at hblock
      exact verdict_blockRule hnames hdecides hr hblock
  · intro error hdecode
    unfold IsupScreen.applyIsupScreen IsupScreen.screen
    rw [hdecode]
    cases hdefault : cfg.default <;> simp [IsupScreen.compile, hdefault, Screened.reason]

/-- Crates that know one type of message. -/
def iamCrates : Crates where
  fromYaml _ := .error (.yaml "" "no file")
  fromValue _ _ := .ok ()
  text := { parse := fun _ => none, display := fun _ => "" }
  acronym code := if code = 1 then some "IAM" else none

/-- A screening of calls to numbers that begin with 1999. -/
def premium : IsupScreening where
  default := .allow
  rules := [⟨"premium", ⟨some "iam", some "1999", none⟩, .block⟩]

/-- A codec of calls: the octets are those of the called number. -/
def callCodec : Codec where
  decode payload := .ok ⟨1, [(calledPartyNumber,
    some (String.ofList (payload.map fun octet => Char.ofNat octet.toNat)))]⟩

theorem screens_as_configured_premium :
    (IsupScreen.compile iamCrates premium).screen callCodec [0x31, 0x39, 0x39, 0x39, 0x35] =
      .blockRule "premium" := by
  have hknown : iamCrates.messageTypeFromName "iam" = some 1 := by decide +kernel
  have hvalid : premium.validated.Valid iamCrates := by
    constructor
    · decide
    · intro rule hrule name hname
      obtain rfl := List.mem_singleton.mp hrule
      obtain rfl := Option.some.inj hname
      rw [hknown]
      simp
  obtain ⟨rule, action, -, hunique, hscreen, -⟩ :=
    (screens_as_configured iamCrates premium hvalid callCodec
      [0x31, 0x39, 0x39, 0x39, 0x35]).1 _ rfl
  have happlies : premium.Decides iamCrates
      ⟨1, [(calledPartyNumber, some "19995")]⟩
      (some ⟨"premium", ⟨some "iam", some "1999", none⟩, .block⟩) .block := by
    refine ⟨⟨[], [], rfl, ⟨?_, ?_, ?_⟩, fun r hr => absurd hr List.not_mem_nil⟩, rfl⟩
    · intro name hname
      obtain rfl := Option.some.inj hname
      exact hknown
    · intro digits hdigits
      obtain rfl := Option.some.inj hdigits
      exact ⟨"19995", by decide, by decide⟩
    · intro digits hdigits
      cases hdigits
  obtain ⟨rfl, rfl⟩ := hunique _ _ happlies
  exact hscreen

end SiphonSigtran.Isup
