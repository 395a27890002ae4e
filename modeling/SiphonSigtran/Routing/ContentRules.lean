import SiphonSigtran.Routing.Failover

/-!
# What a content rule decides

The first rule that matches decides on a message, and one that tests an identity which cannot be
read leaves the message undecided. What is decided without the identity does not depend on it. A
rule that only rewrites the called party has no target to route to.
-/

namespace SiphonSigtran.Routing

open Lib

/-- Whether a rule tests the IMSI. -/
def CompiledRule.testsIdentity (rule : CompiledRule) : Bool :=
  rule.imsiIn.isSome || rule.imsiPrefix.isSome

/-- A view whose IMSI is known: these digits, or none. -/
def MapView.readable (view : MapView) (imsi : Option Digits) : MapView :=
  { view with imsi := imsi, imsiUnreadable := false }

theorem actionOf_ne_unevaluable (a : ContentAction) : actionOf a ≠ .unevaluable := by
  unfold actionOf
  split <;> simp

namespace ContentEngine

variable {e : ContentEngine} {rule : CompiledRule} {view : MapView}

@[simp] theorem matchesBesidesIdentity_readable (imsi : Option Digits) :
    e.matchesBesidesIdentity rule (view.readable imsi) = e.matchesBesidesIdentity rule view := rfl

/-- A rule that does not test the identity matches by what it tests besides. -/
theorem matchesIdentity_of_untested (h : rule.testsIdentity = false) :
    e.matchesIdentity rule view = true := by
  unfold CompiledRule.testsIdentity at h
  rw [Bool.or_eq_false_iff] at h
  have hin : rule.imsiIn = none := Option.not_isSome_iff_eq_none.mp (by simp [h.1])
  have hprefix : rule.imsiPrefix = none := Option.not_isSome_iff_eq_none.mp (by simp [h.2])
  simp [matchesIdentity, tested, hin, hprefix]

theorem evaluateFrom_skip (h : e.matchesBesidesIdentity rule view = false)
    (rules : List CompiledRule) :
    e.evaluateFrom view (rule :: rules) = e.evaluateFrom view rules := by
  rw [evaluateFrom, if_pos h]

/-- A rule that does not test the identity and whose tests hold decides. -/
theorem evaluateFrom_decide (h : e.matchesBesidesIdentity rule view = true)
    (ht : rule.testsIdentity = false) (rules : List CompiledRule) :
    e.evaluateFrom view (rule :: rules) = some ⟨rule.name, actionOf rule.action⟩ := by
  have hunreadable : ((rule.imsiIn.isSome || rule.imsiPrefix.isSome) && view.imsiUnreadable) =
      false := by
    change (rule.testsIdentity && view.imsiUnreadable) = false
    rw [ht, Bool.false_and]
  rw [evaluateFrom, if_neg (by simp [h]), if_neg (by simp [hunreadable]),
    if_pos (matchesIdentity_of_untested ht)]

/-- A rule that tests the identity and whose other tests hold leaves it undecided. -/
theorem evaluateFrom_undecided (hview : view.imsiUnreadable = true)
    (h : e.matchesBesidesIdentity rule view = true) (ht : rule.testsIdentity = true)
    (rules : List CompiledRule) :
    e.evaluateFrom view (rule :: rules) = some ⟨rule.name, .unevaluable⟩ := by
  have hunreadable : ((rule.imsiIn.isSome || rule.imsiPrefix.isSome) && view.imsiUnreadable) =
      true := by
    change (rule.testsIdentity && view.imsiUnreadable) = true
    rw [ht, hview, Bool.and_self]
  rw [evaluateFrom, if_neg (by simp [h]), if_pos hunreadable]

/-- What is decided without the identity is decided whatever the identity is. -/
theorem evaluateFrom_readable (hview : view.imsiUnreadable = true) {rules : List CompiledRule}
    (h : ∀ hit, e.evaluateFrom view rules = some hit → hit.action ≠ .unevaluable)
    (imsi : Option Digits) :
    e.evaluateFrom (view.readable imsi) rules = e.evaluateFrom view rules := by
  induction rules with
  | nil => rfl
  | cons rule rules ih =>
    cases hbesides : e.matchesBesidesIdentity rule view with
    | false =>
      rw [evaluateFrom_skip hbesides] at h ⊢
      rw [evaluateFrom_skip ((matchesBesidesIdentity_readable imsi).trans hbesides)]
      exact ih h
    | true =>
      cases htests : rule.testsIdentity with
      | true =>
        have hundecided := evaluateFrom_undecided hview hbesides htests rules
        exact absurd rfl (h _ hundecided)
      | false =>
        rw [evaluateFrom_decide hbesides htests,
          evaluateFrom_decide ((matchesBesidesIdentity_readable imsi).trans hbesides) htests]

/-- Undecided is a message of which the first rule whose tests besides the identity hold tests the
identity. -/
theorem evaluateFrom_unevaluable_iff (hview : view.imsiUnreadable = true)
    (rules : List CompiledRule) (name : String) :
    e.evaluateFrom view rules = some ⟨name, .unevaluable⟩ ↔
      ∃ before rule after, rules = before ++ rule :: after ∧ rule.name = name ∧
        rule.testsIdentity = true ∧ e.matchesBesidesIdentity rule view = true ∧
        ∀ r ∈ before, e.matchesBesidesIdentity r view = false := by
  induction rules with
  | nil => simp [evaluateFrom]
  | cons rule rules ih =>
    cases hbesides : e.matchesBesidesIdentity rule view with
    | false =>
      rw [evaluateFrom_skip hbesides, ih]
      constructor
      · rintro ⟨before, r, after, rfl, hname, htests, hr, hbefore⟩
        exact ⟨rule :: before, r, after, rfl, hname, htests, hr,
          List.forall_mem_cons.mpr ⟨hbesides, hbefore⟩⟩
      · rintro ⟨before, r, after, hrules, hname, htests, hr, hbefore⟩
        cases before with
        | nil =>
          obtain ⟨rfl, -⟩ := List.cons.inj hrules
          rw [hbesides] at hr
          cases hr
        | cons first before =>
          exact ⟨before, r, after, (List.cons.inj hrules).2, hname, htests, hr,
            (List.forall_mem_cons.mp hbefore).2⟩
    | true =>
      -- Nothing comes before the first rule that holds.
      have hfirst : ∀ {before r after}, rule :: rules = before ++ r :: after →
          (∀ r ∈ before, e.matchesBesidesIdentity r view = false) → r = rule := by
        intro before r after hrules hbefore
        cases before with
        | nil => exact (List.cons.inj hrules).1.symm
        | cons first before =>
          obtain ⟨rfl, -⟩ := List.cons.inj hrules
          rw [(List.forall_mem_cons.mp hbefore).1] at hbesides
          cases hbesides
      cases htests : rule.testsIdentity with
      | true =>
        rw [evaluateFrom_undecided hview hbesides htests]
        constructor
        · intro h
          exact ⟨[], rule, rules, rfl, by simpa using h, htests, hbesides, by simp⟩
        · rintro ⟨before, r, after, hrules, rfl, -, -, hbefore⟩
          rw [hfirst hrules hbefore]
      | false =>
        rw [evaluateFrom_decide hbesides htests]
        constructor
        · intro h
          simp only [Option.some.injEq, Hit.mk.injEq] at h
          exact absurd h.2 (actionOf_ne_unevaluable rule.action)
        · rintro ⟨before, r, after, hrules, -, hr, -, hbefore⟩
          rw [hfirst hrules hbefore, htests] at hr
          cases hr

/-- What is decided of a message whose IMSI cannot be read is decided of it with any IMSI; and it is
undecided exactly by the first rule that tests the IMSI and whose other tests hold, when no rule
before that matches. -/
theorem unreadable_sound (e : ContentEngine) (view : MapView) (hview : view.imsiUnreadable = true) :
    ((∀ hit, e.evaluate view = some hit → hit.action ≠ .unevaluable) →
      ∀ imsi, e.evaluate (view.readable imsi) = e.evaluate view) ∧
    ∀ name, e.evaluate view = some ⟨name, .unevaluable⟩ ↔
      ∃ before rule after, e.rules = before ++ rule :: after ∧ rule.name = name ∧
        rule.testsIdentity = true ∧ e.matchesBesidesIdentity rule view = true ∧
        ∀ r ∈ before, e.matchesBesidesIdentity r view = false := by
  constructor
  · intro h imsi
    exact evaluateFrom_readable hview h imsi
  · intro name
    exact evaluateFrom_unevaluable_iff hview e.rules name

end ContentEngine

/-- A domain steers the subscribers of one network to a register of its own. -/
def steering : ContentEngine :=
  .compile
    { addressTables := [("gateways", [['1', '5']])]
      imsiTables := [("own", [['0', '0', '1']])]
      rules :=
        [⟨"gateway", ⟨some ["sri-sm"], none, none, none, some "gateways"⟩, ⟨none, none, some true⟩⟩,
          ⟨"own", ⟨some ["update-location"], some "own", none, none, none⟩,
            ⟨some { RouteTarget.default with dpc := some 2000 }, none, none⟩⟩] }

/-- A gateway asks for the routing information of a subscriber that cannot be read. -/
def unreadableQuery : MapView := ⟨some .sriSm, some ['1', '5'], none, none, true⟩

/-- The first rule decides on the query, whoever the subscriber is. -/
theorem ContentEngine.unreadable_sound_of_query :
    steering.evaluate unreadableQuery = some ⟨"gateway", .screen⟩ ∧
      steering.evaluate (unreadableQuery.readable (some ['0', '0', '1', '7'])) =
        steering.evaluate unreadableQuery := by
  have hhit : steering.evaluate unreadableQuery = some ⟨"gateway", .screen⟩ := by decide +kernel
  refine ⟨hhit, (unreadable_sound steering unreadableQuery (by decide)).1 ?_ _⟩
  intro hit h
  rw [hhit, Option.some.injEq] at h
  rw [← h]
  decide

/-! ## A rule that only rewrites -/

/-- The action rewrites the called party, and neither routes nor screens. -/
structure ContentAction.RewriteOnly (a : ContentAction) (gt : Digits) : Prop where
  rewrite : a.rewriteCdpaGt = some gt
  route : a.route = none
  screen : a.screen.getD false = false

namespace ContentEngine

/-- Whether a rule matches a message. -/
def matchesRule (e : ContentEngine) (rule : CompiledRule) (view : MapView) : Bool :=
  e.matchesBesidesIdentity rule view && !(rule.testsIdentity && view.imsiUnreadable) &&
    e.matchesIdentity rule view

/-- Whether a rule leaves a message to the rules after it. -/
def passesOver (e : ContentEngine) (rule : CompiledRule) (view : MapView) : Bool :=
  !e.matchesBesidesIdentity rule view ||
    !(rule.testsIdentity && view.imsiUnreadable) && !e.matchesIdentity rule view

/-- The rule is the first that matches a message. -/
def FirstMatch (e : ContentEngine) (view : MapView) (rule : CompiledRule) : Prop :=
  ∃ before after, e.rules = before ++ rule :: after ∧ e.matchesRule rule view = true ∧
    ∀ r ∈ before, e.passesOver r view = true

variable {e : ContentEngine} {rule : CompiledRule} {view : MapView}

theorem evaluateFrom_passesOver (h : e.passesOver rule view = true) (rules : List CompiledRule) :
    e.evaluateFrom view (rule :: rules) = e.evaluateFrom view rules := by
  unfold passesOver at h
  cases hbesides : e.matchesBesidesIdentity rule view with
  | false => exact evaluateFrom_skip hbesides rules
  | true =>
    simp only [hbesides, Bool.not_true, Bool.false_or, Bool.and_eq_true, Bool.not_eq_true'] at h
    have hunreadable : ¬ ((rule.imsiIn.isSome || rule.imsiPrefix.isSome) && view.imsiUnreadable) =
        true := by
      change ¬ (rule.testsIdentity && view.imsiUnreadable) = true
      rw [h.1]
      exact Bool.false_ne_true
    rw [evaluateFrom, if_neg (by simp [hbesides]), if_neg hunreadable, if_neg (by simp [h.2])]

theorem evaluateFrom_matches (h : e.matchesRule rule view = true) (rules : List CompiledRule) :
    e.evaluateFrom view (rule :: rules) = some ⟨rule.name, actionOf rule.action⟩ := by
  unfold matchesRule at h
  simp only [Bool.and_eq_true, Bool.not_eq_true'] at h
  obtain ⟨⟨hbesides, hreadable⟩, hidentity⟩ := h
  have hunreadable : ¬ ((rule.imsiIn.isSome || rule.imsiPrefix.isSome) && view.imsiUnreadable) =
      true := by
    change ¬ (rule.testsIdentity && view.imsiUnreadable) = true
    rw [hreadable]
    exact Bool.false_ne_true
  rw [evaluateFrom, if_neg (by simp [hbesides]), if_neg hunreadable, if_pos hidentity]

/-- The first rule that matches a message decides on it. -/
theorem FirstMatch.evaluate (h : e.FirstMatch view rule) :
    e.evaluate view = some ⟨rule.name, actionOf rule.action⟩ := by
  obtain ⟨before, after, hrules, hmatches, hbefore⟩ := h
  unfold ContentEngine.evaluate
  rw [hrules]
  clear hrules
  induction before with
  | nil => exact evaluateFrom_matches hmatches after
  | cons r before ih =>
    rw [List.cons_append, evaluateFrom_passesOver (hbefore r List.mem_cons_self)]
    apply ih
    intro r' hr'
    exact hbefore r' (List.mem_cons_of_mem r hr')

end ContentEngine

/-- The target names a point code, or a group with members. -/
def RouteTarget.ToPoint (gtt : GttResolver) (target : RouteTarget) : Prop :=
  target.tenant = none ∧ target.local_.getD false = false ∧
    match target.group with
    | some group => ∃ g, gtt.groups.lookup group = some g ∧ g.members ≠ []
    | none => target.dpc.isSome

theorem GroupState.select_isSome (g : GroupState) : g.select.1.isSome ↔ g.members ≠ [] := by
  unfold GroupState.select
  split_ifs with hempty
  · simp [hempty]
  · have hlen : 0 < g.members.length := List.length_pos_iff.mpr hempty
    cases g.mode with
    | cost => simpa [hempty] using hlen
    | share => simp [hempty, Nat.mod_lt _ hlen]

/-- A target gives a point code exactly where it names one, or a group with members. -/
theorem GttResolver.resultOf_dpc_iff (gtt : GttResolver) (target : RouteTarget) :
    (∃ dpc ssn, (gtt.resultOf target).1 = some (.dpc dpc ssn)) ↔ target.ToPoint gtt := by
  unfold GttResolver.resultOf RouteTarget.ToPoint
  cases htenant : target.tenant with
  | some tenant => simp
  | none =>
    cases hlocal : target.local_.getD false with
    | true => simp
    | false =>
      cases hgroup : target.group with
      | none => cases hdpc : target.dpc <;> simp
      | some group =>
        cases hlookup : gtt.groups.lookup group with
        | none => simp [hlookup]
        | some g =>
          have hselect := g.select_isSome
          cases hg : g.select with
          | mk m g' =>
            rw [hg] at hselect
            cases m with
            | none => simpa [hlookup, hg] using hselect
            | some m => simpa [hlookup, hg] using hselect

/-- A decision rewrites when it is what the title alone leads to, with the digits on a message
that is relayed. -/
def Rewrites (gt : Digits) (byTitle decision : RouteDecision) : Prop :=
  decision = byTitle.rewrite (some gt)

/-- A message before the content rules look at it. -/
def Inbound.withoutView (msg : Inbound) : Inbound := { msg with view := none }

section

variable {fits : Variant → ℕ → Bool} {r : Router} {tenant : String} {rt : TenantRuntime}
  {msg : Inbound} {sls : ℕ} {e : ContentEngine} {view : MapView} {rule : CompiledRule}
  {gt : Digits}

/-- A target that names nothing leads nowhere. -/
@[simp] theorem GttResolver.resultOf_default (gtt : GttResolver) :
    gtt.resultOf .default = (none, gtt) := by
  simp [GttResolver.resultOf, RouteTarget.default]

theorem decisionFromAction_rewriteOnly (h : rule.action.RewriteOnly gt) :
    decisionFromAction fits r rt sls (actionOf rule.action) = (none, rt.gtt) := by
  have haction : actionOf rule.action = .route .default (some gt) := by
    simp [actionOf, h.screen, h.route, h.rewrite]
  simp [haction, decisionFromAction]

/-- A message that is not addressed to this node by a point code and an SSN alone. -/
theorem routeFor_withoutView (hrt : r.lookup tenant = some rt) (hdpc : msg.dpc = rt.pointCode)
    (hcdpa : msg.cdpa.isSome) (hdecoded : msg.contentUndecodable = false) :
    routeFor fits r tenant msg.withoutView sls = routeByTitle fits r tenant rt msg sls := by
  have hsome : msg.cdpa.isNone = false := by
    cases hc : msg.cdpa with
    | none => simp [hc] at hcdpa
    | some sel => rfl
  unfold routeFor hitOf Inbound.withoutView
  simp only [hrt, hdpc, ne_eq, not_true_eq_false, ↓reduceIte, hsome, Bool.and_false,
    Bool.false_eq_true, hdecoded, Bool.false_and]
  cases rt.content <;> rfl

/-- The decision on a message that a rewrite-only rule is the first to match is the one its title
alone leads to. -/
theorem routeFor_of_rewriteOnly (hrt : r.lookup tenant = some rt) (hdpc : msg.dpc = rt.pointCode)
    (hcdpa : msg.cdpa.isSome) (hdecoded : msg.contentUndecodable = false)
    (he : rt.content = some e) (hview : msg.view = some view) (hfirst : e.FirstMatch view rule)
    (hrule : rule.action.RewriteOnly gt) :
    routeFor fits r tenant msg sls = routeFor fits r tenant msg.withoutView sls := by
  have hsome : msg.cdpa.isNone = false := by
    cases hc : msg.cdpa with
    | none => simp [hc] at hcdpa
    | some sel => rfl
  rw [routeFor_withoutView hrt hdpc hcdpa hdecoded]
  unfold routeFor hitOf
  simp only [hrt, hdpc, ne_eq, not_true_eq_false, ↓reduceIte, hsome, Bool.and_false,
    Bool.false_eq_true, hdecoded, Bool.false_and, he, hview, hfirst.evaluate,
    decisionFromAction_rewriteOnly hrule]

theorem decisionFromGtt_rewrites_iff (result : GttResult) :
    Rewrites gt (decisionFromGtt fits r rt sls result) (decisionFromGtt fits r rt sls result) ↔
      ∀ dpc ssn, result ≠ .dpc dpc ssn := by
  cases result <;> simp [Rewrites, decisionFromGtt, RouteDecision.rewrite]

end

/-- A rewrite-only rule that is the first to match a message rewrites exactly where the title of
the message leads to no point code, and so nothing is relayed that could carry the digits. -/
theorem rewrite_only_iff (fits : Variant → ℕ → Bool) (r : Router) (tenant : String)
    (rt : TenantRuntime) (hrt : r.lookup tenant = some rt) (msg : Inbound) (sls : ℕ)
    (hdpc : msg.dpc = rt.pointCode) (hcdpa : msg.cdpa.isSome)
    (hdecoded : msg.contentUndecodable = false) (e : ContentEngine) (he : rt.content = some e)
    (view : MapView) (hview : msg.view = some view) (rule : CompiledRule)
    (hfirst : e.FirstMatch view rule) (gt : Digits) (hrule : rule.action.RewriteOnly gt) :
    Rewrites gt (routeFor fits r tenant msg.withoutView sls).1 (routeFor fits r tenant msg sls).1 ↔
      ∀ target, titleTarget rt msg = some target → ¬ target.ToPoint rt.gtt := by
  rw [routeFor_of_rewriteOnly hrt hdpc hcdpa hdecoded he hview hfirst hrule,
    routeFor_withoutView hrt hdpc hcdpa hdecoded]
  cases htitle : titleTarget rt msg with
  | none =>
    obtain ⟨sel, hsel⟩ := Option.isSome_iff_exists.mp hcdpa
    have hfind : (rt.gtt.rules.find? fun rule => GttResolver.ruleMatches rule (preConvert rt sel)) =
        none := by
      simpa [titleTarget, hsel] using htitle
    simp [routeByTitle, hsel, GttResolver.translate, hfind, Rewrites, RouteDecision.rewrite]
  | some target =>
    rw [routeByTitle_eq htitle]
    cases hresult : (rt.gtt.resultOf target).1 with
    | none =>
      have hnot : ¬ target.ToPoint rt.gtt := by
        rw [← rt.gtt.resultOf_dpc_iff target]
        simp [hresult]
      simpa [Rewrites, RouteDecision.rewrite] using hnot
    | some result =>
      rw [decisionFromGtt_rewrites_iff]
      have hpoint := rt.gtt.resultOf_dpc_iff target
      rw [hresult] at hpoint
      constructor
      · rintro h target' htarget
        obtain rfl : target = target' := Option.some.inj htarget
        rw [← hpoint]
        rintro ⟨dpc, ssn, hd⟩
        exact h dpc ssn (Option.some.inj hd)
      · intro h dpc ssn hd
        exact h target rfl (hpoint.mp ⟨dpc, ssn, by rw [hd]⟩)

/-- The queries of a gateway are to leave with another number. -/
def renumber : ContentRule :=
  ⟨"renumber", ⟨some ["sri-sm"], none, none, none, none⟩, ⟨none, some ['1', '5', '9'], none⟩⟩

/-- The two registers, and a number of the node itself. -/
def renumbering : Tenant :=
  { twoRegisters with
    sccp :=
      { twoRegisters.sccp with
        gtt :=
          [⟨⟨some ['1', '5'], none, none, none, none⟩, toRegisters⟩,
            ⟨⟨some ['1', '6'], none, none, none, none⟩,
              { RouteTarget.default with local_ := some true }⟩] }
    contentRouting := some ⟨[], [], [renumber]⟩ }

def renumberingRuntime : TenantRuntime := .build [] "default" renumbering

def renumberingRouter : Router := Router.ofConfig ⟨[], AList.singleton "default" renumbering⟩

def renumberingRules : ContentEngine := .compile ⟨[], [], [renumber]⟩

def viewTo (digits : Digits) : MapView := ⟨some .sriSm, none, some digits, none, false⟩

/-- A query to a number. -/
def queryTo (digits : Digits) : Inbound :=
  ⟨1000, some ⟨digits, none, none, none, none⟩, none, some (viewTo digits), false⟩

theorem renumber_firstMatch (digits : Digits) :
    renumberingRules.FirstMatch (viewTo digits) (.ofRule renumber) :=
  ⟨[], [], rfl, rfl, by simp⟩

theorem renumber_rewriteOnly : (CompiledRule.ofRule renumber).action.RewriteOnly ['1', '5', '9'] :=
  ⟨rfl, rfl, rfl⟩

/-- A query to the node itself is delivered. -/
theorem rewrite_only_iff_local :
    Rewrites ['1', '5', '9']
      (routeFor (fun _ pc => pc < 0x4000) renumberingRouter "default"
        (queryTo ['1', '6', '1']).withoutView 3).1
      (routeFor (fun _ pc => pc < 0x4000) renumberingRouter "default" (queryTo ['1', '6', '1'])
        3).1 := by
  apply (rewrite_only_iff (fun _ pc => pc < 0x4000) renumberingRouter "default" renumberingRuntime
    rfl (queryTo ['1', '6', '1']) 3 rfl rfl rfl renumberingRules rfl _ rfl _
    (renumber_firstMatch _) _ renumber_rewriteOnly).mpr
  intro target htarget
  have hlocal : titleTarget renumberingRuntime (queryTo ['1', '6', '1']) =
      some { RouteTarget.default with local_ := some true } := by decide +kernel
  rw [hlocal, Option.some.injEq] at htarget
  rw [← htarget]
  rintro ⟨-, hnot, -⟩
  cases hnot

/-- A query to a register is relayed with the number that it came with. -/
theorem rewrite_dropped :
    renumberingRules.FirstMatch (viewTo ['1', '5', '5']) (.ofRule renumber) ∧
      (CompiledRule.ofRule renumber).action.RewriteOnly ['1', '5', '9'] ∧
      (routeFor (fun _ pc => pc < 0x4000) renumberingRouter "default" (queryTo ['1', '5', '5'])
        3).1 = .routeTo 2000 6 (some (.applicationServer "hlr-1")) none ∧
      ¬ Rewrites ['1', '5', '9']
        (routeFor (fun _ pc => pc < 0x4000) renumberingRouter "default"
          (queryTo ['1', '5', '5']).withoutView 3).1
        (routeFor (fun _ pc => pc < 0x4000) renumberingRouter "default" (queryTo ['1', '5', '5'])
          3).1 := by
  refine ⟨renumber_firstMatch _, renumber_rewriteOnly, by decide +kernel, ?_⟩
  unfold Rewrites
  decide +kernel

end SiphonSigtran.Routing
