import SiphonSigtran.Routing.Router

/-!
# Fail-over of a group

A message that a content rule or the translation of its global title leads to a
group in the mode `cost` goes to the cheapest member. Whether that member can be
reached is asked when it has been chosen, and the others are not tried.
-/

namespace SiphonSigtran.Routing

open Lib

/-- The target names a group. -/
def RouteTarget.ToGroup (target : RouteTarget) (group : String) : Prop :=
  target.tenant = none ∧ target.local_.getD false = false ∧ target.group = some group

/-- The target of the rule that translates the called party of a message. -/
def titleTarget (rt : TenantRuntime) (msg : Inbound) : Option RouteTarget :=
  msg.cdpa.bind fun sel =>
    (rt.gtt.rules.find? fun rule => GttResolver.ruleMatches rule (preConvert rt sel)).map
      GttRule.to_

/-- The target that a content rule or the translation of its called party leads a message to,
and the digits that the content rule has for it. -/
def targetOf (rt : TenantRuntime) (msg : Inbound) : Option (RouteTarget × Option Digits) :=
  if msg.dpc ≠ rt.pointCode ∨ (msg.calledSsn.any rt.gtt.ownsSsn && msg.cdpa.isNone) ∨
      (msg.contentUndecodable && rt.content.any ContentEngine.hasRules) then none
  else match (hitOf rt msg).map Hit.action with
    | some (.route target gt) =>
      if (rt.gtt.resultOf target).1.isSome then some (target, gt)
      else (titleTarget rt msg).map fun target => (target, none)
    | some _ => none
    | none => (titleTarget rt msg).map fun target => (target, none)

/-- The decision on a message for a group: the cheapest member whose destination can be reached,
and none that cannot as long as another one can. -/
def FailsOver (g : GttGroup) (resolve : ℕ → Option Destination) (decision : RouteDecision) : Prop :=
  (∃ dpc ssn via gt, decision = .routeTo dpc ssn via gt ∧
    (via = none → ∀ m ∈ g.members, resolve m.dpc = none)) ∧
  ∀ m, Least GroupMember.costOf (fun m => (resolve m.dpc).isSome) g.members m →
    ∃ gt, decision = .routeTo m.dpc m.ssn (resolve m.dpc) gt

/-- The cheapest member can be reached, or no member can. -/
def CheapestReached (g : GttGroup) (resolve : ℕ → Option Destination) : Prop :=
  (∀ m, Least GroupMember.costOf (fun _ => true) g.members m → (resolve m.dpc).isSome) ∨
    ∀ m ∈ g.members, resolve m.dpc = none

section

variable {fits : Variant → ℕ → Bool} {r : Router} {tenant : String} {rt : TenantRuntime}
  {msg : Inbound} {sls : ℕ} {target : RouteTarget} {gt : Option Digits}

theorem routeByTitle_eq (h : titleTarget rt msg = some target) :
    (routeByTitle fits r tenant rt msg sls).1 =
      match (rt.gtt.resultOf target).1 with
      | some result => decisionFromGtt fits r rt sls result
      | none => .drop "no GTT translation" := by
  unfold titleTarget at h
  obtain ⟨sel, hsel, hrule⟩ := Option.bind_eq_some_iff.mp h
  obtain ⟨rule, hfind, rfl⟩ := Option.map_eq_some_iff.mp hrule
  simp only [routeByTitle, hsel, GttResolver.translate, hfind]
  generalize rt.gtt.resultOf rule.to_ = result
  obtain ⟨result, gtt⟩ := result
  cases result <;> rfl

/-- A message that is led to a target is routed by what the target gives. -/
theorem routeFor_eq (hrt : r.lookup tenant = some rt) (h : targetOf rt msg = some (target, gt))
    {result : GttResult} (hresult : (rt.gtt.resultOf target).1 = some result) :
    (routeFor fits r tenant msg sls).1 = (decisionFromGtt fits r rt sls result).rewrite gt := by
  unfold targetOf at h
  split_ifs at h with hskip
  obtain ⟨hdpc, hrest⟩ := not_or.mp hskip
  obtain ⟨hlocal, hundecodable⟩ := not_or.mp hrest
  have htitle : (titleTarget rt msg).map (fun target => (target, none)) = some (target, gt) →
      (routeByTitle fits r tenant rt msg sls).1 =
        (decisionFromGtt fits r rt sls result).rewrite gt := by
    intro hmap
    obtain ⟨target', ht, heq⟩ := Option.map_eq_some_iff.mp hmap
    obtain ⟨rfl, rfl⟩ := Prod.mk.inj heq
    rw [routeByTitle_eq ht, hresult, RouteDecision.rewrite_none]
  simp only [routeFor, hrt, if_neg hdpc, if_neg hlocal, if_neg hundecodable]
  cases hhit : hitOf rt msg with
  | none =>
    rw [hhit] at h
    exact htitle h
  | some hit =>
    rw [hhit, Option.map_some] at h
    cases haction : hit.action with
    | screen => simp [haction] at h
    | unevaluable => simp [haction] at h
    | route target' gt' =>
      simp only [haction] at h
      cases hresult' : rt.gtt.resultOf target' with
      | mk result' gtt =>
        rw [hresult'] at h
        simp only [haction, decisionFromAction, hresult']
        cases result' with
        | none => exact htitle (by simpa using h)
        | some result' =>
          obtain ⟨rfl, rfl⟩ : target' = target ∧ gt' = gt := by simpa using h
          rw [hresult'] at hresult
          obtain rfl : result' = result := by simpa using hresult
          rfl

end

/-- Where a message goes that is led to a group in the mode `cost`. -/
theorem failsOver_routeTo {g : GttGroup} {m : GroupMember} {rest : List GroupMember}
    (hsort : sortByKey GroupMember.costOf g.members = m :: rest)
    (resolve : ℕ → Option Destination) (gt : Option Digits) :
    FailsOver g resolve (.routeTo m.dpc m.ssn (resolve m.dpc) gt) ↔ CheapestReached g resolve := by
  have hleast : Least GroupMember.costOf (fun _ => true) g.members m := least_head hsort rfl
  constructor
  · rintro ⟨⟨dpc, ssn, via, gt', heq, hnone⟩, -⟩
    obtain ⟨-, -, rfl, -⟩ := RouteDecision.routeTo.inj heq
    cases hm : resolve m.dpc with
    | none => exact Or.inr (hnone hm)
    | some via =>
      refine Or.inl fun m' hm' => ?_
      rw [hm'.eq hleast, hm]
      rfl
  · rintro (hreached | hnone)
    · have hm := hreached m hleast
      refine ⟨⟨_, _, _, _, rfl, fun h => ?_⟩, fun m' hm' => ⟨gt, ?_⟩⟩
      · rw [h] at hm
        cases hm
      · rw [hm'.eq (least_head hsort hm)]
    · refine ⟨⟨_, _, _, _, rfl, fun _ => hnone⟩, fun m' hm' => ?_⟩
      have hm := hm'.holds
      rw [hnone m' hm'.mem] at hm
      cases hm

theorem lookup_later {config : Config} {id : String} {tenant : Tenant}
    (h : config.tenants.lookup id = some tenant) (cursors : String → String → ℕ)
    (states : String → RouteState) :
    ((Router.ofConfig config).later cursors states).lookup id =
      some ((TenantRuntime.build config.associations id tenant).later (cursors id)
        (states id)) := by
  simp [Router.later, Router.ofConfig, h]

/-- The decision on a message that is led to a group in the mode `cost` fails over exactly where
there is nothing to fail over from: the cheapest member can be reached, or no member can. -/
theorem cost_group_fails_over (fits : Variant → ℕ → Bool) (config : Config)
    (cursors : String → String → ℕ) (states : String → RouteState) (id : String) (tenant : Tenant)
    (h : config.tenants.lookup id = some tenant) (g : GttGroup)
    (hg : g ∈ tenant.sccp.gttGroups) (hmode : g.mode = .cost) (msg : Inbound) (sls : ℕ)
    (target : RouteTarget) (gt : Option Digits) (hto : target.ToGroup g.name)
    (ht : targetOf ((TenantRuntime.build config.associations id tenant).later (cursors id)
      (states id)) msg = some (target, gt)) :
    let rt := (TenantRuntime.build config.associations id tenant).later (cursors id) (states id)
    let r := (Router.ofConfig config).later cursors states
    FailsOver g (fun dpc => resolveDestination fits rt dpc sls) (routeFor fits r id msg sls).1 ↔
      CheapestReached g fun dpc => resolveDestination fits rt dpc sls := by
  intro rt r
  obtain ⟨htenant, hlocal, hgroup⟩ := hto
  obtain ⟨m, rest, hsort, hresult⟩ := resultOf_of_cost (cursors id) hg hmode htenant hlocal hgroup
  have hdecision : (routeFor fits r id msg sls).1 =
      .routeTo m.dpc m.ssn (resolveDestination fits rt m.dpc sls) gt := by
    rw [routeFor_eq (lookup_later h cursors states) ht hresult]
    cases gt <;> rfl
  rw [hdecision]
  exact failsOver_routeTo hsort (fun dpc => resolveDestination fits rt dpc sls) gt

/-- Two registers, the second for when the first cannot be reached. -/
def registers : GttGroup := ⟨"ag-hlr", .cost, [⟨2001, 6, some 2, none⟩, ⟨2000, 6, some 1, none⟩]⟩

def toRegisters : RouteTarget := { RouteTarget.default with group := some "ag-hlr" }

/-- A domain in which each register is reached through an Application Server of its own. -/
def twoRegisters : Tenant where
  pointCode := 1000
  variant := .itu
  applicationServers := ["hlr-1", "hlr-2"]
  linksets := []
  mtp3Routes := [⟨2000, some "hlr-1", none, 1⟩, ⟨2001, some "hlr-2", none, 1⟩]
  sccp :=
    { localSsns := []
      gttGroups := [registers]
      gtt := [⟨⟨some ['1', '5'], none, none, none, none⟩, toRegisters⟩]
      plmnMap := []
      names := by decide
      members := by decide }
  contentRouting := none

def twoRegistersConfig : Config := ⟨[], AList.singleton "default" twoRegisters⟩

/-- A message for this node with a global title of the registers. -/
def titled : Inbound := ⟨1000, some ⟨['1', '5', '5'], none, none, none, none⟩, none, none, false⟩

/-- A state in which the Application Servers of the list are in service. -/
def serversUp (names : List String) : RouteState := { RouteState.new with asUp := names.toFinset }

/-- What the destinations resolve to with the Application Servers of the list in service. -/
def registersVia (names : List String) (dpc : ℕ) : Option Destination :=
  resolveDestination (fun _ pc => pc < 0x4000)
    ((TenantRuntime.build [] "default" twoRegisters).later (fun _ => 0) (serversUp names)) dpc 3

/-- The decision on the message with the Application Servers of the list in service. -/
def titledDecision (names : List String) : RouteDecision :=
  (routeFor (fun _ pc => pc < 0x4000)
    ((Router.ofConfig twoRegistersConfig).later (fun _ _ => 0) fun _ => serversUp names)
    "default" titled 3).1

/-- With both in service the message goes to the cheapest register. -/
theorem cost_group_fails_over_of_up :
    FailsOver registers (registersVia ["hlr-1", "hlr-2"]) (titledDecision ["hlr-1", "hlr-2"]) := by
  apply (cost_group_fails_over (fun _ pc => pc < 0x4000) twoRegistersConfig (fun _ _ => 0)
    (fun _ => serversUp ["hlr-1", "hlr-2"]) "default" twoRegisters rfl registers
    (by simp [twoRegisters])
    rfl titled 3 toRegisters none ⟨rfl, rfl, rfl⟩ (by decide +kernel)).mpr
  left
  intro m hm
  have hleast : Least GroupMember.costOf (fun _ => true) registers.members
      ⟨2000, 6, some 1, none⟩ :=
    ⟨[⟨2001, 6, some 2, none⟩], [], rfl, rfl, by decide, by decide⟩
  rw [hm.eq hleast]
  decide +kernel

/-- With the server of the cheapest register out of service the message is not sent, though the
other register can be reached. -/
theorem alternate_not_tried :
    titledDecision ["hlr-2"] = .routeTo 2000 6 none none ∧
      registersVia ["hlr-2"] 2001 = some (.applicationServer "hlr-2") ∧
      ¬ FailsOver registers (registersVia ["hlr-2"]) (titledDecision ["hlr-2"]) := by
  have hdecision : titledDecision ["hlr-2"] = .routeTo 2000 6 none none := by decide +kernel
  have hother : registersVia ["hlr-2"] 2001 = some (.applicationServer "hlr-2") := by
    decide +kernel
  refine ⟨hdecision, hother, ?_⟩
  rintro ⟨⟨dpc, ssn, via, gt, heq, hnone⟩, -⟩
  rw [hdecision] at heq
  obtain ⟨-, -, rfl, -⟩ := RouteDecision.routeTo.inj heq
  have h := hnone rfl ⟨2001, 6, some 2, none⟩ (by decide)
  rw [hother] at h
  cases h

end SiphonSigtran.Routing
