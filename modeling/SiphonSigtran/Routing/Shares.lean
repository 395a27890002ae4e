import Mathlib
import SiphonSigtran.Lib.Machine
import SiphonSigtran.Lib.Turns
import SiphonSigtran.Routing.Gtt

/-!
# The share of a member

The members of a group in the mode `share` are selected in turn, each as often in one round as its
weight says. Titles are translated for many messages at once, targets of content rules are resolved
in between, scripts add rules and other groups take their turns: of the selections that a group
makes, however many and from whenever on, each member has its share.
-/

namespace SiphonSigtran.Routing

open Lib

/-- The weight of a member that names none is one, and none weighs less. -/
def GroupMember.share (m : GroupMember) : ℕ := max (m.weight.getD 1) 1

namespace GttGroup

/-- How often the members are selected in one round. -/
def round (g : GttGroup) : ℕ := (g.members.map GroupMember.share).sum

/-- How often a destination is selected in one round. -/
def shareOf (g : GttGroup) (m : ℕ × ℕ) : ℕ :=
  ((g.members.filter fun x => (x.dpc, x.ssn) = m).map GroupMember.share).sum

theorem length_members {g : GttGroup} (hmode : g.mode = .share) :
    (GroupState.ofGroup g).members.length = g.round := by
  unfold GroupState.ofGroup round
  rw [hmode]
  simp only [List.length_flatMap, List.length_replicate]
  rfl

theorem count_members {g : GttGroup} (hmode : g.mode = .share) (m : ℕ × ℕ) :
    (GroupState.ofGroup g).members.count m = g.shareOf m := by
  unfold GroupState.ofGroup shareOf
  rw [hmode]
  dsimp only
  induction g.members with
  | nil => rfl
  | cons x xs ih =>
    rw [List.flatMap_cons, List.count_append, ih, List.count_replicate]
    by_cases hx : (x.dpc, x.ssn) = m
    · simp [hx, GroupMember.share]
    · simp [hx]

end GttGroup

namespace GttResolver

/-- What a resolver is asked: to translate a title, to resolve the target of a content rule, or to
take in a rule. -/
inductive Request
  | translate (sel : GttSelector)
  | resolve (target : RouteTarget)
  | add (rule : GttRule)

/-- The target that a request resolves. -/
def target (r : GttResolver) : Request → Option RouteTarget
  | .translate sel => (r.rules.find? fun rule => ruleMatches rule sel).map GttRule.to_
  | .resolve target => some target
  | .add _ => none

/-- The group of which a target has a member selected. -/
def chosen (target : RouteTarget) : Option String :=
  if target.tenant.isSome || target.local_.getD false then none else target.group

def step (r : GttResolver) : Request → GttResolver × List GttResult
  | .translate sel => ((r.translate sel).2, (r.translate sel).1.toList)
  | .resolve target => ((r.resultOf target).2, (r.resultOf target).1.toList)
  | .add rule => (r.addRule rule, [])

/-- The destinations of a result. -/
def destinations (results : List GttResult) : List (ℕ × ℕ) :=
  results.filterMap fun
    | .dpc dpc ssn => some (dpc, ssn)
    | _ => none

/-- What a group selected, after one more request. -/
def noteSelected (name : String) (selected : List (ℕ × ℕ)) (r : GttResolver) (request : Request)
    (done : GttResolver × List GttResult) : List (ℕ × ℕ) :=
  if (r.target request).bind chosen = some name then selected ++ destinations done.2 else selected

def selecting (name : String) : GttResolver × List (ℕ × ℕ) → Request →
    GttResolver × List (ℕ × ℕ) :=
  Machine.watch step (noteSelected name)

/-! ## One request -/

variable {r : GttResolver} {name : String} {g : GroupState}

theorem select_of_share (hmode : g.mode = .share) (hmembers : g.members ≠ []) :
    ∃ m, g.members[g.cursor % g.members.length]? = some m ∧
      g.select = (some m, { g with cursor := (g.cursor + 1) % 2 ^ 64 }) := by
  have hlt : g.cursor % g.members.length < g.members.length :=
    Nat.mod_lt _ (List.length_pos_iff.mpr hmembers)
  refine ⟨g.members[g.cursor % g.members.length], List.getElem?_eq_getElem hlt, ?_⟩
  simp [GroupState.select, hmode, hmembers, List.getElem?_eq_getElem hlt]

/-- A target has the next member of the group selected. -/
theorem resultOf_chosen {target : RouteTarget} (hchosen : chosen target = some name)
    (hg : r.groups.lookup name = some g) (hmode : g.mode = .share) (hmembers : g.members ≠ []) :
    ∃ m, g.members[g.cursor % g.members.length]? = some m ∧
      (r.resultOf target).1 = some (.dpc m.1 m.2) ∧
      (r.resultOf target).2.groups.lookup name =
        some { g with cursor := (g.cursor + 1) % 2 ^ 64 } := by
  obtain ⟨m, hm, hselect⟩ := select_of_share hmode hmembers
  unfold chosen at hchosen
  have hother : (target.tenant.isSome || target.local_.getD false) = false := by
    by_contra hother
    rw [if_pos (Bool.not_eq_false _ ▸ hother)] at hchosen
    cases hchosen
  rw [if_neg (by simp [hother])] at hchosen
  rw [Bool.or_eq_false_iff, Option.isSome_eq_false_iff, Option.isNone_iff_eq_none] at hother
  refine ⟨m, hm, ?_⟩
  simp only [resultOf, hother.1, hother.2, hchosen, hg, hselect]
  simp

/-- Any other target leaves the group as it is. -/
theorem resultOf_other {target : RouteTarget} (hchosen : chosen target ≠ some name)
    (hg : r.groups.lookup name = some g) : (r.resultOf target).2.groups.lookup name = some g := by
  cases htenant : target.tenant with
  | some tenant => simpa only [resultOf, htenant] using hg
  | none =>
    cases hlocal : target.local_.getD false with
    | true => simpa [resultOf, htenant, hlocal] using hg
    | false =>
      cases hgroup : target.group with
      | none => simpa [resultOf, htenant, hlocal, hgroup] using hg
      | some group =>
        have hne : name ≠ group := fun heq =>
          hchosen (by simp [chosen, htenant, hlocal, hgroup, heq])
        cases hlookup : r.groups.lookup group with
        | none => simpa [resultOf, htenant, hlocal, hgroup, hlookup] using hg
        | some g' =>
          rcases hselect : g'.select with ⟨_ | m, g''⟩
          · simpa [resultOf, htenant, hlocal, hgroup, hlookup, hselect] using hg
          · simpa [resultOf, htenant, hlocal, hgroup, hlookup, hselect,
              AList.lookup_insert_ne hne] using hg

theorem step_of_target {request : Request} {target : RouteTarget}
    (h : r.target request = some target) :
    r.step request = ((r.resultOf target).2, (r.resultOf target).1.toList) := by
  cases request with
  | translate sel =>
    obtain ⟨rule, hrule, rfl⟩ := Option.map_eq_some_iff.mp h
    simp [step, translate, hrule]
  | resolve target' =>
    obtain rfl : target' = target := Option.some.inj h
    rfl
  | add rule => cases h

theorem step_of_no_target {request : Request} (h : r.target request = none) :
    (r.step request).1.groups = r.groups := by
  cases request with
  | translate sel =>
    have hrule : (r.rules.find? fun rule => ruleMatches rule sel) = none :=
      Option.map_eq_none_iff.mp h
    simp [step, translate, hrule]
  | resolve target => cases h
  | add rule => rfl

/-! ## Many requests -/

/-- What the group selected is what its turns gave from the `c`-th on, and the next turn
follows. -/
structure Turned (name : String) (g : GroupState) (c : ℕ) (p : GttResolver × List (ℕ × ℕ)) :
    Prop where
  lookup : p.1.groups.lookup name = some { g with cursor := (c + p.2.length) % 2 ^ 64 }
  turns : p.2 = Lib.turns g.members c p.2.length

theorem Turned.step {c : ℕ} {p : GttResolver × List (ℕ × ℕ)} (h : Turned name g c p)
    (hmode : g.mode = .share) (hmembers : g.members ≠ []) (hlt : c + p.2.length < 2 ^ 64)
    (request : Request) :
    Turned name g c (selecting name p request) ∧
      (selecting name p request).2.length ≤ p.2.length + 1 := by
  obtain ⟨r, selected⟩ := p
  unfold selecting Machine.watch noteSelected
  cases htarget : r.target request with
  | none =>
    simp only [Option.bind_none, reduceCtorEq, ↓reduceIte]
    exact ⟨⟨(step_of_no_target htarget).symm ▸ h.lookup, h.turns⟩, Nat.le_succ _⟩
  | some target =>
    simp only [step_of_target htarget, Option.bind_some]
    by_cases hchosen : chosen target = some name
    · obtain ⟨m, hm, hresult, hafter⟩ := resultOf_chosen hchosen h.lookup hmode hmembers
      have hcursor : (c + selected.length) % 2 ^ 64 = c + selected.length := Nat.mod_eq_of_lt hlt
      rw [hcursor] at hm hafter
      rw [if_pos hchosen, hresult]
      have hselected : selected ++ destinations [GttResult.dpc m.1 m.2] = selected ++ [m] := rfl
      change Turned name g c (_, selected ++ destinations [GttResult.dpc m.1 m.2]) ∧
        (selected ++ destinations [GttResult.dpc m.1 m.2]).length ≤ selected.length + 1
      rw [hselected]
      refine ⟨⟨?_, ?_⟩, by simp⟩
      · rw [hafter, List.length_append, List.length_singleton, Nat.add_assoc]
      · rw [List.length_append, List.length_singleton, turns_succ, ← h.turns, hm]
        rfl
    · rw [if_neg hchosen]
      exact ⟨⟨resultOf_other hchosen h.lookup, h.turns⟩, Nat.le_succ _⟩

theorem Turned.run {c : ℕ} {p : GttResolver × List (ℕ × ℕ)} (h : Turned name g c p)
    (hmode : g.mode = .share) (hmembers : g.members ≠ []) {requests : List Request}
    (hlen : c + p.2.length + requests.length ≤ 2 ^ 64) :
    Turned name g c (Machine.run (selecting name) p requests) ∧
      (Machine.run (selecting name) p requests).2.length ≤ p.2.length + requests.length := by
  induction requests generalizing p with
  | nil => exact ⟨h, Nat.le_refl _⟩
  | cons request requests ih =>
    rw [List.length_cons] at hlen ⊢
    obtain ⟨hstep, hgrown⟩ := h.step hmode hmembers (by omega) request
    obtain ⟨hrun, hlength⟩ := ih hstep (by omega)
    exact ⟨hrun, by rw [Machine.run_cons]; omega⟩

theorem ofGroup_members {group : GttGroup} (hmode : group.mode = .share)
    (hmembers : group.members ≠ []) : (GroupState.ofGroup group).members ≠ [] := by
  obtain ⟨x, xs, hxs⟩ := List.exists_cons_of_ne_nil hmembers
  have hx : max (x.weight.getD 1) 1 ≠ 0 := by omega
  simp [GroupState.ofGroup, hmode, hxs, hx]

theorem turned_compile {sccp : Sccp} {group : GttGroup} (hgroup : group ∈ sccp.gttGroups) :
    Turned group.name (GroupState.ofGroup group) 0 (compile sccp, []) where
  lookup := by
    have hkeys : ((sccp.gttGroups.map fun g => (g.name, GroupState.ofGroup g)).map
        Prod.fst).Nodup := by
      rw [List.map_map]
      exact sccp.names
    exact Store.lookup_ofList hkeys (List.mem_map_of_mem hgroup)
  turns := rfl

/-- Of all that a group in the mode `share` selects while some requests are answered, whatever
they and those before them are, each member has its share: as often as it is due in the whole
rounds among them at least, and in the rounds that they are part of at most. -/
theorem shares_kept (sccp : Sccp) (group : GttGroup) (hgroup : group ∈ sccp.gttGroups)
    (hmode : group.mode = .share) (before requests : List Request)
    (hlen : before.length + requests.length ≤ 2 ^ 64) (m : ℕ × ℕ) :
    let r := Machine.run (fun r request => (step r request).1) (compile sccp) before
    let selected := (Machine.run (selecting group.name) (r, []) requests).2
    selected.length / group.round * group.shareOf m ≤ selected.count m ∧
      selected.count m ≤ (selected.length + group.round - 1) / group.round * group.shareOf m := by
  have hmembers := ofGroup_members hmode (sccp.members group hgroup)
  have hfirst : 0 + ([] : List (ℕ × ℕ)).length + before.length ≤ 2 ^ 64 := by
    rw [List.length_nil]
    omega
  have hbefore := (turned_compile hgroup).run hmode hmembers hfirst
  generalize hp : Machine.run (selecting group.name) (compile sccp, []) before = p at hbefore
  obtain ⟨hturned, hgrown⟩ := hbefore
  have hr : Machine.run (fun r request => (step r request).1) (compile sccp) before = p.1 := by
    rw [← hp]
    exact (Machine.run_watch_fst step (noteSelected group.name) (compile sccp, []) before).symm
  have hstart : Turned group.name (GroupState.ofGroup group) p.2.length (p.1, []) :=
    ⟨by simpa using hturned.lookup, rfl⟩
  have hlater : p.2.length + (p.1, ([] : List (ℕ × ℕ))).2.length + requests.length ≤ 2 ^ 64 := by
    simp only [List.length_nil] at hgrown ⊢
    omega
  have hrun := (hstart.run hmode hmembers hlater).1
  dsimp only
  rw [hr]
  have hshare := turns_share (GroupState.ofGroup group).members p.2.length
    (Machine.run (selecting group.name) (p.1, []) requests).2.length m
  rw [← hrun.turns, GttGroup.length_members hmode, GttGroup.count_members hmode] at hshare
  exact hshare

/-- Two home location registers, of which the first takes two messages of three. -/
def sharedSccp : Sccp where
  localSsns := []
  gttGroups := [⟨"hlr", .share, [⟨2003, 6, none, some 2⟩, ⟨2004, 6, none, none⟩]⟩]
  gtt := [⟨⟨some ['4', '9'], none, none, none, none⟩, ⟨none, none, some "hlr", none, none⟩⟩]
  plmnMap := []
  names := by decide
  members := by decide

theorem shares_kept_of_titles :
    let sel : GttSelector := ⟨['4', '9', '1'], none, none, none, none⟩
    let r := Machine.run (fun r request => (step r request).1) (compile sharedSccp)
      [.translate sel, .translate ⟨['1'], none, none, none, none⟩]
    (Machine.run (selecting "hlr") (r, []) (List.replicate 6 (.translate sel))).2.count (2003, 6) =
      4 := by
  have h := shares_kept sharedSccp
    ⟨"hlr", .share, [⟨2003, 6, none, some 2⟩, ⟨2004, 6, none, none⟩]⟩ List.mem_cons_self rfl
    [.translate ⟨['4', '9', '1'], none, none, none, none⟩,
      .translate ⟨['1'], none, none, none, none⟩]
    (List.replicate 6 (.translate ⟨['4', '9', '1'], none, none, none, none⟩)) (by decide) (2003, 6)
  exact Nat.le_antisymm h.2 h.1

end GttResolver

end SiphonSigtran.Routing
