import Mathlib.Algebra.Group.Nat.Defs
import SiphonSigtran.Lib.Least
import SiphonSigtran.Lib.Store

/-!
# Global title translation

The rules of a domain are tried in order, and the first that matches a global
title gives the result: a destination, a member of a group, local termination or
another domain. Of a group in the mode `cost` the cheapest member is the result,
of one in the mode `share` the members take turns.
-/

namespace SiphonSigtran.Routing

open Lib

abbrev Digits := List Char

/-- The fields of a global title that a rule matches on. -/
structure GttSelector where
  digits : Digits
  gti : Option ℕ
  tt : Option ℕ
  np : Option ℕ
  nai : Option ℕ
  deriving DecidableEq, Repr

inductive GroupMode
  | cost
  | share
  deriving DecidableEq, Repr

structure GroupMember where
  dpc : ℕ
  ssn : ℕ
  cost : Option ℕ
  weight : Option ℕ
  deriving DecidableEq, Repr

structure GttGroup where
  name : String
  mode : GroupMode
  members : List GroupMember

structure GttMatch where
  gtPrefix : Option Digits
  gti : Option ℕ
  tt : Option ℕ
  np : Option ℕ
  nai : Option ℕ

/-- The `to:` clause of a rule. -/
structure RouteTarget where
  dpc : Option ℕ
  ssn : Option ℕ
  group : Option String
  local_ : Option Bool
  tenant : Option String
  deriving DecidableEq, Repr

def RouteTarget.default : RouteTarget := ⟨none, none, none, none, none⟩

structure GttRule where
  match_ : GttMatch
  to_ : RouteTarget

structure PlmnMapEntry where
  mcc : Digits
  mnc : Digits
  e164Prefix : Digits

/-- The SCCP tables of a domain, as validation accepts them: the groups have different names,
and members. -/
structure Sccp where
  localSsns : List ℕ
  gttGroups : List GttGroup
  gtt : List GttRule
  plmnMap : List PlmnMapEntry
  names : (gttGroups.map GttGroup.name).Nodup
  members : ∀ g ∈ gttGroups, g.members ≠ []

/-- No tables. -/
def Sccp.empty : Sccp := ⟨[], [], [], [], by decide, by decide⟩

/-- The result of a translation. -/
inductive GttResult
  | dpc (dpc ssn : ℕ)
  | local_
  | tenant (tenant : String) (dpc ssn : ℕ)
  deriving DecidableEq, Repr

/-- The cost of a member that names none is the highest. -/
def GroupMember.costOf (m : GroupMember) : ℕ := m.cost.getD 255

/-- A group, with its members as they are selected, and how often one was selected in turn. -/
structure GroupState where
  mode : GroupMode
  members : List (ℕ × ℕ)
  cursor : ℕ

namespace GroupState

def ofGroup (group : GttGroup) : GroupState :=
  let members := match group.mode with
    | .cost => (sortByKey GroupMember.costOf group.members).map fun x => (x.dpc, x.ssn)
    | .share => group.members.flatMap fun x =>
      List.replicate (max (x.weight.getD 1) 1) (x.dpc, x.ssn)
  ⟨group.mode, members, 0⟩

/-- Pick a member. The cursor is an atomic `usize`. -/
def select (g : GroupState) : Option (ℕ × ℕ) × GroupState :=
  if g.members = [] then (none, g)
  else match g.mode with
    | .cost => (g.members[0]?, g)
    | .share =>
      (g.members[g.cursor % g.members.length]?, { g with cursor := (g.cursor + 1) % 2 ^ 64 })

end GroupState

structure GttResolver where
  rules : List GttRule
  groups : Store String GroupState
  localSsns : List ℕ

namespace GttResolver

def compile (sccp : Sccp) : GttResolver :=
  ⟨sccp.gtt, Store.ofList (sccp.gttGroups.map fun g => (g.name, GroupState.ofGroup g)),
    sccp.localSsns⟩

/-- The resolver after members were selected. -/
def withCursors (r : GttResolver) (cursors : String → ℕ) : GttResolver :=
  { r with groups := r.groups.mapValues fun name g => { g with cursor := cursors name } }

def ownsSsn (r : GttResolver) (ssn : ℕ) : Bool := ssn ∈ r.localSsns

/-- A field of a rule that the title does not carry does not match. -/
def fieldMatches (want field : Option ℕ) : Bool :=
  match want with
  | none => true
  | some _ => field = want

def ruleMatches (rule : GttRule) (sel : GttSelector) : Bool :=
  let m := rule.match_
  (match m.gtPrefix with
    | none => true
    | some digits => digits.isPrefixOf sel.digits) &&
    fieldMatches m.gti sel.gti && fieldMatches m.tt sel.tt && fieldMatches m.np sel.np &&
    fieldMatches m.nai sel.nai

/-- The result of a target, with a member selected where it names a group. -/
def resultOf (r : GttResolver) (target : RouteTarget) : Option GttResult × GttResolver :=
  match target.tenant with
  | some tenant => (some (.tenant tenant (target.dpc.getD 0) (target.ssn.getD 0)), r)
  | none =>
    if target.local_.getD false then (some .local_, r)
    else match target.group with
      | some group =>
        match r.groups.lookup group with
        | none => (none, r)
        | some g =>
          match g.select with
          | (none, _) => (none, r)
          | (some m, g) => (some (.dpc m.1 m.2), { r with groups := r.groups.insert group g })
      | none => (target.dpc.map fun dpc => .dpc dpc (target.ssn.getD 0), r)

/-- Translate a global title by the first rule that matches it. -/
def translate (r : GttResolver) (sel : GttSelector) : Option GttResult × GttResolver :=
  match r.rules.find? fun rule => ruleMatches rule sel with
  | some rule => r.resultOf rule.to_
  | none => (none, r)

/-- The fail-over list of a group in the mode `cost`. -/
def groupCostOrder (r : GttResolver) (group : String) : Option (List (ℕ × ℕ)) :=
  ((r.groups.lookup group).filter fun g => g.mode = .cost).map GroupState.members

/-- A rule that a script adds comes before the others. -/
def addRule (r : GttResolver) (rule : GttRule) : GttResolver := { r with rules := rule :: r.rules }

end GttResolver

/-- The prefixes of E.164 numbers by the network codes of E.214 titles. -/
structure GtConverter where
  e214ToE164Map : Store Digits Digits

namespace GtConverter

def ofMap (plmnMap : List PlmnMapEntry) : GtConverter :=
  ⟨Store.ofList (plmnMap.map fun e => (e.mcc ++ e.mnc, e.e164Prefix))⟩

/-- Replace the network code by the prefix. The longest code is tried first; of two codes of one
length one at most begins the digits. -/
def e214ToE164 (c : GtConverter) (digits : Digits) : Option Digits :=
  let codes := c.e214ToE164Map.keys.insertionSort fun x y => y.length ≤ x.length
  match codes.find? fun code => code.isPrefixOf digits with
  | none => none
  | some code =>
    (c.e214ToE164Map.lookup code).map fun prefix_ => prefix_ ++ digits.drop code.length

end GtConverter

/-! ## Groups in the mode `cost` -/

section

variable {r : GttResolver} {sccp : Sccp} {g : GttGroup}

theorem lookup_compile (hg : g ∈ sccp.gttGroups) (cursors : String → ℕ) :
    ((GttResolver.compile sccp).withCursors cursors).groups.lookup g.name =
      some { GroupState.ofGroup g with cursor := cursors g.name } := by
  have hkeys : ((sccp.gttGroups.map fun g => (g.name, GroupState.ofGroup g)).map
      Prod.fst).Nodup := by
    rw [List.map_map]
    exact sccp.names
  have hmem : (g.name, GroupState.ofGroup g) ∈
      sccp.gttGroups.map fun g => (g.name, GroupState.ofGroup g) := List.mem_map_of_mem hg
  simp only [GttResolver.withCursors, GttResolver.compile, Store.lookup_mapValues,
    Store.lookup_ofList hkeys hmem, Option.map_some]

/-- The cheapest member of a group in the mode `cost`, in the order of the configuration. -/
theorem select_of_cost (hmode : g.mode = .cost) (hmembers : g.members ≠ []) (n : ℕ) :
    ∃ m rest, sortByKey GroupMember.costOf g.members = m :: rest ∧
      ({ GroupState.ofGroup g with cursor := n } : GroupState).select =
        (some (m.dpc, m.ssn), { GroupState.ofGroup g with cursor := n }) := by
  obtain ⟨m, rest, hsort⟩ := List.exists_cons_of_ne_nil (sortByKey_ne_nil
    GroupMember.costOf hmembers)
  refine ⟨m, rest, hsort, ?_⟩
  simp [GroupState.select, GroupState.ofGroup, hmode, hsort]

/-- A target that names a group in the mode `cost` gives its cheapest member. -/
theorem resultOf_of_cost {target : RouteTarget} (cursors : String → ℕ)
    (hg : g ∈ sccp.gttGroups) (hmode : g.mode = .cost) (htenant : target.tenant = none)
    (hlocal : target.local_.getD false = false) (hgroup : target.group = some g.name) :
    ∃ m rest, sortByKey GroupMember.costOf g.members = m :: rest ∧
      (((GttResolver.compile sccp).withCursors cursors).resultOf target).1 =
        some (.dpc m.dpc m.ssn) := by
  obtain ⟨m, rest, hsort, hselect⟩ :=
    select_of_cost hmode (sccp.members g hg) (cursors g.name)
  refine ⟨m, rest, hsort, ?_⟩
  simp only [GttResolver.resultOf, htenant, hlocal, Bool.false_eq_true, ↓reduceIte, hgroup,
    lookup_compile hg cursors, hselect]

end

end SiphonSigtran.Routing
