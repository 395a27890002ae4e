import SiphonSigtran.Routing.Gtt

/-!
# Content routing

The rules on the application layer of a message. The first that matches decides;
a rule that tests a subscriber identity which could not be read cannot be
evaluated, and nothing after it may decide in its place.
-/

namespace SiphonSigtran.Routing

open Lib

inductive Operation
  | sriSm
  | moForwardSm
  | mtForwardSm
  | updateLocation
  | cancelLocation
  | sendAuthInfo
  | insertSubscriberData
  | provideSubscriberInfo
  | initialDp
  | connect
  deriving DecidableEq, Repr

/-- The operation by its name in the configuration. -/
def Operation.fromKebab (s : String) : Option Operation :=
  match s with
  | "sri-sm" => some .sriSm
  | "mo-forward-sm" => some .moForwardSm
  | "mt-forward-sm" => some .mtForwardSm
  | "update-location" => some .updateLocation
  | "cancel-location" => some .cancelLocation
  | "send-auth-info" => some .sendAuthInfo
  | "insert-subscriber-data" => some .insertSubscriberData
  | "provide-subscriber-info" => some .provideSubscriberInfo
  | "initial-dp" => some .initialDp
  | "connect" => some .connect
  | _ => none

/-- Whether the operation is one of CAP. -/
def Operation.isCap : Operation → Bool
  | .initialDp | .connect => true
  | _ => false

/-- What the rules see of a message. -/
structure MapView where
  operation : Option Operation
  cgpaGt : Option Digits
  cdpaGt : Option Digits
  imsi : Option Digits
  imsiUnreadable : Bool

/-- The `match:` clause of a rule. One operation or several are named. -/
structure ContentMatch where
  operation : Option (List String)
  imsiIn : Option String
  imsiPrefix : Option Digits
  cdpaGtIn : Option String
  cgpaGtIn : Option String

structure ContentAction where
  route : Option RouteTarget
  rewriteCdpaGt : Option Digits
  screen : Option Bool

structure ContentRule where
  name : String
  match_ : ContentMatch
  action : ContentAction

/-- The content routing of a domain. A table has a name and its entries. -/
structure ContentRouting where
  addressTables : List (String × List Digits)
  imsiTables : List (String × List Digits)
  rules : List ContentRule

/-- What a rule that matched calls for. -/
inductive Action
  | route (target : RouteTarget) (rewriteCdpaGt : Option Digits)
  | screen
  | unevaluable
  deriving DecidableEq, Repr

structure CompiledRule where
  name : String
  operations : List Operation
  imsiIn : Option String
  imsiPrefix : Option Digits
  cdpaGtIn : Option String
  cgpaGtIn : Option String
  action : ContentAction

def CompiledRule.ofRule (r : ContentRule) : CompiledRule :=
  ⟨r.name, (r.match_.operation.getD []).filterMap Operation.fromKebab, r.match_.imsiIn,
    r.match_.imsiPrefix, r.match_.cdpaGtIn, r.match_.cgpaGtIn, r.action⟩

/-- The rule that matched and its action. -/
structure Hit where
  rule : String
  action : Action
  deriving DecidableEq, Repr

structure ContentEngine where
  rules : List CompiledRule
  addressTables : Store String (List Digits)
  imsiTables : Store String (List Digits)

def actionOf (a : ContentAction) : Action :=
  if a.screen.getD false then .screen
  else .route (a.route.getD .default) a.rewriteCdpaGt

namespace ContentEngine

def compile (cr : ContentRouting) : ContentEngine :=
  ⟨cr.rules.map .ofRule, Store.ofList cr.addressTables, Store.ofList cr.imsiTables⟩

def hasRules (e : ContentEngine) : Bool := !e.rules.isEmpty

def imsiInTable (e : ContentEngine) (table : String) (imsi : Digits) : Bool :=
  match e.imsiTables.lookup table with
  | none => false
  | some prefixes => prefixes.any fun p => p.isPrefixOf imsi

def gtInTable (e : ContentEngine) (table : String) (gt : Digits) : Bool :=
  match e.addressTables.lookup table with
  | none => false
  | some addrs => gt ∈ addrs

/-- A test that a rule makes of what may be missing from the message. -/
def tested {α : Type} (want : Option α) (field : Option Digits) (holds : α → Digits → Bool) :
    Bool :=
  match want, field with
  | none, _ => true
  | some _, none => false
  | some want, some field => holds want field

/-- The operation and global title tests of a rule. -/
def matchesBesidesIdentity (e : ContentEngine) (rule : CompiledRule) (view : MapView) : Bool :=
  (rule.operations.isEmpty || view.operation.any fun op => op ∈ rule.operations) &&
    tested rule.cdpaGtIn view.cdpaGt e.gtInTable && tested rule.cgpaGtIn view.cgpaGt e.gtInTable

/-- The subscriber identity tests of a rule. -/
def matchesIdentity (e : ContentEngine) (rule : CompiledRule) (view : MapView) : Bool :=
  tested rule.imsiIn view.imsi e.imsiInTable &&
    tested rule.imsiPrefix view.imsi fun p imsi => p.isPrefixOf imsi

/-- What the first rule that decides calls for. -/
def evaluateFrom (e : ContentEngine) (view : MapView) : List CompiledRule → Option Hit
  | [] => none
  | rule :: rules =>
    if e.matchesBesidesIdentity rule view = false then evaluateFrom e view rules
    else if (rule.imsiIn.isSome || rule.imsiPrefix.isSome) && view.imsiUnreadable then
      some ⟨rule.name, .unevaluable⟩
    else if e.matchesIdentity rule view then some ⟨rule.name, actionOf rule.action⟩
    else evaluateFrom e view rules

/-- Evaluate the ordered rules. -/
def evaluate (e : ContentEngine) (view : MapView) : Option Hit := e.evaluateFrom view e.rules

end ContentEngine

end SiphonSigtran.Routing
