import SiphonSigtran.Transport.Membership

/-!
# The ASP side of an association

What this node has asked the gateway for and is still waiting to have acknowledged. One deadline,
T(ack), serves ASP Up and the ASP Active of every Routing Context.
-/

namespace SiphonSigtran.Transport.AspSide

open Lib

/-- What the ASP side reads of its slot. -/
structure Slot where
  asp : ℕ
  memberships : List Membership
  ackMs : ℕ
  aspId : Option ℕ

/-- What has been asked for and is not acknowledged. -/
structure Asking where
  up : Bool
  contexts : List ℕ
  at_ : Option ℕ
  deriving DecidableEq, Repr

/-- A message of the gateway, with the Routing Contexts that it names. A Notify has the Status that
it was read as, where it has one and where that is known. -/
inductive Said
  | upAck (named : List ℕ)
  | activeAck (named : List ℕ)
  | inactiveAck (named : List ℕ)
  | downAck (named : List ℕ)
  | notify (status : Option (Option Status)) (named : List ℕ)
  | request (named : List ℕ)
  deriving DecidableEq, Repr

/-- What the ASP side does: what it sends, what it submits to the layer, and what it counts. -/
inductive Act
  | aspUp (identifier : Option ℕ)
  | aspActive (mode context : ℕ)
  | missingParameter
  | unexpected (named : List ℕ)
  | submit (input : Transport.Input)
  | ackTimeout
  deriving DecidableEq, Repr

/-- An event, with its time. At each Routing Context that a message is about, the registry answers
whether the association is active in its server. -/
inductive Event
  | said (message : Said) (active : ℕ → Bool) (now : ℕ)
  | clock (now : ℕ)

namespace Slot

variable (slot : Slot)

def ackAfter (now : ℕ) : ℕ := now + slot.ackMs

/-- The Routing Contexts that the association is configured in. -/
def configured : List ℕ := slot.memberships.map Membership.context

def askUp (now : ℕ) : Asking × List Act :=
  (⟨false, [], some (slot.ackAfter now)⟩, [.aspUp slot.aspId])

/-- Ask to become active in the server of a Routing Context. -/
def askActive (now : ℕ) (a : Asking) (context : ℕ) : Asking × List Act :=
  match slot.memberships.find? fun m => m.context = context with
  | none => (a, [])
  | some membership =>
    ({ a with
        contexts := if context ∈ a.contexts then a.contexts else a.contexts ++ [context]
        at_ := some (slot.ackAfter now) },
      [.aspActive (modeValue membership.mode) context])

/-- Ask for every one of these Routing Contexts, in order. -/
def askEach (now : ℕ) (a : Asking) : List ℕ → Asking × List Act
  | [] => (a, [])
  | context :: contexts =>
    let (a, out) := slot.askActive now a context
    let (a, later) := askEach now a contexts
    (a, out ++ later)

/-- T(ack) ran out for these Routing Contexts. -/
def resend (now : ℕ) (a : Asking) : List ℕ → Asking × List Act
  | [] => (a, [])
  | context :: contexts =>
    let (a, out) := slot.askActive now a context
    let (a, later) := resend now a contexts
    (a, .ackTimeout :: out ++ later)

/-- T(ack) ran out. -/
def ackTimeout (now : ℕ) (a : Asking) : Asking × List Act :=
  let a := { a with at_ := none }
  if a.up = false then
    let (a, out) := slot.askUp now
    (a, .ackTimeout :: out)
  else slot.resend now a a.contexts

/-- The Routing Contexts that a message of the gateway is about. -/
def about (named : List ℕ) : List ℕ := if named = [] then slot.configured else named

/-- Take the traffic of the Routing Contexts in which this node is not active. -/
def takeOver (active : ℕ → Bool) (now : ℕ) (a : Asking) : List ℕ → ℕ → Asking × List Act
  | [], _ => (a, [])
  | context :: contexts, position =>
    if a.up && !active position && decide (context ∉ a.contexts) then
      let (a, out) := slot.askActive now a context
      let (a, later) := takeOver active now a contexts (position + 1)
      (a, out ++ later)
    else takeOver active now a contexts (position + 1)

/-- The Routing Contexts as they are handed on, if any are named. -/
def handedOn (named : List ℕ) : Option (List ℕ) := if named = [] then none else some named

/-- A Notify from the gateway. -/
def notified (status : Option (Option Status)) (named : List ℕ) (active : ℕ → Bool) (now : ℕ)
    (a : Asking) : Asking × List Act :=
  match status with
  | none => (a, [.missingParameter])
  | some known =>
    let contexts := slot.about named
    match known with
    | some .alternateAspActive =>
      ({ a with contexts := a.contexts.filter (· ∉ contexts) },
        [.submit (.peerInactive slot.asp (handedOn named))])
    | some .asPending | some .asInactive | some .insufficientResources =>
      slot.takeOver active now a contexts 0
    | some .asActive | some .aspFailure | none => (a, [])

def gatewaySaid (message : Said) (active : ℕ → Bool) (now : ℕ) (a : Asking) :
    Asking × List Act :=
  match message with
  | .upAck named =>
    let submitted : Transport.Input :=
      if a.up then .peerInactive slot.asp none else .peerUp slot.asp
    let (a, out) := slot.askEach now { a with up := true, at_ := none } (slot.about named)
    (a, .submit submitted :: out)
  | .activeAck named =>
    let contexts := a.contexts.filter (· ∉ slot.about named)
    ({ a with contexts, at_ := if contexts = [] then none else a.at_ },
      [.submit (.peerActive slot.asp (handedOn named))])
  | .inactiveAck named =>
    let contexts := (slot.about named).foldl
      (fun pending c => if c ∈ pending then pending else pending ++ [c]) a.contexts
    ({ a with contexts, at_ := some (slot.ackAfter now) },
      [.submit (.peerInactive slot.asp (handedOn named))])
  | .downAck _ =>
    (⟨false, [], some (slot.ackAfter now)⟩, [.submit (.lost slot.asp)])
  | .notify status named => slot.notified status named active now a
  | .request named => (a, [.unexpected named])

/-- Take one event. The clock is heard of once T(ack) has run out. -/
def handle (a : Asking) : Event → Asking × List Act
  | .said message active now => slot.gatewaySaid message active now a
  | .clock now => if a.at_.any (· ≤ now) then slot.ackTimeout now a else (a, [])

end Slot

/-! ## What an observer knows -/

/-- What an observer knows of an association: whether its ASP Up was ever acknowledged, and since
then whether it was taken down, and the Routing Contexts that were asked for. -/
structure Observed where
  acked : Bool
  down : Bool
  asked : List ℕ
  deriving DecidableEq, Repr

def Observed.new : Observed := ⟨false, false, []⟩

/-- The Routing Context that an ASP Active asks for. -/
def Act.asks : Act → Option ℕ
  | .aspActive _ context => some context
  | _ => none

def Event.upAcked : Event → Bool
  | .said (.upAck _) _ _ => true
  | _ => false

def Event.tookDown : Event → Bool
  | .said (.downAck _) _ _ => true
  | _ => false

def Observed.note (o : Observed) (_ : Asking) (e : Event) (r : Asking × List Act) : Observed where
  acked := o.acked || e.upAcked
  down := o.down || (o.acked && e.tookDown)
  asked := o.asked ++ r.2.filterMap Act.asks

/-- The ASP side with its observer. -/
def Slot.observe (slot : Slot) : Asking × Observed → Event → Asking × Observed :=
  Machine.watch slot.handle Observed.note

/-- The ASP side when its association is new. -/
def Slot.start (slot : Slot) (now : ℕ) : Asking × Observed := ((slot.askUp now).1, .new)

/-- T(ack) runs while something is not acknowledged, and from the first ASP Up Ack on every
configured Routing Context was asked for unless the association was taken down. -/
structure Slot.Tended (slot : Slot) (p : Asking × Observed) : Prop where
  running : (p.1.up = false ∨ ∃ c ∈ slot.configured, c ∈ p.1.contexts) → p.1.at_.isSome
  asked : p.2.acked = true → p.2.down = true ∨ ∀ c ∈ slot.configured, c ∈ p.2.asked

/-! ## Asking -/

namespace Slot

variable {slot : Slot} {a : Asking} {now : ℕ}

/-- T(ack) runs while something is not acknowledged. -/
def Running (slot : Slot) (a : Asking) : Prop :=
  (a.up = false ∨ ∃ c ∈ slot.configured, c ∈ a.contexts) → a.at_.isSome

theorem askActive_configured (a : Asking) (now : ℕ) {context : ℕ}
    (h : context ∈ slot.configured) :
    ∃ mode, slot.askActive now a context =
      ({ a with
          contexts := if context ∈ a.contexts then a.contexts else a.contexts ++ [context]
          at_ := some (slot.ackAfter now) }, [.aspActive mode context]) := by
  obtain ⟨m, hm, hcontext⟩ := List.mem_map.mp h
  unfold askActive
  cases hfind : slot.memberships.find? fun m => m.context = context with
  | none =>
    have hnone := List.find?_eq_none.mp hfind m hm
    simp [hcontext] at hnone
  | some membership => exact ⟨_, rfl⟩

theorem askActive_unconfigured (a : Asking) (now : ℕ) {context : ℕ}
    (h : context ∉ slot.configured) : slot.askActive now a context = (a, []) := by
  unfold askActive
  cases hfind : slot.memberships.find? fun m => m.context = context with
  | none => rfl
  | some membership =>
    have hcontext := List.find?_some hfind
    have hmem := List.mem_map_of_mem (f := Membership.context) (List.mem_of_find?_eq_some hfind)
    rw [of_decide_eq_true hcontext] at hmem
    exact absurd hmem h

/-- What asking for some Routing Contexts does. -/
structure Asked (slot : Slot) (a : Asking) (contexts : List ℕ) (r : Asking × List Act) : Prop where
  up : r.1.up = a.up
  pending : ∀ c, c ∈ r.1.contexts ↔ c ∈ a.contexts ∨ (c ∈ contexts ∧ c ∈ slot.configured)
  running : r.1.at_.isSome ↔ a.at_.isSome ∨ ∃ c ∈ contexts, c ∈ slot.configured
  asked : ∀ c, c ∈ r.2.filterMap Act.asks ↔ c ∈ contexts ∧ c ∈ slot.configured

theorem Asked.nil (a : Asking) : Asked slot a [] (a, []) := ⟨rfl, by simp, by simp, by simp⟩

theorem askActive_asked (slot : Slot) (a : Asking) (now context : ℕ) :
    Asked slot a [context] (slot.askActive now a context) := by
  by_cases h : context ∈ slot.configured
  · obtain ⟨mode, hask⟩ := askActive_configured a now h
    rw [hask]
    refine ⟨rfl, fun c => ?_, by simp [h], fun c => ?_⟩
    · dsimp only
      split_ifs with hold
      · constructor
        · exact .inl
        · rintro (hc | ⟨hc, -⟩)
          · exact hc
          · rwa [List.mem_singleton.mp hc]
      · rw [List.mem_append, List.mem_singleton]
        constructor
        · rintro (hc | rfl)
          · exact .inl hc
          · exact .inr ⟨rfl, h⟩
        · exact .imp_right And.left
    · simp only [List.filterMap_cons, Act.asks, List.filterMap_nil, List.mem_singleton]
      constructor
      · rintro rfl
        exact ⟨rfl, h⟩
      · exact And.left
  · rw [askActive_unconfigured a now h]
    refine ⟨rfl, fun c => ?_, by simp [h], fun c => ?_⟩
    · constructor
      · exact .inl
      · rintro (hc | ⟨hc, hconfigured⟩)
        · exact hc
        · exact absurd (List.mem_singleton.mp hc ▸ hconfigured) h
    · simp only [List.filterMap_nil, List.not_mem_nil, List.mem_singleton, false_iff, not_and]
      rintro rfl
      exact h

/-- Asking for one Routing Context and then for others, with what else is counted. -/
theorem Asked.cons {context : ℕ} {contexts : List ℕ} {first later : Asking × List Act}
    (hfirst : Asked slot a [context] first) (hlater : Asked slot first.1 contexts later)
    (counted : List Act) (hcounted : counted.filterMap Act.asks = []) :
    Asked slot a (context :: contexts) (later.1, counted ++ (first.2 ++ later.2)) := by
  refine ⟨hlater.up.trans hfirst.up, fun c => ?_, ?_, fun c => ?_⟩
  · simp only [hlater.pending, hfirst.pending, List.mem_cons, List.not_mem_nil, or_false]
    tauto
  · simp only [hlater.running, hfirst.running, List.mem_cons, List.not_mem_nil, or_false,
      exists_eq_or_imp, exists_eq_left, or_assoc]
  · simp only [List.filterMap_append, List.mem_append, hcounted, List.not_mem_nil, false_or,
      hfirst.asked, hlater.asked, List.mem_cons, or_false]
    tauto

theorem askEach_asked (slot : Slot) (a : Asking) (now : ℕ) (contexts : List ℕ) :
    Asked slot a contexts (slot.askEach now a contexts) := by
  induction contexts generalizing a with
  | nil => exact Asked.nil a
  | cons context contexts ih =>
    exact (askActive_asked slot a now context).cons (ih (slot.askActive now a context).1)
      [] rfl

theorem resend_asked (slot : Slot) (a : Asking) (now : ℕ) (contexts : List ℕ) :
    Asked slot a contexts (slot.resend now a contexts) := by
  induction contexts generalizing a with
  | nil => exact Asked.nil a
  | cons context contexts ih =>
    exact (askActive_asked slot a now context).cons (ih (slot.askActive now a context).1)
      [.ackTimeout] rfl

/-- A Notify asks for some of the Routing Contexts that it is about, and for none while ASP Up is
not acknowledged. -/
theorem takeOver_asked (slot : Slot) (active : ℕ → Bool) (a : Asking) (now : ℕ)
    (contexts : List ℕ) (position : ℕ) :
    ∃ asked, (a.up = false → asked = []) ∧
      Asked slot a asked (slot.takeOver active now a contexts position) := by
  induction contexts generalizing a position with
  | nil => exact ⟨[], fun _ => rfl, Asked.nil a⟩
  | cons context contexts ih =>
    unfold takeOver
    by_cases htake : a.up && !active position && decide (context ∉ a.contexts)
    · rw [if_pos htake]
      have hup : a.up = true := by simp_all
      obtain ⟨asked, -, hasked⟩ := ih (slot.askActive now a context).1 (position + 1)
      exact ⟨context :: asked, by simp [hup],
        (askActive_asked slot a now context).cons hasked [] rfl⟩
    · rw [if_neg htake]
      exact ih a (position + 1)

theorem Asked.keeps {contexts : List ℕ} {r : Asking × List Act} (h : Asked slot a contexts r)
    (hrunning : Running slot a) : Running slot r.1 := by
  rintro (hup | ⟨c, hconfigured, hc⟩)
  · exact h.running.mpr (.inl (hrunning (.inl (h.up.symm.trans hup))))
  · rcases (h.pending c).mp hc with hold | hnew
    · exact h.running.mpr (.inl (hrunning (.inr ⟨c, hconfigured, hold⟩)))
    · exact h.running.mpr (.inr ⟨c, hnew⟩)

/-- Without a deadline before, T(ack) runs for what is pending if something was asked for or
nothing configured was pending. -/
theorem Asked.running_iff {contexts : List ℕ} {r : Asking × List Act}
    (h : Asked slot a contexts r) (hup : a.up = true) (hat : a.at_ = none) :
    Running slot r.1 ↔
      (∃ c ∈ contexts, c ∈ slot.configured) ∨ ∀ c ∈ slot.configured, c ∉ a.contexts := by
  have hrunning : r.1.at_.isSome ↔ ∃ c ∈ contexts, c ∈ slot.configured := by
    rw [h.running, hat]
    simp
  constructor
  · intro hkept
    by_contra hnone
    obtain ⟨hasked, hpending⟩ := not_or.mp hnone
    push Not at hpending
    obtain ⟨c, hconfigured, hc⟩ := hpending
    exact hasked (hrunning.mp (hkept (.inr ⟨c, hconfigured, (h.pending c).mpr (.inl hc)⟩)))
  · rintro (hasked | hnone)
    · exact fun _ => hrunning.mpr hasked
    · rintro (hdown | ⟨c, hconfigured, hc⟩)
      · rw [h.up, hup] at hdown
        contradiction
      · rcases (h.pending c).mp hc with hold | hnew
        · exact absurd hold (hnone c hconfigured)
        · exact hrunning.mpr ⟨c, hnew⟩

/-! ## One event -/

theorem handle_clock (a : Asking) (now : ℕ) : slot.handle a (.clock now) =
    if a.at_.any (· ≤ now) then slot.ackTimeout now a else (a, []) := rfl

/-- An association whose ASP Up is not acknowledged asks for no Routing Context. -/
theorem handle_down (slot : Slot) (hup : a.up = false) {e : Event} (he : e.upAcked = false) :
    (slot.handle a e).1.up = false ∧ (slot.handle a e).2.filterMap Act.asks = [] := by
  cases e with
  | clock now =>
    rw [handle_clock]
    split_ifs with hdue
    · rw [ackTimeout, if_pos hup]
      exact ⟨rfl, rfl⟩
    · exact ⟨hup, rfl⟩
  | said message active now =>
    cases message with
    | upAck named => simp [Event.upAcked] at he
    | activeAck named | inactiveAck named | request named => exact ⟨hup, rfl⟩
    | downAck named => exact ⟨rfl, rfl⟩
    | notify status named =>
      cases status with
      | none => exact ⟨hup, rfl⟩
      | some known =>
        have htake := takeOver_asked slot active a now (slot.about named) 0
        obtain ⟨asked, hnone, hasked⟩ := htake
        have hnil :
            (slot.takeOver active now a (slot.about named) 0).2.filterMap Act.asks = [] := by
          apply List.eq_nil_iff_forall_not_mem.mpr
          intro c hc
          simpa [hnone hup] using (hasked.asked c).mp hc
        cases known with
        | none => exact ⟨hup, rfl⟩
        | some status =>
          cases status with
          | asActive | aspFailure | alternateAspActive => exact ⟨hup, rfl⟩
          | asPending | asInactive | insufficientResources =>
            exact ⟨hasked.up.trans hup, hnil⟩

/-- An ASP Active Ack stops T(ack) when nothing is left to ask for, acknowledged or not. -/
theorem running_activeAck (hrunning : Running slot a) (named : List ℕ) (active : ℕ → Bool)
    (now : ℕ) :
    Running slot (slot.gatewaySaid (.activeAck named) active now a).1 ↔
      a.up = true ∨ ∃ c ∈ a.contexts, c ∉ slot.about named := by
  have hleft : a.contexts.filter (· ∉ slot.about named) = [] ↔
      ¬ ∃ c ∈ a.contexts, c ∉ slot.about named := by
    simp [List.filter_eq_nil_iff]
  unfold Running gatewaySaid
  dsimp only
  by_cases hnone : a.contexts.filter (· ∉ slot.about named) = []
  · rw [if_pos hnone, hnone]
    simp only [List.not_mem_nil, and_false, exists_false, or_false, Option.isSome_none,
      Bool.false_eq_true, imp_false, hleft.mp hnone, Bool.not_eq_false]
  · rw [if_neg hnone]
    refine ⟨fun _ => .inr (not_not.mp (mt hleft.mpr hnone)), fun _ => ?_⟩
    rintro (hup | ⟨c, hconfigured, hc⟩)
    · exact hrunning (.inl hup)
    · exact hrunning (.inr ⟨c, hconfigured, (List.mem_filter.mp hc).1⟩)

/-- Every other event keeps T(ack) running for what is not acknowledged. -/
theorem running_handle (hrunning : Running slot a) {e : Event} (hup : e.upAcked = false)
    (hactive : ∀ named active now, e ≠ .said (.activeAck named) active now) :
    Running slot (slot.handle a e).1 := by
  cases e with
  | clock now =>
    rw [handle_clock]
    split_ifs with hdue
    · unfold ackTimeout
      dsimp only
      split_ifs with hdown
      · exact fun _ => rfl
      · have hasked := resend_asked slot { a with at_ := none } now a.contexts
        apply (hasked.running_iff (by simpa using hdown) rfl).mpr
        by_cases hany : ∃ c ∈ a.contexts, c ∈ slot.configured
        · exact .inl hany
        · exact .inr fun c hconfigured hc => hany ⟨c, hc, hconfigured⟩
    · exact hrunning
  | said message active now =>
    cases message with
    | upAck named => simp [Event.upAcked] at hup
    | activeAck named => exact absurd rfl (hactive named active now)
    | inactiveAck named | downAck named => exact fun _ => rfl
    | request named => exact hrunning
    | notify status named =>
      cases status with
      | none => exact hrunning
      | some known =>
        cases known with
        | none => exact hrunning
        | some status =>
          cases status with
          | asActive | aspFailure => exact hrunning
          | alternateAspActive =>
            rintro (hdown | ⟨c, hconfigured, hc⟩)
            · exact hrunning (.inl hdown)
            · exact hrunning (.inr ⟨c, hconfigured, (List.mem_filter.mp hc).1⟩)
          | asPending | asInactive | insufficientResources =>
            obtain ⟨asked, -, hasked⟩ :=
              takeOver_asked slot active a now (slot.about named) 0
            exact hasked.keeps hrunning

/-! ## Every run -/

variable {p : Asking × Observed} {e : Event}

/-- Before the first ASP Up Ack nothing was asked for. -/
def Fresh (p : Asking × Observed) : Prop :=
  p.2.acked = false → p.1.up = false ∧ p.2.down = false ∧ p.2.asked = []

theorem Fresh.step (h : Fresh p) (e : Event) : Fresh (slot.observe p e) := by
  intro hacked
  obtain ⟨hbefore, he⟩ := Bool.or_eq_false_iff.mp hacked
  obtain ⟨hup, hdown, hasked⟩ := h hbefore
  obtain ⟨hup', hasks⟩ := handle_down slot hup he
  refine ⟨hup', ?_, ?_⟩
  · simp [observe, Machine.watch, Observed.note, hdown, hbefore]
  · simp only [observe, Machine.watch, Observed.note, hasked, hasks, List.nil_append]

theorem Tended.step (h : slot.Tended p) (he : e.upAcked = false)
    (hrunning : Running slot (slot.handle p.1 e).1) : slot.Tended (slot.observe p e) := by
  refine ⟨hrunning, fun hacked => ?_⟩
  have hbefore : p.2.acked = true := by
    simpa [observe, Machine.watch, Observed.note, he] using hacked
  rcases h.asked hbefore with hdown | hall
  · left
    simp [observe, Machine.watch, Observed.note, hdown]
  · right
    exact fun c hc => List.mem_append_left _ (hall c hc)

/-- What an event must be for the ASP side to go on asking. An ASP Active Ack that leaves nothing to
ask for comes while ASP Up is acknowledged. An ASP Up Ack names none or one of the Routing Contexts
configured, unless nothing configured is pending, and the first one names none or all of them. -/
def Heeds (slot : Slot) (p : Asking × Observed) : Event → Prop
  | .said (.upAck named) _ _ =>
    ((∃ c ∈ slot.about named, c ∈ slot.configured) ∨
      ∀ c ∈ slot.configured, c ∉ p.1.contexts) ∧
    (p.2.acked = false → ∀ c ∈ slot.configured, c ∈ slot.about named)
  | .said (.activeAck named) _ _ => p.1.up = true ∨ ∃ c ∈ p.1.contexts, c ∉ slot.about named
  | _ => True

theorem tended_upAck (hfresh : Fresh p) (h : slot.Tended p) (named : List ℕ)
    (active : ℕ → Bool) (now : ℕ) :
    slot.Tended (slot.observe p (.said (.upAck named) active now)) ↔
      slot.Heeds p (.said (.upAck named) active now) := by
  have hasked := askEach_asked slot { p.1 with up := true, at_ := none } now
    (slot.about named)
  have hrunning := hasked.running_iff rfl rfl
  have hnext : slot.Tended (slot.observe p (.said (.upAck named) active now)) ↔
      Running slot (slot.askEach now { p.1 with up := true, at_ := none }
        (slot.about named)).1 ∧
      (p.2.down = true ∨ ∀ c ∈ slot.configured, c ∈ p.2.asked ∨ c ∈ slot.about named) := by
    constructor
    · intro hnext
      refine ⟨hnext.running, ?_⟩
      have hall := hnext.asked (Bool.or_true _)
      simp only [observe, Machine.watch, handle, gatewaySaid, Observed.note, Event.tookDown,
        Bool.and_false, Bool.or_false, List.filterMap_cons, Act.asks, List.mem_append,
        hasked.asked] at hall
      refine hall.imp_right fun hall c hc => ?_
      exact (hall c hc).imp_right And.left
    · rintro ⟨hrun, hall⟩
      refine ⟨hrun, fun _ => ?_⟩
      simp only [observe, Machine.watch, handle, gatewaySaid, Observed.note, Event.tookDown,
        Bool.and_false, Bool.or_false, List.filterMap_cons, Act.asks, List.mem_append,
        hasked.asked]
      refine hall.imp_right fun hall c hc => ?_
      exact (hall c hc).imp_right fun hnamed => ⟨hnamed, hc⟩
  rw [hnext, hrunning]
  refine and_congr_right fun _ => ?_
  cases hacked : p.2.acked with
  | false =>
    obtain ⟨-, hdown, hnone⟩ := hfresh hacked
    simp [hdown, hnone]
  | true =>
    simp only [Bool.true_eq_false, false_implies, iff_true]
    refine (h.asked hacked).imp_right fun hall c hc => ?_
    exact .inl (hall c hc)

/-- The ASP side goes on asking after an event exactly if the event is as it must be. -/
theorem tended_iff (hfresh : Fresh p) (h : slot.Tended p) (e : Event) :
    slot.Tended (slot.observe p e) ↔ slot.Heeds p e := by
  have hother (he : e.upAcked = false)
      (hactive : ∀ named active now, e ≠ .said (.activeAck named) active now) :
      slot.Tended (slot.observe p e) := h.step he (running_handle h.running he hactive)
  cases e with
  | clock now => exact iff_of_true (hother rfl (by simp)) trivial
  | said message active now =>
    cases message with
    | upAck named => exact tended_upAck hfresh h named active now
    | activeAck named =>
      have hiff := running_activeAck h.running named active now
      constructor
      · exact fun hnext => hiff.mp hnext.running
      · exact fun hheeds => h.step rfl (hiff.mpr hheeds)
    | inactiveAck named | downAck named | notify status named | request named =>
      exact iff_of_true (hother rfl (by simp)) trivial

end Slot

/-- The ASP side goes on asking throughout a run exactly if every event of the run is as it must
be. -/
theorem never_stops_iff (slot : Slot) (now : ℕ) (events : List Event) :
    (∀ before after, events = before ++ after →
      slot.Tended (Machine.run slot.observe (slot.start now) before)) ↔
    Machine.Along slot.observe slot.Heeds (slot.start now) events := by
  apply Machine.always_iff_along (J := Slot.Fresh)
  · exact fun p e hfresh => hfresh.step e
  · exact fun p e hfresh h => Slot.tended_iff hfresh h e
  · exact fun _ => ⟨rfl, rfl, rfl⟩
  · exact ⟨fun _ => rfl, by simp [Slot.start, Observed.new]⟩

/-- An association that is an ASP of one server, with Routing Context 10. -/
def single : Slot := ⟨0, [⟨0, 0, 10, .loadshare⟩], 2000, none⟩

/-- The gateway takes the ASP down while an ASP Active Ack is on its way: T(ack) is stopped before
ASP Up is sent again. -/
theorem never_asks_again :
    ¬ ∀ before after,
      [Event.said (.upAck []) (fun _ => false) 1, .said (.downAck []) (fun _ => false) 2,
        .said (.activeAck [10]) (fun _ => false) 3] = before ++ after →
      single.Tended (Machine.run single.observe (single.start 0) before) := by
  intro h
  have hrunning := (h _ [] (List.append_nil _).symm).running (.inl rfl)
  contradiction

end SiphonSigtran.Transport.AspSide
