import SiphonSigtran.Mtp3.RouteMarks

/-!
# What is held for controlled rerouting

A destination is held once at a time: management says so when it begins, and
says that it is released when T6 runs out or a route of the destination becomes
prohibited.
-/

namespace SiphonSigtran.Mtp3

open Lib Management

variable {G : Guard}

/-- Whether a destination is held after an action; `none` once it was held while it was, or
released while it was not. -/
def reheld (d : ℕ) (held : Option Bool) : Action → Option Bool
  | .holdDestination dpc =>
    if dpc = d then if held = some false then some true else none else held
  | .releaseDestination dpc =>
    if dpc = d then if held = some true then some false else none else held
  | _ => held

/-- Whether a destination is held after the actions. -/
def heldAfter (d : ℕ) (held : Option Bool) (acts : List Action) : Option Bool :=
  acts.foldl (reheld d) held

@[simp] theorem heldAfter_nil (d : ℕ) (held : Option Bool) : heldAfter d held [] = held := rfl

@[simp] theorem heldAfter_cons (d : ℕ) (held : Option Bool) (a : Action) (acts : List Action) :
    heldAfter d held (a :: acts) = heldAfter d (reheld d held a) acts := rfl

@[simp] theorem heldAfter_append (d : ℕ) (held : Option Bool) (xs ys : List Action) :
    heldAfter d held (xs ++ ys) = heldAfter d (heldAfter d held xs) ys := List.foldl_append

/-- What went wrong stays so. -/
theorem heldAfter_none (d : ℕ) (acts : List Action) : heldAfter d none acts = none := by
  induction acts with
  | nil => rfl
  | cons a acts ih =>
    have ha : reheld d none a = none := by
      cases a <;> simp [reheld]
    rw [heldAfter_cons, ha, ih]

theorem heldAfter_of_still {d : ℕ} {acts : List Action}
    (h : ∀ a ∈ acts, a ≠ .holdDestination d ∧ a ≠ .releaseDestination d) (held : Option Bool) :
    heldAfter d held acts = held := by
  induction acts with
  | nil => rfl
  | cons a acts ih =>
    have ha : reheld d held a = held := by
      have hne := h a (by simp)
      cases a with
      | holdDestination e =>
        apply if_neg
        rintro rfl
        exact hne.1 rfl
      | releaseDestination e =>
        apply if_neg
        rintro rfl
        exact hne.2 rfl
      | _ => rfl
    rw [heldAfter_cons, ha]
    exact ih fun b hb => h b (by simp [hb])

theorem heldAfter_of_unmarking {acts : List Action} (h : ∀ a ∈ acts, a.marking = false) (d : ℕ)
    (held : Option Bool) : heldAfter d held acts = held := by
  apply heldAfter_of_still
  intro a ha
  have hmarking := h a ha
  constructor
  · rintro rfl
    simp [Action.marking] at hmarking
  · rintro rfl
    simp [Action.marking] at hmarking

/-! ## Every move -/

theorem heldAfter_deferred {dpc : ℕ} {acts : List Action}
    (h : ∀ a ∈ acts, ∃ L status, a = Action.route dpc L status) (d : ℕ) (held : Option Bool) :
    heldAfter d held acts = held := by
  apply heldAfter_of_still
  intro a ha
  obtain ⟨L, status, rfl⟩ := h a ha
  simp

/-- What a mark does to a destination that is held or not. -/
theorem MarkMove.holds {timers : Timers} {dpc : ℕ} {L : LinksetId} {status : RouteStatus}
    {d d' : DestinationState} {outs : List Action} (h : MarkMove timers dpc L status d d' outs)
    (hd : ∀ a ∈ d.deferred, ∃ L status, a = Action.route dpc L status) :
    heldAfter dpc (some d.holding) outs = some d'.holding := by
  cases h with
  | marked => rfl
  | deferred => rfl
  | held hs hh => simp [reheld, hh]
  | forced hs hh =>
    rw [heldAfter_append, heldAfter_deferred hd]
    rfl
  | released hs hh =>
    rw [heldAfter_append, heldAfter_append, heldAfter_deferred hd]
    simp [reheld, hh]

theorem MarkMove.holds_elsewhere {timers : Timers} {dpc : ℕ} {L : LinksetId}
    {status : RouteStatus} {d d' : DestinationState} {outs : List Action}
    (h : MarkMove timers dpc L status d d' outs)
    (hd : ∀ a ∈ d.deferred, ∃ L status, a = Action.route dpc L status) {e : ℕ} (he : dpc ≠ e)
    (held : Option Bool) : heldAfter e held outs = held := by
  cases h with
  | marked => rfl
  | deferred => rfl
  | held hs hh => simp [reheld, he]
  | forced hs hh =>
    rw [heldAfter_append, heldAfter_deferred hd]
    rfl
  | released hs hh =>
    rw [heldAfter_append, heldAfter_append, heldAfter_deferred hd]
    simp [reheld, he]

@[simp] theorem Management.setDestination_out (m : Management) (d : ℕ)
    (f : DestinationState → DestinationState) : (m.setDestination d f).out = m.out := rfl

/-- A destination is held as its actions say. -/
theorem Move.held {P P' : Set Subject} {m m' : Management} (h : Move G P m P' m')
    (hm : Marked m) {d : ℕ} {held : Option Bool}
    (hi : heldAfter d held (actions m.out) = some (m.destinations d).holding) :
    heldAfter d held (actions m'.out) = some (m'.destinations d).holding := by
  cases h.routing with
  | mark e L status position d' outs hg hp hmark hm' =>
    subst hm'
    have htest : ∀ b, heldAfter d b [testTimer m e L status] = b := fun b => by
      unfold testTimer
      split_ifs <;> rfl
    rw [actions_extend, setDestination_out, heldAfter_append, hi, ← List.singleton_append,
      heldAfter_append, htest]
    by_cases he : e = d
    · subst he
      rw [extend_destinations, setDestination_self]
      exact hmark.holds (hm e)
    · rw [extend_destinations, setDestination_ne m _ (Ne.symm he)]
      exact hmark.holds_elsewhere (hm e) he _
  | allow L hg h =>
    subst h
    have hout : actions (m.allowRoutesThrough L).out = actions m.out ++
        (m.topology.dpcs.flatMap fun dpc => (m.destinations dpc).routes.filterMap fun r =>
          if r.via = .linkset L ∧ r.status ≠ .allowed then some dpc else none).flatMap fun dpc =>
            [.stop (.routeSetTest dpc L), .route dpc L .allowed] := by
      unfold allowRoutesThrough
      rw [actions_extend]
    rw [hout, heldAfter_append, hi]
    apply heldAfter_of_still
    intro a ha
    obtain ⟨e, -, ha⟩ := List.mem_flatMap.mp ha
    simp only [List.mem_cons, List.not_mem_nil, or_false] at ha
    rcases ha with rfl | rfl <;> simp
  | release e hh h =>
    subst h
    rw [actions_extend, setDestination_out, heldAfter_append, heldAfter_append, hi,
      heldAfter_deferred (hm e)]
    by_cases he : e = d
    · subst he
      simp [reheld, hh]
    · simp [reheld, he, setDestination_ne m _ (Ne.symm he)]
  | still es hout hes ht hd =>
    rw [hout, actions_append, heldAfter_append, hi, heldAfter_of_unmarking hes, (hd d).2.2]

namespace Management

/-- What an input does to what is held, it says. -/
theorem process_held {m : Management} {w : Watch} (hs : Settled (m, w)) (input : Input) (d : ℕ) :
    heldAfter d (some (m.destinations d).holding) (actions (m.process input).out) =
      some ((m.process input).destinations d).holding := by
  have hout : m.out = [] := hs.out
  refine (Steps.invariant (I := fun _ n => Marked n ∧
      heldAfter d (some (m.destinations d).holding) (actions n.out) =
        some (n.destinations d).holding)
    (fun hmove ⟨hm, hi⟩ => ⟨hmove.marked hm, hmove.held hm hi⟩)
    (process_steps hs.calm input) ⟨hs.marked, ?_⟩).2
  rw [hout]
  rfl

/-! ## What releases a destination -/

/-- What was left before an input is settled is left after it, and nothing more is held or
released. -/
theorem process_dispatched {m : Management} (input : Input)
    (hi : ∀ d l, input ≠ .unroutable d l) :
    (∀ a ∈ actions (m.dispatch input).out, a ∈ actions (m.process input).out) ∧
      ∀ d, ((m.process input).destinations d).holding =
        ((m.dispatch input).destinations d).holding := by
  rw [process_of_settled hi]
  have hsettled := (settle_quiet (m.dispatch input)).2
  obtain ⟨es, hes⟩ := (watchIsolation_steps (G := Guard.any) ∅ (m.dispatch input).settle).out
  constructor
  · intro a ha
    obtain ⟨es', hes', -⟩ := hsettled.out
    rw [hes, hes']
    simp [ha]
  · intro d
    rw [(watchIsolation_unmoved _).2.2.2.2.1, hsettled.destination d]

theorem timeout_releases {m : Management} {d : ℕ} (hd : d ∈ m.topology.dpcs)
    (hh : (m.destinations d).holding = true) :
    Action.releaseDestination d ∈ actions (m.process (.timeout (.rerouting d))).out ∧
      ((m.process (.timeout (.rerouting d))).destinations d).holding = false := by
  have hafter := process_dispatched (m := m) (.timeout (.rerouting d)) (by simp)
  have hdispatched : m.dispatch (.timeout (.rerouting d)) =
      ((m.setDestination d fun s => { s with holding := false, deferred := [] }).extend
        (m.destinations d).deferred).push (.releaseDestination d) := by
    simp [dispatch, timeout, hd, hh]
  rw [hdispatched] at hafter
  refine ⟨hafter.1 _ (by rw [actions_push]; simp), ?_⟩
  rw [hafter.2]
  simp

theorem markRoute_releases {m : Management} (L : LinksetId) {d : ℕ} (before after : List ℕ)
    (hh : (m.destinations d).holding = true) :
    Action.releaseDestination d ∈ actions (m.markRoute L d .prohibited before after).out ∧
      ((m.markRoute L d .prohibited before after).destinations d).holding = false := by
  unfold markRoute
  simp only [↓reduceIte, push_destinations, extend_destinations, setDestination_self, hh]
  split_ifs
  · simp [note, actions_push]
  · simp [actions_push]

/-- The input is a prohibition, by the adjacent point of a linkset, of a route through it
that is not prohibited yet. -/
def prohibits (m : Management) (input : Input) (d : ℕ) : Prop :=
  ∃ l opc slc L position, input = .received l opc slc (.tfp d) ∧ m.hasLink l = true ∧
    m.linksetFrom opc l = some L ∧ d ∈ m.topology.dpcs ∧
    (m.destinations d).routes.findIdx? (fun r => r.via = .linkset L) = some position ∧
    (m.destinations d).routes[position]?.map RouteState.status ≠ some .prohibited

theorem prohibition_releases {m : Management} {input : Input} {d : ℕ}
    (hi : m.prohibits input d) (hh : (m.destinations d).holding = true) :
    Action.releaseDestination d ∈ actions (m.process input).out ∧
      ((m.process input).destinations d).holding = false := by
  obtain ⟨l, opc, slc, L, position, rfl, hl, hL, hd, hp, hs⟩ := hi
  have hafter := process_dispatched (m := m) (.received l opc slc (.tfp d)) (by simp)
  have hdispatched : m.dispatch (.received l opc slc (.tfp d)) =
      m.routeMessage L d .prohibited (ManagementMessage.tfp d).name := by
    simp [dispatch, hl, received, hL, receivedFrom, ManagementMessage.ofRestart]
  have hmarked : ∃ before after, m.dispatch (.received l opc slc (.tfp d)) = markRoute
      ((m.setDestination d fun s => s.setStatus position .prohibited).push
        (.start (.routeSetTest d L) m.timers.t10)) L d .prohibited before after := by
    rw [hdispatched]
    unfold routeMessage
    simp only [destination?, hd, ↓reduceIte, Option.bind_some, hp, hs, reduceCtorEq]
    exact ⟨_, _, rfl⟩
  obtain ⟨before, after, hmarked⟩ := hmarked
  have hreleased := markRoute_releases (m := (m.setDestination d fun s =>
    s.setStatus position .prohibited).push (.start (.routeSetTest d L) m.timers.t10))
    L before after (by
      rw [push_destinations, setDestination_self]
      exact hh)
  rw [← hmarked] at hreleased
  exact ⟨hafter.1 _ hreleased.1, (hafter.2 d).trans hreleased.2⟩

end Management

end SiphonSigtran.Mtp3
