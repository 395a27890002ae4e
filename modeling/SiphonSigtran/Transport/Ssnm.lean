import Mathlib.Algebra.Group.Nat.Defs
import SiphonSigtran.Mtp3.Announced
import SiphonSigtran.Routing.RouteState

/-!
# What peers say of destinations

A peer says that destinations are unavailable behind it, or available again. Both
the per-message resolver and management keep what it said. The M3UA layer tells
both; the SUA layer tells the resolver only, so the two disagree once a message
of a SUA peer changes what the resolver has of a configured destination.
-/

namespace SiphonSigtran.Transport

open Lib Mtp3 Routing

/-- The messages that say whether destinations are available. -/
inductive Ssnm
  | duna
  | dava
  | drst
  deriving DecidableEq, Repr

/-- A restricted destination can be reached: for routing it is available. -/
def Ssnm.pauses : Ssnm → Bool
  | .duna => true
  | .dava | .drst => false

/-- Whether an M3UA association takes traffic for a Routing Context. -/
inductive Admission
  | active
  | notActive
  | unconfigured
  deriving DecidableEq, Repr

/-- The routing tables of a domain, its management with all the actions it called for, and
what was reported to it that it has not taken up yet. -/
structure Domain where
  routing : Routing.RouteState
  machine : Management
  called : List Mtp3.Action
  inputs : List Mtp3.Input

/-- What happens next: a message of a peer, a report of another task to management, or
management takes up a report or something else that happens to it, such as a timer. -/
inductive Arrival
  | m3ua (kind : Ssnm) (admission : Admission) (affected : List (ℕ × ℕ))
  | sua (kind : Ssnm) (affected : List ℕ)
  | report (input : Mtp3.Input) (h : ∀ d on, input ≠ .paused d on)
  | handle
  | elapse (input : Mtp3.Input) (h : ∀ d on, input ≠ .paused d on)

namespace Domain

-- Which values are point codes of the network.
variable (valid : ℕ → Bool)

def new (topology : Topology) (timers : Timers) (tfp : Bool) : Domain :=
  ⟨.new, Management.new topology timers tfp, [], []⟩

/-- The point codes of the routing table an entry stands for: one, or with a mask every one
whose other bits are the same. -/
def range (s : Domain) (mask pc : ℕ) : List ℕ :=
  if mask = 0 then [pc]
  else s.machine.topology.dpcs.filter fun dpc => dpc >>> min mask 24 = pc >>> min mask 24

/-- What the event of a message is for the resolver. -/
def eventOf (paused : Bool) (affected : ℕ) : Mtp3Event :=
  if paused then .pause affected else .resume affected

/-- A destination became unavailable or available behind an M3UA peer. -/
def pause (s : Domain) (paused : Bool) (dpc : ℕ) : Domain :=
  if valid dpc then
    { s with
      routing := s.routing.applyEvent (eventOf paused dpc)
      inputs := s.inputs ++ [.paused dpc paused] }
  else s

/-- The same for a SUA peer. -/
def apply (s : Domain) (paused : Bool) (dpc : ℕ) : Domain :=
  if valid dpc then { s with routing := s.routing.applyEvent (eventOf paused dpc) } else s

/-- An M3UA message is refused when its ASP is not active, when it names no destination, and
when it names one that the network does not have. -/
def networkManagement (s : Domain) (kind : Ssnm) (admission : Admission)
    (affected : List (ℕ × ℕ)) : Domain :=
  if admission ≠ .active ∨ affected = [] ∨ affected.any (fun entry => !valid entry.2) then s
  else (affected.flatMap fun entry => s.range entry.1 entry.2).foldl
    (fun s dpc => s.pause valid kind.pauses dpc) s

def handleSsnm (s : Domain) (kind : Ssnm) (affected : List ℕ) : Domain :=
  affected.foldl (fun s dpc => s.apply valid kind.pauses dpc) s

def step (s : Domain) : Arrival → Domain
  | .m3ua kind admission affected => s.networkManagement valid kind admission affected
  | .sua kind affected => s.handleSsnm valid kind affected
  | .report input _ => { s with inputs := s.inputs ++ [input] }
  | .handle =>
    match s.inputs with
    | [] => s
    | input :: inputs =>
      let next := Management.calling (s.machine, s.called) input
      { s with machine := next.1, called := next.2, inputs := inputs }
  | .elapse input _ =>
    let next := Management.calling (s.machine, s.called) input
    { s with machine := next.1, called := next.2 }

/-- Management once it has taken up what was reported to it, and its actions. -/
def drained (s : Domain) : Management × List Mtp3.Action :=
  Machine.run Management.calling (s.machine, s.called) s.inputs

/-- The resolver and management have the same destinations unavailable; those that are, nobody
reaches, and the last announcement of each destination is what is so. -/
def Agrees (s : Domain) : Prop :=
  ∀ d ∈ s.machine.topology.dpcs,
    (s.routing.isProhibited d = true ↔ (s.drained.1.destinations d).paused = true) ∧
    (s.routing.isProhibited d = true → s.drained.1.reachable d = false) ∧
    (announced d s.drained.2).getLastD .unavailable = s.drained.1.availability d

/-- A message of a SUA peer says nothing of a configured destination that the resolver does
not have already. -/
def Known (s : Domain) : Arrival → Prop
  | .sua kind affected => ∀ d ∈ s.machine.topology.dpcs, d ∈ affected → valid d = true →
      s.routing.isProhibited d = kind.pauses
  | _ => True

/-! ## What management takes up -/

end Domain

/-- Whether a destination is paused after an input. -/
def repaused (d : ℕ) (paused : Bool) : Mtp3.Input → Bool
  | .paused dpc on => if dpc = d then on else paused
  | _ => paused

theorem repaused_of_ne {d : ℕ} {input : Mtp3.Input} (h : ∀ d on, input ≠ .paused d on)
    (paused : Bool) : repaused d paused input = paused := by
  cases input with
  | paused e on => exact absurd rfl (h e on)
  | _ => rfl

theorem MarkMove.keepsPaused {timers : Timers} {dpc : ℕ} {L : LinksetId} {status : RouteStatus}
    {d d' : DestinationState} {outs : List Mtp3.Action}
    (h : MarkMove timers dpc L status d d' outs) :
    d'.paused = d.paused := by
  cases h <;> rfl

theorem Move.keepsPaused {G : Guard} {P P' : Set Subject} {m m' : Management}
    (h : Move G P m P' m') {d : ℕ} (hg : ∀ on, ¬G.pause d on) :
    (m'.destinations d).paused = (m.destinations d).paused := by
  cases h with
  | paused e on hpause =>
    have hne : d ≠ e := by
      rintro rfl
      exact hg on hpause
    rw [Management.setDestination_ne m _ hne]
  | mark e L status position d' outs hallowed hd hp hs hmark =>
    by_cases he : d = e
    · subst he
      simp only [Management.extend_destinations, Management.setDestination_self,
        MarkMove.keepsPaused hmark]
      rfl
    · rw [Management.extend_destinations, Management.setDestination_ne m _ he]
  | unmarked e | accessible e | restricted e | told L adjacent e | release e =>
    by_cases he : d = e <;>
      simp [Management.setDestination, Management.push, Management.extend, he]
  | _ => rfl

/-- Only a report that pauses or resumes a destination changes whether it is paused. -/
theorem calling_paused {topology : Topology} {s : Management × List Mtp3.Action}
    (h : Management.AnnouncedSo topology s) {d : ℕ} (hd : d ∈ topology.dpcs) (input : Mtp3.Input) :
    ((Management.calling s input).1.destinations d).paused =
      repaused d (s.1.destinations d).paused input := by
  obtain ⟨w, hw⟩ := h.settled
  have hkeeps : (∀ on, input ≠ .paused d on) → ((s.1.process input).destinations d).paused =
      (s.1.destinations d).paused := fun hne =>
    Steps.invariant (I := fun _ n => (n.destinations d).paused = (s.1.destinations d).paused)
      (fun hmove hn => (Move.keepsPaused hmove hne).trans hn)
      (Management.process_steps hw.calm input) rfl
  have hafter : ((Management.calling s input).1.destinations d).paused =
      ((s.1.process input).destinations d).paused := rfl
  rw [hafter]
  cases input with
  | paused e on =>
    by_cases he : e = d
    · subst he
      have hmem : e ∈ s.1.topology.dpcs := by
        rw [h.topology]
        exact hd
      rw [Management.process_of_settled (by simp), (Management.watchIsolation_unmoved _).2.2.2.2.1,
        (Management.settle_quiet _).2.paused]
      simp [Management.dispatch, hmem, repaused]
    · rw [hkeeps fun on' heq => he (Mtp3.Input.paused.inj heq).1]
      simp [repaused, he]
  | _ => exact hkeeps (by simp)

theorem announcedSo_foldl {topology : Topology} {s : Management × List Mtp3.Action}
    (h : Management.AnnouncedSo topology s) (inputs : List Mtp3.Input) :
    Management.AnnouncedSo topology (Machine.run Management.calling s inputs) :=
  Machine.run_invariant (Q := fun _ _ => True) (fun _ i h _ => h.step i) h
    (Machine.along_trivial _ inputs)

theorem run_paused {topology : Topology} {s : Management × List Mtp3.Action}
    (h : Management.AnnouncedSo topology s) {d : ℕ} (hd : d ∈ topology.dpcs)
    (inputs : List Mtp3.Input) :
    ((Machine.run Management.calling s inputs).1.destinations d).paused =
      inputs.foldl (repaused d) (s.1.destinations d).paused := by
  induction inputs generalizing s with
  | nil => rfl
  | cons input inputs ih =>
    rw [Machine.run_cons, ih (h.step input), calling_paused h hd, List.foldl_cons]

/-- Nothing reaches a destination that is paused. -/
theorem reachable_of_paused {m : Management} {d : ℕ}
    (h : (m.destinations d).paused = true) : m.reachable d = false := by
  have husable : ∀ r, m.usable (m.destinations d) r = .no := fun r => by
    simp [Management.usable, h]
  unfold Management.reachable Management.inUse Management.destination?
  split_ifs
  · simp [routesInUse_of_no RouteState.priority _ fun r _ => husable r]
  · rfl

namespace Domain

variable {valid : ℕ → Bool} {topology : Topology}

/-- The resolver has of a destination what management has once it took up all reports. -/
def Same (s : Domain) (d : ℕ) : Prop :=
  s.routing.isProhibited d = s.inputs.foldl (repaused d) (s.machine.destinations d).paused

/-- What management of a domain was called for is kept. -/
def Led (topology : Topology) (s : Domain) : Prop :=
  Management.AnnouncedSo topology (s.machine, s.called)

theorem agrees_iff {s : Domain} (h : Led topology s) :
    s.Agrees ↔ ∀ d ∈ topology.dpcs, s.Same d := by
  have hdrained := announcedSo_foldl h s.inputs
  have hpaused : ∀ d ∈ topology.dpcs, (s.drained.1.destinations d).paused =
      s.inputs.foldl (repaused d) (s.machine.destinations d).paused :=
    fun d hd => run_paused h hd s.inputs
  have htopology : s.machine.topology = topology := h.topology
  unfold Agrees Same
  rw [htopology]
  constructor
  · intro hagrees d hd
    rw [← hpaused d hd, Bool.eq_iff_iff]
    exact (hagrees d hd).1
  · intro hsame d hd
    have heq := (hsame d hd).trans (hpaused d hd).symm
    refine ⟨by rw [heq], fun hp => reachable_of_paused (heq.symm.trans hp), ?_⟩
    have hd' : d ∈ s.drained.1.topology.dpcs := by
      rw [drained, hdrained.topology]
      exact hd
    exact (hdrained.announced d).last.trans (hdrained.agreed d hd').availability

theorem Same.pause {s : Domain} {d : ℕ} (h : s.Same d) (paused : Bool) (dpc : ℕ) :
    (s.pause valid paused dpc).Same d := by
  unfold Domain.pause
  split_ifs
  · unfold Same at h ⊢
    rw [List.foldl_append, ← h]
    by_cases hd : d = dpc
    · cases paused <;> simp [eventOf, repaused, hd]
    · cases paused <;> simp [eventOf, repaused, hd, Ne.symm hd]
  · exact h

theorem Same.networkManagement {s : Domain} {d : ℕ} (h : s.Same d) (kind : Ssnm)
    (admission : Admission) (affected : List (ℕ × ℕ)) :
    (s.networkManagement valid kind admission affected).Same d := by
  unfold Domain.networkManagement
  split_ifs
  · exact h
  · generalize affected.flatMap _ = dpcs
    induction dpcs generalizing s with
    | nil => exact h
    | cons dpc dpcs ih => exact ih (h.pause kind.pauses dpc)

theorem isProhibited_apply (s : Domain) (paused : Bool) (dpc d : ℕ) :
    (s.apply valid paused dpc).routing.isProhibited d =
      if d = dpc ∧ valid d = true then paused else s.routing.isProhibited d := by
  unfold apply
  by_cases hv : valid dpc = true
  · rw [if_pos hv]
    by_cases hd : d = dpc
    · subst hd
      cases paused <;> simp [eventOf, hv]
    · cases paused <;> simp [eventOf, hd]
  · rw [if_neg hv]
    have hnot : ¬(d = dpc ∧ valid d = true) := by
      rintro ⟨rfl, hd⟩
      exact hv hd
    rw [if_neg hnot]

theorem apply_elsewhere (valid : ℕ → Bool) (s : Domain) (paused : Bool) (dpc : ℕ) :
    (s.apply valid paused dpc).machine = s.machine ∧
      (s.apply valid paused dpc).called = s.called ∧
      (s.apply valid paused dpc).inputs = s.inputs := by
  unfold apply
  split_ifs <;> exact ⟨rfl, rfl, rfl⟩

/-- What a SUA message leaves. -/
theorem isProhibited_handleSsnm (s : Domain) (kind : Ssnm) (affected : List ℕ) (d : ℕ) :
    (s.handleSsnm valid kind affected).routing.isProhibited d =
      if d ∈ affected ∧ valid d = true then kind.pauses else s.routing.isProhibited d := by
  unfold handleSsnm
  induction affected generalizing s with
  | nil => simp
  | cons dpc affected ih =>
    rw [List.foldl_cons, ih, isProhibited_apply]
    by_cases hv : valid d = true
    · by_cases hd : d = dpc
      · subst hd
        simp [hv]
      · simp [hv, hd]
    · simp [hv]

theorem handleSsnm_elsewhere (valid : ℕ → Bool) (s : Domain) (kind : Ssnm) (affected : List ℕ) :
    (s.handleSsnm valid kind affected).machine = s.machine ∧
      (s.handleSsnm valid kind affected).called = s.called ∧
      (s.handleSsnm valid kind affected).inputs = s.inputs := by
  unfold handleSsnm
  induction affected generalizing s with
  | nil => exact ⟨rfl, rfl, rfl⟩
  | cons dpc affected ih =>
    obtain ⟨hm, hc, hi⟩ := ih (s.apply valid kind.pauses dpc)
    obtain ⟨hm', hc', hi'⟩ := apply_elsewhere valid s kind.pauses dpc
    exact ⟨hm.trans hm', hc.trans hc', hi.trans hi'⟩

theorem pause_elsewhere (valid : ℕ → Bool) (s : Domain) (paused : Bool) (dpc : ℕ) :
    (s.pause valid paused dpc).machine = s.machine ∧
      (s.pause valid paused dpc).called = s.called := by
  unfold pause
  split_ifs <;> exact ⟨rfl, rfl⟩

theorem networkManagement_elsewhere (valid : ℕ → Bool) (s : Domain) (kind : Ssnm)
    (admission : Admission) (affected : List (ℕ × ℕ)) :
    (s.networkManagement valid kind admission affected).machine = s.machine ∧
      (s.networkManagement valid kind admission affected).called = s.called := by
  unfold networkManagement
  split_ifs
  · exact ⟨rfl, rfl⟩
  · generalize affected.flatMap _ = dpcs
    induction dpcs generalizing s with
    | nil => exact ⟨rfl, rfl⟩
    | cons dpc dpcs ih =>
      obtain ⟨hm, hc⟩ := ih (s.pause valid kind.pauses dpc)
      obtain ⟨hm', hc'⟩ := pause_elsewhere valid s kind.pauses dpc
      exact ⟨hm.trans hm', hc.trans hc'⟩

/-! ## Every run -/

theorem Led.step {s : Domain} (h : Led topology s) (arrival : Arrival) :
    Led topology (s.step valid arrival) := by
  unfold Led at h ⊢
  cases arrival with
  | m3ua kind admission affected =>
    obtain ⟨hm, hc⟩ := networkManagement_elsewhere valid s kind admission affected
    simpa only [Domain.step, hm, hc] using h
  | sua kind affected =>
    obtain ⟨hm, hc, -⟩ := handleSsnm_elsewhere valid s kind affected
    simpa only [Domain.step, hm, hc] using h
  | report input hi => exact h
  | handle =>
    unfold Domain.step
    cases s.inputs with
    | nil => exact h
    | cons input inputs => exact Management.AnnouncedSo.step h input
  | elapse input hi => exact Management.AnnouncedSo.step h input

/-- The resolver and management stay in agreement about a destination, unless a SUA message
says of it what the resolver does not have. -/
theorem same_step_iff (valid : ℕ → Bool) {s : Domain} (h : Led topology s) {d : ℕ}
    (hd : d ∈ topology.dpcs)
    (hs : s.Same d) (arrival : Arrival) :
    (s.step valid arrival).Same d ↔ ∀ kind affected, arrival = .sua kind affected →
      d ∈ affected → valid d = true → s.routing.isProhibited d = kind.pauses := by
  cases arrival with
  | m3ua kind admission affected =>
    have hsame : (s.step valid (.m3ua kind admission affected)).Same d :=
      hs.networkManagement kind admission affected
    simpa using hsame
  | sua kind affected =>
    obtain ⟨hm, -, hi⟩ := handleSsnm_elsewhere valid s kind affected
    have hafter : (s.step valid (.sua kind affected)).Same d ↔
        (if d ∈ affected ∧ valid d = true then kind.pauses else s.routing.isProhibited d) =
          s.routing.isProhibited d := by
      unfold Same at hs ⊢
      rw [hs]
      simp only [Domain.step, isProhibited_handleSsnm, hm, hi, hs]
    rw [hafter]
    constructor
    · rintro hsame kind' affected' heq hmem hv
      obtain ⟨rfl, rfl⟩ := Arrival.sua.inj heq
      rw [if_pos ⟨hmem, hv⟩] at hsame
      exact hsame.symm
    · intro hknown
      split_ifs with hmem
      · exact (hknown kind affected rfl hmem.1 hmem.2).symm
      · rfl
  | report input hi =>
    have hsame : (s.step valid (.report input hi)).Same d := by
      unfold Same at hs ⊢
      simp only [Domain.step, List.foldl_append, List.foldl_cons, List.foldl_nil,
        repaused_of_ne hi]
      exact hs
    simpa using hsame
  | handle =>
    have hsame : (s.step valid .handle).Same d := by
      unfold Domain.step
      cases hinputs : s.inputs with
      | nil => exact hs
      | cons input inputs =>
        unfold Same at hs ⊢
        rw [hinputs, List.foldl_cons] at hs
        simpa only [calling_paused h hd] using hs
    simpa using hsame
  | elapse input hi =>
    have hsame : (s.step valid (.elapse input hi)).Same d := by
      unfold Same at hs ⊢
      simp only [Domain.step, calling_paused h hd, repaused_of_ne hi]
      exact hs
    simpa using hsame

theorem agrees_step_iff {s : Domain} (h : Led topology s) (hs : s.Agrees) (arrival : Arrival) :
    (s.step valid arrival).Agrees ↔ s.Known valid arrival := by
  have hsame := (agrees_iff h).mp hs
  have hiff := fun d hd => same_step_iff valid h hd (hsame d hd) arrival
  have htopology : s.machine.topology = topology := Management.AnnouncedSo.topology h
  rw [agrees_iff (h.step arrival)]
  constructor
  · intro hafter
    cases arrival with
    | sua kind affected =>
      intro d hd
      rw [htopology] at hd
      exact (hiff d hd).mp (hafter d hd) kind affected rfl
    | _ => trivial
  · intro hknown d hd
    refine (hiff d hd).mpr ?_
    rintro kind affected rfl
    exact hknown d (by rw [htopology]; exact hd)

/-- After every part of a run, once management has taken up what was reported to it, it has the
same destinations unavailable as the resolver, if and only if no SUA message in the run said of a
configured destination what the resolver did not have. -/
theorem agree_iff_known (valid : ℕ → Bool) (topology : Topology) (timers : Timers) (tfp : Bool)
    (arrivals : List Arrival) :
    (∀ before after, arrivals = before ++ after →
      (Machine.run (step valid) (new topology timers tfp) before).Agrees) ↔
    Machine.Along (step valid) (Known valid) (new topology timers tfp) arrivals := by
  have hled : Led topology (new topology timers tfp) :=
    announcedSo_foldl (Management.announcedSo_run topology timers tfp []) []
  refine Machine.always_iff_along (J := Led topology) (fun _ arrival h => h.step arrival)
    (fun _ arrival h hs => agrees_step_iff h hs arrival) hled ((agrees_iff hled).mpr ?_) arrivals
  intro d _
  rfl

/-- A point behind an Application Server, and one at the far end of a link. -/
def serverTopology : Topology where
  ownPc := 1
  linksets := [⟨some 100, [0]⟩]
  links := [⟨0, 0⟩]
  servers := 1
  routes := [(100, [⟨.linkset 0, 0⟩]), (300, [⟨.server 0, 0⟩])]
  member := by decide
  owner := by decide
  nodup := by decide
  codes := by decide
  destinations := by decide
  itu := by decide

/-- A SUA peer that serves a point declares it unavailable: the resolver discards what is for
it, and management goes on to take it for reachable. -/
theorem sua_unavailability_unknown :
    ¬ ∀ (topology : Topology) (timers : Timers) (tfp : Bool) (arrivals : List Arrival),
      (Machine.run (step fun pc => pc < 2 ^ 14) (new topology timers tfp) arrivals).Agrees := by
  intro h
  have hagrees := h serverTopology Management.unitTimers false
    [.elapse (.linkUp 0) (by simp), .elapse (.timeout .restart) (by simp),
      .elapse (.server 0 true) (by simp), .sua .duna [300]] 300 (by decide +kernel)
  have hreachable := hagrees.2.1 (by decide +kernel)
  exact absurd hreachable (by decide +kernel)

end Domain

end SiphonSigtran.Transport
