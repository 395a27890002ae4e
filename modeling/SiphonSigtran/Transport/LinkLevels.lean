import SiphonSigtran.M2pa.RunnerObeys
import SiphonSigtran.Mtp3.Told
import SiphonSigtran.Mtp3.StandingOrders

/-!
# The task of a link and level 3

Signalling network management and the task that serves a link speak past each other: the task says
that the link came or went while management has it opened, held or diverted on what it knew. What
one says reaches the other in order, at any time. In the end the task does with its traffic what
management has decided, and until management has heard of a failure it buffers at worst.
-/

namespace SiphonSigtran.Transport

open Lib
open M2pa (LinkCommand LinkPort Report Runner TrafficState)
open Mtp3 (LinkId Management Timers Topology)

/-- What signalling network management hears of a report about the link. -/
def reportInput (link : LinkId) : Report → Option Mtp3.Input
  | .linkUp => some (.linkUp link)
  | .linkDown bsnt => some (.linkDown link bsnt)
  | _ => none

/-- What the task of the link hears of an action. -/
def actionCommand (link : LinkId) : Mtp3.Action → Option LinkCommand
  | .hold l => if l = link then some .hold else none
  | .open l => if l = link then some .open else none
  | .divert l fsnc => if l = link then some (.divert fsnc) else none
  | .fail l => if l = link then some .fail else none
  | _ => none

/-- An input that is not for the task of the link to give. -/
def foreign (link : LinkId) : Mtp3.Input → Bool
  | .linkUp l | .linkDown l _ => l ≠ link
  | _ => true

/-- The task of a link with what the others keep of its reports, management, and what is on its
way between them. -/
structure LinkLevels where
  task : Runner
  told : M2pa.Told
  inputs : List Mtp3.Input
  management : Management
  commands : List LinkCommand

namespace LinkLevels

/-- What happens: the task comes across something, takes the oldest command, management hears the
oldest report, or something else happens in the domain, and a message is bound to the link. -/
inductive Event
  | task (now : ℕ) (input : Runner.Input)
  | take (now : ℕ)
  | hear
  | manage (input : Mtp3.Input)
  | direct (msu : M2pa.Msu)

section

variable {ι : Type*} (port : LinkPort ι) (link : LinkId)

def new (topology : Topology) (timers : Timers) (tfp : Bool) : LinkLevels where
  task := .new port
  told := .nothing
  inputs := []
  management := .new topology timers tfp
  commands := []

/-- One step of the task, and its reports. -/
def acts (s : LinkLevels) (e : ℕ × Runner.Input) : LinkLevels :=
  let done := s.task.step port e
  { s with
    task := done.1
    told := done.2.foldl M2pa.Told.note s.told
    inputs := s.inputs ++ done.2.filterMap (reportInput link) }

/-- One input to management, and what it has the task do. -/
def manages (s : LinkLevels) (input : Mtp3.Input) : LinkLevels :=
  let handled := s.management.handle input
  { s with
    management := handled.1
    commands := s.commands ++ handled.2.filterMap (actionCommand link) }

def step (s : LinkLevels) : Event → LinkLevels
  | .task _ (.command _) => s
  | .task now input => s.acts port link (now, input)
  | .take now =>
    match s.commands with
    | [] => s
    | command :: rest =>
      if !s.task.applying && s.task.phase ≠ .ending then
        { s with commands := rest }.acts port link (now, .command command)
      else s
  | .hear =>
    match s.inputs with
    | [] => s
    | input :: rest => { s with inputs := rest }.manages link input
  | .manage input => if foreign link input then s.manages link input else s
  | .direct msu => { s with commands := s.commands ++ [.direct msu] }

end

/-- What the task does with its traffic once it has taken what it is told. -/
def settles (s : LinkLevels) : TrafficState :=
  s.commands.foldl TrafficState.obey s.task.traffic.state

/-- Management is to hear that the link went down. -/
def Failing (link : LinkId) (inputs : List Mtp3.Input) : Prop :=
  ∃ bsnt, Mtp3.Input.linkDown link bsnt ∈ inputs

end LinkLevels

/-! ## Commands -/

theorem obey_append (cs ds : List LinkCommand) (t : TrafficState) :
    (cs ++ ds).foldl TrafficState.obey t =
      ds.foldl TrafficState.obey (cs.foldl TrafficState.obey t) := List.foldl_append

/-- Commands leave what is done with traffic as it is, or settle it. -/
theorem obey_settles (cs : List LinkCommand) :
    (∀ t, cs.foldl TrafficState.obey t = t) ∨ ∃ t', ∀ t, cs.foldl TrafficState.obey t = t' := by
  induction cs with
  | nil => exact .inl fun _ => rfl
  | cons c cs ih =>
    rcases ih with hsame | ⟨t', ht'⟩
    · cases c with
      | hold => exact .inr ⟨.hold, fun t => hsame _⟩
      | divert fsnc => exact .inr ⟨.closed, fun t => hsame _⟩
      | «open» => exact .inr ⟨.open, fun t => hsame _⟩
      | fail | direct => exact .inl fun t => hsame t
    · exact .inr ⟨t', fun t => ht' _⟩

/-- A link that buffers what it carried does as it is told all the same, or still buffers what it
would carry. -/
theorem obey_kept (cs : List LinkCommand) (t : TrafficState) :
    cs.foldl TrafficState.obey t.kept = cs.foldl TrafficState.obey t ∨
      cs.foldl TrafficState.obey t = .open ∧ cs.foldl TrafficState.obey t.kept = .hold := by
  rcases obey_settles cs with hsame | ⟨t', ht'⟩
  · rw [hsame, hsame]
    cases t with
    | «open» => exact .inr ⟨rfl, rfl⟩
    | hold | closed => exact .inl rfl
  · rw [ht', ht']
    exact .inl rfl

/-- The orders of management to the link are what its task is told. -/
theorem commands_obeyed (link : LinkId) (xs : List Mtp3.Action) (o : Mtp3.Standing) :
    (o.notes xs).traffic link =
      (xs.filterMap (actionCommand link)).foldl TrafficState.obey (o.traffic link) := by
  induction xs generalizing o with
  | nil => rfl
  | cons a xs ih =>
    have hone : (o.note a).traffic link =
        ((actionCommand link a).toList).foldl TrafficState.obey (o.traffic link) := by
      cases a with
      | hold l | «open» l | divert l =>
        by_cases hl : l = link
        · subst hl
          simp [Mtp3.Standing.note, actionCommand, TrafficState.obey]
        · simp [Mtp3.Standing.note, actionCommand, hl, Ne.symm hl]
      | fail l => by_cases hl : l = link <;> simp [Mtp3.Standing.note, actionCommand, hl,
          TrafficState.obey]
      | _ => rfl
    rw [Mtp3.Standing.notes_cons, ih, hone]
    cases hcommand : actionCommand link a with
    | none => rw [List.filterMap_cons_none hcommand]; rfl
    | some command => rw [List.filterMap_cons_some hcommand]; rfl

/-! ## Reports -/

/-- Whether the link is up once management has heard an input about it. -/
def hearsUp (up : Bool) : Mtp3.Input → Bool
  | .linkUp _ => true
  | .linkDown _ _ => false
  | _ => up

theorem reports_heard (link : LinkId) (reports : List Report) (told : M2pa.Told) :
    (reports.foldl M2pa.Told.note told).up =
      (reports.filterMap (reportInput link)).foldl hearsUp told.up := by
  induction reports generalizing told with
  | nil => rfl
  | cons report reports ih =>
    rw [List.foldl_cons, ih]
    cases report with
    | traffic effect => cases effect <;> rfl
    | _ => rfl

/-- The inputs are reports of the link. -/
def OfLink (link : LinkId) (inputs : List Mtp3.Input) : Prop :=
  ∀ input ∈ inputs, input = .linkUp link ∨ ∃ bsnt, input = .linkDown link bsnt

theorem ofLink_reports (link : LinkId) (reports : List Report) :
    OfLink link (reports.filterMap (reportInput link)) := by
  intro input hmem
  obtain ⟨report, -, hreport⟩ := List.mem_filterMap.mp hmem
  cases report with
  | linkUp => exact .inl (Option.some.inj hreport).symm
  | linkDown bsnt => exact .inr ⟨bsnt, (Option.some.inj hreport).symm⟩
  | _ => cases hreport

/-- A link goes down by the word of its task only. -/
theorem failing_of_heard {link : LinkId} {inputs : List Mtp3.Input} (hof : OfLink link inputs)
    (hdown : inputs.foldl hearsUp true = false) : LinkLevels.Failing link inputs := by
  induction inputs with
  | nil => cases hdown
  | cons input inputs ih =>
    rcases hof input List.mem_cons_self with rfl | ⟨bsnt, rfl⟩
    · obtain ⟨bsnt, hmem⟩ := ih (fun i hi => hof i (List.mem_cons_of_mem _ hi)) hdown
      exact ⟨bsnt, List.mem_cons_of_mem _ hmem⟩
    · exact ⟨bsnt, List.mem_cons_self⟩

namespace LinkLevels

/-! ## What holds of the two -/

variable {ι : Type*} {port : LinkPort ι} {link : LinkId} {topology : Topology}

/-- The task says what it is, management has decided by what it heard, and the task will do as
management has decided, or buffer as long as management has not heard of a failure. -/
structure Linked (port : LinkPort ι) (link : LinkId) (topology : Topology) (s : LinkLevels) :
    Prop where
  truthful : Runner.Truthful port (s.task, s.told)
  obeyed : ∃ o, Mtp3.Obeyed topology (s.management, o)
  decided : ∃ w, Management.Settled (s.management, w)
  ofLink : OfLink link s.inputs
  hears : s.inputs.foldl hearsUp (s.management.links link).up = s.told.up
  led : s.settles = (s.management.links link).phase.traffic ∨
    (s.management.links link).phase.traffic = .open ∧ s.settles = .hold ∧ Failing link s.inputs

theorem Failing.append {inputs : List Mtp3.Input} (h : Failing link inputs)
    (later : List Mtp3.Input) : Failing link (inputs ++ later) :=
  h.imp fun _ hmem => List.mem_append_left later hmem

namespace Linked

variable {s : LinkLevels}

/-- What a step of the task makes of what it has said, whatever it does with its traffic. -/
theorem said (h : Linked port link topology s) (e : ℕ × Runner.Input) :
    let s' := s.acts port link e
    Runner.Truthful port (s'.task, s'.told) ∧ OfLink link s'.inputs ∧
      s'.inputs.foldl hearsUp (s'.management.links link).up = s'.told.up := by
  refine ⟨h.truthful.next e, fun input hmem => ?_, ?_⟩
  · rcases List.mem_append.mp hmem with hmem | hmem
    · exact h.ofLink input hmem
    · exact ofLink_reports link _ input hmem
  · refine List.foldl_append.trans ?_
    change (_ : List Mtp3.Input).foldl hearsUp
      (s.inputs.foldl hearsUp (s.management.links link).up) = _
    rw [h.hears]
    exact (reports_heard link _ s.told).symm

/-- A link that stops being available says so. -/
theorem failing_of_lost (h : Linked port link topology s) (hindex : port.settings.index = some link)
    {e : ℕ × Runner.Input} (hup : s.task.available = true)
    (hdown : (s.task.step port e).1.available = false) :
    Failing link (s.acts port link e).inputs := by
  have hbefore : s.told.up = true := h.truthful.up.trans (by simp [hup, hindex])
  have hafter : (s.acts port link e).told.up = false := by
    rw [(h.said e).1.up]
    exact congrArg (· && _) hdown
  have hreports := reports_heard link (s.task.step port e).2 s.told
  rw [hbefore] at hreports
  obtain ⟨bsnt, hmem⟩ := failing_of_heard (ofLink_reports link _) (hreports.symm.trans hafter)
  exact ⟨bsnt, List.mem_append_right _ hmem⟩

theorem acts (h : Linked port link topology s) (hindex : port.settings.index = some link)
    {e : ℕ × Runner.Input} (he : ∀ command, e.2 ≠ .command command) :
    Linked port link topology (s.acts port link e) := by
  obtain ⟨htruthful, hof, hhears⟩ := h.said e
  refine ⟨htruthful, h.obeyed, h.decided, hof, hhears, ?_⟩
  have hstays : s.task.Stays (s.task.step port e) := Runner.step_stays h.truthful.ordered e he
  rcases hstays with hsame | ⟨hup, hdown, hkept⟩
  · have hsettles : (s.acts port link e).settles = s.settles :=
      congrArg (fun t => s.commands.foldl TrafficState.obey t) hsame
    rw [hsettles]
    exact h.led.imp_right fun ⟨hopen, hhold, hfailing⟩ => ⟨hopen, hhold, hfailing.append _⟩
  · have hfailing := h.failing_of_lost hindex hup hdown
    have hsettles : (s.acts port link e).settles =
        s.commands.foldl TrafficState.obey s.task.traffic.state.kept :=
      congrArg (fun t => s.commands.foldl TrafficState.obey t) hkept
    rw [hsettles]
    rcases obey_kept s.commands s.task.traffic.state with hsame | ⟨hopen, hhold⟩
    · rw [hsame]
      exact h.led.imp_right fun ⟨hopen, hhold, _⟩ => ⟨hopen, hhold, hfailing⟩
    · have hled : (s.management.links link).phase.traffic = .open := by
        rcases h.led with hled | ⟨hled, -⟩
        · exact hled.symm.trans hopen
        · exact hled
      exact .inr ⟨hled, hhold, hfailing⟩

/-- Management has a link carry only while it has it up. -/
theorem up_of_open (h : Linked port link topology s)
    (hopen : (s.management.links link).phase.traffic = .open) :
    (s.management.links link).up = true := by
  obtain ⟨w, hsettled⟩ := h.decided
  refine ((hsettled.phases.link link).carries ?_).1
  revert hopen
  cases (s.management.links link).phase <;> simp [Mtp3.Phase.traffic, Mtp3.Phase.available]

/-- A link without an association is down, and management has heard of it or is to hear of it. -/
theorem failing_of_idle (h : Linked port link topology s) (happ : s.task.applying = false)
    (hidle : s.task.phase = .idle) (hup : (s.management.links link).up = true) :
    Failing link s.inputs := by
  have hout : s.task.link.state = .outOfService := h.truthful.ordered.out (.inl (by simp [hidle]))
  have hdown : s.task.available = false := by
    rw [(h.truthful.settled happ).1]
    simp [Runner.serves, hout]
  have hhears := h.hears
  rw [hup, h.truthful.up, hdown] at hhears
  exact failing_of_heard h.ofLink hhears

theorem take (h : Linked port link topology s) {command : LinkCommand} {rest : List LinkCommand}
    (hcommands : s.commands = command :: rest) (happ : s.task.applying = false)
    (hphase : s.task.phase ≠ .ending) (now : ℕ) :
    Linked port link topology
      ({ s with commands := rest }.acts port link (now, .command command)) := by
  obtain ⟨htruthful, hof, hhears⟩ := h.said (now, .command command)
  refine ⟨htruthful, h.obeyed, h.decided, hof, hhears, ?_⟩
  have hsettles : ({ s with commands := rest }.acts port link (now, .command command)).settles =
      rest.foldl TrafficState.obey (s.task.obeys command) :=
    congrArg (fun t => rest.foldl TrafficState.obey t)
      (Runner.command_obeyed port now happ hphase command)
  have hbefore : s.settles =
      rest.foldl TrafficState.obey (s.task.traffic.state.obey command) := by
    rw [settles, hcommands, List.foldl_cons]
  have hled : s.settles = (s.management.links link).phase.traffic ∨
      (s.management.links link).phase.traffic = .open ∧ s.settles = .hold ∧
        Failing link ({ s with commands := rest }.acts port link (now, .command command)).inputs :=
    h.led.imp_right fun ⟨hopen, hhold, hfailing⟩ => ⟨hopen, hhold, hfailing.append _⟩
  by_cases hopened : s.task.phase = .idle ∧ command = .open
  · -- Opened without an association: level 3 has not heard yet.
    obtain ⟨hidle, rfl⟩ := hopened
    have hobeys : s.task.obeys .open = TrafficState.kept .open := by
      unfold Runner.obeys
      rw [hidle]
      rfl
    rw [hsettles, hobeys]
    rcases obey_kept rest .open with hsame | ⟨hopen, hhold⟩
    · rw [hsame]
      rw [hbefore] at hled
      exact hled
    · have hdecided : (s.management.links link).phase.traffic = .open := by
        rcases h.led with hled | ⟨hled, -⟩
        · exact hled.symm.trans (hbefore.trans hopen)
        · exact hled
      exact .inr ⟨hdecided, hhold,
        (h.failing_of_idle happ hidle (h.up_of_open hdecided)).append _⟩
  · have hobeys : s.task.obeys command = s.task.traffic.state.obey command := by
      unfold Runner.obeys
      split
      next hidle => exact absurd ⟨hidle, rfl⟩ hopened
      next => rfl
    rw [hsettles, hobeys, ← hbefore]
    exact hled

/-- What management decides is what the task is told. -/
theorem decides {m : Management} {o : Mtp3.Standing} (h : Mtp3.Obeyed topology (m, o))
    (input : Mtp3.Input) (link : LinkId) :
    ((m.handle input).2.filterMap (actionCommand link)).foldl TrafficState.obey
      (m.links link).phase.traffic = ((m.handle input).1.links link).phase.traffic := by
  have hafter := (h.step input).1.traffic link
  change (o.notes (m.handle input).2).traffic link = _ at hafter
  rw [commands_obeyed, h.traffic] at hafter
  exact hafter

/-- Management hears something: `rest` is what it is still to hear of the link. -/
theorem manages (h : Linked port link topology s) (input : Mtp3.Input)
    {rest : List Mtp3.Input} (hof : OfLink link rest)
    (hhears : rest.foldl hearsUp ((s.management.handle input).1.links link).up = s.told.up)
    (hfailing : Failing link s.inputs →
      Failing link rest ∨ ((s.management.handle input).1.links link).up = false) :
    Linked port link topology ({ s with inputs := rest }.manages link input) := by
  obtain ⟨o, hobeyed⟩ := h.obeyed
  obtain ⟨w, hsettled⟩ := h.decided
  have hnext : Management.Settled (Mtp3.watching (s.management, w) input) := hsettled.step input
  have hdecides := decides hobeyed input link
  generalize hcs : (s.management.handle input).2.filterMap (actionCommand link) = cs at hdecides
  have hsettles : ({ s with inputs := rest }.manages link input).settles =
      cs.foldl TrafficState.obey s.settles := by
    rw [← hcs]
    exact List.foldl_append
  refine ⟨h.truthful, ⟨_, (hobeyed.step input).1⟩, ⟨_, hnext⟩, hof, hhears, ?_⟩
  rw [hsettles]
  change _ = ((s.management.handle input).1.links link).phase.traffic ∨
    ((s.management.handle input).1.links link).phase.traffic = .open ∧ _ ∧ Failing link rest
  rcases h.led with hled | ⟨hopen, hhold, hfail⟩
  · rw [hled]
    exact .inl hdecides
  · rcases obey_settles cs with hsame | ⟨t', ht'⟩
    · -- Nothing is ordered: management still has the link carry, and so has it up.
      rw [hsame, hopen] at hdecides
      rw [hsame]
      refine .inr ⟨hdecides.symm, hhold, (hfailing hfail).resolve_right fun hdown => ?_⟩
      have hup := ((hnext.phases.link link).carries ?_).1
      · exact absurd (hdown.symm.trans hup) Bool.false_ne_true
      · change ((s.management.handle input).1.links link).phase.available = true
        revert hdecides
        cases ((s.management.handle input).1.links link).phase <;>
          simp [Mtp3.Phase.traffic, Mtp3.Phase.available]
    · rw [ht'] at hdecides ⊢
      exact .inl hdecides

/-- What another input than a report of the link changes about it. -/
theorem hears_foreign {input : Mtp3.Input} (hforeign : foreign link input = true)
    (u : LinkId → Bool) : input.hears topology u link = u link := by
  cases input with
  | linkUp l | linkDown l =>
    have hne : link ≠ l := fun heq => by simp [foreign, heq] at hforeign
    simp only [Mtp3.Input.hears]
    split_ifs
    · exact Function.update_of_ne hne _ _
    · rfl
  | _ => rfl

/-- Management hears the oldest report. -/
theorem hear (h : Linked port link topology s) (hl : link < topology.links.length)
    {input : Mtp3.Input} {rest : List Mtp3.Input} (hinputs : s.inputs = input :: rest) :
    Linked port link topology ({ s with inputs := rest }.manages link input) := by
  obtain ⟨o, hobeyed⟩ := h.obeyed
  have hup : ((s.management.handle input).1.links link).up =
      input.hears topology (fun l => (s.management.links l).up) link :=
    (hobeyed.step input).2 link
  have hof : OfLink link rest := fun i hi => h.ofLink i (hinputs ▸ List.mem_cons_of_mem _ hi)
  have hhears := h.hears
  rw [hinputs] at hhears
  rcases h.ofLink input (hinputs ▸ List.mem_cons_self) with rfl | ⟨bsnt, rfl⟩
  · have hafter : ((s.management.handle (.linkUp link)).1.links link).up = true := by
      rw [hup]
      simp [Mtp3.Input.hears, hl]
    refine h.manages _ hof ?_ fun hfailing => .inl ?_
    · rw [hafter]
      exact hhears
    · obtain ⟨bsnt, hmem⟩ := hfailing
      rw [hinputs] at hmem
      exact ⟨bsnt, (List.mem_cons.mp hmem).resolve_left nofun⟩
  · have hafter : ((s.management.handle (.linkDown link bsnt)).1.links link).up = false := by
      rw [hup]
      simp [Mtp3.Input.hears, hl]
    refine h.manages _ hof ?_ fun _ => .inr hafter
    rw [hafter]
    exact hhears

/-- A message bound to the link changes nothing of what it does with traffic. -/
theorem direct (h : Linked port link topology s) (msu : M2pa.Msu) :
    Linked port link topology { s with commands := s.commands ++ [.direct msu] } := by
  refine ⟨h.truthful, h.obeyed, h.decided, h.ofLink, h.hears, ?_⟩
  have hsettles :
      settles { s with commands := s.commands ++ [.direct msu] } = s.settles :=
    obey_append s.commands [.direct msu] _
  rw [hsettles]
  exact h.led

theorem step (h : Linked port link topology s) (hindex : port.settings.index = some link)
    (hl : link < topology.links.length) (e : Event) :
    Linked port link topology (s.step port link e) := by
  cases e with
  | task now input =>
    cases input with
    | command command => exact h
    | _ => exact h.acts hindex nofun
  | take now =>
    simp only [LinkLevels.step]
    split
    · exact h
    next command rest hcommands =>
      split_ifs with hfree
      · rw [Bool.and_eq_true, Bool.not_eq_true', decide_eq_true_iff] at hfree
        exact h.take hcommands hfree.1 hfree.2 now
      · exact h
  | hear =>
    simp only [LinkLevels.step]
    split
    · exact h
    next input rest hinputs => exact h.hear hl hinputs
  | manage input =>
    simp only [LinkLevels.step]
    split_ifs with hforeign
    · obtain ⟨o, hobeyed⟩ := h.obeyed
      have hup : ((s.management.handle input).1.links link).up = (s.management.links link).up :=
        ((hobeyed.step input).2 link).trans (hears_foreign hforeign _)
      refine h.manages input h.ofLink ?_ .inl
      rw [hup]
      exact h.hears
    · exact h
  | direct msu => exact h.direct msu

theorem new (port : LinkPort ι) (link : LinkId) (topology : Topology) (timers : Timers)
    (tfp : Bool) : Linked port link topology (new port topology timers tfp) where
  truthful := Runner.new_truthful port
  obeyed := ⟨_, Mtp3.obeyed_new topology timers tfp⟩
  decided := ⟨_, Mtp3.Management.settled_new topology timers tfp⟩
  ofLink := nofun
  hears := rfl
  led := .inl rfl

theorem run (hindex : port.settings.index = some link) (hl : link < topology.links.length)
    (timers : Timers) (tfp : Bool) (es : List Event) :
    Linked port link topology
      (Machine.run (LinkLevels.step port link) (LinkLevels.new port topology timers tfp) es) :=
  Machine.run_invariant (Q := fun _ _ => True) (fun _ e h _ => h.step hindex hl e)
    (Linked.new port link topology timers tfp) (Machine.along_trivial _ es)

end Linked

/-- Whatever happens in whatever order, the task will do with its traffic as management has
decided, or buffers what management has it carry while management is yet to hear that the link
went down. Once everything said is heard and done, it does so, routing leads to the link exactly
when it is not diverted, and a link that carries is in service, tested and on an association. -/
theorem levels_agree (port : LinkPort ι) (link : LinkId) (topology : Topology) (timers : Timers)
    (tfp : Bool) (hindex : port.settings.index = some link) (hl : link < topology.links.length)
    (es : List Event) :
    let s := Machine.run (step port link) (new port topology timers tfp) es
    let decided := s.management.links link
    (s.settles = decided.phase.traffic ∨
      decided.phase.traffic = .open ∧ s.settles = .hold ∧ Failing link s.inputs) ∧
    (s.inputs = [] → s.task.applying = false → decided.up = s.task.serves) ∧
    (s.inputs = [] → s.commands = [] →
      s.task.traffic.state = decided.phase.traffic ∧
      (s.told.routable = true ↔ decided.phase.traffic ≠ .closed) ∧
      (s.task.applying = false → s.task.traffic.state = .open → s.task.serves = true)) := by
  have h := Linked.run hindex hl timers tfp es
  dsimp only
  generalize Machine.run (step port link) (new port topology timers tfp) es = s at h
  have hserves (hinputs : s.inputs = []) (happ : s.task.applying = false) :
      (s.management.links link).up = s.task.serves := by
    have hhears := h.hears
    rw [hinputs, h.truthful.up, (h.truthful.settled happ).1, hindex] at hhears
    simpa using hhears
  refine ⟨h.led, hserves, fun hinputs hcommands => ?_⟩
  have hstate : s.task.traffic.state = (s.management.links link).phase.traffic := by
    have hled := h.led
    rw [settles, hcommands, hinputs] at hled
    exact hled.resolve_right fun ⟨_, _, _, hmem⟩ => absurd hmem List.not_mem_nil
  refine ⟨hstate, ?_, fun happ hopen => ?_⟩
  · rw [h.truthful.routable, M2pa.LinkTraffic.led, decide_eq_true_iff, hstate]
  · rw [← hserves hinputs happ]
    exact h.up_of_open (hstate.symm.trans hopen)

/-- Each event of the task, with what it asks for carried out. -/
def tasks (es : List (ℕ × Runner.Input)) : List Event :=
  (Runner.carriedOut es).map fun e => .task e.1 e.2

/-- The link passes its test, and management has it opened when the restart is over. -/
def opened : List Event :=
  tasks ((0, .associated) :: Runner.aligning 1 ++
      [Runner.dataFrom 8300 0 0 (Runner.fromPeer 1 [0x21, 0x20, 1, 2])]) ++
    [.hear, .manage (.timeout .restart), .take 8400] ++
    (Runner.works (List.replicate 12 (8400, false))).map fun e => .task e.1 e.2

/-- The association of an open link is lost. -/
theorem levels_agree_of_loss :
    let s := Machine.run (step Runner.testedPort 0)
      (new Runner.testedPort Mtp3.Management.pairTopology Mtp3.Management.unitTimers false)
      (opened ++ tasks [(8500, .lost)])
    s.settles = .hold ∧ Failing 0 s.inputs := by
  have h := levels_agree Runner.testedPort 0 Mtp3.Management.pairTopology
    Mtp3.Management.unitTimers false rfl (by decide) (opened ++ tasks [(8500, .lost)])
  exact (h.1.resolve_left (by decide +kernel)).2

end LinkLevels

end SiphonSigtran.Transport
