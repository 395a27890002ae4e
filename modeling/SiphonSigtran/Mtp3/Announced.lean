import Mathlib.Data.List.Chain
import SiphonSigtran.Mtp3.Told

/-!
# What is announced of a destination

Users and application servers hear of a destination by its announcements: it is
accessible, inaccessible or restricted. The last of them is what the two flags
of the destination say, in the middle of an input too; `settle` makes the flags
what the routes say; and an announcement always changes what is known.
-/

namespace SiphonSigtran.Mtp3

open Lib Management

variable {G : Guard}

/-- What is known of a destination. -/
inductive Availability
  | unavailable
  | restricted
  | available
  deriving DecidableEq, Repr

/-- What the caller announces of a destination when it performs an action. -/
def Action.announces (d : ℕ) : Action → Option Availability
  | .accessibility dpc on =>
    if dpc = d then some (if on then .available else .unavailable) else none
  | .restricted dpc on => if dpc = d then some (if on then .restricted else .available) else none
  | _ => none

/-- What was announced of a destination, in order. -/
def announced (d : ℕ) (acts : List Action) : List Availability := acts.filterMap (·.announces d)

theorem announced_append (d : ℕ) (xs ys : List Action) :
    announced d (xs ++ ys) = announced d xs ++ announced d ys := List.filterMap_append

theorem announced_of_none {d : ℕ} {xs : List Action} (h : ∀ a ∈ xs, a.announces d = none) :
    announced d xs = [] := List.filterMap_eq_nil_iff.mpr h

theorem isChain_concat {α : Type*} {R : α → α → Prop} {a b : α} {l : List α}
    (h : (a :: l).IsChain R) (hb : R (l.getLastD a) b) : (a :: (l ++ [b])).IsChain R := by
  induction l generalizing a with
  | nil => exact List.isChain_cons_cons.mpr ⟨hb, List.isChain_singleton b⟩
  | cons c l ih =>
    obtain ⟨hac, hl⟩ := List.isChain_cons_cons.mp h
    rw [List.getLastD_cons] at hb
    exact List.isChain_cons_cons.mpr ⟨hac, ih hl hb⟩

/-! ## What an action announces -/

theorem Action.announces_of_plain {a : Action} (h : a.plain = true) (d : ℕ) :
    a.announces d = none := by
  cases a with
  | accessibility | restricted => simp [Action.plain] at h
  | _ => rfl

theorem LinkMove.announces {m : Management} {l : LinkId} {s s' : LinkState}
    {outs : List Action} {P P' : Set Subject} (h : LinkMove G m l s s' outs P P') (d : ℕ) :
    ∀ a ∈ outs, a.announces d = none := by
  intro a ha
  have hof := h.ofLink a ha
  cases a with
  | accessibility | restricted => simp [Action.ofLink, Action.plain] at hof
  | _ => rfl

theorem MarkMove.announces {timers : Timers} {dpc : ℕ} {L : LinksetId} {status : RouteStatus}
    {d d' : DestinationState} {outs : List Action} (h : MarkMove timers dpc L status d d' outs)
    (hd : ∀ a ∈ d.deferred, ∃ L status, a = Action.route dpc L status) (e : ℕ) :
    ∀ a ∈ outs, a.announces e = none := by
  have hheld : ∀ a ∈ d.deferred, a.announces e = none := by
    intro a ha
    obtain ⟨L, status, rfl⟩ := hd a ha
    rfl
  cases h with
  | marked | deferred | held => simp [Action.announces]
  | forced =>
    intro a ha
    rcases List.mem_append.mp ha with ha | ha
    · exact hheld a ha
    · rw [List.mem_singleton.mp ha]
      rfl
  | released =>
    intro a ha
    simp only [List.append_assoc, List.mem_append, List.mem_cons, List.not_mem_nil,
      or_false] at ha
    rcases ha with ha | rfl | rfl | rfl
    · exact hheld a ha
    all_goals rfl

theorem MarkMove.flags {timers : Timers} {dpc : ℕ} {L : LinksetId} {status : RouteStatus}
    {d d' : DestinationState} {outs : List Action} (h : MarkMove timers dpc L status d d' outs) :
    d'.accessible = d.accessible ∧ d'.restricted = d.restricted := by
  cases h <;> exact ⟨rfl, rfl⟩

/-! ## The flags of a destination -/

/-- What the flags of a destination say of it. -/
def DestinationState.availability (s : DestinationState) : Availability :=
  if !s.accessible then .unavailable else if s.restricted then .restricted else .available

namespace Management

/-- What the routes say of a destination. -/
def availability (m : Management) (d : ℕ) : Availability :=
  if !m.reachable d then .unavailable
  else if m.onlyRestricted d then .restricted
  else .available

/-- The flags of a destination are what its routes say. -/
def FlagsAre (m : Management) (d : ℕ) : Prop :=
  (m.destinations d).accessible = m.reachable d ∧
    (m.destinations d).restricted = (m.reachable d && m.onlyRestricted d)

theorem FlagsAre.availability {m : Management} {d : ℕ} (h : m.FlagsAre d) :
    (m.destinations d).availability = m.availability d := by
  unfold DestinationState.availability Management.availability
  rw [h.1, h.2]
  cases m.reachable d <;> simp

/-- The flags of a destination are the same in the two states. -/
def SameFlags (m m' : Management) (d : ℕ) : Prop :=
  (m'.destinations d).accessible = (m.destinations d).accessible ∧
    (m'.destinations d).restricted = (m.destinations d).restricted

theorem SameFlags.refl (m : Management) (d : ℕ) : SameFlags m m d := ⟨rfl, rfl⟩

theorem SameFlags.trans {m m' m'' : Management} {d : ℕ} (h : SameFlags m m' d)
    (h' : SameFlags m' m'' d) : SameFlags m m'' d :=
  ⟨h'.1.trans h.1, h'.2.trans h.2⟩

theorem SameFlags.foldl {α : Type*} {f : Management → α → Management} {d : ℕ}
    (hf : ∀ m x, SameFlags m (f m x) d) (m : Management) (xs : List α) :
    SameFlags m (xs.foldl f m) d := by
  induction xs generalizing m with
  | nil => exact SameFlags.refl m d
  | cons x xs ih => exact (hf m x).trans (ih (f m x))

/-- A change of one destination that leaves its flags alone. -/
theorem sameFlags_setDestination (m : Management) (e : ℕ)
    (f : DestinationState → DestinationState)
    (hf : ∀ s, (f s).accessible = s.accessible ∧ (f s).restricted = s.restricted) (d : ℕ) :
    SameFlags m (m.setDestination e f) d := by
  by_cases hd : d = e
  · subst hd
    simpa [SameFlags] using hf _
  · simp [SameFlags, setDestination_ne m f hd]

theorem FlagsAre.unmoved {m m' : Management} {d : ℕ} (h : m.FlagsAre d) (hu : Unmoved m m')
    (hs : SameFlags m m' d) : m'.FlagsAre d := by
  unfold FlagsAre
  rw [hs.1, hs.2, hu.reachable, hu.onlyRestricted]
  exact h

/-! ## What is settled -/

theorem settleDestination_flagsAre (m : Management) (d : ℕ) :
    (m.settleDestination d).FlagsAre d := by
  unfold FlagsAre
  cases h : m.reachable d with
  | false =>
    obtain ⟨hq, ha, hr⟩ := settleDestination_lost h
    rw [hq.2.reachable, h, ha, hr]
    exact ⟨rfl, rfl⟩
  | true =>
    obtain ⟨hq, ha, hr⟩ := settleDestination_reached h
    rw [hq.2.reachable, hq.2.onlyRestricted, h, ha, hr]
    exact ⟨rfl, rfl⟩

theorem settleDestination_sameFlags (m : Management) {d e : ℕ} (h : d ≠ e) :
    SameFlags m (m.settleDestination e) d := by
  have hset : ∀ (n : Management) (f : DestinationState → DestinationState),
      (n.setDestination e f).destinations d = n.destinations d := fun n f =>
    setDestination_ne n f h
  have hsame : (m.settleDestination e).destinations d = m.destinations d := by
    unfold settleDestination
    extract_lets accessible restricted m₁ m' m₂
    have h₁ : m₁.destinations d = m.destinations d := by
      simp only [m₁]
      split_ifs
      · rfl
      · exact hset m _
    have h₂ : m₂.destinations d = m₁.destinations d := by
      simp only [m₂, m']
      split_ifs
      · simp [guard, hset]
      · simp [hset]
      · rfl
    split_ifs
    · simp [hset, h₂, h₁]
    · exact h₂.trans h₁
  exact ⟨by rw [hsame], by rw [hsame]⟩

/-- Each destination that is settled stays so while the others are. -/
theorem settleDestinations_flagsAre (m : Management) {ds : List ℕ} {d : ℕ}
    (h : d ∈ ds ∨ m.FlagsAre d) : (ds.foldl settleDestination m).FlagsAre d := by
  induction ds generalizing m with
  | nil => simpa using h
  | cons e ds ih =>
    refine ih (m.settleDestination e) ?_
    by_cases hd : d = e
    · subst hd
      exact .inr (settleDestination_flagsAre m d)
    · rcases h with h | h
      · exact .inl ((List.mem_cons.mp h).resolve_left hd)
      · exact .inr (h.unmoved (settleDestination_quiet m e).2 (settleDestination_sameFlags m hd))

theorem settleBelief_sameFlags (m : Management) (L : LinksetId) (adjacent e d : ℕ) :
    SameFlags m (m.settleBelief L adjacent e) d := by
  unfold settleBelief
  extract_lets want told message m'
  have hset : SameFlags m m' d := by
    apply sameFlags_setDestination
    exact fun _ => ⟨rfl, rfl⟩
  split_ifs
  · exact SameFlags.refl m d
  · exact SameFlags.refl m d
  · cases message with
    | none => exact hset
    | some message => exact hset

theorem settleLinkset_sameFlags (m : Management) (L : LinksetId) (d : ℕ) :
    SameFlags m (m.settleLinkset L) d := by
  unfold settleLinkset
  split
  · exact SameFlags.refl m d
  · rename_i adjacent _
    have hfold := fun n : Management =>
      SameFlags.foldl (fun n e => settleBelief_sameFlags n L adjacent e d) n n.topology.dpcs
    split_ifs
    · exact SameFlags.refl m d
    · exact hfold m
    · exact hfold (m.resync L)

theorem settle_flagsAre (m : Management) {d : ℕ} (hd : d ∈ m.topology.dpcs) :
    m.settle.FlagsAre d := by
  unfold settle
  extract_lets m₁
  have h₁ : m₁.FlagsAre d := settleDestinations_flagsAre m (.inl hd)
  split_ifs with hr
  · exact h₁
  · refine h₁.unmoved ?_ (SameFlags.foldl (fun n L => settleLinkset_sameFlags n L d) m₁ _)
    exact (Quiet.foldl (I := fun m => m.restarting = false)
      (fun h hI => h.restarting.trans hI) (fun m hm L _ => settleLinkset_quiet hm L)
      (by simpa using hr)).2

theorem watchIsolation_flagsAre {m : Management} {d : ℕ} (h : m.FlagsAre d) :
    m.watchIsolation.FlagsAre d := by
  obtain ⟨ht, hl, -, hs, hdest, hw, -⟩ := watchIsolation_unmoved m
  have husable : m.watchIsolation.usable = m.usable := by
    funext s r
    simp only [usable, linksetAvailable, linkAvailable, linksOf, ht, hl, hs, hw]
    rfl
  unfold FlagsAre reachable onlyRestricted destination?
  rw [ht, watchIsolation_inUse, hdest, husable]
  exact h

/-! ## Every input -/

/-- The flags of the configured destinations are what their routes say. -/
def Agreed (m : Management) : Prop := ∀ d ∈ m.topology.dpcs, m.FlagsAre d

theorem unroutable_agreed {m : Management} (h : Agreed m) (e : ℕ) (l : LinkId) :
    Agreed (m.unroutable e l) := by
  have hq := (unroutable_quiet m e l).2
  intro d hd
  rw [hq.topology] at hd
  refine (h d hd).unmoved hq ?_
  have htell : ∀ (n : Management) (message : ManagementMessage),
      ((n.tell (m.linksetOf l) 0 message).guard e).destinations = n.destinations := by
    intro n message
    unfold tell send
    split <;> rfl
  have hset := sameFlags_setDestination m e
    (fun s => { s with told := insert (m.linksetOf l) s.told }) (fun _ => ⟨rfl, rfl⟩) d
  unfold unroutable
  extract_lets L
  cases about e .tfp with
  | none => split_ifs <;> exact SameFlags.refl m d
  | some message =>
    dsimp only
    split_ifs
    · exact SameFlags.refl m d
    · exact SameFlags.refl m d
    · simpa only [SameFlags, htell, L] using hset
    · exact SameFlags.refl m d
    · simp [SameFlags, htell, L]

theorem process_agreed {m : Management} (h : Agreed m) (input : Input) :
    Agreed (m.process input) := by
  have hsettled : Agreed (m.dispatch input).settle.watchIsolation := by
    intro d hd
    rw [(watchIsolation_unmoved _).1, (settle_quiet _).2.topology] at hd
    exact watchIsolation_flagsAre (settle_flagsAre _ hd)
  cases input with
  | unroutable e l =>
    simp only [process]
    split_ifs with hl
    · have hdispatched : m.dispatch (.unroutable e l) = m.unroutable e l := by
        simp [dispatch, hl]
      rw [hdispatched]
      exact unroutable_agreed h e l
    · exact hsettled
  | _ =>
    rw [process_of_settled (by simp)]
    exact hsettled

end Management

/-! ## Every move -/

/-- What was announced of a destination ends with what its flags say, and never said the
same twice. -/
structure Announced (d : ℕ) (m : Management) (said : List Availability) : Prop where
  chain : (Availability.unavailable :: said).IsChain (· ≠ ·)
  last : said.getLastD .unavailable = (m.destinations d).availability
  lost : (m.destinations d).accessible = false → (m.destinations d).restricted = false

theorem Announced.same {d : ℕ} {m m' : Management} {said said' : List Availability}
    (h : Announced d m said) (hs : SameFlags m m' d) (he : said' = said) :
    Announced d m' said' where
  chain := he ▸ h.chain
  last := by
    rw [he, h.last]
    simp only [DestinationState.availability, hs.1, hs.2]
  lost hd := by
    rw [hs.2]
    exact h.lost (hs.1 ▸ hd)

theorem Announced.concat {d : ℕ} {m m' : Management} {said said' : List Availability}
    (h : Announced d m said)
    (hs : said' = said ++ [(m'.destinations d).availability])
    (hne : (m.destinations d).availability ≠ (m'.destinations d).availability)
    (hl : (m'.destinations d).accessible = false → (m'.destinations d).restricted = false) :
    Announced d m' said' := by
  subst hs
  refine ⟨isChain_concat h.chain ?_, by simp, hl⟩
  rw [h.last]
  exact hne

/-- A move that announces nothing and leaves the flags alone. -/
theorem Announced.still {d : ℕ} {m m' : Management} {acts : List Action} {es : List Entry}
    (h : Announced d m (announced d (acts ++ actions m.out))) (hout : m'.out = m.out ++ es)
    (hes : ∀ a ∈ actions es, a.announces d = none) (hs : SameFlags m m' d) :
    Announced d m' (announced d (acts ++ actions m'.out)) := by
  apply h.same hs
  rw [hout, actions_append, ← List.append_assoc, announced_append, announced_of_none hes,
    List.append_nil]

theorem Move.announced {P P' : Set Subject} {m m' : Management} (h : Move G P m P' m')
    (hm : Marked m) {d : ℕ} {acts : List Action}
    (hi : Announced d m (announced d (acts ++ actions m.out))) :
    Announced d m' (announced d (acts ++ actions m'.out)) := by
  have hmap : ∀ xs : List Action, actions (xs.map .act) = xs := fun xs => by
    simpa [extend] using actions_extend { m with out := [] } xs
  have hsays : ∀ {m'' : Management} (xs : List Action), m''.out = m.out ++ xs.map .act →
      (∀ a ∈ xs, a.announces d = none) → SameFlags m m'' d →
      Announced d m'' (Mtp3.announced d (acts ++ actions m''.out)) :=
    fun xs hout hxs hs => hi.still hout (by rwa [hmap]) hs
  have hsaid : ∀ {m'' : Management} (a : Action), m''.out = m.out ++ [.act a] →
      a.announces d = none → SameFlags m m'' d →
      Announced d m'' (Mtp3.announced d (acts ++ actions m''.out)) :=
    fun a hout ha hs => hsays [a] hout (by simpa using ha) hs
  have hquiet : ∀ {m'' : Management}, m''.out = m.out → SameFlags m m'' d →
      Announced d m'' (Mtp3.announced d (acts ++ actions m''.out)) :=
    fun hout hs => hsays [] (by simpa using hout) (by simp) hs
  have hsame : SameFlags m m d := SameFlags.refl m d
  cases h with
  | accessible e on hreach hd =>
    by_cases he : e = d
    · subst he
      refine hi.concat ?_ ?_ ?_
      · rw [actions_push, ← List.append_assoc, announced_append]
        congr 1
        cases on with
        | false =>
          simp [Mtp3.announced, Action.announces, DestinationState.availability]
        | true =>
          have hlost := hi.lost (by simpa using hd)
          simp [Mtp3.announced, Action.announces, DestinationState.availability, hlost]
      · cases on with
        | false =>
          simp only [ne_eq, Bool.not_eq_false] at hd
          cases hr : (m.destinations e).restricted <;>
            simp [DestinationState.availability, hd, hr]
        | true =>
          simp only [ne_eq, Bool.not_eq_true] at hd
          simp [DestinationState.availability, hd, hi.lost hd]
      · rintro hf
        have hon : on = false := by simpa using hf
        simp [hon]
    · refine hsaid _ rfl (by simp [Action.announces, he]) ?_
      simp [SameFlags, setDestination_ne m _ (Ne.symm he)]
  | restricted e on hreach ho ha hd =>
    by_cases he : e = d
    · subst he
      refine hi.concat ?_ ?_ ?_
      · rw [actions_push, ← List.append_assoc, announced_append]
        congr 1
        cases on <;>
          simp [Mtp3.announced, Action.announces, DestinationState.availability, ha]
      · cases on <;> simp_all [DestinationState.availability]
      · intro hf
        simp [ha] at hf
    · refine hsaid _ rfl (by simp [Action.announces, he]) ?_
      simp [SameFlags, setDestination_ne m _ (Ne.symm he)]
  | unmarked e hreach ha =>
    refine hquiet rfl ?_
    by_cases he : d = e
    · subst he
      exact ⟨by simp, by simp [hi.lost ha]⟩
    · simp [SameFlags, setDestination_ne m _ he]
  | paused e =>
    refine hquiet rfl ?_
    by_cases he : d = e <;> simp [SameFlags, setDestination, he]
  | told L adjacent e want hr ha hd =>
    refine hsays _ rfl (fun a hmem => ?_) ?_
    · rw [Option.mem_toList, Option.map_eq_some_iff] at hmem
      obtain ⟨message, -, rfl⟩ := hmem
      rfl
    · by_cases he : d = e <;> simp [SameFlags, setDestination, he]
  | link l f outs hl h => exact hsays outs rfl (h.announces d) hsame
  | mark e L status position d' outs hg hd hp hs h =>
    refine hsays (testTimer m e L status :: outs) rfl ?_ ?_
    · intro a ha
      rcases List.mem_cons.mp ha with rfl | ha
      · unfold testTimer
        split_ifs <;> rfl
      · exact h.announces (hm e) d a ha
    · by_cases he : d = e
      · subst he
        simp only [SameFlags, extend_destinations, setDestination_self, h.flags]
        exact ⟨rfl, rfl⟩
      · simp [SameFlags, setDestination_ne m _ he]
  | release e =>
    refine hsays ((m.destinations e).deferred ++ [.releaseDestination e]) rfl ?_ ?_
    · intro a ha
      rcases List.mem_append.mp ha with ha | ha
      · obtain ⟨L, status, rfl⟩ := hm e a ha
        rfl
      · rw [List.mem_singleton.mp ha]
        rfl
    · by_cases he : d = e <;> simp [SameFlags, setDestination, he]
  | resync L =>
    have hquiet : ∀ a ∈ actions [Entry.resynced L], a.announces d = none := by simp
    exact hi.still rfl hquiet hsame
  | allow L =>
    refine hsays _ rfl (fun a ha => ?_) hsame
    obtain ⟨e, -, ha⟩ := List.mem_flatMap.mp ha
    simp only [List.mem_cons, List.not_mem_nil, or_false] at ha
    rcases ha with rfl | rfl <;> rfl
  | say a ha => exact hsaid a rfl (Action.announces_of_plain ha d) hsame
  | beginRestart =>
    exact hsays [.restarting true, .start .restart m.timers.t18,
      .start .restartOverall m.timers.t20] rfl (by simp [Action.announces]) hsame
  | endRestart =>
    exact hsays [.stop .restart, .stop .restartOverall] rfl (by simp [Action.announces]) hsame
  | isolated on =>
    refine hsaid _ rfl ?_ hsame
    cases on <;> rfl
  | unguard | unsync | due | flags | unguards | served | codes | keepAdjacent =>
    exact hquiet rfl hsame
  | toldUnknown | asked | guard | testing | opens | restarted | beginAdjacent | endAdjacent
  | loseAdjacent | guards => exact hsaid _ rfl rfl hsame

theorem Steps.announced {P P' : Set Subject} {m m' : Management} (h : Steps G P m P' m')
    (hm : Marked m) {d : ℕ} {acts : List Action}
    (hi : Announced d m (announced d (acts ++ actions m.out))) :
    Announced d m' (announced d (acts ++ actions m'.out)) :=
  (Steps.invariant (I := fun _ n => Marked n ∧
      Announced d n (Mtp3.announced d (acts ++ actions n.out)))
    (fun hmove ⟨hm, hi⟩ => ⟨hmove.marked hm, hmove.announced hm hi⟩) h ⟨hm, hi⟩).2

/-! ## Every run -/

namespace Management

/-- Management and all the actions it called for. -/
def calling : Management × List Action → Input → Management × List Action :=
  Machine.watch handle fun acts _ _ out => acts ++ out.2

/-- What holds between two inputs of what was announced. -/
structure AnnouncedSo (topology : Topology) (s : Management × List Action) : Prop where
  settled : ∃ w, Settled (s.1, w)
  agreed : Agreed s.1
  topology : s.1.topology = topology
  announced : ∀ d, Announced d s.1 (announced d s.2)

theorem AnnouncedSo.step {topology : Topology} {s : Management × List Action}
    (h : AnnouncedSo topology s) (input : Input) : AnnouncedSo topology (calling s input) := by
  obtain ⟨w, hw⟩ := h.settled
  have hout : s.1.out = [] := hw.out
  have hsteps := process_steps hw.calm input
  refine ⟨⟨_, hw.step input⟩, process_agreed h.agreed input, ?_, fun d => ?_⟩
  · exact (Steps.invariant (I := fun _ n => n.topology = s.1.topology)
      (fun hmove hn => hmove.topology.trans hn) hsteps rfl).trans h.topology
  · have hi : Announced d s.1 (Mtp3.announced d (s.2 ++ actions s.1.out)) := by
      simpa [hout] using h.announced d
    exact (hsteps.announced hw.marked hi).same ⟨rfl, rfl⟩ rfl

/-- Nothing is reachable before the first input. -/
theorem reachable_new (topology : Topology) (timers : Timers) (tfp : Bool) (d : ℕ) :
    (new topology timers tfp).reachable d = false := by
  have husable : ∀ s r, (new topology timers tfp).usable s r = .no := by
    intro s r
    unfold usable
    cases r.via <;> simp [new, linksetAvailable, linkAvailable, Phase.available]
  unfold reachable inUse
  split
  · rw [routesInUse_of_no RouteState.priority _ fun r _ => husable _ r]
    rfl
  · rfl

theorem agreed_new (topology : Topology) (timers : Timers) (tfp : Bool) :
    Agreed (new topology timers tfp) := by
  intro d hd
  unfold FlagsAre
  rw [reachable_new]
  exact ⟨rfl, rfl⟩

theorem announcedSo_run (topology : Topology) (timers : Timers) (tfp : Bool)
    (is : List Input) :
    AnnouncedSo topology (Machine.run calling (new topology timers tfp, []) is) :=
  Machine.run_invariant (Q := fun _ _ => True) (fun _ i h _ => h.step i)
    ⟨⟨_, settled_new topology timers tfp⟩, agreed_new topology timers tfp, rfl,
      fun _ => ⟨List.isChain_singleton _, rfl, fun _ => rfl⟩⟩
    (Machine.along_trivial _ is)

/-- What was announced last of a destination is what its routes say, and no announcement
repeats the one before it. -/
theorem announced_as_reached (topology : Topology) (timers : Timers) (tfp : Bool)
    (is : List Input) :
    let s := Machine.run calling (new topology timers tfp, []) is
    ∀ d ∈ topology.dpcs,
      (announced d s.2).getLastD .unavailable = s.1.availability d ∧
        (Availability.unavailable :: announced d s.2).IsChain (· ≠ ·) := by
  intro s d hd
  have hso := announcedSo_run topology timers tfp is
  have hd' : d ∈ s.1.topology.dpcs := by
    rw [hso.topology]
    exact hd
  exact ⟨(hso.announced d).last.trans (hso.agreed d hd').availability, (hso.announced d).chain⟩

/-- The point at the far end of the link is announced when the restart has ended. -/
theorem announced_as_reached_of_restart :
    (announced 100 (Machine.run calling (new pairTopology unitTimers false, [])
      [.linkUp 0, .timeout .restart]).2).getLastD .unavailable = .available :=
  ((announced_as_reached pairTopology unitTimers false [.linkUp 0, .timeout .restart]) 100
    (by decide)).1.trans (by decide +kernel)

end Management

end SiphonSigtran.Mtp3
