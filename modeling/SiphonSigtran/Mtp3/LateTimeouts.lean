import SiphonSigtran.Mtp3.Announced
import SiphonSigtran.Mtp3.PointBelief
import SiphonSigtran.Mtp3.Waiting

/-!
# Timeouts that come late

The task that runs management takes all the timers that ran out off its list, and then has
management handle them one by one. A timer that the first of them stops comes all the same. Nothing
waits for it, and nothing is left to settle: it does nothing.
-/

namespace SiphonSigtran.Mtp3

open Lib

namespace Management

theorem foldl_same {α : Type*} {f : Management → α → Management} {xs : List α} {m : Management}
    (h : ∀ x ∈ xs, f m x = m) : xs.foldl f m = m := by
  induction xs with
  | nil => rfl
  | cons x xs ih =>
    rw [List.foldl_cons, h x List.mem_cons_self]
    exact ih fun y hy => h y (List.mem_cons_of_mem x hy)

theorem setDestination_same {m : Management} {d : ℕ} {f : DestinationState → DestinationState}
    (h : f (m.destinations d) = m.destinations d) : m.setDestination d f = m := by
  have hall : (fun e => if e = d then f (m.destinations e) else m.destinations e) =
      m.destinations := by
    funext e
    split_ifs with he
    · rw [he, h]
    · rfl
  unfold setDestination
  rw [hall]

theorem setLinkset_same {m : Management} {L : LinksetId} {f : LinksetState → LinksetState}
    (h : f (m.linksets L) = m.linksets L) : m.setLinkset L f = m := by
  have hall : (fun K => if K = L then f (m.linksets K) else m.linksets K) = m.linksets := by
    funext K
    split_ifs with hK
    · rw [hK, h]
    · rfl
  unfold setLinkset
  rw [hall]

/-! ## Nothing to settle -/

/-- Every destination is announced as it is, and every adjacent point that can be told was told
what it is to believe. -/
structure Level (m : Management) : Prop where
  agreed : Agreed m
  told : m.restarting = false → ∀ L adjacent, m.adjacentOf L = some adjacent →
    m.canTell L = true → ∀ d ∈ m.topology.dpcs, d ≠ adjacent →
      (L ∈ (m.destinations d).told ↔ m.prohibitedToward d L = true)
  synced : m.restarting = false → ∀ L, (m.adjacentOf L).isSome = true →
    (m.linksets L).synced = m.canTell L
  isolated : m.isolated = (!(m.linkIds.any fun l => (m.links l).up) &&
    !((List.range m.topology.servers).any m.servers))

variable {m : Management}

theorem settleDestination_same {d : ℕ} (h : m.FlagsAre d) : m.settleDestination d = m := by
  obtain ⟨haccessible, hrestricted⟩ := h
  unfold settleDestination
  cases hreach : m.reachable d with
  | true =>
    rw [hreach] at haccessible hrestricted
    simp [haccessible, hrestricted]
  | false =>
    rw [hreach, Bool.false_and] at hrestricted
    rw [hreach] at haccessible
    have hsame : (m.setDestination d fun s => { s with restricted := false }) = m := by
      refine setDestination_same ?_
      rw [← hrestricted]
    simp [hsame, haccessible]

theorem Level.settleLinkset (h : Level m) (hr : m.restarting = false) (L : LinksetId) :
    m.settleLinkset L = m := by
  unfold Management.settleLinkset
  cases ha : m.adjacentOf L with
  | none => rfl
  | some adjacent =>
    have hsynced := h.synced hr L (by simp [ha])
    cases hc : m.canTell L with
    | false =>
      rw [hc] at hsynced
      change m.setLinkset L (fun s => { s with synced := false }) = m
      refine setLinkset_same ?_
      rw [← hsynced]
    | true =>
      rw [hc] at hsynced
      simp only [hsynced, Bool.not_true, Bool.false_eq_true, ↓reduceIte]
      refine foldl_same fun d hd => settleBelief_same ?_
      by_cases hda : d = adjacent
      · exact .inl hda
      · refine .inr ?_
        have htold := h.told hr L adjacent ha hc d hd hda
        cases hwant : m.prohibitedToward d L <;> simp [htold, hwant]

/-- Settling again does nothing. -/
theorem Level.settled (h : Level m) : m.settle.watchIsolation = m := by
  have hdestinations : m.topology.dpcs.foldl Management.settleDestination m = m :=
    foldl_same fun d hd => settleDestination_same (h.agreed d hd)
  have hsettle : m.settle = m := by
    unfold settle
    rw [hdestinations]
    dsimp only
    split_ifs with hr
    · rfl
    · exact foldl_same fun L _ => h.settleLinkset (by simpa using hr) L
  rw [hsettle]
  unfold watchIsolation
  exact if_pos h.isolated.symm

/-! ## After an input -/

/-- A linkset is taken to be in step when its adjacent point can be told. -/
theorem settleLinkset_inStep (m : Management) (L K : LinksetId) :
    (K ≠ L → ((m.settleLinkset L).linksets K).synced = (m.linksets K).synced) ∧
    ((m.adjacentOf L).isSome = true →
      ((m.settleLinkset L).linksets L).synced = m.canTell L) := by
  unfold Management.settleLinkset
  cases ha : m.adjacentOf L with
  | none => exact ⟨fun _ => rfl, nofun⟩
  | some adjacent =>
    dsimp only
    cases hc : m.canTell L with
    | false => exact ⟨fun hK => by simp [setLinkset, hK], fun _ => by simp [setLinkset]⟩
    | true =>
      simp only [Bool.not_true, Bool.false_eq_true, ↓reduceIte, settleBeliefs_linksets]
      split_ifs with hs
      · exact ⟨fun _ => rfl, fun _ => hs⟩
      · exact ⟨fun hK => by simp [resync, setLinkset, hK], fun _ => by simp [resync, setLinkset]⟩

theorem settleLinksets_inStep {m : Management} (hr : m.restarting = false)
    {Ls : List LinksetId} {L : LinksetId} (ha : (m.adjacentOf L).isSome = true)
    (hL : L ∈ Ls ∨ (m.linksets L).synced = m.canTell L) :
    ((Ls.foldl Management.settleLinkset m).linksets L).synced = m.canTell L := by
  induction Ls generalizing m with
  | nil => exact hL.resolve_left List.not_mem_nil
  | cons K Ls ih =>
    have hquiet := (settleLinkset_quiet hr K).2
    rw [List.foldl_cons, ← hquiet.canTell]
    refine ih (hquiet.restarting.trans hr) (by simpa only [adjacentOf, hquiet.topology] using ha) ?_
    rw [hquiet.canTell]
    by_cases hKL : L = K
    · subst hKL
      exact .inr ((settleLinkset_inStep m L L).2 ha)
    · rcases hL with hL | hL
      · exact .inl ((List.mem_cons.mp hL).resolve_left hKL)
      · exact .inr (((settleLinkset_inStep m K L).1 hKL).trans hL)

theorem settle_inStep {m : Management} (hr : m.restarting = false) {L : LinksetId}
    (ha : (m.adjacentOf L).isSome = true) :
    (m.settle.linksets L).synced = m.canTell L := by
  unfold settle
  extract_lets m₁
  have h₁ : Unmoved m m₁ := (Quiet.foldl (I := fun _ => True) (fun _ _ => trivial)
    (fun m _ d _ => settleDestination_quiet m d) trivial).2
  have hr₁ : m₁.restarting = false := h₁.restarting.trans hr
  rw [if_neg (by simp [hr₁]), ← h₁.canTell]
  refine settleLinksets_inStep hr₁ (by simpa only [adjacentOf, h₁.topology] using ha) (.inl ?_)
  change L ∈ List.range m₁.topology.linksets.length
  rw [List.mem_range, h₁.topology]
  by_contra hL
  simp [adjacentOf, Topology.linkset_of_length_le (Nat.le_of_not_lt hL)] at ha

theorem watchIsolation_isolated (m : Management) :
    m.watchIsolation.isolated =
      (!(m.watchIsolation.linkIds.any fun l => (m.watchIsolation.links l).up) &&
        !((List.range m.watchIsolation.topology.servers).any m.watchIsolation.servers)) := by
  obtain ⟨ht, hl, -, hs, -, -, -⟩ := watchIsolation_unmoved m
  unfold linkIds
  rw [ht, hl, hs]
  unfold watchIsolation
  extract_lets isolated m₁
  split_ifs with h
  · exact h.symm
  all_goals rfl

/-- Nothing is left to settle after an input, but for a message that could not be routed. -/
theorem process_level {m : Management} (h : Agreed m) {input : Input}
    (hi : ∀ d l, input ≠ .unroutable d l) : Level (m.process input) where
  agreed := process_agreed h input
  told hr L adjacent ha hc d hd hda := process_told hi hr ha hc hd hda
  synced hr L ha := by
    have hquiet := (settle_quiet (m.dispatch input)).2
    rw [process_of_settled hi, watchIsolation_canTell, hquiet.canTell]
    obtain ⟨ht, -, hlinksets, -, -, -, hnode⟩ := watchIsolation_unmoved (m.dispatch input).settle
    rw [hlinksets]
    rw [process_of_settled hi] at hr ha
    refine settle_inStep ?_ ?_
    · rw [← hquiet.restarting, ← hnode]
      exact hr
    · simpa only [adjacentOf, ht, hquiet.topology] using ha
  isolated := by
    rw [process_of_settled hi]
    exact watchIsolation_isolated _

/-! ## Nothing that waits -/

/-- The timer does not run. That of an isolation runs out once: it is late when the node is not
isolated any more. -/
def Late (t : Timer) (s : Management × Watch) : Prop :=
  s.2.running t = false ∧ (t = .isolation → s.1.isolated = false)

/-- There is nothing to test about a route that is allowed. -/
theorem untested_status {m : Management} {d : ℕ} {L : LinksetId}
    (h : ¬UnderTest (m.destinations d).routes L) :
    ((m.destination? d).bind fun dest =>
      (dest.routes.find? fun r => r.via = .linkset L).map RouteState.status) = none ∨
    ((m.destination? d).bind fun dest =>
      (dest.routes.find? fun r => r.via = .linkset L).map RouteState.status) = some .allowed := by
  unfold destination?
  split_ifs
  · rw [Option.bind_some]
    cases hfind : (m.destinations d).routes.find? fun r => r.via = .linkset L with
    | none => exact .inl rfl
    | some r =>
      have hvia : r.via = .linkset L := by simpa using List.find?_some hfind
      refine .inr (congrArg some ?_)
      by_contra hmarked
      exact h ⟨r, List.mem_of_find?_eq_some hfind, hvia, hmarked⟩
  · exact .inl rfl

theorem timeout_late {topology : Topology} {m : Management} {w : Watch}
    (h : Waiting topology (m, w)) {t : Timer} (hlate : Late t (m, w)) : m.timeout t = m := by
  obtain ⟨hstopped, hisolated⟩ := hlate
  have hphases := h.settled.phases
  have hidle (ht : t.managed topology = true) : ¬t.Awaited m := fun hawaited => by
    rw [(h.awaited t ht).mpr hawaited] at hstopped
    cases hstopped
  have hlinks (l : LinkId) (hl : m.hasLink l = true) : l < topology.links.length := by
    rw [← h.domain]
    simpa [hasLink] using hl
  have hlinksets (L : LinksetId) (hL : m.hasLinkset L = true) : L < topology.linksets.length := by
    rw [← h.domain]
    simpa [hasLinkset] using hL
  unfold timeout
  cases t with
  | changeover l =>
    have hphase := (hphases.link l).changeover.symm.trans hstopped
    dsimp only
    split_ifs
    · revert hphase
      cases (m.links l).phase <;> simp [Phase.changingOver]
    · rfl
  | changeback l =>
    have hphase := (hphases.link l).changeback.symm.trans hstopped
    dsimp only
    split_ifs
    · revert hphase
      cases (m.links l).phase <;> simp [Phase.changingBack]
    · rfl
  | rerouting d => exact if_neg fun hholding => hidle rfl hholding.2
  | prohibited d =>
    have hd : d ∉ m.guarded := hidle rfl
    dsimp only
    rw [Finset.erase_eq_of_notMem hd]
  | routeSetTest d L =>
    dsimp only
    by_cases hL : m.hasLinkset L = true
    · rw [if_pos hL]
      have htest : ¬UnderTest (m.destinations d).routes L :=
        hidle (by simpa [Timer.managed] using hlinksets L hL)
      rcases untested_status htest with hnone | hallowed
      · rw [hnone]
      · rw [hallowed]
    · rw [if_neg hL]
  | uninhibit l | forceUninhibit l =>
    dsimp only
    split_ifs with hl
    · have hattempts := hidle (by simpa [Timer.managed] using hlinks l hl)
      simp only [Timer.Awaited, ne_eq, not_not] at hattempts
      simp [repeatUninhibit, hattempts]
    · rfl
  | inhibitTest l =>
    refine if_neg fun hl => ?_
    rw [Bool.and_eq_true] at hl
    exact hidle (by simpa [Timer.managed] using hlinks l hl.1) hl.2
  | restart | restartOverall =>
    have hnot : m.restarting = false := by simpa [Timer.Awaited] using hidle rfl
    simp [endRestart, hnot]
  | restartAllowed L =>
    dsimp only
    split_ifs with hL
    · have hguarded : (m.linksets L).guarded = false := by
        simpa [Timer.Awaited] using hidle (by simpa [Timer.managed] using hlinksets L hL)
      refine setLinkset_same ?_
      rw [← hguarded]
    · rfl
  | adjacentRestart L =>
    refine if_neg fun hL => ?_
    rw [Bool.and_eq_true] at hL
    exact hidle (by simpa [Timer.managed] using hlinksets L hL.1) hL.2
  | isolation =>
    have hnot : m.isolated = false := hisolated rfl
    exact if_neg (by simp [hnot])

/-! ## Every run -/

theorem Level.sent {m : Management} (h : Level m) : Level { m with out := [] } :=
  ⟨h.agreed, h.told, h.synced, h.isolated⟩

theorem level_new (topology : Topology) (timers : Timers) (tfp : Bool) :
    Level (new topology timers tfp) := by
  have hmute (L : LinksetId) : (new topology timers tfp).canTell L = false := by
    have hreachable (pc : ℕ) : (new topology timers tfp).reachable pc = false :=
      reachable_new topology timers tfp pc
    unfold canTell
    rw [funext hreachable]
    cases (new topology timers tfp).adjacentOf L <;> simp [linksetSignalling, new]
  refine ⟨agreed_new topology timers tfp, fun _ L adjacent _ hc => ?_, fun _ L _ => ?_, ?_⟩
  · rw [hmute] at hc
    cases hc
  · rw [hmute]
    rfl
  · simp [new, linkIds]

theorem agreed_run (topology : Topology) (timers : Timers) (tfp : Bool) (is : List Input) :
    Agreed (Machine.run watching (new topology timers tfp, Watch.new) is).1 :=
  Machine.run_invariant (P := fun s : Management × Watch => Agreed s.1) (Q := fun _ _ => True)
    (fun _ i h _ => process_agreed h i) (agreed_new topology timers tfp)
    (Machine.along_trivial _ is)

theorem level_run (topology : Topology) (timers : Timers) (tfp : Bool) (is : List Input)
    (hlast : ∀ d l, is.getLast? ≠ some (.unroutable d l)) :
    Level (Machine.run watching (new topology timers tfp, Watch.new) is).1 := by
  rcases List.eq_nil_or_concat is with rfl | ⟨before, last, rfl⟩
  · exact level_new topology timers tfp
  · rw [List.concat_eq_append, Machine.run_append]
    refine (process_level (agreed_run topology timers tfp before) fun d l heq => ?_).sent
    exact hlast d l (by simp [heq])

/-- A timeout that comes late, and not right after a message that could not be routed, does
nothing: management is as it was and asks for nothing. -/
theorem late_idle (topology : Topology) (timers : Timers) (tfp : Bool) (is : List Input)
    (hlast : ∀ d l, is.getLast? ≠ some (.unroutable d l)) (t : Timer) :
    let s := Machine.run watching (new topology timers tfp, Watch.new) is
    Late t s → s.1.handle (.timeout t) = (s.1, []) := by
  have hwaiting := waiting_run topology timers tfp is
  have hlevel := level_run topology timers tfp is hlast
  dsimp only
  generalize Machine.run watching (new topology timers tfp, Watch.new) is = s at *
  obtain ⟨m, w⟩ := s
  intro hlate
  have hout : m.out = [] := hwaiting.settled.out
  have hprocess : m.process (.timeout t) = m := by
    rw [process_of_settled (by simp)]
    change (m.timeout t).settle.watchIsolation = m
    rw [timeout_late hwaiting hlate, hlevel.settled]
  have hsent : { m with out := [] } = m := by rw [← hout]
  unfold handle step
  rw [hprocess, hout, hsent]
  rfl

/-- Both timers of a restart run out at once: the first ends it. -/
theorem late_idle_of_restart :
    let s := Machine.run watching (new pairTopology unitTimers false, Watch.new)
      [.linkUp 0, .timeout .restart]
    s.1.handle (.timeout .restartOverall) = (s.1, []) :=
  late_idle pairTopology unitTimers false [.linkUp 0, .timeout .restart] (by simp)
    .restartOverall ⟨by decide +kernel, nofun⟩

end Management

end SiphonSigtran.Mtp3
