import SiphonSigtran.Mtp3.LinkPhases

/-!
# What adjacent points were told

`told` is the last transfer-prohibited or -allowed that went toward a linkset
since its adjacent point was resynchronised, after every input. And where the
linkset can be told, `settle` makes it what the rule says: a destination is
prohibited toward a point if nothing reaches it, or if what reaches it goes
through that point.
-/

namespace SiphonSigtran.Mtp3

open Lib Management

variable {G : Guard}

/-- What an entry says of a destination toward a linkset: prohibited, or allowed. -/
def Entry.tells (L : LinksetId) (d : ℕ) : Entry → Option Bool
  | .resynced K => if K = L then some false else none
  | .act (.send _ _ (.tfp e) (.adjacent K _)) => if K = L ∧ e = d then some true else none
  | .act (.send _ _ (.tfa e) (.adjacent K _)) => if K = L ∧ e = d then some false else none
  | _ => none

/-- What was told last. -/
def retold (L : LinksetId) (d : ℕ) (told : Bool) (es : List Entry) : Bool :=
  es.foldl (fun told e => (e.tells L d).getD told) told

@[simp] theorem retold_nil (L : LinksetId) (d : ℕ) (told : Bool) : retold L d told [] = told := rfl

@[simp] theorem retold_append (L : LinksetId) (d : ℕ) (told : Bool) (es es' : List Entry) :
    retold L d told (es ++ es') = retold L d (retold L d told es) es' := List.foldl_append

@[simp] theorem retold_cons (L : LinksetId) (d : ℕ) (told : Bool) (e : Entry) (es : List Entry) :
    retold L d told (e :: es) = retold L d ((e.tells L d).getD told) es := rfl

theorem retold_of_none {L : LinksetId} {d : ℕ} (told : Bool) {es : List Entry}
    (h : ∀ e ∈ es, e.tells L d = none) : retold L d told es = told := by
  induction es with
  | nil => rfl
  | cons e es ih =>
    rw [retold_cons, h e (by simp), Option.getD_none]
    exact ih fun e' he' => h e' (by simp [he'])

/-- What an action says of a destination to whoever it goes to. -/
def Action.speaks (d : ℕ) : Action → Option Bool
  | .send _ _ (.tfp e) _ => if e = d then some true else none
  | .send _ _ (.tfa e) _ => if e = d then some false else none
  | _ => none

theorem Action.tells_of_unspoken {a : Action} {d : ℕ} (h : a.speaks d = none) (L : LinksetId) :
    (Entry.act a).tells L d = none := by
  cases a with
  | send dpc slc message path =>
    cases message with
    | tfp e | tfa e =>
      have he : ¬e = d := by
        rintro rfl
        simp [Action.speaks] at h
      cases path <;> simp [Entry.tells, he]
    | _ => rfl
  | _ => rfl

/-- A message that a restarting node does not send. -/
def Action.informs : Action → Bool
  | .send _ _ (.tfp _) _ | .send _ _ (.tfa _) _ | .send _ _ (.rst _) _
  | .send _ _ (.rsr _) _ => true
  | _ => false

/-- An action that informs nobody, and neither begins nor ends this node's restart. -/
def Action.still (a : Action) : Bool :=
  !a.informs && a ≠ .restarting true && a ≠ .stop .restart

theorem Action.still_of_plain {a : Action} (h : a.plain = true) : a.still = true := by
  cases a with
  | send dpc slc message path => cases message <;> simp_all [Action.plain, Action.still, informs]
  | _ => simp_all [Action.plain, Action.still, informs]

theorem Action.speaks_of_still {a : Action} (h : a.still = true) (d : ℕ) :
    a.speaks d = none := by
  cases a with
  | send dpc slc message path =>
    cases message <;> simp_all [Action.still, informs, Action.speaks]
  | _ => rfl

theorem MarkMove.still {timers : Timers} {dpc : ℕ} {L : LinksetId} {status : RouteStatus}
    {d d' : DestinationState} {outs : List Action} (h : MarkMove timers dpc L status d d' outs)
    (hd : ∀ a ∈ d.deferred, ∃ L status, a = Action.route dpc L status) :
    ∀ a ∈ outs, a.still = true := by
  have hheld : ∀ a ∈ d.deferred, a.still = true := by
    intro a ha
    obtain ⟨L, status, rfl⟩ := hd a ha
    rfl
  cases h with
  | marked | deferred | held => simp [Action.still, Action.informs]
  | forced =>
    intro a ha
    rcases List.mem_append.mp ha with ha | ha
    · exact hheld a ha
    · rw [List.mem_singleton.mp ha]
      rfl
  | released =>
    intro a ha
    simp only [List.append_assoc, List.mem_append, List.mem_cons, List.not_mem_nil,
      or_false] at ha
    rcases ha with ha | rfl | rfl | rfl
    · exact hheld a ha
    all_goals simp [Action.still, Action.informs]

theorem MarkMove.told {timers : Timers} {dpc : ℕ} {L : LinksetId} {status : RouteStatus}
    {d d' : DestinationState} {outs : List Action} (h : MarkMove timers dpc L status d d' outs) :
    d'.told = d.told := by
  cases h <;> rfl

theorem LinkMove.still {m : Management} {l : LinkId} {s s' : LinkState} {outs : List Action}
    {P P' : Set Subject} (h : LinkMove G m l s s' outs P P') : ∀ a ∈ outs, a.still = true := by
  intro a ha
  have hof := h.ofLink a ha
  cases a with
  | start timer | stop timer =>
    cases timer <;> simp_all [Action.ofLink, Action.still, Action.informs]
  | hold | «open» | divert => simp [Action.still, Action.informs]
  | _ => exact Action.still_of_plain hof

/-- A move resynchronises a linkset, or tells of a destination toward one, or informs of
something else, or begins or ends the restart, or does none of these. -/
inductive Telling (m m' : Management) : Prop
  | resynced (L : LinksetId) (hr : m.restarting = false) (h : m' = m.resync L)
  | told (L : LinksetId) (adjacent d : ℕ) (want : Bool) (hr : m.restarting = false)
      (ha : m.adjacentOf L = some adjacent) (hd : d ∈ m.topology.dpcs)
      (h : m' = (m.setDestination d fun s =>
        { s with told := if want then insert L s.told else s.told.erase L }).push
          (.send adjacent 0 (if want then .tfp d else .tfa d) (.adjacent L none)))
  | informed (a : Action) (hr : m.restarting = false)
      (ha : ∀ d ∈ m.topology.dpcs, a.speaks d = none)
      (hk : a ≠ .restarting true ∧ a ≠ .stop .restart) (h : m' = m.push a)
  | restart (on : Bool) (hr : m.restarting = !on) (hr' : m'.restarting = on)
      (htold : ∀ d, (m'.destinations d).told = (m.destinations d).told) (xs : List Action)
      (hout : m'.out = m.out ++
        .act (if on then .restarting true else .stop .restart) :: xs.map .act)
      (hxs : ∀ a ∈ xs, a.still = true)
  | still (xs : List Action) (hout : m'.out = m.out ++ xs.map .act)
      (hxs : ∀ a ∈ xs, a.still = true) (hr : m'.restarting = m.restarting)
      (htold : ∀ d, (m'.destinations d).told = (m.destinations d).told)

theorem Move.topology {P P' : Set Subject} {m m' : Management} (h : Move G P m P' m') :
    m'.topology = m.topology := by
  cases h <;> rfl

/-- The messages about a configured destination can be built. -/
theorem about_of_mem {t : Topology} {d : ℕ} (hd : d ∈ t.dpcs)
    (make : ℕ → ManagementMessage) : about d make = some (make d) := by
  rw [about, if_pos (t.itu d hd)]

theorem Move.telling {P P' : Set Subject} {m m' : Management} (h : Move G P m P' m')
    (hm : Marked m) : Telling m m' := by
  have hstill : ∀ a : Action, a.still = true → ∀ b ∈ [a], b.still = true := by simp
  have hquiet : ∀ {m'' : Management}, m''.out = m.out → m''.restarting = m.restarting →
      (∀ d, (m''.destinations d).told = (m.destinations d).told) → Telling m m'' :=
    fun hout hr htold => .still [] (by rw [hout]; simp) (by simp) hr htold
  cases h with
  | resync L hr => exact .resynced L hr rfl
  | told L adjacent d want hr ha hd =>
    refine .told L adjacent d want hr ha hd ?_
    cases want <;> simp [about_of_mem hd, push_eq_extend]
  | toldUnknown L adjacent d message hr ha hd htext =>
    refine .informed _ hr (fun e he => ?_) (by simp) rfl
    have hde : ¬d = e := fun h => hd (h ▸ he)
    rcases htext with rfl | rfl <;> simp [Action.speaks, hde]
  | asked L adjacent d message hr ha htext =>
    refine .informed _ hr (fun e he => ?_) (by simp) rfl
    rcases htext with rfl | rfl <;> rfl
  | beginRestart hr =>
    exact .restart true hr rfl (fun _ => rfl) [.start .restart m.timers.t18,
      .start .restartOverall m.timers.t20] rfl (by simp [Action.still, Action.informs])
  | endRestart hr =>
    exact .restart false hr rfl (fun _ => rfl) [.stop .restartOverall] rfl
      (by simp [Action.still, Action.informs])
  | link l f outs hl h => exact .still outs rfl h.still rfl fun _ => rfl
  | mark d L status position d' outs hg hd hp hs h =>
    refine .still (testTimer m d L status :: outs) rfl ?_ rfl fun e => ?_
    · intro a ha
      rcases List.mem_cons.mp ha with rfl | ha
      · unfold testTimer
        split_ifs <;> simp [Action.still, Action.informs]
      · exact h.still (hm d) a ha
    · by_cases he : e = d
      · subst he
        simp only [extend_destinations, setDestination_self, h.told]
        rfl
      · rw [extend_destinations, setDestination_ne m _ he]
  | release d =>
    refine .still ((m.destinations d).deferred ++ [Action.releaseDestination d]) rfl ?_ rfl ?_
    · intro a ha
      rcases List.mem_append.mp ha with ha | ha
      · obtain ⟨L, status, rfl⟩ := hm d a ha
        rfl
      · rw [List.mem_singleton.mp ha]
        rfl
    · intro e
      by_cases he : e = d <;> simp [extend, setDestination, he]
  | say a ha => exact .still [a] rfl (hstill a (Action.still_of_plain ha)) rfl fun _ => rfl
  | unmarked d | paused d =>
    refine hquiet rfl rfl fun e => ?_
    by_cases he : e = d <;> simp [setDestination, he]
  | accessible d | restricted d =>
    refine .still [_] rfl (hstill _ rfl) rfl fun e => ?_
    by_cases he : e = d <;> simp [setDestination, Management.push, he]
  | unguard | unsync | due | flags | unguards | served | codes | keepAdjacent =>
    exact hquiet rfl rfl fun _ => rfl
  | allow L =>
    refine .still _ rfl (fun a ha => ?_) rfl fun _ => rfl
    obtain ⟨d, -, ha⟩ := List.mem_flatMap.mp ha
    simp only [List.mem_cons, List.not_mem_nil, or_false] at ha
    rcases ha with rfl | rfl
    · simp [Action.still, Action.informs]
    · rfl
  | isolated on =>
    refine .still [_] rfl (hstill _ ?_) rfl fun _ => rfl
    cases on <;> simp [Action.still, Action.informs]
  | guard | testing | opens | restarted | beginAdjacent | endAdjacent | loseAdjacent | guards =>
    exact .still [_] rfl (hstill _ (by simp [Action.still, Action.informs])) rfl fun _ => rfl

/-- What was told last is what `told` says, for every linkset and configured destination. -/
def ToldIs (m : Management) (told : LinksetId → ℕ → Bool) : Prop :=
  ∀ L, ∀ d ∈ m.topology.dpcs, told L d = decide (L ∈ (m.destinations d).told)

theorem retold_of_still {L : LinksetId} {d : ℕ} (told : Bool) {xs : List Action}
    (h : ∀ a ∈ xs, a.still = true) : retold L d told (xs.map .act) = told := by
  refine retold_of_none told fun e he => ?_
  obtain ⟨a, ha, rfl⟩ := List.mem_map.mp he
  exact Action.tells_of_unspoken (Action.speaks_of_still (h a ha) d) L

theorem Telling.told_is {m m' : Management} (h : Telling m m')
    (ht : m'.topology = m.topology) {told : LinksetId → ℕ → Bool}
    (hi : ToldIs m fun L d => retold L d (told L d) m.out) :
    ToldIs m' fun L d => retold L d (told L d) m'.out := by
  cases h with
  | resynced L hr h =>
    subst h
    intro K d hd
    have hK : retold K d (told K d) m.out = decide (K ∈ (m.destinations d).told) := hi K d hd
    simp only [resync, retold_append, hK, retold_cons, retold_nil, Entry.tells]
    by_cases hKL : K = L
    · simp [hKL]
    · have hLK : ¬L = K := fun h => hKL h.symm
      simp [hKL, hLK]
  | told L adjacent d want hr ha hd h =>
    subst h
    intro K e he
    have hK : retold K e (told K e) m.out = decide (K ∈ (m.destinations e).told) := hi K e he
    simp only [push, setDestination, retold_append, hK, retold_cons, retold_nil]
    by_cases hKe : K = L ∧ e = d
    · obtain ⟨rfl, rfl⟩ := hKe
      cases want <;> simp [Entry.tells]
    · have hnone : (Entry.act (.send adjacent 0 (if want = true then .tfp d else .tfa d)
          (.adjacent L none))).tells K e = none := by
        have hLd : ¬(L = K ∧ d = e) := fun h => hKe ⟨h.1.symm, h.2.symm⟩
        cases want <;> simp [Entry.tells, hLd]
      rw [hnone, Option.getD_none]
      by_cases hed : e = d
      · have hKL : ¬K = L := fun h => hKe ⟨h, hed⟩
        cases want <;> simp [hed, hKL]
      · simp [hed]
  | informed a hr ha hk h =>
    subst h
    intro K d hd
    have hK : retold K d (told K d) m.out = decide (K ∈ (m.destinations d).told) := hi K d hd
    simp only [push, retold_append, hK, retold_cons, retold_nil]
    rw [Action.tells_of_unspoken (ha d hd) K, Option.getD_none]
    rfl
  | restart on hr hr' htold xs hout hxs =>
    intro K d hd
    rw [ht] at hd
    have hnone : (Entry.act (if on = true then .restarting true else .stop .restart)).tells K d =
        none := by
      cases on <;> rfl
    dsimp only
    rw [hout, retold_append, retold_cons, hnone, Option.getD_none, htold, retold_of_still _ hxs]
    exact hi K d hd
  | still xs hout hxs hr htold =>
    intro K d hd
    rw [ht] at hd
    dsimp only
    rw [hout, retold_append, htold, retold_of_still _ hxs]
    exact hi K d hd

/-! ## A restarting node tells nothing -/

/-- Whether the node restarts after the actions, and whether it informed nobody while it did. -/
def silence (s : Bool × Bool) : Action → Bool × Bool
  | .restarting true => (true, s.2)
  | .stop .restart => (false, s.2)
  | a => (s.1, s.2 && !(s.1 && a.informs))

/-- The node restarts when the actions say so, and was silent meanwhile. -/
def Silent (m : Management) (s : Bool × Bool) : Prop := s = (m.restarting, true)

theorem silence_of {s : Bool × Bool} {a : Action} (h : a ≠ .restarting true)
    (h' : a ≠ .stop .restart) (ha : (s.1 && a.informs) = false) : silence s a = s := by
  unfold silence
  split
  · exact absurd rfl h
  · exact absurd rfl h'
  · simp [ha]

theorem silence_of_still {s : Bool × Bool} {xs : List Action}
    (h : ∀ a ∈ xs, a.still = true) : xs.foldl silence s = s := by
  induction xs with
  | nil => rfl
  | cons a xs ih =>
    have ha := h a (by simp)
    simp only [Action.still, ne_eq, decide_not, Bool.and_eq_true, Bool.not_eq_true',
      decide_eq_false_iff_not] at ha
    rw [List.foldl_cons, silence_of ha.1.2 ha.2 (by simp [ha.1.1])]
    exact ih fun b hb => h b (by simp [hb])

theorem Telling.silent {m m' : Management} (h : Telling m m') {s : Bool × Bool}
    (hi : Silent m ((actions m.out).foldl silence s)) :
    Silent m' ((actions m'.out).foldl silence s) := by
  unfold Silent at *
  have hsent : ∀ (n : Management) (a : Action),
      (actions n.out).foldl silence s = (n.restarting, true) → n.restarting = false →
      a ≠ .restarting true → a ≠ .stop .restart →
      (actions (n.push a).out).foldl silence s = (n.restarting, true) := by
    intro n a hn hr h h'
    rw [actions_push, List.foldl_append, hn]
    exact silence_of h h' (by simp [hr])
  have hmap : ∀ xs : List Action, actions (xs.map .act) = xs := fun xs => by
    simpa [extend] using actions_extend { m with out := [] } xs
  cases h with
  | resynced L hr h =>
    subst h
    have hout : actions (m.resync L).out = actions m.out := by simp [resync]
    rw [hout]
    exact hi
  | told L adjacent d want hr ha hd h =>
    subst h
    exact hsent _ _ hi hr (by simp) (by simp)
  | informed a hr ha hk h =>
    subst h
    exact hsent _ _ hi hr hk.1 hk.2
  | restart on hr hr' htold xs hout hxs =>
    rw [hout, actions_append, actions_act, hmap, List.foldl_append, List.foldl_cons, hi,
      silence_of_still hxs, hr']
    cases on <;> simp [silence]
  | still xs hout hxs hr htold =>
    rw [hout, actions_append, hmap, List.foldl_append, hi, silence_of_still hxs, hr]

theorem Steps.told_is {P P' : Set Subject} {m m' : Management} (h : Steps G P m P' m')
    (hm : Marked m) {told : LinksetId → ℕ → Bool} {s : Bool × Bool}
    (hi : ToldIs m fun L d => retold L d (told L d) m.out)
    (hs : Silent m ((actions m.out).foldl silence s)) :
    (ToldIs m' fun L d => retold L d (told L d) m'.out) ∧
      Silent m' ((actions m'.out).foldl silence s) :=
  (Steps.invariant (I := fun _ m => Marked m ∧ (ToldIs m fun L d => retold L d (told L d) m.out) ∧
      Silent m ((actions m.out).foldl silence s))
    (fun hmove hI => ⟨hmove.marked hI.1, (hmove.telling hI.1).told_is hmove.topology hI.2.1,
      (hmove.telling hI.1).silent hI.2.2⟩) h ⟨hm, hi, hs⟩).2

/-! ## What settling makes of it -/

namespace Management

/-- What is told of one destination toward one linkset, and of no other. -/
theorem settleBelief_told (m : Management) (L K : LinksetId) (adjacent d e : ℕ) :
    K ∈ ((m.settleBelief L adjacent d).destinations e).told ↔
      if K = L ∧ e = d ∧ d ≠ adjacent then m.prohibitedToward d L = true
      else K ∈ (m.destinations e).told := by
  by_cases hsame : d = adjacent ∨
      decide (L ∈ (m.destinations d).told) = m.prohibitedToward d L
  · rw [settleBelief_same hsame]
    split_ifs with h
    · obtain ⟨rfl, rfl, hda⟩ := h
      rw [← hsame.resolve_left hda, decide_eq_true_eq]
    · exact Iff.rfl
  · obtain ⟨hda, hne⟩ := not_or.mp hsame
    rw [settleBelief_changed hda hne, extend_destinations]
    by_cases hed : e = d
    · subst hed
      rw [setDestination_self]
      by_cases hKL : K = L
      · subst hKL
        cases hwant : m.prohibitedToward e K <;> simp [hda]
      · cases hwant : m.prohibitedToward e L <;> simp [hKL]
    · rw [setDestination_ne m _ hed, if_neg fun h => hed h.2.1]

theorem settleBeliefs_told {m : Management} (hr : m.restarting = false) {L : LinksetId}
    {adjacent : ℕ} (ha : m.adjacentOf L = some adjacent) {ds : List ℕ}
    (hds : ∀ d ∈ ds, d ∈ m.topology.dpcs) (K : LinksetId) (e : ℕ) :
    K ∈ ((ds.foldl (fun m d => m.settleBelief L adjacent d) m).destinations e).told ↔
      if K = L ∧ e ∈ ds ∧ e ≠ adjacent then m.prohibitedToward e L = true
      else K ∈ (m.destinations e).told := by
  induction ds generalizing m with
  | nil => simp
  | cons d ds ih =>
    have hquiet := (settleBelief_quiet hr ha (hds d (by simp))).2
    rw [List.foldl_cons, ih (hquiet.restarting.trans hr)
      (by simpa only [adjacentOf, hquiet.topology] using ha)
      (by simpa only [hquiet.topology] using fun d hd => hds d (by simp [hd])),
      hquiet.prohibitedToward, settleBelief_told]
    by_cases hK : K = L
    · by_cases he : e = adjacent
      · rw [if_neg fun h => h.2.2 he, if_neg fun h => h.2.2 (h.2.1 ▸ he),
          if_neg fun h => h.2.2 he]
      · by_cases hed : e = d
        · subst hed
          simp [hK, he]
        · simp [hK, hed, he]
    · simp [hK]

/-- A linkset is settled by itself, and nothing of the others. -/
theorem settleLinkset_told {m : Management} (hr : m.restarting = false) (L K : LinksetId)
    (e : ℕ) :
    (K ≠ L → (K ∈ ((m.settleLinkset L).destinations e).told ↔ K ∈ (m.destinations e).told)) ∧
    ∀ adjacent, m.adjacentOf L = some adjacent → m.canTell L = true → e ∈ m.topology.dpcs →
      e ≠ adjacent →
      (L ∈ ((m.settleLinkset L).destinations e).told ↔ m.prohibitedToward e L = true) := by
  unfold settleLinkset
  cases ha : m.adjacentOf L with
  | none => exact ⟨fun _ => Iff.rfl, fun adjacent h => by simp at h⟩
  | some adjacent =>
    dsimp only
    by_cases hc : m.canTell L = true
    · rw [if_neg (by simp [hc])]
      generalize hm₁ : (if (m.linksets L).synced = true then m else m.resync L) = m₁
      have h₁ : Unmoved m m₁ ∧ ∀ K, K ≠ L → ∀ e,
          (K ∈ (m₁.destinations e).told ↔ K ∈ (m.destinations e).told) := by
        rw [← hm₁]
        split_ifs
        · exact ⟨Unmoved.refl m, fun _ _ _ => Iff.rfl⟩
        · exact ⟨(resync_quiet hr L).2, fun K hK e => by simp [resync, hK]⟩
      have hfold := settleBeliefs_told (h₁.1.restarting.trans hr)
        (by simpa only [adjacentOf, h₁.1.topology] using ha) (fun d hd => hd)
      refine ⟨fun hK => ?_, fun a' ha' _ he hea => ?_⟩
      · rw [hfold, if_neg fun h => hK h.1]
        exact h₁.2 K hK e
      · obtain rfl := Option.some.inj ha'
        rw [hfold, if_pos ⟨rfl, by rw [h₁.1.topology]; exact he, hea⟩, h₁.1.prohibitedToward]
    · rw [if_pos (by simpa using hc)]
      exact ⟨fun _ => Iff.rfl, fun _ _ h => absurd h hc⟩

theorem settleLinksets_told {m : Management} (hr : m.restarting = false) {Ls : List LinksetId}
    (hnodup : Ls.Nodup) {L : LinksetId} {adjacent e : ℕ}
    (ha : m.adjacentOf L = some adjacent) (hc : m.canTell L = true) (he : e ∈ m.topology.dpcs)
    (hea : e ≠ adjacent)
    (hL : L ∈ Ls ∨ (L ∈ (m.destinations e).told ↔ m.prohibitedToward e L = true)) :
    L ∈ ((Ls.foldl settleLinkset m).destinations e).told ↔ m.prohibitedToward e L = true := by
  induction Ls generalizing m with
  | nil => exact hL.resolve_left List.not_mem_nil
  | cons K Ls ih =>
    obtain ⟨hnot, hnodup⟩ := List.nodup_cons.mp hnodup
    have hquiet := (settleLinkset_quiet hr K).2
    rw [List.foldl_cons, ← hquiet.prohibitedToward]
    refine ih (hquiet.restarting.trans hr) hnodup
      (by simpa only [adjacentOf, hquiet.topology] using ha) (by rw [hquiet.canTell]; exact hc)
      (by rw [hquiet.topology]; exact he) ?_
    rw [hquiet.prohibitedToward]
    by_cases hKL : K = L
    · subst hKL
      exact .inr ((settleLinkset_told hr K K e).2 adjacent ha hc he hea)
    · rcases hL with hL | hL
      · exact .inl ((List.mem_cons.mp hL).resolve_left fun h => hKL h.symm)
      · exact .inr (((settleLinkset_told hr K L e).1 fun h => hKL h.symm).trans hL)

/-- A node that is not restarting tells every point it can tell what the rule says. -/
theorem settle_told {m : Management} (hr : m.restarting = false) {L : LinksetId}
    {adjacent e : ℕ} (ha : m.adjacentOf L = some adjacent) (hc : m.canTell L = true)
    (he : e ∈ m.topology.dpcs) (hea : e ≠ adjacent) :
    L ∈ (m.settle.destinations e).told ↔ m.prohibitedToward e L = true := by
  unfold settle
  extract_lets m₁
  have h₁ : Unmoved m m₁ := (Quiet.foldl (I := fun _ => True) (fun _ _ => trivial)
    (fun m _ d _ => settleDestination_quiet m d) trivial).2
  have hr₁ : m₁.restarting = false := h₁.restarting.trans hr
  rw [if_neg (by simp [hr₁]), ← h₁.prohibitedToward]
  refine settleLinksets_told hr₁ List.nodup_range
    (by simpa only [adjacentOf, h₁.topology] using ha) (by rw [h₁.canTell]; exact hc)
    (by rw [h₁.topology]; exact he) hea (.inl ?_)
  rw [List.mem_range, h₁.topology]
  by_contra hL
  simp [adjacentOf, Topology.linkset_of_length_le (Nat.le_of_not_lt hL)] at ha

theorem watchIsolation_unmoved (m : Management) :
    m.watchIsolation.topology = m.topology ∧ m.watchIsolation.links = m.links ∧
      m.watchIsolation.linksets = m.linksets ∧ m.watchIsolation.servers = m.servers ∧
      m.watchIsolation.destinations = m.destinations ∧ m.watchIsolation.without = m.without ∧
      m.watchIsolation.restarting = m.restarting := by
  unfold watchIsolation
  extract_lets isolated m₁
  split_ifs <;> exact ⟨rfl, rfl, rfl, rfl, rfl, rfl, rfl⟩

theorem watchIsolation_inUse (m : Management) (d : ℕ) :
    m.watchIsolation.inUse d = m.inUse d := by
  obtain ⟨ht, hl, -, hs, hdest, hw, -⟩ := watchIsolation_unmoved m
  exact inUse_congr ht (fun l => by simp only [linkAvailable, hl, hw]) hs (by rw [hdest])
    (by rw [hdest])

theorem watchIsolation_canTell (m : Management) (L : LinksetId) :
    m.watchIsolation.canTell L = m.canTell L := by
  obtain ⟨ht, hl, -, -, -, -, -⟩ := watchIsolation_unmoved m
  simp only [canTell, linksetSignalling, linksOf, reachable, adjacentOf, ht, hl,
    watchIsolation_inUse]

/-- An input other than a message that cannot be routed is settled. -/
theorem process_of_settled {m : Management} {input : Input}
    (hi : ∀ d l, input ≠ .unroutable d l) :
    m.process input = (m.dispatch input).settle.watchIsolation := by
  unfold process
  split
  · exact absurd rfl (hi _ _)
  · rfl

theorem process_told {m : Management} {input : Input} (hi : ∀ d l, input ≠ .unroutable d l)
    (hr : (m.process input).restarting = false) {L : LinksetId} {adjacent d : ℕ}
    (ha : (m.process input).adjacentOf L = some adjacent)
    (hc : (m.process input).canTell L = true) (hd : d ∈ (m.process input).topology.dpcs)
    (hda : d ≠ adjacent) :
    L ∈ ((m.process input).destinations d).told ↔
      (m.process input).prohibitedToward d L = true := by
  rw [process_of_settled hi] at hr ha hc hd ⊢
  have hsettled := (settle_quiet (m.dispatch input)).2
  obtain ⟨ht, -, -, -, hdest, -, hnode⟩ := watchIsolation_unmoved (m.dispatch input).settle
  have htoward : (m.dispatch input).settle.watchIsolation.prohibitedToward d L =
      (m.dispatch input).settle.prohibitedToward d L := by
    simp only [prohibitedToward, destination?, ht, watchIsolation_inUse, hdest]
  rw [htoward, hdest, hsettled.prohibitedToward]
  refine settle_told ?_ ?_ ?_ ?_ hda
  · rw [← hsettled.restarting, ← hnode]
    exact hr
  · simpa only [adjacentOf, ht, hsettled.topology] using ha
  · rw [← hsettled.canTell, ← watchIsolation_canTell]
    exact hc
  · simpa only [ht, hsettled.topology] using hd

end Management

/-- What a reader of all that was left knows: what each linkset was told last, and whether
the node restarts and was silent while it did. -/
structure Report where
  told : LinksetId → ℕ → Bool
  restart : Bool × Bool

def Report.new : Report := ⟨fun _ _ => false, (false, true)⟩

def Report.note (r : Report) (es : List Entry) : Report :=
  ⟨fun L d => retold L d (r.told L d) es, (actions es).foldl silence r.restart⟩

namespace Management

/-- Management and its reader after one more input. -/
def reporting : Management × Report → Input → Management × Report :=
  Machine.watch step fun r _ _ out => r.note out.2

/-- What holds between two inputs of what was told. -/
structure Reported (s : Management × Report) : Prop where
  settled : ∃ w, Settled (s.1, w)
  told : ToldIs s.1 s.2.told
  silent : Silent s.1 s.2.restart

theorem Reported.step {s : Management × Report} (h : Reported s) (input : Input) :
    Reported (reporting s input) := by
  obtain ⟨w, hw⟩ := h.settled
  have hout : s.1.out = [] := hw.out
  have hheld : ToldIs s.1 fun L d => retold L d (s.2.told L d) s.1.out := by
    simpa [hout] using h.told
  have hsilent : Silent s.1 ((actions s.1.out).foldl silence s.2.restart) := by
    simpa [hout] using h.silent
  have htold := (process_steps hw.calm input).told_is hw.marked hheld hsilent
  exact ⟨⟨_, hw.step input⟩, htold.1, htold.2⟩

theorem reported_run (topology : Topology) (timers : Timers) (tfp : Bool) (is : List Input) :
    Reported (Machine.run reporting (new topology timers tfp, Report.new) is) :=
  Machine.run_invariant (Q := fun _ _ => True) (fun _ i h _ => h.step i)
    ⟨⟨_, settled_new topology timers tfp⟩, fun _ _ _ => by simp [Report.new, new], rfl⟩
    (Machine.along_trivial _ is)

/-- Two adjacent points, each with one link and no other way to it. -/
def pairTopology : Topology where
  ownPc := 1
  linksets := [⟨some 100, [0]⟩, ⟨some 200, [1]⟩]
  links := [⟨0, 0⟩, ⟨1, 0⟩]
  servers := 0
  routes := [(100, [⟨.linkset 0, 0⟩]), (200, [⟨.linkset 1, 0⟩])]
  member := by decide
  owner := by decide
  nodup := by decide
  codes := by decide
  destinations := by decide
  itu := by decide

/-- Timers of one unit each. -/
def unitTimers : Timers := ⟨1, 1, 1, 1, 1, 1, 1, 1, 1, 1, 1, 1, 1, 1, 1⟩

end Management

end SiphonSigtran.Mtp3
