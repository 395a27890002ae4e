import SiphonSigtran.Mtp3.RouteMarks

/-!
# What a point believes that several linksets name

Management tells a point of a destination by linkset. The point itself has heard the
last message, whichever linkset it was for, and forgets what it heard when one of them is
resynchronised. Where the linksets do not want different things of it, what it heard
last is what the rule says.
-/

namespace SiphonSigtran.Mtp3

open Lib Management

variable {G : Guard}

/-- What an entry says of a destination to one point. -/
def Entry.speaksTo (t : Topology) (a d : ℕ) : Entry → Option Bool
  | .resynced L => if (t.linkset L).adjacent = some a then some false else none
  | .act (.send dpc slc message path) =>
    if dpc = a then (Action.send dpc slc message path).speaks d else none
  | .act _ => none

/-- What the point heard last. -/
def heard (t : Topology) (a d : ℕ) (last : Bool) (es : List Entry) : Bool :=
  es.foldl (fun last e => (e.speaksTo t a d).getD last) last

theorem heard_append (t : Topology) (a d : ℕ) (last : Bool) (es es' : List Entry) :
    heard t a d last (es ++ es') = heard t a d (heard t a d last es) es' := List.foldl_append

theorem heard_single (t : Topology) (a d : ℕ) (last : Bool) (e : Entry) :
    heard t a d last [e] = (e.speaksTo t a d).getD last := rfl

theorem heard_of_unspoken {t : Topology} {a d : ℕ} (last : Bool) {es : List Entry}
    (h : ∀ e ∈ es, e.speaksTo t a d = none) : heard t a d last es = last := by
  induction es with
  | nil => rfl
  | cons e es ih =>
    rw [heard, List.foldl_cons, h e (List.mem_cons_self), Option.getD_none]
    apply ih
    intro e' he'
    exact h e' (List.mem_cons_of_mem e he')

theorem speaksTo_of_unspoken {x : Action} {d : ℕ} (h : x.speaks d = none) (t : Topology)
    (a : ℕ) : (Entry.act x).speaksTo t a d = none := by
  cases x with
  | send dpc slc message path =>
    rw [Entry.speaksTo, h, ite_self]
  | _ => rfl

/-- The point heard last what one of its linksets was told last. -/
def HeardIs (m : Management) (last : ℕ → ℕ → Bool) : Prop :=
  ∀ a, (∃ L, m.adjacentOf L = some a) → ∀ d ∈ m.topology.dpcs,
    ∃ L, m.adjacentOf L = some a ∧ last a d = decide (L ∈ (m.destinations d).told)

theorem Telling.heard_is {m m' : Management} (h : Telling m m') (ht : m'.topology = m.topology)
    {last : ℕ → ℕ → Bool} (hi : HeardIs m fun a d => heard m.topology a d (last a d) m.out) :
    HeardIs m' fun a d => heard m.topology a d (last a d) m'.out := by
  have hadj : ∀ K, m'.adjacentOf K = m.adjacentOf K := fun K => by
    simp only [adjacentOf, ht]
  intro a hnamed d hd
  obtain ⟨K, hK, hlast⟩ := hi a (by simpa only [hadj] using hnamed) d (ht ▸ hd)
  dsimp only at hlast ⊢
  have hquiet : ∀ xs : List Action, (∀ x ∈ xs, x.speaks d = none) →
      heard m.topology a d (heard m.topology a d (last a d) m.out) (xs.map .act) =
        heard m.topology a d (last a d) m.out := by
    intro xs hxs
    apply heard_of_unspoken
    intro e he
    obtain ⟨x, hx, rfl⟩ := List.mem_map.mp he
    exact speaksTo_of_unspoken (hxs x hx) m.topology a
  cases h with
  | resynced L hr h =>
    have hout : m'.out = m.out ++ [.resynced L] := by rw [h]; rfl
    have htold : (m'.destinations d).told = (m.destinations d).told.erase L := by rw [h]; rfl
    by_cases hL : m.adjacentOf L = some a
    · refine ⟨L, (hadj L).trans hL, ?_⟩
      rw [hout, heard_append, heard_single, Entry.speaksTo]
      have hspec : (m.topology.linkset L).adjacent = some a := hL
      rw [if_pos hspec, htold]
      simp
    · refine ⟨K, (hadj K).trans hK, ?_⟩
      have hspec : ¬(m.topology.linkset L).adjacent = some a := hL
      have hKL : K ≠ L := fun h => hL (h ▸ hK)
      rw [hout, heard_append, heard_single, Entry.speaksTo, if_neg hspec, Option.getD_none, hlast,
        htold]
      simp [hKL]
  | told L adjacent e want hr ha he h =>
    have hout : m'.out = m.out ++ [.act (.send adjacent 0 (if want then .tfp e else .tfa e)
        (.adjacent L none))] := by rw [h]; rfl
    have hspoken : (Action.send adjacent 0 (if want then .tfp e else .tfa e)
        (.adjacent L none)).speaks d = if e = d then some want else none := by
      cases want <;> rfl
    rw [hout, heard_append, heard_single, Entry.speaksTo, hspoken]
    by_cases hde : d = e
    · subst hde
      have htold : (m'.destinations d).told = if want then insert L (m.destinations d).told
          else (m.destinations d).told.erase L := by
        rw [h]
        simp [push]
      by_cases haa : adjacent = a
      · subst haa
        refine ⟨L, (hadj L).trans ha, ?_⟩
        rw [htold]
        cases want <;> simp
      · refine ⟨K, (hadj K).trans hK, ?_⟩
        have hKL : K ≠ L := by
          rintro rfl
          exact haa (Option.some.inj (ha.symm.trans hK))
        rw [if_neg haa, Option.getD_none, hlast, htold]
        cases want <;> simp [hKL]
    · refine ⟨K, (hadj K).trans hK, ?_⟩
      have htold : (m'.destinations d).told = (m.destinations d).told := by
        rw [h]
        simp [push, setDestination, hde]
      have hed : ¬e = d := fun h => hde h.symm
      rw [if_neg hed, ite_self, Option.getD_none, hlast, htold]
  | informed x hr hx hk h =>
    have hout : m'.out = m.out ++ [x].map .act := by rw [h]; rfl
    have htold : m'.destinations = m.destinations := by rw [h]; rfl
    refine ⟨K, (hadj K).trans hK, ?_⟩
    rw [hout, heard_append, hquiet [x] (by simpa using hx d (ht ▸ hd)), htold]
    exact hlast
  | restart on hr hr' htold xs hout hxs =>
    refine ⟨K, (hadj K).trans hK, ?_⟩
    have hout' : m'.out = m.out ++
        ((if on then Action.restarting true else .stop .restart) :: xs).map .act := by
      rw [hout]
      rfl
    rw [hout', heard_append, hquiet, htold]
    · exact hlast
    · intro x hx
      rcases List.mem_cons.mp hx with rfl | hx
      · cases on <;> rfl
      · exact Action.speaks_of_still (hxs x hx) d
  | still xs hout hxs hr htold =>
    refine ⟨K, (hadj K).trans hK, ?_⟩
    rw [hout, heard_append, hquiet xs fun x hx => Action.speaks_of_still (hxs x hx) d, htold]
    exact hlast

theorem Steps.heard_is {P P' : Set Subject} {m m' : Management} (h : Steps G P m P' m')
    (hm : Marked m) {last : ℕ → ℕ → Bool}
    (hi : HeardIs m fun a d => heard m.topology a d (last a d) m.out) :
    HeardIs m' fun a d => heard m.topology a d (last a d) m'.out := by
  have hinv := Steps.invariant (I := fun _ n => n.topology = m.topology ∧ Marked n ∧
      HeardIs n fun a d => heard m.topology a d (last a d) n.out)
    (fun hmove ⟨ht, hmarked, hheard⟩ => by
      refine ⟨hmove.topology.trans ht, hmove.marked hmarked, ?_⟩
      rw [← ht] at hheard ⊢
      exact (hmove.telling hmarked).heard_is hmove.topology hheard) h ⟨rfl, hm, hi⟩
  exact hinv.2.2

/-! ## A synchronised linkset can be told -/

namespace Management

theorem settleBelief_linksets (m : Management) (K : LinksetId) (adjacent d : ℕ) :
    (m.settleBelief K adjacent d).linksets = m.linksets := by
  unfold settleBelief
  extract_lets want told message m'
  split_ifs
  · rfl
  · rfl
  · clear_value message
    cases message <;> rfl

theorem settleBeliefs_linksets (m : Management) (K : LinksetId) (adjacent : ℕ) (ds : List ℕ) :
    (ds.foldl (fun m d => m.settleBelief K adjacent d) m).linksets = m.linksets := by
  induction ds generalizing m with
  | nil => rfl
  | cons d ds ih => rw [List.foldl_cons, ih, settleBelief_linksets]

theorem settleLinkset_synced (m : Management) (K L : LinksetId) :
    (((m.settleLinkset K).linksets L).synced = true →
      K = L → (m.adjacentOf K).isSome = true → m.canTell L = true) ∧
    (K ≠ L → (m.settleLinkset K).linksets L = m.linksets L) := by
  unfold settleLinkset
  cases ha : m.adjacentOf K with
  | none => simp
  | some adjacent =>
    dsimp only
    cases hc : m.canTell K with
    | false =>
      rw [if_pos (by simp)]
      refine ⟨fun hs hK _ => ?_, fun hK => setLinkset_ne m _ fun h => hK h.symm⟩
      subst hK
      simp at hs
    | true =>
      rw [if_neg (by simp), settleBeliefs_linksets]
      refine ⟨fun _ hK _ => hK ▸ hc, fun hK => ?_⟩
      split_ifs
      · rfl
      · exact setLinkset_ne m (fun s => { s with synced := true }) fun h => hK h.symm

theorem settleLinksets_synced {m : Management} (hr : m.restarting = false) {Ls : List LinksetId}
    {L : LinksetId} {a : ℕ} (ha : m.adjacentOf L = some a)
    (hL : L ∈ Ls ∨ ((m.linksets L).synced = true → m.canTell L = true))
    (hs : ((Ls.foldl settleLinkset m).linksets L).synced = true) : m.canTell L = true := by
  induction Ls generalizing m with
  | nil => exact hL.resolve_left List.not_mem_nil hs
  | cons K Ls ih =>
    have hquiet := (settleLinkset_quiet hr K).2
    rw [← hquiet.canTell]
    have ha' : (m.settleLinkset K).adjacentOf L = some a := by
      simpa only [adjacentOf, hquiet.topology] using ha
    apply ih (hquiet.restarting.trans hr) ha' _ hs
    rw [hquiet.canTell]
    by_cases hKL : K = L
    · subst hKL
      exact .inr fun h => (settleLinkset_synced m K K).1 h rfl (by rw [ha]; rfl)
    · rcases hL with hL | hL
      · exact .inl ((List.mem_cons.mp hL).resolve_left fun h => hKL h.symm)
      · refine .inr fun h => hL ?_
        rwa [(settleLinkset_synced m K L).2 hKL] at h

theorem settle_synced {m : Management} (hr : m.restarting = false) {L : LinksetId} {a : ℕ}
    (ha : m.adjacentOf L = some a) (hs : (m.settle.linksets L).synced = true) :
    m.canTell L = true := by
  unfold settle at hs
  have hquiet : Unmoved m (m.topology.dpcs.foldl settleDestination m) :=
    (Quiet.foldl (I := fun _ => True) (fun _ _ => trivial)
      (fun m _ d _ => settleDestination_quiet m d) trivial).2
  have hr' := hquiet.restarting.trans hr
  rw [if_neg (by simp [hr'])] at hs
  rw [← hquiet.canTell]
  apply settleLinksets_synced hr' (by simpa only [adjacentOf, hquiet.topology] using ha) _ hs
  rw [linksetIds, List.mem_range, hquiet.topology]
  left
  by_contra hL
  simp [adjacentOf, Topology.linkset_of_length_le (Nat.le_of_not_lt hL)] at ha

theorem process_synced {m : Management} {input : Input} (hi : ∀ d l, input ≠ .unroutable d l)
    (hr : (m.process input).restarting = false) {L : LinksetId} {a : ℕ}
    (ha : (m.process input).adjacentOf L = some a)
    (hs : ((m.process input).linksets L).synced = true) :
    (m.process input).canTell L = true := by
  rw [process_of_settled hi] at hr ha hs ⊢
  have hsettled := (settle_quiet (m.dispatch input)).2
  obtain ⟨ht, -, hlinksets, -, -, -, hnode⟩ := watchIsolation_unmoved (m.dispatch input).settle
  rw [watchIsolation_canTell, hsettled.canTell]
  apply settle_synced (hsettled.restarting ▸ hnode ▸ hr) (a := a) _ (hlinksets ▸ hs)
  simpa only [adjacentOf, ht, hsettled.topology] using ha

/-- Some route of the destination in use goes through the linkset. -/
def goesThrough (m : Management) (d : ℕ) (L : LinksetId) : Bool :=
  (m.inUse d).any fun i => (m.destinations d).routes[i]?.map RouteState.via = some (.linkset L)

/-- The linksets whose adjacent point it is. -/
def linksetsTo (m : Management) (a : ℕ) : List LinksetId :=
  m.linksetIds.filter fun L => m.adjacentOf L = some a

theorem mem_linksetsTo {m : Management} {a : ℕ} {L : LinksetId} :
    L ∈ m.linksetsTo a ↔ m.adjacentOf L = some a := by
  rw [linksetsTo, List.mem_filter, decide_eq_true_iff, linksetIds, List.mem_range]
  refine ⟨fun h => h.2, fun h => ⟨?_, h⟩⟩
  by_contra hL
  simp [adjacentOf, Topology.linkset_of_length_le (Nat.le_of_not_lt hL)] at h

/-- Management, and what every point heard last of every destination. -/
def hearing : Management × (ℕ → ℕ → Bool) → Input → Management × (ℕ → ℕ → Bool) :=
  Machine.watch step fun last m _ out => fun a d => heard m.topology a d (last a d) out.2

structure Heard (s : Management × (ℕ → ℕ → Bool)) : Prop where
  settled : ∃ w, Settled (s.1, w)
  heard : HeardIs s.1 s.2

theorem Heard.step {s : Management × (ℕ → ℕ → Bool)} (h : Heard s) (input : Input) :
    Heard (hearing s input) := by
  obtain ⟨w, hw⟩ := h.settled
  have hout : s.1.out = [] := hw.out
  have hnow : HeardIs s.1 fun a d => Mtp3.heard s.1.topology a d (s.2 a d) s.1.out := by
    rw [hout]
    exact h.heard
  exact ⟨⟨_, hw.step input⟩, (process_steps hw.calm input).heard_is hw.marked hnow⟩

theorem heard_run (topology : Topology) (timers : Timers) (tfp : Bool) (is : List Input) :
    Heard (Machine.run hearing (new topology timers tfp, fun _ _ => false) is) := by
  apply Machine.run_invariant (Q := fun _ _ => True) (fun _ i h _ => h.step i)
  · refine ⟨⟨_, settled_new topology timers tfp⟩, fun a ⟨L, hL⟩ d hd => ⟨L, hL, ?_⟩⟩
    simp [new]
  · exact Machine.along_trivial _ is

/-- Two linksets to one point. The destination behind it is reached over the second, and
over the first when that fails. -/
def twinTopology : Topology where
  ownPc := 1
  linksets := [⟨some 100, [0]⟩, ⟨some 100, [1]⟩]
  links := [⟨0, 0⟩, ⟨1, 0⟩]
  servers := 0
  routes := [(100, [⟨.linkset 0, 0⟩, ⟨.linkset 1, 0⟩]), (300, [⟨.linkset 1, 0⟩, ⟨.linkset 0, 1⟩])]
  member := by decide
  owner := by decide
  nodup := by decide
  codes := by decide
  destinations := by decide
  itu := by decide

-- The prohibition for the first linkset leaves before the allowance for the second.
example :
    let s := Machine.run hearing (new twinTopology unitTimers false, fun _ _ => false)
      [.linkUp 0, .linkUp 1, .timeout .restart, .linkDown 1 0]
    s.2 100 300 = false ∧ s.1.goesThrough 300 0 = true := by decide +kernel

/-- Management, and what every point was sent last of every destination. -/
def listening : Management × (ℕ → ℕ → Bool) → Input → Management × (ℕ → ℕ → Bool) :=
  Machine.watch handle fun last _ _ out => fun a d =>
    out.2.foldl (fun last x => match x with
      | .send dpc _ _ _ => if dpc = a then (x.speaks d).getD last else last
      | _ => last) (last a d)

end Management

end SiphonSigtran.Mtp3
