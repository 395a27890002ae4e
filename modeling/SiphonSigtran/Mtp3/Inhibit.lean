import SiphonSigtran.Mtp3.Told

/-!
# Granting an inhibit request

A request is answered by simulating the removal of the link, and granted by changing
its phase. What is reachable depends on the links that are available only, so both say
the same, and a granted request leaves every destination reachable that was.
-/

namespace SiphonSigtran.Mtp3

open Lib Management

variable {G : Guard}

theorem Move.without {P P' : Set Subject} {m m' : Management} (h : Move G P m P' m') :
    m'.without = m.without := by
  cases h <;> rfl

namespace Management

theorem process_without {m : Management} (hcalm : Calm m) (input : Input) :
    (m.process input).without = m.without := by
  apply Steps.invariant (I := fun _ m' => m'.without = m.without)
    (fun hmove h => hmove.without.trans h) (process_steps hcalm input)
  rfl

/-- What is reachable depends on which links are available. -/
theorem reachable_congr {m m' : Management} (ht : m'.topology = m.topology)
    (hl : ∀ l, m'.linkAvailable l = m.linkAvailable l) (hs : m'.servers = m.servers)
    (hd : m'.destinations = m.destinations) (d : ℕ) : m'.reachable d = m.reachable d := by
  rw [reachable, reachable, inUse_congr ht hl hs (by rw [hd]) (by rw [hd])]

theorem reachable_extend (m : Management) (xs : List Action) (d : ℕ) :
    (m.extend xs).reachable d = m.reachable d :=
  @reachable_congr m (m.extend xs) rfl (fun _ => rfl) rfl rfl d

theorem reachable_taken (m : Management) (d : ℕ) :
    { m with out := [] }.reachable d = m.reachable d :=
  @reachable_congr m { m with out := [] } rfl (fun _ => rfl) rfl rfl d

theorem reachable_setLink {m : Management} {l : LinkId} {f : LinkState → LinkState}
    (h : (f (m.links l)).phase.available = (m.links l).phase.available) (d : ℕ) :
    (m.setLink l f).reachable d = m.reachable d := by
  have hsame := linkAvailable_setLink h
  generalize hm : m.setLink l f = m' at hsame ⊢
  apply reachable_congr _ hsame
  all_goals rw [← hm, setLink]

/-- Leaving a link out of account is like having it carry no traffic. -/
theorem reachable_without {m : Management} (hw : m.without = none) {l : LinkId}
    {f : LinkState → LinkState} (h : (f (m.links l)).phase.available = false) (d : ℕ) :
    (m.setLink l f).reachable d = { m with without := some l }.reachable d := by
  have hsame : ∀ k, (m.setLink l f).linkAvailable k =
      { m with without := some l }.linkAvailable k := by
    intro k
    by_cases hk : k = l
    · subst hk
      simp [linkAvailable, h]
    · have hlk : ¬l = k := fun h => hk h.symm
      have hset : (m.setLink l f).links k = m.links k := setLink_ne m f hk
      simp only [linkAvailable, hset]
      simp [setLink, hw, hlk]
  generalize hm : m.setLink l f = m' at hsame ⊢
  apply reachable_congr _ hsame
  all_goals rw [← hm, setLink]

theorem wouldIsolate_iff {m : Management} (hw : m.without = none) (l : LinkId) :
    m.wouldIsolate l = true ↔ ∃ d, m.reachable d = true ∧
      (m.setLink l fun s => { s with phase := .closed }).reachable d = false := by
  have hsame := reachable_without hw (l := l) (f := fun s => { s with phase := .closed }) rfl
  simp only [wouldIsolate, List.any_eq_true, List.mem_filter, hsame, Bool.not_eq_true']
  constructor
  · rintro ⟨d, ⟨-, hd⟩, hout⟩
    exact ⟨d, hd, hout⟩
  · rintro ⟨d, hd, hout⟩
    refine ⟨d, ⟨?_, hd⟩, hout⟩
    by_contra hmem
    simp [reachable, inUse, destination?, hmem] at hd

/-- What an answered request leaves: a denial, or nothing that makes a link unavailable
without which something was unreachable. -/
theorem inhibit_spec {m : Management} (hw : m.without = none) {l : LinkId} {a : ℕ}
    (ha : m.adjacentOf (m.linksetOf l) = some a) (path : Path) :
    (∀ d, m.reachable d = true → (m.inhibit l path).reachable d = true) ∧
    ∃ xs : List Action, (m.inhibit l path).out = m.out ++ xs.map .act ∧
      ((∃ dpc slc p, Action.send dpc slc .lid p ∈ xs) ↔
        m.linkAvailable l = true ∧ (m.links l).remoteInhibited = false ∧
          m.wouldIsolate l = true) := by
  have hsend : ∀ (m' : Management) (message : ManagementMessage), m'.topology = m.topology →
      m'.send (m.linksetOf l) (m.slcOf l) message path =
        m'.extend [.send a (m.slcOf l) message path] := by
    intro m' message ht
    have ha' : m'.adjacentOf (m.linksetOf l) = some a := by
      simpa only [adjacentOf, ht] using ha
    rw [send, ha']
    rfl
  unfold inhibit
  extract_lets L m₁ m₂ m₃
  have hm₂ : m₂ = (m₁.extend [.send a (m.slcOf l) .lia path]).note .linkInhibited (.link l) :=
    congrArg (fun x : Management => x.note .linkInhibited (.link l)) (hsend m₁ .lia rfl)
  by_cases hi : (m.links l).remoteInhibited = true
  · rw [if_pos hi, hsend m _ rfl]
    refine ⟨fun d hd => by rwa [reachable_extend], [.send a (m.slcOf l) .lia path], rfl, ?_⟩
    simp [hi]
  rw [if_neg hi]
  have hnot : (m.links l).remoteInhibited = false := by simpa using hi
  by_cases hd : (m.linkAvailable l && m.wouldIsolate l) = true
  · rw [if_pos hd, hsend m _ rfl]
    refine ⟨fun d hd => ?_, [.send a (m.slcOf l) .lid path, .note .linkInhibitDenied (.link l)],
      by simp [note, push, extend], ?_⟩
    · rw [note, push_eq_extend, extend_extend, reachable_extend]
      exact hd
    · rw [Bool.and_eq_true] at hd
      simp [hnot, hd]
  rw [if_neg hd]
  have hgranted : ∃ (f : LinkState → LinkState) (xs : List Action),
      m₃.push (.start (.inhibitTest l) m₃.timers.t23) = (m.setLink l f).extend xs ∧
        ((m.links l).phase.available = true ∧ (f (m.links l)).phase.available = false ∨
          (m.links l).phase.available = (f (m.links l)).phase.available) ∧
        ∀ dpc slc p, Action.send dpc slc .lid p ∉ xs := by
    have hphase : (m₂.links l).phase = (m.links l).phase := by
      rw [hm₂]
      simp [note, m₁]
    rw [← hphase]
    simp only [m₃]
    cases hs : (m₂.links l).phase with
    | «open» | changebackDeclared | changebackTimed =>
      simp only [hm₂, m₁, note, push_eq_extend, setLink_extend, setLink_setLink, extend_extend]
      refine ⟨_, _, rfl, ?_, fun dpc slc p => ?_⟩
      · exact .inl ⟨rfl, rfl⟩
      · simp
    | awaitRestart =>
      simp only [hm₂, m₁, note, push_eq_extend, setLink_extend, setLink_setLink, extend_extend]
      refine ⟨_, _, rfl, ?_, fun dpc slc p => ?_⟩
      · exact .inr rfl
      · simp
    | closed | changeoverOrdered | changeoverTimed =>
      simp only [hm₂, m₁, note, push_eq_extend, extend_extend]
      refine ⟨_, _, rfl, ?_, fun dpc slc p => ?_⟩
      · exact .inr (by simp [← hphase, hs])
      · simp
  obtain ⟨f, xs, heq, hav, hlid⟩ := hgranted
  rw [heq]
  refine ⟨fun d hreach => ?_, xs, rfl, ?_⟩
  · rw [reachable_extend]
    rcases hav with ⟨hav, hoff⟩ | hsame
    · have hkept : m.wouldIsolate l = false := by
        simpa [linkAvailable, hw, hav] using hd
      rw [reachable_without hw hoff]
      by_contra hlost
      have hisolated := (wouldIsolate_iff hw l).mpr ⟨d, hreach, by
        rw [reachable_without hw rfl]
        simpa using hlost⟩
      exact Bool.false_ne_true (hkept.symm.trans hisolated)
    · rw [reachable_setLink hsame.symm]
      exact hreach
  · constructor
    · rintro ⟨dpc, slc, p, hmem⟩
      exact absurd hmem (hlid dpc slc p)
    · rintro ⟨hav, -, hisolates⟩
      exact absurd (by rw [hav, hisolates]; rfl) hd

theorem linksetOf_of_linkNamed {m : Management} {arrived l : LinkId} {opc slc : ℕ}
    (h : m.linkNamed arrived opc slc = some l) :
    ∃ L, m.linksetFrom opc arrived = some L ∧
      ((m.linksOf L).find? fun l => m.slcOf l = slc) = some l ∧ m.linksetOf l = L := by
  obtain ⟨L, hfrom, hfind⟩ := Option.bind_eq_some_iff.mp h
  exact ⟨L, hfrom, hfind, (hasLink_of_mem (List.mem_of_find?_eq_some hfind)).2⟩

/-- What settling and watching add says nothing of a link. -/
theorem belief_of_process {m : Management} {input : Input}
    (hi : ∀ d l, input ≠ .unroutable d l) :
    (∀ d, (m.process input).reachable d = (m.dispatch input).reachable d) ∧
    ∃ es, (m.process input).out = (m.dispatch input).out ++ es ∧
      ∀ dpc slc p, Action.send dpc slc .lid p ∉ actions es := by
  rw [process_of_settled hi]
  have hquiet := (settle_quiet (m.dispatch input)).2
  obtain ⟨es, hes, hbelief⟩ := hquiet.out
  refine ⟨fun d => ?_, ?_⟩
  · rw [reachable, watchIsolation_inUse]
    exact hquiet.reachable d
  · have hsaid : ∀ dpc slc p, Action.send dpc slc .lid p ∉ actions es := by
      intro dpc slc p hmem
      obtain ⟨e, he, heq⟩ := List.mem_filterMap.mp hmem
      cases e with
      | act a =>
        obtain rfl := Option.some.inj heq
        exact absurd (hbelief _ he) (by simp [Entry.belief])
      | resynced L => simp at heq
    unfold watchIsolation
    extract_lets isolated m'
    split_ifs
    · exact ⟨es, hes, hsaid⟩
    · refine ⟨es ++ [.act (.start .isolation (m.dispatch input).settle.timers.t1)], ?_, ?_⟩
      · simp [m', push, hes]
      · simpa using hsaid
    · refine ⟨es ++ [.act (.stop .isolation)], ?_, ?_⟩
      · simp [m', push, hes]
      · simpa using hsaid

/-- What a reachable state is between two inputs. -/
structure Rested (m : Management) : Prop where
  settled : ∃ w, Settled (m, w)
  without : m.without = none

theorem Rested.handle {m : Management} (h : Rested m) (input : Input) :
    Rested (m.handle input).1 := by
  obtain ⟨w, hw⟩ := h.settled
  exact ⟨⟨_, hw.step input⟩, (process_without hw.calm input).trans h.without⟩

theorem rested_run (topology : Topology) (timers : Timers) (tfp : Bool) (is : List Input) :
    Rested (Machine.run (fun m i => (m.handle i).1) (new topology timers tfp) is) := by
  apply Machine.run_invariant (Q := fun _ _ => True) (fun _ i h _ => h.handle i)
  · exact ⟨⟨_, settled_new topology timers tfp⟩, rfl⟩
  · exact Machine.along_trivial _ is

/-- Granting a request to inhibit a link cuts nothing off, and one is denied when it would. -/
theorem inhibit_cuts_nothing_off (topology : Topology) (timers : Timers) (tfp : Bool)
    (is : List Input) (arrived : LinkId) (opc slc : ℕ) (l : LinkId) :
    let m := Machine.run (fun m i => (m.handle i).1) (new topology timers tfp) is
    m.hasLink arrived = true → m.linkNamed arrived opc slc = some l →
      (∀ d, m.reachable d = true →
        (m.handle (.received arrived opc slc .lin)).1.reachable d = true) ∧
      ((∃ dpc code path,
          .send dpc code .lid path ∈ (m.handle (.received arrived opc slc .lin)).2) ↔
        m.linkAvailable l = true ∧ (m.links l).remoteInhibited = false ∧
          ∃ d, m.reachable d = true ∧
            (m.setLink l fun s => { s with phase := .closed }).reachable d = false) := by
  intro m harrived hnamed
  have hrested : Rested m := rested_run topology timers tfp is
  clear_value m
  obtain ⟨w, hw⟩ := hrested.settled
  have hout : m.out = [] := hw.out
  obtain ⟨L, hfrom, hfind, hL⟩ := linksetOf_of_linkNamed hnamed
  have ha : m.adjacentOf (m.linksetOf l) = some opc := by
    rw [hL]
    exact adjacentOf_of_linksetFrom hfrom
  have hinput : ∀ d k, Input.received arrived opc slc .lin ≠ .unroutable d k := by simp
  obtain ⟨hsettled, es, hes, hsaid⟩ := @belief_of_process m _ hinput
  have hreach : ∀ d, (m.handle (.received arrived opc slc .lin)).1.reachable d =
      (m.dispatch (.received arrived opc slc .lin)).reachable d := by
    intro d
    rw [← hsettled d]
    exact reachable_taken _ d
  have hactions : (m.handle (.received arrived opc slc .lin)).2 =
      actions ((m.dispatch (.received arrived opc slc .lin)).out ++ es) := by
    rw [← hes]
    rfl
  have hdispatch : m.dispatch (.received arrived opc slc .lin) =
      if m.restarting then m.ignored "LIN" "this node is restarting"
      else m.inhibit l (m.linkOrRoute l) := by
    simp only [dispatch, harrived, ↓reduceIte, received, hfrom, receivedFrom, hfind, linkMessage,
      inhibitMessage, ManagementMessage.ofRestart, ManagementMessage.name, Bool.not_false,
      Bool.and_true]
  rw [← wouldIsolate_iff hrested.without l]
  simp only [hreach, hactions, hdispatch]
  by_cases hr : m.restarting = true
  · -- A node that restarts has no available link, and answers nothing.
    have hoff : m.linkAvailable l = false := by
      by_contra hav
      have hphase : (m.links l).phase.available = true := by
        simpa [linkAvailable, hrested.without] using hav
      have hcarries := ((hw.phases.link l).carries hphase).2
      exact Bool.false_ne_true (hcarries.symm.trans hr)
    rw [if_pos hr]
    refine ⟨fun d hd => by rwa [ignored, push_eq_extend, reachable_extend], ?_⟩
    simp only [hoff, Bool.false_eq_true, false_and, iff_false, not_exists]
    intro dpc code path
    simp only [ignored, push, hout, actions_act, List.nil_append, List.cons_append,
      List.mem_cons, reduceCtorEq, false_or]
    exact hsaid dpc code path
  · rw [if_neg hr]
    obtain ⟨hkeeps, xs, hxs, hdenied⟩ := inhibit_spec hrested.without ha (m.linkOrRoute l)
    refine ⟨hkeeps, Iff.trans ?_ hdenied⟩
    have hmap : actions (xs.map .act) = xs := by
      simpa [extend] using actions_extend { m with out := [] } xs
    rw [hxs, hout, List.nil_append, actions_append, hmap]
    constructor
    · rintro ⟨dpc, code, path, hmem⟩
      rcases List.mem_append.mp hmem with h | h
      · exact ⟨dpc, code, path, h⟩
      · exact absurd h (hsaid dpc code path)
    · rintro ⟨dpc, code, path, hmem⟩
      exact ⟨dpc, code, path, List.mem_append_left _ hmem⟩

theorem inhibit_cuts_nothing_off_of_two :
    ∃ dpc code path, .send dpc code .lid path ∈
      ((Machine.run (fun m i => (m.handle i).1) (new pairTopology unitTimers false)
        [.linkUp 0, .timeout .restart]).handle (.received 0 100 0 .lin)).2 :=
  (inhibit_cuts_nothing_off pairTopology unitTimers false
    [.linkUp 0, .timeout .restart] 0 100 0 0 (by decide +kernel) (by decide +kernel)).2.mpr
      ⟨by decide +kernel, by decide +kernel, 100, by decide +kernel, by decide +kernel⟩

end Management

end SiphonSigtran.Mtp3
