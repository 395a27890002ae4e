import SiphonSigtran.Lib.Machine
import SiphonSigtran.Mtp3.ManagementSteps

/-!
# No link is ever stuck

A watcher of the actions knows which timers run and which links are held. It
agrees with the phase of every link: what is buffered is released by a timer
that runs, a link that is up and not inhibited carries traffic or is about to,
and one that waits for a restart waits for one that is in progress.
-/

namespace SiphonSigtran.Mtp3

open Lib Management

variable {G : Guard}

/-- What a watcher of the actions knows of the timers and the links. -/
structure Watch where
  running : Timer → Bool
  held : LinkId → Bool

namespace Watch

def new : Watch := ⟨fun _ => false, fun _ => false⟩

/-- `Hold` holds a link until the next `Open` or `Divert` of it. -/
def note (w : Watch) : Action → Watch
  | .start timer _ => { w with running := Function.update w.running timer true }
  | .stop timer => { w with running := Function.update w.running timer false }
  | .hold link => { w with held := Function.update w.held link true }
  | .open link | .divert link _ => { w with held := Function.update w.held link false }
  | _ => w

def notes (w : Watch) (xs : List Action) : Watch := xs.foldl note w

/-- A timer that ran out does not run any more. -/
def deliver (w : Watch) : Input → Watch
  | .timeout timer => { w with running := Function.update w.running timer false }
  | _ => w

@[simp] theorem notes_nil (w : Watch) : w.notes [] = w := rfl

@[simp] theorem notes_cons (w : Watch) (a : Action) (xs : List Action) :
    w.notes (a :: xs) = (w.note a).notes xs := rfl

@[simp] theorem notes_append (w : Watch) (xs ys : List Action) :
    w.notes (xs ++ ys) = (w.notes xs).notes ys := List.foldl_append

end Watch

/-- Management and its watcher after one more input. -/
def watching : Management × Watch → Input → Management × Watch :=
  Machine.watch handle fun w _ input out => (w.deliver input).notes out.2

/-- The traffic of the link is held back. -/
def Phase.buffering : Phase → Bool
  | .changeoverOrdered | .changeoverTimed | .changebackDeclared _ | .changebackTimed => true
  | _ => false

/-- The link is back, and its traffic waits to return to it. -/
def Phase.changingBack : Phase → Bool
  | .changebackDeclared _ | .changebackTimed => true
  | _ => false

/-- The timers that end what a link or a restart waits for. -/
def Timer.watched : Timer → Bool
  | .changeover _ | .changeback _ | .restart | .adjacentRestart _ => true
  | _ => false

/-- An action that concerns no watched timer and no link other than, perhaps, `link`. -/
def Action.onlyOf (link : LinkId) : Action → Bool
  | .start timer _ | .stop timer =>
    !timer.watched || timer = .changeover link || timer = .changeback link
  | .hold l | .open l | .divert l _ => l = link
  | _ => true

/-- An action that concerns no watched timer and no link. -/
def Action.inert : Action → Bool
  | .start timer _ | .stop timer => !timer.watched
  | .hold _ | .open _ | .divert _ _ => false
  | _ => true

/-- The watcher knows the same of links and watched timers. -/
structure Watch.Same (w w' : Watch) : Prop where
  held : w'.held = w.held
  running : ∀ t : Timer, t.watched = true → w'.running t = w.running t

namespace Watch

theorem Same.refl (w : Watch) : Same w w := ⟨rfl, fun _ _ => rfl⟩

theorem Same.trans {w w' w'' : Watch} (h : Same w w') (h' : Same w' w'') : Same w w'' :=
  ⟨h'.held.trans h.held, fun t ht => (h'.running t ht).trans (h.running t ht)⟩

theorem same_note (w : Watch) {a : Action} (ha : a.inert = true) : Same w (w.note a) := by
  cases a with
  | start timer | stop timer =>
    refine ⟨rfl, fun t ht => ?_⟩
    have hne : t ≠ timer := by
      rintro rfl
      simp [Action.inert, ht] at ha
    simp [note, hne]
  | hold | «open» | divert => simp [Action.inert] at ha
  | _ => exact Same.refl w

theorem same_notes (w : Watch) {xs : List Action} (hxs : ∀ a ∈ xs, a.inert = true) :
    Same w (w.notes xs) := by
  induction xs generalizing w with
  | nil => exact Same.refl w
  | cons a xs ih =>
    exact (same_note w (hxs a (by simp))).trans (ih _ fun b hb => hxs b (by simp [hb]))

/-- Actions of one link leave what is known of the other links, and of the restarts. -/
theorem notes_onlyOf (w : Watch) {l : LinkId} {xs : List Action}
    (hxs : ∀ a ∈ xs, a.onlyOf l = true) :
    (∀ k, k ≠ l → (w.notes xs).held k = w.held k) ∧
      ∀ t : Timer, t.watched = true → t ≠ .changeover l → t ≠ .changeback l →
        (w.notes xs).running t = w.running t := by
  induction xs generalizing w with
  | nil => exact ⟨fun _ _ => rfl, fun _ _ _ _ => rfl⟩
  | cons a xs ih =>
    obtain ⟨hheld, hrunning⟩ := ih (w.note a) fun b hb => hxs b (by simp [hb])
    have ha := hxs a (by simp)
    refine ⟨fun k hk => (hheld k hk).trans ?_, fun t ht ho hb => (hrunning t ht ho hb).trans ?_⟩
    · cases a with
      | hold | «open» | divert =>
        simp only [Action.onlyOf, decide_eq_true_eq] at ha
        subst ha
        simp [note, hk]
      | _ => rfl
    · cases a with
      | start timer | stop timer =>
        have hne : t ≠ timer := by
          rintro rfl
          simp [Action.onlyOf, ht, ho, hb] at ha
        simp [note, hne]
      | _ => rfl

end Watch

theorem Action.inert_of_plain {a : Action} (h : a.plain = true) : a.inert = true := by
  cases a <;> simp_all [Action.plain, Action.inert]

/-- What holds of one link: of its phase `s`, what the watcher knows, and whether it is
among what level 3 has yet to look at. -/
structure LinkPhase (P : Set Subject) (m : Management) (w : Watch) (l : LinkId) : Prop where
  held : w.held l = (m.links l).phase.buffering
  changeover : w.running (.changeover l) = (m.links l).phase.changingOver
  changeback : w.running (.changeback l) = (m.links l).phase.changingBack
  back : (m.links l).phase.changingOver = true → (m.links l).up = true →
    (m.links l).remoteInhibited = false → (m.links l).back = true
  restored : (m.links l).phase = .closed → (m.links l).up = true →
    (m.links l).remoteInhibited = false → Subject.link l ∈ P
  pending : Subject.link l ∈ P → (m.links l).up = true
  awaits : (m.links l).phase = .awaitRestart → Subject.link l ∉ P →
    m.restarting = true ∨ (m.linksets (m.linksetOf l)).restarting = true
  carries : (m.links l).phase.available = true → (m.links l).up = true ∧ m.restarting = false
  waits : (m.links l).phase = .awaitRestart → (m.links l).up = true
  known : (m.links l).up = true → m.hasLink l = true
  named : (m.links l).phase ≠ .closed → m.hasLink l = true

/-- What holds of all links, and of the restarts. -/
structure Phases (P : Set Subject) (m : Management) (w : Watch) : Prop where
  link : ∀ l, LinkPhase P m w l
  restart : m.restarting = true → w.running .restart = true
  adjacent : ∀ L, (m.linksets L).restarting = true → w.running (.adjacentRestart L) = true
  exclusive : m.restarting = true → ∀ L, (m.linksets L).restarting = false
  signalling : ∀ L, (m.linksets L).restarting = true → Subject.linkset L ∉ P →
    m.linksetSignalling L = true

theorem phases_new (topology : Topology) (timers : Timers) (tfp : Bool) :
    Phases ∅ (new topology timers tfp) Watch.new where
  link l := by
    constructor <;> simp [new, Watch.new, Phase.buffering, Phase.changingOver, Phase.changingBack,
      Phase.available]
  restart := by simp [new]
  adjacent := by simp [new]
  exclusive := by simp [new]
  signalling := by simp [new]

theorem Phases.calm {m : Management} {w : Watch} (h : Phases ∅ m w)
    (hiso : m.isolated = true → ∀ l, (m.links l).up = false) : Calm m :=
  ⟨hiso, h.exclusive⟩

theorem linksetSignalling_of_up {m : Management} {l : LinkId} (hl : m.hasLink l = true)
    (hup : (m.links l).up = true) : m.linksetSignalling (m.linksetOf l) = true := by
  refine List.any_eq_true.mpr ⟨l, ?_, hup⟩
  exact Topology.mem_links.mpr ⟨by simpa [hasLink] using hl, rfl⟩

/-! ## Moves of one link -/

section

variable {P P' : Set Subject} {m : Management} {l : LinkId} {s s' : LinkState}
  {outs : List Action}

theorem LinkMove.onlyOf (h : LinkMove G m l s s' outs P P') : ∀ a ∈ outs, a.onlyOf l = true := by
  intro a ha
  have hof := h.ofLink a ha
  cases a with
  | start timer | stop timer =>
    cases timer <;> simp_all [Action.ofLink, Action.onlyOf, Timer.watched]
  | _ => simp_all [Action.ofLink, Action.onlyOf]

theorem LinkMove.others (h : LinkMove G m l s s' outs P P') {k : LinkId} (hk : k ≠ l) :
    Subject.link k ∈ P' ↔ Subject.link k ∈ P := by
  cases h <;> simp [hk]

theorem LinkMove.linksets (h : LinkMove G m l s s' outs P P') {L : LinksetId}
    (hL : Subject.linkset L ∉ P') : Subject.linkset L ∉ P ∧
      ((s.up = true → s'.up = true) ∨ L ≠ m.linksetOf l) := by
  cases h <;> simp_all

theorem Phase.of_available {p : Phase} (h : p.available = true) : p.changingOver = false := by
  cases p <;> simp_all [Phase.available, Phase.changingOver]

theorem Phase.of_changingOver {p : Phase} (h : p.changingOver = true) :
    p.buffering = true ∧ p.changingBack = false ∧ p.available = false ∧ p ≠ .closed ∧
      p ≠ .awaitRestart := by
  cases p <;> simp_all [Phase.available, Phase.changingOver, Phase.buffering, Phase.changingBack]

/-- What a link that goes down does not carry stays as it is, or waits no longer. -/
theorem Phase.of_idle {p : Phase} (h : p.available = false) :
    (if p = .awaitRestart then Phase.closed else p).buffering = p.buffering ∧
      (if p = .awaitRestart then Phase.closed else p).changingOver = p.changingOver ∧
      (if p = .awaitRestart then Phase.closed else p).changingBack = p.changingBack ∧
      (if p = .awaitRestart then Phase.closed else p).available = false ∧
      (if p = .awaitRestart then Phase.closed else p) ≠ .awaitRestart := by
  cases p <;> simp_all [Phase.available, Phase.changingOver, Phase.buffering, Phase.changingBack]

/-- What a move makes the watcher know of its link is what the phase says. -/
theorem LinkMove.watched (h : LinkMove G m l s s' outs P P') {w : Watch}
    (hheld : w.held l = s.phase.buffering)
    (hover : w.running (.changeover l) = s.phase.changingOver)
    (hback : w.running (.changeback l) = s.phase.changingBack) :
    (w.notes outs).held l = s'.phase.buffering ∧
      (w.notes outs).running (.changeover l) = s'.phase.changingOver ∧
      (w.notes outs).running (.changeback l) = s'.phase.changingBack := by
  cases h with
  | await hl h =>
    rw [h] at hheld hover hback
    exact ⟨hheld, hover, hback⟩
  | timed hl hr h =>
    rcases h with h | h <;> rw [h] at hover
    all_goals
      simp only [Watch.notes_cons, Watch.notes_nil, Watch.note]
      refine ⟨by simp [Phase.buffering], ?_, by simp [Phase.changingBack]⟩
      simpa [Phase.changingOver] using hover
  | opened hl hr h =>
    rcases h with h | h <;> rw [h] at hheld hover hback
    all_goals exact ⟨hheld, hover, hback⟩
  | redirected declared sends hl hr h hs =>
    have hsame := Watch.same_notes (w.note (.hold l)) fun a ha => Action.inert_of_plain (hs a ha)
    have hheld' := congrFun hsame.held l
    have hover' := hsame.running (.changeover l) rfl
    rw [h] at hover
    simp only [Watch.notes_append, Watch.notes_cons, Watch.notes_nil]
    refine ⟨?_, ?_, by simp [Watch.note, Phase.changingBack]⟩
    · simpa [Watch.note, Phase.buffering] using hheld'
    · simpa [Watch.note, Phase.changingOver, hover] using hover'
  | finished h ho =>
    rw [Phase.of_available h] at hover
    simp only [Watch.notes_cons, Watch.notes_nil, Watch.note]
    refine ⟨by simp [Phase.buffering], ?_, by simp [Phase.changingBack]⟩
    simpa [Phase.changingOver] using hover
  | failed bsnt phase sends after h hp hs =>
    obtain ⟨hbuffering, hnot, -⟩ := Phase.of_changingOver hp
    have hsame := Watch.same_notes (Watch.note (Watch.note w (.stop (.changeback l))) (.hold l))
      fun a ha => Action.inert_of_plain (hs a ha)
    simp only [Watch.notes_append, Watch.notes_cons, Watch.notes_nil]
    refine ⟨?_, ?_, ?_⟩
    · have hheld' := congrFun hsame.held l
      simpa [Watch.note, hbuffering] using hheld'
    · simp [Watch.note, hp]
    · have hback' := hsame.running (.changeback l) rfl
      simpa [Watch.note, hnot] using hback'
  | surrendered bsnt fsnc h =>
    simp only [Watch.notes_cons, Watch.notes_nil, Watch.note]
    exact ⟨by simp [Phase.buffering], by simp [Phase.changingOver], by simp [Phase.changingBack]⟩
  | down bsnt h | inhibitedIdle h =>
    obtain ⟨h₁, h₂, h₃, -⟩ := Phase.of_idle h
    simp only [Watch.notes_cons, Watch.notes_nil, Watch.note, h₁, h₂, h₃]
    exact ⟨hheld, by simpa using hover, by simpa using hback⟩
  | completed fsnc h hb | returned fsnc h hb =>
    rw [(Phase.of_changingOver h).2.1] at hback
    simp only [Watch.notes_cons, Watch.notes_nil, Watch.note]
    refine ⟨by simp [Phase.buffering], by simp [Phase.changingOver], ?_⟩
    simpa [Phase.changingBack] using hback
  | inhibited h =>
    simp only [Watch.notes_cons, Watch.notes_nil, Watch.note]
    exact ⟨by simp [Phase.buffering], by simp [Phase.changingOver], by simp [Phase.changingBack]⟩
  | redeclared h =>
    rw [h] at hheld hover
    simp only [Watch.notes_cons, Watch.notes_nil, Watch.note]
    exact ⟨hheld, by simpa [Phase.changingOver] using hover, by simp [Phase.changingBack]⟩
  | _ =>
    simp only [Watch.notes_cons, Watch.notes_nil, Watch.note]
    exact ⟨hheld, by simpa using hover, by simpa using hback⟩

theorem LinkMove.back (h : LinkMove G m l s s' outs P P')
    (hback : s.phase.changingOver = true → s.up = true → s.remoteInhibited = false →
      s.back = true)
    (hover : s'.phase.changingOver = true) (hup : s'.up = true)
    (hi : s'.remoteInhibited = false) : s'.back = true := by
  cases h with
  | up h => simp_all
  | uninhibited h hn =>
    have hover' : s.phase.changingOver = true := hover
    have hup' : s.up = true := hup
    simp [hover', hup']
  | cameBack h | released _ h => simp_all [Phase.changingOver]
  | inhibited | inhibitedIdle => simp at hi
  | failed | surrendered | down => simp at hup
  | redeclared h => simp_all [Phase.changingOver]
  | timed | opened | await | completed | returned | finished | redirected =>
    simp [Phase.changingOver] at hover
  | _ => exact hback hover hup hi

theorem LinkMove.restored (h : LinkMove G m l s s' outs P P')
    (hback : s.phase.changingOver = true → s.up = true → s.remoteInhibited = false →
      s.back = true)
    (hrestored : s.phase = .closed → s.up = true → s.remoteInhibited = false →
      Subject.link l ∈ P)
    (hs : s'.phase = .closed) (hup : s'.up = true) (hi : s'.remoteInhibited = false) :
    Subject.link l ∈ P' := by
  cases h with
  | cameBack | released | returned => exact Set.mem_insert _ P
  | up h => simp_all
  | completed fsnc h hb => simp_all
  | uninhibited h hn => exact absurd ⟨hs, hup⟩ hn
  | inhibited | inhibitedIdle => simp at hi
  | failed | surrendered | down => simp at hup
  | timed | opened | await | finished | redeclared | redirected => simp at hs
  | _ => exact hrestored hs hup hi

theorem LinkMove.pending (h : LinkMove G m l s s' outs P P')
    (hpending : Subject.link l ∈ P → s.up = true) (hP : Subject.link l ∈ P') : s'.up = true := by
  cases h with
  | up | cameBack => rfl
  | returned fsnc h hb => simp_all
  | released _ h => exact h.2
  | failed | surrendered | down => simp at hP
  | timed | opened | await | redirected => simp at hP
  | _ => exact hpending hP

theorem LinkMove.carries (h : LinkMove G m l s s' outs P P')
    (hpending : Subject.link l ∈ P → s.up = true)
    (hcarries : s.phase.available = true → s.up = true ∧ m.restarting = false)
    (hs : s'.phase.available = true) : s'.up = true ∧ m.restarting = false := by
  cases h with
  | up | cameBack => exact ⟨rfl, (hcarries hs).2⟩
  | timed hl hr | opened hl hr | redirected _ _ hl hr => exact ⟨hpending hl, hr⟩
  | finished h | inhibited h => exact hcarries h
  | redeclared h => exact hcarries (by rw [h]; rfl)
  | failed bsnt phase sends after h hp => simp_all [Phase.of_changingOver hp]
  | down bsnt h | inhibitedIdle h => simp_all [Phase.of_idle h]
  | await | surrendered | completed | returned => simp [Phase.available] at hs
  | _ => exact hcarries hs

theorem LinkMove.waits (h : LinkMove G m l s s' outs P P')
    (hpending : Subject.link l ∈ P → s.up = true)
    (hwaits : s.phase = .awaitRestart → s.up = true) (hs : s'.phase = .awaitRestart) :
    s'.up = true := by
  cases h with
  | up | cameBack => rfl
  | await hl => exact hpending hl
  | failed bsnt phase sends after h hp => exact absurd hs (Phase.of_changingOver hp).2.2.2.2
  | down bsnt h | inhibitedIdle h => exact absurd hs (Phase.of_idle h).2.2.2.2
  | timed | opened | surrendered | completed | returned | finished | redeclared | inhibited
  | redirected => simp at hs
  | _ => exact hwaits hs

theorem LinkMove.awaits (h : LinkMove G m l s s' outs P P')
    (hrestored : s.phase = .closed → s.up = true → s.remoteInhibited = false →
      Subject.link l ∈ P)
    (hawaits : s.phase = .awaitRestart → Subject.link l ∉ P →
      m.restarting = true ∨ (m.linksets (m.linksetOf l)).restarting = true)
    (hs : s'.phase = .awaitRestart) (hP : Subject.link l ∉ P') :
    m.restarting = true ∨ (m.linksets (m.linksetOf l)).restarting = true := by
  cases h with
  | await hl h hr => exact hr
  | cameBack h => simp_all
  | released _ h => simp_all
  | failed bsnt phase sends after h hp => exact absurd hs (Phase.of_changingOver hp).2.2.2.2
  | down bsnt h | inhibitedIdle h => exact absurd hs (Phase.of_idle h).2.2.2.2
  | timed | opened | surrendered | completed | returned | finished | redeclared | inhibited
  | redirected => simp at hs
  | _ => exact hawaits hs hP

/-- What holds of a link holds of the one that moved. -/
theorem LinkMove.phase (h : LinkMove G m l (m.links l) s' outs P P') (hl : m.hasLink l = true)
    {w : Watch} (hi : LinkPhase P m w l) {f : LinkState → LinkState} (hf : f (m.links l) = s') :
    LinkPhase P' ((m.setLink l f).extend outs) (w.notes outs) l := by
  obtain ⟨hheld, hover, hback⟩ := h.watched hi.held hi.changeover hi.changeback
  have hlink : ((m.setLink l f).extend outs).links l = s' := by simp [hf]
  constructor
  · rwa [hlink]
  · rwa [hlink]
  · rwa [hlink]
  · rw [hlink]
    exact h.back hi.back
  · rw [hlink]
    exact h.restored hi.back hi.restored
  · rw [hlink]
    exact h.pending hi.pending
  · rw [hlink]
    exact h.awaits hi.restored hi.awaits
  · rw [hlink]
    exact h.carries hi.pending hi.carries
  · rw [hlink]
    exact h.waits hi.pending hi.waits
  · exact fun _ => hl
  · exact fun _ => hl

end

/-! ## Moves -/

section

variable {P P' : Set Subject} {m m' : Management} {w w' : Watch}

theorem LinkPhase.same {l : LinkId} (h : LinkPhase P m w l) (hheld : w'.held l = w.held l)
    (hover : w'.running (.changeover l) = w.running (.changeover l))
    (hback : w'.running (.changeback l) = w.running (.changeback l))
    (hP : Subject.link l ∈ P' ↔ Subject.link l ∈ P) (ht : m'.topology = m.topology)
    (hl : m'.links l = m.links l) (hr : m'.restarting = m.restarting)
    (hL : (m.links l).phase = .awaitRestart → (m.linksets (m.linksetOf l)).restarting = true →
      Subject.link l ∉ P → (m'.linksets (m.linksetOf l)).restarting = true) :
    LinkPhase P' m' w' l where
  held := by rw [hheld, hl, h.held]
  changeover := by rw [hover, hl, h.changeover]
  changeback := by rw [hback, hl, h.changeback]
  back := by rw [hl]; exact h.back
  restored := by rw [hl, hP]; exact h.restored
  pending := by rw [hl, hP]; exact h.pending
  awaits := by
    have hset : m'.linksetOf l = m.linksetOf l := by simp only [linksetOf, ht]
    rw [hl, hr, hset, hP]
    exact fun hs hp => (h.awaits hs hp).imp_right fun hr => hL hs hr hp
  carries := by rw [hl, hr]; exact h.carries
  waits := by rw [hl]; exact h.waits
  known := by
    have hhas : m'.hasLink l = m.hasLink l := by simp only [hasLink, ht]
    rw [hl, hhas]
    exact h.known
  named := by
    have hhas : m'.hasLink l = m.hasLink l := by simp only [hasLink, ht]
    rw [hl, hhas]
    exact h.named

theorem Phases.same (h : Phases P m w) (hw : Watch.Same w w')
    (ht : m'.topology = m.topology) (hl : m'.links = m.links)
    (hr : m'.restarting = m.restarting)
    (hL : ∀ L, (m'.linksets L).restarting = (m.linksets L).restarting) : Phases P m' w' where
  link l := (h.link l).same (congrFun hw.held l) (hw.running _ rfl) (hw.running _ rfl) Iff.rfl ht
    (congrFun hl l) hr fun _ hr _ => (hL _).trans hr
  restart := by rw [hr, hw.running _ rfl]; exact h.restart
  adjacent L := by rw [hL, hw.running _ rfl]; exact h.adjacent L
  exclusive := by simpa only [hr, hL] using h.exclusive
  signalling L := by
    have hsig : m'.linksetSignalling L = m.linksetSignalling L := by
      simp only [linksetSignalling, linksOf, ht, hl]
    rw [hL, hsig]
    exact h.signalling L

/-- A move that says nothing of links and watched timers, and moves none. -/
theorem Phases.say (h : Phases P m w) {xs : List Action} (hxs : ∀ a ∈ xs, a.inert = true)
    (ht : m'.topology = m.topology) (hl : m'.links = m.links)
    (hr : m'.restarting = m.restarting)
    (hL : ∀ L, (m'.linksets L).restarting = (m.linksets L).restarting) :
    Phases P m' (w.notes xs) := h.same (Watch.same_notes w hxs) ht hl hr hL

theorem Phases.link_move {l : LinkId} {f : LinkState → LinkState} {outs : List Action}
    (hi : Phases P m w) (hl : m.hasLink l = true)
    (h : LinkMove G m l (m.links l) (f (m.links l)) outs P P') :
    Phases P' ((m.setLink l f).extend outs) (w.notes outs) := by
  obtain ⟨hheld, hrunning⟩ := Watch.notes_onlyOf w h.onlyOf
  constructor
  · intro k
    by_cases hk : k = l
    · rw [hk]
      exact h.phase hl (hi.link l) rfl
    · exact (hi.link k).same (hheld k hk) (hrunning _ rfl (by simp [hk]) (by simp))
        (hrunning _ rfl (by simp) (by simp [hk])) (h.others hk) rfl (setLink_ne m f hk) rfl
        fun _ hr _ => hr
  · rw [hrunning _ rfl (by simp) (by simp)]
    exact hi.restart
  · intro L
    rw [hrunning _ rfl (by simp) (by simp)]
    exact hi.adjacent L
  · exact hi.exclusive
  · intro L hr hL
    obtain ⟨hbefore, hup⟩ := h.linksets hL
    obtain ⟨k, hk, hkup⟩ := List.any_eq_true.mp (hi.signalling L hr hbefore)
    refine List.any_eq_true.mpr ⟨k, hk, ?_⟩
    by_cases hkl : k = l
    · subst hkl
      rcases hup with hup | hup
      · simpa using hup hkup
      · exact absurd (hasLink_of_mem hk).2.symm hup
    · rw [extend_links, setLink_ne m f hkl]
      exact hkup

/-- Actions that are left, and what was left before them. -/
theorem actions_extend (m : Management) (xs : List Action) :
    actions (m.extend xs).out = actions m.out ++ xs := by
  have hmap : ∀ xs : List Action, actions (xs.map .act) = xs := by
    intro xs
    induction xs with
    | nil => rfl
    | cons a xs ih => simp [ih]
  simp [extend, hmap]

theorem actions_push (m : Management) (a : Action) :
    actions (m.push a).out = actions m.out ++ [a] := actions_extend m [a]

theorem MarkMove.inert {timers : Timers} {dpc : ℕ} {L : LinksetId} {status : RouteStatus}
    {d d' : DestinationState} {outs : List Action} (h : MarkMove timers dpc L status d d' outs)
    (hd : ∀ a ∈ d.deferred, ∃ L status, a = Action.route dpc L status) :
    ∀ a ∈ outs, a.inert = true := by
  have hheld : ∀ a ∈ d.deferred, a.inert = true := by
    intro a ha
    obtain ⟨L, status, rfl⟩ := hd a ha
    rfl
  cases h with
  | marked | deferred | held => simp [Action.inert, Timer.watched]
  | forced =>
    intro a ha
    rcases List.mem_append.mp ha with ha | ha
    · exact hheld a ha
    · rw [List.mem_singleton.mp ha]
      rfl
  | released =>
    intro a ha
    simp only [List.append_assoc, List.mem_append, List.mem_cons, List.not_mem_nil,
      or_false] at ha
    rcases ha with ha | rfl | rfl | rfl
    · exact hheld a ha
    all_goals rfl

/-! ## Restarts -/

theorem Phases.begin_restart (hi : Phases ∅ m w) (hup : ∀ l, (m.links l).up = false) :
    Phases ∅
      ({ m with restarting := true, restartDue := false }.extend
        [.restarting true, .start .restart m.timers.t18, .start .restartOverall m.timers.t20])
      (w.notes
        [.restarting true, .start .restart m.timers.t18, .start .restartOverall m.timers.t20]) := by
  have hnone : ∀ L, (m.linksets L).restarting = false := by
    intro L
    by_contra hL
    obtain ⟨k, -, hk⟩ := List.any_eq_true.mp (hi.signalling L (by simpa using hL) (by simp))
    rw [hup k] at hk
    exact Bool.false_ne_true hk
  constructor
  · intro k
    have hk := hi.link k
    constructor
    · exact hk.held
    · simpa [Watch.note] using hk.changeover
    · simpa [Watch.note] using hk.changeback
    · exact hk.back
    · exact hk.restored
    · exact hk.pending
    · exact fun _ _ => .inl rfl
    · exact fun hs => absurd (hk.carries hs).1 (by rw [hup k]; exact Bool.false_ne_true)
    · exact hk.waits
    · exact hk.known
    · exact hk.named
  · exact fun _ => by simp [Watch.note]
  · exact fun L hL => absurd hL (by simp [extend, hnone L])
  · exact fun _ => hnone
  · exact hi.signalling

theorem Phases.end_restart (hi : Phases P m w) (hr : m.restarting = true) :
    Phases P
      { m with
        restarting := false
        links := fun l =>
          if (m.links l).phase = .awaitRestart then { m.links l with phase := .open }
          else m.links l
        linksets := fun l => { m.linksets l with synced := false }
        out := m.out ++ [.act (.stop .restart), .act (.stop .restartOverall)] }
      (w.notes [.stop .restart, .stop .restartOverall]) := by
  have hnone := hi.exclusive hr
  constructor
  · intro k
    have hk := hi.link k
    by_cases hs : (m.links k).phase = .awaitRestart
    · have hup := hk.waits hs
      have hheld := hk.held
      have hover := hk.changeover
      have hback := hk.changeback
      rw [hs] at hheld hover hback
      constructor <;> simp only [hs, ↓reduceIte]
      · exact hheld
      · simpa [Watch.note, Phase.changingOver] using hover
      · simpa [Watch.note, Phase.changingBack] using hback
      · simp [Phase.changingOver]
      · simp
      · exact fun _ => hup
      · simp
      · exact fun _ => ⟨hup, trivial⟩
      · simp
      · exact hk.known
      · exact fun _ => hk.known hup
    · constructor <;> simp only [hs, ↓reduceIte]
      · exact hk.held
      · simpa [Watch.note] using hk.changeover
      · simpa [Watch.note] using hk.changeback
      · exact hk.back
      · exact hk.restored
      · exact hk.pending
      · exact fun h => absurd h id
      · exact fun h => ⟨(hk.carries h).1, trivial⟩
      · exact fun h => absurd h id
      · exact hk.known
      · exact hk.named
  · exact fun h => absurd h Bool.false_ne_true
  · exact fun L hL => absurd hL (by simp [hnone L])
  · exact fun h => absurd h Bool.false_ne_true
  · exact fun L hL => absurd hL (by simp [hnone L])

theorem Phases.begin_adjacent {l : LinkId} (hi : Phases P m w) (hl : m.hasLink l = true)
    (hp : Subject.link l ∈ P) (hs : (m.links l).phase = .closed) (hr : m.restarting = false) :
    Phases (P \ {Subject.link l})
      (((m.setLinkset (m.linksetOf l) fun s =>
        { s with restarting := true, traReceived := false }).setLink l fun s =>
          { s with phase := .awaitRestart }).push
            (.start (.adjacentRestart (m.linksetOf l)) m.timers.t21))
      (w.notes [.start (.adjacentRestart (m.linksetOf l)) m.timers.t21]) := by
  have hup := (hi.link l).pending hp
  have hgrow : ∀ L, (m.linksets L).restarting = true →
      ((m.setLinkset (m.linksetOf l) fun s =>
        { s with restarting := true, traReceived := false }).linksets L).restarting = true := by
    intro L hL
    by_cases h : L = m.linksetOf l <;> simp [setLinkset, h, hL]
  constructor
  · intro k
    have hk := hi.link k
    by_cases hkl : k = l
    · subst hkl
      have hheld := hk.held
      have hover := hk.changeover
      have hback := hk.changeback
      rw [hs] at hheld hover hback
      constructor <;> simp only [push_links, setLink_self]
      · exact hheld
      · simpa [Watch.note, Phase.changingOver] using hover
      · simpa [Watch.note, Phase.changingBack] using hback
      · simp [Phase.changingOver]
      · simp
      · exact fun _ => hup
      · exact fun _ _ => .inr (by simp [push, setLink, linksetOf, setLinkset])
      · simp [Phase.available]
      · exact fun _ => hup
      · exact fun _ => hl
      · exact fun _ => hl
    · refine hk.same rfl ?_ ?_ (by simp [hkl]) rfl ?_ rfl fun _ h _ => hgrow _ h
      · simp [Watch.note]
      · simp [Watch.note]
      · rw [push_links, setLink_ne _ _ hkl, setLinkset_links]
  · exact fun h => absurd (hr.symm.trans h) Bool.false_ne_true
  · intro K hK
    by_cases hKL : K = m.linksetOf l
    · simp [Watch.note, hKL]
    · have hK' : (m.linksets K).restarting = true := by
        simpa [push, setLink, setLinkset, hKL] using hK
      simpa [Watch.note, hKL] using hi.adjacent K hK'
  · exact fun h => absurd (hr.symm.trans h) Bool.false_ne_true
  · intro K hK hnot
    have hsig : m.linksetSignalling K = true := by
      by_cases hKL : K = m.linksetOf l
      · exact hKL ▸ linksetSignalling_of_up hl hup
      · refine hi.signalling K ?_ fun h => hnot ⟨h, by simp⟩
        simpa [push, setLink, setLinkset, hKL] using hK
    obtain ⟨k, hk, hkup⟩ := List.any_eq_true.mp hsig
    refine List.any_eq_true.mpr ⟨k, hk, ?_⟩
    by_cases hkl : k = l
    · simpa [hkl] using hup
    · rw [push_links, setLink_ne _ _ hkl]
      exact hkup

/-- What is known of the watched timers when an adjacent point's restart has ended. -/
private theorem stop_adjacent (w : Watch) (L : LinksetId) :
    ∀ t : Timer, t ≠ .adjacentRestart L →
      (w.notes [.stop (.adjacentRestart L)]).running t = w.running t := by
  intro t ht
  simp [Watch.note, ht]

/-- The restart of an adjacent point ends, for links `E` that then wait for level 3. -/
theorem Phases.stop_restart {L : LinksetId} {E : Set LinkId} (hi : Phases P m w)
    (hE : ∀ l ∈ E, (m.links l).phase = .awaitRestart)
    (hawaits : ∀ l, (m.links l).phase = .awaitRestart → m.linksetOf l = L → l ∉ E →
      m.restarting = true)
    (hP : ∀ l, Subject.link l ∈ P' ↔ Subject.link l ∈ P ∨ l ∈ E)
    (hPL : ∀ K, K ≠ L → Subject.linkset K ∉ P' → Subject.linkset K ∉ P) :
    Phases P' ((m.setLinkset L fun s => { s with restarting := false }).push
      (.stop (.adjacentRestart L))) (w.notes [.stop (.adjacentRestart L)]) := by
  have hother : ∀ K, (((m.setLinkset L fun s => { s with restarting := false }).push
      (.stop (.adjacentRestart L))).linksets K).restarting = true →
        K ≠ L ∧ (m.linksets K).restarting = true := by
    intro K hK
    by_cases hKL : K = L
    · simp [push, setLinkset, hKL] at hK
    · exact ⟨hKL, by simpa [push, setLinkset, hKL] using hK⟩
  constructor
  · intro k
    have hk := hi.link k
    constructor
    · exact hk.held
    · rw [stop_adjacent w L _ (by simp)]
      exact hk.changeover
    · rw [stop_adjacent w L _ (by simp)]
      exact hk.changeback
    · exact hk.back
    · exact fun hs hup hinh => (hP k).mpr (.inl (hk.restored hs hup hinh))
    · intro hmem
      rcases (hP k).mp hmem with hmem | hmem
      · exact hk.pending hmem
      · exact hk.waits (hE k hmem)
    · intro hs hnot
      have hnotP : Subject.link k ∉ P := fun h => hnot ((hP k).mpr (.inl h))
      have hnotE : k ∉ E := fun h => hnot ((hP k).mpr (.inr h))
      rcases hk.awaits hs hnotP with hr | hr
      · exact .inl hr
      · by_cases hkL : m.linksetOf k = L
        · exact .inl (hawaits k hs hkL hnotE)
        · have hsame : ((m.setLinkset L fun s => { s with restarting := false }).linksets
              (m.linksetOf k)) = m.linksets (m.linksetOf k) := setLinkset_ne m _ hkL
          exact .inr ((congrArg LinksetState.restarting hsame).trans hr)
    · exact hk.carries
    · exact hk.waits
    · exact hk.known
    · exact hk.named
  · exact fun hr => (stop_adjacent w L _ (by simp)).trans (hi.restart hr)
  · intro K hK
    obtain ⟨hKL, hK⟩ := hother K hK
    rw [stop_adjacent w L _ (by simp [hKL])]
    exact hi.adjacent K hK
  · intro hr K
    by_contra hK
    obtain ⟨-, hK⟩ := hother K (by simpa using hK)
    rw [hi.exclusive hr K] at hK
    exact Bool.false_ne_true hK
  · intro K hK hnot
    obtain ⟨hKL, hK⟩ := hother K hK
    exact hi.signalling K hK (hPL K hKL hnot)

theorem Phases.end_adjacent (hi : Phases P m w) (L : LinksetId) :
    Phases (P ∪ {x | ∃ l ∈ m.linksOf L, (m.links l).phase = .awaitRestart ∧ x = .link l})
      ((m.setLinkset L fun s => { s with restarting := false }).push (.stop (.adjacentRestart L)))
      (w.notes [.stop (.adjacentRestart L)]) := by
  refine hi.stop_restart (E := {l | l ∈ m.linksOf L ∧ (m.links l).phase = .awaitRestart})
    (fun l hl => hl.2) ?_ ?_ ?_
  · intro l hs hL hnot
    have hhas := (hi.link l).known ((hi.link l).waits hs)
    refine absurd ⟨?_, hs⟩ hnot
    exact Topology.mem_links.mpr ⟨by simpa [hasLink] using hhas, hL⟩
  · intro l
    simp only [Set.mem_union, Set.mem_ofPred_eq, Subject.link.injEq]
    constructor
    · rintro (h | ⟨k, hk, hs, rfl⟩)
      · exact .inl h
      · exact .inr ⟨hk, hs⟩
    · rintro (h | ⟨hk, hs⟩)
      · exact .inl h
      · exact .inr ⟨l, hk, hs, rfl⟩
  · exact fun K _ hnot h => hnot (.inl h)

theorem Phases.lose_adjacent {L : LinksetId} (hi : Phases P m w)
    (hs : m.linksetSignalling L = false) :
    Phases (P \ {Subject.linkset L})
      ((m.setLinkset L fun s => { s with restarting := false }).push (.stop (.adjacentRestart L)))
      (w.notes [.stop (.adjacentRestart L)]) := by
  refine hi.stop_restart (E := ∅) (fun l hl => absurd hl (Set.notMem_empty l)) ?_ (by simp) ?_
  · intro l hw hL _
    have hup := (hi.link l).waits hw
    have hsig := linksetSignalling_of_up ((hi.link l).known hup) hup
    rw [hL, hs] at hsig
    exact absurd hsig Bool.false_ne_true
  · exact fun K hKL hnot h => hnot ⟨h, by simpa using hKL⟩

/-- Every move keeps what holds of the links. -/
theorem Move.phases (h : Move G P m P' m') (hm : Marked m)
    (hi : Phases P m (w.notes (actions m.out))) : Phases P' m' (w.notes (actions m'.out)) := by
  cases h with
  | say a ha =>
    rw [push_eq_extend, actions_extend, Watch.notes_append]
    exact hi.say (by simpa using Action.inert_of_plain ha) rfl rfl rfl fun _ => rfl
  | link l f outs hl hmove =>
    rw [actions_extend, Watch.notes_append]
    exact hi.link_move hl hmove
  | unmarked d | unguard d | due on | served servers | paused d | codes code =>
    exact hi.same (Watch.Same.refl _) rfl rfl rfl fun _ => rfl
  | guard d =>
    unfold Management.guard
    rw [actions_push, Watch.notes_append]
    exact hi.say (by simp [Action.inert, Timer.watched]) rfl rfl rfl fun _ => rfl
  | accessible d on | restricted d on | asked L adjacent d | testing L d | restarted =>
    rw [actions_push, Watch.notes_append]
    exact hi.say (by simp [Action.inert, Timer.watched]) rfl rfl rfl fun _ => rfl
  | toldUnknown L adjacent d message hr ha hd htext =>
    rw [actions_push, Watch.notes_append]
    exact hi.say (by simp [Action.inert]) rfl rfl rfl fun _ => rfl
  | isolated on =>
    rw [actions_push, Watch.notes_append]
    refine hi.say ?_ rfl rfl rfl fun _ => rfl
    cases on <;> simp [Action.inert, Timer.watched]
  | unsync L | flags L | unguards L =>
    refine hi.same (Watch.Same.refl _) rfl rfl rfl fun K => ?_
    by_cases hK : K = L <;> simp [setLinkset, hK]
  | guards L =>
    rw [actions_push, Watch.notes_append]
    refine hi.say (by simp [Action.inert, Timer.watched]) rfl rfl rfl fun K => ?_
    by_cases hK : K = L <;> simp [setLinkset, Management.push, hK]
  | resync L =>
    have hout : actions (m.resync L).out = actions m.out := by simp [Management.resync]
    rw [hout]
    refine hi.same (Watch.Same.refl _) rfl rfl rfl fun K => ?_
    by_cases hK : K = L <;> simp [Management.resync, setLinkset, hK]
  | told L adjacent d want =>
    rw [actions_extend, Watch.notes_append]
    refine hi.say (fun a ha => ?_) rfl rfl rfl fun _ => rfl
    obtain ⟨message, -, rfl⟩ := Option.map_eq_some_iff.mp (Option.mem_toList.mp ha)
    rfl
  | allow L =>
    simp only [allowRoutesThrough, actions_extend, Watch.notes_append]
    refine hi.say (fun a ha => ?_) rfl rfl rfl fun _ => rfl
    obtain ⟨d, -, ha⟩ := List.mem_flatMap.mp ha
    simp only [List.mem_cons, List.not_mem_nil, or_false] at ha
    rcases ha with rfl | rfl <;> rfl
  | mark d L status position d' outs hg hd hp hs hmark =>
    rw [actions_extend, Watch.notes_append]
    refine hi.say (fun a ha => ?_) rfl rfl rfl fun _ => rfl
    rcases List.mem_cons.mp ha with rfl | ha
    · unfold testTimer
      split_ifs <;> rfl
    · exact hmark.inert (hm d) a ha
  | release d =>
    rw [actions_extend, Watch.notes_append]
    refine hi.say (fun a ha => ?_) rfl rfl rfl fun _ => rfl
    rcases List.mem_append.mp ha with ha | ha
    · obtain ⟨L, status, rfl⟩ := hm d a ha
      rfl
    · rw [List.mem_singleton.mp ha]
      rfl
  | beginRestart hr hup =>
    rw [actions_extend, Watch.notes_append]
    exact hi.begin_restart hup
  | endRestart hr =>
    have hout : actions (m.out ++ [.act (.stop .restart), .act (.stop .restartOverall)]) =
        actions m.out ++ [.stop .restart, .stop .restartOverall] := by simp
    rw [hout, Watch.notes_append]
    exact hi.end_restart hr
  | opens l h =>
    rw [actions_push, Watch.notes_append]
    refine hi.same ⟨?_, fun _ _ => rfl⟩ rfl rfl rfl fun _ => rfl
    funext k
    by_cases hk : k = l
    · subst hk
      have hheld := (hi.link k).held
      rw [h] at hheld
      simpa [Watch.note, Phase.buffering] using hheld.symm
    · simp [Watch.note, hk]
  | beginAdjacent l hl hp hs hr ha =>
    rw [actions_push, Watch.notes_append]
    exact hi.begin_adjacent hl hp hs hr
  | endAdjacent L hn hr =>
    rw [actions_push, Watch.notes_append]
    exact hi.end_adjacent L
  | loseAdjacent L hr hs =>
    rw [actions_push, Watch.notes_append]
    exact hi.lose_adjacent hs
  | keepAdjacent L h =>
    refine ⟨fun k => ?_, hi.restart, hi.adjacent, hi.exclusive, fun K hK hnot => ?_⟩
    · exact (hi.link k).same rfl rfl rfl (by simp) rfl rfl rfl fun _ hr _ => hr
    · by_cases hKL : K = L
      · exact hKL ▸ h (hKL ▸ hK)
      · exact hi.signalling K hK fun hmem => hnot ⟨hmem, by simpa using hKL⟩

end

theorem Steps.phases {P P' : Set Subject} {m m' : Management} {w : Watch}
    (h : Steps G P m P' m') (hm : Marked m) (hi : Phases P m (w.notes (actions m.out))) :
    Marked m' ∧ Phases P' m' (w.notes (actions m'.out)) :=
  Steps.invariant (I := fun P m => Marked m ∧ Phases P m (w.notes (actions m.out)))
    (fun hmove hI => ⟨hmove.marked hI.1, hmove.phases hI.1 hI.2⟩) h ⟨hm, hi⟩

/-! ## Inputs -/

namespace Management

/-- An input leaves a node that knows itself isolated without a link that is up. -/
theorem watchIsolation_spec {m : Management} (hknown : ∀ l, (m.links l).up = true →
    m.hasLink l = true) (hiso : m.watchIsolation.isolated = true) (l : LinkId) :
    (m.watchIsolation.links l).up = false := by
  have hlinks : m.watchIsolation.links = m.links := by
    unfold watchIsolation
    extract_lets isolated m₁
    split_ifs <;> rfl
  have hisolated : m.watchIsolation.isolated = (!(m.linkIds.any fun l => (m.links l).up) &&
      !((List.range m.topology.servers).any m.servers)) := by
    unfold watchIsolation
    extract_lets isolated m₁
    split_ifs with h
    · exact h.symm
    all_goals rfl
  rw [hlinks]
  rw [hisolated, Bool.and_eq_true, Bool.not_eq_true', List.any_eq_false] at hiso
  by_contra hup
  have hup' : (m.links l).up = true := by simpa using hup
  refine hiso.1 l ?_ hup'
  simpa [linkIds, hasLink] using hknown l hup'

/-- What holds between two inputs: of the state, and of what the watcher knows. -/
structure Settled (s : Management × Watch) : Prop where
  marked : Marked s.1
  phases : Phases ∅ s.1 s.2
  isolated : s.1.isolated = true → ∀ l, (s.1.links l).up = false
  out : s.1.out = []

theorem Settled.calm {s : Management × Watch} (h : Settled s) : Calm s.1 :=
  h.phases.calm h.isolated

/-- An input that is not watched by a timer that runs keeps what holds of the links. -/
theorem process_phases {m : Management} {w : Watch} (hcalm : Calm m) (hm : Marked m)
    (hout : m.out = []) (hi : Phases ∅ m w) (input : Input) :
    Marked (m.process input) ∧
      Phases ∅ (m.process input) (w.notes (actions (m.process input).out)) :=
  (process_steps hcalm input).phases hm (by simpa [hout] using hi)

theorem process_isolated {m : Management} {w : Watch} (hcalm : Calm m) (hm : Marked m)
    (hi : Phases ∅ m w) (hout : m.out = []) (input : Input) :
    (m.process input).isolated = true → ∀ l, ((m.process input).links l).up = false := by
  have hdispatched := (dispatch_steps hcalm input).phases hm (by simpa [hout] using hi)
  have hsettled := (Steps.refl (G := .any) ∅ _).settle.phases hdispatched.1 hdispatched.2
  have hwatched := watchIsolation_spec fun l => (hsettled.2.link l).known
  unfold process
  split
  · next d l =>
    split_ifs with hl
    · have hquiet := (unroutable_quiet m d l).2
      have hdispatch : m.dispatch (.unroutable d l) = m.unroutable d l := by
        simp only [dispatch, hl, ↓reduceIte]
      rw [hdispatch, hquiet.isolated, hquiet.links]
      exact hcalm.isolated
    · exact hwatched
  · exact hwatched

end Management

/-- The action starts or stops the timer. -/
def Action.sets (timer : Timer) : Action → Bool
  | .start t _ | .stop t => t = timer
  | _ => false

namespace Watch

/-- What a timer does is said by the last action that sets it. -/
theorem notes_sets {t : Timer} {xs : List Action} (h : ∃ a ∈ xs, a.sets t = true)
    {w w' : Watch} (hheld : w'.held = w.held)
    (hrunning : ∀ t', t' ≠ t → w'.running t' = w.running t') : w'.notes xs = w.notes xs := by
  induction xs generalizing w w' with
  | nil => simp at h
  | cons a xs ih =>
    have hnote : (w'.note a).held = (w.note a).held := by
      cases a <;> simp [note, hheld]
    have hother : ∀ t', t' ≠ t → (w'.note a).running t' = (w.note a).running t' := by
      intro t' ht'
      cases a with
      | start timer | stop timer =>
        by_cases htimer : t' = timer <;> simp [note, htimer, hrunning t' ht']
      | _ => exact hrunning t' ht'
    by_cases ha : a.sets t = true
    · have hsame : w'.note a = w.note a := by
        have hat : (w'.note a).running t = (w.note a).running t := by
          cases a with
          | start timer | stop timer =>
            simp only [Action.sets, decide_eq_true_eq] at ha
            simp [note, ha]
          | _ => simp [Action.sets] at ha
        have hfun : (w'.note a).running = (w.note a).running := by
          funext t'
          by_cases ht' : t' = t
          · rw [ht', hat]
          · exact hother t' ht'
        exact (Watch.mk.injEq ..).mpr ⟨hfun, hnote⟩
      rw [notes_cons, notes_cons, hsame]
    · rw [notes_cons, notes_cons]
      refine ih ?_ hnote hother
      obtain ⟨b, hb, hbt⟩ := h
      rcases List.mem_cons.mp hb with rfl | hb
      · exact absurd hbt ha
      · exact ⟨b, hb, hbt⟩

end Watch

/-- What the timer would end is there. -/
def Timer.live (m : Management) : Timer → Bool
  | .changeover l => (m.links l).phase.changingOver
  | .changeback l => (m.links l).phase.changingBack
  | .restart => m.restarting
  | .adjacentRestart L => (m.linksets L).restarting
  | _ => false

/-- Nothing is lost with a timer that ends nothing. -/
theorem Phases.deliver {m : Management} {w : Watch} (hi : Phases ∅ m w) {t : Timer}
    (ht : t.live m = false) : Phases ∅ m (w.deliver (.timeout t)) := by
  have hrunning : ∀ t', (w.deliver (.timeout t)).running t' =
      if t' = t then false else w.running t' := by
    intro t'
    simp [Watch.deliver, Function.update_apply]
  constructor
  · intro l
    have hl := hi.link l
    refine ⟨hl.held, ?_, ?_, hl.back, hl.restored, hl.pending, hl.awaits, hl.carries, hl.waits,
      hl.known, hl.named⟩
    · rw [hrunning]
      split_ifs with h
      · rw [← ht, ← h]
        rfl
      · exact hl.changeover
    · rw [hrunning]
      split_ifs with h
      · rw [← ht, ← h]
        rfl
      · exact hl.changeback
  · intro hr
    rw [hrunning]
    split_ifs with h
    · subst h
      exact absurd (ht.symm.trans hr) Bool.false_ne_true
    · exact hi.restart hr
  · intro L hL
    rw [hrunning]
    split_ifs with h
    · subst h
      exact absurd (ht.symm.trans hL) Bool.false_ne_true
    · exact hi.adjacent L hL
  · exact hi.exclusive
  · exact hi.signalling

namespace Management

theorem sets_of_steps {P P' : Set Subject} {m m₁ m' : Management} {t : Timer} {es : List Entry}
    (hout : m₁.out = m.out ++ es) (hset : ∃ a ∈ actions es, a.sets t = true)
    (h : Steps G P m₁ P' m') : ∃ es, m'.out = m.out ++ es ∧ ∃ a ∈ actions es, a.sets t = true := by
  obtain ⟨es', he'⟩ := h.out
  obtain ⟨a, ha, hat⟩ := hset
  refine ⟨es ++ es', by rw [he', hout, List.append_assoc], a, ?_, hat⟩
  rw [actions_append]
  exact List.mem_append_left _ ha

theorem completeChangeover_sets {m : Management} {l : LinkId} (hl : m.hasLink l = true)
    (how : Option Procedure) : ∃ es, (m.completeChangeover l none how).out = m.out ++ es ∧
      ∃ a ∈ actions es, a.sets (.changeover l) = true := by
  rw [completeChangeover_eq]
  extract_lets m'
  have hout : m'.out = m.out ++ [.act (.stop (.changeover l)), .act (.divert l none),
      .act (.note (how.getD .changeoverEmergency) (.link l))] := by
    simp [m', note, push, extend, setLink]
  have hlater : ∃ P, Steps .any {Subject.link l} m' P
      (if (m.links l).back && (m.links l).up && !(m.links l).remoteInhibited then m'.restore l
        else m') := by
    split_ifs
    · exact ⟨_, restore_steps (fun _ => trivial) hl (Set.mem_singleton _) (by simp [m', note])⟩
    · exact ⟨_, Steps.refl _ m'⟩
  obtain ⟨P, hlater⟩ := hlater
  exact sets_of_steps hout ⟨.stop (.changeover l), by simp, by simp [Action.sets]⟩ hlater

/-- A timer that ends something starts again or is stopped when it runs out. -/
theorem timeout_sets {m : Management} {w : Watch} (hi : Phases ∅ m w) {t : Timer}
    (ht : t.live m = true) : ∃ es, (m.timeout t).out = m.out ++ es ∧
      ∃ a ∈ actions es, a.sets t = true := by
  cases t with
  | changeover l =>
    have hl : m.hasLink l = true := (hi.link l).named (Phase.of_changingOver ht).2.2.2.1
    unfold timeout
    simp only [hl, ↓reduceIte]
    cases hs : (m.links l).phase <;> simp [Timer.live, hs, Phase.changingOver] at ht
    all_goals exact completeChangeover_sets hl _
  | changeback l =>
    have hl : m.hasLink l = true := (hi.link l).named fun h => by
      simp [Timer.live, h, Phase.changingBack] at ht
    have hfinished : ∀ how, ∃ es, (m.finishChangeback l how).out = m.out ++ es ∧
        ∃ a ∈ actions es, a.sets (.changeback l) = true := fun how =>
      ⟨[.act (.stop (.changeback l)), .act (.open l), .act (.note how (.link l))],
        by simp [finishChangeback, note, push, setLink], .stop (.changeback l), by simp,
        by simp [Action.sets]⟩
    unfold timeout
    simp only [hl, ↓reduceIte]
    cases hs : (m.links l).phase with
    | changebackDeclared second =>
      cases second with
      | false =>
        obtain ⟨xs, hxs, -⟩ := redeclare_extend m l (m.links l).declared
        refine ⟨xs.map .act ++ [.act (.start (.changeback l) m.timers.t5)], ?_,
          .start (.changeback l) m.timers.t5, by simp, by simp [Action.sets]⟩
        simp [hxs, push, extend, setLink]
      | true => exact hfinished _
    | changebackTimed => exact hfinished _
    | _ => simp [Timer.live, hs, Phase.changingBack] at ht
  | restart =>
    obtain ⟨m', -, hout, hsteps⟩ := endRestart_moves (G := .any) ∅ ht
    exact sets_of_steps hout ⟨.stop .restart, by simp, by simp [Action.sets]⟩ hsteps
  | adjacentRestart L =>
    have hL : (m.linksets L).restarting = true := ht
    obtain ⟨k, hk, -⟩ := List.any_eq_true.mp (hi.signalling L hL (Set.notMem_empty _))
    have hhas : m.hasLinkset L = true := by
      simpa [hasLinkset] using Topology.lt_of_mem hk
    have hn : m.restarting = false := by
      by_contra hr
      rw [hi.exclusive (by simpa using hr) L] at hL
      exact Bool.false_ne_true hL
    obtain ⟨P, m', -, hout, hsteps⟩ :=
      endAdjacentRestart_moves (G := .any) hn hL .adjacentRestartExpired
    unfold timeout
    simp only [hhas, hL, Bool.and_self, ↓reduceIte]
    exact sets_of_steps hout ⟨.stop (.adjacentRestart L), by simp, by simp [Action.sets]⟩ hsteps
  | _ => simp [Timer.live] at ht

/-- Every input keeps what holds between two inputs. -/
theorem Settled.step {s : Management × Watch} (h : Settled s) (input : Input) :
    Settled (watching s input) := by
  have hmarked := process_phases h.calm h.marked h.out h.phases input
  have hphases : Phases ∅ (s.1.process input)
      ((s.2.deliver input).notes (actions (s.1.process input).out)) := by
    cases input with
    | timeout t =>
      cases ht : t.live s.1 with
      | false =>
        exact (process_phases h.calm h.marked h.out (h.phases.deliver ht) (.timeout t)).2
      | true =>
        obtain ⟨es, hes, hset⟩ := timeout_sets h.phases ht
        have hlater : Steps .any ∅ (s.1.timeout t) ∅ (s.1.process (.timeout t)) :=
          (Steps.refl ∅ _).settle.trans (watchIsolation_steps ∅ _)
        obtain ⟨es', hes', hset'⟩ := sets_of_steps hes hset hlater
        rw [h.out, List.nil_append] at hes'
        have hsame : (s.2.deliver (.timeout t)).notes (actions (s.1.process (.timeout t)).out) =
            s.2.notes (actions (s.1.process (.timeout t)).out) := by
          rw [hes']
          refine Watch.notes_sets hset' rfl fun t' ht' => ?_
          simp [Watch.deliver, ht']
        rw [hsame]
        exact hmarked.2
    | _ => exact hmarked.2
  refine ⟨hmarked.1, ?_, process_isolated h.calm h.marked h.phases h.out input, rfl⟩
  exact hphases.same (Watch.Same.refl _) rfl rfl rfl fun _ => rfl

theorem settled_new (topology : Topology) (timers : Timers) (tfp : Bool) :
    Settled (new topology timers tfp, Watch.new) where
  marked := by simp [Marked, new]
  phases := phases_new topology timers tfp
  isolated _ _ := rfl
  out := rfl

/-- After any inputs, what holds between two inputs holds. -/
theorem settled_run (topology : Topology) (timers : Timers) (tfp : Bool) (is : List Input) :
    Settled (Machine.run watching (new topology timers tfp, Watch.new) is) :=
  Machine.run_invariant (Q := fun _ _ => True) (fun _ i h _ => h.step i)
    (settled_new topology timers tfp) (Machine.along_trivial _ is)

/-- No link is ever stuck: what is buffered is released by a timer that runs, and a usable
link is not left out. -/
theorem never_stuck (topology : Topology) (timers : Timers) (tfp : Bool) (is : List Input)
    (l : LinkId) :
    let s := Machine.run watching (new topology timers tfp, Watch.new) is
    (s.2.held l = true ↔
      (s.1.links l).phase = .changeoverOrdered ∨ (s.1.links l).phase = .changeoverTimed ∨
      (∃ second, (s.1.links l).phase = .changebackDeclared second) ∨
      (s.1.links l).phase = .changebackTimed) ∧
    (s.2.running (.changeover l) = true ↔
      (s.1.links l).phase = .changeoverOrdered ∨ (s.1.links l).phase = .changeoverTimed) ∧
    (s.2.running (.changeback l) = true ↔
      (∃ second, (s.1.links l).phase = .changebackDeclared second) ∨
      (s.1.links l).phase = .changebackTimed) ∧
    ((s.1.links l).up = true → (s.1.links l).remoteInhibited = false →
      (s.1.links l).phase ≠ .closed) ∧
    ((s.1.links l).phase = .awaitRestart →
      (s.1.restarting = true ∧ s.2.running .restart = true) ∨
      ((s.1.linksets (s.1.linksetOf l)).restarting = true ∧
        s.2.running (.adjacentRestart (s.1.linksetOf l)) = true)) := by
  intro s
  have h := (settled_run topology timers tfp is).phases
  have hl := h.link l
  refine ⟨?_, ?_, ?_, ?_, ?_⟩
  · rw [hl.held]
    cases (s.1.links l).phase <;> simp [Phase.buffering]
  · rw [hl.changeover]
    cases (s.1.links l).phase <;> simp [Phase.changingOver]
  · rw [hl.changeback]
    cases (s.1.links l).phase <;> simp [Phase.changingBack]
  · exact fun hup hi hs => Set.notMem_empty _ (hl.restored hs hup hi)
  · intro hs
    rcases hl.awaits hs (Set.notMem_empty _) with hr | hr
    · exact .inl ⟨hr, h.restart hr⟩
    · exact .inr ⟨hr, h.adjacent _ hr⟩

end Management

end SiphonSigtran.Mtp3
