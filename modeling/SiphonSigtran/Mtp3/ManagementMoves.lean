import Mathlib.Data.Set.Insert
import Mathlib.Logic.Relation
import SiphonSigtran.Mtp3.Management

/-!
# What management can do

A move changes one thing and leaves what goes with it in `out`. An invariant is
proved by cases on the move. Between two moves there may be links that came back
and that level 3 has yet to restore, and linksets that lost a link and that it
has yet to look at: a move is indexed by these.
-/

namespace SiphonSigtran.Mtp3

open Relation

namespace Management

/-! ## What is left in `out` -/

theorem push_eq_extend (m : Management) (a : Action) : m.push a = m.extend [a] := rfl

@[simp] theorem extend_nil (m : Management) : m.extend [] = m := by simp [extend]

@[simp] theorem extend_extend (m : Management) (xs ys : List Action) :
    (m.extend xs).extend ys = m.extend (xs ++ ys) := by
  simp [extend]

@[simp] theorem extend_push (m : Management) (xs : List Action) (a : Action) :
    (m.extend xs).push a = m.extend (xs ++ [a]) := by
  simp [extend, push]

theorem setLink_setLink (m : Management) (l : LinkId) (f g : LinkState → LinkState) :
    (m.setLink l f).setLink l g = m.setLink l fun s => g (f s) := by
  unfold setLink
  congr 1
  funext k
  by_cases h : k = l <;> simp [h]

theorem setLink_extend (m : Management) (l : LinkId) (f : LinkState → LinkState)
    (xs : List Action) : (m.extend xs).setLink l f = (m.setLink l f).extend xs := rfl

theorem setLink_push (m : Management) (l : LinkId) (f : LinkState → LinkState) (a : Action) :
    (m.push a).setLink l f = (m.setLink l f).push a := rfl

@[simp] theorem setLink_self (m : Management) (l : LinkId) (f : LinkState → LinkState) :
    (m.setLink l f).links l = f (m.links l) := by simp [setLink]

theorem setLink_ne (m : Management) {l k : LinkId} (f : LinkState → LinkState) (h : k ≠ l) :
    (m.setLink l f).links k = m.links k := by simp [setLink, h]

@[simp] theorem push_links (m : Management) (a : Action) : (m.push a).links = m.links := rfl
@[simp] theorem extend_links (m : Management) (xs : List Action) :
    (m.extend xs).links = m.links := rfl
@[simp] theorem setLinkset_links (m : Management) (L : LinksetId)
    (f : LinksetState → LinksetState) : (m.setLinkset L f).links = m.links := rfl

end Management

open Management

/-- An action that tells an adjacent point nothing about a destination, and nothing about
the traffic of a link, a route, a timer or this node. -/
def Action.plain : Action → Bool
  | .send _ _ message _ =>
    match message with
    | .tfp _ | .tfa _ | .rst _ | .rsr _ => false
    | _ => true
  | .fail _ | .congestion _ _ | .note _ _ | .ignored _ _ => true
  | _ => false

/-- Which routes an input may allow through a linkset, which it may mark, which destinations it may
pause or resume, and which timer runs out. -/
structure Guard where
  allow : LinksetId → Prop
  mark : ℕ → LinksetId → RouteStatus → Prop
  pause : ℕ → Bool → Prop
  expire : Timer → Prop

/-- Nothing is forbidden. -/
def Guard.any : Guard := ⟨fun _ => True, fun _ _ _ => True, fun _ _ => True, fun _ => True⟩

/-- What one link does, with what is left to look at before and after. -/
inductive LinkMove (G : Guard) (m : Management) (l : LinkId) (s : LinkState) :
    LinkState → List Action → Set Subject → Set Subject → Prop
  | up {P : Set Subject} (h : s.phase = .closed → s.remoteInhibited = true) :
      LinkMove G m l s { s with up := true, back := s.back || s.phase.changingOver } [] P P
  | cameBack {P : Set Subject} (h : s.phase = .closed) (hi : s.remoteInhibited = false) :
      LinkMove G m l s { s with up := true } [] P (insert (Subject.link l) P)
  | await {P : Set Subject} (hl : Subject.link l ∈ P) (h : s.phase = .closed)
      (hr : m.restarting = true ∨ (m.linksets (m.linksetOf l)).restarting = true) :
      LinkMove G m l s { s with phase := .awaitRestart } [] P (P \ {Subject.link l})
  | timed {P : Set Subject} (hl : Subject.link l ∈ P) (hr : m.restarting = false)
      (h : s.phase = .closed ∨ s.phase = .awaitRestart) :
      LinkMove G m l s { s with phase := .changebackTimed }
        [.hold l, .start (.changeback l) m.timers.t3] P (P \ {Subject.link l})
  | opened {P : Set Subject} (hl : Subject.link l ∈ P) (hr : m.restarting = false)
      (h : s.phase = .closed ∨ s.phase = .awaitRestart) :
      LinkMove G m l s { s with phase := .open } [] P (P \ {Subject.link l})
  | redirected {P : Set Subject} (declared : List (ℕ × LinkId)) (sends : List Action)
      (hl : Subject.link l ∈ P) (hr : m.restarting = false) (h : s.phase = .closed)
      (hs : ∀ a ∈ sends, a.plain = true) :
      LinkMove G m l s { s with declared := declared, phase := .changebackDeclared false }
        (.hold l :: (sends ++ [.start (.changeback l) m.timers.t4])) P (P \ {Subject.link l})
  | finished {P : Set Subject} (h : s.phase.available = true) (ho : s.phase ≠ .open) :
      LinkMove G m l s { s with declared := [], phase := .open }
        [.stop (.changeback l), .open l] P P
  | failed (bsnt : ℕ) (phase : Phase) (sends : List Action) (after : ℕ)
      (h : s.phase.available = true) (hp : phase.changingOver = true)
      (hs : ∀ a ∈ sends, a.plain = true) :
      LinkMove G m l s
        { s with
          up := false, bsnt := bsnt, back := false, ordered := none, declared := [],
          phase := phase }
        ([.stop (.changeback l), .hold l] ++ sends ++ [.start (.changeover l) after])
        ∅ {Subject.linkset (m.linksetOf l)}
  | surrendered (bsnt : ℕ) (fsnc : Option ℕ) (h : s.phase.available = true) :
      LinkMove G m l s
        { s with
          up := false, bsnt := bsnt, back := false, ordered := none, declared := [],
          phase := .closed }
        [.stop (.changeback l), .hold l, .stop (.changeover l), .divert l fsnc]
        ∅ {Subject.linkset (m.linksetOf l)}
  | down (bsnt : ℕ) (h : s.phase.available = false) :
      LinkMove G m l s
        { s with
          up := false, bsnt := bsnt, back := false, ordered := none,
          phase := if s.phase = .awaitRestart then .closed else s.phase }
        [] ∅ {Subject.linkset (m.linksetOf l)}
  | completed {P : Set Subject} (fsnc : Option ℕ) (h : s.phase.changingOver = true)
      (hb : (s.back && s.up && !s.remoteInhibited) = false) :
      LinkMove G m l s { s with phase := .closed, back := false }
        [.stop (.changeover l), .divert l fsnc] P P
  | returned {P : Set Subject} (fsnc : Option ℕ) (h : s.phase.changingOver = true)
      (hb : (s.back && s.up && !s.remoteInhibited) = true) :
      LinkMove G m l s { s with phase := .closed, back := false }
        [.stop (.changeover l), .divert l fsnc] P (insert (Subject.link l) P)
  | inhibited {P : Set Subject} (h : s.phase.available = true) :
      LinkMove G m l s
        { s with remoteInhibited := true, declared := [], phase := .changeoverTimed }
        [.stop (.changeback l), .hold l, .start (.changeover l) m.timers.t1,
          .start (.inhibitTest l) m.timers.t23] P P
  | inhibitedIdle {P : Set Subject} (h : s.phase.available = false) :
      LinkMove G m l s
        { s with
          remoteInhibited := true
          phase := if s.phase = .awaitRestart then .closed else s.phase }
        [.start (.inhibitTest l) m.timers.t23] P P
  | uninhibited {P : Set Subject} (hi : s.remoteInhibited = true)
      (h : ¬ (s.phase = .closed ∧ s.up = true)) :
      LinkMove G m l s
        { s with
          remoteInhibited := false, back := s.back || (s.phase.changingOver && s.up) }
        [.stop (.inhibitTest l)] P P
  | released {P : Set Subject} (hi : s.remoteInhibited = true)
      (h : s.phase = .closed ∧ s.up = true) :
      LinkMove G m l s { s with remoteInhibited := false } [.stop (.inhibitTest l)] P
        (insert (Subject.link l) P)
  | ordered {P : Set Subject} (order : Ordered) :
      LinkMove G m l s { s with ordered := some order } [] P P
  | undeclared {P : Set Subject} (declared : List (ℕ × LinkId)) :
      LinkMove G m l s { s with declared := declared } [] P P
  | redeclared {P : Set Subject} (h : s.phase = .changebackDeclared false) :
      LinkMove G m l s { s with phase := .changebackDeclared true }
        [.start (.changeback l) m.timers.t5] P P
  | uninhibiting {P : Set Subject} (n : ℕ) :
      LinkMove G m l s { s with uninhibitAttempts := n + 1 }
        [.start (.uninhibit l) m.timers.t12] P P
  | forcing {P : Set Subject} (n : ℕ) :
      LinkMove G m l s { s with forceAttempts := n + 1 }
        [.start (.forceUninhibit l) m.timers.t13] P P
  | uninhibitAnswered {P : Set Subject} :
      LinkMove G m l s { s with uninhibitAttempts := 0 } [.stop (.uninhibit l)] P P
  | forceAnswered {P : Set Subject} :
      LinkMove G m l s { s with forceAttempts := 0 } [.stop (.forceUninhibit l)] P P
  | uninhibitAbandoned {P : Set Subject} (he : G.expire (.uninhibit l)) :
      LinkMove G m l s { s with uninhibitAttempts := 0 } [] P P
  | forceAbandoned {P : Set Subject} (he : G.expire (.forceUninhibit l)) :
      LinkMove G m l s { s with forceAttempts := 0 } [] P P
  | tested {P : Set Subject} (hi : s.remoteInhibited = true) :
      LinkMove G m l s s [.start (.inhibitTest l) m.timers.t23] P P

/-- A plain action, or one about the traffic and the timers of the link. -/
def Action.ofLink (link : LinkId) : Action → Bool
  | .start timer _ | .stop timer =>
    timer = .changeover link || timer = .changeback link || timer = .inhibitTest link ||
      timer = .uninhibit link || timer = .forceUninhibit link
  | .hold l | .open l | .divert l _ => l = link
  | a => a.plain

theorem Action.ofLink_of_plain {a : Action} (h : a.plain = true) (l : LinkId) :
    a.ofLink l = true := by
  cases a with
  | start | stop | hold | «open» | divert => simp [Action.plain] at h
  | _ => exact h

theorem LinkMove.ofLink {G : Guard} {m : Management} {l : LinkId} {s s' : LinkState}
    {outs : List Action}
    {P P' : Set Subject} (h : LinkMove G m l s s' outs P P') : ∀ a ∈ outs, a.ofLink l = true := by
  cases h with
  | failed bsnt phase sends after h hp hs =>
    intro a ha
    simp only [List.cons_append, List.nil_append, List.mem_cons, List.mem_append,
      List.not_mem_nil, or_false] at ha
    rcases ha with rfl | rfl | ha | rfl
    · simp [Action.ofLink]
    · simp [Action.ofLink]
    · exact Action.ofLink_of_plain (hs a ha) l
    · simp [Action.ofLink]
  | redirected declared sends hl hr h hs =>
    intro a ha
    simp only [List.mem_cons, List.mem_append, List.not_mem_nil, or_false] at ha
    rcases ha with rfl | ha | rfl
    · simp [Action.ofLink]
    · exact Action.ofLink_of_plain (hs a ha) l
    · simp [Action.ofLink]
  | _ => simp [Action.ofLink]

/-- What management does about the mark of one route. -/
inductive MarkMove (timers : Timers) (dpc : ℕ) (L : LinksetId) (status : RouteStatus)
    (d : DestinationState) : DestinationState → List Action → Prop
  | marked (hs : status ≠ .prohibited) (hh : d.holding = false) :
      MarkMove timers dpc L status d d [.route dpc L status]
  | deferred (hs : status ≠ .prohibited) (hh : d.holding = true) :
      MarkMove timers dpc L status d
        { d with deferred := d.deferred ++ [.route dpc L status] } []
  | held (hs : status ≠ .prohibited) (hh : d.holding = false) :
      MarkMove timers dpc L status d
        { d with holding := true, deferred := d.deferred ++ [.route dpc L status] }
        [.holdDestination dpc, .start (.rerouting dpc) timers.t6]
  | forced (hs : status = .prohibited) (hh : d.holding = false) :
      MarkMove timers dpc L status d { d with deferred := [] } (d.deferred ++ [.route dpc L status])
  | released (hs : status = .prohibited) (hh : d.holding = true) :
      MarkMove timers dpc L status d { d with deferred := [], holding := false }
        (d.deferred ++ [.route dpc L status] ++
          [.stop (.rerouting dpc), .releaseDestination dpc])

/-- The timer that tests a route with a status. -/
def testTimer (m : Management) (dpc : ℕ) (L : LinksetId) (status : RouteStatus) : Action :=
  if status = .allowed then .stop (.routeSetTest dpc L)
  else .start (.routeSetTest dpc L) m.timers.t10

/-- One move of management. -/
inductive Move (G : Guard) : Set Subject → Management → Set Subject → Management → Prop
  | say {P : Set Subject} {m : Management} (a : Action) (h : a.plain = true) :
      Move G P m P (m.push a)
  | link {P P' : Set Subject} {m : Management} (l : LinkId) (f : LinkState → LinkState)
      (outs : List Action) (hl : m.hasLink l = true)
      (h : LinkMove G m l (m.links l) (f (m.links l)) outs P P') :
      Move G P m P' ((m.setLink l f).extend outs)
  | codes {P : Set Subject} {m : Management} (code : ℕ) : Move G P m P { m with nextCode := code }
  -- What adjacent points and users are told of destinations.
  | unmarked {P : Set Subject} {m : Management} (dpc : ℕ) (h : m.reachable dpc = false)
      (ha : (m.destinations dpc).accessible = false) :
      Move G P m P (m.setDestination dpc fun d => { d with restricted := false })
  | accessible {P : Set Subject} {m : Management} (dpc : ℕ) (on : Bool)
      (h : m.reachable dpc = on) (hd : (m.destinations dpc).accessible ≠ on) :
      Move G P m P
        ((m.setDestination dpc fun d =>
          { d with accessible := on, restricted := on && d.restricted }).push
            (.accessibility dpc on))
  | restricted {P : Set Subject} {m : Management} (dpc : ℕ) (on : Bool)
      (h : m.reachable dpc = true) (ho : m.onlyRestricted dpc = on)
      (ha : (m.destinations dpc).accessible = true)
      (hd : (m.destinations dpc).restricted ≠ on) :
      Move G P m P ((m.setDestination dpc fun d => { d with restricted := on }).push
        (.restricted dpc on))
  | guard {P : Set Subject} {m : Management} (dpc : ℕ) : Move G P m P (m.guard dpc)
  | unguard {P : Set Subject} {m : Management} (dpc : ℕ) (he : G.expire (.prohibited dpc)) :
      Move G P m P { m with guarded := m.guarded.erase dpc }
  | unsync {P : Set Subject} {m : Management} (L : LinksetId) :
      Move G P m P (m.setLinkset L fun s => { s with synced := false })
  | resync {P : Set Subject} {m : Management} (L : LinksetId) (hr : m.restarting = false) :
      Move G P m P (m.resync L)
  | told {P : Set Subject} {m : Management} (L : LinksetId) (adjacent dpc : ℕ) (want : Bool)
      (hr : m.restarting = false) (ha : m.adjacentOf L = some adjacent)
      (hd : dpc ∈ m.topology.dpcs) :
      Move G P m P
        ((m.setDestination dpc fun d =>
          { d with told := if want then insert L d.told else d.told.erase L }).extend
            (((if want then about dpc .tfp else about dpc .tfa).map fun message =>
              Action.send adjacent 0 message (.adjacent L none)).toList))
  | toldUnknown {P : Set Subject} {m : Management} (L : LinksetId) (adjacent dpc : ℕ)
      (message : ManagementMessage) (hr : m.restarting = false)
      (ha : m.adjacentOf L = some adjacent) (hd : dpc ∉ m.topology.dpcs)
      (hm : message = .tfp dpc ∨ message = .tfa dpc) :
      Move G P m P (m.push (.send adjacent 0 message (.adjacent L none)))
  -- Routes.
  | allow {P : Set Subject} {m : Management} (L : LinksetId) (hg : G.allow L) :
      Move G P m P (m.allowRoutesThrough L)
  | mark {P : Set Subject} {m : Management} (dpc : ℕ) (L : LinksetId) (status : RouteStatus)
      (position : ℕ) (d' : DestinationState) (outs : List Action) (hg : G.mark dpc L status)
      (hd : dpc ∈ m.topology.dpcs)
      (hp : (m.destinations dpc).routes.findIdx? (fun r => r.via = .linkset L) = some position)
      (hs : (m.destinations dpc).routes[position]?.map RouteState.status ≠ some status)
      (h : MarkMove m.timers dpc L status ((m.destinations dpc).setStatus position status) d'
        outs) :
      Move G P m P ((m.setDestination dpc fun _ => d').extend (testTimer m dpc L status :: outs))
  | release {P : Set Subject} {m : Management} (dpc : ℕ) (hd : dpc ∈ m.topology.dpcs)
      (hh : (m.destinations dpc).holding = true) (he : G.expire (.rerouting dpc)) :
      Move G P m P
        ((m.setDestination dpc fun d => { d with holding := false, deferred := [] }).extend
          ((m.destinations dpc).deferred ++ [.releaseDestination dpc]))
  | asked {P : Set Subject} {m : Management} (L : LinksetId) (adjacent dpc : ℕ)
      (message : ManagementMessage) (hr : m.restarting = false)
      (ha : m.adjacentOf L = some adjacent) (hm : message = .rst dpc ∨ message = .rsr dpc) :
      Move G P m P (m.push (.send adjacent 0 message (.adjacent L none)))
  | testing {P : Set Subject} {m : Management} (L : LinksetId) (dpc : ℕ) (route : RouteState)
      (hd : dpc ∈ m.topology.dpcs) (hv : route.via = .linkset L)
      (hr : route ∈ (m.destinations dpc).routes) (hs : route.status ≠ .allowed) :
      Move G P m P (m.push (.start (.routeSetTest dpc L) m.timers.t10))
  -- Restarts.
  | beginRestart {m : Management} (hr : m.restarting = false)
      (hup : ∀ l, (m.links l).up = false) :
      Move G ∅ m ∅
        ({ m with restarting := true, restartDue := false }.extend
          [.restarting true, .start .restart m.timers.t18, .start .restartOverall m.timers.t20])
  | endRestart {P : Set Subject} {m : Management} (hr : m.restarting = true) :
      Move G P m P
        { m with
          restarting := false
          links := fun l =>
            if (m.links l).phase = .awaitRestart then { m.links l with phase := .open }
            else m.links l
          linksets := fun l => { m.linksets l with synced := false }
          out := m.out ++ [.act (.stop .restart), .act (.stop .restartOverall)] }
  | opens {P : Set Subject} {m : Management} (l : LinkId) (h : (m.links l).phase = .open) :
      Move G P m P (m.push (.open l))
  | restarted {P : Set Subject} {m : Management} (hr : m.restarting = false) :
      Move G P m P (m.push (.restarting false))
  | due {P : Set Subject} {m : Management} (on : Bool) : Move G P m P { m with restartDue := on }
  | beginAdjacent {P : Set Subject} {m : Management} (l : LinkId) (hl : m.hasLink l = true)
      (hp : Subject.link l ∈ P) (hs : (m.links l).phase = .closed) (hr : m.restarting = false)
      (ha : (m.linksets (m.linksetOf l)).restarting = false) :
      Move G P m (P \ {Subject.link l})
        (((m.setLinkset (m.linksetOf l) fun s =>
            { s with restarting := true, traReceived := false }).setLink l fun s =>
              { s with phase := .awaitRestart }).push
                (.start (.adjacentRestart (m.linksetOf l)) m.timers.t21))
  | endAdjacent {P : Set Subject} {m : Management} (L : LinksetId) (hn : m.restarting = false)
      (hr : (m.linksets L).restarting = true) :
      Move G P m (P ∪ {x | ∃ l ∈ m.linksOf L, (m.links l).phase = .awaitRestart ∧ x = .link l})
        ((m.setLinkset L fun s => { s with restarting := false }).push
          (.stop (.adjacentRestart L)))
  | loseAdjacent {P : Set Subject} {m : Management} (L : LinksetId)
      (hr : (m.linksets L).restarting = true) (hs : m.linksetSignalling L = false) :
      Move G P m (P \ {Subject.linkset L})
        ((m.setLinkset L fun s => { s with restarting := false }).push
          (.stop (.adjacentRestart L)))
  | keepAdjacent {P : Set Subject} {m : Management} (L : LinksetId)
      (h : (m.linksets L).restarting = true → m.linksetSignalling L = true) :
      Move G P m (P \ {Subject.linkset L}) m
  | flags {P : Set Subject} {m : Management} (L : LinksetId) (sent received : Bool) :
      Move G P m P (m.setLinkset L fun s => { s with traSent := sent, traReceived := received })
  | guards {P : Set Subject} {m : Management} (L : LinksetId) :
      Move G P m P ((m.setLinkset L fun s => { s with guarded := true }).push
        (.start (.restartAllowed L) m.timers.t19))
  | unguards {P : Set Subject} {m : Management} (L : LinksetId)
      (he : G.expire (.restartAllowed L)) :
      Move G P m P (m.setLinkset L fun s => { s with guarded := false })
  -- Inputs.
  | served {P : Set Subject} {m : Management} (servers : ℕ → Bool) :
      Move G P m P { m with servers := servers }
  | paused {P : Set Subject} {m : Management} (dpc : ℕ) (on : Bool) (hg : G.pause dpc on) :
      Move G P m P (m.setDestination dpc fun d => { d with paused := on })
  | isolated {P : Set Subject} {m : Management} (on : Bool) (h : on ≠ m.isolated) :
      Move G P m P ({ m with isolated := on }.push
        (if on then .start .isolation m.timers.t1 else .stop .isolation))

/-- Any number of moves. -/
def Steps (G : Guard) (P : Set Subject) (m : Management) (P' : Set Subject) (m' : Management) :
    Prop :=
  ReflTransGen (fun x y => Move G x.1 x.2 y.1 y.2) (P, m) (P', m')

variable {G : Guard}

theorem Steps.refl (P : Set Subject) (m : Management) : Steps G P m P m := ReflTransGen.refl

theorem Steps.trans {P P' P'' : Set Subject} {m m' m'' : Management} (h : Steps G P m P' m')
    (h' : Steps G P' m' P'' m'') : Steps G P m P'' m'' := ReflTransGen.trans h h'

theorem Move.steps {P P' : Set Subject} {m m' : Management} (h : Move G P m P' m') :
    Steps G P m P' m' := ReflTransGen.single h

/-- What every move keeps is kept by any number of them. -/
theorem Steps.invariant {I : Set Subject → Management → Prop}
    (hmove : ∀ {P P' m m'}, Move G P m P' m' → I P m → I P' m') {P P' : Set Subject}
    {m m' : Management} (h : Steps G P m P' m') (hi : I P m) : I P' m' := by
  unfold Steps at h
  generalize hx : (P, m) = x at h
  generalize hy : (P', m') = y at h
  induction h generalizing P' m' with
  | refl =>
    obtain ⟨rfl, rfl⟩ := Prod.mk.inj (hx.trans hy.symm)
    exact hi
  | tail _ hlast ih =>
    obtain rfl := hy
    exact hmove hlast (ih rfl)

/-- What is deferred for a destination are marks of its routes. -/
def Marked (m : Management) : Prop :=
  ∀ d, ∀ a ∈ (m.destinations d).deferred, ∃ L status, a = Action.route d L status

theorem MarkMove.deferred_marks {timers : Timers} {dpc : ℕ} {L : LinksetId}
    {status : RouteStatus} {d d' : DestinationState} {outs : List Action}
    (h : MarkMove timers dpc L status d d' outs)
    (hd : ∀ a ∈ d.deferred, ∃ L status, a = Action.route dpc L status) :
    ∀ a ∈ d'.deferred, ∃ L status, a = Action.route dpc L status := by
  cases h with
  | marked => exact hd
  | deferred | held =>
    intro a ha
    rcases List.mem_append.mp ha with ha | ha
    · exact hd a ha
    · exact ⟨L, status, List.mem_singleton.mp ha⟩
  | forced | released => exact fun a ha => absurd ha List.not_mem_nil

theorem Move.marked {P P' : Set Subject} {m m' : Management} (h : Move G P m P' m')
    (hm : Marked m) : Marked m' := by
  cases h with
  | release d =>
    intro e a ha
    by_cases he : e = d
    · simp [extend, setDestination, he] at ha
    · simp only [extend, setDestination, he, ↓reduceIte] at ha
      exact hm e a ha
  | unmarked d | paused d | accessible d | restricted d | told L adjacent d =>
    intro e a ha
    by_cases he : e = d
    · subst he
      simp only [push, extend, setDestination, ↓reduceIte] at ha
      exact hm _ a ha
    · simp only [push, extend, setDestination, he, ↓reduceIte] at ha
      exact hm e a ha
  | mark d L status position d' outs hg hd hp hs h =>
    intro e a ha
    by_cases he : e = d
    · subst he
      simp only [extend, setDestination, ↓reduceIte] at ha
      exact h.deferred_marks (hm e) a ha
    · simp only [extend, setDestination, he, ↓reduceIte] at ha
      exact hm e a ha
  | _ => exact hm

/-- A move only adds to what is left for the caller. -/
theorem Move.out {P P' : Set Subject} {m m' : Management} (h : Move G P m P' m') :
    ∃ es, m'.out = m.out ++ es := by
  cases h with
  | unmarked | unguard | unsync | due | flags | unguards | served | paused | codes
  | keepAdjacent => exact ⟨[], (List.append_nil _).symm⟩
  | _ => exact ⟨_, rfl⟩

theorem Steps.out {P P' : Set Subject} {m m' : Management} (h : Steps G P m P' m') :
    ∃ es, m'.out = m.out ++ es :=
  Steps.invariant (I := fun _ n => ∃ es, n.out = m.out ++ es)
    (fun hmove ⟨es, he⟩ => by
      obtain ⟨es', he'⟩ := hmove.out
      exact ⟨es ++ es', by rw [he', he, List.append_assoc]⟩) h ⟨[], (List.append_nil _).symm⟩

end SiphonSigtran.Mtp3
