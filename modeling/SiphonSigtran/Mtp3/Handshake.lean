import SiphonSigtran.Mtp3.Inhibit

/-!
# The changeover handshake

Two ends of one link, each of which is the adjacent point of the other, and what is on
its way between them. What each input that the handshake is made of does to the link and
leaves for the other end is said once; an invariant of both ends and the messages between
them then gives that traffic is diverted once at each end, and from where.
-/

namespace SiphonSigtran.Mtp3

open Lib Management

/-- An action that the handshake of a link is made of: a message other than about a
destination, a diversion, or what is done with the timer. -/
def Action.aside : Action → Bool
  | .send _ _ (.tfp _) _ | .send _ _ (.tfa _) _ => false
  | .send _ _ _ _ | .divert _ _ => true
  | .start (.changeover _) _ | .stop (.changeover _) => true
  | _ => false

/-- The message that an action sends. -/
def Action.letter : Action → Option (ℕ × ManagementMessage)
  | .send _ slc message _ => some (slc, message)
  | _ => none

def asides (es : List Entry) : List Action := (actions es).filter Action.aside

theorem asides_append (es es' : List Entry) : asides (es ++ es') = asides es ++ asides es' := by
  simp [asides]

theorem asides_map (xs : List Action) : asides (xs.map .act) = xs.filter Action.aside := by
  have hmap : actions (xs.map .act) = xs := by
    induction xs with
    | nil => rfl
    | cons x xs ih => rw [List.map_cons, actions_act, ih]
  rw [asides, hmap]

theorem asides_of_belief {es : List Entry} (h : ∀ e ∈ es, e.belief = true) : asides es = [] := by
  rw [asides, List.filter_eq_nil_iff]
  intro a ha
  obtain ⟨e, he, heq⟩ := List.mem_filterMap.mp ha
  cases e with
  | act b =>
    obtain rfl := Option.some.inj heq
    have hb := h _ he
    cases b with
    | send dpc slc message path => cases message <;> simp_all [Entry.belief, Action.aside]
    | start timer after =>
      cases timer with
      | prohibited dpc => exact Bool.false_ne_true
      | _ => simp [Entry.belief] at hb
    | stop timer => simp [Entry.belief] at hb
    | _ => simp_all [Entry.belief, Action.aside]
  | resynced L => simp at heq

/-- What the far end of a link is told about its traffic. -/
def Management.toFarEnd (m : Management) (a : ℕ) (l : LinkId) (message : ManagementMessage) :
    Action := .send a (m.slcOf l) message (.adjacent (m.linksetOf l) (some l))

/-- From one state to another the link became what it is, and this was left for the
handshake. -/
structure Answers (m m' : Management) (l : LinkId) (s : LinkState) (xs : List Action) : Prop where
  topology : m'.topology = m.topology
  restarting : m'.restarting = m.restarting
  link : m'.links l = s
  out : ∃ es, m'.out = m.out ++ es ∧ asides es = xs

namespace Answers

variable {m m' m'' : Management} {l : LinkId} {s s' : LinkState} {xs ys : List Action}

theorem refl (m : Management) (l : LinkId) : Answers m m l (m.links l) [] :=
  ⟨rfl, rfl, rfl, [], by simp, rfl⟩

theorem trans (h : Answers m m' l s xs) (h' : Answers m' m'' l s' ys) :
    Answers m m'' l s' (xs ++ ys) where
  topology := h'.topology.trans h.topology
  restarting := h'.restarting.trans h.restarting
  link := h'.link
  out := by
    obtain ⟨es, he, hes⟩ := h.out
    obtain ⟨es', he', hes'⟩ := h'.out
    refine ⟨es ++ es', by rw [he', he, List.append_assoc], ?_⟩
    rw [asides_append, hes, hes']

/-- What only tells somebody something leaves the handshake alone. -/
theorem quiet (h : Answers m m' l s xs) (hq : Quiet m' m'') : Answers m m'' l s xs where
  topology := hq.2.topology.trans h.topology
  restarting := hq.2.restarting.trans h.restarting
  link := by rw [hq.2.links, h.link]
  out := by
    obtain ⟨es, he, hes⟩ := h.out
    obtain ⟨es', he', hbelief⟩ := hq.2.out
    refine ⟨es ++ es', by rw [he', he, List.append_assoc], ?_⟩
    rw [asides_append, hes, asides_of_belief hbelief, List.append_nil]

theorem watch (h : Answers m m' l s xs) : Answers m m'.watchIsolation l s xs := by
  obtain ⟨es, he, hes⟩ := h.out
  unfold watchIsolation
  extract_lets isolated m₁
  split_ifs
  · exact h
  · refine ⟨h.topology, h.restarting, h.link,
      es ++ [.act (.start .isolation m₁.timers.t1)], ?_, ?_⟩
    · simp [m₁, push, he]
    · rw [asides_append, hes]
      exact List.append_nil xs
  · refine ⟨h.topology, h.restarting, h.link, es ++ [.act (.stop .isolation)], ?_, ?_⟩
    · simp [m₁, push, he]
    · rw [asides_append, hes]
      exact List.append_nil xs

theorem extend (h : Answers m m' l s xs) (zs : List Action) :
    Answers m (m'.extend zs) l s (xs ++ zs.filter Action.aside) := by
  obtain ⟨es, he, hes⟩ := h.out
  refine ⟨h.topology, h.restarting, h.link, es ++ zs.map .act, ?_, ?_⟩
  · simp [Management.extend, he]
  · rw [asides_append, hes, asides_map]

theorem set (h : Answers m m' l s xs) (f : LinkState → LinkState) :
    Answers m (m'.setLink l f) l (f s) xs where
  topology := h.topology
  restarting := h.restarting
  link := by rw [setLink_self, h.link]
  out := h.out

theorem setLinkset (h : Answers m m' l s xs) (L : LinksetId) (f : LinksetState → LinksetState) :
    Answers m (m'.setLinkset L f) l s xs := ⟨h.topology, h.restarting, h.link, h.out⟩

theorem setDestination (h : Answers m m' l s xs) (d : ℕ)
    (f : DestinationState → DestinationState) : Answers m (m'.setDestination d f) l s xs :=
  ⟨h.topology, h.restarting, h.link, h.out⟩

theorem push (h : Answers m m' l s xs) {a : Action} (ha : a.aside = false) :
    Answers m (m'.push a) l s xs := by
  have hsaid := h.extend [a]
  rwa [List.filter_cons_of_neg (by simp [ha]), List.filter_nil, List.append_nil] at hsaid

theorem send (h : Answers m m' l s xs) {L : LinksetId} {a slc : ℕ} {message : ManagementMessage}
    {path : Path} (ha : m.adjacentOf L = some a)
    (hm : (Action.send a slc message path).aside = true) :
    Answers m (m'.send L slc message path) l s (xs ++ [.send a slc message path]) := by
  have hsend : m'.send L slc message path = m'.extend [.send a slc message path] := by
    have ha' : m'.adjacentOf L = some a := by
      rw [adjacentOf, h.topology]
      exact ha
    rw [Management.send, ha']
    rfl
  have hsaid := h.extend [.send a slc message path]
  rwa [List.filter_cons_of_pos hm, List.filter_nil, ← hsend] at hsaid

/-- The traffic of a link that is down leaves it. -/
theorem complete (h : Answers m m' l s xs) (hs : s.up = false) (fsnc : Option ℕ)
    (how : Option Procedure) :
    Answers m (m'.completeChangeover l fsnc how) l { s with phase := .closed, back := false }
      (xs ++ [.stop (.changeover l), .divert l fsnc]) := by
  rw [completeChangeover_eq]
  dsimp only
  rw [if_neg (by simp [h.link, hs])]
  have hdiverted := (h.set fun s => { s with phase := .closed, back := false }).extend
    [.stop (.changeover l), .divert l fsnc]
  exact hdiverted.push rfl

theorem toFarEnd (h : Answers m m' l s xs) {a : ℕ} (ha : m.adjacentOf (m.linksetOf l) = some a)
    {message : ManagementMessage} (hm : (m.toFarEnd a l message).aside = true) :
    Answers m (m'.send (m'.linksetOf l) (m'.slcOf l) message
      (.adjacent (m'.linksetOf l) (some l))) l s (xs ++ [m.toFarEnd a l message]) := by
  have hset : m'.linksetOf l = m.linksetOf l ∧ m'.slcOf l = m.slcOf l := by
    simp only [linksetOf, slcOf, h.topology, and_self]
  rw [hset.1, hset.2]
  exact h.send ha hm

theorem acknowledge (h : Answers m m' l s xs) {a : ℕ}
    (ha : m.adjacentOf (m.linksetOf l) = some a) (emergency : Bool) :
    Answers m (m'.acknowledgeOrder l emergency) l s
      (xs ++ [m.toFarEnd a l (if emergency then .eca else .xca s.bsnt)]) := by
  rw [acknowledgeOrder, h.link]
  apply h.toFarEnd ha
  cases emergency <;> rfl

/-- The far end is asked where it stopped, if there is a way to ask. -/
theorem begin (h : Answers m m' l s xs) {a : ℕ} (ha : m.adjacentOf (m.linksetOf l) = some a) :
    ∃ phase ys t, Answers m (m'.beginChangeover l) l { s with phase := phase }
        (xs ++ (ys ++ [.start (.changeover l) t])) ∧
      phase.changingOver = true ∧ (ys = [] ∨ ys = [m.toFarEnd a l (.xco s.bsnt)]) := by
  have hheld := (h.push (a := .hold l) rfl).set fun s => { s with phase := .changeoverOrdered }
  unfold beginChangeover
  extract_lets L m₁
  split_ifs
  · refine ⟨.changeoverOrdered, [m.toFarEnd a l (.xco s.bsnt)], m₁.timers.t2, ?_, rfl, .inr rfl⟩
    have hxco : (m.toFarEnd a l (.xco s.bsnt)).aside = true := rfl
    have hasked := (hheld.toFarEnd ha hxco).extend
      [.start (.changeover l) m₁.timers.t2]
    rw [List.append_assoc] at hasked
    have hb : (m₁.links l).bsnt = s.bsnt := by
      rw [hheld.link]
    rw [hb]
    exact hasked
  · refine ⟨.changeoverTimed, [], m₁.timers.t1, ?_, rfl, .inl rfl⟩
    exact (hheld.set fun s => { s with phase := .changeoverTimed }).extend
      [.start (.changeover l) m₁.timers.t1]

theorem lose (h : Answers m m' l s xs) (L : LinksetId) :
    Answers m (if m'.linksetSignalling L then m'
      else (if (m'.linksets L).restarting then
          (m'.setLinkset L fun s => { s with restarting := false }).push
            (.stop (.adjacentRestart L))
        else m').setLinkset L fun s => { s with traSent := false, traReceived := false })
      l s xs := by
  split_ifs
  · exact h
  · exact ((h.setLinkset L _).push rfl).setLinkset L _
  · exact h.setLinkset L _

end Answers

/-- A link that is down, and stopped at this number. -/
structure LinkState.Down (s : LinkState) (bsnt : ℕ) : Prop where
  up : s.up = false
  bsnt : s.bsnt = bsnt
  back : s.back = false
  ordered : s.ordered = none

namespace Management

variable {m : Management} {l : LinkId} {a : ℕ}

theorem linkDown_answers (ha : m.adjacentOf (m.linksetOf l) = some a)
    (hs : (m.links l).phase = .open) (bsnt : ℕ) :
    ∃ s xs, Answers m (m.linkDown l bsnt) l s xs ∧ s.Down bsnt ∧
      match (m.links l).ordered with
      | none => s.phase.changingOver = true ∧ ∃ ys t,
        (ys = [] ∨ ys = [m.toFarEnd a l (.xco bsnt)]) ∧ xs = ys ++ [.start (.changeover l) t]
      | some order => s.phase = .closed ∧
        xs = [m.toFarEnd a l (if order.emergency then .eca else .xca bsnt),
          .stop (.changeover l), .divert l order.fsnc] := by
  unfold linkDown
  extract_lets L ordered m₁ m₂ m₃ m₄ m₅
  obtain ⟨s, h₁, hdown, hopen⟩ : ∃ s, Answers m m₁ l s [] ∧ s.Down bsnt ∧ s.phase = .open :=
    ⟨_, (Answers.refl m l).set _, ⟨rfl, rfl, rfl, rfl⟩, hs⟩
  cases hordered : (m.links l).ordered with
  | none =>
    have hphase : (m₁.links l).phase = .open := by rw [h₁.link, hopen]
    have h₃ := (h₁.push (a := .stop (.changeback l)) rfl).set fun s => { s with declared := [] }
    obtain ⟨phase, ys, t, hbegun, hover, hasked⟩ := h₃.begin ha
    have h₄ : Answers m m₄ l { s with declared := [], phase := phase }
        ([] ++ (ys ++ [.start (.changeover l) t])) := by
      simp only [m₄, m₃, m₂, ordered, hordered, hphase]
      exact hbegun
    refine ⟨_, _, h₄.lose L, ⟨hdown.up, hdown.bsnt, hdown.back, hdown.ordered⟩, hover, ys, t,
      ?_, rfl⟩
    rwa [← hdown.bsnt]
  | some order =>
    have h₂ := h₁.acknowledge ha order.emergency
    have hphase : ((m₁.acknowledgeOrder l order.emergency).links l).phase = .open := by
      rw [h₂.link, hopen]
    have h₃ := (h₂.push (a := .stop (.changeback l)) rfl).set fun s => { s with declared := [] }
    have hdone := (h₃.push (a := .hold l) rfl).complete hdown.up order.fsnc none
    have h₄ : Answers m m₄ l { s with declared := [], phase := .closed, back := false }
        ([m.toFarEnd a l (if order.emergency then .eca else .xca s.bsnt)] ++
          [.stop (.changeover l), .divert l order.fsnc]) := by
      simp only [m₄, m₃, m₂, ordered, hordered, hphase]
      exact hdone
    refine ⟨_, _, h₄.lose L, ⟨hdown.up, hdown.bsnt, rfl, hdown.ordered⟩, rfl, ?_⟩
    rw [hdown.bsnt]
    rfl

/-! ## What each input does to the link -/

theorem order_of_up (hs : (m.links l).up = true) (fsnc : Option ℕ) (emergency : Bool) :
    Answers m (m.changeoverOrder l fsnc emergency) l
      { m.links l with ordered := some ⟨fsnc, emergency⟩ } [] := by
  rw [changeoverOrder, if_neg (by simp [hs]), if_pos hs]
  exact ((Answers.refl m l).set _).push rfl

theorem order_of_waiting (ha : m.adjacentOf (m.linksetOf l) = some a)
    (hs : (m.links l).up = false) (hp : (m.links l).phase.changingOver = true)
    (fsnc : Option ℕ) :
    Answers m (m.changeoverOrder l fsnc false) l
      { m.links l with phase := .closed, back := false }
      [m.toFarEnd a l (.xca (m.links l).bsnt), .stop (.changeover l), .divert l fsnc] := by
  rw [changeoverOrder, if_pos (by simp [hs, hp])]
  exact ((Answers.refl m l).acknowledge ha false).complete hs fsnc none

theorem order_of_closed (ha : m.adjacentOf (m.linksetOf l) = some a)
    (hs : (m.links l).up = false) (hp : (m.links l).phase.changingOver = false)
    (fsnc : Option ℕ) (emergency : Bool) :
    Answers m (m.changeoverOrder l fsnc emergency) l (m.links l) [m.toFarEnd a l .eca] := by
  rw [changeoverOrder, if_neg (by simp [hp]), if_neg (by simp [hs])]
  exact (Answers.refl m l).toFarEnd ha rfl

theorem acknowledgement_of_waiting (hs : (m.links l).up = false)
    (hp : (m.links l).phase = .changeoverOrdered) (fsnc : Option ℕ) (name : String) :
    Answers m (m.changeoverAcknowledgement l fsnc name) l
      { m.links l with phase := .closed, back := false }
      [.stop (.changeover l), .divert l fsnc] := by
  rw [changeoverAcknowledgement, if_pos hp]
  exact (Answers.refl m l).complete hs fsnc none

theorem acknowledgement_unasked (hp : (m.links l).phase ≠ .changeoverOrdered)
    (fsnc : Option ℕ) (name : String) :
    Answers m (m.changeoverAcknowledgement l fsnc name) l (m.links l) [] := by
  rw [changeoverAcknowledgement, if_neg hp]
  exact (Answers.refl m l).push rfl

theorem timeout_answers (hl : m.hasLink l = true) (hs : (m.links l).up = false)
    (hp : (m.links l).phase.changingOver = true) :
    Answers m (m.timeout (.changeover l)) l { m.links l with phase := .closed, back := false }
      [.stop (.changeover l), .divert l none] := by
  rw [timeout, if_pos hl]
  cases hphase : (m.links l).phase with
  | changeoverOrdered | changeoverTimed => exact (Answers.refl m l).complete hs none _
  | _ => simp [hphase, Phase.changingOver] at hp

theorem timeout_of_settled (hp : (m.links l).phase.changingOver = false) :
    m.timeout (.changeover l) = m := by
  rw [timeout]
  split_ifs
  · cases hphase : (m.links l).phase with
    | changeoverOrdered | changeoverTimed => simp [hphase, Phase.changingOver] at hp
    | _ => rfl
  · rfl

theorem asides_of_mark {timers : Timers} {d : ℕ} {L : LinksetId} {status : RouteStatus}
    {dest dest' : DestinationState} {outs : List Action}
    (h : MarkMove timers d L status dest dest' outs)
    (hd : ∀ a ∈ dest.deferred, ∃ L status, a = Action.route d L status) :
    outs.filter Action.aside = [] := by
  have hdeferred : dest.deferred.filter Action.aside = [] := by
    rw [List.filter_eq_nil_iff]
    intro a ha
    obtain ⟨L, status, rfl⟩ := hd a ha
    exact Bool.false_ne_true
  cases h <;> simp [List.filter_append, hdeferred, Action.aside]

/-- What a point says about a destination is nothing to a link. -/
theorem routeMessage_answers (hm : Marked m) (L : LinksetId) (d : ℕ) (status : RouteStatus)
    (name : String) (l : LinkId) :
    Answers m (m.routeMessage L d status name) l (m.links l) [] := by
  rcases routeMessage_cases m L d status name with h | h | ⟨i, -, -, -, h⟩
  · rw [h]
    exact (Answers.refl m l).push rfl
  · rw [h]
    exact Answers.refl m l
  · obtain ⟨s, outs, notes, hmove, hnotes, heq⟩ := markRoute_spec
      ((m.setDestination d fun s => s.setStatus i status).push (testTimer m d L status)) L d status
      (m.inUse d) ((m.setDestination d fun s => s.setStatus i status).inUse d)
    simp only [push_destinations, setDestination_self] at hmove
    have hsilent : (outs ++ notes).filter Action.aside = [] := by
      rw [List.filter_append, asides_of_mark hmove (hm d), List.nil_append,
        List.filter_eq_nil_iff]
      intro a ha
      obtain ⟨how, x, rfl⟩ := hnotes a ha
      exact Bool.false_ne_true
    have htest : (testTimer m d L status).aside = false := by
      unfold testTimer
      split_ifs <;> rfl
    have hmarked := ((((Answers.refl m l).setDestination d fun s =>
      s.setStatus i status).push htest).setDestination d fun _ => s).extend (outs ++ notes)
    rwa [hsilent, List.append_nil, ← heq, ← h] at hmarked

/-- Whatever is settled afterwards, the handshake gets what the input leaves for it. -/
theorem handle_answers {input : Input} (hi : ∀ d l, input ≠ .unroutable d l) (hout : m.out = [])
    {s : LinkState} {xs : List Action} (h : Answers m (m.dispatch input) l s xs) :
    (m.handle input).1.topology = m.topology ∧ (m.handle input).1.restarting = m.restarting ∧
      (m.handle input).1.links l = s ∧ (m.handle input).2.filter Action.aside = xs := by
  have hsettled := (h.quiet (settle_quiet _)).watch
  rw [← process_of_settled hi] at hsettled
  obtain ⟨es, hes, hasides⟩ := hsettled.out
  refine ⟨hsettled.topology, hsettled.restarting, hsettled.link, ?_⟩
  rw [hout, List.nil_append] at hes
  have hactions : (m.handle input).2 = actions es := by
    rw [← hes]
    rfl
  rw [hactions]
  exact hasides

/-- The code of a link finds it among the links of its linkset. -/
theorem find_of_slc (hl : m.hasLink l = true) :
    ((m.linksOf (m.linksetOf l)).find? fun k => m.slcOf k = m.slcOf l) = some l := by
  have hlength : l < m.topology.links.length := by simpa [hasLink] using hl
  have hmem : l ∈ m.linksOf (m.linksetOf l) := Topology.mem_links.mpr ⟨hlength, rfl⟩
  obtain ⟨k, hk⟩ := Option.isSome_iff_exists.mp
    (List.find?_isSome (p := fun k => decide (m.slcOf k = m.slcOf l)).mpr ⟨l, hmem, by simp⟩)
  have hcode : m.slcOf k = m.slcOf l := by simpa using List.find?_some hk
  have hcodes := m.topology.codes (m.linksetOf l) (Topology.lt_of_mem hmem)
  rw [hk, List.inj_on_of_nodup_map hcodes (List.mem_of_find?_eq_some hk) hmem hcode]

/-- A message about a link that arrives in its linkset gets to it. -/
theorem received_about (hn : m.restarting = false) (hl : m.hasLink l = true) {via : LinkId}
    {opc : ℕ} (hfrom : m.linksetFrom opc via = some (m.linksetOf l)) :
    (∀ f, m.received via opc (m.slcOf l) (.xco f) = m.changeoverOrder l (some f) false) ∧
    (∀ f, m.received via opc (m.slcOf l) (.xca f) =
      m.changeoverAcknowledgement l (some f) "XCA") ∧
    m.received via opc (m.slcOf l) .eca = m.changeoverAcknowledgement l none "ECA" := by
  simp [received, hfrom, hn, receivedFrom, find_of_slc hl, linkMessage, ManagementMessage.name]

end Management

/-! ## Two ends -/

/-- How far a link has come at one end in a failure: the number reported to this end and to
the other, whether the timer runs and how often the traffic was diverted. -/
inductive Stage (s : LinkState) : Option ℕ → Option ℕ → Bool → ℕ → Prop
  | up {other : Option ℕ} (hs : s.up = true) (hp : s.phase = .open)
      (ho : ∀ o ∈ s.ordered, o.emergency = false ∧ o.fsnc.isSome = true ∧ o.fsnc = other) :
      Stage s none other false 0
  | waiting {bsnt : ℕ} {other : Option ℕ} (hs : s.Down bsnt)
      (hp : s.phase.changingOver = true) : Stage s (some bsnt) other true 0
  | done {bsnt : ℕ} {other : Option ℕ} (hs : s.Down bsnt) (hp : s.phase = .closed) :
      Stage s (some bsnt) other false 1

/-- One end of the link: its management, the messages on their way to it, what level 2
reported, whether the changeover timer runs, and all that was called for. -/
structure End where
  management : Management
  inbox : List (ℕ × ManagementMessage)
  reported : Option ℕ
  armed : Bool
  done : List Action

/-- What can happen at one end. The oldest message from the other end arrives on some link. -/
inductive Event
  | down (bsnt : ℕ)
  | arrive (via : LinkId)
  | expire
  deriving DecidableEq, Repr

namespace End

/-- The messages of some actions that are for a point. -/
def mailFor (pc : ℕ) (xs : List Action) : List (ℕ × ManagementMessage) :=
  (xs.filter fun
    | .send dpc _ _ _ => dpc = pc
    | _ => false).filterMap Action.letter

def arming (l : LinkId) (armed : Bool) : Action → Bool
  | .start timer _ => if timer = .changeover l then true else armed
  | .stop timer => if timer = .changeover l then false else armed
  | _ => armed

def diverts (l : LinkId) : Action → Bool
  | .divert k _ => k = l
  | _ => false

/-- What an event makes of an end, and the input it is to management. -/
def take (l : LinkId) (pc : ℕ) (e : End) : Event → End × Option Input
  | .down bsnt => ({ e with reported := some bsnt }, some (.linkDown l bsnt))
  | .arrive via =>
    match e.inbox with
    | [] => (e, none)
    | (slc, message) :: rest =>
      ({ e with inbox := rest }, some (.received via pc slc message))
  | .expire => ({ e with armed := false }, some (.timeout (.changeover l)))

/-- An end after an input to its management. -/
def act (l : LinkId) (e : End) (input : Input) : End :=
  { e with
    management := (e.management.handle input).1
    armed := (e.management.handle input).2.foldl (arming l) e.armed
    done := e.done ++ (e.management.handle input).2 }

end End

/-- Something happens at one end, and what that sends to the other is on its way. -/
def happen (l : Bool → LinkId) (p : Bool → End) (e : Bool × Event) : Bool → End :=
  let pc := (p !e.1).management.topology.ownPc
  match (p e.1).take (l e.1) pc e.2 with
  | (_, none) => p
  | (taken, some input) => fun x =>
    if x = e.1 then taken.act (l e.1) input
    else { p x with inbox := (p x).inbox ++ End.mailFor pc (taken.management.handle input).2 }

/-- The link fails once at each end, and a message about it is taken to be about it. -/
def Possible (l : Bool → LinkId) (p : Bool → End) : Bool × Event → Prop
  | (x, .down _) => (p x).reported = none
  | (x, .arrive via) => (p x).management.hasLink via = true ∧
      (p x).management.linksetFrom (p !x).management.topology.ownPc via =
        some ((p x).management.linksetOf (l x))
  | (_, .expire) => True

instance (l : Bool → LinkId) (p : Bool → End) : ∀ e, Decidable (Possible l p e)
  | (x, .down _) => inferInstanceAs (Decidable ((p x).reported = none))
  | (x, .arrive via) => inferInstanceAs (Decidable ((p x).management.hasLink via = true ∧
      (p x).management.linksetFrom (p !x).management.topology.ownPc via =
        some ((p x).management.linksetOf (l x))))
  | (_, .expire) => .isTrue trivial

/-- What may be on its way from an end that reported this number. -/
def Fits (slc : ℕ) (reported : Option ℕ) : ℕ × ManagementMessage → Prop
  | (code, .xco f) | (code, .xca f) => code = slc ∧ reported = some f
  | (code, .eca) => code = slc
  | (_, .tfp _) | (_, .tfa _) => True
  | _ => False

/-- What an end may say and do, when these numbers were reported to it and to the other. -/
def Says (l : LinkId) (mine other : Option ℕ) : Action → Prop
  | .send _ _ (.xca f) _ => mine = some f
  | .divert k (some f) => k = l → other = some f
  | _ => True

/-- How an end is after an input, when the handshake gets these actions. -/
structure Proceeds (l : LinkId) (slc : ℕ) (mine other : Option ℕ) (armed : Bool) (n : ℕ)
    (s : LinkState) (xs : List Action) : Prop where
  stage : Stage s mine other (xs.foldl (End.arming l) armed) (n + xs.countP (End.diverts l))
  fits : ∀ c ∈ xs.filterMap Action.letter, Fits slc mine c
  allowed : ∀ a ∈ xs, Says l mine other a

namespace Management

variable {mine other : Option ℕ} {armed : Bool} {n : ℕ}

theorem linkDown_proceeds (ha : m.adjacentOf (m.linksetOf l) = some a)
    (hs : Stage (m.links l) none other armed n) (bsnt : ℕ) :
    ∃ s xs, Answers m (m.linkDown l bsnt) l s xs ∧
      Proceeds l (m.slcOf l) (some bsnt) other armed n s xs := by
  cases hs with
  | up hup hp ho =>
    obtain ⟨s, xs, hanswers, hdown, hxs⟩ := linkDown_answers ha hp bsnt
    refine ⟨s, xs, hanswers, ?_⟩
    cases hordered : (m.links l).ordered with
    | none =>
      rw [hordered] at hxs
      obtain ⟨hp, ys, t, hys, rfl⟩ := hxs
      have hwaits : Stage s (some bsnt) other true 0 := .waiting hdown hp
      rcases hys with rfl | rfl
      · refine ⟨?_, ?_, ?_⟩
        · simpa [End.arming, End.diverts] using hwaits
        · simp [Action.letter]
        · simp [Says]
      · refine ⟨?_, ?_, ?_⟩
        · simpa [toFarEnd, End.arming, End.diverts] using hwaits
        · simp [toFarEnd, Action.letter, Fits]
        · simp [toFarEnd, Says]
    | some o =>
      rw [hordered] at hxs
      obtain ⟨hp, rfl⟩ := hxs
      obtain ⟨he, hf, hother⟩ := ho o hordered
      obtain ⟨f, hf⟩ := Option.isSome_iff_exists.mp hf
      have hends : Stage s (some bsnt) other false 1 := .done hdown hp
      refine ⟨?_, ?_, ?_⟩
      · simpa [toFarEnd, End.arming, End.diverts] using hends
      · simp [toFarEnd, Action.letter, Fits, he]
      · simp [toFarEnd, Says, he, hf, ← hother]

theorem arrival_proceeds (hm : Marked m) (hn : m.restarting = false) (hl : m.hasLink l = true)
    (ha : m.adjacentOf (m.linksetOf l) = some a) {via : LinkId}
    (hfrom : m.linksetFrom a via = some (m.linksetOf l)) {slc : ℕ} {message : ManagementMessage}
    (hs : Stage (m.links l) mine other armed n) (hfits : Fits (m.slcOf l) other (slc, message)) :
    ∃ s xs, Answers m (m.received via a slc message) l s xs ∧
      Proceeds l (m.slcOf l) mine other armed n s xs := by
  have hquiet : ∀ m', Answers m m' l (m.links l) [] → ∃ s xs, Answers m m' l s xs ∧
      Proceeds l (m.slcOf l) mine other armed n s xs := fun m' hanswers =>
    ⟨_, _, hanswers, hs, by simp, by simp⟩
  have hunasked : ∀ fsnc name, (m.links l).phase ≠ .changeoverOrdered →
      ∃ s xs, Answers m (m.changeoverAcknowledgement l fsnc name) l s xs ∧
        Proceeds l (m.slcOf l) mine other armed n s xs := fun fsnc name hp =>
    hquiet _ (acknowledgement_unasked hp fsnc name)
  have hacknowledged : ∀ (fsnc : Option ℕ) (name : String), (∀ f ∈ fsnc, other = some f) →
      ∃ s xs, Answers m (m.changeoverAcknowledgement l fsnc name) l s xs ∧
        Proceeds l (m.slcOf l) mine other armed n s xs := by
    intro fsnc name hf
    by_cases hp : (m.links l).phase = .changeoverOrdered
    · cases hs with
      | up hup hopen => simp [hp] at hopen
      | done hdown hclosed => simp [hp] at hclosed
      | waiting hdown =>
        refine ⟨_, _, acknowledgement_of_waiting hdown.up hp fsnc name, ?_,
          by simp [Action.letter], ?_⟩
        · simpa [End.arming, End.diverts] using
            .done ⟨hdown.up, hdown.bsnt, rfl, hdown.ordered⟩ rfl
        · cases fsnc with
          | none => simp [Says]
          | some f => simp [Says, hf f rfl]
    · exact hunasked fsnc name hp
  obtain ⟨hxco, hxca, heca⟩ := received_about hn hl hfrom
  cases message with
  | xco f =>
    obtain ⟨rfl, rfl⟩ := hfits
    rw [hxco]
    cases hs with
    | up hup hp ho =>
      refine ⟨_, _, order_of_up hup (some f) false, .up hup hp ?_, by simp, by simp⟩
      rintro o ⟨⟩
      exact ⟨rfl, rfl, rfl⟩
    | waiting hdown hp =>
      refine ⟨_, _, order_of_waiting ha hdown.up hp (some f), ?_, ?_, ?_⟩
      · simpa [toFarEnd, End.arming, End.diverts] using
          .done ⟨hdown.up, hdown.bsnt, rfl, hdown.ordered⟩ rfl
      · simp [toFarEnd, Action.letter, Fits, hdown.bsnt]
      · simp [toFarEnd, Says, hdown.bsnt]
    | done hdown hp =>
      refine ⟨_, _, order_of_closed ha hdown.up (by rw [hp]; rfl) (some f) false, ?_, ?_, ?_⟩
      · simpa [toFarEnd, End.arming, End.diverts] using .done hdown hp
      · simp [toFarEnd, Action.letter, Fits]
      · simp [toFarEnd, Says]
  | xca f =>
    obtain ⟨rfl, rfl⟩ := hfits
    rw [hxca]
    exact hacknowledged _ _ (by simp)
  | eca =>
    obtain rfl : slc = m.slcOf l := hfits
    rw [heca]
    exact hacknowledged _ _ (by simp)
  | tfp d | tfa d =>
    refine hquiet _ ?_
    simp only [received, hfrom, hn, receivedFrom, Bool.false_and, Bool.false_eq_true, if_false]
    exact routeMessage_answers hm _ _ _ _ l
  | _ => exact absurd hfits not_false

theorem timeout_proceeds (hl : m.hasLink l = true) (hs : Stage (m.links l) mine other armed n) :
    ∃ s xs, Answers m (m.timeout (.changeover l)) l s xs ∧
      Proceeds l (m.slcOf l) mine other false n s xs ∧ s.phase.changingOver = false := by
  cases hs with
  | up hup hp ho =>
    have hp' : (m.links l).phase.changingOver = false := by rw [hp]; rfl
    rw [timeout_of_settled hp']
    exact ⟨_, _, Answers.refl m l, ⟨.up hup hp ho, by simp, by simp⟩, hp'⟩
  | waiting hdown hp =>
    refine ⟨_, _, timeout_answers hl hdown.up hp,
      ⟨?_, by simp [Action.letter], by simp [Says]⟩, rfl⟩
    simpa [End.arming, End.diverts] using .done ⟨hdown.up, hdown.bsnt, rfl, hdown.ordered⟩ rfl
  | done hdown hp =>
    have hp' : (m.links l).phase.changingOver = false := by rw [hp]; rfl
    rw [timeout_of_settled hp']
    exact ⟨_, _, Answers.refl m l, ⟨.done hdown hp, by simp, by simp⟩, hp'⟩

end Management

/-! ## What the rest of the actions do not change -/

section

variable {l : LinkId} {slc : ℕ} {mine other : Option ℕ} {armed : Bool} {n : ℕ}
  {s : LinkState} {acts : List Action}

theorem arming_of_not_aside {a : Action} (ha : a.aside = false) (armed : Bool) :
    End.arming l armed a = armed := by
  cases a with
  | start timer | stop timer => cases timer <;> simp_all [Action.aside, End.arming]
  | _ => rfl

theorem arming_filter (acts : List Action) (armed : Bool) :
    (acts.filter Action.aside).foldl (End.arming l) armed = acts.foldl (End.arming l) armed := by
  induction acts generalizing armed with
  | nil => rfl
  | cons a acts ih =>
    cases ha : a.aside with
    | true => rw [List.filter_cons_of_pos ha, List.foldl_cons, List.foldl_cons, ih]
    | false =>
      rw [List.filter_cons_of_neg (by simp [ha]), List.foldl_cons, ih, arming_of_not_aside ha]

theorem diverts_filter (acts : List Action) :
    (acts.filter Action.aside).countP (End.diverts l) = acts.countP (End.diverts l) := by
  rw [List.countP_filter]
  apply List.countP_congr
  intro a _
  cases a <;> simp [End.diverts, Action.aside]

theorem Proceeds.says (h : Proceeds l slc mine other armed n s (acts.filter Action.aside)) :
    ∀ a ∈ acts, Says l mine other a := by
  intro a ha
  cases haside : a.aside with
  | true => exact h.allowed a (List.mem_filter.mpr ⟨ha, haside⟩)
  | false =>
    cases a with
    | send dpc code message path => cases message <;> simp_all [Action.aside, Says]
    | divert k fsnc => simp [Action.aside] at haside
    | _ => trivial

theorem Proceeds.mail (h : Proceeds l slc mine other armed n s (acts.filter Action.aside))
    (pc : ℕ) : ∀ c ∈ End.mailFor pc acts, Fits slc mine c := by
  intro c hc
  obtain ⟨a, ha, hletter⟩ := List.mem_filterMap.mp hc
  have hacts := (List.mem_filter.mp ha).1
  cases haside : a.aside with
  | true =>
    exact h.fits c (List.mem_filterMap.mpr ⟨a, List.mem_filter.mpr ⟨hacts, haside⟩, hletter⟩)
  | false =>
    cases a with
    | send dpc code message path =>
      obtain rfl := Option.some.inj hletter
      cases message <;> simp_all [Action.aside, Fits]
    | _ => simp [Action.letter] at hletter

end

/-! ## The invariant of both ends -/

/-- A number, once reported, stays. -/
def Later (reported reported' : Option ℕ) : Prop := reported = none ∨ reported' = reported

theorem Stage.later {s : LinkState} {mine other other' : Option ℕ} {armed : Bool} {n : ℕ}
    (h : Stage s mine other armed n) (hl : Later other other') : Stage s mine other' armed n := by
  cases h with
  | up hup hp ho =>
    refine .up hup hp fun o hmem => ?_
    obtain ⟨he, hf, rfl⟩ := ho o hmem
    rcases hl with hnone | rfl
    · simp [hnone] at hf
    · exact ⟨he, hf, rfl⟩
  | waiting hdown hp => exact .waiting hdown hp
  | done hdown hp => exact .done hdown hp

theorem Fits.later {slc : ℕ} {reported reported' : Option ℕ} {c : ℕ × ManagementMessage}
    (h : Fits slc reported c) (hl : Later reported reported') : Fits slc reported' c := by
  obtain ⟨code, message⟩ := c
  cases message with
  | xco f | xca f =>
    obtain ⟨hcode, rfl⟩ := h
    rcases hl with hnone | rfl
    · cases hnone
    · exact ⟨hcode, rfl⟩
  | _ => exact h

theorem Says.later {l : LinkId} {mine mine' other other' : Option ℕ} {a : Action}
    (h : Says l mine other a) (hm : Later mine mine') (ho : Later other other') :
    Says l mine' other' a := by
  cases a with
  | send dpc code message path =>
    cases message with
    | xca f =>
      obtain rfl : mine = some f := h
      rcases hm with hnone | rfl
      · cases hnone
      · rfl
    | _ => trivial
  | divert k fsnc =>
    cases fsnc with
    | none => trivial
    | some f =>
      intro hk
      obtain rfl : other = some f := h hk
      rcases ho with hnone | rfl
      · cases hnone
      · rfl
  | _ => trivial

/-- What holds of two ends of a link that opposed each other when it was open. -/
structure Sound (l : Bool → LinkId) (p : Bool → End) : Prop where
  rested : ∀ x, Rested (p x).management
  calm : ∀ x, (p x).management.restarting = false
  known : ∀ x, (p x).management.hasLink (l x) = true
  adjacent : ∀ x, (p x).management.adjacentOf ((p x).management.linksetOf (l x)) =
    some (p !x).management.topology.ownPc
  code : ∀ x, (p x).management.slcOf (l x) = (p !x).management.slcOf (l !x)
  stage : ∀ x, Stage ((p x).management.links (l x)) (p x).reported (p !x).reported (p x).armed
    ((p x).done.countP (End.diverts (l x)))
  inbox : ∀ x, ∀ c ∈ (p x).inbox, Fits ((p x).management.slcOf (l x)) (p !x).reported c
  done : ∀ x, ∀ a ∈ (p x).done, Says (l x) (p x).reported (p !x).reported a

theorem both {P : Bool → Prop} (x : Bool) (h : P x) (h' : P !x) : ∀ y, P y := by
  intro y
  by_cases hy : y = x
  · rwa [hy]
  · rwa [Bool.eq_not_of_ne hy]

/-- An input to one end, which had a number reported or a message taken for it. -/
theorem Sound.act {l : Bool → LinkId} {p : Bool → End} (h : Sound l p) (x : Bool) (taken : End)
    (hm : taken.management = (p x).management) (hd : taken.done = (p x).done)
    (hi : ∀ c ∈ taken.inbox, c ∈ (p x).inbox) (hl : Later (p x).reported taken.reported)
    (input : Input) (hinput : ∀ d l, input ≠ .unroutable d l)
    (hproceeds : ∃ s xs, Answers (p x).management ((p x).management.dispatch input) (l x) s xs ∧
      Proceeds (l x) ((p x).management.slcOf (l x)) taken.reported (p !x).reported taken.armed
        ((p x).done.countP (End.diverts (l x))) s xs) :
    Sound l fun y =>
      if y = x then taken.act (l x) input
      else { p y with
        inbox := (p y).inbox ++ End.mailFor (p !x).management.topology.ownPc
          (taken.management.handle input).2 } := by
  obtain ⟨s, xs, hanswers, hproceeds⟩ := hproceeds
  obtain ⟨w, hw⟩ := (h.rested x).settled
  obtain ⟨ht, hn, hlink, hxs⟩ := handle_answers hinput hw.out hanswers
  rw [← hxs] at hproceeds
  generalize hq : (fun y => if y = x then taken.act (l x) input else _ : Bool → End) = q
  have hself : q x = taken.act (l x) input := by
    rw [← hq]
    exact if_pos rfl
  have hother : q (!x) = { p (!x) with
      inbox := (p !x).inbox ++ End.mailFor (p !x).management.topology.ownPc
        (taken.management.handle input).2 } := by
    rw [← hq]
    exact if_neg (Bool.not_ne_self x)
  have hacts : (taken.management.handle input).2 = ((p x).management.handle input).2 := by rw [hm]
  have hcode := h.code !x
  rw [Bool.not_not] at hcode
  constructor
  · refine both x ?_ ?_
    · rw [hself, End.act, hm]
      exact (h.rested x).handle input
    · rw [hother]
      exact h.rested !x
  · refine both x ?_ ?_
    · rw [hself, End.act, hm]
      exact hn.trans (h.calm x)
    · rw [hother]
      exact h.calm !x
  · refine both x ?_ ?_
    · rw [hself, End.act, hm]
      simpa only [hasLink, ht] using h.known x
    · rw [hother]
      exact h.known !x
  · refine both x ?_ ?_
    · rw [hself, hother, End.act, hm]
      simpa only [adjacentOf, linksetOf, ht] using h.adjacent x
    · rw [Bool.not_not, hself, hother, End.act, hm, ht]
      simpa only [Bool.not_not] using h.adjacent !x
  · refine both x ?_ ?_
    · rw [hself, hother, End.act, hm]
      simpa only [slcOf, ht] using h.code x
    · rw [Bool.not_not, hself, hother, End.act, hm]
      simpa only [slcOf, ht] using hcode
  · refine both x ?_ ?_
    · rw [hself, hother, End.act, hm, hd, List.countP_append, hlink]
      have hstage := hproceeds.stage
      rwa [arming_filter, diverts_filter] at hstage
    · rw [Bool.not_not, hself, hother]
      have hstage := h.stage !x
      rw [Bool.not_not] at hstage
      exact hstage.later hl
  · refine both x ?_ ?_
    · rw [hself, hother, End.act, hm]
      intro c hc
      simpa only [slcOf, ht] using h.inbox x c (hi c hc)
    · rw [Bool.not_not, hself, hother]
      intro c hc
      rcases List.mem_append.mp hc with hc | hc
      · have hfits := h.inbox (!x) c hc
        rw [Bool.not_not] at hfits
        exact hfits.later hl
      · rw [hacts] at hc
        have hfits := hproceeds.mail _ c hc
        rwa [← hcode] at hfits
  · refine both x ?_ ?_
    · rw [hself, hother, End.act, hm, hd]
      intro a ha
      rcases List.mem_append.mp ha with ha | ha
      · exact (h.done x a ha).later hl (.inr rfl)
      · exact hproceeds.says a ha
    · rw [Bool.not_not, hself, hother]
      intro a ha
      have hsays := h.done (!x) a ha
      rw [Bool.not_not] at hsays
      exact hsays.later (.inr rfl) hl

theorem Sound.happen {l : Bool → LinkId} {p : Bool → End} (h : Sound l p) {e : Bool × Event}
    (hp : Possible l p e) : Sound l (Mtp3.happen l p e) := by
  obtain ⟨x, event⟩ := e
  obtain ⟨w, hw⟩ := (h.rested x).settled
  cases event with
  | down bsnt =>
    have hreported : (p x).reported = none := hp
    have hdown := linkDown_proceeds (h.adjacent x) (hreported ▸ h.stage x) bsnt
    apply h.act x { p x with reported := some bsnt } rfl rfl (fun c hc => hc) (.inl hreported)
      (.linkDown (l x) bsnt) (by simp)
    simpa only [dispatch, h.known x, ↓reduceIte] using hdown
  | expire =>
    obtain ⟨s, xs, hanswers, hproceeds, -⟩ := timeout_proceeds (h.known x) (h.stage x)
    exact h.act x { p x with armed := false } rfl rfl (fun c hc => hc) (.inr rfl)
      (.timeout (.changeover (l x))) (by simp) ⟨s, xs, hanswers, hproceeds⟩
  | arrive via =>
    obtain ⟨hvia, hfrom⟩ := hp
    cases hinbox : (p x).inbox with
    | nil => simpa only [Mtp3.happen, End.take, hinbox] using h
    | cons c rest =>
      obtain ⟨slc, message⟩ := c
      have hfits := h.inbox x (slc, message) (by simp [hinbox])
      have harrived := arrival_proceeds hw.marked (h.calm x) (h.known x) (h.adjacent x) hfrom
        (h.stage x) hfits
      simp only [Mtp3.happen, End.take, hinbox]
      apply h.act x { p x with inbox := rest } rfl rfl _ (.inr rfl)
        (.received via (p !x).management.topology.ownPc slc message) (by simp)
      · simpa only [dispatch, hvia, ↓reduceIte] using harrived
      · intro c hc
        rw [hinbox]
        exact List.mem_cons_of_mem _ hc

/-- Two ends in states they can be in, when nothing has happened yet. -/
def opposed (m : Bool → Management) : Bool → End := fun x => ⟨m x, [], none, false, []⟩

theorem sound_opposed {l : Bool → LinkId} {m : Bool → Management} (hr : ∀ x, Rested (m x))
    (hl : ∀ x, (m x).hasLink (l x) = true)
    (ha : ∀ x, (m x).adjacentOf ((m x).linksetOf (l x)) = some (m !x).topology.ownPc)
    (hc : (m true).slcOf (l true) = (m false).slcOf (l false))
    (hp : ∀ x, ((m x).links (l x)).phase = .open) (ho : ∀ x, ((m x).links (l x)).ordered = none) :
    Sound l (opposed m) := by
  have hcarries : ∀ x, ((m x).links (l x)).up = true ∧ (m x).restarting = false := by
    intro x
    obtain ⟨w, hw⟩ := (hr x).settled
    exact (hw.phases.link (l x)).carries (by rw [hp x]; rfl)
  constructor
  · exact hr
  · exact fun x => (hcarries x).2
  · exact hl
  · exact ha
  · intro x
    cases x
    · exact hc.symm
    · exact hc
  · exact fun x => .up (hcarries x).1 (hp x) (by simp [opposed, ho x])
  · simp [opposed]
  · simp [opposed]

theorem Stage.diverted {s : LinkState} {mine other : Option ℕ} {armed : Bool} {n : ℕ}
    (h : Stage s mine other armed n) :
    n = if mine = none ∨ armed = true then 0 else 1 := by
  cases h <;> simp

theorem Stage.armed {s : LinkState} {mine other : Option ℕ} {armed : Bool} {n : ℕ}
    (h : Stage s mine other armed n) : armed = s.phase.changingOver := by
  cases h with
  | up hs hp | done hs hp =>
    rw [hp]
    rfl
  | waiting hs hp => exact hp.symm

theorem Stage.down {s : LinkState} {mine other : Option ℕ} {armed : Bool} {n f : ℕ}
    (h : Stage s mine other armed n) (hm : mine = some f) : s.up = false ∧ s.bsnt = f := by
  cases h with
  | up => cases hm
  | waiting hs | done hs =>
    obtain rfl := Option.some.inj hm
    exact ⟨hs.up, hs.bsnt⟩

/-- The timer, whenever it runs out, finds or leaves a link that is down diverted once. -/
theorem Sound.expire {l : Bool → LinkId} {p : Bool → End} (h : Sound l p) {x : Bool} {f : ℕ}
    (hx : (p x).reported = some f) :
    (Mtp3.happen l p (x, .expire) x).done.countP (End.diverts (l x)) = 1 := by
  obtain ⟨w, hw⟩ := (h.rested x).settled
  obtain ⟨s, xs, hanswers, -, hsettled⟩ := timeout_proceeds (h.known x) (h.stage x)
  have hinput : ∀ d k, Input.timeout (.changeover (l x)) ≠ .unroutable d k := by simp
  obtain ⟨-, -, hlink, -⟩ := handle_answers hinput hw.out hanswers
  have hstage := (h.happen (e := (x, .expire)) trivial).stage x
  have hself : Mtp3.happen l p (x, .expire) x =
      { p x with armed := false }.act (l x) (.timeout (.changeover (l x))) := if_pos rfl
  have hphase : ((Mtp3.happen l p (x, .expire) x).management.links (l x)).phase.changingOver =
      false := by
    rw [hself, End.act, hlink, hsettled]
  have hreported : (Mtp3.happen l p (x, .expire) x).reported = some f := by
    rw [hself, End.act, hx]
  have harmed := hstage.armed.trans hphase
  rw [hreported, harmed] at hstage
  exact hstage.diverted

/-- Both ends of a link that fails divert its traffic once, from the number that the other
end reported, and acknowledge an order with their own number when level 2 has stopped. -/
theorem changeover_agrees (topology : Bool → Topology) (timers : Bool → Timers)
    (tfp : Bool → Bool) (is : Bool → List Input) (l : Bool → LinkId)
    (events : List (Bool × Event)) :
    let m := fun x => Machine.run (fun m i => (m.handle i).1)
      (new (topology x) (timers x) (tfp x)) (is x)
    (∀ x, (m x).hasLink (l x) = true) →
    (∀ x, (m x).adjacentOf ((m x).linksetOf (l x)) = some (m !x).topology.ownPc) →
    (m true).slcOf (l true) = (m false).slcOf (l false) →
    (∀ x, ((m x).links (l x)).phase = .open) → (∀ x, ((m x).links (l x)).ordered = none) →
    Machine.Along (happen l) (Possible l) (opposed m) events →
    let p := Machine.run (happen l) (opposed m) events
    ∀ x,
      (p x).done.countP (End.diverts (l x)) =
        (if (p x).reported = none ∨ (p x).armed = true then 0 else 1) ∧
      ((p x).reported ≠ none →
        (happen l p (x, .expire) x).done.countP (End.diverts (l x)) = 1) ∧
      (∀ f, .divert (l x) (some f) ∈ (p x).done → (p !x).reported = some f) ∧
      ∀ dpc slc f path, .send dpc slc (.xca f) path ∈ (p x).done →
        (p x).reported = some f ∧ ((p x).management.links (l x)).up = false := by
  intro m hl ha hc hp ho hevents p x
  have hsound : Sound l p := by
    apply Machine.run_invariant (fun p e hp he => Sound.happen hp he) _ hevents
    exact sound_opposed (fun x => rested_run (topology x) (timers x) (tfp x) (is x)) hl ha hc hp ho
  clear_value p
  refine ⟨(hsound.stage x).diverted, ?_, ?_, ?_⟩
  · intro hreported
    obtain ⟨f, hf⟩ := Option.ne_none_iff_exists'.mp hreported
    exact hsound.expire hf
  · intro f hf
    exact hsound.done x _ hf rfl
  · intro dpc slc f path hf
    have hreported : (p x).reported = some f := hsound.done x _ hf
    exact ⟨hreported, ((hsound.stage x).down hreported).1⟩

/-- Two points that a link and a third point connect. -/
def facingTopology (x : Bool) : Topology where
  ownPc := if x then 1 else 2
  linksets := [⟨some (if x then 2 else 1), [0]⟩, ⟨some 3, [1]⟩]
  links := [⟨0, 0⟩, ⟨1, 0⟩]
  servers := 0
  routes := [(if x then 2 else 1, [⟨.linkset 0, 0⟩, ⟨.linkset 1, 1⟩]), (3, [⟨.linkset 1, 0⟩])]
  member := by decide +revert
  owner := by decide +revert
  nodup := by decide +revert
  codes := by decide +revert
  destinations := by decide +revert
  itu := by decide +revert

theorem changeover_agrees_of_failure :
    (Machine.run (happen fun _ => 0) (opposed fun x => Machine.run (fun m i => (m.handle i).1)
        (new (facingTopology x) unitTimers false) [.linkUp 0, .linkUp 1, .timeout .restart])
      [(true, .down 5), (false, .arrive 1), (false, .down 9), (true, .arrive 1)]
        true).done.countP (End.diverts 0) = 1 :=
  ((changeover_agrees facingTopology (fun _ => unitTimers) (fun _ => false)
    (fun _ => [.linkUp 0, .linkUp 1, .timeout .restart]) (fun _ => 0)
    [(true, .down 5), (false, .arrive 1), (false, .down 9), (true, .arrive 1)]
    (by decide +kernel) (by decide +kernel) (by decide +kernel) (by decide +kernel)
    (by decide +kernel) (by decide +kernel)) true).1.trans (by decide +kernel)

end SiphonSigtran.Mtp3
