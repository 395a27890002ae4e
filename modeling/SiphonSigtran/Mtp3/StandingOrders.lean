import SiphonSigtran.M2pa.Traffic
import SiphonSigtran.Mtp3.LinkPhases

/-!
# What management last asked for

The rest of the node does what it was last told: a link carries, buffers or passes on its traffic,
a destination is held or not, and traffic from the linksets is discarded while this node restarts.
After every input that is what management has decided. An order may be owed in between: while the
links that a restart opens are announced, while a changeover is completed.
-/

namespace SiphonSigtran.Mtp3

open Lib Management
open M2pa (TrafficState)

/-- What a link does with its traffic in a phase. -/
def Phase.traffic : Phase → TrafficState
  | .closed | .awaitRestart => .closed
  | .open => .open
  | .changeoverOrdered | .changeoverTimed | .changebackDeclared _ | .changebackTimed => .hold

/-- The orders that stand. -/
structure Standing where
  traffic : LinkId → TrafficState
  holding : ℕ → Bool
  restarting : Bool

namespace Standing

def new : Standing := ⟨fun _ => .closed, fun _ => false, false⟩

def note (o : Standing) : Action → Standing
  | .hold link => { o with traffic := Function.update o.traffic link .hold }
  | .open link => { o with traffic := Function.update o.traffic link .open }
  | .divert link _ => { o with traffic := Function.update o.traffic link .closed }
  | .holdDestination dpc => { o with holding := Function.update o.holding dpc true }
  | .releaseDestination dpc => { o with holding := Function.update o.holding dpc false }
  | .restarting on => { o with restarting := on }
  | _ => o

def notes (o : Standing) (xs : List Action) : Standing := xs.foldl note o

@[simp] theorem notes_nil (o : Standing) : o.notes [] = o := rfl

@[simp] theorem notes_cons (o : Standing) (a : Action) (xs : List Action) :
    o.notes (a :: xs) = (o.note a).notes xs := rfl

@[simp] theorem notes_append (o : Standing) (xs ys : List Action) :
    o.notes (xs ++ ys) = (o.notes xs).notes ys := List.foldl_append

end Standing

/-- An order that stands until the next one of its kind. -/
def Action.orders : Action → Bool
  | .hold _ | .open _ | .divert _ _ | .holdDestination _ | .releaseDestination _
  | .restarting _ => true
  | _ => false

theorem Standing.note_of_no_order (o : Standing) {a : Action} (h : a.orders = false) :
    o.note a = o := by
  cases a with
  | hold | «open» | divert | holdDestination | releaseDestination | restarting => cases h
  | _ => rfl

theorem Standing.notes_of_no_order (o : Standing) {xs : List Action}
    (h : ∀ a ∈ xs, a.orders = false) : o.notes xs = o := by
  induction xs with
  | nil => rfl
  | cons a xs ih =>
    rw [notes_cons, o.note_of_no_order (h a List.mem_cons_self)]
    exact ih fun b hb => h b (List.mem_cons_of_mem a hb)

theorem Action.no_order_of_plain {a : Action} (h : a.plain = true) : a.orders = false := by
  cases a with
  | hold | «open» | divert | holdDestination | releaseDestination | restarting => cases h
  | _ => rfl

/-! ## What gives no order -/

/-- Nothing about the traffic of links, held destinations and the restart changes, no link comes or
goes, and no order is given. -/
structure Idles (m m' : Management) : Prop where
  topology : m'.topology = m.topology
  link : ∀ l, (m'.links l).phase = (m.links l).phase ∧ (m'.links l).up = (m.links l).up
  holding : ∀ d, (m'.destinations d).holding = (m.destinations d).holding
  deferred : ∀ d, (m'.destinations d).deferred = (m.destinations d).deferred
  restarting : m'.restarting = m.restarting
  out : ∃ xs, actions m'.out = actions m.out ++ xs ∧ ∀ a ∈ xs, a.orders = false

namespace Idles

variable {m m' m'' : Management}

theorem refl (m : Management) : Idles m m :=
  ⟨rfl, fun _ => ⟨rfl, rfl⟩, fun _ => rfl, fun _ => rfl, rfl, [], by simp⟩

theorem trans (h : Idles m m') (h' : Idles m' m'') : Idles m m'' where
  topology := h'.topology.trans h.topology
  link l := ⟨(h'.link l).1.trans (h.link l).1, (h'.link l).2.trans (h.link l).2⟩
  holding d := (h'.holding d).trans (h.holding d)
  deferred d := (h'.deferred d).trans (h.deferred d)
  restarting := h'.restarting.trans h.restarting
  out := by
    obtain ⟨xs, hxs, hno⟩ := h.out
    obtain ⟨ys, hys, hno'⟩ := h'.out
    refine ⟨xs ++ ys, by rw [hys, hxs, List.append_assoc], fun a ha => ?_⟩
    rcases List.mem_append.mp ha with ha | ha
    · exact hno a ha
    · exact hno' a ha

theorem foldl {α : Type*} {f : Management → α → Management} (hf : ∀ m x, Idles m (f m x))
    (xs : List α) (m : Management) : Idles m (xs.foldl f m) := by
  induction xs generalizing m with
  | nil => exact refl m
  | cons x xs ih => exact (hf m x).trans (ih (f m x))

theorem extend (h : Idles m m') {xs : List Action} (hxs : ∀ a ∈ xs, a.orders = false) :
    Idles m (m'.extend xs) :=
  h.trans ⟨rfl, fun _ => ⟨rfl, rfl⟩, fun _ => rfl, fun _ => rfl, rfl, xs, actions_extend m' xs, hxs⟩

theorem push (h : Idles m m') {a : Action} (ha : a.orders = false) : Idles m (m'.push a) := by
  rw [push_eq_extend]
  exact h.extend fun b hb => List.mem_singleton.mp hb ▸ ha

theorem note (h : Idles m m') (procedure : Procedure) (subject : Subject) :
    Idles m (m'.note procedure subject) := h.push rfl

theorem ignored (h : Idles m m') (name why : String) : Idles m (m'.ignored name why) := h.push rfl

theorem send (h : Idles m m') (L : LinksetId) (slc : ℕ) (message : ManagementMessage)
    (path : Path) : Idles m (m'.send L slc message path) := by
  obtain ⟨xs, hxs, hsends⟩ := send_extend m' L slc message path
  rw [hxs]
  refine h.extend fun a ha => ?_
  obtain ⟨dpc, rfl⟩ := hsends a ha
  rfl

theorem tell (h : Idles m m') (L : LinksetId) (slc : ℕ) (message : ManagementMessage) :
    Idles m (m'.tell L slc message) := h.send L slc message _

theorem setLinkset (h : Idles m m') (L : LinksetId) (f : LinksetState → LinksetState) :
    Idles m (m'.setLinkset L f) :=
  h.trans ⟨rfl, fun _ => ⟨rfl, rfl⟩, fun _ => rfl, fun _ => rfl, rfl, [],
    by simp [Management.setLinkset]⟩

theorem setLink (h : Idles m m') (l : LinkId) {f : LinkState → LinkState}
    (hf : ∀ s, (f s).phase = s.phase ∧ (f s).up = s.up) : Idles m (m'.setLink l f) := by
  refine h.trans ⟨rfl, fun k => ?_, fun _ => rfl, fun _ => rfl, rfl, [],
    by simp [Management.setLink]⟩
  by_cases hk : k = l
  · rw [hk, setLink_self]
    exact hf _
  · rw [setLink_ne _ _ hk]
    exact ⟨rfl, rfl⟩

theorem setDestination (h : Idles m m') (d : ℕ) {f : DestinationState → DestinationState}
    (hh : ∀ s, (f s).holding = s.holding) (hd : ∀ s, (f s).deferred = s.deferred) :
    Idles m (m'.setDestination d f) := by
  refine h.trans ⟨rfl, fun _ => ⟨rfl, rfl⟩, fun e => ?_, fun e => ?_, rfl, [],
    by simp [Management.setDestination]⟩
  all_goals
    by_cases he : e = d
    · rw [he, setDestination_self]
      first | exact hh _ | exact hd _
    · rw [setDestination_ne _ _ he]

/-- What leaves links, routes and restarts alone says what is believed of destinations. -/
theorem of_unmoved (h : Unmoved m m') : Idles m m' := by
  refine ⟨h.topology, fun l => by simp [h.links], fun d => by rw [h.destination d],
    fun d => by rw [h.destination d], h.restarting, ?_⟩
  obtain ⟨es, hes, hbelief⟩ := h.out
  refine ⟨actions es, by rw [hes, actions, List.filterMap_append]; rfl, fun a ha => ?_⟩
  obtain ⟨e, hmem, he⟩ := List.mem_filterMap.mp ha
  have hsaid := hbelief e hmem
  cases e with
  | act action =>
    obtain rfl := Option.some.inj he
    cases action with
    | hold | «open» | divert | holdDestination | releaseDestination | restarting => cases hsaid
    | _ => rfl
  | resynced => cases he

theorem settle (h : Idles m m') : Idles m m'.settle :=
  h.trans (of_unmoved (settle_quiet m').2)

theorem guard (h : Idles m m') (d : ℕ) : Idles m (m'.guard d) :=
  h.trans (of_unmoved (guard_quiet m' d).2)

theorem watchIsolation (h : Idles m m') : Idles m m'.watchIsolation := by
  refine h.trans ?_
  unfold Management.watchIsolation
  extract_lets isolated m₁
  have hsame : Idles m' m₁ :=
    ⟨rfl, fun _ => ⟨rfl, rfl⟩, fun _ => rfl, fun _ => rfl, rfl, [], by simp [m₁]⟩
  split_ifs
  · exact refl m'
  · exact hsame.push rfl
  · exact hsame.push rfl

theorem allowRoutesThrough (h : Idles m m') (L : LinksetId) :
    Idles m (m'.allowRoutesThrough L) := by
  refine h.trans ?_
  unfold Management.allowRoutesThrough
  extract_lets cleared m₁
  have hsame : Idles m' m₁ :=
    ⟨rfl, fun _ => ⟨rfl, rfl⟩, fun _ => rfl, fun _ => rfl, rfl, [], by simp [m₁]⟩
  refine hsame.extend fun a ha => ?_
  obtain ⟨d, -, ha⟩ := List.mem_flatMap.mp ha
  simp only [List.mem_cons, List.not_mem_nil, or_false] at ha
  rcases ha with rfl | rfl <;> rfl

theorem routeSetTest (m : Management) (L : LinksetId) (d : ℕ) (believes : RouteStatus) :
    Idles m (m.routeSetTest L d believes) := by
  unfold Management.routeSetTest
  extract_lets prohibited actual message m₁
  have hbelief : Idles m m₁ := by
    simp only [m₁]
    split
    · exact (refl m).setDestination d (fun _ => rfl) fun _ => rfl
    · exact refl m
  clear_value message
  split_ifs
  · exact refl m
  · cases message with
    | none => exact refl m
    | some text => exact hbelief.tell L 0 _

theorem unroutable (m : Management) (d : ℕ) (l : LinkId) : Idles m (m.unroutable d l) := by
  unfold Management.unroutable
  extract_lets L
  split_ifs with hoff hadjacent hknown
  · exact refl m
  · exact refl m
  · split
    · exact refl m
    · refine (((refl m).setDestination d ?_ ?_).tell L 0 _).guard d
      · exact fun _ => rfl
      · exact fun _ => rfl
  · split
    · exact refl m
    · exact refl m
  · split
    · exact refl m
    · exact ((refl m).tell L 0 _).guard d

theorem declare (h : Idles m m') (l : LinkId) (alternatives : List LinkId) :
    Idles m (m'.declare l alternatives).1 := by
  obtain ⟨code, sends, hsends, heq⟩ := declare_spec m' l alternatives
  have hsame : Idles m' { m' with nextCode := code } :=
    ⟨rfl, fun _ => ⟨rfl, rfl⟩, fun _ => rfl, fun _ => rfl, rfl, [], by simp⟩
  rw [heq]
  exact h.trans (hsame.extend fun a ha => Action.no_order_of_plain (hsends a ha))

theorem redeclare (h : Idles m m') (l : LinkId) (declared : List (ℕ × LinkId)) :
    Idles m (m'.redeclare l declared) := by
  induction declared generalizing m' with
  | nil => exact h
  | cons d declared ih => exact ih (h.send _ _ _ _)

theorem allowRestart (m : Management) (L : LinksetId) : Idles m (m.allowRestart L) := by
  unfold Management.allowRestart
  split_ifs
  · exact refl m
  · exact (((refl m).tell L 0 _).setLinkset L _).push rfl

theorem acknowledgeOrder (h : Idles m m') (l : LinkId) (emergency : Bool) :
    Idles m (m'.acknowledgeOrder l emergency) := h.send _ _ _ _

theorem repeatUninhibit (m : Management) (l : LinkId) (force : Bool) :
    Idles m (m.repeatUninhibit l force) := by
  unfold Management.repeatUninhibit
  extract_lets attempts timer after message set
  have hset : ∀ {m' : Management} (next : ℕ), Idles m m' → Idles m (set m' next) := by
    intro m' next h
    refine h.setLink l fun s => ?_
    cases force <;> exact ⟨rfl, rfl⟩
  split_ifs
  · exact refl m
  · exact hset 2 (((refl m).send _ _ _ _).push rfl)
  · exact hset 0 ((refl m).note _ _)

end Idles

/-! ## Orders that are owed -/

/-- What was last asked for is what management has decided, but for what is owed to `P`; the links
`u` are up. -/
structure Stands (T : Topology) (u : LinkId → Bool) (o : Standing) (P : Set Subject)
    (m : Management) : Prop where
  topology : m.topology = T
  marked : Marked m
  named : ∀ l, (m.links l).phase ≠ .closed → l < T.links.length
  up : ∀ l, (m.links l).up = u l
  traffic : ∀ l, Subject.link l ∉ P →
    (o.notes (actions m.out)).traffic l = (m.links l).phase.traffic
  holding : ∀ d, (o.notes (actions m.out)).holding d = (m.destinations d).holding
  restarting : Subject.node ∉ P → (o.notes (actions m.out)).restarting = m.restarting

/-- The link an order is about, and what it does with its traffic from then on. -/
def Action.leads : Action → Option (LinkId × TrafficState)
  | .hold link => some (link, .hold)
  | .open link => some (link, .open)
  | .divert link _ => some (link, .closed)
  | _ => none

theorem Standing.note_of_leads (o : Standing) {a : Action} {l : LinkId} {t : TrafficState}
    (h : a.leads = some (l, t)) :
    o.note a = { o with traffic := Function.update o.traffic l t } := by
  cases a with
  | hold | «open» | divert =>
    obtain ⟨rfl, rfl⟩ := Prod.mk.inj (Option.some.inj h)
    rfl
  | _ => cases h

/-- The links that are up once a link of the domain came or went. -/
def Input.hears (T : Topology) (u : LinkId → Bool) : Input → LinkId → Bool
  | .linkUp link => if link < T.links.length then Function.update u link true else u
  | .linkDown link _ => if link < T.links.length then Function.update u link false else u
  | _ => u

theorem notes_push (o : Standing) (m : Management) (a : Action) :
    o.notes (actions (m.push a).out) = (o.notes (actions m.out)).note a := by
  rw [actions_push, Standing.notes_append]
  rfl

namespace Stands

variable {T : Topology} {u : LinkId → Bool} {o : Standing} {P : Set Subject} {m m' : Management}
  {l : LinkId}

theorem idle (h : Stands T u o P m) (hi : Idles m m') : Stands T u o P m' := by
  obtain ⟨xs, hxs, hno⟩ := hi.out
  have hsame : o.notes (actions m'.out) = o.notes (actions m.out) := by
    rw [hxs, Standing.notes_append, Standing.notes_of_no_order _ hno]
  refine ⟨hi.topology.trans h.topology, ?_, ?_, fun l => (hi.link l).2.trans (h.up l), ?_, ?_, ?_⟩
  · intro d
    rw [hi.deferred]
    exact h.marked d
  · intro l
    rw [(hi.link l).1]
    exact h.named l
  · intro l hl
    rw [hsame, (hi.link l).1]
    exact h.traffic l hl
  · intro d
    rw [hsame, hi.holding]
    exact h.holding d
  · intro hn
    rw [hsame, hi.restarting]
    exact h.restarting hn

theorem mono {Q : Set Subject} (h : Stands T u o P m) (hPQ : P ⊆ Q) : Stands T u o Q m :=
  ⟨h.topology, h.marked, h.named, h.up, fun l hl => h.traffic l fun hp => hl (hPQ hp), h.holding,
    fun hn => h.restarting fun hp => hn (hPQ hp)⟩

/-- The phase of a link changes, and its order is owed from then on. -/
theorem owe (h : Stands T u o P m) (f : LinkState → LinkState)
    (hl : (f (m.links l)).phase ≠ .closed → l < T.links.length)
    (hu : (f (m.links l)).up = (m.links l).up) :
    Stands T u o (insert (Subject.link l) P) (m.setLink l f) := by
  refine ⟨h.topology, h.marked, fun k hk => ?_, fun k => ?_, fun k hk => ?_, h.holding,
    fun hn => h.restarting fun hp => hn (Set.mem_insert_of_mem _ hp)⟩
  · by_cases hkl : k = l
    · subst hkl
      rw [setLink_self] at hk
      exact hl hk
    · rw [setLink_ne _ _ hkl] at hk
      exact h.named k hk
  · rw [← h.up k]
    by_cases hkl : k = l
    · rw [hkl, setLink_self, hu]
    · rw [setLink_ne _ _ hkl]
  · have hkl : k ≠ l := by
      rintro rfl
      exact hk (Set.mem_insert _ P)
    rw [setLink_ne _ _ hkl]
    exact h.traffic k fun hp => hk (Set.mem_insert_of_mem _ hp)

/-- What is owed to a link is given. -/
theorem pay (h : Stands T u o (insert (Subject.link l) P) m) {a : Action}
    (ha : a.leads = some (l, (m.links l).phase.traffic)) : Stands T u o P (m.push a) := by
  have hnote := (notes_push o m a).trans (Standing.note_of_leads _ ha)
  refine ⟨h.topology, h.marked, h.named, h.up, fun k hk => ?_, fun d => ?_, fun hn => ?_⟩
  · rw [hnote]
    by_cases hkl : k = l
    · rw [hkl]
      exact Function.update_self ..
    · refine (Function.update_of_ne hkl ..).trans (h.traffic k ?_)
      simpa [hkl] using hk
  · rw [hnote]
    exact h.holding d
  · rw [hnote]
    exact h.restarting (by simpa using hn)

/-- An order to a link that will be owed another. -/
theorem ahead (h : Stands T u o P m) {a : Action} {t : TrafficState} (ha : a.leads = some (l, t)) :
    Stands T u o (insert (Subject.link l) P) (m.push a) := by
  have hnote := (notes_push o m a).trans (Standing.note_of_leads _ ha)
  refine ⟨h.topology, h.marked, h.named, h.up, fun k hk => ?_, fun d => ?_, fun hn => ?_⟩
  · have hkl : k ≠ l := by
      rintro rfl
      exact hk (Set.mem_insert _ P)
    rw [hnote]
    exact (Function.update_of_ne hkl ..).trans
      (h.traffic k fun hp => hk (Set.mem_insert_of_mem _ hp))
  · rw [hnote]
    exact h.holding d
  · rw [hnote]
    exact h.restarting fun hp => hn (Set.mem_insert_of_mem _ hp)

/-- What is owed to the node is given. -/
theorem payNode (h : Stands T u o (insert .node P) m) {on : Bool} (hon : m.restarting = on) :
    Stands T u o P (m.push (.restarting on)) := by
  refine ⟨h.topology, h.marked, h.named, h.up, fun l hl => ?_, fun d => ?_, fun _ => ?_⟩
  · rw [notes_push]
    exact h.traffic l (by simpa using hl)
  · rw [notes_push]
    exact h.holding d
  · rw [notes_push]
    exact hon.symm

theorem owing (h : Stands T u o P m) (x : Subject) : Stands T u o (insert x P) m :=
  h.mono (Set.subset_insert x P)

/-- The phase of a link changes with the order that goes with it. -/
theorem order (h : Stands T u o (insert (Subject.link l) P) m) (f : LinkState → LinkState)
    (hl : (f (m.links l)).phase ≠ .closed → l < T.links.length)
    (hu : (f (m.links l)).up = (m.links l).up) {a : Action}
    (ha : a.leads = some (l, (f (m.links l)).phase.traffic)) :
    Stands T u o P ((m.setLink l f).push a) :=
  have howed : Stands T u o (insert (Subject.link l) P) (m.setLink l f) :=
    (h.owe f hl hu).mono (by rw [Set.insert_idem])
  howed.pay (by rw [setLink_self]; exact ha)

/-- The phase of a link changes to one in which it does the same with its traffic. -/
theorem setLink (h : Stands T u o P m) (f : LinkState → LinkState)
    (hl : (f (m.links l)).phase ≠ .closed → l < T.links.length)
    (hu : (f (m.links l)).up = (m.links l).up)
    (hf : (f (m.links l)).phase.traffic = (m.links l).phase.traffic) :
    Stands T u o P (m.setLink l f) := by
  refine ⟨h.topology, h.marked, (h.owe f hl hu).named, (h.owe f hl hu).up, fun k hk => ?_,
    h.holding, h.restarting⟩
  by_cases hkl : k = l
  · subst hkl
    rw [setLink_self, hf]
    exact h.traffic k hk
  · rw [setLink_ne _ _ hkl]
    exact h.traffic k hk

/-- A link comes or goes, which is not yet acted on. -/
theorem hears (h : Stands T u o P m) (f : LinkState → LinkState)
    (hf : (f (m.links l)).phase = (m.links l).phase) {on : Bool}
    (hon : (f (m.links l)).up = on) :
    Stands T (Function.update u l on) o P (m.setLink l f) := by
  refine ⟨h.topology, h.marked, fun k hk => ?_, fun k => ?_, fun k hk => ?_, h.holding,
    h.restarting⟩
  all_goals by_cases hkl : k = l
  · subst hkl
    rw [setLink_self, hf] at hk
    exact h.named k hk
  · rw [setLink_ne _ _ hkl] at hk
    exact h.named k hk
  · rw [hkl, setLink_self, Function.update_self]
    exact hon
  · rw [setLink_ne _ _ hkl, Function.update_of_ne hkl]
    exact h.up k
  · subst hkl
    rw [setLink_self, hf]
    exact h.traffic k hk
  · rw [setLink_ne _ _ hkl]
    exact h.traffic k hk

theorem foldl {α : Type*} {f : Management → α → Management} {xs : List α}
    (hf : ∀ m, Stands T u o P m → ∀ x ∈ xs, Stands T u o P (f m x)) (h : Stands T u o P m) :
    Stands T u o P (xs.foldl f m) := by
  induction xs generalizing m with
  | nil => exact h
  | cons x xs ih =>
    exact ih (fun m hm y hy => hf m hm y (List.mem_cons_of_mem x hy)) (hf m h x List.mem_cons_self)

/-! ## Restoration and changeback -/

theorem timeControlledChangeback (h : Stands T u o P m) (hl : l < T.links.length) :
    Stands T u o P (m.timeControlledChangeback l) :=
  ((h.owing _).order (fun s => { s with phase := .changebackTimed }) (fun _ => hl) rfl
    rfl).idle
    ((Idles.refl _).push rfl)

theorem startTraffic (h : Stands T u o P m) (hl : l < T.links.length) :
    Stands T u o P (m.startTraffic l) := by
  unfold Management.startTraffic
  extract_lets L diverted
  split_ifs
  · exact h.timeControlledChangeback hl
  · have howed := (h.owe (fun s => { s with phase := .open }) (fun _ => hl) rfl).idle
      (Idles.refl _).settle
    refine howed.pay ?_
    rw [(settle_quiet _).2.links, setLink_self]
    rfl

theorem restore (h : Stands T u o P m) (hl : l < T.links.length)
    (hs : (m.links l).phase.traffic = .closed) : Stands T u o P (m.restore l) := by
  unfold Management.restore
  extract_lets L carrying declared m₁ m₂ m₃ m₄ m₅ m₆
  split_ifs
  · exact h.setLink _ (fun _ => hl) rfl hs.symm
  · exact h.timeControlledChangeback hl
  · obtain ⟨code, sends, hsends, heq⟩ := declare_spec (m.push (.hold l)) l carrying
    rw [show declared.1 = _ from heq]
    have hcode : Stands T u o P { m with nextCode := code } :=
      ⟨h.topology, h.marked, h.named, h.up, h.traffic, h.holding, h.restarting⟩
    have hheld := (hcode.owing _).order (l := l) (fun s =>
      { s with declared := declared.2, phase := .changebackDeclared false }) (fun _ => hl)
        rfl (a := .hold l) rfl
    have hsent := hheld.idle ((Idles.refl _).extend fun a ha =>
      Action.no_order_of_plain (hsends a ha))
    exact hsent.idle ((Idles.refl _).push rfl)
  · have hallowed : Stands T u o P m₂ :=
      h.idle (((Idles.refl m).setLinkset L _).allowRoutesThrough L)
    have hphase : (m₂.links l).phase = (m.links l).phase := rfl
    have hwaiting : Stands T u o P m₃ :=
      hallowed.setLink _ (fun _ => hl) rfl (by rw [hphase, hs]; rfl)
    refine hwaiting.idle (Idles.setLinkset ?_ L _)
    exact ((((Idles.refl m₃).push rfl).note _ _).settle).send L 0 _ _
  · exact h.startTraffic hl

theorem finishChangeback (h : Stands T u o P m) (hl : l < T.links.length) (how : Procedure) :
    Stands T u o P (m.finishChangeback l how) := by
  have hstopped := h.idle ((Idles.refl m).push (a := .stop (.changeback l)) rfl)
  have hopened := (hstopped.owing _).order (l := l)
    (fun s => { s with declared := [], phase := .open }) (fun _ => hl) rfl (a := .open l) rfl
  exact hopened.idle ((Idles.refl _).note how (.link l))

/-! ## Restarts -/

theorem opens {ls : List LinkId} (h : Stands T u o (P ∪ {x | ∃ l ∈ ls, x = .link l}) m)
    (hopen : ∀ l ∈ ls, (m.links l).phase = .open) : Stands T u o P (m.extend (ls.map .open)) := by
  induction ls generalizing m with
  | nil =>
    rw [List.map_nil, extend_nil]
    exact h.mono (by simp)
  | cons l ls ih =>
    have hset : P ∪ {x | ∃ k ∈ l :: ls, x = .link k} ⊆
        insert (.link l) (P ∪ {x | ∃ k ∈ ls, x = .link k}) := by
      rintro x (hx | ⟨k, hk, rfl⟩)
      · exact .inr (.inl hx)
      · rcases List.mem_cons.mp hk with rfl | hk
        · exact .inl rfl
        · exact .inr (.inr ⟨k, hk, rfl⟩)
    have hpaid := (h.mono hset).pay (a := .open l) (by rw [hopen l List.mem_cons_self]; rfl)
    have hrest := ih hpaid fun k hk => hopen k (List.mem_cons_of_mem l hk)
    simpa [push_eq_extend] using hrest

theorem endRestart (h : Stands T u o P m) : Stands T u o P m.endRestart := by
  unfold Management.endRestart
  extract_lets opened m₁ m₂ m₃ m₄
  split_ifs
  · exact h
  · -- The links that waited are open from here on, and are told so once all is settled.
    have howed : Stands T u o
        (insert .node P ∪ {x | ∃ l ∈ opened, x = .link l}) m₂ := by
      have hstopped : Stands T u o P ((m.push (.stop .restart)).push (.stop .restartOverall)) :=
        h.idle (((Idles.refl m).push rfl).push rfl)
      refine ⟨hstopped.topology, hstopped.marked, fun l hl => ?_, fun l => ?_, fun l hl => ?_,
        hstopped.holding, fun hn => absurd (.inl (Set.mem_insert _ P)) hn⟩
      · by_cases hw : (m.links l).phase = .awaitRestart
        · exact h.named l (by simp [hw])
        · refine h.named l fun hc => hl ?_
          simp [m₂, m₁, push, hc]
      · rw [← h.up l]
        by_cases hw : (m.links l).phase = .awaitRestart <;> simp [m₂, m₁, push, hw]
      · have hw : (m.links l).phase ≠ .awaitRestart := by
          intro hw
          refine hl (.inr ⟨l, ?_, rfl⟩)
          have hlt := h.named l (by simp [hw])
          simp [opened, linkIds, h.topology, hlt, hw]
        have hphase : (m₂.links l).phase = (m.links l).phase := by simp [m₂, m₁, push, hw]
        rw [hphase]
        exact hstopped.traffic l fun hp => hl (.inl (Set.mem_insert_of_mem _ hp))
    have hopened : Stands T u o (insert .node P) m₃ := by
      refine (howed.idle (Idles.refl m₂).settle).opens fun l hl => ?_
      have hwait : (m.links l).phase = .awaitRestart := by simpa using (List.mem_filter.mp hl).2
      rw [(settle_quiet m₂).2.links]
      simp [m₂, m₁, push, hwait]
    have hstill : Idles m₃ m₄ := Idles.foldl Idles.allowRestart m₃.linksetIds m₃
    have hallowed : Stands T u o (insert .node P) m₄ := hopened.idle hstill
    have hend : m₄.restarting = false := by
      rw [hstill.restarting, show m₃.restarting = m₂.settle.restarting from rfl,
        (settle_quiet m₂).2.restarting]
      rfl
    exact (hallowed.payNode hend).idle ((Idles.refl _).note _ _)

theorem restartProgress (h : Stands T u o P m) : Stands T u o P m.restartProgress := by
  unfold Management.restartProgress
  extract_lets complete
  split_ifs
  · exact h.endRestart
  · exact h

theorem endAdjacentRestart (h : Stands T u o P m) (L : LinksetId) (how : Procedure) :
    Stands T u o P (m.endAdjacentRestart L how) := by
  unfold Management.endAdjacentRestart
  extract_lets m₁ m₂ waiting
  refine foldl (fun n hn l hl => hn.startTraffic ?_)
    (h.idle ((((Idles.refl m).setLinkset L _).push rfl).note how (.linkset L)))
  have hmem : l ∈ m.linksOf L := (List.mem_filter.mp hl).1
  have hlink := (hasLink_of_mem hmem).1
  rw [hasLink, h.topology] at hlink
  exact of_decide_eq_true hlink

theorem trafficRestartAllowed (h : Stands T u o P m) (L : LinksetId) :
    Stands T u o P (m.trafficRestartAllowed L) := by
  unfold Management.trafficRestartAllowed
  extract_lets m₁ m₂
  have hreceived : Stands T u o P m₁ := h.idle ((Idles.refl m).setLinkset L _)
  split_ifs
  · exact hreceived.restartProgress
  · exact hreceived.endAdjacentRestart L _
  · exact hreceived
  · exact h.idle ((Idles.refl m).ignored _ _)
  · refine h.idle (Idles.push (Idles.setLinkset (Idles.tell ?_ L 0 _) L _) rfl)
    exact ((Idles.refl m).setLinkset L _).settle

theorem beginRestart (h : Stands T u o P m) : Stands T u o P m.beginRestart := by
  unfold Management.beginRestart
  extract_lets m₁ m₂
  have hset : Stands T u o (insert .node P) m₁ :=
    ⟨h.topology, h.marked, h.named, h.up, fun l hl => h.traffic l fun hp => hl (.inr hp), h.holding,
      fun hn => absurd (Set.mem_insert _ P) hn⟩
  have hidle : Idles m₁ m₂ := Idles.foldl
    (fun n L => ((Idles.refl n).allowRoutesThrough L).setLinkset L _) _ _
  have hallowed : Stands T u o (insert .node P) m₂ := hset.idle hidle
  exact (hallowed.payNode hidle.restarting).idle ((((Idles.refl _).push rfl).push rfl).note _ _)

/-! ## Links that come and go -/

theorem linkUp (h : Stands T u o P m) (hl : l < T.links.length) :
    Stands T (Function.update u l true) o P (m.linkUp l) := by
  unfold Management.linkUp
  extract_lets m₁ m₂ m₃ m₄
  have h₁ : Stands T u o P m₁ := by
    simp only [m₁]
    split_ifs
    · exact h.beginRestart
    · exact h
  have h₂ : Stands T u o P m₂ := by
    simp only [m₂]
    split_ifs
    · exact h₁
    · exact ⟨h₁.topology, h₁.marked, h₁.named, h₁.up, h₁.traffic, h₁.holding, h₁.restarting⟩
  have h₃ : Stands T (Function.update u l true) o P m₃ := h₂.hears _ rfl rfl
  have h₄ : Stands T (Function.update u l true) o P m₄ := by
    simp only [m₄]
    split
    · exact h₃.idle ((Idles.refl m₃).setLink l fun _ => ⟨by rfl, by rfl⟩)
    · exact h₃.idle ((Idles.refl m₃).setLink l fun _ => ⟨by rfl, by rfl⟩)
    next hs =>
      split_ifs
      · exact h₃
      · exact h₃.restore hl (by rw [hs]; rfl)
    · exact h₃
  split_ifs
  · exact h₄.restartProgress
  · exact h₄

theorem completeChangeover (h : Stands T u o (insert (Subject.link l) P) m)
    (hl : l < T.links.length) (fsnc : Option ℕ) (how : Option Procedure) :
    Stands T u o P (m.completeChangeover l fsnc how) := by
  rw [completeChangeover_eq]
  generalize how.getD _ = procedure
  dsimp only
  have hstopped := h.idle ((Idles.refl m).push (a := .stop (.changeover l)) rfl)
  have hdiverted := hstopped.order (fun s => { s with phase := .closed, back := false })
    (fun hc => absurd rfl hc) rfl (a := .divert l fsnc) rfl
  rw [push_eq_extend, push_eq_extend, setLink_extend, extend_extend] at hdiverted
  have hnoted := hdiverted.idle ((Idles.refl _).note procedure (.link l))
  split_ifs
  · exact hnoted.restore hl (by simp [note, Phase.traffic])
  · exact hnoted

theorem beginChangeover (h : Stands T u o P m) (hl : l < T.links.length) :
    Stands T u o P (m.beginChangeover l) := by
  unfold Management.beginChangeover
  extract_lets L m₁
  have hheld : Stands T u o P m₁ := (h.owing _).order (fun s =>
    { s with phase := .changeoverOrdered }) (fun _ => hl) rfl (a := .hold l) rfl
  split_ifs
  · exact hheld.idle (((Idles.refl m₁).send _ _ _ _).push (by rfl))
  · refine (hheld.setLink _ (fun _ => hl) rfl ?_).idle ((Idles.refl _).push (by rfl))
    simp [m₁, push, Phase.traffic]

theorem linkDown (h : Stands T u o P m) (hl : l < T.links.length) (bsnt : ℕ) :
    Stands T (Function.update u l false) o P (m.linkDown l bsnt) := by
  unfold Management.linkDown
  extract_lets L ordered m₁ m₂ m₃ m₄ m₅
  have h₁ : Stands T (Function.update u l false) o P m₁ := h.hears _ rfl rfl
  have h₂ : Stands T (Function.update u l false) o P m₂ := by
    simp only [m₂]
    cases ordered with
    | none => exact h₁
    | some order => exact h₁.idle ((Idles.refl m₁).acknowledgeOrder l order.emergency)
  have h₃ : Stands T (Function.update u l false) o P m₃ :=
    h₂.idle (((Idles.refl m₂).push (by rfl)).setLink l fun _ => ⟨by rfl, by rfl⟩)
  have h₄ : Stands T (Function.update u l false) o P m₄ := by
    simp only [m₄]
    clear_value m₂
    cases hs : (m₂.links l).phase with
    | «open» | changebackDeclared | changebackTimed =>
      cases ordered with
      | none => exact h₃.beginChangeover hl
      | some order => exact (h₃.ahead (a := .hold l) rfl).completeChangeover hl order.fsnc none
    | changeoverOrdered | changeoverTimed =>
      cases ordered with
      | none => exact h₂
      | some order => exact (h₂.owing _).completeChangeover hl order.fsnc none
    | awaitRestart => exact h₂.setLink _ (fun hc => absurd rfl hc) rfl (by rw [hs]; rfl)
    | closed => exact h₂
  have hstopped : Idles m₄ m₅ := by
    simp only [m₅]
    split_ifs
    · exact ((Idles.refl m₄).setLinkset L _).push rfl
    · exact Idles.refl m₄
  split_ifs
  · exact h₄
  · exact h₄.idle (hstopped.setLinkset L _)

theorem changeoverOrder (h : Stands T u o P m) (hl : l < T.links.length) (fsnc : Option ℕ)
    (emergency : Bool) : Stands T u o P (m.changeoverOrder l fsnc emergency) := by
  unfold Management.changeoverOrder
  split_ifs
  · exact ((h.idle ((Idles.refl m).acknowledgeOrder l emergency)).owing _).completeChangeover hl
      fsnc none
  · exact h.idle (((Idles.refl m).setLink l fun _ => ⟨by rfl, by rfl⟩).push (by rfl))
  · exact h.idle ((Idles.refl m).send _ _ _ _)

theorem changeoverAcknowledgement (h : Stands T u o P m) (hl : l < T.links.length)
    (fsnc : Option ℕ) (name : String) :
    Stands T u o P (m.changeoverAcknowledgement l fsnc name) := by
  unfold Management.changeoverAcknowledgement
  split_ifs
  · exact (h.owing _).completeChangeover hl fsnc none
  · exact h.idle ((Idles.refl m).ignored _ _)

/-! ## Inhibiting -/

theorem inhibit (h : Stands T u o P m) (hl : l < T.links.length) (path : Path) :
    Stands T u o P (m.inhibit l path) := by
  unfold Management.inhibit
  extract_lets L m₁ m₂ m₃
  have h₂ : Stands T u o P m₂ := h.idle
    ((((Idles.refl m).setLink l fun _ => ⟨by rfl, by rfl⟩).send _ _ _ _).note _ _)
  have h₃ : Stands T u o P m₃ := by
    simp only [m₃]
    clear_value m₂
    cases hs : (m₂.links l).phase with
    | «open» | changebackDeclared | changebackTimed =>
      have hstopped := h₂.idle ((Idles.refl m₂).push (a := .stop (.changeback l)) rfl)
      have hheld := (hstopped.owing _).order (l := l) (fun s =>
        { s with declared := [], phase := .changeoverTimed }) (fun _ => hl) rfl (a := .hold l) rfl
      exact hheld.idle ((Idles.refl _).push (by rfl))
    | awaitRestart => exact h₂.setLink _ (fun hc => absurd rfl hc) rfl (by rw [hs]; rfl)
    | closed | changeoverOrdered | changeoverTimed => exact h₂
  split_ifs
  · exact h.idle ((Idles.refl m).send _ _ _ _)
  · exact h.idle (((Idles.refl m).send _ _ _ _).note _ _)
  · exact h₃.idle ((Idles.refl m₃).push (by rfl))

theorem uninhibit (h : Stands T u o P m) (hl : l < T.links.length) (path : Path) :
    Stands T u o P (m.uninhibit l path) := by
  unfold Management.uninhibit
  extract_lets m₁ m₂ m₃ m₄
  have h₂ : Stands T u o P m₂ := h.idle
    ((((Idles.refl m).send _ _ _ _).push (by rfl)).setLink l fun _ => ⟨by rfl, by rfl⟩)
  have h₄ : Stands T u o P m₄ := h₂.idle
    ((((Idles.refl m₂).setLink l fun _ => ⟨by rfl, by rfl⟩).push (by rfl)).note _ _)
  clear_value m₄
  split
  · exact h₂
  · cases hs : (m₄.links l).phase with
    | closed =>
      dsimp only
      split_ifs
      · exact h₄.restore hl (by rw [hs]; rfl)
      · exact h₄
    | changeoverTimed | changeoverOrdered =>
      dsimp only
      split_ifs
      · exact h₄.idle ((Idles.refl m₄).setLink l fun _ => ⟨by rfl, by rfl⟩)
      · exact h₄
    | «open» | changebackDeclared | changebackTimed | awaitRestart => exact h₄

theorem inhibitMessage (h : Stands T u o P m) (hl : l < T.links.length)
    (message : ManagementMessage) : Stands T u o P (m.inhibitMessage l message) := by
  unfold Management.inhibitMessage
  cases message with
  | lin => exact h.inhibit hl _
  | lun => exact h.uninhibit hl _
  | lfu => exact h.idle ((Idles.refl m).send _ _ _ _)
  | lua =>
    dsimp only
    split_ifs
    · exact h.idle (((Idles.refl m).setLink l fun _ => ⟨by rfl, by rfl⟩).push (by rfl))
    · exact h.idle ((Idles.refl m).ignored _ _)
  | lia | lid => exact h.idle ((Idles.refl m).ignored _ _)
  | llt | lrt =>
    dsimp only
    split_ifs
    · exact h.idle ((((Idles.refl m).setLink l fun _ => ⟨by rfl, by rfl⟩).send _ _ _ _).push
        (by rfl))
    · exact h
  | _ => exact h

/-! ## Routes -/

/-- Marks that were deferred are about routes, and give no order. -/
theorem marks_no_order {xs : List Action} {d : ℕ}
    (hxs : ∀ a ∈ xs, ∃ L status, a = Action.route d L status) :
    ∀ a ∈ xs, a.orders = false := by
  intro a ha
  obtain ⟨L, status, rfl⟩ := hxs a ha
  rfl

/-- A destination is held, or released, with the order that goes with it. -/
theorem destination (h : Stands T u o P m) (d : ℕ) {s : DestinationState} {xs : List Action}
    (hdeferred : ∀ a ∈ s.deferred, ∃ L status, a = Action.route d L status)
    (hxs : ∀ o' : Standing, o'.holding d = (m.destinations d).holding →
      o'.notes xs = { o' with holding := Function.update o'.holding d s.holding }) :
    Stands T u o P ((m.setDestination d fun _ => s).extend xs) := by
  have hnote := hxs _ (h.holding d)
  rw [← Standing.notes_append, ← actions_extend] at hnote
  refine ⟨h.topology, fun e => ?_, h.named, h.up, fun l hl => ?_, fun e => ?_, fun hn => ?_⟩
  · by_cases he : e = d
    · subst he
      simpa using hdeferred
    · rw [extend_destinations, setDestination_ne _ _ he]
      exact h.marked e
  · exact (congrArg (fun o : Standing => o.traffic l) hnote).trans (h.traffic l hl)
  · refine (congrArg (fun o : Standing => o.holding e) hnote).trans ?_
    by_cases he : e = d
    · subst he
      simp
    · rw [extend_destinations, setDestination_ne _ _ he]
      exact (Function.update_of_ne he ..).trans (h.holding e)
  · exact (congrArg Standing.restarting hnote).trans (h.restarting hn)

theorem markRoute (h : Stands T u o P m) (L : LinksetId) (d : ℕ) (status : RouteStatus)
    (before after : List ℕ) : Stands T u o P (m.markRoute L d status before after) := by
  obtain ⟨s, outs, notes, hmove, hnotes, heq⟩ := markRoute_spec m L d status before after
  have hheld : ∀ o' : Standing, o'.notes (m.destinations d).deferred = o' := fun o' =>
    o'.notes_of_no_order (marks_no_order (h.marked d))
  rw [heq, ← extend_extend]
  refine idle (destination h d (hmove.deferred_marks (h.marked d)) fun o' ho => ?_)
    ((Idles.refl _).extend fun a ha => ?_)
  · have hsame : Function.update o'.holding d (m.destinations d).holding = o'.holding := by
      rw [← ho, Function.update_eq_self]
    cases hmove with
    | marked => exact congrArg (fun f => { o' with holding := f }) hsame.symm
    | deferred => exact congrArg (fun f => { o' with holding := f }) hsame.symm
    | held => rfl
    | forced =>
      rw [Standing.notes_append, hheld]
      exact congrArg (fun f => { o' with holding := f }) hsame.symm
    | released =>
      rw [Standing.notes_append, Standing.notes_append, hheld]
      rfl
  · obtain ⟨how, x, rfl⟩ := hnotes a ha
    rfl

theorem routeMessage (h : Stands T u o P m) (L : LinksetId) (d : ℕ) (status : RouteStatus)
    (name : String) : Stands T u o P (m.routeMessage L d status name) := by
  rcases routeMessage_cases m L d status name with hcase | hcase | ⟨i, -, -, -, hcase⟩
  · rw [hcase]
    exact h.idle ((Idles.refl m).ignored _ _)
  · rw [hcase]
    exact h
  · rw [hcase]
    refine markRoute (h.idle (Idles.push ((Idles.refl m).setDestination d ?_ ?_) ?_)) L d status _ _
    · exact fun _ => rfl
    · exact fun _ => rfl
    · unfold testTimer
      split_ifs <;> rfl

/-! ## Messages, timers, inputs -/

theorem changebackAcknowledgement (h : Stands T u o P m) (hl : l < T.links.length) (code : ℕ)
    (name : String) : Stands T u o P (m.changebackAcknowledgement l code name) := by
  unfold Management.changebackAcknowledgement
  extract_lets declared matched m₁
  have h₁ : Stands T u o P m₁ := h.idle ((Idles.refl m).setLink l fun _ => ⟨by rfl, by rfl⟩)
  split_ifs
  · exact h₁.finishChangeback hl _
  · exact h₁
  · exact h₁.idle ((Idles.refl m₁).ignored _ _)

theorem linkMessage (h : Stands T u o P m) (hl : l < T.links.length)
    (message : ManagementMessage) (name : String) :
    Stands T u o P (m.linkMessage l message name) := by
  unfold Management.linkMessage
  cases message with
  | xco | coo | eco => exact h.changeoverOrder hl _ _
  | xca | coa | eca => exact h.changeoverAcknowledgement hl _ _
  | cba code => exact h.changebackAcknowledgement hl code _
  | lin | lun | lia | lua | lid | lfu | llt | lrt => exact h.inhibitMessage hl _
  | _ => exact h.idle ((Idles.refl m).ignored _ _)

theorem receivedFrom (h : Stands T u o P m) (L : LinksetId) (slc : ℕ)
    (message : ManagementMessage) (name : String) :
    Stands T u o P (m.receivedFrom L slc message name) := by
  unfold Management.receivedFrom
  cases message with
  | tfp | tfr | tfa => exact h.routeMessage L _ _ _
  | rst | rsr => exact h.idle (.routeSetTest m L _ _)
  | tra => exact h.trafficRestartAllowed L
  | cbd => exact h.idle ((Idles.refl m).tell L slc _)
  | _ =>
    dsimp only
    cases hfind : (m.linksOf L).find? fun l => m.slcOf l = slc with
    | none => exact h.idle ((Idles.refl m).ignored _ _)
    | some k =>
      have hlink := (hasLink_of_mem (List.mem_of_find?_eq_some hfind)).1
      rw [hasLink, h.topology] at hlink
      exact h.linkMessage (of_decide_eq_true hlink) _ _

theorem received (h : Stands T u o P m) (arrived : LinkId) (opc slc : ℕ)
    (message : ManagementMessage) : Stands T u o P (m.received arrived opc slc message) := by
  have hignored : ∀ name why, Stands T u o P (m.ignored name why) := fun name why =>
    h.idle ((Idles.refl m).ignored name why)
  unfold Management.received
  cases message with
  | tfc =>
    dsimp only
    split_ifs
    · exact hignored _ _
    · exact h.idle ((Idles.refl m).push rfl)
  | upu | rct => exact hignored _ _
  | _ =>
    dsimp only
    cases m.linksetFrom opc arrived with
    | none => exact hignored _ _
    | some L =>
      dsimp only
      split_ifs
      · exact hignored _ _
      · exact h.receivedFrom L slc _ _

theorem timeout (h : Stands T u o P m) (timer : Timer) : Stands T u o P (m.timeout timer) := by
  have hlink : ∀ {l : LinkId}, m.hasLink l = true → l < T.links.length := by
    intro l hl
    rw [hasLink, h.topology] at hl
    exact of_decide_eq_true hl
  cases timer with
  | changeover l =>
    dsimp only [Management.timeout]
    split_ifs with hl
    · cases (m.links l).phase with
      | changeoverOrdered | changeoverTimed =>
        exact (h.owing _).completeChangeover (hlink hl) none _
      | _ => exact h
    · exact h
  | changeback l =>
    dsimp only [Management.timeout]
    split_ifs with hl
    · cases hs : (m.links l).phase with
      | changebackDeclared second =>
        cases second with
        | false =>
          have hagain := h.idle ((Idles.refl m).redeclare l (m.links l).declared)
          obtain ⟨xs, hxs, -⟩ := redeclare_extend m l (m.links l).declared
          refine (hagain.setLink _ (fun _ => hlink hl) rfl ?_).idle ((Idles.refl _).push rfl)
          rw [hxs, extend_links, hs]
          rfl
        | true => exact h.finishChangeback (hlink hl) _
      | changebackTimed => exact h.finishChangeback (hlink hl) _
      | _ => exact h
    · exact h
  | rerouting d =>
    dsimp only [Management.timeout]
    split_ifs
    · have hreleased : Stands T u o P ((m.setDestination d fun _ =>
          { m.destinations d with holding := false, deferred := [] }).extend
            ((m.destinations d).deferred ++ [.releaseDestination d])) :=
        destination h d (fun a ha => absurd ha List.not_mem_nil) fun o' _ => by
          rw [Standing.notes_append, o'.notes_of_no_order (marks_no_order (h.marked d))]
          rfl
      rw [← extend_extend] at hreleased
      rw [push_eq_extend]
      convert hreleased using 3
      exact setDestination_congr m rfl
    · exact h
  | prohibited d =>
    exact ⟨h.topology, h.marked, h.named, h.up, h.traffic, h.holding, h.restarting⟩
  | routeSetTest d L =>
    dsimp only [Management.timeout]
    split
    · split
      · exact h
      · refine h.idle (Idles.push ?_ rfl)
        split
        · exact (Idles.refl m).tell L 0 _
        · exact Idles.refl m
    · exact h
  | uninhibit l | forceUninhibit l =>
    dsimp only [Management.timeout]
    split_ifs
    · exact h.idle (.repeatUninhibit m l _)
    · exact h
  | inhibitTest l =>
    dsimp only [Management.timeout]
    split_ifs
    · exact h.idle (((Idles.refl m).send _ _ _ _).push rfl)
    · exact h
  | restart | restartOverall => exact h.endRestart
  | restartAllowed L =>
    dsimp only [Management.timeout]
    split_ifs
    · exact h.idle ((Idles.refl m).setLinkset L _)
    · exact h
  | adjacentRestart L =>
    dsimp only [Management.timeout]
    split_ifs
    · exact h.endAdjacentRestart L _
    · exact h
  | isolation =>
    dsimp only [Management.timeout]
    split_ifs
    · exact ⟨h.topology, h.marked, h.named, h.up, h.traffic, h.holding, h.restarting⟩
    · exact h

theorem dispatch (h : Stands T u o P m) (input : Input) :
    Stands T (input.hears T u) o P (m.dispatch input) := by
  have hlink : ∀ {l : LinkId}, m.hasLink l = true ↔ l < T.links.length := by
    intro l
    rw [hasLink, h.topology, decide_eq_true_iff]
  unfold Management.dispatch Input.hears
  cases input with
  | timeout timer => exact h.timeout timer
  | linkUp l =>
    dsimp only
    by_cases hl : l < T.links.length
    · rw [if_pos hl, if_pos (hlink.mpr hl)]
      exact h.linkUp hl
    · rw [if_neg hl, if_neg (mt hlink.mp hl)]
      exact h
  | linkDown l bsnt =>
    dsimp only
    by_cases hl : l < T.links.length
    · rw [if_pos hl, if_pos (hlink.mpr hl)]
      exact h.linkDown hl bsnt
    · rw [if_neg hl, if_neg (mt hlink.mp hl)]
      exact h
  | received l opc slc message =>
    dsimp only
    split_ifs
    · exact h.received l opc slc message
    · exact h
  | unroutable d l =>
    dsimp only
    split_ifs
    · exact h.idle (.unroutable m d l)
    · exact h
  | server index up =>
    dsimp only
    split_ifs
    · exact ⟨h.topology, h.marked, h.named, h.up, h.traffic, h.holding, h.restarting⟩
    · exact h
  | paused d on =>
    dsimp only
    split_ifs
    · refine h.idle ((Idles.refl m).setDestination d ?_ ?_)
      · exact fun _ => rfl
      · exact fun _ => rfl
    · exact h

theorem process (h : Stands T u o P m) (input : Input) :
    Stands T (input.hears T u) o P (m.process input) := by
  have hdispatched := h.dispatch input
  have hsettled : Stands T (input.hears T u) o P (m.dispatch input).settle.watchIsolation :=
    hdispatched.idle (Idles.refl _).settle.watchIsolation
  cases input with
  | unroutable d l =>
    dsimp only [Management.process]
    split_ifs
    · exact hdispatched
    · exact hsettled
  | _ => exact hsettled

end Stands

/-- Management and the orders that stand, after one more input. -/
def ordering : Management × Standing → Input → Management × Standing :=
  Machine.watch handle fun o _ _ out => o.notes out.2

/-- What holds between two inputs. -/
structure Obeyed (T : Topology) (s : Management × Standing) : Prop where
  out : s.1.out = []
  stands : Stands T (fun l => (s.1.links l).up) s.2 ∅ s.1

theorem Obeyed.traffic {T : Topology} {s : Management × Standing} (h : Obeyed T s) (l : LinkId) :
    s.2.traffic l = (s.1.links l).phase.traffic := by
  have htraffic := h.stands.traffic l (Set.notMem_empty _)
  rw [h.out] at htraffic
  exact htraffic

theorem Obeyed.holding {T : Topology} {s : Management × Standing} (h : Obeyed T s) (d : ℕ) :
    s.2.holding d = (s.1.destinations d).holding := by
  have hholding := h.stands.holding d
  rw [h.out] at hholding
  exact hholding

theorem Obeyed.restarting {T : Topology} {s : Management × Standing} (h : Obeyed T s) :
    s.2.restarting = s.1.restarting := by
  have hrestarting := h.stands.restarting (Set.notMem_empty _)
  rw [h.out] at hrestarting
  exact hrestarting

/-- An input brings the links up and down that it says, and what follows is ordered. -/
theorem Obeyed.step {T : Topology} {s : Management × Standing} (h : Obeyed T s) (input : Input) :
    Obeyed T (ordering s input) ∧
      ∀ l, ((ordering s input).1.links l).up = input.hears T (fun l => (s.1.links l).up) l := by
  have hprocessed := h.stands.process input
  refine ⟨⟨rfl, ?_⟩, hprocessed.up⟩
  exact ⟨hprocessed.topology, hprocessed.marked, hprocessed.named, fun _ => rfl,
    hprocessed.traffic, hprocessed.holding, hprocessed.restarting⟩

theorem obeyed_new (T : Topology) (timers : Timers) (tfp : Bool) :
    Obeyed T (new T timers tfp, .new) where
  out := rfl
  stands := ⟨rfl, fun _ _ ha => absurd ha List.not_mem_nil, fun _ hc => absurd rfl hc,
    fun _ => rfl, fun _ _ => rfl, fun _ => rfl, fun _ => rfl⟩

theorem obeyed_run (T : Topology) (timers : Timers) (tfp : Bool) (is : List Input) :
    Obeyed T (Machine.run ordering (new T timers tfp, .new) is) :=
  Machine.run_invariant (Q := fun _ _ => True) (fun _ i h _ => (h.step i).1)
    (obeyed_new T timers tfp) (Machine.along_trivial _ is)

end SiphonSigtran.Mtp3
