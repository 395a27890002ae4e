import SiphonSigtran.Transport.AspmRuns
import SiphonSigtran.Transport.Registry

/-!
# The traffic of a pending server

ASP state maintenance performs its actions one step at a time, while the
transfer path sends messages to the servers. A message for a server that is
pending is queued; when the server is pending no longer, the queue is sent, or
counted. Which ASPs take the traffic is read from their flags, and these are set
before the server is active and before its queue is sent.
-/

namespace SiphonSigtran.Transport

open Lib

/-- What a stream of messages that are kept in sequence has in common. -/
def Msu.stream (msu : Msu) : ℕ × ℕ × ℕ := (msu.opc, msu.dpc, msu.sls)

/-- A message that a transfer task sends, with the ASPs that were selected for it. -/
structure Transfer where
  server : ℕ
  msu : Handed
  selected : List ℕ
  deriving DecidableEq, Repr

/-- ASP state maintenance with the actions it has still to perform, what the registry has of the
servers, and the transfers that are under way. -/
structure Serving where
  machine : Aspm
  actions : List Action
  taking : Option (ℕ × AsState)
  flushing : Option (ℕ × List Handed)
  active : ℕ → ℕ → Bool
  state : ℕ → AsState
  pending : ℕ → List Handed
  buffers : Buffers
  busy : List Transfer
  next : ℕ
  pendingFull : ℕ
  pendingExpired : ℕ

/-- Given which candidates are active, and the SLS, those to send on. -/
def choose (mode : TrafficMode) (active : List Bool) (sls : ℕ) : List ℕ :=
  let up := (List.range active.length).filter fun i => active.getD i false
  if up = [] then []
  else match mode with
    | .override => up.take 1
    | .loadshare => [up.getD (sls % up.length) 0]
    | .broadcast => up

namespace Serving

/-- What became of a message for a server. -/
inductive Fate
  | sent (asps : List ℕ)
  | queued
  | pendingFull
  | pendingExpired
  | noEgress
  | managed
  | rerouted
  deriving DecidableEq, Repr

/-- A message, whether it was taken from the queue of the server, and what became of it. -/
structure Event where
  server : ℕ
  msu : Handed
  waited : Bool
  fate : Fate
  deriving DecidableEq, Repr

/-- What one of the tasks does next. -/
inductive Turn
  | handle (input : Input)
  | perform
  | sendVia (server : ℕ) (msu : Msu)
  | finish (i : ℕ)

/-- The Service Indicator of signalling network management. -/
def siManagement : ℕ := 0

section

variable (l : Layout) (pendingLimit : ℕ → ℕ)

def new (reroutingBuffer : ℕ) : Serving :=
  ⟨Aspm.new, [], none, none, fun _ _ => false, fun _ => .down, fun _ => [], .new reroutingBuffer,
    [], 0, 0, 0⟩

/-- The ASPs of a server that a message goes to. -/
def select (s : Serving) (server sls : ℕ) : List ℕ :=
  let asps := (l.server server).asps
  (choose (l.server server).mode (asps.map fun a => s.active a server) sls).map fun i =>
    asps.getD i 0

/-- Queue a message for a server that is pending. -/
def queueIfPending (s : Serving) (server : ℕ) (msu : Handed) : Fate × Serving :=
  if s.state server ≠ .pending then (.noEgress, s)
  else if pendingLimit server ≤ (s.pending server).length then
    (.pendingFull, { s with pendingFull := s.pendingFull + 1 })
  else
    (.queued, { s with
      pending := Function.update s.pending server (s.pending server ++ [msu]) })

/-- Store the state of a server; unless it is pending its queue is taken next. -/
def setServerState (s : Serving) (server : ℕ) (state : AsState) : Serving :=
  { s with
    state := Function.update s.state server state
    taking := if state = .pending then none else some (server, state) }

/-- Take the queue of a server that is not pending any more. -/
def take (s : Serving) (server : ℕ) (state : AsState) : Serving × List Event :=
  let queued := s.pending server
  let s := { s with taking := none, pending := Function.update s.pending server [] }
  if state = .active then ({ s with flushing := some (server, queued) }, [])
  else
    ({ s with pendingExpired := s.pendingExpired + queued.length },
      queued.map fun msu => ⟨server, msu, true, .pendingExpired⟩)

/-- Send a message that was queued. -/
def flush (s : Serving) (server : ℕ) (msu : Handed) : Fate × Serving :=
  let (outcome, buffers) := s.buffers.holdIfRerouting msu
  let s := { s with buffers := buffers }
  if outcome ≠ .passed then (.rerouted, s)
  else if msu.msu.si = siManagement then (.managed, s)
  else
    let selected := s.select l server msu.msu.sls
    if selected = [] then s.queueIfPending pendingLimit server msu
    else (.sent selected, s)

/-- Perform an action, as far as the transfer path sees it. -/
def act (s : Serving) : Action → Serving
  | .asp asp server state =>
    { s with active := Seen.put s.active asp server (state = .active) }
  | .server server state => s.setServerState server state
  | _ => s

/-- The next step of ASP state maintenance. -/
def perform (s : Serving) : Serving × List Event :=
  match s.taking with
  | some (server, state) => s.take server state
  | none =>
    match s.flushing with
    | some (server, msu :: rest) =>
      let (fate, s) := { s with flushing := some (server, rest) }.flush l pendingLimit server msu
      (s, [⟨server, msu, true, fate⟩])
    | some (_, []) => ({ s with flushing := none }, [])
    | none =>
      match s.actions with
      | [] => (s, [])
      | action :: rest => ({ s with actions := rest }.act action, [])

/-- A message for a server, up to where the ASPs are selected. -/
def sendVia (s : Serving) (server : ℕ) (msu : Msu) : Serving × List Event :=
  let msu : Handed := ⟨s.next, msu⟩
  let (outcome, buffers) := s.buffers.holdIfRerouting msu
  let s := { s with buffers := buffers, next := s.next + 1 }
  if outcome ≠ .passed then (s, [⟨server, msu, false, .rerouted⟩])
  else if msu.msu.si = siManagement then (s, [⟨server, msu, false, .managed⟩])
  else
    ({ s with busy := s.busy ++ [⟨server, msu, s.select l server msu.msu.sls⟩] }, [])

/-- The message is sent to the ASPs that were selected, or queued. -/
def finish (s : Serving) (i : ℕ) : Serving × List Event :=
  match s.busy[i]? with
  | none => (s, [])
  | some p =>
    let s := { s with busy := s.busy.eraseIdx i }
    if p.selected ≠ [] then (s, [⟨p.server, p.msu, false, .sent p.selected⟩])
    else
      let (fate, s) := s.queueIfPending pendingLimit p.server p.msu
      (s, [⟨p.server, p.msu, false, fate⟩])

def step (s : Serving) : Turn → Serving × List Event
  | .handle input =>
    if s.actions = [] ∧ s.taking = none ∧ s.flushing = none then
      ({ s with machine := (s.machine.handle l input).1
                actions := (s.machine.handle l input).2 }, [])
    else (s, [])
  | .perform => s.perform l pendingLimit
  -- a server without ASPs here is served over another adaptation
  | .sendVia server msu => if (l.server server).asps = [] then (s, []) else s.sendVia l server msu
  | .finish i => s.finish pendingLimit i

/-- The tasks, and all that became of the messages. -/
def watching : Serving × List Event → Turn → Serving × List Event :=
  Machine.watch (step l pendingLimit) fun seen _ _ out => seen ++ out.2

end

/-! ## What became of the messages -/

/-- The messages that were queued for a server. -/
def queuedOf (t : ℕ) (seen : List Event) : List Handed :=
  (seen.filter fun e => e.server = t && e.fate = .queued).map Event.msu

/-- The messages from the queue of a server that were sent, or counted. -/
def relievedOf (t : ℕ) (seen : List Event) : List Handed :=
  (seen.filter fun e => e.server = t && e.waited).map Event.msu

/-- The messages of which it was decided whether they are sent or queued or neither. -/
def decided (seen : List Event) : List ℕ :=
  (seen.filter fun e => !e.waited).map fun e => e.msu.number

/-- How often something became of a message. -/
def tally (fate : Fate) (seen : List Event) : ℕ := seen.countP fun e => e.fate = fate

@[simp] theorem queuedOf_append (t : ℕ) (xs ys : List Event) :
    queuedOf t (xs ++ ys) = queuedOf t xs ++ queuedOf t ys := by simp [queuedOf]

@[simp] theorem relievedOf_append (t : ℕ) (xs ys : List Event) :
    relievedOf t (xs ++ ys) = relievedOf t xs ++ relievedOf t ys := by simp [relievedOf]

@[simp] theorem decided_append (xs ys : List Event) :
    decided (xs ++ ys) = decided xs ++ decided ys := by simp [decided]

@[simp] theorem tally_append (fate : Fate) (xs ys : List Event) :
    tally fate (xs ++ ys) = tally fate xs + tally fate ys := List.countP_append

/-- What was taken from the queue of a server and is still to be sent. -/
def flushingOf (s : Serving) (t : ℕ) : List Handed :=
  match s.flushing with
  | some (server, msus) => if server = t then msus else []
  | none => []

variable {l : Layout} {pendingLimit : ℕ → ℕ} {s : Serving} {seen : List Event}

/-! ## Where a message goes -/

theorem choose_ne_nil {mode : TrafficMode} {active : List Bool} (h : true ∈ active) (sls : ℕ) :
    choose mode active sls ≠ [] := by
  obtain ⟨i, hi, hget⟩ := List.getElem_of_mem h
  have hmem : i ∈ (List.range active.length).filter fun i => active.getD i false := by
    simp [List.getD_eq_getElem?_getD, hi, hget]
  unfold choose
  generalize (List.range active.length).filter _ = up at hmem ⊢
  dsimp only
  rw [if_neg (List.ne_nil_of_mem hmem)]
  cases mode with
  | override =>
    cases up with
    | nil => exact absurd hmem List.not_mem_nil
    | cons a up => simp
  | loadshare => simp
  | broadcast => exact List.ne_nil_of_mem hmem

theorem select_ne_nil {t : ℕ} (h : ∃ a ∈ (l.server t).asps, s.active a t = true) (sls : ℕ) :
    s.select l t sls ≠ [] := by
  obtain ⟨a, ha, hon⟩ := h
  have hmem : true ∈ (l.server t).asps.map fun a => s.active a t :=
    List.mem_map.mpr ⟨a, ha, hon⟩
  simpa [select] using choose_ne_nil hmem sls

theorem holdIfRerouting_of_none {b : Buffers} (h : b.holding = 0) (msu : Handed) :
    b.holdIfRerouting msu = (.passed, b) := if_pos h

/-- A queued message goes to an active ASP. -/
theorem flush_eq {t : ℕ} {msu : Handed} (hh : s.buffers.holding = 0)
    (hsi : msu.msu.si ≠ siManagement) (hon : ∃ a ∈ (l.server t).asps, s.active a t = true) :
    s.flush l pendingLimit t msu = (.sent (s.select l t msu.msu.sls), s) := by
  unfold flush
  rw [holdIfRerouting_of_none hh]
  have hselected : ({ s with buffers := s.buffers } : Serving).select l t msu.msu.sls ≠ [] :=
    select_ne_nil hon _
  simp only [ne_eq, not_true_eq_false, ↓reduceIte, hsi]
  rw [if_neg hselected]

/-! ## What holds between two steps -/

/-- The registry has what the actions performed so far say, and what is still to be performed is
fine. The queue of a server is taken when it is not pending, and sent when an ASP takes traffic. -/
structure Synced (l : Layout) (s : Serving) : Prop where
  seen : ∃ r : Seen, Aspm.Level l (s.machine, s.actions.foldl Seen.see r) ∧
    Machine.Along Seen.see (Fine l) r s.actions ∧
    (∀ a t, s.active a t = decide (r.asp a t = .active)) ∧ ∀ t, s.state t = r.server t
  taking : ∀ t state, s.taking = some (t, state) → s.flushing = none ∧ s.state t = state ∧
    (state = .active → ∃ a ∈ (l.server t).asps, s.active a t = true)
  flushing : ∀ t msus, s.flushing = some (t, msus) →
    s.state t = .active ∧ ∃ a ∈ (l.server t).asps, s.active a t = true
  pending : ∀ t, s.pending t ≠ [] → s.state t = .pending ∨ s.taking.map Prod.fst = some t

/-- Every message is accounted for. -/
structure Accounted (s : Serving) (seen : List Event) : Prop where
  holding : s.buffers.holding = 0
  queued : ∀ t, queuedOf t seen = relievedOf t seen ++ s.flushingOf t ++ s.pending t
  waited : ∀ e ∈ seen, e.waited = true →
    e.fate = .pendingExpired ∨ ∃ asps, e.fate = .sent asps ∧ asps ≠ []
  full : s.pendingFull = tally .pendingFull seen
  expired : s.pendingExpired = tally .pendingExpired seen
  plain : ∀ t, ∀ msu ∈ s.flushingOf t ++ s.pending t, msu.msu.si ≠ siManagement
  busy : ∀ p ∈ s.busy, p.msu.msu.si ≠ siManagement
  once : (decided seen ++ s.busy.map fun p => p.msu.number).Perm (List.range s.next)

theorem demanding_all (hreq : l.Demanding) (t : ℕ) : 1 ≤ (l.server t).required := by
  rcases Nat.lt_or_ge t l.servers.length with ht | ht
  · exact hreq t ht
  · rw [Layout.server_of_le ht]

theorem synced_new (n : ℕ) : Synced l (new n) := by
  refine ⟨⟨Seen.new, Aspm.level_new l, trivial, fun _ _ => rfl, fun _ => rfl⟩, ?_, ?_, ?_⟩
  · intro t state h
    cases h
  · intro t msus h
    cases h
  · intro t h
    exact absurd rfl h

theorem accounted_new (n : ℕ) : Accounted (new n) [] :=
  ⟨rfl, fun _ => rfl, by simp, rfl, rfl, by simp [new, flushingOf], by simp [new],
    by simp [new, decided]⟩

theorem Synced.handle (hl : l.Consistent) (h : Synced l s) (ha : s.actions = [])
    (input : Input) :
    Synced l { s with
      machine := (s.machine.handle l input).1, actions := (s.machine.handle l input).2 } := by
  obtain ⟨r, hlevel, -, hactive, hstate⟩ := h.seen
  rw [ha] at hlevel
  obtain ⟨hafter, hclean⟩ := hlevel.step hl input
  refine ⟨⟨r.expire input, hafter, hclean, fun a t => ?_, fun t => ?_⟩, h.taking, h.flushing,
    h.pending⟩
  · rw [hactive]
    cases input <;> rfl
  · rw [hstate]
    cases input <;> rfl

/-- The next action is performed. -/
theorem Synced.act (hreq : l.Demanding) (h : Synced l s) {action : Action} {rest : List Action}
    (ha : s.actions = action :: rest) (ht : s.taking = none) (hf : s.flushing = none) :
    Synced l ({ s with actions := rest }.act action) := by
  obtain ⟨r, hlevel, hfine, hactive, hstate⟩ := h.seen
  rw [ha] at hlevel hfine
  have hpending : ∀ t, s.pending t ≠ [] → s.state t = .pending := fun t hne => by
    simpa [ht] using h.pending t hne
  have hother : (∀ a t, (r.see action).asp a t = r.asp a t) →
      (∀ t, (r.see action).server t = r.server t) → Synced l { s with actions := rest } := by
    intro hasp hserver
    refine ⟨⟨r.see action, hlevel, hfine.2, fun a t => ?_, fun t => ?_⟩, h.taking, h.flushing,
      h.pending⟩
    · rw [hasp]
      exact hactive a t
    · rw [hserver]
      exact hstate t
  cases action with
  | asp a t state =>
    refine ⟨⟨r.see (.asp a t state), hlevel, hfine.2, fun b u => ?_, hstate⟩, ?_, ?_, h.pending⟩
    · simp only [Serving.act, Seen.see, Seen.put]
      split_ifs
      · rfl
      · exact hactive b u
    · intro u state' hu
      exact absurd (ht.symm.trans hu) (by simp)
    · intro u msus hu
      exact absurd (hf.symm.trans hu) (by simp)
  | server t state =>
    refine ⟨⟨r.see (.server t state), hlevel, hfine.2, hactive, fun u => ?_⟩, ?_, ?_, ?_⟩
    · by_cases hu : u = t
      · simp [Serving.act, setServerState, Seen.see, hu]
      · simp [Serving.act, setServerState, Seen.see, hu, hstate]
    · intro u state' hu
      simp only [Serving.act, setServerState] at hu
      split_ifs at hu with hp
      obtain ⟨rfl, rfl⟩ := Prod.mk.inj (Option.some.inj hu)
      refine ⟨hf, by simp [Serving.act, setServerState], fun hon => ?_⟩
      subst hon
      obtain ⟨a, hmem, hona⟩ := hfine.1 (demanding_all hreq _)
      exact ⟨a, hmem, (hactive a _).trans (by simp [hona])⟩
    · intro u msus hu
      exact absurd (hf.symm.trans hu) (by simp)
    · intro u hne
      by_cases hu : u = t
      · subst hu
        by_cases hp : state = .pending
        · exact .inl (by simp [Serving.act, setServerState, hp])
        · exact .inr (by simp [Serving.act, setServerState, hp])
      · exact .inl (by simpa [Serving.act, setServerState, hu] using hpending u hne)
  | send a message =>
    refine hother (fun b u => ?_) fun u => ?_
    all_goals
      cases message with
      | notify t status id context => cases hn : status.names <;> simp [Seen.see, hn]
      | _ => rfl
  | start timer after =>
    obtain ⟨t⟩ := timer
    exact hother (fun _ _ => rfl) fun _ => rfl
  | stop timer =>
    obtain ⟨t⟩ := timer
    exact hother (fun _ _ => rfl) fun _ => rfl
  | activated a t => exact hother (fun _ _ => rfl) fun _ => rfl

theorem act_flushingOf (s : Serving) (action : Action) :
    (s.act action).flushingOf = s.flushingOf ∧ (s.act action).pending = s.pending ∧
    (s.act action).buffers = s.buffers ∧ (s.act action).busy = s.busy ∧
    (s.act action).next = s.next ∧ (s.act action).pendingFull = s.pendingFull ∧
    (s.act action).pendingExpired = s.pendingExpired := by
  cases action <;> exact ⟨rfl, rfl, rfl, rfl, rfl, rfl, rfl⟩

/-- A step that leaves the messages where they are. -/
theorem Accounted.still {s' : Serving} (h : Accounted s seen)
    (hf : s'.flushingOf = s.flushingOf) (hp : s'.pending = s.pending)
    (hb : s'.buffers = s.buffers) (hbusy : s'.busy = s.busy) (hn : s'.next = s.next)
    (hfull : s'.pendingFull = s.pendingFull) (hexpired : s'.pendingExpired = s.pendingExpired) :
    Accounted s' seen := by
  constructor
  · rw [hb]
    exact h.holding
  · rw [hf, hp]
    exact h.queued
  · exact h.waited
  · rw [hfull]
    exact h.full
  · rw [hexpired]
    exact h.expired
  · rw [hf, hp]
    exact h.plain
  · rw [hbusy]
    exact h.busy
  · rw [hbusy, hn]
    exact h.once

/-! ### The queue is taken, and sent -/

theorem Synced.take (h : Synced l s) {t : ℕ} {state : AsState}
    (ht : s.taking = some (t, state)) : Synced l (s.take t state).1 := by
  obtain ⟨hf, hstate, hon⟩ := h.taking t state ht
  have hpending : ∀ u, Function.update s.pending t [] u ≠ [] → s.state u = .pending := by
    intro u hne
    by_cases hu : u = t
    · rw [hu] at hne
      exact absurd (Function.update_self t [] s.pending) hne
    · rw [Function.update_of_ne hu] at hne
      refine (h.pending u hne).resolve_right fun hmap => hu ?_
      rw [ht] at hmap
      exact (Option.some.inj hmap).symm
  unfold Serving.take
  dsimp only
  split_ifs with hactive
  · refine ⟨h.seen, by simp, fun u msus hu => ?_, fun u hne => .inl (hpending u hne)⟩
    obtain ⟨rfl, -⟩ := Prod.mk.inj (Option.some.inj hu)
    exact ⟨hstate.trans hactive, hon hactive⟩
  · refine ⟨h.seen, by simp, fun u msus hu => ?_, fun u hne => .inl (hpending u hne)⟩
    exact absurd (hf.symm.trans hu) (by simp)

/-- What is counted of a queue that expired. -/
theorem expired_events (t u : ℕ) (msus : List Handed) :
    let events := msus.map fun msu => (⟨t, msu, true, .pendingExpired⟩ : Event)
    queuedOf u events = [] ∧ relievedOf u events = (if t = u then msus else []) ∧
    decided events = [] := by
  induction msus with
  | nil => simp [queuedOf, relievedOf, decided]
  | cons msu msus ih =>
    obtain ⟨-, hrelieved, -⟩ := ih
    refine ⟨by simp [queuedOf], ?_, by simp [decided]⟩
    by_cases hu : t = u
    · simp only [hu, ↓reduceIte] at hrelieved ⊢
      simpa [relievedOf] using hrelieved
    · simp [relievedOf, hu]

theorem flushingOf_of_none (hf : s.flushing = none) (t : ℕ) : s.flushingOf t = [] := by
  simp [flushingOf, hf]

theorem Accounted.take (h : Accounted s seen) {t : ℕ} {state : AsState}
    (hf : s.flushing = none) :
    Accounted (s.take t state).1 (seen ++ (s.take t state).2) := by
  have hqueued : ∀ u, queuedOf u seen = relievedOf u seen ++ s.pending u := fun u => by
    simpa [flushingOf_of_none hf] using h.queued u
  have hplain : ∀ u, ∀ msu ∈ s.pending u, msu.msu.si ≠ siManagement := fun u msu hm =>
    h.plain u msu (by simp [hm])
  unfold Serving.take
  dsimp only
  split_ifs with hactive
  · rw [List.append_nil]
    refine ⟨h.holding, fun u => ?_, h.waited, h.full, h.expired, fun u => ?_, h.busy, h.once⟩
    · rw [hqueued u]
      by_cases hu : u = t
      · subst hu
        simp [flushingOf]
      · simp [flushingOf, hu, Ne.symm hu]
    · intro msu hm
      by_cases hu : u = t
      · subst hu
        simp only [flushingOf, ↓reduceIte, Function.update_self, List.append_nil] at hm
        exact hplain u msu hm
      · simp only [flushingOf, Ne.symm hu, ↓reduceIte, ne_eq, hu, not_false_eq_true,
          Function.update_of_ne, List.nil_append] at hm
        exact hplain u msu hm
  · have hevents := fun u => expired_events t u (s.pending t)
    refine ⟨h.holding, fun u => ?_, ?_, ?_, ?_, fun u => ?_, h.busy, ?_⟩
    · rw [queuedOf_append, relievedOf_append, hqueued u, (hevents u).1, (hevents u).2.1]
      by_cases hu : t = u
      · subst hu
        simp [flushingOf, hf]
      · simp [flushingOf, hf, hu, Ne.symm hu]
    · intro e he hw
      rcases List.mem_append.mp he with he | he
      · exact h.waited e he hw
      · obtain ⟨msu, -, rfl⟩ := List.mem_map.mp he
        exact .inl rfl
    · simp [h.full, tally, List.countP_map, Function.comp_def]
    · simp [h.expired, tally, List.countP_map, Function.comp_def]
    · intro msu hm
      by_cases hu : u = t
      · subst hu
        simp [flushingOf, hf] at hm
      · exact hplain u msu (by simpa [flushingOf, hf, hu] using hm)
    · rw [decided_append, (hevents t).2.2, List.append_nil]
      exact h.once

theorem Synced.pop (h : Synced l s) {t : ℕ} {msu : Handed} {rest : List Handed}
    (hf : s.flushing = some (t, msu :: rest)) (ht : s.taking = none) :
    Synced l { s with flushing := some (t, rest) } := by
  refine ⟨h.seen, fun u state hu => absurd (ht.symm.trans hu) (by simp), fun u msus hu => ?_,
    h.pending⟩
  obtain ⟨rfl, -⟩ := Prod.mk.inj (Option.some.inj hu)
  exact h.flushing t _ hf

theorem Accounted.pop (h : Accounted s seen) {t : ℕ} {msu : Handed} {rest : List Handed}
    (hf : s.flushing = some (t, msu :: rest)) {asps : List ℕ} (hasps : asps ≠ []) :
    Accounted { s with flushing := some (t, rest) }
      (seen ++ [⟨t, msu, true, .sent asps⟩]) := by
  refine ⟨h.holding, fun u => ?_, ?_, ?_, ?_, fun u m hm => h.plain u m ?_, h.busy, ?_⟩
  · rw [queuedOf_append, relievedOf_append, h.queued u]
    by_cases hu : t = u
    · subst hu
      simp [queuedOf, relievedOf, flushingOf, hf]
    · simp [queuedOf, relievedOf, flushingOf, hf, hu]
  · intro e he hw
    rcases List.mem_append.mp he with he | he
    · exact h.waited e he hw
    · rw [List.mem_singleton.mp he]
      exact .inr ⟨asps, rfl, hasps⟩
  · simpa [tally] using h.full
  · simpa [tally] using h.expired
  · simp only [flushingOf, hf]
    simp only [flushingOf] at hm
    split_ifs at hm ⊢ <;> simp_all
  · rw [decided_append]
    simpa [decided] using h.once

/-! ### The transfer path -/

theorem sendVia_eq (hh : s.buffers.holding = 0) (t : ℕ) (msu : Msu) :
    s.sendVia l t msu = if msu.si = siManagement then
      ({ s with next := s.next + 1 }, [⟨t, ⟨s.next, msu⟩, false, .managed⟩])
    else ({ s with
      next := s.next + 1
      busy := s.busy ++ [⟨t, ⟨s.next, msu⟩, s.select l t msu.sls⟩] }, []) := by
  unfold sendVia
  dsimp only
  rw [holdIfRerouting_of_none hh]
  rfl

theorem Synced.unmoved {s' : Serving} (h : Synced l s) (hmachine : s'.machine = s.machine)
    (hactions : s'.actions = s.actions) (htaking : s'.taking = s.taking)
    (hflushing : s'.flushing = s.flushing) (hactive : s'.active = s.active)
    (hstate : s'.state = s.state)
    (hpending : ∀ t, s'.pending t ≠ [] → s.pending t ≠ [] ∨ s.state t = .pending) :
    Synced l s' := by
  refine ⟨?_, ?_, ?_, fun t hne => ?_⟩
  · rw [hmachine, hactions, hactive, hstate]
    exact h.seen
  · rw [htaking, hflushing, hactive, hstate]
    exact h.taking
  · rw [hflushing, hactive, hstate]
    exact h.flushing
  · rw [hstate, htaking]
    rcases hpending t hne with hne | hp
    · exact h.pending t hne
    · exact .inl hp

theorem Synced.sendVia (h : Synced l s) (hh : s.buffers.holding = 0) (t : ℕ) (msu : Msu) :
    Synced l (s.sendVia l t msu).1 := by
  rw [sendVia_eq hh]
  split_ifs
  · exact h.unmoved rfl rfl rfl rfl rfl rfl fun _ hne => .inl hne
  · exact h.unmoved rfl rfl rfl rfl rfl rfl fun _ hne => .inl hne

theorem Accounted.sendVia (h : Accounted s seen) (t : ℕ) (msu : Msu) :
    Accounted (s.sendVia l t msu).1 (seen ++ (s.sendVia l t msu).2) := by
  rw [sendVia_eq h.holding]
  split_ifs with hsi
  · refine ⟨h.holding, fun u => ?_, ?_, ?_, ?_, h.plain, h.busy, ?_⟩
    · rw [queuedOf_append, relievedOf_append, h.queued u]
      simp [queuedOf, relievedOf, flushingOf]
    · intro e he hw
      rcases List.mem_append.mp he with he | he
      · exact h.waited e he hw
      · rw [List.mem_singleton.mp he] at hw
        cases hw
    · simpa [tally] using h.full
    · simpa [tally] using h.expired
    · rw [decided_append, List.range_succ]
      have hone : decided [(⟨t, ⟨s.next, msu⟩, false, .managed⟩ : Event)] = [s.next] := rfl
      rw [hone, List.append_assoc]
      exact (List.perm_append_comm.append_left _).trans
        (by simpa [List.append_assoc] using h.once.append_right [s.next])
  · rw [List.append_nil]
    refine ⟨h.holding, h.queued, h.waited, h.full, h.expired, h.plain, ?_, ?_⟩
    · intro p hp
      rcases List.mem_append.mp hp with hp | hp
      · exact h.busy p hp
      · rw [List.mem_singleton.mp hp]
        exact hsi
    · rw [List.range_succ, List.map_append, ← List.append_assoc]
      exact h.once.append_right [s.next]

/-- What becomes of a message whose transfer goes on. -/
theorem finish_cases (pendingLimit : ℕ → ℕ) {i : ℕ} {p : Transfer} (hi : s.busy[i]? = some p) :
    let s' := { s with busy := s.busy.eraseIdx i }
    (p.selected ≠ [] ∧ s.finish pendingLimit i =
      (s', [⟨p.server, p.msu, false, .sent p.selected⟩])) ∨
    (p.selected = [] ∧ s.state p.server ≠ .pending ∧ s.finish pendingLimit i =
      (s', [⟨p.server, p.msu, false, .noEgress⟩])) ∨
    (p.selected = [] ∧ s.state p.server = .pending ∧ s.finish pendingLimit i =
      ({ s' with pendingFull := s.pendingFull + 1 },
        [⟨p.server, p.msu, false, .pendingFull⟩])) ∨
    (p.selected = [] ∧ s.state p.server = .pending ∧ s.finish pendingLimit i =
      ({ s' with
        pending := Function.update s.pending p.server (s.pending p.server ++ [p.msu]) },
        [⟨p.server, p.msu, false, .queued⟩])) := by
  unfold finish queueIfPending
  simp only [hi]
  by_cases hsel : p.selected = []
  · by_cases hstate : s.state p.server = .pending
    · by_cases hfull : pendingLimit p.server ≤ (s.pending p.server).length
      · simp [hsel, hstate, hfull]
      · simp [hsel, hstate, hfull]
    · simp [hsel, hstate]
  · simp [hsel]

theorem Synced.finish (h : Synced l s) {i : ℕ} {p : Transfer} (hi : s.busy[i]? = some p) :
    Synced l (s.finish pendingLimit i).1 := by
  rcases finish_cases pendingLimit hi with
    ⟨-, heq⟩ | ⟨-, -, heq⟩ | ⟨-, -, heq⟩ | ⟨-, hp, heq⟩
  · rw [heq]
    exact h.unmoved rfl rfl rfl rfl rfl rfl fun _ hne => .inl hne
  · rw [heq]
    exact h.unmoved rfl rfl rfl rfl rfl rfl fun _ hne => .inl hne
  · rw [heq]
    exact h.unmoved rfl rfl rfl rfl rfl rfl fun _ hne => .inl hne
  · rw [heq]
    refine h.unmoved rfl rfl rfl rfl rfl rfl fun t hne => ?_
    by_cases ht : t = p.server
    · rw [ht]
      exact .inr hp
    · simp only [ne_eq, ht, not_false_eq_true, Function.update_of_ne] at hne
      exact .inl hne

/-- One transfer less is under way, and it is decided what becomes of its message. -/
theorem Accounted.decide (h : Accounted s seen) {i : ℕ} {p : Transfer}
    (hi : s.busy[i]? = some p) {s' : Serving} {fate : Fate} (hb : s'.buffers = s.buffers)
    (hbusy : s'.busy = s.busy.eraseIdx i) (hn : s'.next = s.next)
    (hflushing : s'.flushing = s.flushing)
    (hpending : ∀ t, s'.pending t =
      s.pending t ++ if fate = .queued ∧ t = p.server then [p.msu] else [])
    (hfull : s'.pendingFull = s.pendingFull + if fate = .pendingFull then 1 else 0)
    (hexpired : s'.pendingExpired = s.pendingExpired) (hfate : fate ≠ .pendingExpired) :
    Accounted s' (seen ++ [⟨p.server, p.msu, false, fate⟩]) := by
  have hmem : p ∈ s.busy := List.mem_of_getElem? hi
  have hflush : ∀ t, s'.flushingOf t = s.flushingOf t := fun t => by
    simp only [flushingOf, hflushing]
  refine ⟨?_, fun t => ?_, ?_, ?_, ?_, fun t m hm => ?_, ?_, ?_⟩
  · rw [hb]
    exact h.holding
  · rw [queuedOf_append, relievedOf_append, h.queued t, hflush, hpending]
    by_cases hq : fate = .queued
    · by_cases ht : t = p.server
      · subst ht
        simp [queuedOf, relievedOf, hq]
      · simp [queuedOf, relievedOf, hq, ht, Ne.symm ht]
    · simp [queuedOf, relievedOf, hq]
  · intro e he hw
    rcases List.mem_append.mp he with he | he
    · exact h.waited e he hw
    · rw [List.mem_singleton.mp he] at hw
      cases hw
  · rw [hfull, h.full, tally_append]
    by_cases hf : fate = .pendingFull <;> simp [tally, hf]
  · rw [hexpired, h.expired, tally_append]
    simp [tally, hfate]
  · rw [hflush, hpending, ← List.append_assoc] at hm
    rcases List.mem_append.mp hm with hm | hm
    · exact h.plain t m hm
    · split_ifs at hm
      · rw [List.mem_singleton.mp hm]
        exact h.busy p hmem
      · exact absurd hm List.not_mem_nil
  · rw [hbusy]
    intro q hq
    exact h.busy q (List.mem_of_mem_eraseIdx hq)
  · rw [hbusy, hn, decided_append]
    have hone : decided [(⟨p.server, p.msu, false, fate⟩ : Event)] = [p.msu.number] := rfl
    obtain ⟨hlt, hget⟩ := List.getElem?_eq_some_iff.mp hi
    have hperm := (List.getElem_cons_eraseIdx_perm hlt).map fun p => p.msu.number
    rw [hget, List.map_cons] at hperm
    rw [hone, List.append_assoc]
    exact (hperm.append_left _).trans h.once

theorem Accounted.finish (h : Accounted s seen) {i : ℕ} {p : Transfer}
    (hi : s.busy[i]? = some p) :
    Accounted (s.finish pendingLimit i).1 (seen ++ (s.finish pendingLimit i).2) := by
  rcases finish_cases pendingLimit hi with
    ⟨-, heq⟩ | ⟨-, -, heq⟩ | ⟨-, -, heq⟩ | ⟨-, -, heq⟩
  · rw [heq]
    exact h.decide hi rfl rfl rfl rfl (fun t => by simp) (by simp) rfl (by simp)
  · rw [heq]
    exact h.decide hi rfl rfl rfl rfl (fun t => by simp) (by simp) rfl (by simp)
  · rw [heq]
    exact h.decide hi rfl rfl rfl rfl (fun t => by simp) (by simp) rfl (by simp)
  · rw [heq]
    refine h.decide hi rfl rfl rfl rfl (fun t => ?_) (by simp) rfl (by simp)
    by_cases ht : t = p.server
    · subst ht
      simp
    · simp [ht]

/-- What holds between two steps. -/
structure Kept (l : Layout) (s : Serving) (seen : List Event) : Prop where
  synced : Synced l s
  accounted : Accounted s seen

theorem perform_of_flushing {t : ℕ} {msu : Handed} {rest : List Handed}
    (ht : s.taking = none) (hf : s.flushing = some (t, msu :: rest)) :
    s.perform l pendingLimit =
      ((({ s with flushing := some (t, rest) } : Serving).flush l pendingLimit t msu).2,
        [⟨t, msu, true,
          (({ s with flushing := some (t, rest) } : Serving).flush l pendingLimit t msu).1⟩]) := by
  unfold perform
  rw [ht, hf]

theorem perform_of_flushed {t : ℕ} (ht : s.taking = none) (hf : s.flushing = some (t, [])) :
    s.perform l pendingLimit = ({ s with flushing := none }, []) := by
  unfold perform
  rw [ht, hf]

theorem perform_of_action {action : Action} {rest : List Action} (ht : s.taking = none)
    (hf : s.flushing = none) (ha : s.actions = action :: rest) :
    s.perform l pendingLimit = (({ s with actions := rest } : Serving).act action, []) := by
  unfold perform
  rw [ht, hf, ha]

theorem perform_of_idle (ht : s.taking = none) (hf : s.flushing = none) (ha : s.actions = []) :
    s.perform l pendingLimit = (s, []) := by
  unfold perform
  rw [ht, hf, ha]

theorem perform_of_taking {t : ℕ} {state : AsState} (ht : s.taking = some (t, state)) :
    s.perform l pendingLimit = s.take t state := by
  unfold perform
  rw [ht]

theorem Kept.flush_eq (h : Kept l s seen) {t : ℕ} {msu : Handed} {rest : List Handed}
    (hf : s.flushing = some (t, msu :: rest)) :
    ({ s with flushing := some (t, rest) } : Serving).flush l pendingLimit t msu =
      (.sent (s.select l t msu.msu.sls), { s with flushing := some (t, rest) }) :=
  Serving.flush_eq (s := { s with flushing := some (t, rest) }) h.accounted.holding
    (h.accounted.plain t msu (by simp [flushingOf, hf])) (h.synced.flushing t _ hf).2

theorem Kept.perform (hreq : l.Demanding) (h : Kept l s seen) :
    Kept l (s.perform l pendingLimit).1 (seen ++ (s.perform l pendingLimit).2) := by
  cases ht : s.taking with
  | some q =>
    obtain ⟨t, state⟩ := q
    rw [perform_of_taking ht]
    exact ⟨h.synced.take ht, h.accounted.take (h.synced.taking t state ht).1⟩
  | none =>
    cases hf : s.flushing with
    | some q =>
      obtain ⟨t, msus⟩ := q
      cases msus with
      | nil =>
        rw [perform_of_flushed ht hf, List.append_nil]
        refine ⟨⟨h.synced.seen, ?_, ?_, h.synced.pending⟩, ?_⟩
        · intro u state hu
          exact absurd (ht.symm.trans hu) (by simp)
        · intro u msus hu
          exact absurd hu (by simp)
        · refine h.accounted.still ?_ rfl rfl rfl rfl rfl rfl
          funext u
          simp [flushingOf, hf]
      | cons msu rest =>
        rw [perform_of_flushing ht hf, h.flush_eq hf]
        exact ⟨h.synced.pop hf ht,
          h.accounted.pop hf (select_ne_nil (h.synced.flushing t _ hf).2 _)⟩
    | none =>
      cases ha : s.actions with
      | nil =>
        rw [perform_of_idle ht hf ha, List.append_nil]
        exact h
      | cons action rest =>
        rw [perform_of_action ht hf ha, List.append_nil]
        obtain ⟨hflushing, hpending, hb, hbusy, hn, hfull, hexpired⟩ :=
          act_flushingOf { s with actions := rest } action
        exact ⟨h.synced.act hreq ha ht hf,
          h.accounted.still hflushing hpending hb hbusy hn hfull hexpired⟩

theorem Kept.step (hl : l.Consistent) (hreq : l.Demanding) (h : Kept l s seen) (turn : Turn) :
    Kept l (s.step l pendingLimit turn).1 (seen ++ (s.step l pendingLimit turn).2) := by
  cases turn with
  | handle input =>
    simp only [Serving.step]
    split_ifs with hidle
    · rw [List.append_nil]
      exact ⟨h.synced.handle hl hidle.1 input,
        h.accounted.still rfl rfl rfl rfl rfl rfl rfl⟩
    · simpa using h
  | perform => exact h.perform hreq
  | sendVia t msu =>
    simp only [Serving.step]
    split_ifs
    · simpa using h
    · exact ⟨h.synced.sendVia h.accounted.holding t msu, h.accounted.sendVia t msu⟩
  | finish i =>
    simp only [Serving.step]
    cases hi : s.busy[i]? with
    | none => simpa [Serving.finish, hi] using h
    | some p => exact ⟨h.synced.finish hi, h.accounted.finish hi⟩

/-! ## The order in which the messages leave -/

def Fate.leaves : Fate → Bool
  | .sent _ => true
  | _ => false

/-- The messages of a stream that left for a server. -/
def leftOf (t : ℕ) (k : ℕ × ℕ × ℕ) (seen : List Event) : List ℕ :=
  (seen.filter fun e => e.server = t && e.msu.msu.stream = k && e.fate.leaves).map fun e =>
    e.msu.number

@[simp] theorem leftOf_append (t : ℕ) (k : ℕ × ℕ × ℕ) (xs ys : List Event) :
    leftOf t k (xs ++ ys) = leftOf t k xs ++ leftOf t k ys := by simp [leftOf]

/-- The messages of a stream that are queued for a server, or taken from its queue. -/
def waitingOf (s : Serving) (t : ℕ) (k : ℕ × ℕ × ℕ) : List ℕ :=
  ((s.flushingOf t ++ s.pending t).filter fun msu => msu.msu.stream = k).map Handed.number

/-- The transfers of a stream that are under way. -/
def underway (s : Serving) (t : ℕ) (k : ℕ × ℕ × ℕ) : List Transfer :=
  s.busy.filter fun p => p.server = t && p.msu.msu.stream = k

/-- The messages of a stream in the order in which they are to leave. -/
def lineOf (s : Serving) (seen : List Event) (t : ℕ) (k : ℕ × ℕ × ℕ) : List ℕ :=
  leftOf t k seen ++ s.waitingOf t k ++ (s.underway t k).map fun p => p.msu.number

/-- A message is handed to a server when the last one of its stream is out of the hands of the
transfer path, and, where it finds an ASP active, none of its stream waits in the queue. -/
def Orderly (l : Layout) (p : Serving × List Event) : Turn → Prop
  | .sendVia t msu => p.1.underway t msu.stream = [] ∧
      ((∃ a ∈ (l.server t).asps, p.1.active a t = true) → p.1.waitingOf t msu.stream = [])
  | _ => True

/-- The messages of every stream are in line. -/
structure Ordered (s : Serving) (seen : List Event) : Prop where
  line : ∀ t k, (s.lineOf seen t k).Pairwise (· < ·)
  recent : ∀ t k, ∀ n ∈ s.lineOf seen t k, n < s.next
  alone : ∀ t k, (s.underway t k).length ≤ 1
  direct : ∀ p ∈ s.busy, p.selected ≠ [] → s.waitingOf p.server p.msu.msu.stream = []

theorem exists_active_of_select {t sls : ℕ} (h : s.select l t sls ≠ []) :
    ∃ a ∈ (l.server t).asps, s.active a t = true := by
  by_contra hnone
  have hoff : (List.range ((l.server t).asps.map fun a => s.active a t).length).filter (fun i =>
      ((l.server t).asps.map fun a => s.active a t).getD i false) = [] := by
    rw [List.filter_eq_nil_iff]
    intro i _
    rw [List.getD_eq_getElem?_getD, List.getElem?_map]
    cases hget : (l.server t).asps[i]? with
    | none => simp
    | some a =>
      simp only [Option.map_some, Option.getD_some]
      exact fun hon => hnone ⟨a, List.mem_of_getElem? hget, hon⟩
  apply h
  simp only [select, choose, hoff, ↓reduceIte, List.map_nil]

/-- What leaves the line leaves the rest of it in order. -/
theorem Ordered.shrink {s' : Serving} {seen' : List Event} (h : Ordered s seen)
    (hline : ∀ t k, (s'.lineOf seen' t k).Sublist (s.lineOf seen t k)) (hn : s.next ≤ s'.next)
    (hbusy : s'.busy.Sublist s.busy)
    (hwaiting : ∀ p ∈ s'.busy, s.waitingOf p.server p.msu.msu.stream = [] →
      s'.waitingOf p.server p.msu.msu.stream = []) : Ordered s' seen' := by
  constructor
  · exact fun t k => (h.line t k).sublist (hline t k)
  · exact fun t k n hmem => Nat.lt_of_lt_of_le (h.recent t k n ((hline t k).subset hmem)) hn
  · exact fun t k => Nat.le_trans (hbusy.filter _).length_le (h.alone t k)
  · exact fun p hp hsel => hwaiting p hp (h.direct p (hbusy.subset hp) hsel)

theorem Ordered.still {s' : Serving} (h : Ordered s seen) (hf : s'.flushingOf = s.flushingOf)
    (hp : s'.pending = s.pending) (hbusy : s'.busy = s.busy) (hn : s'.next = s.next) :
    Ordered s' seen := by
  have hwaiting : ∀ t k, s'.waitingOf t k = s.waitingOf t k := fun t k => by
    simp only [waitingOf, hf, hp]
  refine h.shrink (fun t k => ?_) (Nat.le_of_eq hn.symm) ?_ fun p _ hw => ?_
  · simp only [lineOf, hwaiting, underway, hbusy]
    exact List.Sublist.refl _
  · rw [hbusy]
  · rw [hwaiting]
    exact hw

theorem Ordered.take (h : Ordered s seen) {t : ℕ} {state : AsState} (hf : s.flushing = none) :
    Ordered (s.take t state).1 (seen ++ (s.take t state).2) := by
  have hnone := flushingOf_of_none hf
  unfold Serving.take
  dsimp only
  split_ifs with hactive
  · rw [List.append_nil]
    have hwaiting : ∀ u k, ({ s with
        taking := none
        pending := Function.update s.pending t []
        flushing := some (t, s.pending t) } : Serving).waitingOf u k = s.waitingOf u k := by
      intro u k
      by_cases hu : u = t
      · subst hu
        simp [waitingOf, flushingOf, hf]
      · simp [waitingOf, flushingOf, hf, hu, Ne.symm hu]
    refine h.shrink (fun u k => ?_) (Nat.le_refl _) (List.Sublist.refl _) fun p _ hw => ?_
    · unfold lineOf
      rw [hwaiting]
      exact List.Sublist.refl _
    · rw [hwaiting]
      exact hw
  · have hleft : ∀ u k, leftOf u k ((s.pending t).map fun msu =>
        (⟨t, msu, true, .pendingExpired⟩ : Event)) = [] := by
      intro u k
      induction s.pending t with
      | nil => rfl
      | cons msu msus ih => simp [leftOf, Fate.leaves]
    have hwaiting : ∀ u k, (({ s with
        taking := none
        pending := Function.update s.pending t []
        pendingExpired := s.pendingExpired + (s.pending t).length } :
          Serving).waitingOf u k).Sublist
          (s.waitingOf u k) := by
      intro u k
      by_cases hu : u = t
      · subst hu
        simp [waitingOf, flushingOf, hf]
      · simp [waitingOf, flushingOf, hf, hu]
    refine h.shrink (fun u k => ?_) (Nat.le_refl _) (List.Sublist.refl _) fun p _ hw => ?_
    · unfold lineOf
      rw [leftOf_append, hleft, List.append_nil]
      exact ((hwaiting u k).append_left _).append_right _
    · exact List.eq_nil_of_sublist_nil (hw ▸ hwaiting _ _)

theorem Ordered.pop (h : Ordered s seen) {t : ℕ} {msu : Handed} {rest : List Handed}
    (hf : s.flushing = some (t, msu :: rest)) (asps : List ℕ) :
    Ordered { s with flushing := some (t, rest) } (seen ++ [⟨t, msu, true, .sent asps⟩]) := by
  refine h.shrink (fun u k => ?_) (Nat.le_refl _) (List.Sublist.refl _) fun p _ hw => ?_
  · unfold lineOf
    rw [leftOf_append]
    by_cases hu : t = u
    · subst hu
      by_cases hk : msu.msu.stream = k
      · simp [leftOf, waitingOf, flushingOf, hf, hk, Fate.leaves, underway]
      · simp [leftOf, waitingOf, flushingOf, hf, hk, underway]
    · simp [leftOf, waitingOf, flushingOf, hf, hu, underway]
  · by_cases hu : t = p.server
    · simp only [waitingOf, flushingOf, hf, hu] at hw ⊢
      simp_all
    · simpa [waitingOf, flushingOf, hf, hu] using hw

theorem split_at {α : Type*} {xs : List α} {i : ℕ} {x : α} (h : xs[i]? = some x) :
    ∃ pre post, xs = pre ++ x :: post ∧ xs.eraseIdx i = pre ++ post := by
  obtain ⟨hlt, rfl⟩ := List.getElem?_eq_some_iff.mp h
  refine ⟨xs.take i, xs.drop (i + 1), ?_, List.eraseIdx_eq_take_drop_succ xs i⟩
  rw [← List.drop_eq_getElem_cons hlt, List.take_append_drop]

/-- The only transfer of a stream that is under way. -/
theorem Ordered.underway_eq (h : Ordered s seen) {i : ℕ} {p : Transfer}
    (hi : s.busy[i]? = some p) (t : ℕ) (k : ℕ × ℕ × ℕ) :
    let erased := (s.busy.eraseIdx i).filter fun q => q.server = t && q.msu.msu.stream = k
    if p.server = t ∧ p.msu.msu.stream = k then s.underway t k = [p] ∧ erased = []
    else erased = s.underway t k := by
  have halone := h.alone t k
  obtain ⟨pre, post, hsplit, herase⟩ := split_at hi
  unfold underway at halone ⊢
  rw [herase]
  rw [hsplit] at halone ⊢
  dsimp only
  split_ifs with hp
  · simp only [List.filter_append, List.filter_cons, hp, decide_true, Bool.and_self, ↓reduceIte,
      List.length_append, List.length_cons] at halone ⊢
    have hpre : pre.filter (fun q => q.server = t && q.msu.msu.stream = k) = [] :=
      List.length_eq_zero_iff.mp (by omega)
    have hpost : post.filter (fun q => q.server = t && q.msu.msu.stream = k) = [] :=
      List.length_eq_zero_iff.mp (by omega)
    simp [hpre, hpost]
  · have hoff : (decide (p.server = t) && decide (p.msu.msu.stream = k)) = false := by
      simpa using hp
    simp [hoff]

theorem Ordered.sendVia (h : Ordered s seen) (hh : s.buffers.holding = 0) {t : ℕ} {msu : Msu}
    (ho : Orderly l (s, seen) (.sendVia t msu)) :
    Ordered (s.sendVia l t msu).1 (seen ++ (s.sendVia l t msu).2) := by
  obtain ⟨hfree, hdirect⟩ := ho
  rw [sendVia_eq hh]
  split_ifs
  · refine h.shrink (fun u k => ?_) (Nat.le_succ _) (List.Sublist.refl _) fun _ _ hw => hw
    unfold lineOf
    rw [leftOf_append]
    simp [leftOf, Fate.leaves, waitingOf, flushingOf, underway]
  · rw [List.append_nil]
    have hunder : ∀ u k, ({ s with
        next := s.next + 1
        busy := s.busy ++ [⟨t, ⟨s.next, msu⟩, s.select l t msu.sls⟩] } : Serving).underway u k =
          s.underway u k ++ if t = u ∧ msu.stream = k then
            [⟨t, ⟨s.next, msu⟩, s.select l t msu.sls⟩] else [] := by
      intro u k
      simp only [underway, List.filter_append]
      by_cases hu : t = u <;> by_cases hk : msu.stream = k <;> simp [hu, hk]
    have hline : ∀ u k, ({ s with
        next := s.next + 1
        busy := s.busy ++ [⟨t, ⟨s.next, msu⟩, s.select l t msu.sls⟩] } : Serving).lineOf seen u k =
          s.lineOf seen u k ++ if t = u ∧ msu.stream = k then [s.next] else [] := by
      intro u k
      unfold lineOf
      rw [hunder, List.map_append, ← List.append_assoc]
      split_ifs <;> rfl
    refine ⟨fun u k => ?_, fun u k n hn => ?_, fun u k => ?_, fun p hp hsel => ?_⟩
    · rw [hline]
      refine List.pairwise_append.mpr ⟨h.line u k, by split_ifs <;> simp, fun n hn n' hn' => ?_⟩
      split_ifs at hn'
      · rw [List.mem_singleton.mp hn']
        exact h.recent u k n hn
      · exact absurd hn' List.not_mem_nil
    · rw [hline] at hn
      rcases List.mem_append.mp hn with hn | hn
      · exact Nat.lt_succ_of_lt (h.recent u k n hn)
      · split_ifs at hn
        · rw [List.mem_singleton.mp hn]
          exact Nat.lt_succ_self _
        · exact absurd hn List.not_mem_nil
    · rw [hunder]
      split_ifs with hsame
      · obtain ⟨rfl, rfl⟩ := hsame
        simp only at hfree
        simp [hfree]
      · simpa using h.alone u k
    · rcases List.mem_append.mp hp with hp | hp
      · exact h.direct p hp hsel
      · rw [List.mem_singleton.mp hp] at hsel ⊢
        exact hdirect (exists_active_of_select hsel)

theorem Ordered.finish (h : Ordered s seen) {i : ℕ} {p : Transfer} (hi : s.busy[i]? = some p) :
    Ordered (s.finish pendingLimit i).1 (seen ++ (s.finish pendingLimit i).2) := by
  have hmem : p ∈ s.busy := List.mem_of_getElem? hi
  have herased := h.underway_eq hi
  have hsub : (s.busy.eraseIdx i).Sublist s.busy := List.eraseIdx_sublist _ _
  -- a message that goes nowhere leaves the line
  have hgone : ∀ (s' : Serving) (fate : Fate), s'.flushing = s.flushing → s'.pending = s.pending →
      s'.busy = s.busy.eraseIdx i → s'.next = s.next → fate.leaves = false →
      Ordered s' (seen ++ [⟨p.server, p.msu, false, fate⟩]) := by
    intro s' fate hf hp hb hn hfate
    have hwaiting : ∀ t k, s'.waitingOf t k = s.waitingOf t k := fun t k => by
      simp only [waitingOf, flushingOf, hf, hp]
    refine h.shrink (fun t k => ?_) (Nat.le_of_eq hn.symm) (hb ▸ hsub) fun q _ hw => ?_
    · have hnone : leftOf t k [(⟨p.server, p.msu, false, fate⟩ : Event)] = [] := by
        simp [leftOf, hfate]
      unfold lineOf
      rw [leftOf_append, hnone, List.append_nil, hwaiting]
      exact (((hb ▸ hsub).filter _).map _).append_left _
    · rw [hwaiting]
      exact hw
  rcases finish_cases pendingLimit hi with
    ⟨hsel, heq⟩ | ⟨-, -, heq⟩ | ⟨-, -, heq⟩ | ⟨-, -, heq⟩
  · rw [heq]
    refine h.shrink (fun t k => ?_) (Nat.le_refl _) hsub fun _ _ hw => hw
    have hunder := herased t k
    unfold lineOf
    rw [leftOf_append]
    change (leftOf t k seen ++ _ ++ s.waitingOf t k ++
      ((s.busy.eraseIdx i).filter _).map _).Sublist _
    split_ifs at hunder with hsame
    · obtain ⟨rfl, rfl⟩ := hsame
      rw [hunder.1, hunder.2, h.direct p hmem hsel]
      simp [leftOf, Fate.leaves]
    · rw [hunder]
      have hnone : leftOf t k [(⟨p.server, p.msu, false, .sent p.selected⟩ : Event)] = [] := by
        simp only [leftOf, List.map_eq_nil_iff, List.filter_eq_nil_iff]
        intro e he
        rw [List.mem_singleton.mp he]
        simp only [Bool.and_eq_true, decide_eq_true_eq]
        exact fun hin => hsame hin.1
      rw [hnone, List.append_nil]
  · rw [heq]
    exact hgone _ _ rfl rfl rfl rfl rfl
  · rw [heq]
    exact hgone _ _ rfl rfl rfl rfl rfl
  · rw [heq]
    have hwaiting : ∀ t k, ({ s with
        busy := s.busy.eraseIdx i
        pending := Function.update s.pending p.server (s.pending p.server ++ [p.msu]) } :
          Serving).waitingOf t k = s.waitingOf t k ++
            if p.server = t ∧ p.msu.msu.stream = k then [p.msu.number] else [] := by
      intro t k
      by_cases ht : p.server = t
      · subst ht
        by_cases hk : p.msu.msu.stream = k <;> simp [waitingOf, flushingOf, hk]
      · simp [waitingOf, flushingOf, ht, Ne.symm ht]
    refine h.shrink (fun t k => ?_) (Nat.le_refl _) hsub fun q hq hw => ?_
    · have hunder := herased t k
      unfold lineOf
      rw [leftOf_append, hwaiting]
      have hnone : leftOf t k [(⟨p.server, p.msu, false, .queued⟩ : Event)] = [] := by
        simp [leftOf, Fate.leaves]
      rw [hnone, List.append_nil]
      change (leftOf t k seen ++ _ ++ ((s.busy.eraseIdx i).filter _).map _).Sublist _
      split_ifs at hunder ⊢ with hsame
      · rw [hunder.1, hunder.2]
        simp
      · rw [hunder, List.append_nil]
    · have hunder := herased q.server q.msu.msu.stream
      rw [hwaiting, hw]
      split_ifs at hunder ⊢ with hsame
      · have hin : q ∈ (s.busy.eraseIdx i).filter fun r =>
            r.server = q.server && r.msu.msu.stream = q.msu.msu.stream :=
          List.mem_filter.mpr ⟨hq, by simp⟩
        rw [hunder.2] at hin
        exact absurd hin List.not_mem_nil
      · rfl

theorem Ordered.perform (hk : Kept l s seen) (h : Ordered s seen) :
    Ordered (s.perform l pendingLimit).1 (seen ++ (s.perform l pendingLimit).2) := by
  cases ht : s.taking with
  | some q =>
    obtain ⟨t, state⟩ := q
    rw [perform_of_taking ht]
    exact h.take (hk.synced.taking t state ht).1
  | none =>
    cases hf : s.flushing with
    | some q =>
      obtain ⟨t, msus⟩ := q
      cases msus with
      | nil =>
        rw [perform_of_flushed ht hf, List.append_nil]
        refine h.still ?_ rfl rfl rfl
        funext u
        simp [flushingOf, hf]
      | cons msu rest =>
        rw [perform_of_flushing ht hf, hk.flush_eq hf]
        exact h.pop hf _
    | none =>
      cases ha : s.actions with
      | nil =>
        rw [perform_of_idle ht hf ha, List.append_nil]
        exact h
      | cons action rest =>
        rw [perform_of_action ht hf ha, List.append_nil]
        obtain ⟨hflushing, hpending, -, hbusy, hn, -, -⟩ :=
          act_flushingOf { s with actions := rest } action
        exact h.still hflushing hpending hbusy hn

theorem Ordered.step (hk : Kept l s seen) (h : Ordered s seen) {turn : Turn}
    (ho : Orderly l (s, seen) turn) :
    Ordered (s.step l pendingLimit turn).1 (seen ++ (s.step l pendingLimit turn).2) := by
  cases turn with
  | handle input =>
    simp only [Serving.step]
    split_ifs
    · rw [List.append_nil]
      exact h.still rfl rfl rfl rfl
    · simpa using h
  | perform => exact h.perform hk
  | sendVia t msu =>
    simp only [Serving.step]
    split_ifs
    · simpa using h
    · exact h.sendVia hk.accounted.holding ho
  | finish i =>
    simp only [Serving.step]
    cases hi : s.busy[i]? with
    | none => simpa [Serving.finish, hi] using h
    | some p => exact h.finish hi

/-! ## Every run -/

theorem kept_run (hl : l.Consistent) (hreq : l.Demanding) (n : ℕ) (turns : List Turn) :
    Kept l (Machine.run (watching l pendingLimit) (new n, []) turns).1
      (Machine.run (watching l pendingLimit) (new n, []) turns).2 :=
  Machine.run_invariant (P := fun p : Serving × List Event => Kept l p.1 p.2)
    (fun _ turn h _ => h.step hl hreq turn)
    ⟨synced_new n, accounted_new n⟩ (Machine.along_trivial _ turns)

theorem ordered_new (n : ℕ) : Ordered (new n) [] := by
  refine ⟨fun t k => ?_, fun t k m hm => ?_, fun t k => ?_, fun p hp => ?_⟩
  · exact List.Pairwise.nil
  · exact absurd hm List.not_mem_nil
  · exact Nat.zero_le _
  · exact absurd hp List.not_mem_nil

/-- No message is queued twice. -/
theorem Accounted.nodup (h : Accounted s seen) (t : ℕ) :
    ((queuedOf t seen).map Handed.number).Nodup := by
  have hdecided : (decided seen).Nodup :=
    (List.nodup_append.mp (h.once.nodup_iff.mpr List.nodup_range)).1
  have hfilter : seen.filter (fun e => e.server = t && e.fate = .queued) =
      (seen.filter fun e => !e.waited).filter fun e => e.server = t && e.fate = .queued := by
    rw [List.filter_filter]
    refine List.filter_congr fun e he => ?_
    cases hw : e.waited with
    | false => simp
    | true =>
      rcases h.waited e he hw with hfate | ⟨asps, hfate, -⟩ <;> simp [hfate]
  refine hdecided.sublist ?_
  unfold queuedOf decided
  rw [hfilter, List.map_map]
  exact List.filter_sublist.map _

/-- In every run each message that is queued for a pending server is sent once, to an ASP, when the
server is active, or counted once, and none stays in the queue of a server that is not pending. The
messages of a stream leave in the order in which they came, where none of them is handed to an
active ASP while another one waits. -/
theorem pending_in_sequence (servers : List ApplicationServer) (associations : List Association)
    (pendingLimit : ℕ → ℕ) (n : ℕ) (turns : List Turn) :
    let l := Layout.build servers associations
    let p := Machine.run (watching l pendingLimit) (new n, []) turns
    ((∀ t, queuedOf t p.2 = relievedOf t p.2 ++ p.1.flushingOf t ++ p.1.pending t ∧
        ((queuedOf t p.2).map Handed.number).Nodup) ∧
      (∀ e ∈ p.2, e.waited = true →
        e.fate = .pendingExpired ∨ ∃ asps, e.fate = .sent asps ∧ asps ≠ []) ∧
      (∀ t msus, p.1.flushing = some (t, msus) → p.1.state t = .active) ∧
      p.1.pendingExpired = tally .pendingExpired p.2 ∧
      p.1.pendingFull = tally .pendingFull p.2 ∧
      ∀ t, p.1.pending t ≠ [] → p.1.state t = .pending ∨ p.1.taking.map Prod.fst = some t) ∧
    (Machine.Along (watching l pendingLimit) (Orderly l) (new n, []) turns →
      ∀ t k, (leftOf t k p.2).Pairwise (· < ·)) := by
  intro l p
  obtain ⟨hl, hreq⟩ := Layout.build_consistent servers associations
  have hkept : Kept l p.1 p.2 := kept_run hl hreq n turns
  obtain ⟨hsync, hacc⟩ := hkept
  refine ⟨⟨fun t => ⟨hacc.queued t, ?_⟩, hacc.waited, fun t msus hf => (hsync.flushing t msus hf).1,
    hacc.expired, hacc.full, hsync.pending⟩, fun ho t k => ?_⟩
  · exact hacc.nodup t
  · have hrun : Kept l p.1 p.2 ∧ Ordered p.1 p.2 :=
      Machine.run_invariant (P := fun p : Serving × List Event => Kept l p.1 p.2 ∧ Ordered p.1 p.2)
        (fun _ turn h hturn => ⟨h.1.step hl hreq turn, h.2.step h.1 hturn⟩)
        ⟨⟨synced_new n, accounted_new n⟩, ordered_new n⟩ ho
    have hline := hrun.2.line t k
    unfold lineOf at hline
    rw [List.append_assoc] at hline
    exact (List.pairwise_append.mp hline).1

instance (l : Layout) (p : Serving × List Event) (turn : Turn) : Decidable (Orderly l p turn) := by
  cases turn <;> unfold Orderly <;> infer_instance

/-- A gateway with one server and its one ASP. -/
def oneServer : List ApplicationServer := [⟨"as", .loadshare, 100, ["asp-0"], 2000, 1⟩]

def oneAssociation : List Association := [⟨"asp-0", .m3ua, .server⟩]

/-- Up to where the server is pending and a message waits. -/
def untilPending : List Turn :=
  [.handle (.up 0 none)] ++ List.replicate 5 .perform ++
    [.handle (.active 0 none none)] ++ List.replicate 8 .perform ++
    [.handle (.inactive 0 none)] ++ List.replicate 6 .perform ++
    [.sendVia 0 ⟨1, 2, 3, 0, 0, 5, [0]⟩, .finish 0, .handle (.active 0 none none)]

/-- A message that comes when the queue is sent leaves after those that waited. -/
theorem pending_in_sequence_of_drained :
    (leftOf 0 (1, 2, 5) (Machine.run
      (watching (Layout.build oneServer oneAssociation) fun _ => 10) (new 5, [])
      (untilPending ++ List.replicate 9 .perform ++
        [.sendVia 0 ⟨1, 2, 3, 0, 0, 5, [1]⟩, .finish 0])).2).Pairwise (· < ·) :=
  (pending_in_sequence oneServer oneAssociation (fun _ => 10) 5 _).2 (by decide +kernel) 0 _

/-- A message that comes when the ASP is active and the server still pending leaves first. -/
theorem overtaken_while_pending :
    let left := leftOf 0 (1, 2, 5) (Machine.run
      (watching (Layout.build oneServer oneAssociation) fun _ => 10) (new 5, [])
      (untilPending ++ [.perform, .perform, .sendVia 0 ⟨1, 2, 3, 0, 0, 5, [1]⟩, .finish 0] ++
        List.replicate 7 .perform)).2
    left = [1, 0] ∧ ¬ left.Pairwise (· < ·) := by
  decide +kernel

end Serving

end SiphonSigtran.Transport
