import SiphonSigtran.Mtp3.Held
import SiphonSigtran.Transport.Registry

/-!
# Controlled rerouting

Management says when the traffic of a destination is held and when it is
released. The task that serves it performs what it says in order, a release one
batch after another, while other tasks hand in messages. A message that was
buffered leaves once, in the order in which it was handed in, and before every
message for its destination that was handed in after it.
-/

namespace SiphonSigtran.Transport

open Lib Mtp3 Routing

/-- What was seen of the messages. -/
inductive Sight
  | handed (msu : Handed) (outcome : Outcome)
  | left (msu : Handed) (via : Destination)
  /-- Out of a controlled rerouting buffer; without a route the message is counted. -/
  | released (msu : Handed) (via : Option Destination)
  deriving DecidableEq, Repr

/-- The router: which way a message goes, and what a route mark changes. -/
structure Router (ρ : Type*) where
  egressFor : ρ → ℕ → ℕ → Option Destination
  noteRouteStatus : ρ → ℕ → LinksetId → RouteStatus → ρ

/-- Management, the actions it called for that are not performed yet, the release that is
under way, and the messages that are not held and go out. -/
structure Forward (ρ : Type*) where
  machine : Management
  pending : List Mtp3.Action
  releasing : Option (ℕ × List Handed)
  buffers : Buffers
  routing : ρ
  sending : List (Destination × Handed)
  next : ℕ
  noRoute : ℕ

/-- What one of the tasks does next. -/
inductive Turn (ρ : Type*)
  | handle (input : Mtp3.Input)
  | perform
  | sendVia (via : Destination) (msu : Msu)
  | sendNow (i : ℕ)
  | reroute (routing : ρ)

namespace Forward

variable {ρ : Type*}

def new (topology : Topology) (timers : Timers) (tfp : Bool) (reroutingBuffer : ℕ) (routing : ρ) :
    Forward ρ :=
  ⟨Management.new topology timers tfp, [], none, .new reroutingBuffer, routing, [], 0, 0⟩

/-- One turn of the loop that releases a destination. -/
def release (router : Router ρ) (s : Forward ρ) (dpc : ℕ) : List Handed → Forward ρ × List Sight
  | msu :: batch =>
    let via := router.egressFor s.routing msu.msu.dpc msu.msu.sls
    ({ s with
        releasing := some (dpc, batch)
        noRoute := if via.isNone then s.noRoute + 1 else s.noRoute },
      [.released msu via])
  | [] =>
    let (batch, buffers) := s.buffers.releaseDestination dpc
    ({ s with buffers := buffers, releasing := batch.map fun batch => (dpc, batch) }, [])

/-- Perform the next action. -/
def perform (router : Router ρ) (s : Forward ρ) : Forward ρ × List Sight :=
  match s.releasing with
  | some (dpc, batch) => s.release router dpc batch
  | none =>
    match s.pending with
    | [] => (s, [])
    | action :: pending =>
      let s := { s with pending := pending }
      match action with
      | .holdDestination dpc => ({ s with buffers := s.buffers.holdDestination dpc }, [])
      | .releaseDestination dpc => ({ s with releasing := some (dpc, []) }, [])
      | .route dpc linkset status =>
        ({ s with routing := router.noteRouteStatus s.routing dpc linkset status }, [])
      | _ => (s, [])

/-- A message handed to `send_via`, up to where it is held or goes out. -/
def sendVia (s : Forward ρ) (via : Destination) (msu : Msu) : Forward ρ × List Sight :=
  let msu : Handed := ⟨s.next, msu⟩
  let (outcome, buffers) := s.buffers.holdIfRerouting msu
  ({ s with
      buffers := buffers
      next := s.next + 1
      sending := if outcome = .passed then s.sending ++ [(via, msu)] else s.sending },
    [.handed msu outcome])

def step (router : Router ρ) (s : Forward ρ) : Turn ρ → Forward ρ × List Sight
  | .handle input =>
    if s.pending = [] ∧ s.releasing = none then
      ({ s with machine := (s.machine.handle input).1, pending := (s.machine.handle input).2 }, [])
    else (s, [])
  | .perform => s.perform router
  | .sendVia via msu => s.sendVia via msu
  | .sendNow i =>
    match s.sending[i]? with
    | some (via, msu) => ({ s with sending := s.sending.eraseIdx i }, [.left msu via])
    | none => (s, [])
  | .reroute routing => ({ s with routing := routing }, [])

/-- The system and all that was seen of the messages. -/
def watching (router : Router ρ) : Forward ρ × List Sight → Turn ρ → Forward ρ × List Sight :=
  Machine.watch (step router) fun seen _ _ out => seen ++ out.2

/-- The messages for a destination in the release that is under way. -/
def batchOf (s : Forward ρ) (d : ℕ) : List Handed :=
  match s.releasing with
  | some (dpc, batch) => if dpc = d then batch else []
  | none => []

/-- Whether a destination is held and no release of it is under way. -/
def holds (s : Forward ρ) (d : ℕ) : Bool :=
  s.buffers.holds d && s.releasing.map Prod.fst ≠ some d

end Forward

/-! ## What was seen -/

/-- What was buffered of the messages for a destination. -/
def buffered (d : ℕ) (seen : List Sight) : List Handed :=
  seen.filterMap fun
    | .handed msu .buffered => if msu.msu.dpc = d then some msu else none
    | _ => none

/-- What left the buffer of a destination, or was counted. -/
def released (d : ℕ) (seen : List Sight) : List Handed :=
  seen.filterMap fun
    | .released msu _ => if msu.msu.dpc = d then some msu else none
    | _ => none

/-- The numbers of the messages that were handed in. -/
def numbers (seen : List Sight) : List ℕ :=
  seen.filterMap fun
    | .handed msu _ => some msu.number
    | _ => none

/-- How many messages a buffer refused. -/
def refusals (seen : List Sight) : ℕ :=
  seen.countP fun
    | .handed _ .refused => true
    | _ => false

/-- How many messages were released without a route. -/
def strays (seen : List Sight) : ℕ :=
  seen.countP fun
    | .released _ none => true
    | _ => false

/-- The message that leaves, or is counted. -/
def Sight.gone : Sight → Option Handed
  | .left msu _ | .released msu _ => some msu
  | .handed _ _ => none

@[simp] theorem buffered_append (d : ℕ) (xs ys : List Sight) :
    buffered d (xs ++ ys) = buffered d xs ++ buffered d ys := List.filterMap_append

@[simp] theorem released_append (d : ℕ) (xs ys : List Sight) :
    released d (xs ++ ys) = released d xs ++ released d ys := List.filterMap_append

@[simp] theorem numbers_append (xs ys : List Sight) :
    numbers (xs ++ ys) = numbers xs ++ numbers ys := List.filterMap_append

theorem mem_buffered {d : ℕ} {seen : List Sight} {msu : Handed} :
    msu ∈ buffered d seen ↔ Sight.handed msu .buffered ∈ seen ∧ msu.msu.dpc = d := by
  unfold buffered
  rw [List.mem_filterMap]
  constructor
  · rintro ⟨x, hx, hm⟩
    match x with
    | .handed m .buffered =>
      simp only [Option.ite_none_right_eq_some, Option.some.injEq] at hm
      obtain ⟨hd, rfl⟩ := hm
      exact ⟨hx, hd⟩
    | .handed m .passed | .handed m .refused | .left m via | .released m via => simp at hm
  · rintro ⟨hx, hd⟩
    exact ⟨_, hx, by simp [hd]⟩

theorem mem_released {d : ℕ} {seen : List Sight} {msu : Handed} (h : msu ∈ released d seen) :
    ∃ via, Sight.released msu via ∈ seen := by
  unfold released at h
  rw [List.mem_filterMap] at h
  obtain ⟨x, hx, hm⟩ := h
  match x with
  | .released m via =>
    simp only [Option.ite_none_right_eq_some, Option.some.injEq] at hm
    obtain ⟨-, rfl⟩ := hm
    exact ⟨via, hx⟩
  | .handed m o | .left m via => simp at hm

theorem mem_numbers {seen : List Sight} {msu : Handed} {outcome : Outcome}
    (h : Sight.handed msu outcome ∈ seen) : msu.number ∈ numbers seen :=
  List.mem_filterMap.mpr ⟨_, h, rfl⟩

/-- What is seen fits what was seen before: a message passes by an empty buffer only, a message
leaves that passed, and a message is released in its turn. -/
def Fits (seen : List Sight) : Sight → Prop
  | .handed msu .passed => buffered msu.msu.dpc seen = released msu.msu.dpc seen
  | .handed _ .buffered | .handed _ .refused => True
  | .left msu _ => Sight.handed msu .passed ∈ seen
  | .released msu _ =>
    ∃ rest, buffered msu.msu.dpc seen = released msu.msu.dpc seen ++ msu :: rest

def Fitting (seen : List Sight) : Prop :=
  ∀ before x after, seen = before ++ x :: after → Fits before x

theorem Fitting.concat {seen : List Sight} (h : Fitting seen) {x : Sight} (hx : Fits seen x) :
    Fitting (seen ++ [x]) := by
  intro before y after he
  rcases List.eq_nil_or_concat after with rfl | ⟨after, z, rfl⟩
  · obtain ⟨rfl, hy⟩ := List.append_inj' he rfl
    obtain rfl := List.singleton_inj.mp hy
    exact hx
  · have hsplit : seen ++ [x] = (before ++ y :: after) ++ [z] := by simpa using he
    exact h before y after (List.append_inj' hsplit rfl).1

/-! ## What holds between two turns -/

namespace Forward

variable {ρ : Type*} {router : Router ρ}

/-- What holds between two turns of what was seen. -/
structure Sound (s : Forward ρ) (seen : List Sight) : Prop where
  settled : ∃ w, Management.Settled (s.machine, w)
  kept : s.buffers.Kept
  held : ∀ d, heldAfter d (some (s.holds d)) s.pending = some (s.machine.destinations d).holding
  releasing : ∀ d batch, s.releasing = some (d, batch) →
    s.buffers.holds d = true ∧ ∀ msu ∈ batch, msu.msu.dpc = d
  once : ∀ d, buffered d seen = released d seen ++ s.batchOf d ++ s.buffers.bufferOf d
  full : s.buffers.bufferFull = refusals seen
  stray : s.noRoute = strays seen
  numbered : numbers seen = List.range s.next
  sending : ∀ p ∈ s.sending, Sight.handed p.2 .passed ∈ seen
  fitting : Fitting seen

theorem Sound.empty {s : Forward ρ} {seen : List Sight} (h : Sound s seen) {d : ℕ}
    (hd : s.buffers.holds d = false) : buffered d seen = released d seen := by
  have hbatch : s.batchOf d = [] := by
    unfold batchOf
    split
    · rename_i e batch hr
      split_ifs with he
      · subst he
        rw [(h.releasing e batch hr).1] at hd
        cases hd
      · rfl
    · rfl
  rw [h.once d, hbatch, Buffers.bufferOf_of_not_holds hd]
  simp

theorem Sound.handle {s : Forward ρ} {seen : List Sight} (h : Sound s seen)
    (hp : s.pending = []) (input : Mtp3.Input) :
    Sound { s with machine := (s.machine.handle input).1, pending := (s.machine.handle input).2 }
      seen := by
  obtain ⟨w, hw⟩ := h.settled
  refine ⟨⟨_, hw.step input⟩, h.kept, fun d => ?_, h.releasing, h.once, h.full, h.stray,
    h.numbered, h.sending, h.fitting⟩
  have hheld : s.holds d = (s.machine.destinations d).holding := by
    have hd := h.held d
    rw [hp] at hd
    exact Option.some.inj hd
  have hprocess := Management.process_held hw input d
  rw [← hheld] at hprocess
  exact hprocess

/-- An action that neither holds nor releases a destination. -/
theorem Sound.act {s : Forward ρ} {seen : List Sight} (h : Sound s seen) {a : Mtp3.Action}
    {rest : List Mtp3.Action} (hp : s.pending = a :: rest) (hne : ∀ d held, reheld d held a = held)
    (routing : ρ) : Sound { s with pending := rest, routing := routing } seen := by
  refine ⟨h.settled, h.kept, fun d => ?_, h.releasing, h.once, h.full, h.stray, h.numbered,
    h.sending, h.fitting⟩
  have hd := h.held d
  rw [hp, heldAfter_cons, hne] at hd
  exact hd

theorem holds_of_releasing_none {s : Forward ρ} (h : s.releasing = none) (d : ℕ) :
    s.holds d = s.buffers.holds d := by
  simp [holds, h]

/-- A destination is not held when it is to be. -/
theorem Sound.free {s : Forward ρ} {seen : List Sight} (h : Sound s seen) {d : ℕ}
    {rest : List Mtp3.Action} (hp : s.pending = .holdDestination d :: rest)
    (hr : s.releasing = none) : s.buffers.holds d = false := by
  have hd := h.held d
  rw [hp, heldAfter_cons, holds_of_releasing_none hr] at hd
  by_contra hheld
  rw [Bool.not_eq_false] at hheld
  simp [reheld, hheld, heldAfter_none] at hd

theorem Sound.hold {s : Forward ρ} {seen : List Sight} (h : Sound s seen) {d : ℕ}
    {rest : List Mtp3.Action} (hp : s.pending = .holdDestination d :: rest)
    (hr : s.releasing = none) :
    Sound { s with pending := rest, buffers := s.buffers.holdDestination d } seen := by
  have hfree := h.free hp hr
  refine ⟨h.settled, h.kept.holdDestination hfree, fun e => ?_, ?_, fun e => ?_, h.full, h.stray,
    h.numbered, h.sending, h.fitting⟩
  · have he := h.held e
    rw [hp, heldAfter_cons, holds_of_releasing_none hr] at he
    have hholds : ({ s with
        pending := rest, buffers := s.buffers.holdDestination d } : Forward ρ).holds e =
          (e = d || s.buffers.holds e) := by
      simp [holds, hr]
    rw [hholds]
    by_cases hde : d = e
    · subst hde
      simpa [reheld, hfree] using he
    · simpa [reheld, hde, Ne.symm hde] using he
  · intro e batch he
    rw [hr] at he
    cases he
  · rw [Buffers.bufferOf_holdDestination hfree]
    exact h.once e

/-- A destination is held when it is to be released. -/
theorem Sound.start {s : Forward ρ} {seen : List Sight} (h : Sound s seen) {d : ℕ}
    {rest : List Mtp3.Action} (hp : s.pending = .releaseDestination d :: rest)
    (hr : s.releasing = none) :
    Sound { s with pending := rest, releasing := some (d, []) } seen := by
  have hheld : s.buffers.holds d = true := by
    have hd := h.held d
    rw [hp, heldAfter_cons, holds_of_releasing_none hr] at hd
    by_contra hheld
    rw [Bool.not_eq_true] at hheld
    simp [reheld, hheld, heldAfter_none] at hd
  refine ⟨h.settled, h.kept, fun e => ?_, ?_, fun e => ?_, h.full, h.stray,
    h.numbered, h.sending, h.fitting⟩
  · have he := h.held e
    rw [hp, heldAfter_cons, holds_of_releasing_none hr] at he
    by_cases hde : d = e
    · subst hde
      simpa [reheld, hheld, holds] using he
    · simpa [reheld, hde, holds] using he
  · rintro e batch he
    obtain ⟨rfl, rfl⟩ := Prod.mk.inj (Option.some.inj he)
    exact ⟨hheld, by simp⟩
  · have hbatch : s.batchOf e = [] := by simp [batchOf, hr]
    rw [h.once e, hbatch]
    simp [batchOf]

theorem Sound.pop {s : Forward ρ} {seen : List Sight} (h : Sound s seen) {d : ℕ}
    {msu : Handed} {batch : List Handed} (hr : s.releasing = some (d, msu :: batch)) :
    Sound (s.release router d (msu :: batch)).1
      (seen ++ (s.release router d (msu :: batch)).2) := by
  obtain ⟨hheld, hown⟩ := h.releasing d _ hr
  have hd : msu.msu.dpc = d := hown msu (by simp)
  have hbatch : ∀ e, s.batchOf e = if d = e then msu :: batch else [] := fun e => by
    simp [batchOf, hr]
  refine ⟨h.settled, h.kept, fun e => ?_, ?_, fun e => ?_, ?_, ?_, ?_, fun p hp => ?_, ?_⟩
  · have he := h.held e
    simp only [holds, hr, Option.map_some] at he
    exact he
  · rintro e batch' he
    obtain ⟨rfl, rfl⟩ := Prod.mk.inj (Option.some.inj he)
    exact ⟨hheld, fun m hm => hown m (by simp [hm])⟩
  · have he := h.once e
    rw [hbatch] at he
    by_cases hde : d = e
    · subst hde
      simp only [release, buffered_append, released_append, he]
      simp [buffered, released, batchOf, hd]
    · simp only [release, buffered_append, released_append, he]
      simp [buffered, released, batchOf, hd, hde]
  · simp only [release, refusals, List.countP_append]
    simpa [refusals] using h.full
  · simp only [release, strays, List.countP_append, h.stray]
    cases router.egressFor s.routing msu.msu.dpc msu.msu.sls <;> simp
  · simp only [release, numbers_append, h.numbered]
    simp [numbers]
  · exact List.mem_append_left _ (h.sending p hp)
  · refine h.fitting.concat ⟨batch ++ s.buffers.bufferOf d, ?_⟩
    rw [hd, h.once d, hbatch]
    simp

/-- The release takes what is in the buffer, or finds it empty. -/
theorem Sound.take {s : Forward ρ} {seen : List Sight} (h : Sound s seen) {d : ℕ}
    (hr : s.releasing = some (d, [])) :
    Sound (s.release router d []).1 (seen ++ (s.release router d []).2) := by
  have hheld : s.buffers.holds d = true := (h.releasing d _ hr).1
  have hbatch : ∀ e, s.batchOf e = [] := fun e => by simp [batchOf, hr]
  have hholds : ∀ e, s.holds e = (s.buffers.holds e && e ≠ d) := fun e => by
    simp [holds, hr, eq_comm]
  simp only [release, List.append_nil]
  rcases Buffers.releaseDestination_cases h.kept hheld with
    ⟨hempty, hnone, hkept, hfull, hfree, hbuffer⟩ | htaken
  · simp only [hnone, Option.map_none]
    refine ⟨h.settled, hkept, fun e => ?_, fun e batch he => by simp at he, fun e => ?_,
      hfull.trans h.full, h.stray, h.numbered, h.sending, h.fitting⟩
    · have he := h.held e
      rw [hholds, ← hfree] at he
      simpa [holds] using he
    · rw [h.once e, hbatch, hbuffer]
      simp [batchOf]
  · simp only [htaken, Option.map_some]
    refine ⟨h.settled, h.kept.insert hheld (by simp), fun e => ?_, ?_, fun e => ?_, h.full,
      h.stray, h.numbered, h.sending, h.fitting⟩
    · have he := h.held e
      rw [hholds] at he
      simpa [holds, Buffers.holds_insert hheld, eq_comm] using he
    · rintro e batch he
      obtain ⟨rfl, rfl⟩ := Prod.mk.inj (Option.some.inj he)
      exact ⟨(Buffers.holds_insert hheld [] d).trans hheld, h.kept.own d⟩
    · rw [h.once e, hbatch, Buffers.bufferOf_insert]
      by_cases he : d = e
      · subst he
        simp [batchOf]
      · simp [batchOf, he, Ne.symm he]

theorem Sound.perform {s : Forward ρ} {seen : List Sight} (h : Sound s seen) :
    Sound (s.perform router).1 (seen ++ (s.perform router).2) := by
  unfold Forward.perform
  cases hr : s.releasing with
  | some r =>
    obtain ⟨d, batch⟩ := r
    cases batch with
    | nil => exact h.take hr
    | cons msu batch => exact h.pop hr
  | none =>
    cases hp : s.pending with
    | nil => simpa using h
    | cons a rest =>
      cases a with
      | holdDestination d => simpa [hr] using h.hold hp hr
      | releaseDestination d => simpa using h.start hp hr
      | route d L status =>
        simpa [hr] using h.act hp (fun _ _ => rfl) (router.noteRouteStatus s.routing d L status)
      | _ => simpa [hr] using h.act hp (fun _ _ => rfl) s.routing

theorem Sound.sendVia {s : Forward ρ} {seen : List Sight} (h : Sound s seen)
    (via : Destination) (msu : Msu) :
    Sound (s.sendVia via msu).1 (seen ++ (s.sendVia via msu).2) := by
  have hnumbers : ∀ outcome, numbers (seen ++ [.handed ⟨s.next, msu⟩ outcome]) =
      List.range (s.next + 1) := by
    intro outcome
    rw [numbers_append, h.numbered, List.range_succ]
    rfl
  have hsending : ∀ outcome, ∀ p ∈ s.sending,
      Sight.handed p.2 .passed ∈ seen ++ [.handed ⟨s.next, msu⟩ outcome] :=
    fun _ p hp => List.mem_append_left _ (h.sending p hp)
  unfold Forward.sendVia
  rcases Buffers.holdIfRerouting_cases h.kept ⟨s.next, msu⟩ with
    ⟨hfree, heq⟩ | ⟨hheld, heq⟩ | ⟨hheld, heq⟩
  · simp only [heq, ↓reduceIte]
    refine ⟨h.settled, h.kept, h.held, h.releasing, fun e => ?_, ?_, ?_, hnumbers _, ?_, ?_⟩
    · rw [buffered_append, released_append, h.once e]
      simp [buffered, released, batchOf]
    · simp [h.full, refusals, List.countP_append]
    · simp [h.stray, strays, List.countP_append]
    · intro p hp
      rcases List.mem_append.mp hp with hp | hp
      · exact hsending _ p hp
      · rw [List.mem_singleton.mp hp]
        simp
    · exact h.fitting.concat (h.empty hfree)
  · simp only [heq, reduceCtorEq, ↓reduceIte]
    refine ⟨h.settled, ⟨h.kept.counted, h.kept.own⟩, h.held, h.releasing, fun e => ?_, ?_, ?_,
      hnumbers _, hsending _, h.fitting.concat trivial⟩
    · rw [buffered_append, released_append, h.once e]
      simp [buffered, released, batchOf, Buffers.bufferOf]
    · simp [h.full, refusals, List.countP_append]
    · simp [h.stray, strays, List.countP_append]
  · simp only [heq, reduceCtorEq, ↓reduceIte]
    refine ⟨h.settled, h.kept.insert hheld ?_, fun e => ?_, fun e batch he => ?_, fun e => ?_,
      ?_, ?_, hnumbers _, hsending _, h.fitting.concat trivial⟩
    · intro m hm
      rcases List.mem_append.mp hm with hm | hm
      · exact h.kept.own _ m hm
      · rw [List.mem_singleton.mp hm]
    · have he := h.held e
      simpa [holds, Buffers.holds_insert hheld] using he
    · rw [Buffers.holds_insert hheld]
      exact h.releasing e batch he
    · rw [buffered_append, released_append, h.once e, Buffers.bufferOf_insert]
      by_cases he : msu.dpc = e
      · subst he
        simp [buffered, released, batchOf]
      · simp [buffered, released, batchOf, he, Ne.symm he]
    · simp [h.full, refusals, List.countP_append]
    · simp [h.stray, strays, List.countP_append]

theorem Sound.sendNow {s : Forward ρ} {seen : List Sight} (h : Sound s seen) {i : ℕ}
    {via : Destination} {msu : Handed} (hi : s.sending[i]? = some (via, msu)) :
    Sound { s with sending := s.sending.eraseIdx i } (seen ++ [.left msu via]) := by
  have hmem : (via, msu) ∈ s.sending := List.mem_of_getElem? hi
  refine ⟨h.settled, h.kept, h.held, h.releasing, fun e => ?_, ?_, ?_, ?_, fun p hp => ?_,
    h.fitting.concat (h.sending _ hmem)⟩
  · rw [buffered_append, released_append, h.once e]
    simp [buffered, released, batchOf]
  · simp [h.full, refusals, List.countP_append]
  · simp [h.stray, strays, List.countP_append]
  · rw [numbers_append, h.numbered]
    simp [numbers]
  · exact List.mem_append_left _ (h.sending p (List.mem_of_mem_eraseIdx hp))

theorem Sound.step {s : Forward ρ} {seen : List Sight} (h : Sound s seen) (turn : Turn ρ) :
    Sound (s.step router turn).1 (seen ++ (s.step router turn).2) := by
  cases turn with
  | handle input =>
    simp only [Forward.step]
    split_ifs with hp
    · simpa using h.handle hp.1 input
    · simpa using h
  | perform => exact h.perform
  | sendVia via msu => exact h.sendVia via msu
  | sendNow i =>
    simp only [Forward.step]
    cases hi : s.sending[i]? with
    | none => simpa using h
    | some p => exact h.sendNow hi
  | reroute routing =>
    simpa [Forward.step] using (⟨h.settled, h.kept, h.held, h.releasing, h.once, h.full, h.stray,
      h.numbered, h.sending, h.fitting⟩ : Sound { s with routing := routing } seen)

theorem sound_new (topology : Topology) (timers : Timers) (tfp : Bool) (n : ℕ) (routing : ρ) :
    Sound (new topology timers tfp n routing) [] where
  settled := ⟨_, Management.settled_new topology timers tfp⟩
  kept := Buffers.kept_new n
  held _ := rfl
  releasing _ _ h := by simp [new] at h
  once _ := rfl
  full := rfl
  stray := rfl
  numbered := rfl
  sending _ h := by simp [new] at h
  fitting := by
    intro before x after h
    simp at h

theorem sound_run (router : Router ρ) (topology : Topology) (timers : Timers) (tfp : Bool)
    (n : ℕ) (routing : ρ) (turns : List (Turn ρ)) :
    let s : Forward ρ × List Sight :=
      Machine.run (watching router) (new topology timers tfp n routing, []) turns
    Sound s.1 s.2 :=
  Machine.run_invariant (P := fun s : Forward ρ × List Sight => Sound s.1 s.2)
    (Q := fun _ _ => True)
    (fun _ turn h _ => h.step turn) (sound_new topology timers tfp n routing)
    (Machine.along_trivial _ turns)

/-! ## The order -/

theorem buffered_sublist (d : ℕ) (seen : List Sight) :
    ((buffered d seen).map Handed.number).Sublist (numbers seen) := by
  induction seen with
  | nil => exact List.Sublist.refl _
  | cons x seen ih =>
    cases x with
    | handed msu outcome =>
      have hnumbers : numbers (.handed msu outcome :: seen) = msu.number :: numbers seen := rfl
      rw [hnumbers]
      cases outcome with
      | passed | refused => exact ih.cons _
      | buffered =>
        by_cases hd : msu.msu.dpc = d
        · have hcons : buffered d (.handed msu .buffered :: seen) = msu :: buffered d seen := by
            simp [buffered, hd]
          rw [hcons]
          exact ih.cons_cons _
        · have hskip : buffered d (.handed msu .buffered :: seen) = buffered d seen := by
            simp [buffered, hd]
          rw [hskip]
          exact ih.cons _
    | left | released => exact ih

/-- A message that was buffered is released before a later one for its destination leaves. -/
theorem Sound.in_order {s : Forward ρ} {seen : List Sight} (h : Sound s seen)
    {before after : List Sight} {x : Sight} (hseen : seen = before ++ x :: after)
    {msu msu' : Handed} (hx : x.gone = some msu') (hm : Sight.handed msu .buffered ∈ before)
    (hlt : msu.number < msu'.number) (hd : msu.msu.dpc = msu'.msu.dpc) :
    ∃ via, Sight.released msu via ∈ before := by
  have hsorted : (numbers before).Pairwise (· < ·) := by
    have hall : (numbers seen).Pairwise (· < ·) := by
      rw [h.numbered]
      exact List.pairwise_lt_range
    rw [hseen, numbers_append] at hall
    exact (List.pairwise_append.mp hall).1
  have hfits := h.fitting before x after hseen
  cases x with
  | handed => cases hx
  | left m via =>
    obtain rfl := Option.some.inj hx
    obtain ⟨earlier, later, rfl⟩ := List.append_of_mem hfits
    have hempty := h.fitting earlier (.handed m .passed) (later ++ .left m via :: after)
      (by simpa using hseen)
    have hearlier : Sight.handed msu .buffered ∈ earlier := by
      rcases List.mem_append.mp hm with hm | hm
      · exact hm
      · have hlater : Sight.handed msu .buffered ∈ later := by simpa using hm
        rw [numbers_append] at hsorted
        have hnext := (List.pairwise_append.mp hsorted).2.1
        have hgt := (List.pairwise_cons.mp hnext).1 _ (mem_numbers hlater)
        omega
    have hbuffered : msu ∈ buffered m.msu.dpc earlier := mem_buffered.mpr ⟨hearlier, hd⟩
    rw [hempty] at hbuffered
    obtain ⟨via', hvia⟩ := mem_released hbuffered
    exact ⟨via', List.mem_append_left _ hvia⟩
  | released m via =>
    obtain rfl := Option.some.inj hx
    obtain ⟨rest, hrest⟩ := hfits
    have hbuffered : msu ∈ buffered m.msu.dpc before := mem_buffered.mpr ⟨hm, hd⟩
    have hbelow := hsorted.sublist (buffered_sublist m.msu.dpc before)
    rw [hrest, List.map_append, List.map_cons] at hbelow
    have hnext := (List.pairwise_cons.mp (List.pairwise_append.mp hbelow).2.1).1
    rw [hrest] at hbuffered
    rcases List.mem_append.mp hbuffered with hreleased | htail
    · exact mem_released hreleased
    · rcases List.mem_cons.mp htail with rfl | htail
      · exact absurd hlt (lt_irrefl _)
      · have hgt := hnext _ (List.mem_map_of_mem htail)
        omega

/-- What is released goes out by the routing as it is then. -/
theorem released_by_routing (s : Forward ρ) (turn : Turn ρ) {msu : Handed}
    {via : Option Destination} (h : Sight.released msu via ∈ (s.step router turn).2) :
    via = router.egressFor s.routing msu.msu.dpc msu.msu.sls := by
  cases turn with
  | handle input =>
    simp only [Forward.step] at h
    split_ifs at h <;> simp at h
  | perform =>
    simp only [Forward.step, Forward.perform] at h
    cases hr : s.releasing with
    | some r =>
      obtain ⟨d, batch⟩ := r
      rw [hr] at h
      cases batch with
      | nil => simp [release] at h
      | cons m batch =>
        simp only [release, List.mem_singleton, Sight.released.injEq] at h
        rw [h.2, h.1]
    | none =>
      rw [hr] at h
      cases hp : s.pending with
      | nil => simp [hp] at h
      | cons a rest => cases a <;> simp [hp] at h
  | sendVia via' m => simp [Forward.step, Forward.sendVia] at h
  | sendNow i =>
    simp only [Forward.step] at h
    split at h <;> simp at h
  | reroute routing => simp [Forward.step] at h

/-- Whatever is handed in while destinations are held and released: what was buffered leaves
once, in order and before what comes later, or is in the buffer of a destination that is held;
what was not is counted. -/
theorem rerouted_in_order (router : Router ρ) (topology : Topology) (timers : Timers)
    (tfp : Bool) (reroutingBuffer : ℕ) (routing : ρ) (turns : List (Turn ρ)) :
    let s : Forward ρ × List Sight := Machine.run (watching router)
      (new topology timers tfp reroutingBuffer routing, []) turns
    numbers s.2 = List.range s.1.next ∧
    (∀ d, buffered d s.2 = released d s.2 ++ s.1.batchOf d ++ s.1.buffers.bufferOf d) ∧
    (∀ turn msu via, Sight.released msu via ∈ (s.1.step router turn).2 →
      via = router.egressFor s.1.routing msu.msu.dpc msu.msu.sls) ∧
    s.1.noRoute = strays s.2 ∧ s.1.buffers.bufferFull = refusals s.2 ∧
    (∀ d rest, s.1.pending = .holdDestination d :: rest → s.1.releasing = none →
      s.1.buffers.holds d = false) ∧
    (∀ d ∈ s.1.machine.topology.dpcs, (s.1.machine.destinations d).holding = true →
      ∀ input, (input = .timeout (.rerouting d) ∨ s.1.machine.prohibits input d) →
        Mtp3.Action.releaseDestination d ∈ (s.1.machine.handle input).2 ∧
        ((s.1.machine.handle input).1.destinations d).holding = false) ∧
    (s.1.pending = [] → s.1.releasing = none → ∀ d,
      s.1.buffers.holds d = (s.1.machine.destinations d).holding ∧
      (s.1.buffers.holds d = false → buffered d s.2 = released d s.2)) ∧
    s.1.buffers.holding = s.1.buffers.held.size ∧
    (∀ before x after msu msu', s.2 = before ++ x :: after → x.gone = some msu' →
      Sight.handed msu .buffered ∈ before → msu.number < msu'.number →
      msu.msu.dpc = msu'.msu.dpc → ∃ via, Sight.released msu via ∈ before) := by
  intro s
  have h : Sound s.1 s.2 :=
    sound_run router topology timers tfp reroutingBuffer routing turns
  refine ⟨h.numbered, h.once, fun turn msu via => released_by_routing s.1 turn, h.stray, h.full,
    fun d rest => h.free, fun d hd hh input hi => ?_, fun hp hr d => ⟨?_, h.empty⟩,
    h.kept.counted, fun _ _ _ _ _ he hx => h.in_order he hx⟩
  · rcases hi with rfl | hi
    · exact Management.timeout_releases hd hh
    · exact Management.prohibition_releases hi hh
  · have hd := h.held d
    rw [hp, holds_of_releasing_none hr] at hd
    exact Option.some.inj hd

/-- An input and what management does about it. -/
def through (input : Mtp3.Input) : List (Turn ρ) := .handle input :: List.replicate 20 .perform

/-- A router with one way out. -/
def oneWay : Router Unit := ⟨fun _ _ _ => some (.linkset "a"), fun routing _ _ _ => routing⟩

/-- The traffic of a point behind two others is held, as one of them restricts it. -/
def restriction : List (Turn Unit) :=
  [.linkUp 0, .linkUp 1, .timeout .restart, .received 0 100 0 (.tfr 300)].flatMap through

/-- A message that was buffered goes out when T6 has run out. -/
theorem rerouted_in_order_of_restriction :
    let s : Forward Unit × List Sight := Machine.run (watching oneWay)
      (new Management.forkTopology Management.unitTimers false 2 (), [])
      (restriction ++ .sendVia (.linkset "a") ⟨1, 300, 3, 0, 0, 0, []⟩ ::
        through (.timeout (.rerouting 300)))
    buffered 300 s.2 = released 300 s.2 :=
  ((rerouted_in_order oneWay Management.forkTopology Management.unitTimers false 2 ()
    (restriction ++ .sendVia (.linkset "a") ⟨1, 300, 3, 0, 0, 0, []⟩ ::
      through (.timeout (.rerouting 300)))).2.2.2.2.2.2.2.1 (by decide +kernel)
        (by decide +kernel) 300).2 (by decide +kernel)

/-- A point behind three others. -/
def tripleTopology : Topology where
  ownPc := 1
  linksets := [⟨some 100, [0]⟩, ⟨some 200, [1]⟩, ⟨some 210, [2]⟩]
  links := [⟨0, 0⟩, ⟨1, 0⟩, ⟨2, 0⟩]
  servers := 0
  routes := [(100, [⟨.linkset 0, 0⟩]), (200, [⟨.linkset 1, 0⟩]), (210, [⟨.linkset 2, 0⟩]),
    (300, [⟨.linkset 0, 0⟩, ⟨.linkset 1, 0⟩, ⟨.linkset 2, 0⟩])]
  member := by decide
  owner := by decide
  nodup := by decide
  codes := by decide
  destinations := by decide
  itu := by decide

/-- Two tasks hand in a message after a destination was held, and the later one is the first
to send; and a repeated prohibition releases nothing. -/
theorem overtaken_after_release :
    (¬ ∀ (router : Router Unit) (topology : Topology) (timers : Timers) (tfp : Bool) (n : ℕ)
      (turns turns' : List (Turn Unit)) (d : ℕ),
      let start : Forward Unit × List Sight := (new topology timers tfp n (), [])
      let s := Machine.run (watching router) start turns
      s.1.buffers.holds d = true → ∀ before x after msu msu' outcome,
        (Machine.run (watching router) start (turns ++ turns')).2 = s.2 ++ before ++ x :: after →
        x.gone = some msu' → Sight.handed msu outcome ∈ before → outcome ≠ .refused →
        msu.number < msu'.number → msu.msu.dpc = d → msu'.msu.dpc = d →
        ∃ y ∈ before, y.gone = some msu) ∧
    ¬ ∀ (topology : Topology) (timers : Timers) (tfp : Bool) (is : List Mtp3.Input)
      (l opc slc L d : ℕ),
      let m := Machine.run (fun m i => (m.handle i).1) (Management.new topology timers tfp) is
      (m.destinations d).holding = true → m.linksetFrom opc l = some L →
      (∃ r ∈ (m.destinations d).routes, r.via = .linkset L) →
      Mtp3.Action.releaseDestination d ∈ (m.handle (.received l opc slc (.tfp d))).2 := by
  constructor
  · intro h
    have hleft := h oneWay Management.forkTopology Management.unitTimers false 2 restriction
      (through (.timeout (.rerouting 300)) ++
        [.sendVia (.linkset "a") ⟨1, 300, 3, 0, 0, 0, []⟩,
          .sendVia (.linkset "a") ⟨1, 300, 3, 0, 0, 1, []⟩, .sendNow 1]) 300
      (by decide +kernel)
      [.handed ⟨0, ⟨1, 300, 3, 0, 0, 0, []⟩⟩ .passed, .handed ⟨1, ⟨1, 300, 3, 0, 0, 1, []⟩⟩ .passed]
      (.left ⟨1, ⟨1, 300, 3, 0, 0, 1, []⟩⟩ (.linkset "a")) [] ⟨0, ⟨1, 300, 3, 0, 0, 0, []⟩⟩
      ⟨1, ⟨1, 300, 3, 0, 0, 1, []⟩⟩ .passed (by decide +kernel) rfl (by simp) (by simp) (by simp)
      rfl rfl
    simp [Sight.gone] at hleft
  · intro h
    have hreleased := h tripleTopology Management.unitTimers false
      [.linkUp 0, .linkUp 1, .linkUp 2, .timeout .restart, .received 2 210 0 (.tfp 300),
        .received 0 100 0 (.tfr 300)] 2 210 0 2 300 (by decide +kernel) (by decide +kernel)
      (by decide +kernel)
    exact absurd hreleased (by decide +kernel)

end Forward

end SiphonSigtran.Transport
