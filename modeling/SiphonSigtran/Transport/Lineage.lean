import SiphonSigtran.Transport.Answers

/-!
# Where messages come from

New on the transfer path are the message that comes in, as it leaves, and the answer to it. All
other steps move messages from one place to another, or lose them. What is held or on its way at any
time descends from one that came in.
-/

namespace SiphonSigtran.Transport.Relay

open Lib Routing

variable {fits : Variant → ℕ → Bool} {n : Network} {users : Users} {tenant : String} {s : Relay}
  {R : Handed → Prop} {msu : Handed}

/-- Every message that is on its way, waits somewhere or is on a link. -/
structure Everywhere (R : Handed → Prop) (s : Relay) : Prop where
  busy : ∀ g ∈ s.busy, R g.msu
  pending : ∀ t, ∀ m ∈ s.pending t, R m
  buffered : ∀ d, ∀ m ∈ s.buffers.bufferOf d, R m
  released : ∀ m ∈ s.released, R m
  onLinks : ∀ p ∈ s.onLinks, R p.2

namespace Everywhere

theorem mono {R' : Handed → Prop} (hR : ∀ m, R m → R' m) (h : Everywhere R s) :
    Everywhere R' s where
  busy g hg := hR _ (h.busy g hg)
  pending t m hm := hR m (h.pending t m hm)
  buffered d m hm := hR m (h.buffered d m hm)
  released m hm := hR m (h.released m hm)
  onLinks p hp := hR _ (h.onLinks p hp)

theorem of_new (router : Routing.Router) (k : ℕ) : Everywhere R (new router k) := by
  constructor <;> simp [new, Buffers.new, Buffers.bufferOf]

theorem forward (h : Everywhere R s) (hm : R msu) (via : Destination) (mayHold : Bool) :
    Everywhere R (s.forward via msu mayHold) := by
  refine ⟨fun g hg => ?_, h.pending, h.buffered, h.released, h.onLinks⟩
  rcases List.mem_append.mp hg with hg | hg
  · exact h.busy g hg
  · rw [List.mem_singleton.mp hg]
    exact hm

theorem sendOnLink (h : Everywhere R s) (hm : R msu) (via : Destination) (link : String) :
    Everywhere R (s.sendOnLink via link msu).1 := by
  unfold Relay.sendOnLink
  split_ifs
  · exact h
  · refine ⟨h.busy, h.pending, h.buffered, h.released, fun p hp => ?_⟩
    rcases List.mem_append.mp hp with hp | hp
    · exact h.onLinks p hp
    · rw [List.mem_singleton.mp hp]
      exact hm

theorem queueIfPending (h : Everywhere R s) (hm : R msu) (t : String) :
    Everywhere R (s.queueIfPending n t msu) := by
  unfold Relay.queueIfPending
  split_ifs
  · exact h
  · refine ⟨h.busy, fun u m hu => ?_, h.buffered, h.released, h.onLinks⟩
    by_cases hut : u = t
    · subst hut
      simp only [Function.update_self] at hu
      rcases List.mem_append.mp hu with hu | hu
      · exact h.pending u m hu
      · rw [List.mem_singleton.mp hu]
        exact hm
    · simp only [Function.update_of_ne hut] at hu
      exact h.pending u m hu

theorem sendNow (h : Everywhere R s) (hm : R msu) (via : Destination) :
    Everywhere R (s.sendNow n users via msu).1 := by
  cases via with
  | linkset t =>
    simp only [Relay.sendNow]
    cases s.selectLinkAvoiding n t msu.msu.sls none with
    | none => exact h
    | some link => exact h.sendOnLink hm _ link
  | applicationServer t =>
    simp only [Relay.sendNow]
    split_ifs
    · exact h
    · exact h.queueIfPending hm t
    · exact h

theorem hold (h : Everywhere R s) (hm : R msu) :
    Everywhere R { s with buffers := (s.buffers.holdIfRerouting msu).2 } := by
  refine ⟨h.busy, h.pending, fun d m hd => ?_, h.released, h.onLinks⟩
  rcases Buffers.mem_bufferOf_holdIfRerouting hd with rfl | hd
  · exact hm
  · exact h.buffered d m hd

theorem send (h : Everywhere R s) {g : Going} (hg : R g.msu) :
    Everywhere R (s.send n users g).1 := by
  unfold Relay.send
  split_ifs
  · dsimp only
    split_ifs
    · exact h.hold hg
    · exact (h.hold hg).sendNow hg g.via
  · exact h.sendNow hg g.via

theorem reroute (h : Everywhere R s) (hm : R msu) (link : String) :
    Everywhere R (s.reroute fits n tenant link msu).1 := by
  unfold Relay.reroute
  cases s.reroutedTo fits n tenant link msu.msu with
  | none => exact h
  | some place =>
    obtain ⟨via, slot⟩ := place
    cases slot with
    | none => exact h.forward hm via true
    | some slot =>
      dsimp only
      split_ifs
      · exact h.hold hm
      · exact (h.hold hm).sendOnLink hm via slot

theorem setServerState (h : Everywhere R s) (t : String) (state : AsState) :
    Everywhere R (s.setServerState t state) := by
  have hleft : ∀ u, ∀ m ∈ Function.update s.pending t [] u, R m := by
    intro u m hm
    by_cases hu : u = t
    · subst hu
      rw [Function.update_self] at hm
      exact absurd hm List.not_mem_nil
    · rw [Function.update_of_ne hu] at hm
      exact h.pending u m hm
  unfold Relay.setServerState
  dsimp only
  split_ifs
  · exact ⟨h.busy, h.pending, h.buffered, h.released, h.onLinks⟩
  · refine ⟨fun g hg => ?_, hleft, h.buffered, h.released, h.onLinks⟩
    rcases List.mem_append.mp hg with hg | hg
    · exact h.busy g hg
    · obtain ⟨m, hm, rfl⟩ := List.mem_map.mp hg
      exact h.pending t m hm
  · exact ⟨h.busy, hleft, h.buffered, h.released, h.onLinks⟩

theorem release (h : Everywhere R s) (dpc : ℕ) : Everywhere R (s.release dpc) := by
  refine ⟨h.busy, h.pending, fun d m hm => ?_, fun m hm => ?_, h.onLinks⟩
  · exact h.buffered d m (Buffers.mem_bufferOf_releaseDestination hm)
  · rcases List.mem_append.mp hm with hm | hm
    · exact h.released m hm
    · exact h.buffered dpc m (Buffers.mem_of_releaseDestination hm)

theorem releaseNext (h : Everywhere R s) : Everywhere R (s.releaseNext fits tenant) := by
  unfold Relay.releaseNext
  cases hreleased : s.released with
  | nil => exact h
  | cons m rest =>
    have hm : R m := h.released m (by simp [hreleased])
    have hrest : Everywhere R { s with released := rest } :=
      ⟨h.busy, h.pending, h.buffered, fun m' hm' => h.released m' (by simp [hreleased, hm']),
        h.onLinks⟩
    dsimp only
    cases Relay.egress fits tenant { s with released := rest } m.msu none with
    | none => exact hrest
    | some via => exact hrest.forward hm via false

/-- A step at which no message comes in adds none. -/
theorem step (h : Everywhere R s) {turn : Turn} (hturn : ∀ origin msu, turn ≠ .arrive origin msu) :
    Everywhere R (s.step fits n users tenant turn).1 := by
  cases turn with
  | arrive origin msu => exact absurd rfl (hturn origin msu)
  | send i =>
    simp only [Relay.step]
    cases hi : s.busy[i]? with
    | none => exact h
    | some g =>
      have hrest : Everywhere R { s with busy := s.busy.eraseIdx i } :=
        ⟨fun g hg => h.busy g (List.mem_of_mem_eraseIdx hg), h.pending, h.buffered, h.released,
          h.onLinks⟩
      exact hrest.send (h.busy g (List.mem_of_getElem? hi))
  | change around => exact ⟨h.busy, h.pending, h.buffered, h.released, h.onLinks⟩
  | serverState t state => exact h.setServerState t state
  | holdDestination dpc =>
    exact ⟨h.busy, h.pending,
      fun d m hm => h.buffered d m (Buffers.mem_bufferOf_holdDestination hm), h.released,
      h.onLinks⟩
  | releaseDestination dpc => exact h.release dpc
  | releaseNext => exact h.releaseNext
  | reroute i =>
    simp only [Relay.step]
    cases hi : s.onLinks[i]? with
    | none => exact h
    | some p =>
      have hrest : Everywhere R { s with onLinks := s.onLinks.eraseIdx i } :=
        ⟨h.busy, h.pending, h.buffered, h.released,
          fun p hp => h.onLinks p (List.mem_of_mem_eraseIdx hp)⟩
      exact hrest.reroute (h.onLinks p (List.mem_of_getElem? hi)) p.1

end Everywhere

/-! ## Numbers and the router -/

/-- No message is numbered, and the router stays. -/
def Quiet (s s' : Relay) : Prop := s'.origins = s.origins ∧ s'.router = s.router

@[simp] theorem origins_forward (via : Destination) (mayHold : Bool) :
    (s.forward via msu mayHold).origins = s.origins := rfl

theorem quiet_sendOnLink (via : Destination) (link : String) :
    Quiet s (s.sendOnLink via link msu).1 := by
  unfold Relay.sendOnLink
  split_ifs <;> exact ⟨rfl, rfl⟩

theorem quiet_sendNow (via : Destination) : Quiet s (s.sendNow n users via msu).1 := by
  cases via with
  | linkset t =>
    simp only [sendNow]
    cases s.selectLinkAvoiding n t msu.msu.sls none with
    | none => exact ⟨rfl, rfl⟩
    | some link => exact quiet_sendOnLink _ link
  | applicationServer t =>
    simp only [sendNow, queueIfPending]
    split_ifs <;> exact ⟨rfl, rfl⟩

theorem quiet_send (going : Going) : Quiet s (s.send n users going).1 := by
  unfold send
  split_ifs
  · dsimp only
    split_ifs
    · exact ⟨rfl, rfl⟩
    · exact quiet_sendNow (s := { s with buffers := (s.buffers.holdIfRerouting going.msu).2 })
        going.via
  · exact quiet_sendNow going.via

theorem quiet_releaseNext : Quiet s (s.releaseNext fits tenant) := by
  unfold releaseNext
  cases s.released with
  | nil => exact ⟨rfl, rfl⟩
  | cons m rest =>
    dsimp only
    cases egress fits tenant { s with released := rest } m.msu none <;> exact ⟨rfl, rfl⟩

theorem quiet_reroute (link : String) : Quiet s (s.reroute fits n tenant link msu).1 := by
  unfold reroute
  cases s.reroutedTo fits n tenant link msu.msu with
  | none => exact ⟨rfl, rfl⟩
  | some place =>
    obtain ⟨via, slot⟩ := place
    cases slot with
    | none => exact ⟨rfl, rfl⟩
    | some slot =>
      dsimp only
      split_ifs
      · exact ⟨rfl, rfl⟩
      · exact quiet_sendOnLink (s := { s with buffers := (s.buffers.holdIfRerouting msu).2 })
          via slot

/-- A step at which no message comes in numbers none, and changes of the router only what it knows
of the routes. -/
theorem kept_step {turn : Turn} (hturn : ∀ origin msu, turn ≠ .arrive origin msu) :
    (s.step fits n users tenant turn).1.origins = s.origins ∧
      ((s.step fits n users tenant turn).1.router = s.router ∨
        ∃ states : String → RouteState, (s.step fits n users tenant turn).1.router =
          s.router.mapValues fun id rt => { rt with routeState := states id }) := by
  have hquiet : Quiet s (s.step fits n users tenant turn).1 →
      (s.step fits n users tenant turn).1.origins = s.origins ∧
      ((s.step fits n users tenant turn).1.router = s.router ∨
        ∃ states : String → RouteState, (s.step fits n users tenant turn).1.router =
          s.router.mapValues fun id rt => { rt with routeState := states id }) :=
    fun h => ⟨h.1, Or.inl h.2⟩
  cases turn with
  | arrive origin msu => exact absurd rfl (hturn origin msu)
  | send i =>
    apply hquiet
    simp only [step]
    cases s.busy[i]? with
    | none => exact ⟨rfl, rfl⟩
    | some g => exact quiet_send (s := { s with busy := s.busy.eraseIdx i }) g
  | change around => exact ⟨rfl, Or.inr ⟨around.states, rfl⟩⟩
  | serverState t state =>
    apply hquiet
    simp only [step, setServerState]
    split_ifs <;> exact ⟨rfl, rfl⟩
  | holdDestination dpc => exact ⟨rfl, Or.inl rfl⟩
  | releaseDestination dpc => exact ⟨rfl, Or.inl rfl⟩
  | releaseNext => exact hquiet quiet_releaseNext
  | reroute i =>
    apply hquiet
    simp only [step]
    cases s.onLinks[i]? with
    | none => exact ⟨rfl, rfl⟩
    | some p => exact quiet_reroute (s := { s with onLinks := s.onLinks.eraseIdx i }) p.1

/-! ## What is new -/

/-- How a message leaves by a decision. -/
inductive Leaves (users : Users) (msu : Handed) : RouteDecision → Msu → Prop
  | transferred (via : Destination) (hscreened : ¬ (msu.msu.si = siIsup ∧ users.screened msu.msu))
      (hadmitted : users.refused msu = none) : Leaves users msu (.route via) msu.msu
  | translated (via : Destination) (dpc ssn : ℕ) (gt : Option Digits) (payload : List UInt8)
      (hadmitted : users.refused msu = none) (hhop : users.hop msu.msu = .ok payload) :
      Leaves users msu (.routeTo dpc ssn (some via) gt)
        { msu.msu with
          dpc := dpc
          payload := match gt with
            | none => payload
            | some gt => (users.rewritten payload gt).getD payload }

/-- What carrying out a decision comes to. -/
inductive Fate (users : Users) (src : Option Destination) (msu : Handed) (d : RouteDecision)
    (s : Relay) : Relay → Prop
  | stops : Fate users src msu d s s
  | leaves (via : Destination) (b : Msu) (hb : Leaves users msu d b) :
      Fate users src msu d s (s.forward via ⟨msu.number, b⟩ true)
  | answered (dest : Destination) (ret : Msu) (hret : returnOf users src msu d = some ret) :
      Fate users src msu d s (s.answer (some dest) (some ret))

theorem fate_answer {src : Option Destination} {d : RouteDecision} {ret : Option Msu}
    (hret : ∀ ret', ret = some ret' → returnOf users src msu d = some ret') :
    Fate users src msu d s (s.answer src ret) := by
  cases src with
  | none => exact .stops
  | some dest =>
    cases ret with
    | none => exact .stops
    | some ret => exact .answered dest ret (hret ret rfl)

theorem fate_carryOut (src : Option Destination) (d : RouteDecision) :
    Fate users src msu d s (s.carryOut users src msu d) := by
  cases d with
  | local_ => exact .stops
  | drop reason => exact fate_answer fun ret hret => hret
  | crossTenant t dpc ssn conversion => exact fate_answer fun ret hret => hret
  | route via =>
    rw [carryOut]
    split_ifs with hscreened hreflection
    · exact .stops
    · exact .stops
    · unfold admission
      cases hrefused : users.refused msu with
      | none => exact .leaves via msu.msu (.transferred via hscreened hrefused)
      | some reply =>
        apply fate_answer
        intro ret hret
        rw [returnOf, if_neg hscreened, if_neg hreflection, hrefused, hret]
        rfl
  | routeTo dpc ssn via gt =>
    cases via with
    | none => exact fate_answer fun ret hret => hret
    | some via =>
      rw [carryOut]
      split_ifs with hreflection
      · exact .stops
      · unfold admission
        cases hrefused : users.refused msu with
        | some reply =>
          apply fate_answer
          intro ret hret
          rw [returnOf, if_neg hreflection, hrefused]
          exact hret
        | none =>
          dsimp only
          unfold relayTo
          cases hhop : users.hop msu.msu with
          | ok payload => exact .leaves via _ (.translated via dpc ssn gt payload hrefused hhop)
          | error violation =>
            apply fate_answer
            intro ret hret
            rw [returnOf, if_neg hreflection, hrefused, hhop]
            exact hret

/-- A message that comes in adds itself, as it leaves, or the answer to it. -/
theorem Everywhere.dispatch (h : Everywhere R s) {origin : Origin} {a : Msu}
    (hleaves : ∀ d b, (s.decision fits users tenant a).1 = some d →
      Leaves users ⟨s.origins.length, a⟩ d b → R ⟨s.origins.length, b⟩)
    (hanswers : ∀ d src ret, (s.decision fits users tenant a).1 = some d →
      returnOf users src ⟨s.origins.length, a⟩ d = some ret → R ⟨s.origins.length + 1, ret⟩) :
    Everywhere R (s.dispatch fits n users tenant origin a) := by
  unfold Relay.dispatch
  dsimp only
  cases hdecision : s.decision fits users tenant a with
  | mk d router =>
    rw [hdecision] at hleaves hanswers
    dsimp only at hleaves hanswers ⊢
    have hold : Everywhere R { s with origins := s.origins ++ [some origin], router := router } :=
      ⟨h.busy, h.pending, h.buffered, h.released, h.onLinks⟩
    cases d with
    | none => exact hold
    | some d =>
      dsimp only
      have hfate : ∀ s₀ : Relay, Fate users (n.inboundDestination origin.assoc)
          ⟨s.origins.length, a⟩ d s₀ (s₀.carryOut users _ ⟨s.origins.length, a⟩ d) :=
        fun s₀ => fate_carryOut _ d
      replace hfate := hfate { s with origins := s.origins ++ [some origin], router := router }
      generalize carryOut users _ (n.inboundDestination origin.assoc) _ d = s' at hfate ⊢
      cases hfate with
      | stops => exact hold
      | leaves via b hb => exact hold.forward (hleaves d b rfl hb) via true
      | answered dest ret hret =>
        have hforward := hold.forward (hanswers d _ ret rfl hret) dest true
        simp only [answer, List.length_append, List.length_singleton]
        exact ⟨hforward.busy, hforward.pending, hforward.buffered, hforward.released,
          hforward.onLinks⟩

theorem Fate.router {src : Option Destination} {d : RouteDecision} {s' : Relay}
    (h : Fate users src msu d s s') : s'.router = s.router := by
  cases h <;> rfl

/-- The router after a message came in is the one after the decision on it. -/
theorem router_dispatch (origin : Origin) (a : Msu) :
    (s.dispatch fits n users tenant origin a).router = (s.decision fits users tenant a).2 := by
  unfold Relay.dispatch
  dsimp only
  cases s.decision fits users tenant a with
  | mk d router =>
    cases d with
    | none => rfl
    | some d => exact (fate_carryOut (n.inboundDestination origin.assoc) d).router

/-! ## Every run -/

/-- A message descends from one that came in: as it leaves, or as the answer to it. `asked` has the
message that came in with a number and, with the number of an answer, the one that it answers. -/
def Descends (P Q : Msu → Handed → Prop) (origins : List (Option Origin)) (asked : List Msu)
    (m : Handed) : Prop :=
  ∃ a origin, asked[m.number]? = some a ∧ origins[m.number]? = some origin ∧
    match origin with
    | some _ => P a m
    | none => Q a m

/-- Everything on the path descends from what came in. -/
structure Traced (P Q : Msu → Handed → Prop) (s : Relay) (asked : List Msu) : Prop where
  numbered : asked.length = s.origins.length
  descends : Everywhere (Descends P Q s.origins asked) s

/-- The messages that a step numbers, each by the one that comes in. -/
def askedAt (s s' : Relay) : Turn → List Msu
  | .arrive _ msu => List.replicate (s'.origins.length - s.origins.length) msu
  | _ => []

variable {P Q : Msu → Handed → Prop} {asked : List Msu}

theorem Descends.append {origins : List (Option Origin)} {m : Handed}
    (h : Descends P Q origins asked m) (moreOrigins : List (Option Origin)) (more : List Msu) :
    Descends P Q (origins ++ moreOrigins) (asked ++ more) m := by
  obtain ⟨a, origin, ha, ho, hm⟩ := h
  refine ⟨a, origin, ?_, ?_, hm⟩
  · rw [List.getElem?_append_left (List.getElem?_eq_some_iff.mp ha).1, ha]
  · rw [List.getElem?_append_left (List.getElem?_eq_some_iff.mp ho).1, ho]

theorem traced_new (router : Routing.Router) (k : ℕ) : Traced P Q (new router k) [] :=
  ⟨rfl, .of_new router k⟩

/-- A message that comes in is traced, with its answer. -/
theorem Traced.dispatch (h : Traced P Q s asked) {origin : Origin} {a : Msu}
    (hP : ∀ d b, (s.decision fits users tenant a).1 = some d →
      Leaves users ⟨s.origins.length, a⟩ d b → P a ⟨s.origins.length, b⟩)
    (hQ : ∀ d src ret, (s.decision fits users tenant a).1 = some d →
      returnOf users src ⟨s.origins.length, a⟩ d = some ret → Q a ⟨s.origins.length + 1, ret⟩) :
    Traced P Q (s.dispatch fits n users tenant origin a)
      (asked ++ List.replicate
        ((s.dispatch fits n users tenant origin a).origins.length - s.origins.length) a) := by
  have hone : ∀ router, Traced P Q
      { s with origins := s.origins ++ [some origin], router := router } (asked ++ [a]) := by
    intro router
    refine ⟨by simp [h.numbered], ?_⟩
    have hold := h.descends.mono fun m hm => hm.append [some origin] [a]
    exact ⟨hold.busy, hold.pending, hold.buffered, hold.released, hold.onLinks⟩
  unfold Relay.dispatch
  dsimp only
  cases hdecision : s.decision fits users tenant a with
  | mk d router =>
    rw [hdecision] at hP hQ
    dsimp only at hP hQ ⊢
    cases d with
    | none => simpa using hone router
    | some d =>
      dsimp only
      have hfate : ∀ s₀ : Relay, Fate users (n.inboundDestination origin.assoc)
          ⟨s.origins.length, a⟩ d s₀ (s₀.carryOut users _ ⟨s.origins.length, a⟩ d) :=
        fun s₀ => fate_carryOut _ d
      replace hfate := hfate { s with origins := s.origins ++ [some origin], router := router }
      generalize carryOut users _ (n.inboundDestination origin.assoc) _ d = s' at hfate ⊢
      cases hfate with
      | stops => simpa using hone router
      | leaves via b hb =>
        have hdescends : Descends P Q (s.origins ++ [some origin]) (asked ++ [a])
            ⟨s.origins.length, b⟩ := by
          refine ⟨a, some origin, ?_, ?_, hP d b rfl hb⟩
          · rw [← h.numbered]
            exact List.getElem?_concat_length
          · exact List.getElem?_concat_length
        have hforward := (hone router).descends.forward hdescends via true
        exact ⟨by simp [h.numbered], by simpa using hforward⟩
      | answered dest ret hret =>
        have hanswers : (asked ++ [a]) ++ [a] = asked ++ List.replicate 2 a := by simp
        have hdescends : Descends P Q ((s.origins ++ [some origin]) ++ [none])
            ((asked ++ [a]) ++ [a]) ⟨s.origins.length + 1, ret⟩ := by
          refine ⟨a, none, ?_, ?_, hQ d _ ret rfl hret⟩
          · have hlength : s.origins.length + 1 = (asked ++ [a]).length := by simp [h.numbered]
            rw [hlength]
            exact List.getElem?_concat_length
          · have hlength : s.origins.length + 1 = (s.origins ++ [some origin]).length := by simp
            rw [hlength]
            exact List.getElem?_concat_length
        have hold := (hone router).descends.mono fun m hm => hm.append [none] [a]
        have hforward := hold.forward hdescends dest true
        refine ⟨by simp [answer, h.numbered], ?_⟩
        have hcount : (s.origins ++ [some origin] ++ [none]).length - s.origins.length = 2 := by
          simp
        have hsame : (answer { s with origins := s.origins ++ [some origin], router := router }
            (some dest) (some ret)).origins = s.origins ++ [some origin] ++ [none] := rfl
        rw [hsame, hcount, ← hanswers]
        simp only [answer, List.length_append, List.length_singleton]
        exact ⟨hforward.busy, hforward.pending, hforward.buffered, hforward.released,
          hforward.onLinks⟩

/-- What comes in is all that a step has to be looked at for. -/
theorem Traced.step (h : Traced P Q s asked) (turn : Turn)
    (hP : ∀ origin a d b, turn = .arrive origin a →
      (s.decision fits users tenant a).1 = some d → Leaves users ⟨s.origins.length, a⟩ d b →
        P a ⟨s.origins.length, b⟩)
    (hQ : ∀ origin a d src ret, turn = .arrive origin a →
      (s.decision fits users tenant a).1 = some d →
        returnOf users src ⟨s.origins.length, a⟩ d = some ret →
          Q a ⟨s.origins.length + 1, ret⟩) :
    Traced P Q (s.step fits n users tenant turn).1
      (asked ++ askedAt s (s.step fits n users tenant turn).1 turn) := by
  by_cases harrive : ∃ origin a, turn = .arrive origin a
  · obtain ⟨origin, a, rfl⟩ := harrive
    simp only [Relay.step]
    split_ifs
    · exact h.dispatch (fun d b => hP origin a d b rfl)
        fun d src ret => hQ origin a d src ret rfl
    · simpa [askedAt] using h
  · have hturn : ∀ origin a, turn ≠ .arrive origin a := fun origin a heq => harrive ⟨origin, a, heq⟩
    have hnone : askedAt s (s.step fits n users tenant turn).1 turn = [] := by
      cases turn with
      | arrive origin a => exact absurd rfl (hturn origin a)
      | _ => rfl
    have hsame : (s.step fits n users tenant turn).1.origins = s.origins := (kept_step hturn).1
    rw [hnone, List.append_nil]
    refine ⟨?_, ?_⟩
    · rw [hsame]
      exact h.numbered
    · rw [hsame]
      exact h.descends.step hturn

end SiphonSigtran.Transport.Relay
