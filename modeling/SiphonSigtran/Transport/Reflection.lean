import SiphonSigtran.Transport.Relay

/-!
# Messages that go back

The guard against route reflection knows one destination of an association, and
looks when a message comes in. A message stays clear of its association where
routing never gives another destination of that association, and none at all
when it is routed again.
-/

namespace SiphonSigtran.Transport

open Lib Routing

namespace Buffers

variable {b : Buffers} {msu m : Handed} {d e : ℕ}

theorem mem_bufferOf_holdIfRerouting (h : m ∈ (b.holdIfRerouting msu).2.bufferOf d) :
    m = msu ∨ m ∈ b.bufferOf d := by
  unfold holdIfRerouting at h
  split_ifs at h with hz
  · exact Or.inr h
  · cases hl : b.held.lookup msu.msu.dpc with
    | none =>
      rw [hl] at h
      exact Or.inr h
    | some buffer =>
      rw [hl] at h
      dsimp only at h
      split_ifs at h
      · exact Or.inr h
      · rw [bufferOf_insert] at h
        split_ifs at h with hd
        · subst hd
          rcases List.mem_append.mp h with h | h
          · right
            simpa [bufferOf, hl] using h
          · exact Or.inl (List.mem_singleton.mp h)
        · exact Or.inr h

theorem mem_bufferOf_holdDestination (h : m ∈ (b.holdDestination e).bufferOf d) :
    m ∈ b.bufferOf d := by
  by_cases hd : d = e
  · subst hd
    simp [holdDestination, bufferOf] at h
  · simpa [holdDestination, bufferOf, AList.lookup_insert_ne hd] using h

theorem mem_bufferOf_releaseDestination (h : m ∈ (b.releaseDestination e).2.bufferOf d) :
    m ∈ b.bufferOf d := by
  unfold releaseDestination at h
  split at h
  · exact h
  · by_cases hd : d = e
    · subst hd
      simp [bufferOf] at h
    · simpa [bufferOf, AList.lookup_erase_ne hd] using h
  · rw [bufferOf_insert] at h
    split_ifs at h
    · exact absurd h List.not_mem_nil
    · exact h

theorem mem_of_releaseDestination (h : m ∈ (b.releaseDestination e).1.getD []) :
    m ∈ b.bufferOf e := by
  unfold releaseDestination at h
  split at h
  · exact absurd h List.not_mem_nil
  · exact absurd h List.not_mem_nil
  · rename_i buffer _ hl
    simpa [bufferOf, hl] using h

end Buffers

/-- What is chosen is among the candidates. -/
theorem lt_of_mem_choose {mode : TrafficMode} {active : List Bool} {sls i : ℕ}
    (h : i ∈ choose mode active sls) : i < active.length := by
  unfold choose at h
  generalize hup : (List.range active.length).filter (fun i => active.getD i false) = up at h
  have hlt : ∀ j ∈ up, j < active.length := by
    intro j hj
    rw [← hup] at hj
    exact List.mem_range.mp (List.mem_filter.mp hj).1
  dsimp only at h
  split_ifs at h with hnil
  · exact absurd h List.not_mem_nil
  · cases mode with
    | override => exact hlt i (List.mem_of_mem_take h)
    | loadshare =>
      rw [List.mem_singleton.mp h]
      have hpos : 0 < up.length := List.length_pos_iff.mpr hnil
      rw [List.getD_eq_getElem _ _ (Nat.mod_lt _ hpos)]
      exact hlt _ (List.getElem_mem _)
    | broadcast => exact hlt i h

namespace Relay

variable {fits : Variant → ℕ → Bool} {n : Network} {users : Users} {tenant : String} {s : Relay}
  {sent : List Sent} {origins : List (Option Origin)} {via : Destination} {msu : Handed}

/-- A destination that the association a message came in on is not one of. -/
def Away (n : Network) (origins : List (Option Origin)) (number : ℕ) (via : Destination) : Prop :=
  ∃ origin, origins[number]? = some origin ∧ ∀ o, origin = some o → o.assoc ∉ n.members via

/-- No message is on its way, or was sent, to a destination of the association it came in on. -/
structure Apart (n : Network) (s : Relay) (sent : List Sent) : Prop where
  belongs : ∀ o, some o ∈ s.origins → o.belongs n = true
  busy : ∀ g ∈ s.busy, Away n s.origins g.msu.number g.via
  pending : ∀ t, ∀ m ∈ s.pending t, Away n s.origins m.number (.applicationServer t)
  buffered : ∀ d, ∀ m ∈ s.buffers.bufferOf d, m.number < s.origins.length
  released : ∀ m ∈ s.released, m.number < s.origins.length
  onLinks : ∀ p ∈ s.onLinks, p.2.number < s.origins.length
  sent : ∀ e ∈ sent, Away n s.origins e.number e.via ∧ e.on ∈ n.members e.via

theorem Away.lt {number : ℕ} (h : Away n origins number via) : number < origins.length := by
  obtain ⟨origin, hget, -⟩ := h
  exact (List.getElem?_eq_some_iff.mp hget).1

theorem Away.append {number : ℕ} (h : Away n origins number via) (more : List (Option Origin)) :
    Away n (origins ++ more) number via := by
  obtain ⟨origin, hget, hclear⟩ := h
  refine ⟨origin, ?_, hclear⟩
  rw [List.getElem?_append_left (List.getElem?_eq_some_iff.mp hget).1, hget]

/-- Messages that came in later change nothing about those before. -/
theorem Apart.register (h : Apart n s sent) (origin : Option Origin)
    (ho : ∀ o, origin = some o → o.belongs n = true) :
    Apart n { s with origins := s.origins ++ [origin] } sent := by
  have hlt : ∀ k, k < s.origins.length → k < (s.origins ++ [origin]).length := by
    intro k hk
    rw [List.length_append]
    exact Nat.lt_add_right _ hk
  refine ⟨fun o hmem => ?_, fun g hg => (h.busy g hg).append _,
    fun t m hm => (h.pending t m hm).append _, fun d m hm => hlt _ (h.buffered d m hm),
    fun m hm => hlt _ (h.released m hm), fun p hp => hlt _ (h.onLinks p hp),
    fun e he => ⟨(h.sent e he).1.append _, (h.sent e he).2⟩⟩
  rcases List.mem_append.mp hmem with hmem | hmem
  · exact h.belongs o hmem
  · exact ho o (List.mem_singleton.mp hmem).symm

theorem Apart.forward (h : Apart n s sent) (ha : Away n s.origins msu.number via)
    (mayHold : Bool) : Apart n (s.forward via msu mayHold) sent := by
  refine ⟨h.belongs, fun g hg => ?_, h.pending, h.buffered, h.released, h.onLinks, h.sent⟩
  rcases List.mem_append.mp hg with hg | hg
  · exact h.busy g hg
  · rw [List.mem_singleton.mp hg]
    exact ha

theorem Apart.answer (h : Apart n s sent) (src : Option Destination) (reply : Option Msu) :
    Apart n (s.answer src reply) sent := by
  cases src with
  | none => exact h
  | some src =>
    cases reply with
    | none => exact h
    | some reply =>
      have hregister := h.register none fun o ho => by cases ho
      have haway : Away n (s.origins ++ [none]) s.origins.length src :=
        ⟨none, List.getElem?_concat_length, fun o ho => by cases ho⟩
      apply hregister.forward
      exact haway

/-! ## Sending -/

theorem Apart.sendOnLink (h : Apart n s sent) (ha : Away n s.origins msu.number via)
    {link : String} (hl : link ∈ n.members via) :
    Apart n (s.sendOnLink via link msu).1 (sent ++ (s.sendOnLink via link msu).2) := by
  unfold Relay.sendOnLink
  split_ifs
  · simpa using h
  · refine ⟨h.belongs, h.busy, h.pending, h.buffered, h.released, fun p hp => ?_, fun e he => ?_⟩
    · rcases List.mem_append.mp hp with hp | hp
      · exact h.onLinks p hp
      · rw [List.mem_singleton.mp hp]
        exact ha.lt
    · rcases List.mem_append.mp he with he | he
      · exact h.sent e he
      · rw [List.mem_singleton.mp he]
        exact ⟨ha, hl⟩

theorem Apart.queueIfPending (h : Apart n s sent) {t : String}
    (ha : Away n s.origins msu.number (.applicationServer t)) :
    Apart n (s.queueIfPending n t msu) sent := by
  unfold Relay.queueIfPending
  split_ifs
  · exact h
  · refine ⟨h.belongs, h.busy, fun u m hm => ?_, h.buffered, h.released, h.onLinks, h.sent⟩
    by_cases hu : u = t
    · subst hu
      simp only [Function.update_self] at hm
      rcases List.mem_append.mp hm with hm | hm
      · exact h.pending u m hm
      · rw [List.mem_singleton.mp hm]
        exact ha
    · simp only [Function.update_of_ne hu] at hm
      exact h.pending u m hm

theorem mem_members_of_select {t : String} {sls : ℕ} {asp : String}
    (h : asp ∈ s.select n t sls) : asp ∈ n.members (.applicationServer t) := by
  unfold Relay.select at h
  cases hserver : n.server t with
  | none => simp [hserver] at h
  | some a =>
    simp only [hserver, List.mem_map] at h
    obtain ⟨i, hi, rfl⟩ := h
    have hlt : i < a.asps.length := by simpa using lt_of_mem_choose hi
    simp only [Network.members, hserver, Option.map_some, Option.getD_some]
    rw [List.getD_eq_getElem _ _ hlt]
    exact List.getElem_mem hlt

theorem mem_members_of_selectLink {t : String} {sls : ℕ} {avoid : Option String} {link : String}
    (h : s.selectLinkAvoiding n t sls avoid = some link) : link ∈ n.members (.linkset t) := by
  unfold selectLinkAvoiding at h
  cases hset : n.linkset t with
  | none => simp [hset] at h
  | some l =>
    have hmembers : n.members (.linkset t) = l.links := by simp [Network.members, hset]
    simp only [hset] at h
    rw [hmembers]
    split_ifs at h with hnil hnormal hleft
    · rw [← Option.some.inj h]
      have hpos : 0 < l.links.length := List.length_pos_iff.mpr hnil
      rw [List.getD_eq_getElem _ _ (Nat.mod_lt _ hpos)]
      exact List.getElem_mem _
    · exact (List.mem_filter.mp (List.mem_of_getElem? h)).1

theorem Apart.logged (h : Apart n s sent) {number : ℕ} (ha : Away n s.origins number via)
    {asps : List String} (hasps : ∀ asp ∈ asps, asp ∈ n.members via) :
    Apart n s (sent ++ asps.map fun asp => ⟨number, via, asp⟩) := by
  refine ⟨h.belongs, h.busy, h.pending, h.buffered, h.released, h.onLinks, fun e he => ?_⟩
  rcases List.mem_append.mp he with he | he
  · exact h.sent e he
  · obtain ⟨asp, hasp, rfl⟩ := List.mem_map.mp he
    exact ⟨ha, hasps asp hasp⟩

theorem Apart.sendNow (h : Apart n s sent) (ha : Away n s.origins msu.number via) :
    Apart n (s.sendNow n users via msu).1 (sent ++ (s.sendNow n users via msu).2) := by
  cases via with
  | linkset t =>
    simp only [Relay.sendNow]
    cases hlink : s.selectLinkAvoiding n t msu.msu.sls none with
    | none => simpa using h
    | some link => exact h.sendOnLink ha (mem_members_of_selectLink hlink)
  | applicationServer t =>
    simp only [Relay.sendNow]
    split_ifs
    · refine h.logged ha fun asp hasp => ?_
      exact (List.mem_filter.mp (List.mem_filter.mp hasp).1).1
    · simpa using h.queueIfPending ha
    · exact h.logged ha fun asp hasp => mem_members_of_select hasp

theorem Apart.hold (h : Apart n s sent) (hlt : msu.number < s.origins.length) :
    Apart n { s with buffers := (s.buffers.holdIfRerouting msu).2 } sent := by
  refine ⟨h.belongs, h.busy, h.pending, fun d m hm => ?_, h.released, h.onLinks, h.sent⟩
  rcases Buffers.mem_bufferOf_holdIfRerouting hm with rfl | hm
  · exact hlt
  · exact h.buffered d m hm

theorem Apart.send (h : Apart n s sent) {g : Going} (ha : Away n s.origins g.msu.number g.via) :
    Apart n (s.send n users g).1 (sent ++ (s.send n users g).2) := by
  unfold Relay.send
  split_ifs with hold
  · have hheld := h.hold ha.lt
    dsimp only
    split_ifs
    · simpa using hheld
    · exact hheld.sendNow ha
  · exact h.sendNow ha

/-! ## Routing -/

/-- The egress of a decision, if it has one. -/
def viaOf : RouteDecision → Option Destination
  | .route via => some via
  | .routeTo _ _ via _ => via
  | .local_ | .crossTenant _ _ _ _ | .drop _ => none

/-- The egress is not one of those of the association a message came in on, other than the one
that the guard knows. -/
def Recognised (n : Network) (origin : Origin) (via : Destination) : Prop :=
  n.inboundDestination origin.assoc = some via ∨ origin.assoc ∉ n.members via

theorem Apart.admission (h : Apart n s sent) (src : Option Destination) (msu : Handed)
    {go : Relay → Relay} (hgo : Apart n (go s) sent) :
    Apart n (s.admission users src msu go) sent := by
  unfold Relay.admission
  cases users.refused msu with
  | none => exact hgo
  | some reply => exact h.answer src reply

theorem Apart.relayTo (h : Apart n s sent) (ha : Away n s.origins msu.number via)
    (src : Option Destination) (dpc : ℕ) (gt : Option Digits) :
    Apart n (s.relayTo users src via dpc gt msu) sent := by
  unfold Relay.relayTo
  cases users.hop msu.msu with
  | error violation => exact h.answer src violation
  | ok payload =>
    apply h.forward
    exact ha

/-- The guard stops what goes to the destination it knows. -/
theorem Apart.carryOut (h : Apart n s sent) {origin : Origin}
    (ho : s.origins[msu.number]? = some (some origin)) {d : RouteDecision}
    (hd : ∀ via, viaOf d = some via → Recognised n origin via) :
    Apart n (s.carryOut users (n.inboundDestination origin.assoc) msu d) sent := by
  have haway : ∀ via, viaOf d = some via →
      isReflection (n.inboundDestination origin.assoc) via = false →
      Away n s.origins msu.number via := by
    intro via hvia hguard
    rcases hd via hvia with hknown | hclear
    · simp [isReflection, hknown] at hguard
    · refine ⟨some origin, ho, ?_⟩
      rintro o ⟨⟩
      exact hclear
  cases d with
  | route via =>
    simp only [Relay.carryOut]
    split_ifs with hscreen hguard
    · exact h
    · exact h
    · exact h.admission _ _ (h.forward (haway via rfl (by simpa using hguard)) true)
  | routeTo dpc ssn via gt =>
    cases via with
    | none => exact h.answer _ _
    | some via =>
      simp only [Relay.carryOut]
      split_ifs with hguard
      · exact h
      · exact h.admission _ _ (h.relayTo (haway via rfl (by simpa using hguard)) _ dpc gt)
  | local_ => exact h
  | crossTenant t dpc ssn conversion => exact h.answer _ _
  | drop reason => exact h.answer _ _

theorem Apart.reroutes (h : Apart n s sent) (router : Router) : Apart n { s with router := router }
    sent :=
  ⟨h.belongs, h.busy, h.pending, h.buffered, h.released, h.onLinks, h.sent⟩

theorem Apart.dispatch (h : Apart n s sent) {origin : Origin} (hb : origin.belongs n = true)
    {msu : Msu} (hd : ∀ d, (s.decision fits users tenant msu).1 = some d →
      ∀ via, viaOf d = some via → Recognised n origin via) :
    Apart n (s.dispatch fits n users tenant origin msu) sent := by
  have hregister := (h.register (some origin) (by rintro o ⟨⟩; exact hb)).reroutes
    (s.decision fits users tenant msu).2
  unfold Relay.dispatch
  dsimp only
  cases hdecision : s.decision fits users tenant msu with
  | mk d router =>
    rw [hdecision] at hregister hd
    dsimp only at hregister hd
    cases d with
    | none => exact hregister
    | some d =>
      apply hregister.carryOut ?_ (hd d rfl)
      exact List.getElem?_concat_length

/-- Another link is chosen in the linkset that the message is routed through. -/
theorem mem_members_of_reroutedTo {link slot : String} {msu : Msu}
    (h : s.reroutedTo fits n tenant link msu = some (via, some slot)) : slot ∈ n.members via := by
  unfold reroutedTo at h
  dsimp only at h
  cases hvia : s.egress fits tenant msu none with
  | none => simp [hvia] at h
  | some v =>
    simp only [hvia] at h
    split_ifs at h with hown
    · cases v with
      | applicationServer name => simp at h
      | linkset name =>
        cases hlink : s.selectLinkAvoiding n name msu.sls (some link) with
        | none => simp [hlink] at h
        | some other =>
          simp only [hlink, Option.some.injEq, Prod.mk.injEq] at h
          obtain ⟨rfl, rfl⟩ := h
          exact mem_members_of_selectLink hlink
    · simp at h

theorem Apart.reroute (h : Apart n s sent) {link : String}
    (hlt : msu.number < s.origins.length)
    (hd : ∀ via slot, s.reroutedTo fits n tenant link msu.msu = some (via, slot) →
      Away n s.origins msu.number via) :
    Apart n (s.reroute fits n tenant link msu).1
      (sent ++ (s.reroute fits n tenant link msu).2) := by
  unfold Relay.reroute
  cases hto : s.reroutedTo fits n tenant link msu.msu with
  | none => simpa using h
  | some p =>
    obtain ⟨via, slot⟩ := p
    have haway := hd via slot hto
    cases slot with
    | none => simpa using h.forward haway true
    | some slot =>
      have hheld := h.hold hlt
      dsimp only
      split_ifs
      · simpa using hheld
      · exact hheld.sendOnLink haway (mem_members_of_reroutedTo hto)

theorem Apart.setServerState (h : Apart n s sent) (t : String) (state : AsState) :
    Apart n (s.setServerState t state) sent := by
  have hemptied : ∀ u, ∀ m ∈ Function.update s.pending t [] u, m ∈ s.pending u := by
    intro u m hm
    by_cases hu : u = t
    · subst hu
      rw [Function.update_self] at hm
      exact absurd hm List.not_mem_nil
    · rwa [Function.update_of_ne hu] at hm
  unfold Relay.setServerState
  dsimp only
  split_ifs
  · exact ⟨h.belongs, h.busy, h.pending, h.buffered, h.released, h.onLinks, h.sent⟩
  · refine ⟨h.belongs, fun g hg => ?_, fun u m hm => h.pending u m (hemptied u m hm), h.buffered,
      h.released, h.onLinks, h.sent⟩
    rcases List.mem_append.mp hg with hg | hg
    · exact h.busy g hg
    · obtain ⟨m, hm, rfl⟩ := List.mem_map.mp hg
      exact h.pending t m hm
  · exact ⟨h.belongs, h.busy, fun u m hm => h.pending u m (hemptied u m hm), h.buffered,
      h.released, h.onLinks, h.sent⟩

theorem Apart.release (h : Apart n s sent) (dpc : ℕ) : Apart n (s.release dpc) sent := by
  refine ⟨h.belongs, h.busy, h.pending, fun d m hm => ?_, fun m hm => ?_, h.onLinks, h.sent⟩
  · exact h.buffered d m (Buffers.mem_bufferOf_releaseDestination hm)
  · rcases List.mem_append.mp hm with hm | hm
    · exact h.released m hm
    · exact h.buffered dpc m (Buffers.mem_of_releaseDestination hm)

/-- Where a message came in, if it is not one of this node's own. -/
def originOf (s : Relay) (number : ℕ) : Option Origin := s.origins[number]?.join

/-- What routing gives is no destination of the association that a message came in on: for a
message that comes in, none but the one that the guard knows; for one that was buffered, or is
given back by a link, none. -/
def Guarded (fits : Variant → ℕ → Bool) (n : Network) (users : Users) (tenant : String)
    (s : Relay) : Turn → Prop
  | .arrive origin msu => ∀ d ∈ (s.decision fits users tenant msu).1, ∀ via ∈ viaOf d,
      Recognised n origin via
  | .releaseNext => ∀ msu ∈ s.released.head?, ∀ via ∈ s.egress fits tenant msu.msu none,
      ∀ origin ∈ s.originOf msu.number, origin.assoc ∉ n.members via
  | .reroute i => ∀ p ∈ s.onLinks[i]?, ∀ place ∈ s.reroutedTo fits n tenant p.1 p.2.msu,
      ∀ origin ∈ s.originOf p.2.number, origin.assoc ∉ n.members place.1
  | _ => True

/-- No message was sent on the association it came in on, nor over the Application Server or linkset
that it came in through. -/
def NeverBack (s : Relay) (sent : List Sent) : Prop :=
  ∀ e ∈ sent, ∀ o ∈ s.originOf e.number, e.on ≠ o.assoc ∧ some e.via ≠ o.through

theorem away_of_clear (hlt : msu.number < s.origins.length)
    (h : ∀ o ∈ s.originOf msu.number, o.assoc ∉ n.members via) :
    Away n s.origins msu.number via := by
  refine ⟨s.origins[msu.number], List.getElem?_eq_getElem hlt, fun o ho => h o ?_⟩
  simp [originOf, List.getElem?_eq_getElem hlt, ho]

theorem Apart.releaseNext (h : Apart n s sent) (hg : Guarded fits n users tenant s .releaseNext) :
    Apart n (s.releaseNext fits tenant) sent := by
  unfold Relay.releaseNext
  cases hreleased : s.released with
  | nil => exact h
  | cons msu rest =>
    have hlt : msu.number < s.origins.length := h.released msu (by simp [hreleased])
    have hrest : Apart n { s with released := rest } sent :=
      ⟨h.belongs, h.busy, h.pending, h.buffered,
        fun m hm => h.released m (by simp [hreleased, hm]), h.onLinks, h.sent⟩
    have hsame : ({ s with released := rest } : Relay).egress fits tenant msu.msu none =
        s.egress fits tenant msu.msu none := rfl
    dsimp only
    rw [hsame]
    cases hvia : s.egress fits tenant msu.msu none with
    | none => exact hrest
    | some via =>
      apply hrest.forward
      exact away_of_clear (s := s) hlt (hg msu (by simp [hreleased]) via hvia)

/-- A step whose routing the guard recognises keeps the messages apart. -/
theorem Apart.step (h : Apart n s sent) {turn : Turn} (hg : Guarded fits n users tenant s turn) :
    Apart n (s.step fits n users tenant turn).1
      (sent ++ (s.step fits n users tenant turn).2) := by
  cases turn with
  | arrive origin msu =>
    simp only [Relay.step]
    split_ifs with hb
    · simpa using h.dispatch hb hg
    · simpa using h
  | send i =>
    simp only [Relay.step]
    cases hi : s.busy[i]? with
    | none => simpa using h
    | some g =>
      have hrest : Apart n { s with busy := s.busy.eraseIdx i } sent :=
        ⟨h.belongs, fun g hg => h.busy g (List.mem_of_mem_eraseIdx hg), h.pending, h.buffered,
          h.released, h.onLinks, h.sent⟩
      exact hrest.send (h.busy g (List.mem_of_getElem? hi))
  | change around =>
    simpa [Relay.step] using
      (⟨h.belongs, h.busy, h.pending, h.buffered, h.released, h.onLinks, h.sent⟩ :
        Apart n { s with
          around := around
          router := s.router.mapValues fun id rt => { rt with routeState := around.states id } }
          sent)
  | serverState t state => simpa [Relay.step] using h.setServerState t state
  | holdDestination dpc =>
    have hheld : Apart n { s with buffers := s.buffers.holdDestination dpc } sent :=
      ⟨h.belongs, h.busy, h.pending,
        fun d m hm => h.buffered d m (Buffers.mem_bufferOf_holdDestination hm), h.released,
        h.onLinks, h.sent⟩
    simpa [Relay.step] using hheld
  | releaseDestination dpc => simpa [Relay.step] using h.release dpc
  | releaseNext => simpa [Relay.step] using h.releaseNext hg
  | reroute i =>
    simp only [Relay.step]
    cases hi : s.onLinks[i]? with
    | none => simpa using h
    | some p =>
      obtain ⟨link, msu⟩ := p
      have hlt : msu.number < s.origins.length := h.onLinks (link, msu) (List.mem_of_getElem? hi)
      have hrest : Apart n { s with onLinks := s.onLinks.eraseIdx i } sent :=
        ⟨h.belongs, h.busy, h.pending, h.buffered, h.released,
          fun p hp => h.onLinks p (List.mem_of_mem_eraseIdx hp), h.sent⟩
      exact hrest.reroute hlt fun via slot hto =>
        away_of_clear (s := s) hlt (hg (link, msu) hi (via, slot) hto)

theorem apart_new (router : Router) (k : ℕ) : Apart n (new router k) [] := by
  refine ⟨?_, ?_, ?_, ?_, ?_, ?_, ?_⟩ <;> simp [new, Buffers.new, Buffers.bufferOf]

theorem Apart.neverBack (h : Apart n s sent) : NeverBack s sent := by
  intro e he o ho
  obtain ⟨⟨origin, hget, hclear⟩, hon⟩ := h.sent e he
  obtain rfl : origin = some o := by simpa [originOf, hget] using ho
  have hnot : o.assoc ∉ n.members e.via := hclear o rfl
  refine ⟨?_, fun hthrough => ?_⟩
  · intro heq
    rw [heq] at hon
    exact hnot hon
  · have hbelongs := h.belongs o (List.mem_of_getElem? hget)
    rw [Origin.belongs, ← hthrough] at hbelongs
    exact hnot (by simpa using hbelongs)

/-! ## What the guard recognises -/

theorem find_unique {α : Type} {xs : List α} {name : α → String} (hxs : (xs.map name).Nodup)
    {x : α} (hx : x ∈ xs) : xs.find? (fun y => name y = name x) = some x := by
  induction xs with
  | nil => cases hx
  | cons y ys ih =>
    rw [List.map_cons, List.nodup_cons] at hxs
    rcases List.mem_cons.mp hx with rfl | hx
    · simp
    · have hne : name y ≠ name x := fun heq => hxs.1 (heq ▸ List.mem_map_of_mem hx)
      rw [List.find?_cons_of_neg (by simpa using hne)]
      exact ih hxs.2 hx

/-- What the guard knows is a destination of the association. -/
theorem mem_members_of_inboundDestination {assoc : String} {d : Destination}
    (h : n.inboundDestination assoc = some d) : assoc ∈ n.members d := by
  have hnames := List.nodup_append.mp n.names
  unfold Network.inboundDestination at h
  cases hserver : n.servers.find? fun a => assoc ∈ a.asps with
  | some a =>
    simp only [hserver, Option.some.injEq] at h
    subst h
    have hmem : assoc ∈ a.asps := by simpa using List.find?_some hserver
    simpa [Network.members, Network.server,
      find_unique hnames.1 (List.mem_of_find?_eq_some hserver)] using hmem
  | none =>
    simp only [hserver] at h
    obtain ⟨l, hset, rfl⟩ := Option.map_eq_some_iff.mp h
    have hmem : assoc ∈ l.links := by simpa using List.find?_some hset
    simpa [Network.members, Network.linkset,
      find_unique hnames.2.1 (List.mem_of_find?_eq_some hset)] using hmem

/-- The guard knows a destination of every association that has one. -/
theorem inboundDestination_isSome {assoc : String} {d : Destination} (h : assoc ∈ n.members d) :
    ∃ d', n.inboundDestination assoc = some d' := by
  unfold Network.inboundDestination
  cases hserver : n.servers.find? fun a => assoc ∈ a.asps with
  | some a => exact ⟨_, rfl⟩
  | none =>
    cases d with
    | applicationServer name =>
      cases hfind : n.server name with
      | none => simp [Network.members, hfind] at h
      | some a =>
        have hmem : assoc ∈ a.asps := by simpa [Network.members, hfind] using h
        have := List.find?_eq_none.mp hserver a (List.mem_of_find?_eq_some hfind)
        exact absurd hmem (by simpa using this)
    | linkset name =>
      cases hfind : n.linkset name with
      | none => simp [Network.members, hfind] at h
      | some l =>
        have hmem : assoc ∈ l.links := by simpa [Network.members, hfind] using h
        cases hset : n.linksets.find? fun l => assoc ∈ l.links with
        | none =>
          have := List.find?_eq_none.mp hset l (List.mem_of_find?_eq_some hfind)
          exact absurd hmem (by simpa using this)
        | some l' => exact ⟨.linkset l'.name, by simp⟩

/-- Of an association with one destination the guard recognises whatever routing gives. -/
theorem recognised_of_single {origin : Origin}
    (h : ∀ d d', origin.assoc ∈ n.members d → origin.assoc ∈ n.members d' → d = d')
    (via : Destination) : Recognised n origin via := by
  by_cases hmem : origin.assoc ∈ n.members via
  · obtain ⟨d, hd⟩ := inboundDestination_isSome hmem
    left
    rw [hd, h d via (mem_members_of_inboundDestination hd) hmem]
  · exact Or.inr hmem

/-! ## Every run -/

instance (n : Network) (origin : Origin) (via : Destination) :
    Decidable (Recognised n origin via) := by
  unfold Recognised
  infer_instance

instance (fits : Variant → ℕ → Bool) (n : Network) (users : Users) (tenant : String) (s : Relay)
    (turn : Turn) : Decidable (Guarded fits n users tenant s turn) := by
  cases turn <;> unfold Guarded <;> infer_instance

instance (s : Relay) (sent : List Sent) : Decidable (NeverBack s sent) := by
  unfold NeverBack
  infer_instance

/-- A domain in which an ASP serves two Application Servers, and a destination is reached on either
of two linksets. -/
def crossroads : Tenant where
  pointCode := 1000
  variant := .itu
  applicationServers := ["one", "two"]
  linksets := [⟨"west", ["a"]⟩, ⟨"east", ["b"]⟩]
  mtp3Routes :=
    [⟨2000, some "two", none, 1⟩, ⟨3000, none, some "east", 1⟩, ⟨3000, none, some "west", 2⟩]
  sccp := .empty
  contentRouting := none

def crossroadsNetwork : Network where
  associations := [⟨"gw", .m3ua, .server⟩, ⟨"a", .m2pa, .server⟩, ⟨"b", .m2pa, .server⟩]
  servers := [⟨"one", .loadshare, 100, ["gw"], 2000, 1⟩, ⟨"two", .loadshare, 200, ["gw"], 2000, 1⟩]
  linksets := crossroads.linksets
  pendingLimit := fun _ => 10
  resolver := .build crossroads.variant crossroads.linksets crossroads.mtp3Routes []
  names := by decide

/-- Users of MTP3 that have nothing to say. -/
def plainUsers : Users where
  called := fun _ => (none, none)
  view := fun _ => (none, false)
  screened := fun _ => false
  refused := fun _ => none
  hop := fun msu => .ok msu.payload
  rewritten := fun _ _ => none
  returned := fun _ => none
  translated := fun _ _ => false

/-- Both servers are up, and these linksets. -/
def withLinksets (names : List String) : Surroundings :=
  ⟨fun _ => { RouteState.new with asUp := {"one", "two"}, linksetsUp := names.toFinset },
    fun _ _ => true, fun _ => true, fun _ => false⟩

/-- What is sent in a run of the domain. -/
def sentIn (turns : List Turn) : Relay × List Sent :=
  Machine.run (watching (fun _ pc => pc < 0x4000) crossroadsNetwork plainUsers "default")
    (new (.ofConfig ⟨[], AList.singleton "default" crossroads⟩) 10, []) turns

/-- A message that comes in through the second server of its ASP, and is routed to that server. -/
def throughSecond : List Turn :=
  [.change (withLinksets ["west", "east"]),
    .arrive ⟨"gw", some (.applicationServer "two")⟩ ⟨7, 2000, 3, 2, 0, 5, [1]⟩, .send 0]

/-- A message that waits in a rerouting buffer while the linkset it was routed to fails. -/
def whileRerouting : List Turn :=
  [.change (withLinksets ["west", "east"]), .holdDestination 3000,
    .arrive ⟨"a", some (.linkset "west")⟩ ⟨7, 3000, 3, 2, 0, 5, [1]⟩, .send 0,
    .change (withLinksets ["west"]), .releaseDestination 3000, .releaseNext, .send 0]

end Relay

end SiphonSigtran.Transport
