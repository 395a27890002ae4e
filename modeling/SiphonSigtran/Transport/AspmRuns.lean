import SiphonSigtran.Transport.AspmMoves

/-!
# Every run of ASP state maintenance

After every event the state of each Application Server is the one its ASPs and
T(r) justify, the actions so far say so, and every ASP of the gateway that is up
was last told it.
-/

namespace SiphonSigtran.Transport

open Lib

/-- The ASP that an event is a message of. -/
def Input.asks : Input → Option ℕ
  | .up a _ => some a
  | .down a => some a
  | .active a _ _ => some a
  | .inactive a _ => some a
  | _ => none

/-- The acknowledgement of a request. -/
def Message.acknowledges : Input → Message → Bool
  | .up _ _, .upAck => true
  | .down _, .downAck => true
  | .active _ _ _, .activeAck _ _ => true
  | .inactive _ _, .inactiveAck _ => true
  | _, _ => false

/-- An acknowledgement or an error. -/
def Message.answers : Message → Bool
  | .notify _ _ _ _ => false
  | _ => true

theorem about_send_eq_none {a : ℕ} {message : Message} :
    (Action.send a message).about = none ↔ message.answers = true := by
  cases message <;> simp [Action.about, Message.answers]

namespace Aspm

variable {l : Layout} {r0 : Seen} {m m' : Aspm} {s a : ℕ}

/-! ## One event -/

theorem AllSound.answer (h : AllSound l r0 m) (a : ℕ) {message : Message}
    (hm : message.answers = true) : AllSound l r0 (m.send l a message) := by
  refine h.send a (about_send_eq_none.mpr hm) fun r => ?_
  cases message with
  | notify => exact absurd hm Bool.false_ne_true
  | _ => trivial

theorem admitted_sound (h : AllSound l r0 m) (a : ℕ) (contexts : Option (List ℕ)) :
    AllSound l r0 (m.admitted l a contexts).2 ∧
    (m.admitted l a contexts).2.asps = m.asps ∧
    ((m.admitted l a contexts).1 ≠ [] → (m.asps a).up = true) := by
  unfold admitted
  by_cases hup : (m.asps a).up = false
  · rw [if_pos hup]
    exact ⟨h.answer a rfl, send_asps m a _, fun hne => absurd rfl hne⟩
  · rw [if_neg hup]
    have hfirst : AllSound l r0 (if unconfigured l a contexts ≠ [] then
        m.send l a (.error .invalidRoutingContext (unconfigured l a contexts)) else m) ∧
        (if unconfigured l a contexts ≠ [] then
          m.send l a (.error .invalidRoutingContext (unconfigured l a contexts)) else m).asps =
            m.asps := by
      split_ifs
      · exact ⟨h.answer a rfl, send_asps m a _⟩
      · exact ⟨h, rfl⟩
    dsimp only
    refine ⟨?_, ?_, fun _ => by simpa using hup⟩
    · split_ifs
      all_goals first
        | exact (h.answer a rfl).answer a rfl
        | exact h.answer a rfl
        | exact h
    · split_ifs <;> simp only [send_asps]

theorem active_sound (hl : l.Consistent) (h : AllSound l r0 m) (a : ℕ) (mode : Option ℕ)
    (contexts : Option (List ℕ)) : AllSound l r0 (m.active l a mode contexts) := by
  obtain ⟨hadmitted, hasps, hup⟩ := admitted_sound h a contexts
  unfold active
  generalize m.admitted l a contexts = p at hadmitted hasps hup ⊢
  obtain ⟨servers, m₁⟩ := p
  dsimp only at hadmitted hasps hup ⊢
  generalize hacc : servers.filter _ = accepted
  generalize servers.filter _ = refused
  have hrefused : AllSound l r0 (if refused ≠ [] then m₁.send l a
      (.error .unsupportedTrafficModeType (refused.map fun s => (l.server s).routingContext))
      else m₁) ∧ (if refused ≠ [] then m₁.send l a
      (.error .unsupportedTrafficModeType (refused.map fun s => (l.server s).routingContext))
      else m₁).asps = m.asps := by
    split_ifs
    · exact ⟨hadmitted.answer a rfl, (send_asps m₁ a _).trans hasps⟩
    · exact ⟨hadmitted, hasps⟩
  generalize (if refused ≠ [] then m₁.send l a _ else m₁) = m₂ at hrefused ⊢
  split_ifs with hnone
  · exact hrefused.1
  · have hservers : servers ≠ [] := by
      rintro rfl
      exact hnone hacc.symm
    refine AllSound.foldl (fun m s => only_activate m a s)
      (fun m s hup h hc => activate_sound hl h hc hup) (hrefused.1.answer a rfl) ?_ accepted
    rw [send_asps, hrefused.2]
    exact hup hservers

theorem inactive_sound (hl : l.Consistent) (h : AllSound l r0 m) (a : ℕ)
    (contexts : Option (List ℕ)) : AllSound l r0 (m.inactive l a contexts) := by
  have hadmitted := (admitted_sound h a contexts).1
  unfold inactive
  generalize m.admitted l a contexts = p at hadmitted ⊢
  dsimp only
  split_ifs
  · exact hadmitted
  · exact deactivate_foldl_sound hl (hadmitted.answer a rfl) a _

theorem AllSound.identified (h : AllSound l r0 m) (a : ℕ) (id : Option ℕ) :
    AllSound l r0 (m.setIdentifier a id) := ⟨fun s => (h.sound s).identified id, h.clean⟩

theorem up_sound (hl : l.Consistent) (h : AllSound l r0 m) (a : ℕ) (id : Option ℕ) :
    AllSound l r0 (m.up l a id) := by
  have hacked : AllSound l r0 (m.send l a .upAck) := h.answer a rfl
  unfold up
  by_cases hdown : ((m.send l a .upAck).asps a).up = false
  · rw [if_pos hdown]
    exact bringUp_sound hl hacked hdown id
  · rw [if_neg hdown]
    have hout : AllSound l r0 (if (m.send l a .upAck).anywhereActive l a then
        (l.asp a).servers.foldl (fun m s => m.deactivate l a s)
          ((m.send l a .upAck).send l a (.error .unexpectedMessage []))
        else m.send l a .upAck) := by
      split_ifs
      · exact deactivate_foldl_sound hl (hacked.answer a rfl) a _
      · exact hacked
    dsimp only
    by_cases hid : id.isSome = true
    · rw [if_pos hid]
      exact hout.identified a id
    · rw [if_neg hid]
      exact hout

/-- T(r) of a server ran out. -/
theorem Base.expire (h : Base l r0 ⟨[], [], false⟩ m s) (hout : m.out = []) (t : ℕ) :
    Base l (r0.expire (.timeout (.recovery t))) ⟨[], [], decide (s = t)⟩ m s := by
  have hseen : ∀ r, m.seen r = r := fun r => by rw [seen, hout]; rfl
  have hasp := h.asp
  have hserver := h.server
  have htimer := h.timer
  have htold := h.told
  rw [hseen] at hasp hserver htimer htold
  constructor
  · exact h.flag
  · exact h.recovery
  · rw [hseen]
    exact hasp
  · rw [hseen]
    exact hserver
  · rw [hseen]
    by_cases hs : s = t
    · simp [Seen.expire, hs]
    · simpa [Seen.expire, hs] using htimer
  · rw [hseen]
    exact htold

theorem Base.settle {gap : Gap} (h : Base l r0 gap m s) (hp : m.servers s ≠ .pending)
    (due : Bool) : Base l r0 { gap with due := due } m s :=
  ⟨h.flag, h.recovery, h.asp, h.server, by simpa [hp] using h.timer, h.told⟩

theorem timeout_sound (h : AllSound l r0 m) (hout : m.out = []) (t : ℕ) :
    AllSound l (r0.expire (.timeout (.recovery t))) (m.react l (.timeout (.recovery t))) := by
  have hclean : m.Clean l (r0.expire (.timeout (.recovery t))) := by
    rw [Clean, hout]
    trivial
  have hother : ∀ s ≠ t, Sound l (r0.expire (.timeout (.recovery t))) m s := by
    intro s hs
    refine ⟨?_, (h.sound s).settled⟩
    simpa [hs] using (h.sound s).base.expire hout t
  have hdue : Base l (r0.expire (.timeout (.recovery t))) ⟨[], [], true⟩ m t := by
    simpa using (h.sound t).base.expire hout t
  simp only [react]
  split_ifs with ht
  · refine ⟨fun s => ?_, hclean.recoveryExpired hdue⟩
    by_cases hs : s = t
    · rw [hs]
      exact recoveryExpired_sound hdue (h.sound t).settled
    · exact (hother s hs).other (only_recoveryExpired m t) hs
  · refine ⟨fun s => ?_, hclean⟩
    by_cases hs : s = t
    · -- a server that the domain does not have has no T(r)
      subst hs
      refine ⟨hdue.settle (fun hp => ?_) false, (h.sound s).settled⟩
      have hrec := hdue.recovery hp
      rw [Layout.server_of_le (Nat.le_of_not_lt ht)] at hrec
      exact absurd hrec Bool.false_ne_true
    · exact hother s hs

/-- One event, from a state in which everything is said. -/
theorem react_sound (hl : l.Consistent) (h : AllSound l r0 m) (hout : m.out = [])
    (input : Input) : AllSound l (r0.expire input) (m.react l input) := by
  cases input with
  | up a id =>
    simp only [react]
    split_ifs
    · exact up_sound hl h a id
    · exact h
  | down a =>
    simp only [react]
    split_ifs
    · exact takeDown_sound hl (h.answer a rfl) a false
    · exact h
  | active a mode contexts =>
    simp only [react]
    split_ifs
    · exact active_sound hl h a mode contexts
    · exact h
  | inactive a contexts =>
    simp only [react]
    split_ifs
    · exact inactive_sound hl h a contexts
    · exact h
  | lost a =>
    simp only [react]
    split_ifs
    · exact takeDown_sound hl h a true
    · exact h
  | peerUp a =>
    simp only [react]
    split_ifs with hdown
    · exact bringUp_sound hl h hdown.2 none
    · exact h
  | peerActive a contexts =>
    simp only [react]
    split_ifs with hup
    · exact AllSound.foldl (fun m s => only_activate m a s)
        (fun m s hup h hc => activate_sound hl h hc hup) h hup.2 _
    · exact h
  | peerInactive a contexts =>
    simp only [react]
    split_ifs
    · exact deactivate_foldl_sound hl h a _
    · exact h
  | timeout timer =>
    obtain ⟨t⟩ := timer
    exact timeout_sound h hout t

/-! ## What an event is answered with, and in which order -/

/-- Actions that follow from an event are about servers. -/
def Grows (m m' : Aspm) : Prop :=
  ∃ extra, m'.out = m.out ++ extra ∧ ∀ x ∈ extra, x.about ≠ none

theorem Grows.refl (m : Aspm) : Grows m m := ⟨[], by simp, by simp⟩

theorem Grows.trans {m'' : Aspm} (h : Grows m m') (h' : Grows m' m'') : Grows m m'' := by
  obtain ⟨extra, hout, hextra⟩ := h
  obtain ⟨extra', hout', hextra'⟩ := h'
  refine ⟨extra ++ extra', by rw [hout', hout, List.append_assoc], fun x hx => ?_⟩
  rcases List.mem_append.mp hx with hx | hx
  · exact hextra x hx
  · exact hextra' x hx

theorem Only.grows (h : Only s m m') : Grows m m' := by
  obtain ⟨extra, hout, hextra⟩ := h.out
  exact ⟨extra, hout, fun x hx => by rw [hextra x hx]; simp⟩

theorem grows_foldl {f : Aspm → ℕ → Aspm} (honly : ∀ m s, Only s m (f m s))
    (servers : List ℕ) (m : Aspm) : Grows m (servers.foldl f m) := by
  induction servers generalizing m with
  | nil => exact Grows.refl m
  | cons s servers ih => exact (honly m s).grows.trans (ih _)

theorem grows_bringUp (m : Aspm) (a : ℕ) (id : Option ℕ) : Grows m (m.bringUp l a id) :=
  grows_foldl (only_bringUpIn a) _ ((m.setUp a true).setIdentifier a id)

theorem grows_takeDown (m : Aspm) (a : ℕ) (failed : Bool) : Grows m (m.takeDown l a failed) := by
  unfold takeDown
  split_ifs
  · exact Grows.refl m
  · obtain ⟨extra, hout, hextra⟩ :=
      grows_foldl (only_takeDownIn a failed) (l.asp a).servers (m.fallen l a)
    have hfallen : (m.fallen l a).out = m.out := (clear_foldl a (l.asp a).servers m).2.1
    exact ⟨extra, hout.trans (by rw [hfallen]), hextra⟩

/-- So far only the ASP that asked was answered. -/
def Answered (input : Input) (m : Aspm) : Prop :=
  ∀ x ∈ m.out, ∃ a message, x = .send a message ∧ message.answers = true ∧ input.asks = some a

theorem mem_send {x : Action} {message : Message} :
    x ∈ (m.send l a message).out ↔
      x ∈ m.out ∨ ((l.asp a).gateway = true ∧ x = .send a message) := by
  unfold send
  split_ifs with hg <;> simp [push, hg]

theorem Answered.send {input : Input} (h : Answered input m) (ha : input.asks = some a)
    {message : Message} (hm : message.answers = true) :
    Answered input (m.send l a message) := by
  intro x hx
  rcases mem_send.mp hx with hx | ⟨-, rfl⟩
  · exact h x hx
  · exact ⟨a, message, rfl, hm, ha⟩

/-- What the ASP that asked is answered, and what follows. -/
def Shape (l : Layout) (input : Input) (m : Aspm) : Prop :=
  ∃ front rest, m.out = front ++ rest ∧
    (∀ x ∈ front, ∃ a message, x = .send a message ∧ message.answers = true ∧
      input.asks = some a) ∧
    (∀ x ∈ rest, x.about ≠ none) ∧
    (rest ≠ [] → ∀ a, input.asks = some a → (l.asp a).gateway = true →
      ∃ message, Action.send a message ∈ front ∧ message.acknowledges input = true)

theorem Answered.shape {input : Input} (h : Answered input m) : Shape l input m :=
  ⟨m.out, [], by simp, h, by simp, fun hne => absurd rfl hne⟩

/-- Once the request is acknowledged what follows from it may come. -/
theorem Answered.then {input : Input} (h : Answered input m) (hg : Grows m m')
    (hack : ∀ a, input.asks = some a → (l.asp a).gateway = true →
      ∃ message, Action.send a message ∈ m.out ∧ message.acknowledges input = true) :
    Shape l input m' := by
  obtain ⟨extra, hout, hextra⟩ := hg
  exact ⟨m.out, extra, hout, h, hextra, fun _ => hack⟩

theorem admitted_answered {input : Input} (h : Answered input m) (ha : input.asks = some a)
    (contexts : Option (List ℕ)) : Answered input (m.admitted l a contexts).2 := by
  unfold admitted
  split_ifs
  · exact h.send ha rfl
  · dsimp only
    split_ifs
    all_goals first
      | exact (h.send ha rfl).send ha rfl
      | exact h.send ha rfl
      | exact h

theorem up_shape {id : Option ℕ} (h : Answered (.up a id) m) :
    Shape l (.up a id) (m.up l a id) := by
  have hacked : Answered (.up a id) (m.send l a .upAck) := h.send rfl rfl
  have hack : ∀ b, (Input.up a id).asks = some b → (l.asp b).gateway = true →
      ∃ message, Action.send b message ∈ (m.send l a .upAck).out ∧
        message.acknowledges (.up a id) = true := by
    rintro b ⟨⟩ hg
    exact ⟨.upAck, mem_send.mpr (.inr ⟨hg, rfl⟩), rfl⟩
  unfold up
  by_cases hdown : ((m.send l a .upAck).asps a).up = false
  · rw [if_pos hdown]
    exact hacked.then (grows_bringUp _ a id) hack
  · rw [if_neg hdown]
    have hout : Shape l (.up a id) (if (m.send l a .upAck).anywhereActive l a then
        (l.asp a).servers.foldl (fun m s => m.deactivate l a s)
          ((m.send l a .upAck).send l a (.error .unexpectedMessage []))
        else m.send l a .upAck) := by
      split_ifs
      · refine (hacked.send rfl rfl).then (grows_foldl (fun m s => only_deactivate m a s) _ _) ?_
        intro b hb hg
        obtain ⟨message, hmem, hm⟩ := hack b hb hg
        exact ⟨message, mem_send.mpr (.inl hmem), hm⟩
      · exact hacked.shape
    dsimp only
    by_cases hid : id.isSome = true
    · rw [if_pos hid]
      exact hout
    · rw [if_neg hid]
      exact hout

theorem down_shape (h : Answered (.down a) m) : Shape l (.down a) (m.down l a) := by
  refine (h.send rfl rfl).then (grows_takeDown _ a false) ?_
  rintro b ⟨⟩ hg
  exact ⟨.downAck, mem_send.mpr (.inr ⟨hg, rfl⟩), rfl⟩

theorem active_shape {mode : Option ℕ} {contexts : Option (List ℕ)}
    (h : Answered (.active a mode contexts) m) :
    Shape l (.active a mode contexts) (m.active l a mode contexts) := by
  have hadmitted := admitted_answered (l := l) h rfl contexts
  unfold active
  generalize m.admitted l a contexts = p at hadmitted ⊢
  obtain ⟨servers, m₁⟩ := p
  dsimp only at hadmitted ⊢
  generalize servers.filter _ = accepted
  generalize servers.filter _ = refused
  have hrefused : Answered (.active a mode contexts) (if refused ≠ [] then m₁.send l a
      (.error .unsupportedTrafficModeType (refused.map fun s => (l.server s).routingContext))
      else m₁) := by
    split_ifs
    · exact hadmitted.send rfl rfl
    · exact hadmitted
  generalize (if refused ≠ [] then m₁.send l a _ else m₁) = m₂ at hrefused ⊢
  split_ifs
  · exact hrefused.shape
  · refine (hrefused.send rfl rfl).then (grows_foldl (fun m s => only_activate m a s) _ _) ?_
    rintro b ⟨⟩ hg
    exact ⟨_, mem_send.mpr (.inr ⟨hg, rfl⟩), rfl⟩

theorem inactive_shape {contexts : Option (List ℕ)} (h : Answered (.inactive a contexts) m) :
    Shape l (.inactive a contexts) (m.inactive l a contexts) := by
  have hadmitted := admitted_answered (l := l) h rfl contexts
  unfold inactive
  generalize m.admitted l a contexts = p at hadmitted ⊢
  dsimp only
  split_ifs
  · exact hadmitted.shape
  · refine (hadmitted.send rfl rfl).then (grows_foldl (fun m s => only_deactivate m a s) _ _) ?_
    rintro b ⟨⟩ hg
    exact ⟨_, mem_send.mpr (.inr ⟨hg, rfl⟩), rfl⟩

theorem react_shape (l : Layout) (hout : m.out = []) (input : Input) :
    Shape l input (m.react l input) := by
  have h : Answered input m := by
    intro x hx
    rw [hout] at hx
    exact absurd hx List.not_mem_nil
  have hnone : ∀ {m'}, input.asks = none → Grows m m' → Shape l input m' :=
    fun hasks hg => h.then hg fun a ha => by rw [hasks] at ha; cases ha
  cases input with
  | up a id =>
    simp only [react]
    split_ifs
    · exact up_shape h
    · exact h.shape
  | down a =>
    simp only [react]
    split_ifs
    · exact down_shape h
    · exact h.shape
  | active a mode contexts =>
    simp only [react]
    split_ifs
    · exact active_shape h
    · exact h.shape
  | inactive a contexts =>
    simp only [react]
    split_ifs
    · exact inactive_shape h
    · exact h.shape
  | lost a =>
    simp only [react]
    split_ifs
    · exact hnone rfl (grows_takeDown m a true)
    · exact h.shape
  | peerUp a =>
    simp only [react]
    split_ifs
    · exact hnone rfl (grows_bringUp m a none)
    · exact h.shape
  | peerActive a contexts =>
    simp only [react]
    split_ifs
    · exact hnone rfl (grows_foldl (fun m s => only_activate m a s) _ m)
    · exact h.shape
  | peerInactive a contexts =>
    simp only [react]
    split_ifs
    · exact hnone rfl (grows_foldl (fun m s => only_deactivate m a s) _ m)
    · exact h.shape
  | timeout timer =>
    obtain ⟨t⟩ := timer
    simp only [react]
    split_ifs
    · exact hnone rfl (only_recoveryExpired m t).grows
    · exact h.shape

/-! ## Every run -/

/-- The machine, and what its actions said. -/
def watching (l : Layout) : Aspm × Seen → Input → Aspm × Seen :=
  Machine.watch (fun m input => m.handle l input) fun seen _ input out =>
    out.2.foldl Seen.see (seen.expire input)

/-- What holds between two events. -/
structure Level (l : Layout) (p : Aspm × Seen) : Prop where
  sound : ∀ s, Sound l p.2 p.1 s
  out : p.1.out = []

theorem level_new (l : Layout) : Level l (new, Seen.new) := by
  refine ⟨fun s => ⟨⟨?_, ?_, ?_, rfl, rfl, ?_⟩, ⟨?_, ?_, ?_, fun _ _ _ => rfl, ?_⟩⟩, rfl⟩
  · exact fun a ha => absurd ha Bool.false_ne_true
  · exact fun hp => by cases hp
  · exact fun _ _ _ => rfl
  · exact fun a _ _ hup => absurd hup Bool.false_ne_true
  · exact fun hs => by cases hs
  · exact fun hs => by cases hs
  · exact fun hs => by cases hs
  · exact fun _ a _ b _ hon => absurd hon (by simp [isActive, aspState, new])

/-- What was said in a step is kept when the actions are handed over. -/
theorem Sound.handed (h : Sound l r0 m s) :
    Sound l (m.seen r0) { m with out := [] } s :=
  ⟨⟨h.base.flag, h.base.recovery, h.base.asp, h.base.server, h.base.timer, h.base.told⟩,
    h.settled.congr (fun _ _ => rfl) (fun _ _ => rfl) rfl⟩

theorem Level.step (hl : l.Consistent) {p : Aspm × Seen} (h : Level l p) (input : Input) :
    Level l (watching l p input) ∧ (p.1.react l input).Clean l (p.2.expire input) := by
  have hclean : p.1.Clean l p.2 := by
    rw [Clean, h.out]
    trivial
  have hsound := react_sound hl ⟨h.sound, hclean⟩ h.out input
  exact ⟨⟨fun s => (hsound.sound s).handed, rfl⟩, hsound.clean⟩

theorem level_run (hl : l.Consistent) (inputs : List Input) :
    Level l (Machine.run (watching l) (new, Seen.new) inputs) :=
  Machine.run_invariant (P := Level l) (fun _ input h _ => (h.step hl input).1) (level_new l)
    (Machine.along_trivial _ inputs)

/-- The state of an Application Server. -/
def serverState (m : Aspm) (server : ℕ) : AsState := m.servers server

theorem isActive_iff_state : m.isActive l a s = true ↔ m.aspState l a s = .active := by
  simp [isActive]

/-- After every event a server is in the state its ASPs and T(r) justify, whoever is active is up,
and the actions say what each server and each ASP configured in it is. -/
theorem state_justified (hl : l.Consistent) (hreq : l.Demanding) (inputs : List Input) :
    let p := Machine.run (watching l) (new, Seen.new) inputs
    (∀ s < l.servers.length,
      (p.1.serverState s = .active →
        ∃ a ∈ (l.server s).asps, p.1.aspState l a s = .active) ∧
      (p.1.serverState s = .pending ↔ p.2.timer s = true) ∧
      (p.1.serverState s = .pending →
        (∀ a ∈ (l.server s).asps, p.1.aspState l a s ≠ .active) ∧
        (l.server s).recovery.isSome = true) ∧
      (p.1.serverState s = .inactive →
        (∃ a ∈ (l.server s).asps, (p.1.asps a).up = true) ∧
        (p.1.counts l s).1 < (l.server s).required) ∧
      (p.1.serverState s = .down → ∀ a ∈ (l.server s).asps, (p.1.asps a).up = false) ∧
      ((l.server s).mode = .override → ∀ a ∈ (l.server s).asps, ∀ b ∈ (l.server s).asps,
        p.1.aspState l a s = .active → p.1.aspState l b s = .active → a = b) ∧
      p.2.server s = p.1.serverState s ∧
      ∀ a, s ∈ (l.asp a).servers → p.2.asp a s = p.1.aspState l a s) ∧
    ∀ a s, (p.1.asps a).active s = true → (p.1.asps a).up = true := by
  intro p
  have hp : Level l p := level_run hl inputs
  constructor
  · intro s hs
    obtain ⟨hbase, hsettled⟩ := hp.sound s
    have hseen : p.1.seen p.2 = p.2 := by rw [seen, hp.out]; rfl
    have htimer := hbase.timer
    have hserver := hbase.server
    have hasp := hbase.asp
    rw [hseen] at htimer hserver hasp
    refine ⟨fun hon => ?_, ?_, fun hpend => ⟨fun a ha hon => ?_, hbase.recovery hpend⟩,
      fun hin => ⟨(hsettled.inactive hin).1, (hsettled.inactive hin).2 (hreq s hs)⟩,
      hsettled.down, fun hmode a ha b hb hona honb => ?_, hserver, fun a ha => ?_⟩
    · obtain ⟨a, ha, hona⟩ := hsettled.active hon (hreq s hs)
      exact ⟨a, ha, isActive_iff_state.mp hona⟩
    · rw [htimer]
      simp [serverState]
    · have hoff := hsettled.pending hpend a ha
      exact Bool.false_ne_true (hoff.symm.trans (isActive_iff_state.mpr hon))
    · exact hsettled.single hmode a ha b hb (isActive_iff_state.mpr hona)
        (isActive_iff_state.mpr honb)
    · exact hasp a ((hl a s).mp ha) List.not_mem_nil
  · intro a s ha
    exact ((hp.sound s).base.flag a ha).1

/-- A gateway with one server, which two ASPs are configured in, and an ASP that is in none. -/
def gateway : Layout :=
  ⟨[⟨"asp-0", [0], true⟩, ⟨"asp-1", [0], true⟩, ⟨"spare", [], true⟩],
    [⟨"as", 100, .override, [0, 1], 1, some 2000⟩]⟩

/-- The last active ASP of a server goes down: T(r) runs. -/
theorem state_justified_of_gateway :
    (Machine.run (watching gateway) (new, Seen.new)
      [.up 0 none, .up 1 none, .active 0 none none, .down 0]).2.timer 0 = true := by
  have hjustified := (state_justified (l := gateway) (by decide) (by decide)
    [.up 0 none, .up 1 none, .active 0 none none, .down 0]).1 0 (by decide)
  exact hjustified.2.1.mp (by decide)

/-- A server that needs no active ASP. -/
def undemanding : Layout := ⟨[⟨"asp-0", [0], true⟩], [⟨"as", 100, .loadshare, [0], 0, none⟩]⟩

/-- A server that needs no active ASP is active without one. An ASP that is up is inactive in a
server that it is not configured in, and no action says so. -/
theorem active_without_asp :
    (undemanding.Consistent ∧
      let p := Machine.run (watching undemanding) (new, Seen.new) [.up 0 none]
      p.1.serverState 0 = .active ∧
        ∀ a ∈ (undemanding.server 0).asps, p.1.aspState undemanding a 0 ≠ .active) ∧
    gateway.Consistent ∧ gateway.Demanding ∧
      let p := Machine.run (watching gateway) (new, Seen.new) [.up 2 none]
      p.1.aspState gateway 2 0 = .inactive ∧ p.2.asp 2 0 = .down := by
  decide

/-- What is not in the front of a list is in the rest of it. -/
theorem split_of_not_mem {front rest pre post : List Action} {x : Action}
    (h : front ++ rest = pre ++ x :: post) (hx : x ∉ front) :
    ∃ mid, pre = front ++ mid ∧ rest = mid ++ x :: post := by
  rcases List.append_eq_append_iff.mp h with ⟨mid, hpre, hrest⟩ | ⟨mid, hfront, hpost⟩
  · exact ⟨mid, hpre, hrest⟩
  · cases mid with
    | nil => exact ⟨[], by simpa using hfront.symm, by simpa using hpost.symm⟩
    | cons y mid =>
      obtain rfl : x = y := (List.cons.inj hpost).1
      exact absurd (by simp [hfront]) hx

/-- After every event an ASP of the gateway that is up was last told the state of each of its
servers. What follows from a request comes after its acknowledgement, and whoever is down is
answered at most. -/
theorem asps_informed (hl : l.Consistent) (inputs : List Input) (input : Input) :
    let before := Machine.run (watching l) (new, Seen.new) inputs
    let out := (before.1.handle l input).2
    let after := watching l before input
    (∀ a s, (l.asp a).gateway = true → (after.1.asps a).up = true → s ∈ (l.asp a).servers →
      after.2.told a s = some (after.1.serverState s)) ∧
    (∀ a, input.asks = some a → (l.asp a).gateway = true →
      ∀ pre post b s status id context,
        out = pre ++ .send b (.notify s status id context) :: post →
        (∃ message, Action.send a message ∈ pre ∧ message.acknowledges input = true) ∧
        ∀ message, message.answers = true → ∀ b, Action.send b message ∉ post) ∧
    ∀ pre post b message, out = pre ++ .send b message :: post →
      (message.answers = true ∧ input.asks = some b) ∨
      ∃ s status id context, message = .notify s status id context ∧
        (pre.foldl Seen.see (before.2.expire input)).asp b s ≠ .down := by
  intro before out after
  have hbefore : Level l before := level_run hl inputs
  obtain ⟨hafter, hclean⟩ := hbefore.step hl input
  obtain ⟨front, rest, hout, hfront, hrest, hack⟩ := react_shape l hbefore.out input
  have hanswer : ∀ b message, Action.send b message ∈ rest → message.answers = false := by
    intro b message hmem
    by_contra hm
    exact hrest _ hmem (about_send_eq_none.mpr (by simpa using hm))
  refine ⟨fun a s hg hup hs => ?_, ?_, ?_⟩
  · have hseen : after.1.seen after.2 = after.2 := by rw [seen, hafter.out]; rfl
    have htold := (hafter.sound s).base.told a ((hl a s).mp hs) hg hup List.not_mem_nil
    rw [hseen] at htold
    exact htold
  · intro a ha hg pre post b s status id context hsplit
    have hnot : Action.send b (.notify s status id context) ∉ front := by
      intro hmem
      obtain ⟨_, message, heq, hm, -⟩ := hfront _ hmem
      rw [← (Action.send.inj heq).2] at hm
      exact Bool.false_ne_true hm
    obtain ⟨mid, hpre, hmid⟩ := split_of_not_mem (hout.symm.trans hsplit) hnot
    have hne : rest ≠ [] := by
      rintro rfl
      simp at hmid
    obtain ⟨message, hmem, hm⟩ := hack hne a ha hg
    refine ⟨⟨message, ?_, hm⟩, fun message hm b' hmem => ?_⟩
    · rw [hpre]
      exact List.mem_append_left _ hmem
    · have hin : Action.send b' message ∈ rest := by
        rw [hmid]
        simp [hmem]
      exact Bool.false_ne_true ((hanswer b' message hin).symm.trans hm)
  · intro pre post b message hsplit
    cases hm : message.answers with
    | true =>
      left
      have hmem : Action.send b message ∈ front := by
        have hin : Action.send b message ∈ out := by simp [hsplit]
        rcases List.mem_append.mp (hout ▸ hin : Action.send b message ∈ front ++ rest) with
          hin | hin
        · exact hin
        · exact absurd ((hanswer b message hin).symm.trans hm) Bool.false_ne_true
      obtain ⟨a, _, heq, -, ha⟩ := hfront _ hmem
      rw [(Action.send.inj heq).1]
      exact ⟨rfl, ha⟩
    | false =>
      right
      have hfine : Machine.Along Seen.see (Fine l) (before.2.expire input)
          (pre ++ .send b message :: post) := hsplit ▸ hclean
      have hhere := ((Machine.along_append _ _ _).mp hfine).2.1
      cases message with
      | notify s status id context => exact ⟨s, status, id, context, rfl, hhere⟩
      | _ => exact absurd hm.symm Bool.false_ne_true

/-- An ASP that stayed is told that the server lost the other one. -/
theorem asps_informed_of_gateway :
    (watching gateway (Machine.run (watching gateway) (new, Seen.new)
      [.up 0 none, .up 1 none, .active 0 none none]) (.down 0)).2.told 1 0 = some .pending := by
  have hinformed := (asps_informed (l := gateway) (by decide)
    [.up 0 none, .up 1 none, .active 0 none none] (.down 0)).1 1 0 rfl (by decide) (by decide)
  exact hinformed.trans (by decide)

end Aspm

end SiphonSigtran.Transport
