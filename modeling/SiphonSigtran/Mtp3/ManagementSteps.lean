import SiphonSigtran.Mtp3.ManagementMoves

/-!
# Every input runs as moves

`Unmoved` is what the functions that only tell somebody something leave alone.
One lemma for each handler takes it apart into moves; `process_steps` puts these
together, for a state between two inputs.
-/

namespace SiphonSigtran.Mtp3

open Management

variable {G : Guard}

namespace Management

/-- The restart of the adjacent point of the linkset begins when one of its links is
restored. -/
def adjacentBegins (m : Management) (L : LinksetId) : Bool :=
  !m.restarting && !(m.linksets L).restarting && !m.linksetAvailable L &&
    (m.adjacentOf L).any fun pc => !m.reachable pc

/-- The link is restored when its changeover is complete. -/
def comesBack (m : Management) (l : LinkId) : Bool :=
  (m.links l).back && (m.links l).up && !(m.links l).remoteInhibited

/-- The link a message from an adjacent point is about. -/
def linkNamed (m : Management) (arrived : LinkId) (opc slc : ℕ) : Option LinkId :=
  (m.linksetFrom opc arrived).bind fun L => (m.linksOf L).find? fun l => m.slcOf l = slc

/-- A message about the link restores it. -/
def restoredBy (m : Management) (l : LinkId) : ManagementMessage → Bool
  | .xca _ | .coa | .eca => (m.links l).phase = .changeoverOrdered && m.comesBack l
  | .lun => (m.links l).phase = .closed && (m.links l).up && (m.links l).remoteInhibited
  | _ => false

/-- The link that an input restores. -/
def restored (m : Management) : Input → Option LinkId
  | .linkUp l =>
    if m.hasLink l && (m.links l).phase = .closed && !(m.links l).remoteInhibited then some l
    else none
  | .timeout (.changeover l) =>
    if m.hasLink l && (m.links l).phase.changingOver && m.comesBack l then some l else none
  | .received arrived opc slc message =>
    if m.hasLink arrived then
      (m.linkNamed arrived opc slc).filter fun l => m.restoredBy l message
    else none
  | _ => none

/-- The input begins the restart of this node. -/
def restartBegins (m : Management) : Input → Bool
  | .linkUp l => m.hasLink l && m.restartDue && !m.restarting && m.isolated
  | _ => false

/-- The input allows every route through the linkset: it begins the restart of this node, or
that of the adjacent point. -/
def allows (m : Management) (input : Input) (L : LinksetId) : Bool :=
  m.restartBegins input ||
    (m.adjacentBegins L && (m.restored input).any fun l => m.linksetOf l = L)

/-- The input is a message of the adjacent point of the linkset about a destination. -/
def marks (m : Management) (input : Input) (d : ℕ) (L : LinksetId) (status : RouteStatus) :
    Bool :=
  match input with
  | .received arrived opc _ message =>
    m.hasLink arrived && m.linksetFrom opc arrived = some L &&
      (match status with
        | .prohibited => message = .tfp d
        | .restricted => message = .tfr d
        | .allowed => message = .tfa d)
  | _ => false

/-- What an input may do to the routes. -/
def guardOf (m : Management) (input : Input) : Guard where
  allow L := m.allows input L = true
  mark d L status := m.marks input d L status = true
  pause d on := input = .paused d on
  expire t := input = .timeout t

end Management

/-- An entry that says what is believed or told of a destination. -/
def Entry.belief : Entry → Bool
  | .act (.accessibility _ _) | .act (.restricted _ _) | .act (.start (.prohibited _) _)
  | .act (.send _ _ (.tfp _) _) | .act (.send _ _ (.tfa _) _) | .resynced _ => true
  | _ => false

/-- Between the two states no link, no route, no server and no restart moved. -/
structure Unmoved (m m' : Management) : Prop where
  topology : m'.topology = m.topology
  timers : m'.timers = m.timers
  tfpUnknown : m'.tfpUnknown = m.tfpUnknown
  links : m'.links = m.links
  servers : m'.servers = m.servers
  without : m'.without = m.without
  restarting : m'.restarting = m.restarting
  restartDue : m'.restartDue = m.restartDue
  isolated : m'.isolated = m.isolated
  nextCode : m'.nextCode = m.nextCode
  linkset : ∀ L, m'.linksets L = { m.linksets L with synced := (m'.linksets L).synced }
  destination : ∀ d, m'.destinations d =
    { m.destinations d with
      accessible := (m'.destinations d).accessible
      restricted := (m'.destinations d).restricted
      told := (m'.destinations d).told }
  out : ∃ es, m'.out = m.out ++ es ∧ ∀ e ∈ es, e.belief = true

namespace Unmoved

theorem refl (m : Management) : Unmoved m m :=
  ⟨rfl, rfl, rfl, rfl, rfl, rfl, rfl, rfl, rfl, rfl, fun _ => rfl, fun _ => rfl, [], by simp⟩

theorem trans {m m' m'' : Management} (h : Unmoved m m') (h' : Unmoved m' m'') :
    Unmoved m m'' where
  topology := h'.topology.trans h.topology
  timers := h'.timers.trans h.timers
  tfpUnknown := h'.tfpUnknown.trans h.tfpUnknown
  links := h'.links.trans h.links
  servers := h'.servers.trans h.servers
  without := h'.without.trans h.without
  restarting := h'.restarting.trans h.restarting
  restartDue := h'.restartDue.trans h.restartDue
  isolated := h'.isolated.trans h.isolated
  nextCode := h'.nextCode.trans h.nextCode
  linkset L := by rw [h'.linkset L, h.linkset L]
  destination d := by rw [h'.destination d, h.destination d]
  out := by
    obtain ⟨es, he, hes⟩ := h.out
    obtain ⟨es', he', hes'⟩ := h'.out
    refine ⟨es ++ es', by rw [he', he, List.append_assoc], ?_⟩
    intro e hmem
    rcases List.mem_append.mp hmem with hmem | hmem
    · exact hes e hmem
    · exact hes' e hmem

theorem routes {m m' : Management} (h : Unmoved m m') (d : ℕ) :
    (m'.destinations d).routes = (m.destinations d).routes := by rw [h.destination d]

theorem paused {m m' : Management} (h : Unmoved m m') (d : ℕ) :
    (m'.destinations d).paused = (m.destinations d).paused := by rw [h.destination d]

theorem adjacentRestarting {m m' : Management} (h : Unmoved m m') (L : LinksetId) :
    (m'.linksets L).restarting = (m.linksets L).restarting := by rw [h.linkset L]

end Unmoved

namespace Management

/-- The routes in use depend on the links, the servers and the routes only. -/
theorem inUse_congr {m m' : Management} (ht : m'.topology = m.topology)
    (hl : ∀ l, m'.linkAvailable l = m.linkAvailable l) (hs : m'.servers = m.servers) {d : ℕ}
    (hr : (m'.destinations d).routes = (m.destinations d).routes)
    (hp : (m'.destinations d).paused = (m.destinations d).paused) : m'.inUse d = m.inUse d := by
  have husable : ∀ r, m'.usable (m'.destinations d) r = m.usable (m.destinations d) r := by
    intro r
    simp only [usable, linksetAvailable, linksOf, ht, hl, hs, hp]
    rfl
  unfold inUse destination?
  rw [ht]
  split_ifs
  · simp only [hr]
    exact routesInUse_congr _ fun r _ => husable r
  · rfl

end Management

namespace Unmoved

variable {m m' : Management}

theorem linkAvailable (h : Unmoved m m') (l : LinkId) :
    m'.linkAvailable l = m.linkAvailable l := by
  simp only [Management.linkAvailable, h.without, h.links]

theorem linksetSignalling (h : Unmoved m m') (L : LinksetId) :
    m'.linksetSignalling L = m.linksetSignalling L := by
  simp only [Management.linksetSignalling, Management.linksOf, h.topology, h.links]

theorem linksetAvailable (h : Unmoved m m') (L : LinksetId) :
    m'.linksetAvailable L = m.linksetAvailable L := by
  simp only [Management.linksetAvailable, Management.linksOf, h.topology, h.linkAvailable]

theorem inUse (h : Unmoved m m') (d : ℕ) : m'.inUse d = m.inUse d :=
  inUse_congr h.topology h.linkAvailable h.servers (h.routes d) (h.paused d)

theorem reachable (h : Unmoved m m') (d : ℕ) : m'.reachable d = m.reachable d := by
  simp only [Management.reachable, h.inUse]

theorem canTell (h : Unmoved m m') (L : LinksetId) : m'.canTell L = m.canTell L := by
  simp only [Management.canTell, h.linksetSignalling, h.reachable, Management.adjacentOf,
    h.topology]

theorem onlyRestricted (h : Unmoved m m') (d : ℕ) :
    m'.onlyRestricted d = m.onlyRestricted d := by
  have husable : m'.usable (m'.destinations d) = m.usable (m.destinations d) := by
    funext r
    simp only [usable, h.linksetAvailable, h.servers, h.paused]
  unfold Management.onlyRestricted destination?
  rw [h.topology, h.inUse]
  split_ifs
  · simp only [h.routes, husable]
  · rfl

theorem prohibitedToward (h : Unmoved m m') (d : ℕ) (L : LinksetId) :
    m'.prohibitedToward d L = m.prohibitedToward d L := by
  unfold Management.prohibitedToward destination?
  rw [h.topology, h.inUse]
  split_ifs
  · simp only [h.routes]
  · rfl

end Unmoved

/-- What only tells somebody something: moves that leave nothing to look at, and no traffic
moved. -/
def Quiet (m m' : Management) : Prop := (∀ {G : Guard} (P), Steps G P m P m') ∧ Unmoved m m'

namespace Quiet

theorem refl (m : Management) : Quiet m m := ⟨fun P => Steps.refl P m, Unmoved.refl m⟩

theorem trans {m m' m'' : Management} (h : Quiet m m') (h' : Quiet m' m'') : Quiet m m'' :=
  ⟨fun P => (h.1 P).trans (h'.1 P), h.2.trans h'.2⟩

theorem foldl {α : Type*} {f : Management → α → Management} {xs : List α} {m : Management}
    {I : Management → Prop} (hI : ∀ {m m'}, Unmoved m m' → I m → I m')
    (hf : ∀ m, I m → ∀ x ∈ xs, Quiet m (f m x)) (hm : I m) : Quiet m (xs.foldl f m) := by
  induction xs generalizing m with
  | nil => exact refl m
  | cons x xs ih =>
    have hx := hf m hm x (by simp)
    exact hx.trans (ih (fun m hm y hy => hf m hm y (by simp [hy])) (hI hx.2 hm))

end Quiet

namespace Management

@[simp] theorem setDestination_self (m : Management) (d : ℕ)
    (f : DestinationState → DestinationState) :
    (m.setDestination d f).destinations d = f (m.destinations d) := by simp [setDestination]

theorem setDestination_ne (m : Management) {d e : ℕ} (f : DestinationState → DestinationState)
    (h : e ≠ d) : (m.setDestination d f).destinations e = m.destinations e := by
  simp [setDestination, h]

theorem setDestination_setDestination (m : Management) (d : ℕ)
    (f g : DestinationState → DestinationState) :
    (m.setDestination d f).setDestination d g = m.setDestination d fun s => g (f s) := by
  unfold setDestination
  congr 1
  funext e
  by_cases he : e = d <;> simp [he]

@[simp] theorem push_destinations (m : Management) (a : Action) :
    (m.push a).destinations = m.destinations := rfl

@[simp] theorem extend_destinations (m : Management) (xs : List Action) :
    (m.extend xs).destinations = m.destinations := rfl

/-- Changing what is believed of a destination, and saying so. -/
theorem unmoved_believe (m : Management) (d : ℕ) (f : DestinationState → DestinationState)
    (xs : List Action) (hf : ∀ s, f s = { s with
      accessible := (f s).accessible
      restricted := (f s).restricted
      told := (f s).told })
    (hxs : ∀ a ∈ xs, (Entry.act a).belief = true) :
    Unmoved m ((m.setDestination d f).extend xs) where
  topology := rfl
  timers := rfl
  tfpUnknown := rfl
  links := rfl
  servers := rfl
  without := rfl
  restarting := rfl
  restartDue := rfl
  isolated := rfl
  nextCode := rfl
  linkset _ := rfl
  destination e := by
    by_cases he : e = d
    · subst he
      simp only [extend_destinations, setDestination_self]
      exact hf _
    · simp only [extend_destinations, setDestination_ne m f he]
  out := ⟨xs.map .act, rfl, by simpa using hxs⟩

theorem unmoved_say (m : Management) (a : Action) (h : (Entry.act a).belief = true) :
    Unmoved m (m.push a) :=
  ⟨rfl, rfl, rfl, rfl, rfl, rfl, rfl, rfl, rfl, rfl, fun _ => rfl, fun _ => rfl, [.act a], rfl,
    by simpa using h⟩

theorem guard_quiet (m : Management) (d : ℕ) : Quiet m (m.guard d) := by
  refine ⟨fun P => (Move.guard d).steps, ?_⟩
  exact ⟨rfl, rfl, rfl, rfl, rfl, rfl, rfl, rfl, rfl, rfl, fun _ => rfl, fun _ => rfl,
    [.act (.start (.prohibited d) m.timers.t8)], rfl, by simp [Entry.belief]⟩

/-- A destination becomes accessible or inaccessible, and that is said. -/
theorem accessible_quiet {m : Management} {d : ℕ} {on : Bool} (h : m.reachable d = on)
    (hd : (m.destinations d).accessible ≠ on) :
    Quiet m ((m.setDestination d fun s =>
      { s with accessible := on, restricted := on && s.restricted }).push
        (.accessibility d on)) :=
  ⟨fun _ => (Move.accessible d on h hd).steps,
    unmoved_believe m d _ [_] (fun _ => rfl) (by simp [Entry.belief])⟩

/-- What a destination that nothing reaches becomes. -/
theorem settleDestination_lost {m : Management} {d : ℕ} (h : m.reachable d = false) :
    Quiet m (m.settleDestination d) ∧
      ((m.settleDestination d).destinations d).accessible = false ∧
      ((m.settleDestination d).destinations d).restricted = false := by
  unfold settleDestination
  extract_lets accessible restricted m₁ m' m₂
  have haccessible : accessible = false := h
  clear_value accessible
  subst haccessible
  have hm₁ : m₁ = m.setDestination d fun s => { s with restricted := false } := by simp [m₁]
  have hm' : m' = (m.setDestination d fun s =>
      { s with accessible := false, restricted := false && s.restricted }).push
        (.accessibility d false) := by
    simp only [m', hm₁, setDestination_setDestination, Bool.false_and]
  simp only [Bool.false_and, Bool.false_eq_true, ↓reduceIte, m₂]
  by_cases hd : (m.destinations d).accessible = false
  · have hsame : ¬(m₁.destinations d).accessible ≠ false := by simp [m₁, hd]
    rw [if_neg hsame]
    refine ⟨⟨fun P => (Move.unmarked d h hd).steps, ?_⟩, by simp [m₁, hd], by simp [m₁]⟩
    have hout := unmoved_believe m d (fun s => { s with restricted := false }) [] (fun _ => rfl)
      (by simp)
    rwa [extend_nil, ← hm₁] at hout
  · have hchanged : (m₁.destinations d).accessible ≠ false := by simpa [m₁] using hd
    rw [if_pos hchanged, hm']
    have hquiet := accessible_quiet h hd
    split_ifs with hg
    · exact ⟨hquiet.trans (guard_quiet _ d), by simp [guard], by simp [guard]⟩
    · exact ⟨hquiet, by simp, by simp⟩

/-- What a destination that something reaches becomes. -/
theorem settleDestination_reached {m : Management} {d : ℕ} (h : m.reachable d = true) :
    Quiet m (m.settleDestination d) ∧
      ((m.settleDestination d).destinations d).accessible = true ∧
      ((m.settleDestination d).destinations d).restricted = m.onlyRestricted d := by
  unfold settleDestination
  extract_lets accessible restricted m₁ m' m₂
  have haccessible : accessible = true := h
  have hrestricted : restricted = m.onlyRestricted d := by simp [restricted, haccessible]
  clear_value accessible restricted
  subst haccessible
  have hm₂ : Quiet m m₂ ∧ (m₂.destinations d).accessible = true := by
    by_cases hd : (m.destinations d).accessible = true
    · have hsame : m₂ = m := by simp [m₂, m₁, hd]
      rw [hsame]
      exact ⟨Quiet.refl m, hd⟩
    · have hsaid : m₂ = (m.setDestination d fun s =>
          { s with accessible := true, restricted := true && s.restricted }).push
            (.accessibility d true) := by
        simp [m₂, m', m₁, hd]
      rw [hsaid]
      exact ⟨accessible_quiet h hd, by simp⟩
  clear_value m₂
  simp only [Bool.true_and, decide_eq_true_eq]
  split_ifs with hr
  · have honly : m₂.onlyRestricted d = restricted := (hm₂.1.2.onlyRestricted d).trans
      hrestricted.symm
    refine ⟨hm₂.1.trans ⟨fun P => ?_, ?_⟩, by simp [hm₂.2], by simp [hrestricted]⟩
    · exact (Move.restricted d restricted ((hm₂.1.2.reachable d).trans h) honly hm₂.2 hr).steps
    · exact unmoved_believe m₂ d _ [_] (fun _ => rfl) (by simp [Entry.belief])
  · exact ⟨hm₂.1, hm₂.2, (not_not.mp hr).trans hrestricted⟩

theorem settleDestination_quiet (m : Management) (d : ℕ) : Quiet m (m.settleDestination d) := by
  cases h : m.reachable d with
  | false => exact (settleDestination_lost h).1
  | true => exact (settleDestination_reached h).1

theorem resync_quiet {m : Management} (hr : m.restarting = false) (L : LinksetId) :
    Quiet m (m.resync L) := by
  refine ⟨fun P => (Move.resync L hr).steps, ?_⟩
  refine ⟨rfl, rfl, rfl, rfl, rfl, rfl, rfl, rfl, rfl, rfl, fun K => ?_, fun _ => rfl,
    [.resynced L], rfl, by simp [Entry.belief]⟩
  by_cases hK : K = L <;> simp [resync, setLinkset, hK]

theorem unsync_quiet (m : Management) (L : LinksetId) :
    Quiet m (m.setLinkset L fun s => { s with synced := false }) := by
  refine ⟨fun P => (Move.unsync L).steps, ?_⟩
  refine ⟨rfl, rfl, rfl, rfl, rfl, rfl, rfl, rfl, rfl, rfl, fun K => ?_, fun _ => rfl,
    [], by simp [setLinkset], by simp⟩
  by_cases hK : K = L <;> simp [setLinkset, hK]

theorem about_eq {d : ℕ} {make : ℕ → ManagementMessage} {message : ManagementMessage}
    (h : about d make = some message) : message = make d := by
  unfold about at h
  split_ifs at h
  exact (Option.some.inj h).symm

theorem setDestination_congr (m : Management) {d : ℕ} {f g : DestinationState → DestinationState}
    (h : f (m.destinations d) = g (m.destinations d)) :
    m.setDestination d f = m.setDestination d g := by
  unfold setDestination
  congr 1
  funext e
  split_ifs with he
  · rw [he, h]
  · rfl

/-- A belief that has changed is noted, and the adjacent point told. -/
theorem settleBelief_changed {m : Management} {L : LinksetId} {adjacent d : ℕ}
    (hda : d ≠ adjacent)
    (h : decide (L ∈ (m.destinations d).told) ≠ m.prohibitedToward d L) :
    m.settleBelief L adjacent d =
      (m.setDestination d fun s => { s with
        told := if m.prohibitedToward d L then insert L s.told else s.told.erase L }).extend
          (((if m.prohibitedToward d L then about d .tfp else about d .tfa).map fun message =>
            Action.send adjacent 0 message (.adjacent L none)).toList) := by
  unfold settleBelief
  rw [if_neg hda]
  dsimp only
  have hown : (m.setDestination d fun s => { s with
      told := if m.prohibitedToward d L then insert L (m.destinations d).told
        else (m.destinations d).told.erase L }) =
      m.setDestination d fun s => { s with
        told := if m.prohibitedToward d L then insert L s.told else s.told.erase L } :=
    setDestination_congr m rfl
  rw [if_neg h, hown]
  cases hm : (if m.prohibitedToward d L = true then about d ManagementMessage.tfp
    else about d ManagementMessage.tfa) with
  | none => simp
  | some message => rfl

theorem settleBelief_same {m : Management} {L : LinksetId} {adjacent d : ℕ}
    (h : d = adjacent ∨ decide (L ∈ (m.destinations d).told) = m.prohibitedToward d L) :
    m.settleBelief L adjacent d = m := by
  unfold settleBelief
  rcases h with h | h
  · rw [if_pos h]
  · simp only [h, ↓reduceIte, ite_self]

theorem told_quiet {m : Management} (hr : m.restarting = false) {L : LinksetId} {adjacent : ℕ}
    (ha : m.adjacentOf L = some adjacent) {d : ℕ} (hd : d ∈ m.topology.dpcs) (want : Bool) :
    Quiet m ((m.setDestination d fun s =>
      { s with told := if want then insert L s.told else s.told.erase L }).extend
        (((if want then about d .tfp else about d .tfa).map fun message =>
          Action.send adjacent 0 message (.adjacent L none)).toList)) := by
  refine ⟨fun P => (Move.told L adjacent d want hr ha hd).steps, ?_⟩
  refine unmoved_believe m d _ _ (fun _ => rfl) fun a hmem => ?_
  obtain ⟨message, hm, rfl⟩ := Option.map_eq_some_iff.mp (Option.mem_toList.mp hmem)
  split_ifs at hm
  · rw [about_eq hm]; rfl
  · rw [about_eq hm]; rfl

theorem settleBelief_quiet {m : Management} (hr : m.restarting = false) {L : LinksetId}
    {adjacent : ℕ} (ha : m.adjacentOf L = some adjacent) {d : ℕ} (hd : d ∈ m.topology.dpcs) :
    Quiet m (m.settleBelief L adjacent d) := by
  by_cases hsame : d = adjacent ∨
      decide (L ∈ (m.destinations d).told) = m.prohibitedToward d L
  · rw [settleBelief_same hsame]
    exact Quiet.refl m
  obtain ⟨hda, hne⟩ := not_or.mp hsame
  rw [settleBelief_changed hda hne]
  exact told_quiet hr ha hd _

/-- A node that is not restarting, and the topology, stay so while nothing moves. -/
theorem settleLinkset_quiet {m : Management} (hr : m.restarting = false) (L : LinksetId) :
    Quiet m (m.settleLinkset L) := by
  unfold settleLinkset
  cases ha : m.adjacentOf L with
  | none => exact Quiet.refl m
  | some adjacent =>
    dsimp only
    split_ifs with hc hs
    · exact unsync_quiet m L
    · refine Quiet.foldl (I := fun m' => m'.topology = m.topology ∧ m'.restarting = false)
        (fun h hI => ⟨h.topology.trans hI.1, h.restarting.trans hI.2⟩) ?_ ⟨rfl, hr⟩
      rintro m' ⟨ht, hr'⟩ d hd
      exact settleBelief_quiet hr' (by rw [← ha]; simp [adjacentOf, ht]) (by rw [ht]; exact hd)
    · refine (resync_quiet hr L).trans ?_
      refine Quiet.foldl (I := fun m' => m'.topology = m.topology ∧ m'.restarting = false)
        (fun h hI => ⟨h.topology.trans hI.1, h.restarting.trans hI.2⟩) ?_ ⟨rfl, hr⟩
      rintro m' ⟨ht, hr'⟩ d hd
      exact settleBelief_quiet hr' (by rw [← ha]; simp [adjacentOf, ht]) (by rw [ht]; exact hd)

theorem settle_quiet (m : Management) : Quiet m m.settle := by
  unfold settle
  extract_lets m₁
  have h₁ : Quiet m m₁ := Quiet.foldl (I := fun _ => True) (fun _ _ => trivial)
    (fun m _ d _ => settleDestination_quiet m d) trivial
  split_ifs with hr
  · exact h₁
  · refine h₁.trans (Quiet.foldl (I := fun m => m.restarting = false)
      (fun h hI => h.restarting.trans hI) (fun m hm L _ => settleLinkset_quiet hm L) ?_)
    simpa using hr

end Management

/-! ## Saying something -/

namespace Steps

variable {P P' : Set Subject} {m m' : Management}

theorem say (h : Steps G P m P' m') {a : Action} (ha : a.plain = true) :
    Steps G P m P' (m'.push a) :=
  h.trans (Move.say a ha).steps

theorem sayAll (h : Steps G P m P' m') {xs : List Action} (hxs : ∀ a ∈ xs, a.plain = true) :
    Steps G P m P' (m'.extend xs) := by
  induction xs generalizing m' with
  | nil => simpa using h
  | cons a xs ih =>
    have := ih (h.say (hxs a (by simp))) fun b hb => hxs b (by simp [hb])
    simpa [push_eq_extend] using this

theorem note (h : Steps G P m P' m') (procedure : Procedure) (subject : Subject) :
    Steps G P m P' (m'.note procedure subject) := h.say rfl

theorem ignored (h : Steps G P m P' m') (name why : String) :
    Steps G P m P' (m'.ignored name why) := h.say rfl

theorem send (h : Steps G P m P' m') (L : LinksetId) (slc : ℕ) {message : ManagementMessage}
    (path : Path) (hm : ∀ dpc, (Action.send dpc slc message path).plain = true) :
    Steps G P m P' (m'.send L slc message path) := by
  unfold Management.send
  split
  · exact h.say (hm _)
  · exact h

theorem settle (h : Steps G P m P' m') : Steps G P m P' m'.settle :=
  h.trans ((settle_quiet m').1 P')

theorem link (h : Steps G P m P' m') {P'' : Set Subject} {l : LinkId}
    {f : LinkState → LinkState} {outs : List Action} (hl : m'.hasLink l = true)
    (hf : LinkMove G m' l (m'.links l) (f (m'.links l)) outs P' P'') :
    Steps G P m P'' ((m'.setLink l f).extend outs) :=
  h.trans (Move.link l f outs hl hf).steps

theorem foldl {α : Type*} {f : Management → α → Management} {xs : List α}
    {I : Management → Prop} (hf : ∀ m, I m → ∀ x ∈ xs, Steps G P m P (f m x) ∧ I (f m x))
    (hm : I m) : Steps G P m P (xs.foldl f m) ∧ I (xs.foldl f m) := by
  induction xs generalizing m with
  | nil => exact ⟨refl P m, hm⟩
  | cons x xs ih =>
    obtain ⟨hx, hI⟩ := hf m hm x (by simp)
    obtain ⟨hxs, hIs⟩ := ih (fun m hm y hy => hf m hm y (by simp [hy])) hI
    exact ⟨hx.trans hxs, hIs⟩

end Steps

namespace Management

/-- Sending changes nothing but what is left for the caller. -/
theorem send_extend (m : Management) (L : LinksetId) (slc : ℕ) (message : ManagementMessage)
    (path : Path) : ∃ xs : List Action, m.send L slc message path = m.extend xs ∧
      ∀ a ∈ xs, ∃ dpc, a = .send dpc slc message path := by
  unfold send
  split
  · next dpc _ => exact ⟨[.send dpc slc message path], rfl, by simp⟩
  · exact ⟨[], by simp, by simp⟩

@[simp] theorem send_links (m : Management) (L : LinksetId) (slc : ℕ)
    (message : ManagementMessage) (path : Path) :
    (m.send L slc message path).links = m.links := by
  unfold send
  split <;> rfl

@[simp] theorem send_topology (m : Management) (L : LinksetId) (slc : ℕ)
    (message : ManagementMessage) (path : Path) :
    (m.send L slc message path).topology = m.topology := by
  unfold send
  split <;> rfl

@[simp] theorem setLink_timers (m : Management) (l : LinkId) (f : LinkState → LinkState) :
    (m.setLink l f).timers = m.timers := rfl

@[simp] theorem extend_timers (m : Management) (xs : List Action) :
    (m.extend xs).timers = m.timers := rfl

/-! ## Routes -/

theorem setDestination_extend (m : Management) (d : ℕ)
    (f : DestinationState → DestinationState) (xs : List Action) :
    (m.extend xs).setDestination d f = (m.setDestination d f).extend xs := rfl

theorem setDestination_id (m : Management) (d : ℕ) :
    m.setDestination d (fun _ => m.destinations d) = m := by
  unfold setDestination
  congr 1
  funext e
  by_cases he : e = d <;> simp [he]

theorem setDestination_extend_congr (m : Management) {d : ℕ}
    {f g : DestinationState → DestinationState} {xs ys : List Action}
    (h : f (m.destinations d) = g (m.destinations d)) (hx : xs = ys) :
    (m.setDestination d f).extend xs = (m.setDestination d g).extend ys := by
  rw [setDestination_congr m h, hx]

/-- The mark of a route is one move of the destination, and a note. -/
theorem markRoute_spec (m : Management) (L : LinksetId) (d : ℕ) (status : RouteStatus)
    (before after : List ℕ) :
    ∃ (s : DestinationState) (outs notes : List Action),
      MarkMove m.timers d L status (m.destinations d) s outs ∧
        (∀ a ∈ notes, ∃ how x, a = .note how x) ∧
        m.markRoute L d status before after =
          (m.setDestination d fun _ => s).extend (outs ++ notes) := by
  unfold markRoute
  extract_lets mark moves held m₁ m₂
  by_cases hs : status = .prohibited
  · rw [if_pos hs]
    let notes : List Action :=
      if moves ∧ before ≠ [] then [.note .forcedRerouting (.destination d)] else []
    have hnotes : ∀ a ∈ notes, ∃ how x, a = .note how x := by
      intro a ha
      simp only [notes] at ha
      split_ifs at ha
      · exact ⟨_, _, List.mem_singleton.mp ha⟩
      · cases ha
    have hnote : (if moves ∧ before ≠ [] then m₂.note .forcedRerouting (.destination d) else m₂) =
        m₂.extend notes := by
      simp only [notes]
      split_ifs
      · rfl
      · simp
    rw [hnote]
    have hheld : (m₁.destinations d).holding = (m.destinations d).holding := by simp [m₁]
    cases hh : (m.destinations d).holding with
    | true =>
      refine ⟨_, _, notes, .released hs hh, hnotes, ?_⟩
      have hm₂ : m₂ = _ := if_pos (hheld.trans hh)
      rw [hm₂]
      simp only [m₁, push_eq_extend, setDestination_extend, setDestination_setDestination,
        extend_extend, held, mark]
      exact setDestination_extend_congr m rfl (by simp)
    | false =>
      refine ⟨_, _, notes, .forced hs hh, hnotes, ?_⟩
      have hm₂ : m₂ = _ := if_neg (by rw [hheld, hh]; exact Bool.false_ne_true)
      rw [hm₂]
      simp only [m₁, push_eq_extend, extend_extend, held, mark]
      exact setDestination_extend_congr m rfl rfl
  · rw [if_neg hs]
    cases hh : (m.destinations d).holding with
    | true =>
      refine ⟨_, _, [], .deferred hs hh, by simp, ?_⟩
      simp only [↓reduceIte, List.append_nil, extend_nil, mark]
      exact setDestination_congr m rfl
    | false =>
      simp only [Bool.false_eq_true, ↓reduceIte]
      split_ifs
      · refine ⟨_, _, [.note .controlledRerouting (.destination d)], .held hs hh,
          by simp, ?_⟩
        simp only [note, push_eq_extend, extend_extend, mark]
        exact setDestination_extend_congr m rfl rfl
      · refine ⟨_, _, [], .marked hs hh, by simp, ?_⟩
        rw [setDestination_id, List.append_nil]
        rfl

/-- A message about a route says what it is not, or repeats it, or changes it. -/
theorem routeMessage_cases (m : Management) (L : LinksetId) (d : ℕ) (status : RouteStatus)
    (name : String) :
    (m.routeMessage L d status name =
      m.ignored name "there is no route to that destination through the sender") ∨
    m.routeMessage L d status name = m ∨
    ∃ i, d ∈ m.topology.dpcs ∧
      (m.destinations d).routes.findIdx? (fun r => r.via = .linkset L) = some i ∧
      (m.destinations d).routes[i]?.map RouteState.status ≠ some status ∧
      m.routeMessage L d status name =
        ((m.setDestination d fun s => s.setStatus i status).push
          (testTimer m d L status)).markRoute L d status (m.inUse d)
            ((m.setDestination d fun s => s.setStatus i status).inUse d) := by
  unfold routeMessage
  extract_lets position
  cases hp : position with
  | none => exact .inl rfl
  | some i =>
    obtain ⟨dest, hdest, hfind⟩ := Option.bind_eq_some_iff.mp hp
    have hd : d ∈ m.topology.dpcs := by
      by_contra hd
      simp [destination?, hd] at hdest
    obtain rfl : m.destinations d = dest := by simpa [destination?, hd] using hdest
    dsimp only
    right
    by_cases hsame : (m.destinations d).routes[i]?.map RouteState.status = some status
    · rw [if_pos hsame]
      exact .inl rfl
    · rw [if_neg hsame]
      refine .inr ⟨i, hd, hfind, hsame, ?_⟩
      congr 1
      unfold testTimer
      split_ifs <;> rfl

theorem routeMessage_steps (P : Set Subject) (m : Management) {L : LinksetId} {d : ℕ}
    {status : RouteStatus} (hg : G.mark d L status) (name : String) :
    Steps G P m P (m.routeMessage L d status name) := by
  rcases routeMessage_cases m L d status name with h | h | ⟨i, hd, hfind, hsame, h⟩
  · rw [h]
    exact (Steps.refl P m).ignored _ _
  · rw [h]
    exact Steps.refl P m
  · obtain ⟨s, outs, notes, hmove, hnotes, heq⟩ := markRoute_spec
      ((m.setDestination d fun s => s.setStatus i status).push (testTimer m d L status)) L d status
      (m.inUse d) ((m.setDestination d fun s => s.setStatus i status).inUse d)
    simp only [push_destinations, setDestination_self] at hmove
    have hmarked := (Move.mark (G := G) (P := P) d L status i s outs hg hd hfind hsame hmove).steps
    have hsaid : (((m.setDestination d fun s => s.setStatus i status).push
        (testTimer m d L status)).setDestination d fun _ => s).extend (outs ++ notes) =
        ((m.setDestination d fun _ => s).extend (testTimer m d L status :: outs)).extend notes := by
      simp only [push_eq_extend, setDestination_extend, setDestination_setDestination,
        extend_extend]
      rfl
    rw [h, heq, hsaid]
    refine hmarked.sayAll fun a ha => ?_
    obtain ⟨how, x, rfl⟩ := hnotes a ha
    rfl

theorem tell_eq {m : Management} {L : LinksetId} {adjacent : ℕ}
    (ha : m.adjacentOf L = some adjacent) (slc : ℕ) (message : ManagementMessage) :
    m.tell L slc message = m.push (.send adjacent slc message (.adjacent L none)) := by
  simp only [tell, send, ha]

theorem routeSetTest_steps (P : Set Subject) {m : Management} (hr : m.restarting = false)
    {L : LinksetId} {adjacent : ℕ} (ha : m.adjacentOf L = some adjacent) (d : ℕ)
    (believes : RouteStatus) : Steps G P m P (m.routeSetTest L d believes) := by
  unfold routeSetTest
  extract_lets prohibited actual message m₁
  by_cases hbelief : actual = believes
  · rw [if_pos hbelief]
    exact Steps.refl P m
  rw [if_neg hbelief]
  cases hm : message with
  | none => exact Steps.refl P m
  | some text =>
    by_cases hd : d ∈ m.topology.dpcs
    · have htold := (Move.told (G := G) (P := P) L adjacent d prohibited hr ha hd).steps
      have hmessage : (if prohibited = true then about d ManagementMessage.tfp
          else about d ManagementMessage.tfa) = some text := hm
      rw [hmessage] at htold
      have hm₁ : m₁ = _ := if_pos hd
      rw [hm₁]
      dsimp only
      rw [tell_eq (by simpa [adjacentOf, setDestination] using ha)]
      exact htold
    · have hm₁ : m₁ = m := if_neg hd
      rw [hm₁]
      dsimp only
      rw [tell_eq ha]
      refine (Move.toldUnknown L adjacent d text hr ha hd ?_).steps
      simp only [message] at hm
      split_ifs at hm
      · exact .inl (about_eq hm)
      · exact .inr (about_eq hm)

theorem unroutable_quiet (m : Management) (d : ℕ) (l : LinkId) : Quiet m (m.unroutable d l) := by
  unfold unroutable
  by_cases hskip : m.restarting = true ∨ d = m.topology.ownPc ∨ d ∈ m.guarded
  · rw [if_pos hskip]
    exact Quiet.refl m
  rw [if_neg hskip]
  have hr : m.restarting = false := by simpa using (not_or.mp hskip).1
  cases ha : m.adjacentOf (m.linksetOf l) with
  | none => simpa [ha] using Quiet.refl m
  | some adjacent =>
    cases hm : about d .tfp with
    | none => simpa [ha] using Quiet.refl m
    | some text =>
      simp only [ha, reduceCtorEq, ↓reduceIte]
      by_cases hd : d ∈ m.topology.dpcs
      · have htold := told_quiet hr ha hd true
        simp only [↓reduceIte, hm] at htold
        rw [if_pos hd, tell_eq (by simpa [adjacentOf, setDestination] using ha)]
        exact htold.trans (guard_quiet _ d)
      · rw [if_neg hd]
        split_ifs
        · exact Quiet.refl m
        · rw [tell_eq ha]
          have htext := about_eq hm
          refine Quiet.trans ⟨fun P => ?_, unmoved_say m _ (by rw [htext]; rfl)⟩ (guard_quiet _ d)
          exact (Move.toldUnknown (m.linksetOf l) adjacent d text hr ha hd (.inl htext)).steps

theorem watchIsolation_steps (P : Set Subject) (m : Management) :
    Steps G P m P m.watchIsolation := by
  unfold watchIsolation
  extract_lets isolated m₁
  by_cases hsame : isolated = m.isolated
  · rw [if_pos hsame]
    exact Steps.refl P m
  · rw [if_neg hsame]
    have hmove := (Move.isolated (G := G) (P := P) isolated hsame).steps
    cases hon : isolated with
    | true => simpa only [m₁, hon, ↓reduceIte] using hmove
    | false => simpa only [m₁, hon, Bool.false_eq_true, ↓reduceIte] using hmove

/-! ## Links that are restored -/

theorem timeControlledChangeback_steps {P : Set Subject} {m : Management} {l : LinkId}
    (hl : m.hasLink l = true) (hp : Subject.link l ∈ P) (hr : m.restarting = false)
    (hs : (m.links l).phase = .closed ∨ (m.links l).phase = .awaitRestart) :
    Steps G P m (P \ {Subject.link l}) (m.timeControlledChangeback l) := by
  have hmove := (Move.link (G := G) (P := P) l (fun s => { s with phase := .changebackTimed }) _ hl
    (.timed hp hr hs)).steps
  simpa only [timeControlledChangeback, push_eq_extend, extend_extend, List.cons_append,
    List.nil_append] using hmove

theorem startTraffic_steps {P : Set Subject} {m : Management} {l : LinkId}
    (hl : m.hasLink l = true) (hp : Subject.link l ∈ P) (hr : m.restarting = false)
    (hs : (m.links l).phase = .closed ∨ (m.links l).phase = .awaitRestart) :
    Steps G P m (P \ {Subject.link l}) (m.startTraffic l) := by
  unfold startTraffic
  extract_lets L diverted
  split_ifs
  · exact timeControlledChangeback_steps hl hp hr hs
  · have hopened := (Move.link (G := G) (P := P) l (fun s => { s with phase := .open }) [] hl
      (.opened hp hr hs)).steps
    rw [extend_nil] at hopened
    refine hopened.settle.trans (Move.opens l ?_).steps
    rw [(settle_quiet _).2.links]
    simp

/-- The declarations are messages, and take the codes that follow. -/
theorem declare_spec (m : Management) (l : LinkId) (alternatives : List LinkId) :
    ∃ (code : ℕ) (sends : List Action), (∀ a ∈ sends, a.plain = true) ∧
      (m.declare l alternatives).1 = { m with
        nextCode := code
        out := m.out ++ sends.map .act } := by
  induction alternatives generalizing m with
  | nil => exact ⟨m.nextCode, [], by simp, by simp [declare]⟩
  | cons alternative rest ih =>
    obtain ⟨xs, hxs, hplain⟩ := send_extend { m with nextCode := (m.nextCode + 1) % 256 }
      (m.linksetOf l) (m.slcOf l) (.cbd m.nextCode) (.behind alternative)
    obtain ⟨code, sends, hsends, heq⟩ :=
      ih ({ m with nextCode := (m.nextCode + 1) % 256 }.extend xs)
    refine ⟨code, xs ++ sends, ?_, ?_⟩
    · intro a ha
      rcases List.mem_append.mp ha with ha | ha
      · obtain ⟨dpc, rfl⟩ := hplain a ha
        rfl
      · exact hsends a ha
    · have hstep : (m.declare l (alternative :: rest)).1 =
          (({ m with nextCode := (m.nextCode + 1) % 256 }.extend xs).declare l rest).1 := by
        rw [← hxs]
        rfl
      rw [hstep, heq]
      simp [extend]

theorem setLinkset_setLinkset (m : Management) (L : LinksetId)
    (f g : LinksetState → LinksetState) :
    (m.setLinkset L f).setLinkset L g = m.setLinkset L fun s => g (f s) := by
  unfold setLinkset
  congr 1
  funext K
  by_cases hK : K = L <;> simp [hK]

@[simp] theorem setLinkset_self (m : Management) (L : LinksetId)
    (f : LinksetState → LinksetState) :
    (m.setLinkset L f).linksets L = f (m.linksets L) := by simp [setLinkset]

theorem setLinkset_ne (m : Management) {L K : LinksetId} (f : LinksetState → LinksetState)
    (h : K ≠ L) : (m.setLinkset L f).linksets K = m.linksets K := by simp [setLinkset, h]

theorem setLinkset_congr (m : Management) {L : LinksetId} {f g : LinksetState → LinksetState}
    (h : f (m.linksets L) = g (m.linksets L)) : m.setLinkset L f = m.setLinkset L g := by
  unfold setLinkset
  congr 1
  funext K
  split_ifs with hK
  · rw [hK, h]
  · rfl

theorem traSent_steps {P P' : Set Subject} {m m' : Management} (h : Steps G P m P' m')
    (L : LinksetId) (on : Bool) :
    Steps G P m P' (m'.setLinkset L fun s => { s with traSent := on }) := by
  have hflags : (m'.setLinkset L fun s => { s with traSent := on }) = m'.setLinkset L fun s =>
      { s with traSent := on, traReceived := (m'.linksets L).traReceived } :=
    setLinkset_congr m' rfl
  rw [hflags]
  exact h.trans (Move.flags L on _).steps

theorem traReceived_steps {P P' : Set Subject} {m m' : Management} (h : Steps G P m P' m')
    (L : LinksetId) (on : Bool) :
    Steps G P m P' (m'.setLinkset L fun s => { s with traReceived := on }) := by
  have hflags : (m'.setLinkset L fun s => { s with traReceived := on }) = m'.setLinkset L fun s =>
      { s with traSent := (m'.linksets L).traSent, traReceived := on } :=
    setLinkset_congr m' rfl
  rw [hflags]
  exact h.trans (Move.flags L _ on).steps

theorem restore_steps {P : Set Subject} {m : Management} {l : LinkId}
    (hg : m.adjacentBegins (m.linksetOf l) = true → G.allow (m.linksetOf l))
    (hl : m.hasLink l = true) (hp : Subject.link l ∈ P) (hs : (m.links l).phase = .closed) :
    Steps G P m (P \ {Subject.link l}) (m.restore l) := by
  unfold restore
  extract_lets L carrying declared m₁ m₂ m₃ m₄ m₅ m₆
  by_cases hr : m.restarting || (m.linksets L).restarting
  · rw [if_pos hr]
    have hmove := (Move.link (G := G) (P := P) l (fun s => { s with phase := .awaitRestart }) [] hl
      (.await hp hs (by simpa using hr))).steps
    rwa [extend_nil] at hmove
  rw [if_neg hr]
  obtain ⟨hnode, hadj⟩ : m.restarting = false ∧ (m.linksets L).restarting = false := by
    simpa using hr
  by_cases hav : m.linksetAvailable L
  · rw [if_pos hav]
    split_ifs
    · exact timeControlledChangeback_steps hl hp hnode (.inl hs)
    · obtain ⟨code, sends, hsends, heq⟩ := declare_spec (m.push (.hold l)) l carrying
      have hmove := (Move.link (G := G) (P := P) (m := { m with nextCode := code }) l (fun s =>
        { s with declared := declared.2, phase := .changebackDeclared false }) _ hl
          (.redirected declared.2 sends hp hnode hs hsends)).steps
      have hdeclared := (Move.codes code).steps.trans hmove
      convert hdeclared using 1
      rw [show declared.1 = _ from heq]
      simp [push, setLink, extend]
  rw [if_neg hav]
  by_cases hpc : (m.adjacentOf L).any fun pc => !m.reachable pc
  · rw [if_pos hpc]
    let m₀ := (m.setLinkset L fun s => { s with synced := false }).allowRoutesThrough L
    have hbegins : m.adjacentBegins L = true := by
      simpa [adjacentBegins, hnode, hadj, hav] using hpc
    have hallowed : Steps G P m P m₀ :=
      (Move.unsync L).steps.trans (Move.allow L (hg hbegins)).steps
    have hbegin : Move G P m₀ (P \ {Subject.link l})
        (((m₀.setLinkset L fun s => { s with restarting := true, traReceived := false }).setLink l
          fun s => { s with phase := .awaitRestart }).push
            (.start (.adjacentRestart L) m.timers.t21)) := by
      refine .beginAdjacent l hl hp hs hnode ?_
      have hL : m₀.linksetOf l = L := rfl
      rw [hL]
      simpa [m₀, allowRoutesThrough, extend, setLinkset] using hadj
    have hm₁ : m₁ = (m.setLinkset L fun s => { s with synced := false }).setLinkset L
        fun s => { s with restarting := true, traReceived := false } := by
      rw [setLinkset_setLinkset]
    have hm₄ : m₄ = _ := congrArg (fun x : Management => ((x.allowRoutesThrough L).setLink l
      fun s => { s with phase := .awaitRestart }).push (.start (.adjacentRestart L) m.timers.t21))
        hm₁
    have hbegun : Steps G P m (P \ {Subject.link l}) m₄ := by
      rw [hm₄]
      exact hallowed.trans hbegin.steps
    have hsent : Steps G P m (P \ {Subject.link l}) m₆ :=
      ((hbegun.note _ _).settle).send L 0 _ fun _ => rfl
    exact traSent_steps hsent L true
  · rw [if_neg hpc]
    exact startTraffic_steps hl hp hnode (.inl hs)

theorem setLink_congr (m : Management) {l : LinkId} {f g : LinkState → LinkState}
    (h : f (m.links l) = g (m.links l)) : m.setLink l f = m.setLink l g := by
  unfold setLink
  congr 1
  funext k
  split_ifs with hk
  · rw [hk, h]
  · rfl

theorem link_steps {P P' : Set Subject} {m : Management} {l : LinkId} {f : LinkState → LinkState}
    {s' : LinkState} {outs : List Action} (hl : m.hasLink l = true)
    (h : LinkMove G m l (m.links l) s' outs P P') (hf : f (m.links l) = s') :
    Steps G P m P' ((m.setLink l f).extend outs) := by
  subst hf
  exact (Move.link l f outs hl h).steps

theorem finishChangeback_steps {P : Set Subject} {m : Management} {l : LinkId}
    (hl : m.hasLink l = true) (hs : (m.links l).phase.available = true)
    (ho : (m.links l).phase ≠ .open) (how : Procedure) :
    Steps G P m P (m.finishChangeback l how) := by
  have hmove := (Move.link (G := G) (P := P) l
    (fun s => { s with declared := [], phase := .open }) _ hl
    (.finished hs ho)).steps
  simpa only [finishChangeback, push_eq_extend, setLink_extend, extend_extend, List.cons_append,
    List.nil_append] using hmove.note how (.link l)

/-! ## Restarts -/

theorem opens_steps {P : Set Subject} {m : Management} {ls : List LinkId}
    (h : ∀ l ∈ ls, (m.links l).phase = .open) : Steps G P m P (m.extend (ls.map .open)) := by
  induction ls generalizing m with
  | nil => simpa using Steps.refl P m
  | cons l ls ih =>
    have hopen : Steps G P m P (m.push (.open l)) := (Move.opens l (h l (by simp))).steps
    have hrest := ih (m := m.push (.open l)) fun k hk => h k (by simp [hk])
    simpa [push_eq_extend] using hopen.trans hrest

theorem allowRestart_steps (P : Set Subject) (m : Management) (L : LinksetId) :
    Steps G P m P (m.allowRestart L) ∧ (m.allowRestart L).restarting = m.restarting := by
  unfold allowRestart
  split_ifs
  · exact ⟨Steps.refl P m, rfl⟩
  · obtain ⟨xs, hxs, hplain⟩ := send_extend m L 0 .tra (.adjacent L none)
    rw [show m.tell L 0 .tra = m.extend xs from hxs]
    have hsaid : Steps G P m P (m.extend xs) := (Steps.refl P m).sayAll fun a ha => by
      obtain ⟨dpc, rfl⟩ := hplain a ha
      rfl
    have hguard := (traSent_steps hsaid L true).trans (Move.guards L).steps
    refine ⟨?_, rfl⟩
    rw [setLinkset_setLinkset] at hguard
    exact hguard

/-- The end of a restart stops its timers first. -/
theorem endRestart_moves (P : Set Subject) {m : Management} (hr : m.restarting = true) :
    ∃ m', Move G P m P m' ∧
      m'.out = m.out ++ [.act (.stop .restart), .act (.stop .restartOverall)] ∧
        Steps G P m' P m.endRestart := by
  unfold endRestart
  extract_lets opened m₁ m₂ m₃ m₄
  rw [if_neg (by simp [hr])]
  have hended : Move G P m P m₂ := by
    simpa [m₂, m₁, push] using Move.endRestart (P := P) hr
  have hopened : Steps G P m₂ P m₃ := by
    refine (Steps.refl P m₂).settle.trans (opens_steps fun l hl => ?_)
    have hwait : (m.links l).phase = .awaitRestart := by simpa using (List.mem_filter.mp hl).2
    rw [(settle_quiet m₂).2.links]
    simp [m₂, m₁, push, hwait]
  have hrunning : m₃.restarting = false := by
    simp only [m₃, extend, (settle_quiet m₂).2.restarting]
    rfl
  have hallowed : Steps G P m₃ P m₄ ∧ m₄.restarting = false :=
    Steps.foldl (I := fun m => m.restarting = false)
      (fun m hm L _ => ⟨(allowRestart_steps P m L).1,
        ((allowRestart_steps (G := G) P m L).2).trans hm⟩)
      hrunning
  refine ⟨m₂, hended, by simp [m₂, m₁, push], ?_⟩
  exact ((hopened.trans hallowed.1).trans (Move.restarted hallowed.2).steps).note _ _

theorem endRestart_steps (P : Set Subject) (m : Management) : Steps G P m P m.endRestart := by
  by_cases hr : m.restarting = true
  · obtain ⟨m', hmove, -, hsteps⟩ := endRestart_moves P hr
    exact hmove.steps.trans hsteps
  · have hsame : m.endRestart = m := by
      unfold endRestart
      rw [if_pos (by simpa using hr)]
    rw [hsame]
    exact Steps.refl P m

theorem restartProgress_steps {P P' : Set Subject} {m m' : Management} (h : Steps G P m P' m') :
    Steps G P m P' m'.restartProgress := by
  unfold restartProgress
  extract_lets complete
  split_ifs
  · exact h.trans (endRestart_steps P' m')
  · exact h

/-- Traffic starts on one link, and on no other. -/
theorem startTraffic_frame (m : Management) (l : LinkId) :
    (m.startTraffic l).topology = m.topology ∧ (m.startTraffic l).restarting = m.restarting ∧
      ∀ k, k ≠ l → (m.startTraffic l).links k = m.links k := by
  unfold startTraffic
  extract_lets L diverted
  split_ifs
  · refine ⟨rfl, rfl, fun k hk => ?_⟩
    simp only [timeControlledChangeback, push_eq_extend, extend_links, setLink_ne m _ hk]
  · have hq := (settle_quiet (m.setLink l fun s => { s with phase := .open })).2
    exact ⟨hq.topology, hq.restarting, fun k hk =>
      (congrFun hq.links k).trans (setLink_ne m _ hk)⟩

theorem startAll_steps {P : Set Subject} {ws : List LinkId} (hnodup : ws.Nodup)
    {m : Management} (hr : m.restarting = false)
    (hws : ∀ l ∈ ws, m.hasLink l = true ∧ Subject.link l ∈ P ∧ (m.links l).phase = .awaitRestart) :
    Steps G P m (P \ {x | ∃ l ∈ ws, x = .link l}) (ws.foldl startTraffic m) := by
  induction ws generalizing m P with
  | nil => simpa using Steps.refl P m
  | cons l ws ih =>
    obtain ⟨hnot, hnodup⟩ := List.nodup_cons.mp hnodup
    obtain ⟨hl, hp, hs⟩ := hws l (by simp)
    obtain ⟨ht, hr', hlinks⟩ := startTraffic_frame m l
    have hrest := ih (P := P \ {Subject.link l}) hnodup (hr'.trans hr) fun k hk => by
      obtain ⟨hkl, hkp, hks⟩ := hws k (by simp [hk])
      have hne : k ≠ l := fun h => hnot (h ▸ hk)
      refine ⟨by simpa only [hasLink, ht] using hkl, ⟨hkp, ?_⟩, by rw [hlinks k hne]; exact hks⟩
      simpa using hne
    have hset : (P \ {Subject.link l}) \ {x | ∃ k ∈ ws, x = .link k} =
        P \ {x | ∃ k ∈ l :: ws, x = .link k} := by
      ext x
      simp only [Set.mem_sdiff, Set.mem_singleton_iff, Set.mem_ofPred_eq, List.mem_cons]
      constructor
      · rintro ⟨⟨hx, hne⟩, hw⟩
        refine ⟨hx, ?_⟩
        rintro ⟨k, rfl | hk, rfl⟩
        · exact hne rfl
        · exact hw ⟨k, hk, rfl⟩
      · rintro ⟨hx, hw⟩
        exact ⟨⟨hx, fun h => hw ⟨l, .inl rfl, h⟩⟩, fun ⟨k, hk, h⟩ => hw ⟨k, .inr hk, h⟩⟩
    rw [← hset]
    exact (startTraffic_steps hl hp hr (.inr hs)).trans hrest

theorem hasLink_of_mem {m : Management} {L : LinksetId} {l : LinkId} (h : l ∈ m.linksOf L) :
    m.hasLink l = true ∧ m.linksetOf l = L := by
  obtain ⟨hl, hL⟩ := Topology.mem_links.mp h
  exact ⟨by simpa [hasLink] using hl, hL⟩

/-- The end of an adjacent point's restart stops its timer first. -/
theorem endAdjacentRestart_moves {m : Management} {L : LinksetId} (hn : m.restarting = false)
    (hr : (m.linksets L).restarting = true) (how : Procedure) :
    ∃ P m', Move G ∅ m P m' ∧ m'.out = m.out ++ [.act (.stop (.adjacentRestart L))] ∧
      Steps G P m' ∅ (m.endAdjacentRestart L how) := by
  unfold endAdjacentRestart
  extract_lets m₁ m₂ waiting
  have hwaiting : ∀ l, l ∈ waiting ↔ l ∈ m.linksOf L ∧ (m.links l).phase = .awaitRestart := by
    intro l
    rw [show waiting = (m.linksOf L).filter fun l => (m.links l).phase = .awaitRestart from rfl,
      List.mem_filter, decide_eq_true_eq]
  have hstarted : Steps G _ m₂ _ (waiting.foldl startTraffic m₂) := startAll_steps
    (P := ∅ ∪ {x | ∃ l ∈ m.linksOf L, (m.links l).phase = .awaitRestart ∧ x = .link l})
    ((m.topology.nodup_links L).filter _) hn fun l hl => by
      obtain ⟨hmem, hs⟩ := (hwaiting l).mp hl
      exact ⟨(hasLink_of_mem hmem).1, .inr ⟨l, hmem, hs, rfl⟩, hs⟩
  refine ⟨_, m₁.push (.stop (.adjacentRestart L)), Move.endAdjacent L hn hr, rfl, ?_⟩
  refine Steps.trans ((Steps.refl _ _).note how (.linkset L)) ?_
  convert hstarted using 1
  ext x
  simp only [Set.mem_empty_iff_false, Set.empty_union, Set.mem_sdiff, Set.mem_ofPred_eq, false_iff,
    not_and, not_not]
  rintro ⟨l, hl, hs, rfl⟩
  exact ⟨l, (hwaiting l).mpr ⟨hl, hs⟩, rfl⟩

theorem endAdjacentRestart_steps {m : Management} {L : LinksetId} (hn : m.restarting = false)
    (hr : (m.linksets L).restarting = true) (how : Procedure) :
    Steps G ∅ m ∅ (m.endAdjacentRestart L how) := by
  obtain ⟨P, m', hmove, -, hsteps⟩ := endAdjacentRestart_moves hn hr how
  exact hmove.steps.trans hsteps

theorem trafficRestartAllowed_steps (m : Management) (L : LinksetId) :
    Steps G ∅ m ∅ (m.trafficRestartAllowed L) := by
  unfold trafficRestartAllowed
  extract_lets m₁ m₂
  split_ifs with hr ha hs hg
  · exact restartProgress_steps (traReceived_steps (Steps.refl ∅ m) L true)
  · have hreceived : Steps G ∅ m ∅ m₁ := traReceived_steps (Steps.refl ∅ m) L true
    have hn : m.restarting = false := by simpa using hr
    have hended : Steps G ∅ m₁ ∅ (m₁.endAdjacentRestart L .adjacentRestartEnded) :=
      endAdjacentRestart_steps (m := m₁) hn (by simpa [m₁] using ha) _
    exact hreceived.trans hended
  · exact traReceived_steps (Steps.refl ∅ m) L true
  · exact (Steps.refl ∅ m).ignored _ _
  · have hsettled : Steps G ∅ m ∅ m₂ := (Move.unsync L).steps.settle
    obtain ⟨xs, hxs, hplain⟩ := send_extend m₂ L 0 .tra (.adjacent L none)
    rw [show m₂.tell L 0 .tra = m₂.extend xs from hxs]
    have hsaid : Steps G ∅ m ∅ (m₂.extend xs) := hsettled.sayAll fun a ha => by
      obtain ⟨dpc, rfl⟩ := hplain a ha
      rfl
    exact hsaid.trans (Move.guards L).steps

/-- What the loop of `beginRestart` does for one linkset. -/
private theorem restartFlags_fold (Ls : List LinksetId) (m : Management) :
    Ls.foldl (fun m L => (m.allowRoutesThrough L).setLinkset L fun s =>
        { s with traReceived := false }) { m with restarting := true, restartDue := false } =
      { Ls.foldl (fun m L => (m.allowRoutesThrough L).setLinkset L fun s =>
        { s with traReceived := false }) m with restarting := true, restartDue := false } := by
  induction Ls generalizing m with
  | nil => rfl
  | cons L Ls ih =>
    rw [List.foldl_cons, List.foldl_cons, ← ih]
    rfl

theorem beginRestart_steps {m : Management} (hg : ∀ L, G.allow L) (hr : m.restarting = false)
    (hup : ∀ l, (m.links l).up = false) :
    Steps G ∅ m ∅ m.beginRestart ∧ m.beginRestart.topology = m.topology ∧
      m.beginRestart.links = m.links ∧ m.beginRestart.restarting = true := by
  unfold beginRestart
  extract_lets m₁ m₂
  have hfolded := Steps.foldl (P := ∅) (m := m)
    (I := fun m' => m'.restarting = false ∧ m'.topology = m.topology ∧ m'.links = m.links)
    (fun m hm L (_ : L ∈ m₁.linksetIds) =>
      ⟨traReceived_steps (G := G) (Move.allow L (hg L)).steps L false, hm⟩) ⟨hr, rfl, rfl⟩
  have hm₂ : m₂ = _ := restartFlags_fold m₁.linksetIds m
  generalize m₁.linksetIds.foldl (fun m L => (m.allowRoutesThrough L).setLinkset L
    fun s => { s with traReceived := false }) m = allowed at hfolded hm₂
  obtain ⟨hsteps, hnode, htopology, hlinks⟩ := hfolded
  have hbegun := hsteps.trans (Move.beginRestart hnode (by simpa [hlinks] using hup)).steps
  rw [hm₂]
  refine ⟨?_, htopology, hlinks, rfl⟩
  simpa only [push_eq_extend, extend_extend, List.cons_append, List.nil_append] using
    hbegun.note .restartBegun .node

/-! ## Links that come and go -/

/-- Whether the restart of an adjacent point would begin depends on what is available and
reachable only. -/
theorem adjacentBegins_congr {m m' : Management} (ht : m'.topology = m.topology)
    (hr : m'.restarting = m.restarting) (hL : m'.linksets = m.linksets)
    (hl : ∀ l, m'.linkAvailable l = m.linkAvailable l) (hs : m'.servers = m.servers)
    (hd : m'.destinations = m.destinations) (L : LinksetId) :
    m'.adjacentBegins L = m.adjacentBegins L := by
  have hin : ∀ d, m'.inUse d = m.inUse d := fun d =>
    inUse_congr ht hl hs (by rw [hd]) (by rw [hd])
  simp only [adjacentBegins, reachable, linksetAvailable, linksOf, adjacentOf, hr, hL, ht, hl, hin]

/-- A link keeps what it has of availability when its phase stays, or was and is idle. -/
theorem linkAvailable_setLink {m : Management} {l : LinkId} {f : LinkState → LinkState}
    (h : (f (m.links l)).phase.available = (m.links l).phase.available) (k : LinkId) :
    (m.setLink l f).linkAvailable k = m.linkAvailable k := by
  by_cases hk : k = l
  · subst hk
    simp only [linkAvailable, setLink_self, h]
    rfl
  · simp only [linkAvailable, setLink_ne m f hk]
    rfl

theorem adjacentBegins_extend (m : Management) (xs : List Action) (L : LinksetId) :
    (m.extend xs).adjacentBegins L = m.adjacentBegins L := by
  refine adjacentBegins_congr ?_ ?_ ?_ (fun l => ?_) ?_ ?_ L
  all_goals rfl

theorem adjacentBegins_setLink {m : Management} {l : LinkId} {f : LinkState → LinkState}
    (h : (f (m.links l)).phase.available = (m.links l).phase.available) (L : LinksetId) :
    (m.setLink l f).adjacentBegins L = m.adjacentBegins L := by
  have hsame := linkAvailable_setLink h
  generalize hm : m.setLink l f = m' at hsame ⊢
  refine adjacentBegins_congr ?_ ?_ ?_ hsame ?_ ?_ L
  all_goals rw [← hm, setLink]

theorem linkUp_steps {m : Management} (hiso : m.isolated = true → ∀ l, (m.links l).up = false)
    {l : LinkId} (hrestart : m.restartBegins (.linkUp l) = true → ∀ L, G.allow L)
    (hg : (m.links l).phase = .closed → (m.links l).remoteInhibited = false →
      m.adjacentBegins (m.linksetOf l) = true → G.allow (m.linksetOf l))
    (hl : m.hasLink l = true) : Steps G ∅ m ∅ (m.linkUp l) := by
  unfold linkUp
  extract_lets m₁ m₂ m₃ m₄
  have h₁ : Steps G ∅ m ∅ m₁ ∧ m₁.topology = m.topology ∧ m₁.links = m.links ∧
      (m₁.restarting = true ∨ m₁ = m) := by
    simp only [m₁]
    split_ifs with hdue
    · have hallow := hrestart (by simpa only [restartBegins, hl, Bool.true_and] using hdue)
      simp only [Bool.and_eq_true, Bool.not_eq_true'] at hdue
      have hbegun := beginRestart_steps (G := G) hallow hdue.1.2 (hiso hdue.2)
      exact ⟨hbegun.1, hbegun.2.1, hbegun.2.2.1, .inl hbegun.2.2.2⟩
    · exact ⟨Steps.refl ∅ m, rfl, rfl, .inr rfl⟩
  have h₂ : Steps G ∅ m ∅ m₂ ∧ m₂.topology = m.topology ∧ m₂.links = m.links ∧
      (m₂.restarting = true ∨ ∀ L, m₂.adjacentBegins L = m.adjacentBegins L) := by
    simp only [m₂]
    split_ifs
    · refine ⟨h₁.1, h₁.2.1, h₁.2.2.1, h₁.2.2.2.imp_right fun h L => by rw [h]⟩
    · refine ⟨h₁.1.trans (Move.due false).steps, h₁.2.1, h₁.2.2.1,
        h₁.2.2.2.imp_right fun h L => ?_⟩
      rw [h]
      exact adjacentBegins_congr rfl rfl rfl (fun _ => rfl) rfl rfl L
  have hl₂ : m₂.hasLink l = true := by simpa only [hasLink, h₂.2.1] using hl
  have hup : ∀ f : LinkState → LinkState,
      f (m₂.links l) = { m₂.links l with
        up := true, back := (m₂.links l).back || (m₂.links l).phase.changingOver } →
      ((m₂.links l).phase = .closed → (m₂.links l).remoteInhibited = true) →
        Steps G ∅ m₂ ∅ (m₂.setLink l f) := by
    intro f hf hinh
    have hmove := (Move.link (G := G) (P := ∅) l (fun s => { s with
      up := true, back := s.back || s.phase.changingOver }) [] hl₂ (.up hinh)).steps
    rwa [extend_nil, ← setLink_congr m₂ hf] at hmove
  have h₄ : Steps G ∅ m ∅ m₄ := by
    refine h₂.1.trans ?_
    have hm₃ : (m₃.links l).phase = (m₂.links l).phase ∧
        (m₃.links l).remoteInhibited = (m₂.links l).remoteInhibited := by simp [m₃]
    simp only [m₄, hm₃.1, hm₃.2]
    cases hs : (m₂.links l).phase with
    | closed =>
      cases hi : (m₂.links l).remoteInhibited with
      | true =>
        exact hup (fun s => { s with up := true }) (by simp [hs, Phase.changingOver]) fun _ => hi
      | false =>
        have hcame := (Move.link (G := G) (P := ∅) l (fun s => { s with up := true }) [] hl₂
          (.cameBack hs hi)).steps
        rw [extend_nil] at hcame
        have hallow : m₃.adjacentBegins (m₃.linksetOf l) = true → G.allow (m₃.linksetOf l) := by
          intro hbegins
          have hset : m₃.linksetOf l = m.linksetOf l := by
            simp only [linksetOf, m₃, setLink, h₂.2.1]
          have hsame : m₃.adjacentBegins (m₃.linksetOf l) = m₂.adjacentBegins (m₃.linksetOf l) :=
            adjacentBegins_setLink (m := m₂) (l := l) rfl _
          rcases h₂.2.2.2 with hnode | hsame₂
          · have hnot : m₂.adjacentBegins (m₃.linksetOf l) = false := by
              simp [adjacentBegins, hnode]
            rw [hsame, hnot] at hbegins
            exact absurd hbegins Bool.false_ne_true
          · rw [hsame, hsame₂, hset] at hbegins
            rw [hset]
            refine hg ?_ ?_ hbegins
            · rw [← h₂.2.2.1, hs]
            · rw [← h₂.2.2.1, hi]
        have hrestored := restore_steps (m := m₃) hallow hl₂ (Set.mem_insert _ ∅)
          (hm₃.1.trans hs)
        simpa using hcame.trans hrestored
    | changeoverOrdered | changeoverTimed =>
      simp only [m₃, setLink_setLink]
      exact hup _ (by simp [hs, Phase.changingOver]) (by simp [hs])
    | «open» | changebackDeclared _ | changebackTimed | awaitRestart =>
      exact hup (fun s => { s with up := true }) (by simp [hs, Phase.changingOver]) (by simp [hs])
  split_ifs
  · exact restartProgress_steps h₄
  · exact h₄

/-- The traffic of a link leaves it, and it is restored if it has come back. -/
theorem completeChangeover_eq (m : Management) (l : LinkId) (fsnc : Option ℕ)
    (how : Option Procedure) :
    m.completeChangeover l fsnc how =
      (let m' := ((m.setLink l fun s => { s with phase := .closed, back := false }).extend
          [.stop (.changeover l), .divert l fsnc]).note
            (how.getD (if fsnc.isSome then .changeoverAcknowledged else .changeoverEmergency))
            (.link l)
       if (m.links l).back && (m.links l).up && !(m.links l).remoteInhibited then m'.restore l
       else m') := by
  simp [completeChangeover, note, push_eq_extend, setLink_extend, setLink_setLink]

theorem completeChangeover_steps {P : Set Subject} {m : Management} {l : LinkId}
    (hg : m.comesBack l = true → m.adjacentBegins (m.linksetOf l) = true →
      G.allow (m.linksetOf l))
    (hp : Subject.link l ∉ P) (hl : m.hasLink l = true)
    (hs : (m.links l).phase.changingOver = true) (fsnc : Option ℕ) (how : Option Procedure) :
    Steps G P m P (m.completeChangeover l fsnc how) := by
  rw [completeChangeover_eq]
  dsimp only
  cases hb : (m.links l).back && (m.links l).up && !(m.links l).remoteInhibited with
  | true =>
    rw [if_pos rfl]
    have hdone := (Move.link (G := G) (P := P) l
      (fun s => { s with phase := .closed, back := false }) _ hl
      (.returned fsnc hs hb)).steps
    have hsame : (m.setLink l fun s => { s with phase := .closed, back := false }).adjacentBegins
        (m.linksetOf l) = m.adjacentBegins (m.linksetOf l) := by
      refine adjacentBegins_setLink ?_ _
      cases hphase : (m.links l).phase <;> simp_all [Phase.changingOver, Phase.available]
    have hrestored := (hdone.note (how.getD (if fsnc.isSome then .changeoverAcknowledged
      else .changeoverEmergency)) (.link l)).trans
        (restore_steps (fun hbegins => hg hb (hsame.symm.trans hbegins)) hl (Set.mem_insert _ P)
          (by simp [note]))
    rwa [Set.insert_sdiff_self_of_notMem hp] at hrestored
  | false =>
    rw [if_neg Bool.false_ne_true]
    exact (Move.link (G := G) (P := P) l (fun s => { s with phase := .closed, back := false }) _ hl
      (.completed fsnc hs hb)).steps.note _ _

theorem acknowledgeOrder_extend (m : Management) (l : LinkId) (emergency : Bool) :
    ∃ xs : List Action, m.acknowledgeOrder l emergency = m.extend xs ∧
      ∀ a ∈ xs, a.plain = true := by
  obtain ⟨xs, hxs, hplain⟩ := send_extend m (m.linksetOf l) (m.slcOf l)
    (if emergency then .eca else .xca (m.links l).bsnt) (.adjacent (m.linksetOf l) (some l))
  refine ⟨xs, hxs, fun a ha => ?_⟩
  obtain ⟨dpc, rfl⟩ := hplain a ha
  cases emergency <;> rfl

theorem beginChangeover_eq (m : Management) (l : LinkId) :
    ∃ (phase : Phase) (sends : List Action) (after : ℕ), phase.changingOver = true ∧
      (∀ a ∈ sends, a.plain = true) ∧
      m.beginChangeover l = (m.setLink l fun s => { s with phase := phase }).extend
        (.hold l :: (sends ++ [.start (.changeover l) after])) := by
  unfold beginChangeover
  extract_lets L m₁
  split_ifs
  · obtain ⟨xs, hxs, hplain⟩ := send_extend m₁ L (m₁.slcOf l) (.xco (m₁.links l).bsnt)
      (.adjacent L (some l))
    refine ⟨.changeoverOrdered, xs, m₁.timers.t2, rfl, fun a ha => ?_, ?_⟩
    · obtain ⟨dpc, rfl⟩ := hplain a ha
      rfl
    · rw [hxs]
      simp [m₁, push_eq_extend, setLink_extend]
  · refine ⟨.changeoverTimed, [], m₁.timers.t1, rfl, by simp, ?_⟩
    simp [m₁, push_eq_extend, setLink_extend, setLink_setLink]

/-- A linkset that lost a link, and has no other, is not restarting any more. -/
theorem loseLinkset_steps {m : Management} {L : LinksetId} :
    Steps G {Subject.linkset L} m ∅
      (if m.linksetSignalling L then m
        else (if (m.linksets L).restarting then
            (m.setLinkset L fun s => { s with restarting := false }).push
              (.stop (.adjacentRestart L))
          else m).setLinkset L fun s => { s with traSent := false, traReceived := false }) := by
  have hset : {Subject.linkset L} \ {Subject.linkset L} = (∅ : Set Subject) := by simp
  split_ifs with hsig hr
  · have hkept := (Move.keepAdjacent (G := G) (P := {Subject.linkset L}) L fun _ => hsig).steps
    rwa [hset] at hkept
  · have hlost := (Move.loseAdjacent (G := G) (P := {Subject.linkset L}) L hr
      (by simpa using hsig)).steps
    rw [hset] at hlost
    exact hlost.trans (Move.flags L false false).steps
  · have hkept := (Move.keepAdjacent (G := G) (P := {Subject.linkset L}) (m := m) L
      fun h => absurd h hr).steps
    rw [hset] at hkept
    exact hkept.trans (Move.flags L false false).steps

theorem linkDown_steps {m : Management} {l : LinkId} (hl : m.hasLink l = true) (bsnt : ℕ) :
    Steps G ∅ m ∅ (m.linkDown l bsnt) := by
  unfold linkDown
  extract_lets L ordered m₁ m₂ m₃ m₄ m₅
  let down : LinkState → LinkState := fun s =>
    { s with up := false, bsnt := bsnt, back := false, ordered := none }
  have h₂ : ∃ xs : List Action, m₂ = (m.extend xs).setLink l down ∧
      ∀ a ∈ xs, a.plain = true := by
    simp only [m₂]
    cases ordered with
    | none => exact ⟨[], by simp only [extend_nil, m₁, down], by simp⟩
    | some order =>
      obtain ⟨xs, hxs, hplain⟩ := acknowledgeOrder_extend m₁ l order.emergency
      exact ⟨xs, hxs.trans rfl, hplain⟩
  obtain ⟨xs, h₂, hplain⟩ := h₂
  have hsaid : Steps G ∅ m ∅ (m.extend xs) := (Steps.refl ∅ m).sayAll hplain
  suffices hdown : Steps G ∅ (m.extend xs) ({Subject.linkset L}) m₄ from
    (hsaid.trans hdown).trans loseLinkset_steps
  clear_value m₂
  subst h₂
  have hn : (m.extend xs).hasLink l = true := hl
  have hphase : ((((m.extend xs).setLink l down).links l).phase) = (m.links l).phase := by
    simp [down]
  cases hav : (m.links l).phase.available with
  | true =>
    have hordered : m₄ = ordered.elim (m₃.beginChangeover l) fun order =>
        (m₃.push (.hold l)).completeChangeover l order.fsnc none := by
      simp only [m₄, hphase]
      cases hs : (m.links l).phase
      case «open» | changebackDeclared | changebackTimed => cases ordered <;> rfl
      all_goals simp [hs, Phase.available] at hav
    rw [hordered]
    cases ordered with
    | some order =>
      rw [Option.elim_some, completeChangeover_eq]
      dsimp only
      rw [if_neg (by simp [m₃, down])]
      have heq : ((m₃.push (.hold l)).setLink l fun s =>
          { s with phase := .closed, back := false }).extend
            [.stop (.changeover l), .divert l order.fsnc] =
          ((m.extend xs).setLink l fun s => { down s with declared := [], phase := .closed }).extend
            [.stop (.changeback l), .hold l, .stop (.changeover l), .divert l order.fsnc] := by
        simp [m₃, down, push_eq_extend, setLink_extend, setLink_setLink]
      rw [heq]
      exact (link_steps hn (.surrendered bsnt order.fsnc hav) rfl).note _ _
    | none =>
      obtain ⟨phase, sends, after, hover, hsends, hbegun⟩ := beginChangeover_eq m₃ l
      have heq : m₃.beginChangeover l =
          ((m.extend xs).setLink l fun s => { down s with declared := [], phase := phase }).extend
            ([.stop (.changeback l), .hold l] ++ sends ++ [.start (.changeover l) after]) := by
        rw [hbegun]
        simp [m₃, down, push_eq_extend, setLink_extend, setLink_setLink]
      rw [Option.elim_none, heq]
      exact link_steps hn (.failed bsnt phase sends after hav hover hsends) rfl
  | false =>
    have hdown : ∀ f : LinkState → LinkState,
        f (m.links l) = { down (m.links l) with
          phase := if (m.links l).phase = .awaitRestart then .closed else (m.links l).phase } →
        Steps G ∅ (m.extend xs) ({Subject.linkset L}) ((m.extend xs).setLink l f) := by
      intro f hf
      have hmove := link_steps (G := G) (P := ∅) (f := f) hn (.down bsnt hav) hf
      rwa [extend_nil] at hmove
    simp only [m₄, hphase]
    cases hs : (m.links l).phase with
    | «open» | changebackDeclared | changebackTimed => simp [hs, Phase.available] at hav
    | closed => exact hdown down (by simp [down, hs])
    | awaitRestart =>
      dsimp only
      rw [setLink_setLink]
      exact hdown _ (by simp [down, hs])
    | changeoverOrdered | changeoverTimed =>
      have hmoved := hdown down (by simp [down, hs])
      cases ordered with
      | none => exact hmoved
      | some order =>
        refine hmoved.trans (completeChangeover_steps (m := (m.extend xs).setLink l down) ?_ ?_ hn
          ?_ order.fsnc none)
        · simp [comesBack, down]
        · simp
        · rw [hphase, hs]
          rfl

/-! ## Messages about a link -/

theorem changeoverOrder_steps {m : Management} {l : LinkId} (hl : m.hasLink l = true)
    (fsnc : Option ℕ) (emergency : Bool) : Steps G ∅ m ∅ (m.changeoverOrder l fsnc emergency) := by
  unfold changeoverOrder
  split_ifs with hdone hup
  · simp only [Bool.and_eq_true] at hdone
    obtain ⟨xs, hxs, hplain⟩ := acknowledgeOrder_extend m l emergency
    rw [hxs]
    refine ((Steps.refl ∅ m).sayAll hplain).trans
      (completeChangeover_steps (m := m.extend xs) (fun hb => ?_) (by simp) hl hdone.1 fsnc none)
    simp only [comesBack, extend_links, Bool.and_eq_true] at hb
    simp [hb.1.2] at hdone
  · have hnoted := link_steps (G := G) (P := ∅)
      (f := fun s => { s with ordered := some ⟨fsnc, emergency⟩ })
      hl (.ordered ⟨fsnc, emergency⟩) rfl
    rw [extend_nil] at hnoted
    exact hnoted.say rfl
  · exact (Steps.refl ∅ m).send _ _ _ fun _ => rfl

theorem changeoverAcknowledgement_steps {m : Management} {l : LinkId}
    (hg : (m.links l).phase = .changeoverOrdered → m.comesBack l = true →
      m.adjacentBegins (m.linksetOf l) = true → G.allow (m.linksetOf l))
    (hl : m.hasLink l = true) (fsnc : Option ℕ) (name : String) :
    Steps G ∅ m ∅ (m.changeoverAcknowledgement l fsnc name) := by
  unfold changeoverAcknowledgement
  split_ifs with hs
  · exact completeChangeover_steps (hg hs) (by simp) hl (by rw [hs]; rfl) fsnc none
  · exact (Steps.refl ∅ m).ignored _ _

theorem inhibit_steps {m : Management} {l : LinkId} (hl : m.hasLink l = true) (path : Path) :
    Steps G ∅ m ∅ (m.inhibit l path) := by
  unfold inhibit
  extract_lets L m₁ m₂ m₃
  split_ifs with hi hd
  · exact (Steps.refl ∅ m).send _ _ _ fun _ => rfl
  · exact ((Steps.refl ∅ m).send _ _ _ fun _ => rfl).note _ _
  · obtain ⟨xs, hxs, hplain⟩ := send_extend m₁ L (m₁.slcOf l) .lia path
    have hsaid : Steps G ∅ m ∅ (m.extend (xs ++ [.note .linkInhibited (.link l)])) := by
      refine (Steps.refl ∅ m).sayAll fun a ha => ?_
      rcases List.mem_append.mp ha with ha | ha
      · obtain ⟨dpc, rfl⟩ := hplain a ha
        rfl
      · rw [List.mem_singleton.mp ha]
        rfl
    have hm₂ : m₂ = (m.extend (xs ++ [.note .linkInhibited (.link l)])).setLink l
        fun s => { s with remoteInhibited := true } := by
      change (m₁.send L (m₁.slcOf l) .lia path).note _ _ = _
      rw [hxs]
      simp [note, push_eq_extend, m₁, setLink_extend]
    clear_value m₂
    subst hm₂
    refine hsaid.trans ?_
    have hn : (m.extend (xs ++ [.note .linkInhibited (.link l)])).hasLink l = true := hl
    have hphase : (((m.extend (xs ++ [.note .linkInhibited (.link l)])).setLink l
        fun s => { s with remoteInhibited := true }).links l).phase = (m.links l).phase := by simp
    cases hav : (m.links l).phase.available with
    | true =>
      have hmove := link_steps (G := G) (P := ∅) (f := fun s =>
        { s with remoteInhibited := true, declared := [], phase := .changeoverTimed }) hn
          (.inhibited hav) rfl
      simp only [m₃, hphase]
      cases hs : (m.links l).phase
      case «open» | changebackDeclared | changebackTimed =>
        simpa only [push_eq_extend, setLink_extend, setLink_setLink, extend_extend,
          setLink_timers, extend_timers, List.append_assoc, List.cons_append, List.nil_append]
          using hmove
      all_goals simp [hs, Phase.available] at hav
    | false =>
      have hidle : ∀ f : LinkState → LinkState,
          f (m.links l) = { m.links l with
            remoteInhibited := true
            phase := if (m.links l).phase = .awaitRestart then .closed else (m.links l).phase } →
          Steps G ∅ (m.extend (xs ++ [.note .linkInhibited (.link l)])) ∅
            (((m.extend (xs ++ [.note .linkInhibited (.link l)])).setLink l f).push
              (.start (.inhibitTest l) m.timers.t23)) := fun f hf =>
        link_steps (G := G) (f := f) hn (.inhibitedIdle hav) hf
      simp only [m₃, hphase]
      cases hs : (m.links l).phase with
      | «open» | changebackDeclared | changebackTimed => simp [hs, Phase.available] at hav
      | awaitRestart =>
        dsimp only
        rw [setLink_setLink]
        exact hidle _ (by simp [hs])
      | closed | changeoverOrdered | changeoverTimed => exact hidle _ (by simp [hs])

/-- A link that is released is restored if it is up and carries nothing. -/
theorem uninhibit_steps {m : Management} {l : LinkId}
    (hg : m.restoredBy l .lun = true → m.adjacentBegins (m.linksetOf l) = true →
      G.allow (m.linksetOf l)) (hl : m.hasLink l = true) (path : Path) :
    Steps G ∅ m ∅ (m.uninhibit l path) := by
  unfold uninhibit
  extract_lets m₁ m₂ m₃ m₄
  have h₂ : Steps G ∅ m ∅ m₂ := by
    obtain ⟨xs, hxs, hplain⟩ := send_extend m (m.linksetOf l) (m.slcOf l) .lua path
    have hsaid : Steps G ∅ m ∅ (m.extend xs) := (Steps.refl ∅ m).sayAll fun a ha => by
      obtain ⟨dpc, rfl⟩ := hplain a ha
      rfl
    have hmove := link_steps (G := G) (P := ∅) (m := m.extend xs) (f := fun s =>
      { s with forceAttempts := 0 }) hl .forceAnswered rfl
    refine hsaid.trans ?_
    simp only [m₂, m₁, hxs]
    exact hmove
  have hl₂ : m₂.hasLink l = true := by simpa [m₂, m₁, hasLink, push, setLink] using hl
  by_cases hi : (!(m₂.links l).remoteInhibited) = true
  · rw [if_pos hi]
    exact h₂
  rw [if_neg hi]
  refine h₂.trans ?_
  have hinh : (m₂.links l).remoteInhibited = true := by simpa using hi
  have hm₄ : ∀ g : LinkState → LinkState, m₄.setLink l g = ((m₂.setLink l fun s =>
      g { s with remoteInhibited := false }).extend [.stop (.inhibitTest l)]).note .linkUninhibited
        (.link l) := by
    intro g
    simp only [m₄, m₃, note, push_eq_extend, setLink_extend, setLink_setLink]
  have hrest : ∀ f : LinkState → LinkState, ¬((m₂.links l).phase = .closed ∧
      (m₂.links l).up = true) → f (m₂.links l) = { m₂.links l with
        remoteInhibited := false
        back := (m₂.links l).back || ((m₂.links l).phase.changingOver && (m₂.links l).up) } →
      Steps G ∅ m₂ ∅ (((m₂.setLink l f).extend [.stop (.inhibitTest l)]).note .linkUninhibited
        (.link l)) := fun f hn hf => (link_steps hl₂ (.uninhibited hinh hn) hf).note _ _
  have hphase : (m₄.links l).phase = (m₂.links l).phase ∧ (m₄.links l).up = (m₂.links l).up := by
    simp [m₄, m₃, note]
  have hm : m₄.linksetOf l = m.linksetOf l ∧
      m₄.adjacentBegins (m.linksetOf l) = m.adjacentBegins (m.linksetOf l) ∧
      m₂.links l = { m.links l with forceAttempts := 0 } := by
    obtain ⟨xs, hxs, -⟩ := send_extend m (m.linksetOf l) (m.slcOf l) .lua path
    have heq : ∃ ys, m₄ = (m.setLink l fun s =>
        { s with forceAttempts := 0, remoteInhibited := false }).extend ys := by
      simp only [m₄, m₃, m₂, m₁, hxs, note, push_eq_extend, setLink_extend, setLink_setLink,
        extend_extend]
      exact ⟨_, rfl⟩
    obtain ⟨ys, heq⟩ := heq
    refine ⟨by rw [heq]; rfl, ?_, by simp [m₂, m₁]⟩
    rw [heq, adjacentBegins_extend]
    exact adjacentBegins_setLink rfl _
  simp only [hphase.1, hphase.2]
  cases hs : (m₂.links l).phase with
  | closed =>
    cases hup : (m₂.links l).up with
    | true =>
      have hreleased : Steps G ∅ m₂ (insert (Subject.link l) ∅) m₄ :=
        (link_steps (G := G) (f := fun s => { s with remoteInhibited := false }) hl₂
          (.released hinh ⟨hs, hup⟩) rfl).note _ _
      have hallow : m₄.adjacentBegins (m₄.linksetOf l) = true → G.allow (m₄.linksetOf l) := by
        rw [hm.1, hm.2.1]
        rw [hm.2.2] at hs hup hinh
        exact hg (by simp_all [restoredBy])
      have hrestored := hreleased.trans
        (restore_steps hallow hl₂ (Set.mem_insert _ ∅) (hphase.1.trans hs))
      simpa using hrestored
    | false =>
      exact hrest (fun s => { s with remoteInhibited := false }) (by simp [hup])
        (by simp [hs, Phase.changingOver])
  | changeoverOrdered | changeoverTimed =>
    cases hup : (m₂.links l).up with
    | true =>
      dsimp only
      rw [if_pos rfl, hm₄]
      exact hrest _ (by simp [hs]) (by simp [hs, hup, Phase.changingOver])
    | false =>
      exact hrest (fun s => { s with remoteInhibited := false }) (by simp [hs])
        (by simp [hup])
  | «open» | changebackDeclared | changebackTimed | awaitRestart =>
    exact hrest (fun s => { s with remoteInhibited := false }) (by simp [hs])
      (by simp [hs, Phase.changingOver])

theorem inhibitMessage_steps {m : Management} {l : LinkId} {message : ManagementMessage}
    (hg : m.restoredBy l message = true → m.adjacentBegins (m.linksetOf l) = true →
      G.allow (m.linksetOf l)) (hl : m.hasLink l = true) :
        Steps G ∅ m ∅ (m.inhibitMessage l message) := by
  have hasks : ∀ (f : LinkState → LinkState) (text : ManagementMessage) (a : Action),
      (∀ dpc, (Action.send dpc (m.slcOf l) text (m.linkOrRoute l)).plain = true) →
      (∀ xs : List Action, LinkMove G (m.extend xs) l (m.links l) (f (m.links l)) [a] ∅ ∅) →
      Steps G ∅ m ∅ (((m.setLink l f).send (m.linksetOf l) (m.slcOf l) text
        (m.linkOrRoute l)).push a) := by
    intro f text a htext hmove
    obtain ⟨xs, hxs, hplain⟩ := send_extend (m.setLink l f) (m.linksetOf l) (m.slcOf l) text
      (m.linkOrRoute l)
    have hsaid : Steps G ∅ m ∅ (m.extend xs) := (Steps.refl ∅ m).sayAll fun b hb => by
      obtain ⟨dpc, rfl⟩ := hplain b hb
      exact htext dpc
    rw [hxs]
    exact hsaid.trans (link_steps (G := G) (m := m.extend xs) (f := f) hl (hmove xs) rfl)
  unfold inhibitMessage
  cases message with
  | lin => exact inhibit_steps hl _
  | lun => exact uninhibit_steps hg hl _
  | lfu => exact (Steps.refl ∅ m).send _ _ _ fun _ => rfl
  | lua =>
    dsimp only
    split_ifs
    · exact link_steps (G := G) (f := fun s => { s with uninhibitAttempts := 0 }) hl
        .uninhibitAnswered rfl
    · exact (Steps.refl ∅ m).ignored _ _
  | lia | lid => exact (Steps.refl ∅ m).ignored _ _
  | llt =>
    dsimp only
    split_ifs
    · exact hasks _ _ _ (fun _ => rfl) fun xs => .forcing 0
    · exact Steps.refl ∅ m
  | lrt =>
    dsimp only
    split_ifs
    · exact hasks _ _ _ (fun _ => rfl) fun xs => .uninhibiting 0
    · exact Steps.refl ∅ m
  | _ => exact Steps.refl ∅ m

theorem changebackAcknowledgement_steps {m : Management} {l : LinkId} (hl : m.hasLink l = true)
    (code : ℕ) (name : String) : Steps G ∅ m ∅ (m.changebackAcknowledgement l code name) := by
  unfold changebackAcknowledgement
  extract_lets declared matched m₁
  have h₁ : Steps G ∅ m ∅ m₁ := by
    have hmove := link_steps (G := G) (P := ∅) (f := fun s => { s with declared := declared }) hl
      (.undeclared declared) rfl
    rwa [extend_nil] at hmove
  split_ifs with hm hd
  · refine h₁.trans ?_
    have hsame : (m₁.links l).phase = (m.links l).phase := by simp [m₁]
    rcases hm.2 with hs | hs
    · exact finishChangeback_steps (m := m₁) hl (by rw [hsame, hs]; rfl) (by simp [hsame, hs]) _
    · exact finishChangeback_steps (m := m₁) hl (by rw [hsame, hs]; rfl) (by simp [hsame, hs]) _
  · exact h₁
  · exact h₁.ignored _ _

theorem linkMessage_steps {m : Management} {l : LinkId} {message : ManagementMessage}
    (hg : m.restoredBy l message = true → m.adjacentBegins (m.linksetOf l) = true →
      G.allow (m.linksetOf l)) (hl : m.hasLink l = true) (name : String) :
    Steps G ∅ m ∅ (m.linkMessage l message name) := by
  unfold linkMessage
  cases message with
  | xco fsn => exact changeoverOrder_steps hl _ _
  | coo | eco => exact changeoverOrder_steps hl _ _
  | xca | coa | eca =>
    exact changeoverAcknowledgement_steps (fun hs hb => hg (by simp [restoredBy, hs, hb])) hl _ _
  | cba code => exact changebackAcknowledgement_steps hl _ _
  | lin | lun | lia | lua | lid | lfu | llt | lrt => exact inhibitMessage_steps hg hl
  | _ => exact (Steps.refl ∅ m).ignored _ _

/-- The linkset a message is taken to come from is one to its originating point. -/
theorem adjacentOf_of_linksetFrom {m : Management} {opc : ℕ} {l : LinkId} {L : LinksetId}
    (h : m.linksetFrom opc l = some L) : m.adjacentOf L = some opc := by
  unfold linksetFrom at h
  split_ifs at h with ha
  · rw [← Option.some.inj h]
    exact ha
  · obtain ⟨hlt, hadj, -⟩ := List.findIdx?_eq_some_iff_getElem.mp h
    simpa [adjacentOf, Topology.linkset, List.getElem?_eq_getElem hlt] using hadj

theorem received_steps {m : Management} {l : LinkId} (hl : m.hasLink l = true) (opc slc : ℕ)
    (message : ManagementMessage) :
    Steps (m.guardOf (.received l opc slc message)) ∅ m ∅ (m.received l opc slc message) := by
  have hsaid : ∀ name why : String,
    Steps (m.guardOf (.received l opc slc message)) ∅ m ∅ (m.ignored name why) := fun name why =>
    (Steps.refl ∅ m).ignored name why
  have hfrom : ∀ {L : LinksetId} (name : String), m.linksetFrom opc l = some L →
      (m.restarting && !message.ofRestart) = false →
        Steps (m.guardOf (.received l opc slc message)) ∅ m ∅
          (m.receivedFrom L slc message name) := by
    intro L name hL hr
    have hlink : ∀ k, ((m.linksOf L).find? fun l => m.slcOf l = slc) = some k →
        Steps (m.guardOf (.received l opc slc message)) ∅ m ∅ (m.linkMessage k message name) := by
      intro k hfind
      refine linkMessage_steps (fun hrestored hbegins => ?_)
        (hasLink_of_mem (List.mem_of_find?_eq_some hfind)).1 name
      simp [guardOf, allows, restored, linkNamed, hl, hL, hfind, hrestored, hbegins]
    have hmark : ∀ (d : ℕ) (status : RouteStatus) (text : String),
        m.marks (.received l opc slc message) d L status = true →
        Steps (m.guardOf (.received l opc slc message)) ∅ m ∅ (m.routeMessage L d status text) :=
      fun d status text hg => routeMessage_steps ∅ m hg text
    cases message with
    | tfp | tfr | tfa => exact hmark _ _ _ (by simp [marks, hl, hL])
    | rst | rsr =>
      exact routeSetTest_steps ∅ (by simpa [ManagementMessage.ofRestart] using hr)
        (adjacentOf_of_linksetFrom hL) _ _
    | tra => exact trafficRestartAllowed_steps m L
    | cbd => exact (Steps.refl ∅ m).send _ _ _ fun _ => rfl
    | _ =>
      unfold receivedFrom
      dsimp only
      cases hfind : (m.linksOf L).find? fun l => m.slcOf l = slc with
      | none => exact hsaid _ _
      | some k => exact hlink k hfind
  have hany : ∀ L, m.linksetFrom opc l = some L →
      Steps (m.guardOf (.received l opc slc message)) ∅ m ∅
        (if m.restarting && !message.ofRestart then
          m.ignored message.name "this node is restarting"
        else m.receivedFrom L slc message message.name) := by
    intro L hL
    split_ifs with hr
    · exact hsaid _ _
    · exact hfrom _ hL (by simpa using hr)
  unfold received
  cases message with
  | tfc =>
    dsimp only
    split_ifs
    · exact hsaid _ _
    · exact (Steps.refl ∅ m).say rfl
  | upu | rct => exact hsaid _ _
  | _ =>
    dsimp only
    cases hL : m.linksetFrom opc l with
    | none => exact hsaid _ _
    | some L => exact hany L hL

/-! ## Timers and inputs -/

theorem repeatUninhibit_steps {m : Management} {l : LinkId} (hl : m.hasLink l = true)
    (force : Bool) (he : G.expire (if force then .forceUninhibit l else .uninhibit l)) :
    Steps G ∅ m ∅ (m.repeatUninhibit l force) := by
  unfold repeatUninhibit
  extract_lets attempts timer after message set
  split_ifs
  · exact Steps.refl ∅ m
  · obtain ⟨xs, hxs, hplain⟩ := send_extend m (m.linksetOf l) (m.slcOf l) message (m.linkOrRoute l)
    have hsaid : Steps G ∅ m ∅ (m.extend xs) := (Steps.refl ∅ m).sayAll fun a ha => by
      obtain ⟨dpc, rfl⟩ := hplain a ha
      simp only [message]
      split_ifs <;> rfl
    rw [hxs]
    refine hsaid.trans ?_
    simp only [set, push_eq_extend, setLink_extend, timer, after]
    cases force with
    | true =>
      exact link_steps (G := G) (m := m.extend xs) (f := fun s => { s with forceAttempts := 2 }) hl
        (.forcing 1) rfl
    | false =>
      exact link_steps (G := G) (m := m.extend xs)
        (f := fun s => { s with uninhibitAttempts := 2 }) hl
        (.uninhibiting 1) rfl
  · refine ((Steps.refl ∅ m).note .uninhibitAbandoned (.link l)).trans ?_
    simp only [set]
    cases force with
    | true =>
      have hmove := link_steps (G := G) (P := ∅) (m := m.note .uninhibitAbandoned (.link l))
        (f := fun s => { s with forceAttempts := 0 }) hl (.forceAbandoned he) rfl
      rwa [extend_nil] at hmove
    | false =>
      have hmove := link_steps (G := G) (P := ∅) (m := m.note .uninhibitAbandoned (.link l))
        (f := fun s => { s with uninhibitAttempts := 0 }) hl (.uninhibitAbandoned he) rfl
      rwa [extend_nil] at hmove

theorem redeclare_extend (m : Management) (l : LinkId) (ds : List (ℕ × LinkId)) :
    ∃ xs : List Action, m.redeclare l ds = m.extend xs ∧ ∀ a ∈ xs, a.plain = true := by
  induction ds generalizing m with
  | nil => exact ⟨[], by simp [redeclare], by simp⟩
  | cons d ds ih =>
    obtain ⟨xs, hxs, hplain⟩ := send_extend m (m.linksetOf l) (m.slcOf l) (.cbd d.1) (.behind d.2)
    obtain ⟨ys, hys, hrest⟩ := ih (m.extend xs)
    refine ⟨xs ++ ys, by rw [redeclare, hxs, hys, extend_extend], fun a ha => ?_⟩
    rcases List.mem_append.mp ha with ha | ha
    · obtain ⟨dpc, rfl⟩ := hplain a ha
      rfl
    · exact hrest a ha

theorem setLink_id (m : Management) (l : LinkId) : m.setLink l (fun s => s) = m := by
  simp [setLink]

/-- T10 ran out: the sender of a route that is not allowed is asked, if it can be. -/
theorem testRoute_steps (m : Management) (d : ℕ) (L : LinksetId) :
    Steps G ∅ m ∅ (m.timeout (.routeSetTest d L)) := by
  unfold timeout
  dsimp only
  by_cases hL : m.hasLinkset L = true
  swap
  · rw [if_neg hL]
    exact Steps.refl ∅ m
  rw [if_pos hL]
  cases hst : (m.destination? d).bind fun dest =>
      (dest.routes.find? fun r => r.via = .linkset L).map RouteState.status with
  | none => exact Steps.refl ∅ m
  | some status =>
    obtain ⟨dest, hdest, hmap⟩ := Option.bind_eq_some_iff.mp hst
    obtain ⟨route, hfind, hstatus⟩ := Option.map_eq_some_iff.mp hmap
    have hd : d ∈ m.topology.dpcs := by
      by_contra hd
      simp [destination?, hd] at hdest
    obtain rfl : m.destinations d = dest := by simpa [destination?, hd] using hdest
    have hvia : route.via = .linkset L := by simpa using List.find?_some hfind
    have hasked : ∀ (message : ManagementMessage), status ≠ .allowed →
        (message = .rst d ∨ message = .rsr d) →
        Steps G ∅ m ∅ ((if !m.restarting && m.canTell L then m.tell L 0 message else m).push
          (.start (.routeSetTest d L) m.timers.t10)) := by
      intro message hne hm
      have htest : ∀ m' : Management, m'.topology = m.topology →
          m'.destinations = m.destinations →
          Steps G ∅ m' ∅ (m'.push (.start (.routeSetTest d L) m'.timers.t10)) := fun m' ht hsame =>
        (Move.testing L d route (by rw [ht]; exact hd) hvia
          (by rw [hsame]; exact List.mem_of_find?_eq_some hfind) (by rw [hstatus]; exact hne)).steps
      split_ifs with hask
      · simp only [Bool.and_eq_true, Bool.not_eq_true'] at hask
        cases ha : m.adjacentOf L with
        | none =>
          have htell : m.tell L 0 message = m := by simp [tell, send, ha]
          rw [htell]
          exact htest m rfl rfl
        | some adjacent =>
          rw [tell_eq ha]
          exact (Move.asked L adjacent d message hask.1 ha hm).steps.trans (htest _ rfl rfl)
      · exact htest m rfl rfl
    cases status with
    | allowed => exact Steps.refl ∅ m
    | prohibited =>
      cases hm : about d .rst with
      | none => simpa [hm] using Steps.refl ∅ m
      | some message => simpa [hm] using hasked message (by simp) (.inl (about_eq hm))
    | restricted =>
      cases hm : about d .rsr with
      | none => simpa [hm] using Steps.refl ∅ m
      | some message => simpa [hm] using hasked message (by simp) (.inr (about_eq hm))

theorem timeout_steps {m : Management}
    (hcalm : m.restarting = true → ∀ L, (m.linksets L).restarting = false) (timer : Timer) :
    Steps (m.guardOf (.timeout timer)) ∅ m ∅ (m.timeout timer) := by
  cases timer with
  | changeover l =>
    dsimp only [timeout]
    split_ifs with hl
    · cases hs : (m.links l).phase with
      | changeoverOrdered | changeoverTimed =>
        refine completeChangeover_steps (fun hb hbegins => ?_) (by simp) hl (by rw [hs]; rfl) _ _
        simp [guardOf, allows, restored, hl, hs, Phase.changingOver, hb, hbegins]
      | _ => exact Steps.refl ∅ m
    · exact Steps.refl ∅ m
  | changeback l =>
    dsimp only [timeout]
    split_ifs with hl
    · cases hs : (m.links l).phase with
      | changebackDeclared second =>
        cases second with
        | false =>
          obtain ⟨xs, hxs, hplain⟩ := redeclare_extend m l (m.links l).declared
          dsimp only
          rw [hxs]
          exact ((Steps.refl ∅ m).sayAll hplain).trans
            (link_steps (m := m.extend xs) (f := fun s =>
              { s with phase := .changebackDeclared true }) hl (.redeclared hs) rfl)
        | true => exact finishChangeback_steps hl (by rw [hs]; rfl) (by simp [hs]) _
      | changebackTimed => exact finishChangeback_steps hl (by rw [hs]; rfl) (by simp [hs]) _
      | _ => exact Steps.refl ∅ m
    · exact Steps.refl ∅ m
  | rerouting d =>
    dsimp only [timeout]
    split_ifs with hd
    · have hmove := (Move.release (G := m.guardOf (.timeout (.rerouting d))) (P := ∅) d hd.1 hd.2
        rfl).steps
      simpa only [push_eq_extend, extend_extend] using hmove
    · exact Steps.refl ∅ m
  | prohibited d => exact (Move.unguard d rfl).steps
  | routeSetTest d L =>
    exact testRoute_steps m d L
  | uninhibit l =>
    dsimp only [timeout]
    split_ifs with hl
    · exact repeatUninhibit_steps hl false rfl
    · exact Steps.refl ∅ m
  | forceUninhibit l =>
    dsimp only [timeout]
    split_ifs with hl
    · exact repeatUninhibit_steps hl true rfl
    · exact Steps.refl ∅ m
  | inhibitTest l =>
    dsimp only [timeout]
    split_ifs with hl
    · simp only [Bool.and_eq_true] at hl
      obtain ⟨xs, hxs, hplain⟩ := send_extend m (m.linksetOf l) (m.slcOf l) .lrt (m.linkOrRoute l)
      have hsaid : Steps (m.guardOf (.timeout (.inhibitTest l))) ∅ m ∅ (m.extend xs) :=
        (Steps.refl ∅ m).sayAll fun a ha => by
        obtain ⟨dpc, rfl⟩ := hplain a ha
        rfl
      rw [hxs]
      have hmove := link_steps (G := m.guardOf (.timeout (.inhibitTest l))) (P := ∅)
        (m := m.extend xs)
        (f := fun s => s) hl.1
        (.tested hl.2) rfl
      rw [setLink_id] at hmove
      exact hsaid.trans hmove
    · exact Steps.refl ∅ m
  | restart | restartOverall => exact endRestart_steps ∅ m
  | restartAllowed L =>
    dsimp only [timeout]
    split_ifs
    · exact (Move.unguards L rfl).steps
    · exact Steps.refl ∅ m
  | adjacentRestart L =>
    dsimp only [timeout]
    split_ifs with hL
    · simp only [Bool.and_eq_true] at hL
      refine endAdjacentRestart_steps ?_ hL.2 _
      by_contra hn
      rw [hcalm (by simpa using hn) L] at hL
      exact absurd hL.2 Bool.false_ne_true
    · exact Steps.refl ∅ m
  | isolation =>
    dsimp only [timeout]
    split_ifs
    · exact (Move.due true).steps
    · exact Steps.refl ∅ m

/-- What holds of a state between two inputs, as far as taking an input apart needs it. -/
structure Calm (m : Management) : Prop where
  isolated : m.isolated = true → ∀ l, (m.links l).up = false
  restarting : m.restarting = true → ∀ L, (m.linksets L).restarting = false

theorem dispatch_steps {m : Management} (hcalm : Calm m) (input : Input) :
    Steps (m.guardOf input) ∅ m ∅ (m.dispatch input) := by
  unfold dispatch
  cases input with
  | linkUp l =>
    dsimp only
    split_ifs with hl
    · refine linkUp_steps hcalm.isolated (fun hbegins L => ?_) (fun hs hi hbegins => ?_) hl
      · simp [guardOf, allows, hbegins]
      · simp [guardOf, allows, restored, hl, hs, hi, hbegins]
    · exact Steps.refl ∅ m
  | linkDown l bsnt =>
    dsimp only
    split_ifs with hl
    · exact linkDown_steps hl bsnt
    · exact Steps.refl ∅ m
  | received l opc slc message =>
    dsimp only
    split_ifs with hl
    · exact received_steps hl opc slc message
    · exact Steps.refl ∅ m
  | timeout timer => exact timeout_steps hcalm.restarting timer
  | unroutable d l =>
    dsimp only
    split_ifs
    · exact (unroutable_quiet m d l).1 ∅
    · exact Steps.refl ∅ m
  | server index up =>
    dsimp only
    split_ifs
    · exact (Move.served _).steps
    · exact Steps.refl ∅ m
  | paused d on =>
    dsimp only
    split_ifs
    · exact (Move.paused d on rfl).steps
    · exact Steps.refl ∅ m

/-- Every input runs as moves. -/
theorem process_steps {m : Management} (hcalm : Calm m) (input : Input) :
    Steps (m.guardOf input) ∅ m ∅ (m.process input) := by
  have hdispatched := dispatch_steps hcalm input
  have hwatched := hdispatched.settle.trans (watchIsolation_steps ∅ _)
  unfold process
  split
  · split_ifs
    · exact hdispatched
    · exact hwatched
  · exact hwatched

end Management

end SiphonSigtran.Mtp3
