import SiphonSigtran.Transport.AspmRuns
import SiphonSigtran.Transport.AspmTells
import SiphonSigtran.Transport.PeerRuns

/-!
# What traffic of an ASP passes

A gateway lets a DATA message pass by the flags that the actions of ASP state maintenance set, and
an ASP knows only what it was told. The two say the same, in every server and after every event.
-/

namespace SiphonSigtran.Transport

open Lib

/-- Whether an association takes traffic that names a Routing Context, or none, by what the actions
said of its ASP in the servers that it is configured in. -/
def Seen.admits (l : Layout) (seen : Seen) (a : ℕ) (context : Option ℕ) : Admission :=
  let taking := (l.asp a).servers.filter fun s => seen.asp a s = .active
  if taking = [] then .notActive
  else match context with
    | none => .active
    | some context =>
      if taking.any fun s => (l.server s).routingContext = context then .active
      else if (l.asp a).servers.any fun s => (l.server s).routingContext = context then .notActive
      else .unconfigured

namespace Aspm

variable {l : Layout} {m : Aspm} {a s : ℕ}

/-! ## What an ASP asks for -/

/-- A request for every server of an ASP has no mode, or the mode of all of them. One that suits
some of them only is refused for the others with an Error that names them, and acknowledged with no
Routing Context. -/
def Suits (l : Layout) (a : ℕ) (mode : Option ℕ) (contexts : Option (List ℕ)) : Prop :=
  contexts = none → mode = none ∨
    ∀ s ∈ (l.asp a).servers, mode = some (modeValue (l.server s).mode)

/-- What the task of an association asks for an ASP of this gateway. -/
def Requested (l : Layout) (a : ℕ) : Input → Prop
  | .active b mode contexts => b = a → Suits l a mode contexts
  | .peerUp b | .peerActive b _ | .peerInactive b _ => b ≠ a
  | _ => True

theorem relays_down (h : Serves l a s) (hproper : Proper (m.standing a s)) :
    Relays l a s m (m.down l a) := by
  refine .of_send h.gateway (aside_takeDown _ a false) ?_
  unfold down
  rw [standing_takeDown (by rwa [standing_send]) h.mem, if_pos rfl]
  rfl

theorem relays_inactive (h : Serves l a s) (hproper : Proper (m.standing a s))
    (contexts : Option (List ℕ)) : Relays l a s m (m.inactive l a contexts) := by
  have hadmitted : Relays l a s m (m.admitted l a contexts).2 := h.carries.admitted m a _
  have hasps := admitted_asps (l := l) m a contexts
  have hservers : ∀ t ∈ (m.admitted l a contexts).1,
      (m.asps a).up = true ∧ t ∈ (l.asp a).servers := fun t => mem_admitted
  unfold inactive
  dsimp only
  split_ifs with hnone
  · exact hadmitted
  · obtain ⟨first, hfirst⟩ := List.exists_mem_of_ne_nil _ hnone
    have hup : (m.asps a).up = true := (hservers first hfirst).1
    refine hadmitted.trans (.of_send h.gateway (Aside.foldl (fun m t =>
      aside_deactivate m a t) _ _) ?_)
    have hsent : Proper (((m.admitted l a contexts).2.send l a
        (.inactiveAck (reflected l contexts (m.admitted l a contexts).1))).standing a s) := by
      rwa [standing_send, standing_of_asps hasps]
    have hall : contexts = none → s ∈ (m.admitted l a contexts).1 := by
      intro hcontexts
      rw [hcontexts, admitted_none hup]
      exact h.mem
    have hnamed := h.named_iff (fun t ht => (hservers t ht).2) hnone hall
    rw [standing_deactivate_foldl hsent h.mem, standing_send, standing_of_asps hasps, send_asps,
      hasps]
    simp only [Message.tells, hnamed, true_and]
    split_ifs with hs
    · simp [hs, standing]
    · simp [hs, standing]

/-- Whatever is asked for an ASP, or for another, what the ASP is told takes it to its state. -/
theorem relays_react (h : Serves l a s) (hproper : Proper (m.standing a s)) {input : Input}
    (hrequested : Requested l a input) (hlost : input ≠ .lost a) :
    Relays l a s m (m.react l input) := by
  by_cases hof : input.of = some a
  · have hguard : ∀ {p : Prop} [Decidable p] {m' : Aspm}, Relays l a s m m' →
        Relays l a s m (if p then m' else m) := by
      intro p _ m' hrelays
      split_ifs
      · exact hrelays
      · exact h.carries.refl m
    cases input with
    | up b id =>
      obtain rfl := Option.some.inj hof
      exact hguard (resets_up h hproper id).relays
    | down b =>
      obtain rfl := Option.some.inj hof
      exact hguard (relays_down h hproper)
    | active b mode contexts =>
      obtain rfl := Option.some.inj hof
      exact hguard (relays_active h m fun hnone =>
        (hrequested rfl hnone).imp_right fun hmode => hmode s h.mem)
    | inactive b contexts =>
      obtain rfl := Option.some.inj hof
      exact hguard (relays_inactive h hproper contexts)
    | lost b => exact absurd (congrArg Input.lost (Option.some.inj hof)) hlost
    | peerUp b | peerActive b _ | peerInactive b _ =>
      exact absurd (Option.some.inj hof) hrequested
    | timeout timer => cases hof
  · exact h.carries.react h.mem hproper hof

/-- The association of an ASP is lost. -/
theorem standing_lost (hs : s ∈ (l.asp a).servers) (hproper : Proper (m.standing a s)) :
    (m.react l (.lost a)).standing a s = (false, false) := by
  have hconfigured : a < l.asps.length := by
    by_contra hbeyond
    rw [Layout.asp_of_le (Nat.le_of_not_lt hbeyond)] at hs
    cases hs
  rw [react, if_pos hconfigured, lost, standing_takeDown hproper hs, if_pos rfl]

/-! ## Every run -/

/-- The machine, what its actions said, and what an ASP was told since its association was last
lost. -/
def hearing (l : Layout) (a : ℕ) (p : (Aspm × Seen) × List Message) (input : Input) :
    (Aspm × Seen) × List Message :=
  (watching l p.1 input,
    if input = .lost a then [] else p.2 ++ (p.1.1.handle l input).2.filterMap (Action.to a))

/-- What an ASP that was told this takes itself to be, in the server of a Routing Context. -/
def believed (context : ℕ) (told : List Message) : Bool × Bool :=
  told.foldl (Message.tells context) (false, false)

/-- The ASP has been told what the machine has of it. -/
structure Heard (l : Layout) (a : ℕ) (p : (Aspm × Seen) × List Message) : Prop where
  level : Level l p.1
  told : ∀ s ∈ (l.asp a).servers,
    believed (l.server s).routingContext p.2 = p.1.1.standing a s

theorem Level.proper {p : Aspm × Seen} (h : Level l p) (a s : ℕ) : Proper (p.1.standing a s) := by
  intro hdown
  by_contra hon
  have hup := ((h.sound s).base.flag a (Bool.eq_true_of_not_eq_false hon)).1
  exact Bool.false_ne_true (hdown.symm.trans hup)

theorem Heard.step (hl : l.Consistent) (hgateway : (l.asp a).gateway = true)
    (hdistinct : l.Distinct a) {p : (Aspm × Seen) × List Message} (h : Heard l a p)
    {input : Input} (hrequested : Requested l a input) : Heard l a (hearing l a p input) where
  level := (h.level.step hl input).1
  told s hs := by
    have hproper := h.level.proper a s
    by_cases hlost : input = .lost a
    · subst hlost
      have hdown := standing_lost hs hproper
      simp only [hearing, if_true]
      exact hdown.symm
    · obtain ⟨extra, hout, htold⟩ :=
        relays_react ⟨hgateway, hdistinct, hs⟩ hproper hrequested hlost
      rw [h.level.out, List.nil_append] at hout
      have hgiven : (p.1.1.handle l input).2 = extra := hout
      simp only [hearing, if_neg hlost, hgiven]
      have hbefore : p.2.foldl (Message.tells (l.server s).routingContext) (false, false) =
          p.1.1.standing a s := h.told s hs
      rw [believed, List.foldl_append, hbefore]
      exact htold

theorem heard_run (hl : l.Consistent) (hgateway : (l.asp a).gateway = true)
    (hdistinct : l.Distinct a) {inputs : List Input}
    (hrequested : ∀ input ∈ inputs, Requested l a input) :
    Heard l a (Machine.run (hearing l a) ((new, Seen.new), []) inputs) :=
  Machine.run_invariant (P := Heard l a)
    (fun _ _ h hrequested => h.step hl hgateway hdistinct hrequested)
    ⟨level_new l, fun _ _ => rfl⟩ (Machine.along_of_forall _ hrequested)

/-- The actions said that an ASP is active exactly where it was told so. -/
theorem Heard.active_iff (hl : l.Consistent) {p : (Aspm × Seen) × List Message} (h : Heard l a p)
    (hs : s ∈ (l.asp a).servers) :
    p.1.2.asp a s = .active ↔ (believed (l.server s).routingContext p.2).2 = true := by
  have hseen : p.1.1.seen p.1.2 = p.1.2 := by rw [seen, h.level.out]; rfl
  have hasp := (h.level.sound s).base.asp a ((hl a s).mp hs) List.not_mem_nil
  rw [hseen] at hasp
  rw [hasp, ← isActive_iff_state, isActive_eq_standing hs (h.level.proper a s), h.told s hs]

end Aspm

/-! ## Traffic -/

theorem Seen.admits_eq_active (l : Layout) (seen : Seen) (a : ℕ) (context : Option ℕ) :
    seen.admits l a context = .active ↔ ∃ s ∈ (l.asp a).servers, seen.asp a s = .active ∧
      ∀ named, context = some named → (l.server s).routingContext = named := by
  unfold Seen.admits
  dsimp only
  split_ifs with hnone
  · have hoff := List.filter_eq_nil_iff.mp hnone
    constructor
    · exact fun h => by cases h
    · rintro ⟨s, hs, hon, -⟩
      exact absurd (decide_eq_true hon) (hoff s hs)
  · cases context with
    | none =>
      obtain ⟨s, hs⟩ := List.exists_mem_of_ne_nil _ hnone
      obtain ⟨hmem, hon⟩ := List.mem_filter.mp hs
      exact iff_of_true rfl ⟨s, hmem, of_decide_eq_true hon, fun _ h => by cases h⟩
    | some named =>
      dsimp only
      split_ifs with hany hconfigured
      · obtain ⟨s, hs, hnamed⟩ := List.any_eq_true.mp hany
        obtain ⟨hmem, hon⟩ := List.mem_filter.mp hs
        refine iff_of_true rfl ⟨s, hmem, of_decide_eq_true hon, fun named' h => ?_⟩
        exact (of_decide_eq_true hnamed).trans (Option.some.inj h)
      all_goals
        refine iff_of_false (fun h => by cases h) ?_
        rintro ⟨s, hs, hon, hnamed⟩
        exact hany (List.any_eq_true.mpr ⟨s, List.mem_filter.mpr ⟨hs, decide_eq_true hon⟩,
          decide_eq_true (hnamed named rfl)⟩)

/-- A DATA message for a user part goes on exactly if the association takes its traffic. -/
theorem Peer.dispatches_iff {c : Peer.Conf} {sight : Peer.Sight} {message : Peer.M3uaMessage}
    {payload : Peer.ProtocolData} (hpayload : message.protocolData = .ok payload)
    (hsi : payload.si ≠ 0) (raw : List UInt8) (stream : ℕ) :
    (∃ msu, .dispatch msu ∈ Peer.data c sight message raw stream) ↔
      sight.admits message.routingContext = .active := by
  unfold Peer.data
  dsimp only
  rw [hpayload]
  cases hadmits : sight.admits message.routingContext with
  | active => simp [hsi]
  | notActive => cases hgateway : c.gateway <;> simp [Peer.refuse]
  | unconfigured => simp [Peer.refuse]

namespace Aspm

variable {l : Layout} {a : ℕ} {inputs : List Input} {c : Peer.Conf} {sight : Peer.Sight}
  {message : Peer.M3uaMessage} {payload : Peer.ProtocolData}

/-- An ASP of two servers, the first of which another takes over. -/
def halved : Layout :=
  ⟨[⟨"asp-0", [0, 1], true⟩, ⟨"asp-1", [0], true⟩],
    [⟨"as-0", 100, .override, [0, 1], 1, some 2000⟩, ⟨"as-1", 200, .loadshare, [0], 1, none⟩]⟩

def halving : List Input :=
  [.up 0 none, .up 1 none, .active 0 none none, .active 1 none (some [100])]

/-- A DATA message that names no Routing Context. -/
def anywhere : Peer.M3uaMessage :=
  ⟨.data, none, none, [], none, [], none, none, none, none, none, none, none,
    .ok ⟨1, 2, 3, 2, 0, 0, []⟩⟩

end Aspm

end SiphonSigtran.Transport
