import SiphonSigtran.Transport.AspmMoves

/-!
# What an ASP is told of itself

An ASP knows of its state at the gateway only what the gateway sends. Every operation of ASP state
maintenance sends an ASP just what takes the state that it had to the one that it has.
-/

namespace SiphonSigtran.Transport

open Lib

/-- A message tells an ASP of its own state. -/
def Message.moves : Message → Bool
  | .upAck | .downAck | .activeAck _ _ | .inactiveAck _ => true
  | .notify _ status _ _ => status = .alternateAspActive
  | .error _ _ => false

/-- Whether an ASP takes itself to be up, and active in the server of a Routing Context, after a
message. -/
def Message.tells (context : ℕ) (b : Bool × Bool) : Message → Bool × Bool
  | .upAck => (true, false)
  | .downAck => (false, false)
  | .activeAck _ contexts => (b.1, b.2 || (b.1 && decide (contexts = [] ∨ context ∈ contexts)))
  | .inactiveAck contexts => (b.1, b.2 && !decide (contexts = [] ∨ context ∈ contexts))
  | .notify _ status _ about =>
    (b.1, b.2 && !decide (status = .alternateAspActive ∧ about = context))
  | .error _ _ => b

theorem Message.tells_of_not_moves {message : Message} (h : message.moves = false) (context : ℕ)
    (b : Bool × Bool) : message.tells context b = b := by
  cases message with
  | notify server status identifier about =>
    have hs : status ≠ .alternateAspActive := of_decide_eq_false h
    simp [Message.tells, hs]
  | error code contexts => rfl
  | _ => cases h

/-- An ASP is active only when it is up. -/
def Proper (b : Bool × Bool) : Prop := b.1 = false → b.2 = false

theorem Message.tells_proper (message : Message) (context : ℕ) {b : Bool × Bool} (h : Proper b) :
    Proper (message.tells context b) := by
  obtain ⟨up, active⟩ := b
  cases message <;> simp_all [Proper, Message.tells]

theorem proper_foldl (context : ℕ) {b : Bool × Bool} (h : Proper b) (messages : List Message) :
    Proper (messages.foldl (Message.tells context) b) := by
  induction messages generalizing b with
  | nil => exact h
  | cons message messages ih => exact ih (message.tells_proper context h)

/-- The message that an action sends to an ASP. -/
def Action.to (a : ℕ) : Action → Option Message
  | .send b message => if b = a then some message else none
  | _ => none

/-- The servers of an ASP are told apart by their Routing Contexts. -/
def Layout.Distinct (l : Layout) (a : ℕ) : Prop :=
  ∀ s ∈ (l.asp a).servers, ∀ t ∈ (l.asp a).servers,
    (l.server s).routingContext = (l.server t).routingContext → s = t

/-- An ASP alone serves each of its servers in which one ASP is active at a time. -/
def Layout.Sole (l : Layout) (a : ℕ) : Prop :=
  ∀ s ∈ (l.asp a).servers, (l.server s).mode = .override → ∀ b ∈ (l.server s).asps, b = a

/-- The ASP that an input is of. -/
def Input.of : Input → Option ℕ
  | .up a _ | .down a | .active a _ _ | .inactive a _ | .lost a => some a
  | .peerUp a | .peerActive a _ | .peerInactive a _ => some a
  | .timeout _ => none

namespace Aspm

variable {l : Layout} {m m' m'' : Aspm} {a b s t : ℕ}

/-- Whether an ASP is up, and its flag in a server. -/
def standing (m : Aspm) (a s : ℕ) : Bool × Bool := ((m.asps a).up, (m.asps a).active s)

theorem isActive_eq_standing (hs : s ∈ (l.asp a).servers) (h : Proper (m.standing a s)) :
    m.isActive l a s = (m.standing a s).2 := by
  rw [Bool.eq_iff_iff, isActive_iff]
  cases hup : (m.asps a).up with
  | false =>
    have hoff : (m.asps a).active s = false := h hup
    simp [standing, hoff]
  | true => simp [standing, hs]

/-! ## Operations that send an ASP nothing of its state -/

/-- What was given to do since tells an ASP nothing of its own state. -/
def Aside (a : ℕ) (m m' : Aspm) : Prop :=
  ∃ extra, m'.out = m.out ++ extra ∧
    ∀ x ∈ extra, ∀ message, x.to a = some message → message.moves = false

theorem Aside.of_out (h : m'.out = m.out) : Aside a m m' := ⟨[], by simp [h], by simp⟩

theorem Aside.trans (h : Aside a m m') (h' : Aside a m' m'') : Aside a m m'' := by
  obtain ⟨extra, hout, hextra⟩ := h
  obtain ⟨extra', hout', hextra'⟩ := h'
  refine ⟨extra ++ extra', by rw [hout', hout, List.append_assoc], fun x hx => ?_⟩
  rcases List.mem_append.mp hx with hx | hx
  · exact hextra x hx
  · exact hextra' x hx

theorem Aside.foldl {ι : Type*} {f : Aspm → ι → Aspm} (h : ∀ m i, Aside a m (f m i))
    (is : List ι) (m : Aspm) : Aside a m (is.foldl f m) := by
  induction is generalizing m with
  | nil => exact .of_out rfl
  | cons i is ih => exact (h m i).trans (ih (f m i))

theorem aside_push (m : Aspm) {x : Action} (h : ∀ message, x.to a = some message →
    message.moves = false) : Aside a m (m.push x) :=
  ⟨[x], rfl, fun y hy => by rw [List.mem_singleton.mp hy]; exact h⟩

theorem aside_send (m : Aspm) {message : Message} (h : b ≠ a ∨ message.moves = false) :
    Aside a m (m.send l b message) := by
  unfold send
  split_ifs
  · refine aside_push m fun message' hm => ?_
    simp only [Action.to] at hm
    split_ifs at hm with hba
    obtain rfl := Option.some.inj hm
    exact h.resolve_left fun hne => hne hba
  · exact .of_out rfl

/-- A Notify is about the ASPs of a server, but for one that another ASP takes over from. -/
theorem aside_notify (m : Aspm) (s : ℕ) {status : Status} (about : Option ℕ) {whom : ℕ → Bool}
    (h : status ≠ .alternateAspActive ∨ whom a = false) :
    Aside a m (m.notify l s status about whom) := by
  rw [notify_eq]
  refine ⟨_, rfl, fun x hx message hm => ?_⟩
  obtain ⟨b, hb, rfl⟩ := List.mem_map.mp hx
  simp only [Action.to] at hm
  split_ifs at hm with hba
  obtain rfl := Option.some.inj hm
  refine decide_eq_false (h.resolve_right fun hwhom => ?_)
  subst hba
  have hreached := (List.mem_filter.mp hb).2
  simp [reached, hwhom] at hreached

theorem aside_announce (m : Aspm) (s : ℕ) (whom : ℕ → Bool) : Aside a m (m.announce l s whom) := by
  unfold announce
  cases hstatus : Status.of (m.servers s) with
  | none => exact .of_out rfl
  | some status =>
    refine aside_notify m s none (.inl ?_)
    rintro rfl
    cases hserver : m.servers s <;> simp [hserver, Status.of] at hstatus

theorem aside_timers (m : Aspm) (s : ℕ) (old new : AsState) :
    Aside a m (m.timers l s old new) := by
  unfold timers
  have hstop : Aside a m (if old = .pending then m.push (.stop (.recovery s)) else m) := by
    split_ifs
    · exact aside_push m fun message hm => by cases hm
    · exact .of_out rfl
  dsimp only
  split
  · exact hstop.trans (aside_push _ fun message hm => by cases hm)
  · exact hstop

theorem aside_evaluate (m : Aspm) (s : ℕ) : Aside a m (m.evaluate l s).2 := by
  unfold evaluate
  dsimp only
  split_ifs
  · exact .of_out rfl
  · have htimers : Aside a m ((m.setServer s (m.target l s)).timers l s (m.servers s)
        (m.target l s)) := (Aside.of_out rfl).trans (aside_timers _ s _ _)
    exact (htimers.trans (aside_push _ fun message hm => by cases hm)).trans
      (aside_announce _ s _)

theorem aside_resources (m : Aspm) (s : ℕ) : Aside a m (m.resources l s) := by
  unfold resources
  split_ifs
  · exact aside_notify m s none (.inl (by decide))
  · exact .of_out rfl

theorem aside_recoveryExpired (m : Aspm) (s : ℕ) : Aside a m (m.recoveryExpired l s) := by
  unfold recoveryExpired
  split_ifs
  all_goals first
    | exact .of_out rfl
    | exact ((Aside.of_out rfl).trans (aside_push _ fun message hm => by cases hm)).trans
        (aside_announce _ s _)

theorem aside_bringUpIn (m : Aspm) (b s : ℕ) : Aside a m (m.bringUpIn l b s) := by
  have heval : Aside a m ((m.push (.asp b s .inactive)).evaluate l s).2 :=
    (aside_push m fun message hm => by cases hm).trans (aside_evaluate _ s)
  unfold bringUpIn
  dsimp only
  split_ifs
  · exact heval
  · exact heval.trans (aside_announce _ s _)

theorem aside_bringUp (m : Aspm) (b : ℕ) (id : Option ℕ) : Aside a m (m.bringUp l b id) :=
  (Aside.of_out rfl).trans (Aside.foldl (fun m s => aside_bringUpIn m b s) _ _)

theorem aside_takeDownIn (m : Aspm) (b : ℕ) (failed : Bool) (s : ℕ) :
    Aside a m (m.takeDownIn l b failed s) := by
  have hfall : Aside a m (m.fall l b failed s) := by
    have hpush : Aside a m (m.push (.asp b s .down)) := aside_push m fun message hm => by cases hm
    unfold fall
    split_ifs
    · exact hpush.trans (aside_notify _ s _ (.inl (by decide)))
    · exact hpush
  rw [takeDownIn_eq]
  exact (hfall.trans (aside_evaluate _ s)).trans (aside_resources _ s)

theorem aside_takeDown (m : Aspm) (b : ℕ) (failed : Bool) :
    Aside a m (m.takeDown l b failed) := by
  unfold takeDown
  split_ifs
  · exact .of_out rfl
  · have hfallen : Aside a m (m.fallen l b) :=
      .of_out (clear_foldl b (l.asp b).servers m).2.1
    exact (hfallen.trans (Aside.foldl (fun m s => aside_takeDownIn m b failed s) _ _)).trans
      (.of_out rfl)

theorem aside_deactivate (m : Aspm) (b s : ℕ) : Aside a m (m.deactivate l b s) := by
  rcases deactivate_cases (l := l) m b s with hsame | ⟨-, -, heq⟩
  · exact .of_out (by rw [hsame])
  · rw [heq]
    have hreport : Aside a m ((m.setActive b s false).push (.asp b s .inactive)) :=
      (Aside.of_out rfl).trans (aside_push _ fun message hm => by cases hm)
    exact (hreport.trans (aside_evaluate _ s)).trans (aside_resources _ s)

theorem aside_displace (m : Aspm) (b s : ℕ) {other : ℕ} (h : other ≠ a) :
    Aside a m (m.displace l b s other) := by
  have hreport : Aside a m ((m.setActive other s false).push (.asp other s .inactive)) :=
    (Aside.of_out rfl).trans (aside_push _ fun message hm => by cases hm)
  exact hreport.trans (aside_notify _ s _ (.inr (decide_eq_false fun heq => h heq.symm)))

/-! ## The flags of an ASP -/

theorem standing_of_asps (h : m'.asps = m.asps) (a s : ℕ) : m'.standing a s = m.standing a s := by
  simp only [standing, h]

theorem standing_send (m : Aspm) (b : ℕ) (message : Message) (a s : ℕ) :
    (m.send l b message).standing a s = m.standing a s :=
  standing_of_asps (send_asps m b message) a s

theorem standing_setActive (m : Aspm) (b t : ℕ) (on : Bool) (a s : ℕ) :
    (m.setActive b t on).standing a s =
      if b = a ∧ t = s then ((m.asps a).up, on) else m.standing a s := by
  unfold standing
  rw [setActive_up, setActive_active]
  by_cases hba : b = a <;> by_cases hts : t = s <;> simp [hba, hts, eq_comm]

/-- An ASP that is down is not deactivated, and has no flag either. -/
theorem standing_deactivate (h : Proper (m.standing a s)) (hs : s ∈ (l.asp a).servers) (b t : ℕ) :
    (m.deactivate l b t).standing a s =
      if b = a ∧ t = s then ((m.asps a).up, false) else m.standing a s := by
  by_cases hit : b = a ∧ t = s
  · obtain ⟨rfl, rfl⟩ := hit
    rw [if_pos ⟨rfl, rfl⟩]
    unfold deactivate
    rw [if_neg (not_not.mpr hs)]
    split_ifs with hoff
    · have hflag : (m.asps b).active t = false := hoff.elim h id
      simp [standing, hflag]
    · rw [standing_of_asps (resources_asps _ t), standing_of_asps (evaluate_asps _ t)]
      exact (standing_setActive m b t false b t).trans (if_pos ⟨rfl, rfl⟩)
  · rw [if_neg hit]
    rcases deactivate_cases (l := l) m b t with hsame | ⟨-, -, heq⟩
    · rw [hsame]
    · rw [heq, standing_of_asps (resources_asps _ t), standing_of_asps (evaluate_asps _ t)]
      exact (standing_setActive m b t false a s).trans (if_neg hit)

theorem standing_deactivate_foldl (h : Proper (m.standing a s)) (hs : s ∈ (l.asp a).servers)
    (b : ℕ) (servers : List ℕ) :
    (servers.foldl (fun m t => m.deactivate l b t) m).standing a s =
      if b = a ∧ s ∈ servers then ((m.asps a).up, false) else m.standing a s := by
  induction servers generalizing m with
  | nil => simp
  | cons t servers ih =>
    have hone := standing_deactivate h hs b t
    have hup : ((m.deactivate l b t).asps a).up = (m.asps a).up := (only_deactivate m b t).up a
    have hproper : Proper ((m.deactivate l b t).standing a s) := by
      rw [hone]
      split_ifs
      · exact fun _ => rfl
      · exact h
    rw [List.foldl_cons, ih hproper, hup, hone]
    have hcomm : s = t ↔ t = s := eq_comm
    by_cases hba : b = a <;> by_cases hts : t = s <;> simp [hcomm, hba, hts]

theorem standing_displace (m : Aspm) (b t other a s : ℕ) :
    (m.displace l b t other).standing a s =
      if other = a ∧ t = s then ((m.asps a).up, false) else m.standing a s :=
  (standing_of_asps (notify_asps _ t _ _ _) a s).trans (standing_setActive m other t false a s)

theorem standing_displace_foldl (m : Aspm) (b t : ℕ) {others : List ℕ} (h : a ∉ others) (s : ℕ) :
    (others.foldl (displace l b t) m).standing a s = m.standing a s := by
  induction others generalizing m with
  | nil => rfl
  | cons other others ih =>
    obtain ⟨hne, hrest⟩ := not_or.mp (List.mem_cons.not.mp h)
    rw [List.foldl_cons, ih _ hrest, standing_displace, if_neg fun heq => hne heq.1.symm]

theorem not_mem_displaced (m : Aspm) (a t : ℕ) : a ∉ m.displaced l a t := by
  unfold displaced
  split_ifs <;> simp

/-- What becoming active does to an ASP that is not displaced. -/
theorem standing_activate (hs : s ∈ (l.asp a).servers) (b t : ℕ) (h : a ∉ m.displaced l b t) :
    (m.activate l b t).standing a s =
      if b = a ∧ t = s then ((m.asps a).up, true) else m.standing a s := by
  have hreport : ((m.setActive b t true).push (.asp b t .active)).standing a s =
      if b = a ∧ t = s then ((m.asps a).up, true) else m.standing a s :=
    standing_setActive m b t true a s
  by_cases hon : t ∈ (l.asp b).servers ∧ (m.asps b).active t = false
  · have heq : m.activate l b t = (((m.displaced l b t).foldl (displace l b t)
        ((m.setActive b t true).push (.asp b t .active))).evaluate l t).2.push
          (.activated b t) := by
      unfold activate
      rw [if_neg (not_not.mpr hon.1), if_neg (by simp [hon.2])]
      rfl
    rw [heq]
    refine (standing_of_asps (evaluate_asps _ t) a s).trans ?_
    exact (standing_displace_foldl _ b t h s).trans hreport
  · have hsame : m.activate l b t = m := by
      unfold activate
      by_cases ht : t ∈ (l.asp b).servers
      · rw [if_neg (not_not.mpr ht)]
        exact if_pos (by simpa [ht] using hon)
      · exact if_pos ht
    rw [hsame]
    split_ifs with hit
    · obtain ⟨rfl, rfl⟩ := hit
      have hflag : (m.asps b).active t = true := by simpa [hs] using hon
      rw [standing, hflag]
    · rfl

theorem aside_activate (m : Aspm) (b t : ℕ) (h : a ∉ m.displaced l b t) :
    Aside a m (m.activate l b t) := by
  rcases activate_cases (l := l) m b t with hsame | ⟨-, heq⟩
  · exact .of_out (by rw [hsame])
  · have hreport : Aside a m ((m.setActive b t true).push (.asp b t .active)) :=
      (Aside.of_out rfl).trans (aside_push _ fun message hm => by cases hm)
    have hdisplace : ∀ (others : List ℕ) (m : Aspm), a ∉ others →
        Aside a m (others.foldl (displace l b t) m) := by
      intro others
      induction others with
      | nil => exact fun _ _ => .of_out rfl
      | cons other others ih =>
        intro m hnot
        obtain ⟨hne, hrest⟩ := not_or.mp (List.mem_cons.not.mp hnot)
        exact (aside_displace m b t fun heq => hne heq.symm).trans (ih _ hrest)
    rw [heq]
    exact ((hreport.trans (hdisplace _ _ h)).trans (aside_evaluate _ t)).trans
      (aside_push _ fun message hm => by cases hm)

theorem standing_activate_foldl (m : Aspm) (hs : s ∈ (l.asp a).servers) (servers : List ℕ) :
    (servers.foldl (fun m t => m.activate l a t) m).standing a s =
      if s ∈ servers then ((m.asps a).up, true) else m.standing a s := by
  induction servers generalizing m with
  | nil => simp
  | cons t servers ih =>
    have hup : ((m.activate l a t).asps a).up = (m.asps a).up := (only_activate m a t).up a
    rw [List.foldl_cons, ih, hup, standing_activate hs a t (not_mem_displaced m a t)]
    have hcomm : s = t ↔ t = s := eq_comm
    by_cases hts : t = s <;> simp [hcomm, hts]

theorem standing_bringUp (m : Aspm) (b : ℕ) (id : Option ℕ) (a s : ℕ) :
    (m.bringUp l b id).standing a s =
      (if b = a then true else (m.asps a).up, (m.asps a).active s) := by
  have hloop : ∀ (servers : List ℕ) (m : Aspm),
      (servers.foldl (bringUpIn l b) m).asps = m.asps := by
    intro servers
    induction servers with
    | nil => exact fun _ => rfl
    | cons t servers ih => exact fun m => (ih _).trans (bringUpIn_asps b m t)
  refine (standing_of_asps (hloop _ _) a s).trans ?_
  simp [standing, eq_comm]

/-- An ASP that goes down is active nowhere. -/
theorem standing_takeDown (h : Proper (m.standing a s)) (hs : s ∈ (l.asp a).servers) (b : ℕ)
    (failed : Bool) :
    (m.takeDown l b failed).standing a s = if b = a then (false, false) else m.standing a s := by
  have hloop : ∀ (servers : List ℕ) (m : Aspm),
      (servers.foldl (takeDownIn l b failed) m).asps = m.asps := by
    intro servers
    induction servers with
    | nil => exact fun _ => rfl
    | cons t servers ih => exact fun m => (ih _).trans (takeDownIn_asps b failed m t)
  unfold takeDown
  split_ifs with hdown hba hba
  · subst hba
    have hoff : (m.asps b).active s = false := h hdown
    simp [standing, hdown, hoff]
  · rfl
  all_goals
    have hfallen : (m.fallen l b).standing a s =
        if b = a then (false, false) else m.standing a s := by
      obtain ⟨-, -, hup, hactive⟩ := clear_foldl b (l.asp b).servers m
      by_cases heq : b = a
      · subst heq
        simp [standing, fallen, hactive, hs]
      · have hne : a ≠ b := fun h => heq h.symm
        simp [standing, fallen, hup, hactive, heq, hne]
    have hall : (((l.asp b).servers.foldl (takeDownIn l b failed) (m.fallen l b)).setIdentifier b
        none).standing a s = (m.fallen l b).standing a s := by
      rw [← standing_of_asps (hloop (l.asp b).servers (m.fallen l b)) a s]
      simp [standing]
    exact hall.trans (hfallen.trans (by simp [hba]))

/-! ## What an ASP is told takes it to its state -/

/-- What the actions given since send an ASP takes it from the state that it had in a server to the
one that it has. -/
def Relays (l : Layout) (a s : ℕ) (m m' : Aspm) : Prop :=
  ∃ extra, m'.out = m.out ++ extra ∧
    (extra.filterMap (Action.to a)).foldl (Message.tells (l.server s).routingContext)
      (m.standing a s) = m'.standing a s

theorem foldl_tells_aside {extra : List Action} (h : ∀ x ∈ extra, ∀ message,
    x.to a = some message → message.moves = false) (context : ℕ) (b : Bool × Bool) :
    (extra.filterMap (Action.to a)).foldl (Message.tells context) b = b := by
  induction extra with
  | nil => rfl
  | cons x extra ih =>
    have hrest := ih fun y hy => h y (List.mem_cons_of_mem x hy)
    cases hx : x.to a with
    | none => rwa [List.filterMap_cons_none hx]
    | some message =>
      have hmoves := h x List.mem_cons_self message hx
      rw [List.filterMap_cons_some hx, List.foldl_cons, Message.tells_of_not_moves hmoves]
      exact hrest

theorem Aside.relays (h : Aside a m m') (hsame : m'.standing a s = m.standing a s) :
    Relays l a s m m' := by
  obtain ⟨extra, hout, hextra⟩ := h
  exact ⟨extra, hout, (foldl_tells_aside hextra _ _).trans hsame.symm⟩

theorem Relays.trans (h : Relays l a s m m') (h' : Relays l a s m' m'') : Relays l a s m m'' := by
  obtain ⟨extra, hout, htold⟩ := h
  obtain ⟨extra', hout', htold'⟩ := h'
  refine ⟨extra ++ extra', by rw [hout', hout, List.append_assoc], ?_⟩
  rw [List.filterMap_append, List.foldl_append, htold, htold']

/-- An ASP is sent a message of its state, and is then told nothing more of it. -/
theorem Aside.tells (hgateway : (l.asp a).gateway = true) {message : Message}
    (h : Aside a (m.send l a message) m') (context : ℕ) :
    ∃ extra, m'.out = m.out ++ extra ∧ ∀ b,
      (extra.filterMap (Action.to a)).foldl (Message.tells context) b =
        message.tells context b := by
  have hout : (m.send l a message).out = m.out ++ [.send a message] := by
    rw [send, if_pos hgateway]
    rfl
  have hto : (Action.send a message).to a = some message := if_pos rfl
  obtain ⟨extra, hextra, haside⟩ := h
  refine ⟨.send a message :: extra, by rw [hextra, hout]; simp, fun b => ?_⟩
  rw [List.filterMap_cons_some hto, List.foldl_cons, foldl_tells_aside haside]

theorem Relays.of_send (hgateway : (l.asp a).gateway = true) {message : Message}
    (h : Aside a (m.send l a message) m')
    (hs : m'.standing a s = message.tells (l.server s).routingContext (m.standing a s)) :
    Relays l a s m m' := by
  obtain ⟨extra, hout, htold⟩ := h.tells hgateway (l.server s).routingContext
  exact ⟨extra, hout, (htold _).trans hs.symm⟩

/-- What the actions given since send an ASP takes it to the state that it has in a server from
whichever it took itself to have. -/
def Resets (l : Layout) (a s : ℕ) (m m' : Aspm) : Prop :=
  ∃ extra, m'.out = m.out ++ extra ∧ ∀ b,
    (extra.filterMap (Action.to a)).foldl (Message.tells (l.server s).routingContext) b =
      m'.standing a s

theorem Resets.relays (h : Resets l a s m m') : Relays l a s m m' := by
  obtain ⟨extra, hout, htold⟩ := h
  exact ⟨extra, hout, htold _⟩

theorem Resets.trans (h : Resets l a s m m') (h' : Relays l a s m' m'') : Resets l a s m m'' := by
  obtain ⟨extra, hout, htold⟩ := h
  obtain ⟨extra', hout', htold'⟩ := h'
  refine ⟨extra ++ extra', by rw [hout', hout, List.append_assoc], fun b => ?_⟩
  rw [List.filterMap_append, List.foldl_append, htold, htold']

/-- An ASP that is displaced is told so, once or more often. -/
theorem foldl_tells_displaced (context about : ℕ) {messages : List Message}
    (h : ∀ message ∈ messages, ∃ server id,
      message = .notify server .alternateAspActive id about) (hne : messages ≠ [])
    (b : Bool × Bool) :
    messages.foldl (Message.tells context) b = (b.1, b.2 && !decide (about = context)) := by
  induction messages generalizing b with
  | nil => exact absurd rfl hne
  | cons message messages ih =>
    obtain ⟨server, id, rfl⟩ := h message List.mem_cons_self
    rw [List.foldl_cons]
    cases messages with
    | nil => simp [Message.tells]
    | cons next rest =>
      rw [ih (fun message hmem => h message (List.mem_cons_of_mem _ hmem)) (by simp)]
      simp [Message.tells]

/-- The node is the gateway of an ASP, and tells its servers, of which this is one, apart by their
Routing Contexts. -/
structure Serves (l : Layout) (a s : ℕ) : Prop where
  gateway : (l.asp a).gateway = true
  distinct : l.Distinct a
  mem : s ∈ (l.asp a).servers

theorem relays_displace (h : Serves l a s) (b t : ℕ) {other : ℕ}
    (hup : (m.asps other).up = true) (hmem : other ∈ (l.server t).asps)
    (ht : t ∈ (l.asp other).servers) : Relays l a s m (m.displace l b t other) := by
  by_cases hother : other = a
  · subst hother
    let m₁ := (m.setActive other t false).push (.asp other t .inactive)
    let told := (l.server t).asps.filter (reached l m₁ fun whom => whom = other)
    let message := Message.notify t .alternateAspActive
      ((some b).bind fun b => (m₁.asps b).identifier) (l.server t).routingContext
    have hout : (m.displace l b t other).out =
        m.out ++ .asp other t .inactive :: told.map fun c => .send c message := by
      unfold displace
      rw [notify_eq]
      simp [push, told, message, m₁]
    have htold : other ∈ told := by
      refine List.mem_filter.mpr ⟨hmem, ?_⟩
      simp [reached, m₁, hup, h.gateway]
    refine ⟨_, hout, ?_⟩
    rw [standing_displace, List.filterMap_cons_none rfl, foldl_tells_displaced
      (l.server s).routingContext (l.server t).routingContext]
    · simp only [true_and]
      split_ifs with hts
      · subst hts
        simp [standing]
      · have hcontext : (l.server t).routingContext ≠ (l.server s).routingContext :=
          fun heq => hts (h.distinct t ht s h.mem heq)
        simp [hcontext]
    · intro message' hmessage
      obtain ⟨x, hx, hto⟩ := List.mem_filterMap.mp hmessage
      obtain ⟨c, -, rfl⟩ := List.mem_map.mp hx
      simp only [Action.to] at hto
      split_ifs at hto
      exact ⟨_, _, (Option.some.inj hto).symm⟩
    · have hsent : message ∈ (told.map fun c => Action.send c message).filterMap
          (Action.to other) :=
        List.mem_filterMap.mpr ⟨_, List.mem_map_of_mem htold, if_pos rfl⟩
      exact List.ne_nil_of_mem hsent
  · exact (aside_displace m b t hother).relays
      ((standing_displace m b t other a s).trans (if_neg fun heq => hother heq.1))

/-- Another ASP becomes active, and may take over from this one. -/
theorem relays_activate (h : Serves l a s) (m : Aspm) {b : ℕ} (hb : b ≠ a) (t : ℕ) :
    Relays l a s m (m.activate l b t) := by
  rcases activate_cases (l := l) m b t with hsame | ⟨-, heq⟩
  · exact (Aside.of_out (by rw [hsame])).relays (by rw [hsame])
  · have hreport : Relays l a s m ((m.setActive b t true).push (.asp b t .active)) := by
      have haside : Aside a m ((m.setActive b t true).push (.asp b t .active)) :=
        (Aside.of_out rfl).trans (aside_push _ fun message hm => by cases hm)
      exact haside.relays ((standing_setActive m b t true a s).trans (if_neg fun heq => hb heq.1))
    have hothers : ∀ other ∈ m.displaced l b t, (m.asps other).up = true ∧
        other ∈ (l.server t).asps ∧ t ∈ (l.asp other).servers := by
      intro other hother
      obtain ⟨hup, ht⟩ := mem_displaced hother
      unfold displaced at hother
      split_ifs at hother
      · exact ⟨hup, (List.mem_filter.mp hother).1, ht⟩
      · exact absurd hother List.not_mem_nil
    have hdisplace : ∀ (others : List ℕ) (m : Aspm), (∀ other ∈ others,
        (m.asps other).up = true ∧ other ∈ (l.server t).asps ∧ t ∈ (l.asp other).servers) →
        Relays l a s m (others.foldl (displace l b t) m) := by
      intro others
      induction others with
      | nil => exact fun m _ => (Aside.of_out rfl).relays rfl
      | cons other others ih =>
        intro m hall
        obtain ⟨hup, hmem, ht⟩ := hall other List.mem_cons_self
        refine (relays_displace h b t hup hmem ht).trans (ih _ fun other' hother' => ?_)
        rw [(only_displace m b t other).up]
        exact hall other' (List.mem_cons_of_mem _ hother')
    have hrest : Relays l a s ((m.displaced l b t).foldl (displace l b t)
        ((m.setActive b t true).push (.asp b t .active))) (m.activate l b t) := by
      rw [heq]
      exact ((aside_evaluate _ t).trans (aside_push _ fun message hm => by cases hm)).relays
        (standing_of_asps (evaluate_asps _ t) a s)
    refine (hreport.trans (hdisplace _ _ fun other hother => ?_)).trans hrest
    rw [push_asps, setActive_up]
    exact hothers other hother

/-! ## Requests -/

theorem aside_admitted (m : Aspm) (b : ℕ) (contexts : Option (List ℕ)) :
    Aside a m (m.admitted l b contexts).2 := by
  have herror : ∀ (m : Aspm) (code : ErrorCode) (named : List ℕ),
      Aside a m (m.send l b (.error code named)) := fun m _ _ => aside_send m (.inr rfl)
  unfold admitted
  dsimp only
  split_ifs
  all_goals first
    | exact herror m _ _
    | exact (herror m _ _).trans (herror _ _ _)
    | exact .of_out rfl

theorem admitted_asps (m : Aspm) (b : ℕ) (contexts : Option (List ℕ)) :
    (m.admitted l b contexts).2.asps = m.asps := by
  unfold admitted
  dsimp only
  split_ifs <;> simp only [send_asps]

theorem recoveryExpired_asps (m : Aspm) (t : ℕ) : (m.recoveryExpired l t).asps = m.asps := by
  unfold recoveryExpired
  by_cases hp : m.servers t = .pending
  · rw [if_neg (not_not.mpr hp)]
    exact (announce_asps _ t _).trans rfl
  · rw [if_pos hp]

/-- An ASP that is up already is made inactive if it was active anywhere. -/
def settledUp (l : Layout) (m : Aspm) (b : ℕ) : Aspm :=
  if m.anywhereActive l b then (l.asp b).servers.foldl (fun m t => m.deactivate l b t)
    (m.send l b (.error .unexpectedMessage [])) else m

theorem up_eq (m : Aspm) (b : ℕ) (id : Option ℕ) :
    m.up l b id = if ((m.send l b .upAck).asps b).up = false then
        (m.send l b .upAck).bringUp l b id
      else if id.isSome then ((m.send l b .upAck).settledUp l b).setIdentifier b id
      else (m.send l b .upAck).settledUp l b := rfl

/-! ### Of other ASPs -/

/-- A relation that holds of the states before and after whatever leaves an ASP alone, and of those
before and after another ASP becomes active. -/
structure Carries (l : Layout) (a s : ℕ) (R : Aspm → Aspm → Prop) : Prop where
  aside : ∀ {m m' : Aspm}, Aside a m m' → m'.standing a s = m.standing a s → R m m'
  trans : ∀ {m m' m'' : Aspm}, R m m' → R m' m'' → R m m''
  proper : ∀ {m m' : Aspm}, R m m' → Proper (m.standing a s) → Proper (m'.standing a s)
  activate : ∀ (m : Aspm) {b : ℕ}, b ≠ a → ∀ t, R m (m.activate l b t)

namespace Carries

variable {R : Aspm → Aspm → Prop}

theorem refl (h : Carries l a s R) (m : Aspm) : R m m := h.aside (.of_out rfl) rfl

theorem foldl (h : Carries l a s R) {ι : Type*} {f : Aspm → ι → Aspm} (hf : ∀ m i, R m (f m i))
    (is : List ι) (m : Aspm) : R m (is.foldl f m) := by
  induction is generalizing m with
  | nil => exact h.refl m
  | cons i is ih => exact h.trans (hf m i) (ih (f m i))

theorem send (h : Carries l a s R) (m : Aspm) (hb : b ≠ a) (message : Message) :
    R m (m.send l b message) :=
  h.aside (aside_send m (.inl hb)) (standing_send m b message a s)

theorem error (h : Carries l a s R) (m : Aspm) (b : ℕ) (code : ErrorCode) (named : List ℕ) :
    R m (m.send l b (.error code named)) :=
  h.aside (aside_send m (.inr rfl)) (standing_send m b _ a s)

theorem admitted (h : Carries l a s R) (m : Aspm) (b : ℕ) (contexts : Option (List ℕ)) :
    R m (m.admitted l b contexts).2 :=
  h.aside (aside_admitted m b contexts) (standing_of_asps (admitted_asps m b contexts) a s)

theorem setIdentifier (h : Carries l a s R) (m : Aspm) (b : ℕ) (id : Option ℕ) :
    R m (m.setIdentifier b id) :=
  h.aside (.of_out rfl) (by simp [standing])

theorem bringUp (h : Carries l a s R) (m : Aspm) (hb : b ≠ a) (id : Option ℕ) :
    R m (m.bringUp l b id) := by
  refine h.aside (aside_bringUp m b id) ((standing_bringUp m b id a s).trans ?_)
  rw [if_neg hb]
  rfl

theorem takeDown (h : Carries l a s R) (hs : s ∈ (l.asp a).servers)
    (hproper : Proper (m.standing a s)) (hb : b ≠ a) (failed : Bool) :
    R m (m.takeDown l b failed) :=
  h.aside (aside_takeDown m b failed)
    ((standing_takeDown hproper hs b failed).trans (if_neg fun heq => hb heq))

theorem deactivate (h : Carries l a s R) (hs : s ∈ (l.asp a).servers)
    (hproper : Proper (m.standing a s)) (hb : b ≠ a) (servers : List ℕ) :
    R m (servers.foldl (fun m t => m.deactivate l b t) m) := by
  refine h.aside (Aside.foldl (fun m t => aside_deactivate m b t) servers m) ?_
  exact (standing_deactivate_foldl hproper hs b servers).trans (if_neg fun heq => hb heq.1)

theorem settledUp (h : Carries l a s R) (hs : s ∈ (l.asp a).servers)
    (hproper : Proper (m.standing a s)) (hb : b ≠ a) : R m (m.settledUp l b) := by
  unfold Aspm.settledUp
  split_ifs
  · have herror := h.send m hb (.error .unexpectedMessage [])
    exact h.trans herror (h.deactivate hs (h.proper herror hproper) hb _)
  · exact h.refl m

theorem up (h : Carries l a s R) (hs : s ∈ (l.asp a).servers)
    (hproper : Proper (m.standing a s)) (hb : b ≠ a) (id : Option ℕ) : R m (m.up l b id) := by
  have hack : R m (m.send l b .upAck) := h.send m hb .upAck
  have hsettled := h.trans hack (h.settledUp hs (h.proper hack hproper) hb)
  rw [up_eq]
  split_ifs
  · exact h.trans hack (h.bringUp _ hb id)
  · exact h.trans hsettled (h.setIdentifier _ b id)
  · exact hsettled

theorem active (h : Carries l a s R) (m : Aspm) (hb : b ≠ a) (mode : Option ℕ)
    (contexts : Option (List ℕ)) : R m (m.active l b mode contexts) := by
  have hadmitted : R m (m.admitted l b contexts).2 := h.admitted m b contexts
  have hactivate : ∀ (servers : List ℕ) (m : Aspm),
      R m (servers.foldl (fun m t => m.activate l b t) m) := h.foldl fun m t => h.activate m hb t
  unfold Aspm.active
  dsimp only
  split_ifs
  · exact h.trans hadmitted (h.send _ hb _)
  · exact hadmitted
  · exact h.trans (h.trans (h.trans hadmitted (h.send _ hb _)) (h.send _ hb _)) (hactivate _ _)
  · exact h.trans (h.trans hadmitted (h.send _ hb _)) (hactivate _ _)

theorem inactive (h : Carries l a s R) (hs : s ∈ (l.asp a).servers)
    (hproper : Proper (m.standing a s)) (hb : b ≠ a) (contexts : Option (List ℕ)) :
    R m (m.inactive l b contexts) := by
  have hadmitted : R m (m.admitted l b contexts).2 := h.admitted m b contexts
  unfold Aspm.inactive
  dsimp only
  split_ifs
  · exact hadmitted
  · have hack := h.trans hadmitted (h.send (m.admitted l b contexts).2 hb
      (.inactiveAck (reflected l contexts (m.admitted l b contexts).1)))
    exact h.trans hack (h.deactivate hs (h.proper hack hproper) hb _)

/-- It holds of whatever other ASPs ask for, and of what becomes of them. -/
theorem react (h : Carries l a s R) (hs : s ∈ (l.asp a).servers)
    (hproper : Proper (m.standing a s)) {input : Input} (hof : input.of ≠ some a) :
    R m (m.react l input) := by
  have hguard : ∀ {p : Prop} [Decidable p] {m' : Aspm}, R m m' → R m (if p then m' else m) := by
    intro p _ m' hrelates
    split_ifs
    · exact hrelates
    · exact h.refl m
  have hne : ∀ b, input.of = some b → b ≠ a := fun b heq hba => hof (hba ▸ heq)
  cases input with
  | up b id => exact hguard (h.up hs hproper (hne b rfl) id)
  | down b =>
    have hack : R m (m.send l b .downAck) := h.send m (hne b rfl) .downAck
    exact hguard (h.trans hack (h.takeDown hs (h.proper hack hproper) (hne b rfl) false))
  | active b mode contexts => exact hguard (h.active m (hne b rfl) mode contexts)
  | inactive b contexts => exact hguard (h.inactive hs hproper (hne b rfl) contexts)
  | lost b => exact hguard (h.takeDown hs hproper (hne b rfl) true)
  | peerUp b => exact hguard (h.bringUp m (hne b rfl) none)
  | peerActive b contexts =>
    exact hguard (h.foldl (fun m t => h.activate m (hne b rfl) t) _ m)
  | peerInactive b contexts => exact hguard (h.deactivate hs hproper (hne b rfl) _)
  | timeout timer =>
    obtain ⟨t⟩ := timer
    exact hguard (h.aside (aside_recoveryExpired m t)
      (standing_of_asps (recoveryExpired_asps m t) a s))

end Carries

theorem Serves.carries (h : Serves l a s) : Carries l a s (Relays l a s) where
  aside := Aside.relays
  trans := Relays.trans
  proper := by
    rintro m m' ⟨extra, -, htold⟩ hproper
    rw [← htold]
    exact proper_foldl _ hproper _
  activate m _ hb t := relays_activate h m hb t

/-- Nobody takes over from an ASP that alone serves each of its servers in which one ASP is active
at a time. -/
theorem carries_of_sole (hl : l.Consistent) (hsole : l.Sole a) (hs : s ∈ (l.asp a).servers) :
    Carries l a s fun m m' => m'.standing a s = m.standing a s where
  aside _ hsame := hsame
  trans h h' := h'.trans h
  proper h hproper := h ▸ hproper
  activate m b hb t := by
    by_cases ht : t ∈ (l.asp b).servers
    · refine (standing_activate hs b t fun hmem => ?_).trans (if_neg fun heq => hb heq.1)
      have hat : t ∈ (l.asp a).servers := (mem_displaced hmem).2
      unfold displaced at hmem
      split_ifs at hmem with hmode
      · exact hb (hsole t hat hmode b ((hl b t).mp ht))
      · exact absurd hmem List.not_mem_nil
    · rw [activate, if_pos ht]

/-! ### Of the ASP itself -/

theorem standing_settledUp (hup : (m.asps a).up = true) (hs : s ∈ (l.asp a).servers) :
    (m.settledUp l a).standing a s = (true, false) := by
  have hproper : Proper (m.standing a s) := fun hdown => absurd (hup.symm.trans hdown) (by simp)
  unfold settledUp
  split_ifs with hactive
  · have hsend : (m.send l a (.error .unexpectedMessage [])).asps = m.asps := send_asps m a _
    rw [standing_deactivate_foldl (by rwa [standing_of_asps hsend]) hs, if_pos ⟨rfl, hs⟩, hsend,
      hup]
  · have hoff : (m.asps a).active s = false := by
      by_contra hon
      refine hactive ?_
      simp only [anywhereActive, hup, Bool.true_and, List.any_eq_true]
      exact ⟨s, hs, by simpa using hon⟩
    rw [standing, hup, hoff]

/-- ASP Up leaves an ASP up and active nowhere, whatever it was and took itself to be. -/
theorem resets_up (h : Serves l a s) (hproper : Proper (m.standing a s)) (id : Option ℕ) :
    Resets l a s m (m.up l a id) := by
  let m₁ := m.send l a .upAck
  have hsend : m₁.asps = m.asps := send_asps m a .upAck
  have hresets : ∀ m' : Aspm, Aside a m₁ m' → m'.standing a s = (true, false) →
      Resets l a s m m' := by
    intro m' haside hstanding
    obtain ⟨extra, hout, htold⟩ := haside.tells h.gateway (l.server s).routingContext
    exact ⟨extra, hout, fun b => (htold b).trans hstanding.symm⟩
  have haside : Aside a m₁ (m₁.settledUp l a) := by
    unfold settledUp
    split_ifs
    · exact (aside_send m₁ (.inr rfl)).trans
        (Aside.foldl (fun m t => aside_deactivate m a t) _ _)
    · exact .of_out rfl
  rw [up_eq]
  split_ifs with hdown
  · refine hresets _ (aside_bringUp m₁ a id) ((standing_bringUp m₁ a id a s).trans ?_)
    have hoff : (m₁.asps a).active s = false := (standing_of_asps hsend a s ▸ hproper) hdown
    rw [if_pos rfl, hoff]
  all_goals have hstanding : (m₁.settledUp l a).standing a s = (true, false) :=
    standing_settledUp (by simpa using hdown) h.mem
  · exact (hresets _ haside hstanding).trans (h.carries.setIdentifier _ a id)
  · exact hresets _ haside hstanding

/-- An ASP can ask only for servers that it is configured in, once it is up. -/
theorem mem_admitted {contexts : Option (List ℕ)} (ht : t ∈ (m.admitted l a contexts).1) :
    (m.asps a).up = true ∧ t ∈ (l.asp a).servers := by
  unfold admitted at ht
  split_ifs at ht with hdown
  · exact absurd ht List.not_mem_nil
  · refine ⟨by simpa using hdown, ?_⟩
    unfold concerned at ht
    cases contexts with
    | none => exact ht
    | some wanted => exact (List.mem_filter.mp ht).1

/-- An ASP that is up asks for all its servers when it names none. -/
theorem admitted_none (hup : (m.asps a).up = true) :
    (m.admitted l a none).1 = (l.asp a).servers := by
  unfold admitted
  rw [if_neg (by simp [hup])]
  rfl

/-- An acknowledgement names the servers that it is for, or none when it is for all. -/
theorem Serves.named_iff (h : Serves l a s) {contexts : Option (List ℕ)} {servers : List ℕ}
    (hservers : ∀ t ∈ servers, t ∈ (l.asp a).servers) (hne : servers ≠ [])
    (hall : contexts = none → s ∈ servers) :
    (reflected l contexts servers = [] ∨
      (l.server s).routingContext ∈ reflected l contexts servers) ↔ s ∈ servers := by
  cases contexts with
  | none => exact iff_of_true (.inl rfl) (hall rfl)
  | some contexts =>
    simp only [reflected, Option.isSome_some, if_true, List.map_eq_nil_iff, hne, false_or,
      List.mem_map]
    constructor
    · rintro ⟨t, ht, heq⟩
      obtain rfl := h.distinct t (hservers t ht) s h.mem heq
      exact ht
    · exact fun hs => ⟨s, hs, rfl⟩

/-- An ASP becomes active in the servers that are acknowledged to it. -/
theorem relays_acknowledged (h : Serves l a s) (mode : Option ℕ) {contexts : List ℕ}
    {servers : List ℕ} (hup : (m.asps a).up = true)
    (hnamed : (contexts = [] ∨ (l.server s).routingContext ∈ contexts) ↔ s ∈ servers) :
    Relays l a s m (servers.foldl (fun m t => m.activate l a t)
      (m.send l a (.activeAck mode contexts))) := by
  have hsend : (m.send l a (.activeAck mode contexts)).asps = m.asps := send_asps m a _
  refine .of_send h.gateway (Aside.foldl (fun m t =>
    aside_activate m a t (not_mem_displaced m a t)) servers _) ?_
  rw [standing_activate_foldl _ h.mem, hsend, standing_of_asps hsend]
  simp only [Message.tells, hnamed]
  split_ifs with hs
  · simp [standing, hup, hs]
  · simp [standing, hs]

/-- ASP Active makes an ASP active in the servers that it is for and whose modes suit, if the ASP is
up. An acknowledgement of a request for all servers names none, so a mode has to suit them. -/
theorem relays_active (h : Serves l a s) (m : Aspm) {mode : Option ℕ}
    {contexts : Option (List ℕ)}
    (hsuits : contexts = none → mode = none ∨ mode = some (modeValue (l.server s).mode)) :
    Relays l a s m (m.active l a mode contexts) := by
  have hadmitted : Relays l a s m (m.admitted l a contexts).2 := h.carries.admitted m a _
  have hasps := admitted_asps (l := l) m a contexts
  unfold active
  dsimp only
  generalize haccepted : (m.admitted l a contexts).1.filter (fun t =>
    decide (mode = none) || decide (mode = some (modeValue (l.server t).mode))) = accepted
  have hservers : ∀ t ∈ accepted, (m.asps a).up = true ∧ t ∈ (l.asp a).servers := by
    intro t ht
    rw [← haccepted] at ht
    exact mem_admitted (List.mem_filter.mp ht).1
  have hacked : accepted ≠ [] → (m.asps a).up = true ∧ ((reflected l contexts accepted = [] ∨
      (l.server s).routingContext ∈ reflected l contexts accepted) ↔ s ∈ accepted) := by
    intro hne
    obtain ⟨first, hfirst⟩ := List.exists_mem_of_ne_nil accepted hne
    have hup : (m.asps a).up = true := (hservers first hfirst).1
    refine ⟨hup, h.named_iff (fun t ht => (hservers t ht).2) hne fun hnone => ?_⟩
    subst hnone
    rw [← haccepted, admitted_none hup]
    exact List.mem_filter.mpr ⟨h.mem, by simpa using hsuits rfl⟩
  split_ifs with hnone hrefused hrefused
  · exact hadmitted.trans (h.carries.error _ a _ _)
  · exact hadmitted
  · refine (hadmitted.trans (h.carries.error _ a _ _)).trans
      (relays_acknowledged h mode ?_ (hacked hnone).2)
    rw [send_asps, hasps]
    exact (hacked hnone).1
  · refine hadmitted.trans (relays_acknowledged h mode ?_ (hacked hnone).2)
    rw [hasps]
    exact (hacked hnone).1

end Aspm

end SiphonSigtran.Transport
