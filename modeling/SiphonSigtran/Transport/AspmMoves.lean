import SiphonSigtran.Transport.AspmSteps

/-!
# What each operation of ASP state maintenance keeps

Every operation on one server leaves it in the state its ASPs justify, with
everything reported and told. An ASP that comes up or goes down is in several
servers: those the loop has not reached yet wait for it.
-/

namespace SiphonSigtran.Transport

open Lib

namespace Aspm

variable {l : Layout} {r0 : Seen} {m m' : Aspm} {s : ℕ}

/-! ## A server moves -/

section

variable {deaf : List ℕ}

theorem only_evaluate (m : Aspm) (s : ℕ) : Only s m (m.evaluate l s).2 := by
  unfold evaluate
  dsimp only
  split_ifs
  · exact Only.refl s m
  · exact (((only_setServer m s _).trans (only_timers _ s _ _)).trans
      (only_push _ rfl)).trans (only_announce _ s _)

theorem evaluate_asps (m : Aspm) (s : ℕ) : (m.evaluate l s).2.asps = m.asps := by
  unfold evaluate
  dsimp only
  split_ifs
  · rfl
  · rw [announce_asps, push_asps, timers_asps, setServer_asps]

theorem asp_ne_down {due : Bool} (h : Base l r0 ⟨[], deaf, due⟩ m s) :
    ∀ a ∈ (l.server s).asps, (m.asps a).up = true → (m.seen r0).asp a s ≠ .down := by
  intro a ha hup
  rw [h.asp a ha (by simp)]
  exact aspState_ne_down hup

/-- The server as it is when its move is reported. -/
theorem Base.moved (h : Base l r0 ⟨[], deaf, false⟩ m s) (hne : m.target l s ≠ m.servers s) :
    Base l r0 ⟨[], (l.server s).asps, false⟩
      (((m.setServer s (m.target l s)).timers l s (m.servers s) (m.target l s)).push
        (.server s (m.target l s))) s := by
  have hrec := target_recovery (l := l) h
  have htimers := seen_timers r0 (m.setServer s (m.target l s)) s hne hrec
    (h.timer.trans (by simp))
  refine h.move hrec ?_ ?_ ⟨?_, ?_, ?_⟩
  · rw [push_asps, timers_asps, setServer_asps]
  · rw [push_servers, timers_servers, setServer_servers]
  · rw [seen_push]
    exact htimers.1
  · rw [seen_push]
    simp [Seen.see]
  · rw [seen_push]
    simpa [Seen.see] using htimers.2

/-- After it is evaluated a server is in the state its ASPs put it in, and they know. -/
theorem evaluate_spec (h : Base l r0 ⟨[], deaf, false⟩ m s) (hsingle : Single l m s) :
    Base l r0 ⟨[], if (m.evaluate l s).1 then [] else deaf, false⟩ (m.evaluate l s).2 s ∧
    Settled l (m.evaluate l s).2 s := by
  by_cases hne : m.target l s = m.servers s
  · have hsame : m.evaluate l s = (false, m) := if_pos hne
    rw [hsame]
    exact ⟨h, settled_target hsingle hne rfl rfl⟩
  · have hmoved : m.evaluate l s = (true, (((m.setServer s (m.target l s)).timers l s
        (m.servers s) (m.target l s)).push (.server s (m.target l s))).announce l s
          fun _ => true) := if_neg hne
    have hbase := h.moved hne
    rw [hmoved]
    set m' := ((m.setServer s (m.target l s)).timers l s (m.servers s) (m.target l s)).push
      (.server s (m.target l s)) with hm'
    have hasps : m'.asps = m.asps := by rw [hm', push_asps, timers_asps, setServer_asps]
    have hservers : m'.servers s = m.target l s := by
      rw [hm', push_servers, timers_servers, setServer_servers, Function.update_self]
    have hsettled : Settled l m' s := settled_target hsingle rfl hasps hservers
    constructor
    · refine hbase.announce (fun a ha hup hd => ?_) fun _ _ _ _ => rfl
      exact Bool.false_ne_true ((hsettled.down hd a ha).symm.trans hup)
    · exact hsettled.congr (fun _ _ => by rw [announce_asps]) (fun _ _ => by rw [announce_asps])
        (by rw [announce_servers])

theorem Clean.evaluate (hc : m.Clean l r0) (h : Base l r0 ⟨[], deaf, false⟩ m s) :
    (m.evaluate l s).2.Clean l r0 := by
  by_cases hne : m.target l s = m.servers s
  · have hsame : m.evaluate l s = (false, m) := if_pos hne
    rw [hsame]
    exact hc
  · have hmoved : m.evaluate l s = (true, (((m.setServer s (m.target l s)).timers l s
        (m.servers s) (m.target l s)).push (.server s (m.target l s))).announce l s
          fun _ => true) := if_neg hne
    rw [hmoved]
    have hseen := (seen_timers r0 (m.setServer s (m.target l s)) s hne
      (target_recovery h) (h.timer.trans (by simp))).1
    have hclean : (m.setServer s (m.target l s)).Clean l r0 := hc
    refine Clean.announce (Clean.push (hclean.timers s _ _) ?_) ?_ _
    · cases ht : m.target l s with
      | active =>
        intro hreq
        obtain ⟨a, ha, hon⟩ := counts_pos.mp ((target_counts m s).1 ht hreq)
        refine ⟨a, ha, ?_⟩
        rw [← ht, hseen]
        exact (h.asp a ha (by simp)).trans (by simpa [isActive] using hon)
      | _ => trivial
    · exact asp_ne_down (h.moved hne)

theorem resources_asps (m : Aspm) (s : ℕ) : (m.resources l s).asps = m.asps := by
  unfold resources
  split_ifs
  · exact notify_asps m s _ _ _
  · rfl

theorem only_resources (m : Aspm) (s : ℕ) : Only s m (m.resources l s) := by
  unfold resources
  split_ifs
  · exact only_notify m s _ _ _
  · exact Only.refl s m

theorem resources_servers (m : Aspm) (s : ℕ) : (m.resources l s).servers = m.servers := by
  unfold resources
  split_ifs
  · exact notify_servers m s _ _ _
  · rfl

theorem Base.resources {gap : Gap} (h : Base l r0 gap m s) :
    Base l r0 gap (m.resources l s) s := by
  unfold Aspm.resources
  split_ifs
  · exact h.notify rfl s _ _
  · exact h

theorem Settled.resources (h : Settled l m s) : Settled l (m.resources l s) s :=
  h.congr (fun _ _ => by rw [resources_asps]) (fun _ _ => by rw [resources_asps])
    (by rw [resources_servers])

theorem Clean.resources {due : Bool} (hc : m.Clean l r0)
    (h : Base l r0 ⟨[], deaf, due⟩ m s) : (m.resources l s).Clean l r0 := by
  unfold Aspm.resources
  split_ifs
  · exact hc.notify (asp_ne_down h) _ _ _
  · exact hc

end

/-! ## One server -/

/-- Everything is as it is to be between two steps. -/
structure Sound (l : Layout) (r0 : Seen) (m : Aspm) (s : ℕ) : Prop where
  base : Base l r0 ⟨[], [], false⟩ m s
  settled : Settled l m s

theorem Sound.other {t : ℕ} (h : Sound l r0 m t) (ho : Only s m m') (ht : t ≠ s) :
    Sound l r0 m' t := ⟨h.base.other ho ht, h.settled.other ho ht⟩

theorem Sound.sent (h : Sound l r0 m s) {x : Action} (hx : x.about = none) :
    Sound l r0 (m.push x) s :=
  ⟨h.base.push (by rw [hx]; simp), h.settled.congr (fun _ _ => rfl) (fun _ _ => rfl) rfl⟩

theorem Sound.evaluated {deaf : List ℕ} (h : Base l r0 ⟨[], deaf, false⟩ m s)
    (hsingle : Single l m s)
    (hdeaf : (m.evaluate l s).1 = false → deaf = []) : Sound l r0 (m.evaluate l s).2 s := by
  obtain ⟨hbase, hsettled⟩ := evaluate_spec h hsingle
  refine ⟨?_, hsettled⟩
  cases hchanged : (m.evaluate l s).1 with
  | true => simpa [hchanged] using hbase
  | false => simpa [hchanged, hdeaf hchanged] using hbase

theorem Sound.resources (h : Sound l r0 m s) : Sound l r0 (m.resources l s) s :=
  ⟨h.base.resources, h.settled.resources⟩

/-- T(r) runs out, of a server that waits for it or of another. -/
theorem recoveryExpired_sound (h : Base l r0 ⟨[], [], true⟩ m s) (hsettled : Settled l m s) :
    Sound l r0 (m.recoveryExpired l s) s := by
  unfold recoveryExpired
  by_cases hp : m.servers s = .pending
  · set new : AsState := if 0 < (m.counts l s).2 then .inactive else .down with hnew
    have hnot : new ≠ .pending := by
      rw [hnew]
      split_ifs <;> simp
    have hmoved : Base l r0 ⟨[], (l.server s).asps, false⟩
        ((m.setServer s new).push (.server s new)) s := by
      refine h.move (fun hn => absurd hn hnot) rfl rfl ⟨?_, ?_, ?_⟩
      · rw [seen_push]
        rfl
      · rw [seen_push]
        simp [Seen.see]
      · rw [seen_push]
        have htimer : (m.seen r0).timer s = false := by simpa [hp] using h.timer
        have hseen : (m.setServer s new).seen r0 = m.seen r0 := rfl
        simp [Seen.see, hnot, hseen, htimer]
    have hnone : ∀ a ∈ (l.server s).asps, m.isActive l a s = false := hsettled.pending hp
    have hzero : (m.counts l s).1 = 0 := by
      by_contra hpos
      obtain ⟨a, ha, hon⟩ := counts_pos.mp (Nat.pos_of_ne_zero hpos)
      exact Bool.false_ne_true ((hnone a ha).symm.trans hon)
    have hup := counts_up (l := l) (m := m) (s := s)
    rw [hzero, Nat.zero_add] at hup
    have hmovedSettled : Settled l ((m.setServer s new).push (.server s new)) s := by
      have hs : ((m.setServer s new).push (.server s new)).servers s = new := by simp
      constructor
      · intro hstate _
        rw [hs, hnew] at hstate
        split_ifs at hstate
      · intro hstate
        exact absurd (hs.symm.trans hstate) hnot
      · intro hstate
        rw [hs, hnew] at hstate
        split_ifs at hstate with hsome
        refine ⟨hup.mp hsome, fun hreq => ?_⟩
        change (m.counts l s).1 < _
        omega
      · intro hstate a ha
        rw [hs, hnew] at hstate
        split_ifs at hstate with hsome
        by_contra hon
        exact hsome (hup.mpr ⟨a, ha, by simpa using hon⟩)
      · exact hsettled.single
    rw [if_neg (not_not.mpr hp)]
    constructor
    · refine hmoved.announce (fun a ha hupa hd => ?_) fun _ _ _ _ => rfl
      exact Bool.false_ne_true ((hmovedSettled.down hd a ha).symm.trans hupa)
    · exact hmovedSettled.congr (fun _ _ => by rw [announce_asps])
        (fun _ _ => by rw [announce_asps]) (by rw [announce_servers])
  · rw [if_pos hp]
    refine ⟨⟨h.flag, h.recovery, h.asp, h.server, ?_, h.told⟩, hsettled⟩
    simpa [hp] using h.timer

theorem only_recoveryExpired (m : Aspm) (s : ℕ) : Only s m (m.recoveryExpired l s) := by
  unfold recoveryExpired
  by_cases hp : m.servers s = .pending
  · rw [if_neg (not_not.mpr hp)]
    exact ((only_setServer m s _).trans (only_push _ rfl)).trans (only_announce _ s _)
  · rw [if_pos hp]
    exact Only.refl s m

theorem Clean.recoveryExpired {due : Bool} (hc : m.Clean l r0)
    (h : Base l r0 ⟨[], [], due⟩ m s) : (m.recoveryExpired l s).Clean l r0 := by
  unfold Aspm.recoveryExpired
  by_cases hp : m.servers s = .pending
  · rw [if_neg (not_not.mpr hp)]
    have hclean : (m.setServer s (if 0 < (m.counts l s).2 then .inactive else .down)).Clean l r0 :=
      hc
    refine Clean.announce (hclean.push ?_) ?_ _
    · split_ifs <;> trivial
    · intro a ha hup
      rw [seen_push]
      exact asp_ne_down h a ha hup
  · rw [if_pos hp]
    exact hc

/-! ## One ASP in one server -/

variable {a : ℕ}

/-- An ASP that is up becomes active or inactive in a server, and it is reported. -/
theorem Base.flagged (hl : l.Consistent) (h : Base l r0 ⟨[], [], false⟩ m s)
    (hup : (m.asps a).up = true) (hs : s ∈ (l.asp a).servers) {on : Bool} {state : AspState}
    (hstate : state = if on then .active else .inactive) :
    Base l r0 ⟨[], [], false⟩ ((m.setActive a s on).push (.asp a s state)) s := by
  refine (h.setActive hup hs on).report (fun _ => .inr ?_) ?_
  · exact asp_ne_down h a ((hl a s).mp hs) hup
  · rw [aspState_of_up (by rw [setActive_up]; exact hup) hs, setActive_active, hstate]
    simp

theorem isActive_setActive (m : Aspm) (a s : ℕ) (on : Bool) (b : ℕ) :
    (m.setActive a s on).isActive l b s = true ↔
      if b = a then on = true ∧ (m.asps a).up = true ∧ s ∈ (l.asp a).servers
      else m.isActive l b s = true := by
  rw [isActive_iff, setActive_up, setActive_active]
  by_cases hb : b = a
  · subst hb
    simp
    tauto
  · simp [hb, isActive_iff]

/-- An ASP that is not active is not deactivated. -/
theorem deactivate_cases (m : Aspm) (a s : ℕ) : m.deactivate l a s = m ∨
    (s ∈ (l.asp a).servers ∧ (m.asps a).up = true ∧ m.deactivate l a s =
      (((m.setActive a s false).push (.asp a s .inactive)).evaluate l s).2.resources l s) := by
  unfold deactivate
  by_cases hs : s ∈ (l.asp a).servers
  · rw [if_neg (not_not.mpr hs)]
    by_cases hoff : (m.asps a).up = false ∨ (m.asps a).active s = false
    · exact .inl (if_pos hoff)
    · right
      simp only [not_or, Bool.not_eq_false] at hoff
      exact ⟨hs, hoff.1, if_neg (by simp [hoff])⟩
  · exact .inl (if_pos hs)

theorem only_deactivate (m : Aspm) (a s : ℕ) : Only s m (m.deactivate l a s) := by
  rcases deactivate_cases (l := l) m a s with hsame | ⟨-, -, heq⟩
  · rw [hsame]
    exact Only.refl s m
  · rw [heq]
    exact (((only_setActive m a s _).trans (only_push _ rfl)).trans (only_evaluate _ s)).trans
      (only_resources _ s)

theorem deactivate_sound (hl : l.Consistent) (h : Sound l r0 m s) (hc : m.Clean l r0) (a : ℕ) :
    Sound l r0 (m.deactivate l a s) s ∧ (m.deactivate l a s).Clean l r0 := by
  rcases deactivate_cases (l := l) m a s with hsame | ⟨hs, hup, heq⟩
  · rw [hsame]
    exact ⟨h, hc⟩
  · have hbase : Base l r0 ⟨[], [], false⟩
        ((m.setActive a s false).push (.asp a s .inactive)) s := h.base.flagged hl hup hs rfl
    have hclean : ((m.setActive a s false).push (.asp a s .inactive)).Clean l r0 :=
      Clean.push (m := m.setActive a s false) (x := .asp a s .inactive) hc trivial
    have hsingle : Single l ((m.setActive a s false).push (.asp a s .inactive)) s := by
      refine h.settled.single.congr fun b _ hon => ?_
      rw [isActive_push, isActive_setActive] at hon
      split_ifs at hon with hb
      · exact absurd hon.1 (by simp)
      · exact hon
    have hsound := Sound.evaluated hbase hsingle fun _ => rfl
    rw [heq]
    exact ⟨hsound.resources, (hclean.evaluate hbase).resources hsound.base⟩

theorem only_displace (m : Aspm) (a s b : ℕ) : Only s m (m.displace l a s b) :=
  ((only_setActive m b s _).trans (only_push _ rfl)).trans (only_notify _ s _ _ _)

/-- The ASPs that are displaced are inactive, and nothing else has changed. -/
theorem displace_foldl (hl : l.Consistent) (a : ℕ) (others : List ℕ)
    (hothers : ∀ b ∈ others, (m.asps b).up = true ∧ s ∈ (l.asp b).servers)
    (h : Base l r0 ⟨[], [], false⟩ m s) (hc : m.Clean l r0) :
    let m' := others.foldl (displace l a s) m
    Base l r0 ⟨[], [], false⟩ m' s ∧ m'.Clean l r0 ∧ Only s m m' ∧
    ∀ b, m'.isActive l b s = true ↔ m.isActive l b s = true ∧ b ∉ others := by
  induction others generalizing m with
  | nil => exact ⟨h, hc, Only.refl s m, by simp⟩
  | cons other others ih =>
    obtain ⟨hup, hs⟩ := hothers other (by simp)
    have hflagged : Base l r0 ⟨[], [], false⟩
        ((m.setActive other s false).push (.asp other s .inactive)) s := h.flagged hl hup hs rfl
    have hbase : Base l r0 ⟨[], [], false⟩ (m.displace l a s other) s :=
      hflagged.notify rfl s (some a) _
    have hclean : (m.displace l a s other).Clean l r0 :=
      (Clean.push (m := m.setActive other s false) (x := .asp other s .inactive) hc trivial).notify
        (asp_ne_down hflagged) _ _ _
    have honly := only_displace (l := l) m a s other
    have hactive : ∀ b, (m.displace l a s other).isActive l b s = true ↔
        m.isActive l b s = true ∧ b ≠ other := by
      intro b
      unfold displace
      rw [isActive_congr (m := (m.setActive other s false).push _) (by rw [notify_asps])
        (by rw [notify_asps]), isActive_push, isActive_setActive]
      split_ifs with hb
      · simp [hb]
      · simp [hb]
    obtain ⟨hbase', hclean', honly', hactive'⟩ := ih
      (fun b hb => by rw [honly.up]; exact hothers b (by simp [hb])) hbase hclean
    refine ⟨hbase', hclean', honly.trans honly', fun b => ?_⟩
    rw [List.foldl_cons, hactive', hactive, List.mem_cons, not_or, and_assoc]

/-- The ASPs that another one displaces. -/
def displaced (l : Layout) (m : Aspm) (a s : ℕ) : List ℕ :=
  if (l.server s).mode = .override then
    (l.server s).asps.filter fun other => other ≠ a && m.isActive l other s else []

/-- An ASP that is active is not activated again. -/
theorem activate_cases (m : Aspm) (a s : ℕ) : m.activate l a s = m ∨
    (s ∈ (l.asp a).servers ∧ m.activate l a s = (((m.displaced l a s).foldl (displace l a s)
      ((m.setActive a s true).push (.asp a s .active))).evaluate l s).2.push (.activated a s)) := by
  unfold activate
  by_cases hs : s ∈ (l.asp a).servers
  · rw [if_neg (not_not.mpr hs)]
    by_cases hon : (m.asps a).active s = true
    · exact .inl (if_pos hon)
    · exact .inr ⟨hs, if_neg hon⟩
  · exact .inl (if_pos hs)

theorem mem_displaced {b : ℕ} (hb : b ∈ m.displaced l a s) :
    (m.asps b).up = true ∧ s ∈ (l.asp b).servers := by
  unfold displaced at hb
  split_ifs at hb
  · simp only [List.mem_filter, Bool.and_eq_true] at hb
    have hactive := isActive_iff.mp hb.2.2
    exact ⟨hactive.1, hactive.2.1⟩
  · exact absurd hb List.not_mem_nil

theorem only_displace_foldl (m : Aspm) (a s : ℕ) (others : List ℕ) :
    Only s m (others.foldl (displace l a s) m) := by
  induction others generalizing m with
  | nil => exact Only.refl s m
  | cons other others ih => exact (only_displace m a s other).trans (ih _)

theorem only_activate (m : Aspm) (a s : ℕ) : Only s m (m.activate l a s) := by
  rcases activate_cases (l := l) m a s with hsame | ⟨-, heq⟩
  · rw [hsame]
    exact Only.refl s m
  · rw [heq]
    exact ((((only_setActive m a s _).trans (only_push _ rfl)).trans
      (only_displace_foldl _ a s _)).trans (only_evaluate _ s)).trans (only_push _ rfl)

theorem activate_sound (hl : l.Consistent) (h : Sound l r0 m s) (hc : m.Clean l r0)
    (hup : (m.asps a).up = true) :
    Sound l r0 (m.activate l a s) s ∧ (m.activate l a s).Clean l r0 := by
  rcases activate_cases (l := l) m a s with hsame | ⟨hs, heq⟩
  · rw [hsame]
    exact ⟨h, hc⟩
  · have hbase : Base l r0 ⟨[], [], false⟩
        ((m.setActive a s true).push (.asp a s .active)) s := h.base.flagged hl hup hs rfl
    have hclean : ((m.setActive a s true).push (.asp a s .active)).Clean l r0 :=
      Clean.push (m := m.setActive a s true) (x := .asp a s .active) hc trivial
    obtain ⟨hbase', hclean', -, hactive⟩ := displace_foldl hl a (m.displaced l a s)
      (fun b hb => by rw [push_asps, setActive_up]; exact mem_displaced hb) hbase hclean
    have hsingle : Single l ((m.displaced l a s).foldl (displace l a s)
        ((m.setActive a s true).push (.asp a s .active))) s := by
      intro hmode b hb c hc' honb honc
      have hone : ∀ d ∈ (l.server s).asps, ((m.displaced l a s).foldl (displace l a s)
          ((m.setActive a s true).push (.asp a s .active))).isActive l d s = true → d = a := by
        intro d hd hond
        rw [hactive, isActive_push, isActive_setActive] at hond
        by_contra hne
        rw [if_neg hne, displaced, if_pos hmode] at hond
        exact hond.2 (by simp [hd, hne, hond.1])
      rw [hone b hb honb, hone c hc' honc]
    have hsound := Sound.evaluated hbase' hsingle fun _ => rfl
    rw [heq]
    refine ⟨⟨hsound.base.activated a s,
      hsound.settled.congr (fun _ _ => rfl) (fun _ _ => rfl) rfl⟩, ?_⟩
    exact Clean.push (x := .activated a s) (hclean'.evaluate hbase') trivial

/-! ## Servers one after another -/

/-- A loop that is about one server at a time brings each of them in order. A server may come
up again: what it waited for still holds then. -/
theorem foldl_settles {f : Aspm → ℕ → Aspm} {P Q : Aspm → ℕ → Prop} {G : Aspm → Prop}
    (honly : ∀ m s, Only s m (f m s))
    (hstep : ∀ m s, G m → P m s → P (f m s) s ∧ Q (f m s) s ∧ G (f m s))
    (hP : ∀ m m' s t, Only s m m' → t ≠ s → P m t → P m' t)
    (hQ : ∀ m m' s t, Only s m m' → t ≠ s → Q m t → Q m' t)
    {servers : List ℕ} (hG : G m) (hwait : ∀ s ∈ servers, P m s)
    (hrest : ∀ s ∉ servers, Q m s) :
    (∀ s, Q (servers.foldl f m) s) ∧ G (servers.foldl f m) := by
  induction servers generalizing m with
  | nil => exact ⟨fun s => hrest s List.not_mem_nil, hG⟩
  | cons t servers ih =>
    obtain ⟨hagain, hdone, hG'⟩ := hstep m t hG (hwait t (by simp))
    refine ih hG' (fun s hs => ?_) fun s hs => ?_
    · by_cases hst : s = t
      · rw [hst]
        exact hagain
      · exact hP m _ t s (honly m t) hst (hwait s (by simp [hs]))
    · by_cases hst : s = t
      · rw [hst]
        exact hdone
      · exact hQ m _ t s (honly m t) hst (hrest s (by simp [hst, hs]))

/-- What holds of every server. -/
structure AllSound (l : Layout) (r0 : Seen) (m : Aspm) : Prop where
  sound : ∀ s, Sound l r0 m s
  clean : m.Clean l r0

theorem AllSound.send (h : AllSound l r0 m) (a : ℕ) {message : Message}
    (hx : (Action.send a message).about = none) (hf : ∀ r, Fine l r (.send a message)) :
    AllSound l r0 (m.send l a message) := by
  unfold Aspm.send
  split_ifs
  · exact ⟨fun s => (h.sound s).sent hx, h.clean.push (hf _)⟩
  · exact h

theorem send_asps (m : Aspm) (a : ℕ) (message : Message) :
    (m.send l a message).asps = m.asps := by
  unfold send
  split_ifs <;> rfl

/-- An operation that keeps every server and leaves up who is up, on several servers. -/
theorem AllSound.foldl {f : Aspm → ℕ → Aspm} (honly : ∀ m s, Only s m (f m s))
    (hstep : ∀ m s, (m.asps a).up = true → Sound l r0 m s → m.Clean l r0 →
      Sound l r0 (f m s) s ∧ (f m s).Clean l r0)
    (h : AllSound l r0 m) (hup : (m.asps a).up = true) (servers : List ℕ) :
    AllSound l r0 (servers.foldl f m) := by
  induction servers generalizing m with
  | nil => exact h
  | cons s servers ih =>
    obtain ⟨hs, hclean⟩ := hstep m s hup (h.sound s) h.clean
    refine ih ⟨fun t => ?_, hclean⟩ (by rw [(honly m s).up]; exact hup)
    by_cases ht : t = s
    · rw [ht]
      exact hs
    · exact (h.sound t).other (honly m s) ht

theorem deactivate_foldl_sound (hl : l.Consistent)
    (h : AllSound l r0 m) (a : ℕ) (servers : List ℕ) :
    AllSound l r0 (servers.foldl (fun m s => m.deactivate l a s) m) := by
  induction servers generalizing m with
  | nil => exact h
  | cons s servers ih =>
    obtain ⟨hs, hclean⟩ := deactivate_sound hl (h.sound s) h.clean a
    refine ih ⟨fun t => ?_, hclean⟩
    by_cases ht : t = s
    · rw [ht]
      exact hs
    · exact (h.sound t).other (only_deactivate m a s) ht

/-! ## An ASP comes up -/

/-- An ASP came up, and this server is not there yet. -/
structure Rising (l : Layout) (r0 : Seen) (a : ℕ) (m : Aspm) (s : ℕ) : Prop where
  base : Base l r0 ⟨[a], [a], false⟩ m s
  single : Single l m s
  up : (m.asps a).up = true
  off : (m.asps a).active s = false
  mem : s ∈ (l.asp a).servers

theorem Single.only {t : ℕ} (h : Single l m t) (ho : Only s m m') (ht : t ≠ s) :
    Single l m' t :=
  h.congr fun b _ hon => (isActive_congr (ho.up b) (ho.active b t ht)).symm.trans hon

theorem Rising.other {t : ℕ} (h : Rising l r0 a m t) (ho : Only s m m') (ht : t ≠ s) :
    Rising l r0 a m' t :=
  ⟨h.base.other ho ht, h.single.only ho ht, (ho.up a).trans h.up, (ho.active a t ht).trans h.off,
    h.mem⟩

theorem only_bringUpIn (a : ℕ) (m : Aspm) (s : ℕ) : Only s m (m.bringUpIn l a s) := by
  have heval := (only_push m (s := s) (x := .asp a s .inactive) rfl).trans
    (only_evaluate (l := l) (m.push (.asp a s .inactive)) s)
  unfold bringUpIn
  dsimp only
  split_ifs
  · exact heval
  · exact heval.trans (only_announce _ s _)

theorem bringUpIn_asps (a : ℕ) (m : Aspm) (s : ℕ) : (m.bringUpIn l a s).asps = m.asps := by
  have heval : ((m.push (.asp a s .inactive)).evaluate l s).2.asps = m.asps :=
    (evaluate_asps _ s).trans rfl
  unfold bringUpIn
  dsimp only
  split_ifs
  · exact heval
  · exact (announce_asps _ s _).trans heval

/-- A server that knows of the ASP may be told again. -/
theorem Rising.again (h : Rising l r0 a m s) (hs : Sound l r0 m' s) (hasps : m'.asps = m.asps) :
    Rising l r0 a m' s :=
  ⟨hs.base.mono (fun _ _ hin => absurd hin List.not_mem_nil)
    (fun _ _ hin => absurd hin List.not_mem_nil) rfl, hs.settled.single,
    by rw [hasps]; exact h.up, by rw [hasps]; exact h.off, h.mem⟩

theorem bringUpIn_sound (hc : m.Clean l r0)
    (h : Rising l r0 a m s) :
    Sound l r0 (m.bringUpIn l a s) s ∧ (m.bringUpIn l a s).Clean l r0 := by
  have hbase : Base l r0 ⟨[], [a], false⟩ (m.push (.asp a s .inactive)) s := by
    refine h.base.report (fun _ => .inl (by simp)) ?_
    rw [aspState_of_up h.up h.mem, h.off]
    rfl
  have hclean : (m.push (.asp a s .inactive)).Clean l r0 :=
    Clean.push (x := .asp a s .inactive) hc trivial
  have hsingle : Single l (m.push (.asp a s .inactive)) s := h.single
  obtain ⟨hbase', hsettled⟩ := evaluate_spec hbase hsingle
  have hclean' := hclean.evaluate hbase
  unfold bringUpIn
  dsimp only
  cases hchanged : ((m.push (.asp a s .inactive)).evaluate l s).1 with
  | true => exact ⟨⟨by simpa [hchanged] using hbase', hsettled⟩, hclean'⟩
  | false =>
    rw [if_neg Bool.false_ne_true]
    have hdeaf : Base l r0 ⟨[], [a], false⟩ ((m.push (.asp a s .inactive)).evaluate l s).2 s := by
      simpa [hchanged] using hbase'
    refine ⟨⟨hdeaf.announce (fun b hb hup hd => ?_) fun b _ hin _ => by simpa using hin, ?_⟩, ?_⟩
    · exact Bool.false_ne_true ((hsettled.down hd b hb).symm.trans hup)
    · exact hsettled.congr (fun _ _ => by rw [announce_asps]) (fun _ _ => by rw [announce_asps])
        (by rw [announce_servers])
    · exact hclean'.announce (asp_ne_down hdeaf) _

theorem Base.raised (h : Base l r0 ⟨[], [], false⟩ m s) (id : Option ℕ) :
    Base l r0 ⟨[a], [a], false⟩ ((m.setUp a true).setIdentifier a id) s := by
  constructor
  · intro b hb
    simp only [setIdentifier_active, setUp_active] at hb
    obtain ⟨hup, hs⟩ := h.flag b hb
    refine ⟨?_, hs⟩
    simp only [setIdentifier_up, setUp_up]
    split_ifs
    · rfl
    · exact hup
  · exact h.recovery
  · intro b hb hl
    have hba : b ≠ a := by simpa using hl
    rw [aspState_congr (m := m) (by simp [hba]) (by simp)]
    exact h.asp b hb (by simp)
  · exact h.server
  · exact h.timer
  · intro b hb hg hup hd
    have hba : b ≠ a := by simpa using hd
    refine h.told b hb hg ?_ (by simp)
    simpa [hba] using hup

theorem bringUp_sound (hl : l.Consistent)
    (h : AllSound l r0 m) (hdown : (m.asps a).up = false) (id : Option ℕ) :
    AllSound l r0 (m.bringUp l a id) := by
  have hoff : ∀ s, (m.asps a).active s = false := by
    intro s
    by_contra hon
    have hup := ((h.sound s).base.flag a (by simpa using hon)).1
    exact Bool.false_ne_true (hdown.symm.trans hup)
  have hsettles : (∀ s, Sound l r0 (m.bringUp l a id) s) ∧ (m.bringUp l a id).Clean l r0 := by
    refine foldl_settles (P := Rising l r0 a) (only_bringUpIn a) (fun m s hc hr => ?_)
      (fun _ _ _ _ ho ht hr => hr.other ho ht) (fun _ _ _ _ ho ht hs => hs.other ho ht)
      h.clean (fun s hs => ?_) fun s hs => ?_
    · obtain ⟨hsound, hclean⟩ := bringUpIn_sound hc hr
      exact ⟨hr.again hsound (bringUpIn_asps a m s), hsound, hclean⟩
    · refine ⟨(h.sound s).base.raised id, ?_, by simp, by simp [hoff], hs⟩
      refine (h.sound s).settled.single.congr fun b _ hon => ?_
      rw [isActive_iff] at hon ⊢
      by_cases hba : b = a
      · subst hba
        simp [hoff] at hon
      · simpa [hba] using hon
    · have hnot : ∀ b ∈ (l.server s).asps, b ≠ a := fun b hb hba =>
        hs ((hl a s).mpr (hba ▸ hb))
      refine ⟨((h.sound s).base.raised id).mono ?_ ?_ rfl, (h.sound s).settled.congr ?_ ?_ rfl⟩
      · intro b hb hin
        exact absurd (by simpa using hin) (hnot b hb)
      · intro b hb hin
        exact absurd (by simpa using hin) (hnot b hb)
      · intro b hb
        simp [hnot b hb]
      · intro b _
        simp
  exact ⟨hsettles.1, hsettles.2⟩

/-! ## An ASP goes down -/

/-- An ASP went down, and this server is not there yet. -/
structure Falling (l : Layout) (r0 : Seen) (a : ℕ) (m : Aspm) (s : ℕ) : Prop where
  base : Base l r0 ⟨[a], [], false⟩ m s
  single : Single l m s
  down : (m.asps a).up = false

theorem Falling.other {t : ℕ} (h : Falling l r0 a m t) (ho : Only s m m') (ht : t ≠ s) :
    Falling l r0 a m' t :=
  ⟨h.base.other ho ht, h.single.only ho ht, (ho.up a).trans h.down⟩

/-- The server hears that the ASP is down, and the others that it failed. -/
def fall (l : Layout) (a : ℕ) (failed : Bool) (m : Aspm) (s : ℕ) : Aspm :=
  if failed then (m.push (.asp a s .down)).notify l s .aspFailure (some a) fun _ => true
  else m.push (.asp a s .down)

theorem takeDownIn_eq (a : ℕ) (failed : Bool) (m : Aspm) (s : ℕ) :
    m.takeDownIn l a failed s = ((m.fall l a failed s).evaluate l s).2.resources l s := by
  cases failed <;> rfl

theorem fall_asps (a : ℕ) (failed : Bool) (m : Aspm) (s : ℕ) :
    (m.fall l a failed s).asps = m.asps := by
  unfold fall
  split_ifs
  · exact notify_asps _ s _ _ _
  · rfl

theorem only_takeDownIn (a : ℕ) (failed : Bool) (m : Aspm) (s : ℕ) :
    Only s m (m.takeDownIn l a failed s) := by
  have hfall : Only s m (m.fall l a failed s) := by
    unfold fall
    split_ifs
    · exact (only_push m rfl).trans (only_notify _ s _ _ _)
    · exact only_push m rfl
  rw [takeDownIn_eq]
  exact (hfall.trans (only_evaluate _ s)).trans (only_resources _ s)

theorem takeDownIn_asps (a : ℕ) (failed : Bool) (m : Aspm) (s : ℕ) :
    (m.takeDownIn l a failed s).asps = m.asps := by
  rw [takeDownIn_eq, resources_asps, evaluate_asps, fall_asps]

theorem takeDownIn_sound (hc : m.Clean l r0)
    (h : Falling l r0 a m s) (failed : Bool) :
    Sound l r0 (m.takeDownIn l a failed s) s ∧ (m.takeDownIn l a failed s).Clean l r0 := by
  have hreported : Base l r0 ⟨[], [], false⟩ (m.push (.asp a s .down)) s := by
    refine h.base.report (fun hup => ?_) ?_
    · exact absurd (h.down.symm.trans hup) Bool.false_ne_true
    · simp [aspState, h.down]
  have hclean : (m.push (.asp a s .down)).Clean l r0 :=
    Clean.push (x := .asp a s .down) hc trivial
  have hfall : Base l r0 ⟨[], [], false⟩ (m.fall l a failed s) s ∧
      (m.fall l a failed s).Clean l r0 := by
    unfold fall
    split_ifs
    · exact ⟨hreported.notify rfl s _ _, hclean.notify (asp_ne_down hreported) _ _ _⟩
    · exact ⟨hreported, hclean⟩
  have hsingle : Single l (m.fall l a failed s) s := h.single.congr fun b _ hon =>
    (isActive_congr (by rw [fall_asps]) (by rw [fall_asps])).symm.trans hon
  have hsound := Sound.evaluated hfall.1 hsingle fun _ => rfl
  rw [takeDownIn_eq]
  exact ⟨hsound.resources, (hfall.2.evaluate hfall.1).resources hsound.base⟩

/-- The flags of an ASP are cleared in all of its servers. -/
theorem clear_foldl (a : ℕ) (servers : List ℕ) (m : Aspm) :
    let m' := servers.foldl (fun m s => m.setActive a s false) m
    m'.servers = m.servers ∧ m'.out = m.out ∧ (∀ b, (m'.asps b).up = (m.asps b).up) ∧
    ∀ b t, (m'.asps b).active t =
      if b = a ∧ t ∈ servers then false else (m.asps b).active t := by
  induction servers generalizing m with
  | nil => simp
  | cons s servers ih =>
    obtain ⟨hservers, hout, hup, hactive⟩ := ih (m.setActive a s false)
    refine ⟨hservers, hout, fun b => (hup b).trans (setActive_up m a s false b), fun b t => ?_⟩
    rw [List.foldl_cons, hactive, setActive_active]
    by_cases hb : b = a <;> by_cases ht : t = s <;> simp [hb, ht]

/-- The ASP is down and nothing is reported yet. -/
def fallen (l : Layout) (m : Aspm) (a : ℕ) : Aspm :=
  ((l.asp a).servers.foldl (fun m s => m.setActive a s false) m).setUp a false

theorem Base.fallen (h : Base l r0 ⟨[], [], false⟩ m s) :
    Base l r0 ⟨[a], [], false⟩ (m.fallen l a) s := by
  obtain ⟨hservers, hout, hup, hactive⟩ := clear_foldl a (l.asp a).servers m
  have hseen : (m.fallen l a).seen r0 = m.seen r0 := congrArg (List.foldl Seen.see r0) hout
  have hsame : (m.fallen l a).servers = m.servers := hservers
  have hother : ∀ b ≠ a, ((m.fallen l a).asps b).up = (m.asps b).up ∧
      ((m.fallen l a).asps b).active s = (m.asps b).active s := by
    intro b hb
    simp [Aspm.fallen, hb, hup, hactive]
  have hdown : ((m.fallen l a).asps a).up = false := by simp [Aspm.fallen]
  constructor
  · intro b hb
    by_cases hba : b = a
    · subst hba
      simp only [Aspm.fallen, setUp_active, hactive] at hb
      split_ifs at hb with hin
      exact absurd ⟨trivial, (h.flag b hb).2⟩ hin
    · rw [(hother b hba).2] at hb
      rw [(hother b hba).1]
      exact h.flag b hb
  · rw [hsame]
    exact h.recovery
  · intro b hb hl
    have hba : b ≠ a := by simpa using hl
    rw [hseen, aspState_congr (hother b hba).1 (hother b hba).2]
    exact h.asp b hb (by simp)
  · rw [hseen, hsame]
    exact h.server
  · rw [hseen, hsame]
    exact h.timer
  · intro b hb hg hupb hd
    have hba : b ≠ a := by
      rintro rfl
      exact Bool.false_ne_true (hdown.symm.trans hupb)
    rw [hseen, hsame]
    exact h.told b hb hg ((hother b hba).1.symm.trans hupb) hd

/-- Whoever is active after an ASP went down was active before. -/
theorem isActive_fallen {b : ℕ} (hon : (m.fallen l a).isActive l b s = true) :
    m.isActive l b s = true := by
  obtain ⟨-, -, hup, hactive⟩ := clear_foldl a (l.asp a).servers m
  rw [isActive_iff] at hon ⊢
  by_cases hb : b = a
  · subst hb
    simp [fallen] at hon
  · simpa [fallen, hb, hup, hactive] using hon

theorem Sound.identified (h : Sound l r0 m s) (id : Option ℕ) :
    Sound l r0 (m.setIdentifier a id) s := by
  have hstate : ∀ b, (m.setIdentifier a id).aspState l b s = m.aspState l b s := fun b =>
    aspState_congr (setIdentifier_up m a id b) (by rw [setIdentifier_active])
  refine ⟨⟨?_, h.base.recovery, ?_, h.base.server, h.base.timer, ?_⟩, h.settled.congr ?_ ?_ rfl⟩
  · simpa using h.base.flag
  · intro b hb hl
    rw [hstate]
    exact h.base.asp b hb hl
  · intro b hb hg hup hd
    rw [setIdentifier_up] at hup
    exact h.base.told b hb hg hup hd
  · intro b _
    simp
  · intro b _
    simp

theorem takeDown_sound (hl : l.Consistent)
    (h : AllSound l r0 m) (a : ℕ) (failed : Bool) : AllSound l r0 (m.takeDown l a failed) := by
  unfold takeDown
  split_ifs
  · exact h
  · have hclean : (m.fallen l a).Clean l r0 := by
      have hout : (m.fallen l a).out = m.out := (clear_foldl a (l.asp a).servers m).2.1
      unfold Clean
      rw [hout]
      exact h.clean
    have hsettles : (∀ s, Sound l r0
        ((l.asp a).servers.foldl (takeDownIn l a failed) (m.fallen l a)) s) ∧
        ((l.asp a).servers.foldl (takeDownIn l a failed) (m.fallen l a)).Clean l r0 := by
      refine foldl_settles (P := Falling l r0 a) (only_takeDownIn a failed)
        (fun m s hc hf => ?_) (fun _ _ _ _ ho ht hf => hf.other ho ht)
        (fun _ _ _ _ ho ht hs => hs.other ho ht) hclean (fun s _ => ?_) fun s hs => ?_
      · obtain ⟨hsound, hclean⟩ := takeDownIn_sound hc hf failed
        refine ⟨⟨hsound.base.mono (fun _ _ hin => absurd hin List.not_mem_nil)
          (fun _ _ hin => hin) rfl, hsound.settled.single, ?_⟩, hsound, hclean⟩
        rw [takeDownIn_asps]
        exact hf.down
      · refine ⟨(h.sound s).base.fallen, ?_, by simp [fallen]⟩
        exact (h.sound s).settled.single.congr fun b _ hon => isActive_fallen hon
      · obtain ⟨hservers, -, hup, hactive⟩ := clear_foldl a (l.asp a).servers m
        have hnot : ∀ b ∈ (l.server s).asps, b ≠ a := fun b hb hba =>
          hs ((hl a s).mpr (hba ▸ hb))
        refine ⟨(h.sound s).base.fallen.mono ?_ ?_ rfl, (h.sound s).settled.congr ?_ ?_ ?_⟩
        · intro b hb hin
          exact absurd (by simpa using hin) (hnot b hb)
        · intro b hb hin
          exact absurd hin List.not_mem_nil
        · intro b hb
          simp [fallen, hnot b hb, hup]
        · intro b hb
          simp [fallen, hnot b hb, hactive]
        · exact congrFun hservers s
    exact ⟨fun s => (hsettles.1 s).identified none, hsettles.2⟩

end Aspm

end SiphonSigtran.Transport
