import Mathlib.Data.List.Count
import SiphonSigtran.Transport.Aspm

/-!
# What the steps of ASP state maintenance do

An observer replays the actions: the state of every ASP and server, the timers
that run, and what each ASP was last told of each server since it came up. Every
operation is about one server and leaves the others as they are, so that what
holds of a server is kept by the loops over several.
-/

namespace SiphonSigtran.Transport

open Lib

/-- The state of a server that a Notify names. -/
def Status.names : Status → Option AsState
  | .asInactive => some .inactive
  | .asActive => some .active
  | .asPending => some .pending
  | _ => none

theorem Status.names_of {state : AsState} {status : Status} (h : Status.of state = some status) :
    status.names = some state := by
  cases state <;> simp_all [Status.of, Status.names] <;> subst h <;> rfl

/-- What the actions so far say. -/
structure Seen where
  asp : ℕ → ℕ → AspState
  server : ℕ → AsState
  timer : ℕ → Bool
  told : ℕ → ℕ → Option AsState

namespace Seen

def new : Seen := ⟨fun _ _ => .down, fun _ => .down, fun _ => false, fun _ _ => none⟩

/-- A value for a pair. -/
def put {α : Type*} (f : ℕ → ℕ → α) (a s : ℕ) (v : α) : ℕ → ℕ → α :=
  fun a' s' => if a' = a ∧ s' = s then v else f a' s'

/-- One action. What an ASP was told counts from when it came up. -/
def see (r : Seen) : Action → Seen
  | .send a (.notify s status _ _) =>
    match status.names with
    | some state => { r with told := put r.told a s (some state) }
    | none => r
  | .send _ _ => r
  | .start (.recovery s) _ => { r with timer := Function.update r.timer s true }
  | .stop (.recovery s) => { r with timer := Function.update r.timer s false }
  | .asp a s state =>
    { r with
      asp := put r.asp a s state
      told := if r.asp a s = .down then put r.told a s none else r.told }
  | .server s state => { r with server := Function.update r.server s state }
  | .activated _ _ => r

/-- T(r) ran out. -/
def expire (r : Seen) : Input → Seen
  | .timeout (.recovery s) => { r with timer := Function.update r.timer s false }
  | _ => r

end Seen

/-- The server an action is about; an acknowledgement and an error are about none. -/
def Action.about : Action → Option ℕ
  | .send _ (.notify s _ _ _) => some s
  | .send _ _ => none
  | .start (.recovery s) _ => some s
  | .stop (.recovery s) => some s
  | .asp _ s _ => some s
  | .server s _ => some s
  | .activated _ s => some s

/-- A server becomes active when the actions so far have an ASP of it active, and a Notify goes to
an ASP that they have up. -/
def Fine (l : Layout) (r : Seen) : Action → Prop
  | .send a (.notify s _ _ _) => r.asp a s ≠ .down
  | .server s .active => 1 ≤ (l.server s).required → ∃ a ∈ (l.server s).asps, r.asp a s = .active
  | _ => True

namespace Seen

theorem see_other {r : Seen} {x : Action} {s : ℕ} (h : x.about ≠ some s) :
    (∀ a, (r.see x).asp a s = r.asp a s) ∧ (r.see x).server s = r.server s ∧
    (r.see x).timer s = r.timer s ∧ ∀ a, (r.see x).told a s = r.told a s := by
  cases x with
  | send a message =>
    cases message with
    | notify s' status identifier context =>
      have hs : s ≠ s' := fun he => h (by rw [he]; rfl)
      cases hn : status.names <;> simp [see, hn, put, hs]
    | _ => simp [see]
  | start timer after =>
    obtain ⟨s'⟩ := timer
    have hs : s ≠ s' := fun he => h (by rw [he]; rfl)
    simp [see, hs]
  | stop timer =>
    obtain ⟨s'⟩ := timer
    have hs : s ≠ s' := fun he => h (by rw [he]; rfl)
    simp [see, hs]
  | asp a s' state =>
    have hs : s ≠ s' := fun he => h (by rw [he]; rfl)
    by_cases hd : r.asp a s' = .down <;> simp [see, put, hs, hd]
  | server s' state =>
    have hs : s ≠ s' := fun he => h (by rw [he]; rfl)
    simp [see, hs]
  | activated a s' => simp [see]

/-- Actions about other servers leave what is seen of this one. -/
theorem foldl_see_other {xs : List Action} {s : ℕ} (h : ∀ x ∈ xs, x.about ≠ some s) (r : Seen) :
    (∀ a, (xs.foldl see r).asp a s = r.asp a s) ∧ (xs.foldl see r).server s = r.server s ∧
    (xs.foldl see r).timer s = r.timer s ∧ ∀ a, (xs.foldl see r).told a s = r.told a s := by
  induction xs generalizing r with
  | nil => simp
  | cons x xs ih =>
    obtain ⟨hasp, hserver, htimer, htold⟩ := ih (fun y hy => h y (by simp [hy])) (r.see x)
    obtain ⟨hasp', hserver', htimer', htold'⟩ := see_other (r := r) (h x (by simp))
    exact ⟨fun a => (hasp a).trans (hasp' a), hserver.trans hserver', htimer.trans htimer',
      fun a => (htold a).trans (htold' a)⟩

end Seen

namespace Aspm

variable {l : Layout} {r0 : Seen} {m m' : Aspm} {s : ℕ}

/-- What the actions given so far in a step say, after those of the steps before. -/
def seen (r0 : Seen) (m : Aspm) : Seen := m.out.foldl Seen.see r0

/-- Every action given so far in a step is fine. -/
def Clean (l : Layout) (r0 : Seen) (m : Aspm) : Prop := Machine.Along Seen.see (Fine l) r0 m.out

@[simp] theorem seen_push (m : Aspm) (x : Action) : (m.push x).seen r0 = (m.seen r0).see x := by
  simp [seen, push]

theorem Clean.push (h : m.Clean l r0) {x : Action} (hx : Fine l (m.seen r0) x) :
    (m.push x).Clean l r0 :=
  (Machine.along_append _ _ _).mpr ⟨h, hx, trivial⟩

@[simp] theorem push_asps (m : Aspm) (x : Action) : (m.push x).asps = m.asps := rfl
@[simp] theorem push_servers (m : Aspm) (x : Action) : (m.push x).servers = m.servers := rfl
@[simp] theorem aspState_push (m : Aspm) (x : Action) (a s : ℕ) :
    (m.push x).aspState l a s = m.aspState l a s := rfl
@[simp] theorem isActive_push (m : Aspm) (x : Action) (a s : ℕ) :
    (m.push x).isActive l a s = m.isActive l a s := rfl
@[simp] theorem setServer_asps (m : Aspm) (s : ℕ) (state : AsState) :
    (m.setServer s state).asps = m.asps := rfl
@[simp] theorem setServer_servers (m : Aspm) (s : ℕ) (state : AsState) :
    (m.setServer s state).servers = Function.update m.servers s state := rfl
@[simp] theorem setServer_out (m : Aspm) (s : ℕ) (state : AsState) :
    (m.setServer s state).out = m.out := rfl
@[simp] theorem setActive_servers (m : Aspm) (a s : ℕ) (on : Bool) :
    (m.setActive a s on).servers = m.servers := rfl
@[simp] theorem setActive_out (m : Aspm) (a s : ℕ) (on : Bool) :
    (m.setActive a s on).out = m.out := rfl
@[simp] theorem setUp_servers (m : Aspm) (a : ℕ) (on : Bool) :
    (m.setUp a on).servers = m.servers := rfl
@[simp] theorem setUp_out (m : Aspm) (a : ℕ) (on : Bool) : (m.setUp a on).out = m.out := rfl
@[simp] theorem setIdentifier_servers (m : Aspm) (a : ℕ) (id : Option ℕ) :
    (m.setIdentifier a id).servers = m.servers := rfl
@[simp] theorem setIdentifier_out (m : Aspm) (a : ℕ) (id : Option ℕ) :
    (m.setIdentifier a id).out = m.out := rfl

@[simp] theorem setActive_up (m : Aspm) (a s : ℕ) (on : Bool) (b : ℕ) :
    ((m.setActive a s on).asps b).up = (m.asps b).up := by
  by_cases hb : b = a
  · subst hb
    simp [setActive]
  · simp [setActive, hb]

theorem setActive_active (m : Aspm) (a s : ℕ) (on : Bool) (b t : ℕ) :
    ((m.setActive a s on).asps b).active t =
      if b = a ∧ t = s then on else (m.asps b).active t := by
  by_cases hb : b = a
  · subst hb
    by_cases ht : t = s
    · subst ht
      simp [setActive]
    · simp [setActive, ht]
  · simp [setActive, hb]

@[simp] theorem setUp_up (m : Aspm) (a : ℕ) (on : Bool) (b : ℕ) :
    ((m.setUp a on).asps b).up = if b = a then on else (m.asps b).up := by
  by_cases hb : b = a
  · subst hb
    simp [setUp]
  · simp [setUp, hb]

@[simp] theorem setUp_active (m : Aspm) (a : ℕ) (on : Bool) (b : ℕ) :
    ((m.setUp a on).asps b).active = (m.asps b).active := by
  by_cases hb : b = a
  · subst hb
    simp [setUp]
  · simp [setUp, hb]

@[simp] theorem setIdentifier_up (m : Aspm) (a : ℕ) (id : Option ℕ) (b : ℕ) :
    ((m.setIdentifier a id).asps b).up = (m.asps b).up := by
  by_cases hb : b = a
  · subst hb
    simp [setIdentifier]
  · simp [setIdentifier, hb]

@[simp] theorem setIdentifier_active (m : Aspm) (a : ℕ) (id : Option ℕ) (b : ℕ) :
    ((m.setIdentifier a id).asps b).active = (m.asps b).active := by
  by_cases hb : b = a
  · subst hb
    simp [setIdentifier]
  · simp [setIdentifier, hb]

/-! ## A step about one server -/

/-- What changed is about one server: nobody came up or went down. -/
structure Only (s : ℕ) (m m' : Aspm) : Prop where
  up : ∀ a, (m'.asps a).up = (m.asps a).up
  active : ∀ a, ∀ t ≠ s, (m'.asps a).active t = (m.asps a).active t
  servers : ∀ t ≠ s, m'.servers t = m.servers t
  out : ∃ extra, m'.out = m.out ++ extra ∧ ∀ x ∈ extra, x.about = some s

theorem Only.refl (s : ℕ) (m : Aspm) : Only s m m :=
  ⟨fun _ => rfl, fun _ _ _ => rfl, fun _ _ => rfl, [], by simp⟩

theorem Only.trans {m'' : Aspm} (h : Only s m m') (h' : Only s m' m'') : Only s m m'' := by
  obtain ⟨extra, hout, hextra⟩ := h.out
  obtain ⟨extra', hout', hextra'⟩ := h'.out
  refine ⟨fun a => (h'.up a).trans (h.up a),
    fun a t ht => (h'.active a t ht).trans (h.active a t ht),
    fun t ht => (h'.servers t ht).trans (h.servers t ht), extra ++ extra', ?_, ?_⟩
  · rw [hout', hout, List.append_assoc]
  · intro x hx
    rcases List.mem_append.mp hx with hx | hx
    · exact hextra x hx
    · exact hextra' x hx

theorem only_push (m : Aspm) {x : Action} (hx : x.about = some s) : Only s m (m.push x) :=
  ⟨fun _ => rfl, fun _ _ _ => rfl, fun _ _ => rfl, [x], rfl, by simpa using hx⟩

theorem only_setServer (m : Aspm) (s : ℕ) (state : AsState) : Only s m (m.setServer s state) :=
  ⟨fun _ => rfl, fun _ _ _ => rfl, fun t ht => by simp [ht], [], by simp, by simp⟩

theorem only_setActive (m : Aspm) (a s : ℕ) (on : Bool) : Only s m (m.setActive a s on) :=
  ⟨fun b => setActive_up m a s on b, fun b t ht => by simp [setActive_active, ht], fun _ _ => rfl,
    [], by simp, by simp⟩

/-! ## Notify -/

/-- Who is sent a Notify. -/
def reached (l : Layout) (m : Aspm) (whom : ℕ → Bool) (a : ℕ) : Bool :=
  (m.asps a).up && whom a && (l.asp a).gateway

theorem notify_eq (m : Aspm) (s : ℕ) (status : Status) (about : Option ℕ) (whom : ℕ → Bool) :
    m.notify l s status about whom = { m with
      out := m.out ++ ((l.server s).asps.filter (m.reached l whom)).map fun a => .send a
        (.notify s status (about.bind fun b => (m.asps b).identifier)
          (l.server s).routingContext) } := by
  unfold notify
  generalize about.bind (fun b => (m.asps b).identifier) = identifier
  generalize (l.server s).asps = members
  dsimp only
  induction members generalizing m with
  | nil => simp
  | cons a members ih =>
    have hsame : ∀ out, reached l { m with out := out } whom = reached l m whom := fun _ => rfl
    rw [List.foldl_cons, ih]
    by_cases hup : ((m.asps a).up && whom a) = true
    · by_cases hg : (l.asp a).gateway = true
      · simp [hup, hg, send, push, reached, hsame]
      · simp [hup, hg, send, reached]
    · simp [hup, reached]

theorem foldl_see_sends (as : List ℕ) (s : ℕ) (status : Status) (id : Option ℕ) (context : ℕ)
    (r : Seen) :
    (as.map fun a => Action.send a (.notify s status id context)).foldl Seen.see r =
      { r with told := fun a t => match status.names with
        | some state => if t = s ∧ a ∈ as then some state else r.told a t
        | none => r.told a t } := by
  induction as generalizing r with
  | nil => cases status.names <;> simp
  | cons b as ih =>
    rw [List.map_cons, List.foldl_cons, ih]
    cases hn : status.names with
    | none => simp [Seen.see, hn]
    | some state =>
      simp only [Seen.see, hn, Seen.put]
      congr 1
      funext a t
      by_cases ht : t = s <;> by_cases ha : a = b <;> simp [ht, ha]

theorem seen_notify (m : Aspm) (s : ℕ) (status : Status) (about : Option ℕ) (whom : ℕ → Bool) :
    (m.notify l s status about whom).seen r0 = { m.seen r0 with
      told := fun a t => match status.names with
        | some state => if t = s ∧ a ∈ (l.server s).asps.filter (m.reached l whom)
          then some state else (m.seen r0).told a t
        | none => (m.seen r0).told a t } := by
  rw [notify_eq, seen, List.foldl_append, foldl_see_sends]
  rfl

theorem only_notify (m : Aspm) (s : ℕ) (status : Status) (about : Option ℕ) (whom : ℕ → Bool) :
    Only s m (m.notify l s status about whom) := by
  rw [notify_eq]
  refine ⟨fun _ => rfl, fun _ _ _ => rfl, fun _ _ => rfl, _, rfl, ?_⟩
  intro x hx
  obtain ⟨a, -, rfl⟩ := List.mem_map.mp hx
  rfl

theorem Clean.notify (h : m.Clean l r0) {s : ℕ}
    (hup : ∀ a ∈ (l.server s).asps, (m.asps a).up = true → (m.seen r0).asp a s ≠ .down)
    (status : Status) (about : Option ℕ) (whom : ℕ → Bool) :
    (m.notify l s status about whom).Clean l r0 := by
  rw [notify_eq]
  refine (Machine.along_append _ _ _).mpr ⟨h, ?_⟩
  change Machine.Along Seen.see (Fine l) (m.seen r0) _
  have hmem : ∀ a ∈ (l.server s).asps.filter (m.reached l whom),
      (m.seen r0).asp a s ≠ .down := by
    intro a ha
    obtain ⟨ha, hr⟩ := List.mem_filter.mp ha
    simp only [reached, Bool.and_eq_true] at hr
    exact hup a ha hr.1.1
  generalize m.seen r0 = r at hmem ⊢
  generalize (l.server s).asps.filter (m.reached l whom) = as at hmem ⊢
  induction as generalizing r with
  | nil => trivial
  | cons a as ih =>
    refine ⟨hmem a (by simp), ih _ fun b hb => ?_⟩
    have hasp : (r.see (.send a (.notify s status
        (about.bind fun b => (m.asps b).identifier) (l.server s).routingContext))).asp = r.asp := by
      cases hn : status.names <;> simp [Seen.see, hn]
    rw [hasp]
    exact hmem b (by simp [hb])

/-! ## What holds of a server -/

/-- What a step has not yet caught up with in a server: the ASPs whose state is not reported, those
that are not told the state of the server, and whether T(r) ran out. -/
structure Gap where
  late : List ℕ
  deaf : List ℕ
  due : Bool

/-- What holds of a server at every point of a step. -/
structure Base (l : Layout) (r0 : Seen) (gap : Gap) (m : Aspm) (s : ℕ) : Prop where
  flag : ∀ a, (m.asps a).active s = true → (m.asps a).up = true ∧ s ∈ (l.asp a).servers
  recovery : m.servers s = .pending → (l.server s).recovery.isSome = true
  asp : ∀ a ∈ (l.server s).asps, a ∉ gap.late → (m.seen r0).asp a s = m.aspState l a s
  server : (m.seen r0).server s = m.servers s
  timer : (m.seen r0).timer s = (decide (m.servers s = .pending) && !gap.due)
  told : ∀ a ∈ (l.server s).asps, (l.asp a).gateway = true → (m.asps a).up = true →
    a ∉ gap.deaf → (m.seen r0).told a s = some (m.servers s)

/-- An Override server has one active ASP at most. -/
def Single (l : Layout) (m : Aspm) (s : ℕ) : Prop :=
  (l.server s).mode = .override → ∀ a ∈ (l.server s).asps, ∀ b ∈ (l.server s).asps,
    m.isActive l a s = true → m.isActive l b s = true → a = b

/-- The state of a server is the one its ASPs justify. -/
structure Settled (l : Layout) (m : Aspm) (s : ℕ) : Prop where
  active : m.servers s = .active → 1 ≤ (l.server s).required →
    ∃ a ∈ (l.server s).asps, m.isActive l a s = true
  pending : m.servers s = .pending → ∀ a ∈ (l.server s).asps, m.isActive l a s = false
  inactive : m.servers s = .inactive → (∃ a ∈ (l.server s).asps, (m.asps a).up = true) ∧
    (1 ≤ (l.server s).required → (m.counts l s).1 < (l.server s).required)
  down : m.servers s = .down → ∀ a ∈ (l.server s).asps, (m.asps a).up = false
  single : Single l m s

variable {gap : Gap}

theorem aspState_congr {a t : ℕ} (hup : (m'.asps a).up = (m.asps a).up)
    (hactive : (m'.asps a).active t = (m.asps a).active t) :
    m'.aspState l a t = m.aspState l a t := by
  simp only [aspState, hup, hactive]

theorem Only.seen (r0 : Seen) (h : Only s m m') {t : ℕ} (ht : t ≠ s) :
    (∀ a, (m'.seen r0).asp a t = (m.seen r0).asp a t) ∧
    (m'.seen r0).server t = (m.seen r0).server t ∧
    (m'.seen r0).timer t = (m.seen r0).timer t ∧
    ∀ a, (m'.seen r0).told a t = (m.seen r0).told a t := by
  obtain ⟨extra, hout, hextra⟩ := h.out
  simp only [Aspm.seen, hout, List.foldl_append]
  refine Seen.foldl_see_other (fun x hx => ?_) _
  rw [hextra x hx]
  exact fun he => ht (Option.some.inj he).symm

/-- A step about one server leaves what holds of another. -/
theorem Base.other {t : ℕ} (h : Base l r0 gap m t) (ho : Only s m m') (ht : t ≠ s) :
    Base l r0 gap m' t := by
  obtain ⟨hasp, hserver, htimer, htold⟩ := ho.seen r0 ht
  have hsame : m'.servers t = m.servers t := ho.servers t ht
  constructor
  · intro a ha
    rw [ho.active a t ht] at ha
    rw [ho.up]
    exact h.flag a ha
  · rw [hsame]
    exact h.recovery
  · intro a ha hl
    rw [hasp, aspState_congr (ho.up a) (ho.active a t ht)]
    exact h.asp a ha hl
  · rw [hserver, hsame]
    exact h.server
  · rw [htimer, hsame]
    exact h.timer
  · intro a ha hg hup hd
    rw [ho.up] at hup
    rw [htold, hsame]
    exact h.told a ha hg hup hd

theorem isActive_congr {a t : ℕ} (hup : (m'.asps a).up = (m.asps a).up)
    (hactive : (m'.asps a).active t = (m.asps a).active t) :
    m'.isActive l a t = m.isActive l a t := by
  simp only [isActive, aspState_congr hup hactive]

/-- What a server is to be depends on the ASPs configured in it. -/
theorem Settled.congr {t : ℕ} (h : Settled l m t)
    (hup : ∀ a ∈ (l.server t).asps, (m'.asps a).up = (m.asps a).up)
    (hactive : ∀ a ∈ (l.server t).asps, (m'.asps a).active t = (m.asps a).active t)
    (hservers : m'.servers t = m.servers t) : Settled l m' t := by
  have hsame : ∀ a ∈ (l.server t).asps, m'.isActive l a t = m.isActive l a t :=
    fun a ha => isActive_congr (hup a ha) (hactive a ha)
  constructor
  · intro hs hreq
    obtain ⟨a, ha, hon⟩ := h.active (hservers ▸ hs) hreq
    exact ⟨a, ha, (hsame a ha).trans hon⟩
  · intro hs a ha
    exact (hsame a ha).trans (h.pending (hservers ▸ hs) a ha)
  · intro hs
    obtain ⟨⟨a, ha, hon⟩, hfew⟩ := h.inactive (hservers ▸ hs)
    refine ⟨⟨a, ha, (hup a ha).trans hon⟩, ?_⟩
    have hcount : (m'.counts l t).1 = (m.counts l t).1 :=
      List.countP_congr fun a ha => by rw [hsame a ha]
    rw [hcount]
    exact hfew
  · intro hs a ha
    exact (hup a ha).trans (h.down (hservers ▸ hs) a ha)
  · intro hmode a ha b hb hona honb
    rw [hsame a ha] at hona
    rw [hsame b hb] at honb
    exact h.single hmode a ha b hb hona honb

theorem Settled.other {t : ℕ} (h : Settled l m t) (ho : Only s m m') (ht : t ≠ s) :
    Settled l m' t :=
  h.congr (fun a _ => ho.up a) (fun a _ => ho.active a t ht) (ho.servers t ht)

theorem Single.congr {t : ℕ} (h : Single l m t)
    (himp : ∀ a ∈ (l.server t).asps, m'.isActive l a t = true → m.isActive l a t = true) :
    Single l m' t :=
  fun hmode a ha b hb hona honb =>
    h hmode a ha b hb (himp a ha hona) (himp b hb honb)

theorem Base.mono {gap' : Gap} (h : Base l r0 gap m s)
    (hlate : ∀ a ∈ (l.server s).asps, a ∈ gap.late → a ∈ gap'.late)
    (hdeaf : ∀ a ∈ (l.server s).asps, a ∈ gap.deaf → a ∈ gap'.deaf)
    (hdue : gap.due = gap'.due) : Base l r0 gap' m s where
  flag := h.flag
  recovery := h.recovery
  asp a ha hl := h.asp a ha fun hin => hl (hlate a ha hin)
  server := h.server
  timer := hdue ▸ h.timer
  told a ha hg hup hd := h.told a ha hg hup fun hin => hd (hdeaf a ha hin)

/-! ## What the messages and reports do -/

/-- An action that says nothing of a server. -/
theorem Base.push (h : Base l r0 gap m s) {x : Action} (hx : x.about ≠ some s) :
    Base l r0 gap (m.push x) s := by
  obtain ⟨hasp, hserver, htimer, htold⟩ := Seen.see_other (r := m.seen r0) hx
  constructor
  · exact h.flag
  · exact h.recovery
  · intro a ha hl
    rw [seen_push, hasp]
    exact h.asp a ha hl
  · rw [seen_push, hserver]
    exact h.server
  · rw [seen_push, htimer]
    exact h.timer
  · intro a ha hg hup hd
    rw [seen_push, htold]
    exact h.told a ha hg hup hd

theorem Base.activated (h : Base l r0 gap m s) (a t : ℕ) :
    Base l r0 gap (m.push (.activated a t)) s := by
  have hseen : (m.push (.activated a t)).seen r0 = m.seen r0 := by rw [seen_push]; rfl
  exact ⟨h.flag, h.recovery, by rw [hseen]; exact h.asp, by rw [hseen]; exact h.server,
    by rw [hseen]; exact h.timer, by rw [hseen]; exact h.told⟩

theorem notify_asps (m : Aspm) (s : ℕ) (status : Status) (about : Option ℕ) (whom : ℕ → Bool) :
    (m.notify l s status about whom).asps = m.asps := by rw [notify_eq]

theorem notify_servers (m : Aspm) (s : ℕ) (status : Status) (about : Option ℕ)
    (whom : ℕ → Bool) : (m.notify l s status about whom).servers = m.servers := by rw [notify_eq]

theorem aspState_asps (h : m'.asps = m.asps) (a t : ℕ) :
    m'.aspState l a t = m.aspState l a t := by
  simp only [aspState, h]

/-- A Notify that names no state. -/
theorem Base.notify (h : Base l r0 gap m s) {status : Status} (hn : status.names = none)
    (t : ℕ) (about : Option ℕ) (whom : ℕ → Bool) :
    Base l r0 gap (m.notify l t status about whom) s := by
  have hseen : (m.notify l t status about whom).seen r0 = m.seen r0 := by
    rw [seen_notify, hn]
  have hasps := notify_asps (l := l) m t status about whom
  have hservers := notify_servers (l := l) m t status about whom
  constructor
  · simpa only [hasps] using h.flag
  · simpa only [hservers] using h.recovery
  · intro a ha hl
    rw [hseen, aspState_asps hasps]
    exact h.asp a ha hl
  · rw [hseen, hservers]
    exact h.server
  · rw [hseen, hservers]
    exact h.timer
  · simpa only [hseen, hasps, hservers] using h.told

theorem announce_asps (m : Aspm) (s : ℕ) (whom : ℕ → Bool) :
    (m.announce l s whom).asps = m.asps := by
  unfold announce
  split
  · exact notify_asps m s _ none whom
  · rfl

theorem announce_servers (m : Aspm) (s : ℕ) (whom : ℕ → Bool) :
    (m.announce l s whom).servers = m.servers := by
  unfold announce
  split
  · exact notify_servers m s _ none whom
  · rfl

theorem only_announce (m : Aspm) (s : ℕ) (whom : ℕ → Bool) : Only s m (m.announce l s whom) := by
  unfold announce
  split
  · exact only_notify m s _ none whom
  · exact Only.refl s m

theorem Clean.announce (h : m.Clean l r0) {s : ℕ}
    (hup : ∀ a ∈ (l.server s).asps, (m.asps a).up = true → (m.seen r0).asp a s ≠ .down)
    (whom : ℕ → Bool) : (m.announce l s whom).Clean l r0 := by
  unfold Aspm.announce
  split
  · exact h.notify hup _ none whom
  · exact h

/-- The ASPs of a server that are told the state it is in have heard it. -/
theorem Base.announce {late deaf deaf' : List ℕ} {due : Bool} {whom : ℕ → Bool}
    (h : Base l r0 ⟨late, deaf, due⟩ m s)
    (hup : ∀ a ∈ (l.server s).asps, (m.asps a).up = true → m.servers s ≠ .down)
    (hwhom : ∀ a ∈ (l.server s).asps, a ∈ deaf → a ∉ deaf' → whom a = true) :
    Base l r0 ⟨late, deaf', due⟩ (m.announce l s whom) s := by
  have hasps := announce_asps (l := l) m s whom
  have hservers := announce_servers (l := l) m s whom
  have hseen : ((m.announce l s whom).seen r0).asp = (m.seen r0).asp ∧
      ((m.announce l s whom).seen r0).server = (m.seen r0).server ∧
      ((m.announce l s whom).seen r0).timer = (m.seen r0).timer ∧
      (m.servers s ≠ .down → ∀ a, ((m.announce l s whom).seen r0).told a s =
        if a ∈ (l.server s).asps.filter (m.reached l whom) then some (m.servers s)
        else (m.seen r0).told a s) := by
    unfold Aspm.announce
    cases hstatus : Status.of (m.servers s) with
    | none =>
      refine ⟨rfl, rfl, rfl, fun hne => ?_⟩
      cases hs : m.servers s <;> simp_all [Status.of]
    | some status =>
      dsimp only
      rw [seen_notify, Status.names_of hstatus]
      exact ⟨rfl, rfl, rfl, fun _ a => by simp⟩
  obtain ⟨hasp, hserver, htimer, htold⟩ := hseen
  constructor
  · simpa only [hasps] using h.flag
  · simpa only [hservers] using h.recovery
  · intro a ha hl
    rw [hasp, aspState_asps hasps]
    exact h.asp a ha hl
  · rw [hserver, hservers]
    exact h.server
  · rw [htimer, hservers]
    exact h.timer
  · intro a ha hg hupa hd
    rw [hasps] at hupa
    rw [htold (hup a ha hupa), hservers]
    split_ifs with hreached
    · rfl
    · refine h.told a ha hg hupa fun hdeaf => hreached ?_
      refine List.mem_filter.mpr ⟨ha, ?_⟩
      simp [reached, hupa, hg, hwhom a ha hdeaf hd]

/-- A flag set or cleared; the state of the ASP is still to be reported. -/
theorem Base.setActive {deaf : List ℕ} {due : Bool} (h : Base l r0 ⟨[], deaf, due⟩ m s)
    {a : ℕ} (hup : (m.asps a).up = true) (hs : s ∈ (l.asp a).servers) (on : Bool) :
    Base l r0 ⟨[a], deaf, due⟩ (m.setActive a s on) s := by
  constructor
  · intro b hb
    rw [setActive_active] at hb
    rw [setActive_up]
    split_ifs at hb with hba
    · obtain ⟨rfl, -⟩ := hba
      exact ⟨hup, hs⟩
    · exact h.flag b hb
  · exact h.recovery
  · intro b hb hl
    have hba : b ≠ a := by simpa using hl
    have hstate : (m.setActive a s on).aspState l b s = m.aspState l b s :=
      aspState_congr (setActive_up m a s on b) (by simp [setActive_active, hba])
    rw [hstate]
    exact h.asp b hb (by simp)
  · exact h.server
  · exact h.timer
  · intro b hb hg hupb hd
    rw [setActive_up] at hupb
    exact h.told b hb hg hupb hd

/-- The state of an ASP is reported. -/
theorem Base.report {deaf : List ℕ} {due : Bool} {a : ℕ} (h : Base l r0 ⟨[a], deaf, due⟩ m s)
    (hheard : (m.asps a).up = true → a ∈ deaf ∨ (m.seen r0).asp a s ≠ .down)
    {state : AspState} (hstate : state = m.aspState l a s) :
    Base l r0 ⟨[], deaf, due⟩ (m.push (.asp a s state)) s := by
  constructor
  · exact h.flag
  · exact h.recovery
  · intro b hb _
    rw [seen_push]
    by_cases hba : b = a
    · subst hba
      simpa [Seen.see, Seen.put] using hstate
    · simpa [Seen.see, Seen.put, hba] using h.asp b hb (by simpa using hba)
  · rw [seen_push]
    exact h.server
  · rw [seen_push]
    exact h.timer
  · intro b hb hg hup hd
    have htold := h.told b hb hg hup hd
    rw [seen_push]
    simp only [Seen.see]
    split_ifs with hdown
    · by_cases hba : b = a
      · subst hba
        exact absurd hdown ((hheard hup).resolve_left hd)
      · simpa [Seen.put, hba] using htold
    · exact htold

/-- The state of an ASP that is up. -/
theorem aspState_of_up {a : ℕ} (hup : (m.asps a).up = true) (hs : s ∈ (l.asp a).servers) :
    m.aspState l a s = if (m.asps a).active s = true then .active else .inactive := by
  simp [aspState, hup, hs]

theorem aspState_ne_down {a : ℕ} (hup : (m.asps a).up = true) : m.aspState l a s ≠ .down := by
  simp only [aspState, hup, Bool.true_eq_false, ↓reduceIte]
  split_ifs <;> simp

theorem isActive_iff {a : ℕ} : m.isActive l a s = true ↔
    (m.asps a).up = true ∧ s ∈ (l.asp a).servers ∧ (m.asps a).active s = true := by
  unfold isActive aspState
  by_cases hup : (m.asps a).up = true
  · by_cases hon : s ∈ (l.asp a).servers ∧ (m.asps a).active s = true <;> simp [hup, hon]
  · simp [hup]

/-! ## What moves a server -/

theorem counts_pos : 0 < (m.counts l s).1 ↔ ∃ a ∈ (l.server s).asps, m.isActive l a s = true :=
  List.countP_pos_iff

theorem counts_le (m : Aspm) (s : ℕ) :
    (m.counts l s).1 ≤ (l.server s).asps.countP fun a => (m.asps a).up :=
  List.countP_mono_left fun _ _ hon => (isActive_iff.mp hon).1

theorem counts_up : 0 < (m.counts l s).1 + (m.counts l s).2 ↔
    ∃ a ∈ (l.server s).asps, (m.asps a).up = true := by
  have hle := counts_le (l := l) m s
  have hsum : (m.counts l s).1 + (m.counts l s).2 =
      (l.server s).asps.countP fun a => (m.asps a).up := Nat.add_sub_cancel' hle
  rw [hsum]
  exact List.countP_pos_iff

/-- How many ASPs of a server are active and up in the state they put it in. -/
theorem target_counts (m : Aspm) (s : ℕ) :
    (m.target l s = .active → 1 ≤ (l.server s).required → 0 < (m.counts l s).1) ∧
    (m.target l s = .pending → (m.counts l s).1 = 0) ∧
    (m.target l s = .inactive → 0 < (m.counts l s).1 + (m.counts l s).2 ∧
      (1 ≤ (l.server s).required → (m.counts l s).1 < (l.server s).required)) ∧
    (m.target l s = .down → (m.counts l s).1 + (m.counts l s).2 = 0) := by
  simp only [target]
  cases m.servers s <;> dsimp only <;> split_ifs <;> simp <;> omega

/-- What holds of the state its ASPs put a server in. -/
theorem settled_target (hsingle : Single l m s)
    {state : AsState} (hstate : m.target l s = state) (hm' : m'.asps = m.asps)
    (hs : m'.servers s = state) : Settled l m' s := by
  have hactive : ∀ a, m'.isActive l a s = m.isActive l a s :=
    fun a => isActive_congr (by rw [hm']) (by rw [hm'])
  have hcounts : m'.counts l s = m.counts l s := by simp only [counts, hactive, hm']
  have hpos := counts_pos (l := l) (m := m) (s := s)
  have hup := counts_up (l := l) (m := m) (s := s)
  have hnone : (m.counts l s).1 = 0 → ∀ a ∈ (l.server s).asps, m.isActive l a s = false := by
    intro hz a ha
    by_contra hon
    exact absurd (hpos.mpr ⟨a, ha, by simpa using hon⟩) (by omega)
  have hdown : (m.counts l s).1 + (m.counts l s).2 = 0 →
      ∀ a ∈ (l.server s).asps, (m.asps a).up = false := by
    intro hz a ha
    by_contra hon
    exact absurd (hup.mpr ⟨a, ha, by simpa using hon⟩) (by omega)
  obtain ⟨honly, hpending, hinactive, hnobody⟩ := target_counts (l := l) m s
  rw [hstate] at honly hpending hinactive hnobody
  constructor
  · intro h hreq
    simpa only [hactive] using hpos.mp (honly (hs ▸ h) hreq)
  · intro h a ha
    rw [hactive]
    exact hnone (hpending (hs ▸ h)) a ha
  · intro h
    obtain ⟨hsome, hfew⟩ := hinactive (hs ▸ h)
    rw [hm', hcounts]
    exact ⟨hup.mp hsome, hfew⟩
  · intro h
    rw [hm']
    exact hdown (hnobody (hs ▸ h))
  · exact hsingle.congr fun a _ hon => (hactive a).symm.trans hon

theorem target_recovery (h : Base l r0 gap m s) (hp : m.target l s = .pending) :
    (l.server s).recovery.isSome = true := by
  unfold target at hp
  cases hs : m.servers s with
  | pending => exact h.recovery hs
  | active =>
    simp only [hs] at hp
    split_ifs at hp with h1 h2
    exact h2
  | _ =>
    simp only [hs] at hp
    split_ifs at hp

/-- The server moves: its ASPs are still to be told. -/
theorem Base.move {deaf : List ℕ} {due due' : Bool} (h : Base l r0 ⟨[], deaf, due⟩ m s)
    {new : AsState} (hrec : new = .pending → (l.server s).recovery.isSome = true)
    (hasps : m'.asps = m.asps) (hservers : m'.servers = Function.update m.servers s new)
    (hseen : (m'.seen r0).asp = (m.seen r0).asp ∧ (m'.seen r0).server s = new ∧
      (m'.seen r0).timer s = (decide (new = .pending) && !due')) :
    Base l r0 ⟨[], (l.server s).asps, due'⟩ m' s := by
  obtain ⟨hasp, hserver, htimer⟩ := hseen
  have hs : m'.servers s = new := by simp [hservers]
  constructor
  · simpa only [hasps] using h.flag
  · rw [hs]
    exact hrec
  · intro a ha hl
    rw [hasp, aspState_asps hasps]
    exact h.asp a ha hl
  · rw [hserver, hs]
  · rw [htimer, hs]
  · intro a ha _ _ hd
    exact absurd ha hd

theorem timers_asps (m : Aspm) (s : ℕ) (old new : AsState) :
    (m.timers l s old new).asps = m.asps := by
  unfold timers
  split_ifs <;> dsimp only <;> split <;> rfl

theorem timers_servers (m : Aspm) (s : ℕ) (old new : AsState) :
    (m.timers l s old new).servers = m.servers := by
  unfold timers
  split_ifs <;> dsimp only <;> split <;> rfl

theorem only_timers (m : Aspm) (s : ℕ) (old new : AsState) :
    Only s m (m.timers l s old new) := by
  unfold timers
  have hstop : Only s m (if old = .pending then m.push (.stop (.recovery s)) else m) := by
    split_ifs
    · exact only_push m rfl
    · exact Only.refl s m
  dsimp only
  split
  · exact hstop.trans (only_push _ rfl)
  · exact hstop

/-- T(r) runs when the server is pending. -/
theorem seen_timers (r0 : Seen) (m : Aspm) (s : ℕ) {old new : AsState} (hne : new ≠ old)
    (hrec : new = .pending → (l.server s).recovery.isSome = true)
    (hold : (m.seen r0).timer s = decide (old = .pending)) :
    ((m.timers l s old new).seen r0).asp = (m.seen r0).asp ∧
    ((m.timers l s old new).seen r0).timer s = decide (new = .pending) := by
  unfold timers
  by_cases hn : new = .pending
  · subst hn
    obtain ⟨after, hafter⟩ := Option.isSome_iff_exists.mp (hrec rfl)
    simp [Ne.symm hne, hafter, Seen.see]
  · by_cases ho : old = .pending
    · simp [ho, hn, Seen.see]
    · simp [ho, hn, hold]

theorem Clean.timers (h : m.Clean l r0) (s : ℕ) (old new : AsState) :
    (m.timers l s old new).Clean l r0 := by
  unfold Aspm.timers
  have hstop : Aspm.Clean l r0 (if old = .pending then m.push (.stop (.recovery s)) else m) := by
    split_ifs
    · exact h.push trivial
    · exact h
  dsimp only
  split
  · exact hstop.push trivial
  · exact hstop

end Aspm

end SiphonSigtran.Transport
