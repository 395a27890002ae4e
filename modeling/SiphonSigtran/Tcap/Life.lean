import Mathlib.Data.Nat.ModEq
import Mathlib.Logic.Relation
import SiphonSigtran.Tcap.Engine
import SiphonSigtran.Tcap.Kept

/-!
# The life of a dialogue

What the engine does to its store is a sequence of moves, between which dialogues are out
of it: one that was given its id and no handler yet, or one in a turn of its handler. Turns
of several dialogues may interleave. What happens with each dialogue is a run of a small
machine, whose states say where the dialogue is.
-/

namespace SiphonSigtran.Tcap

open Lib Relation

/-! ## Transaction ids -/

theorem or_high {n : ℕ} (h : n < 2 ^ 32) : n ||| 2 ^ 31 = n % 2 ^ 31 + 2 ^ 31 := by
  have hmod : n % 2 ^ 31 < 2 ^ 31 := Nat.mod_lt _ (by decide)
  have hsplit : n ||| 2 ^ 31 = 2 ^ 31 ||| n % 2 ^ 31 := by
    apply Nat.eq_of_testBit_eq
    intro i
    simp only [Nat.testBit_or, Nat.testBit_mod_two_pow, Nat.testBit_two_pow]
    by_cases hi : i < 31
    · simp [hi, Bool.or_comm]
    · by_cases hi' : i = 31
      · simp [hi']
      · have hn : n.testBit i = false := Nat.testBit_lt_two_pow (lt_of_lt_of_le h
          (Nat.pow_le_pow_right (by decide) (by omega)))
        simp [hi, hn]
  have hadd := Nat.two_pow_add_eq_or_of_lt hmod 1
  rw [Nat.mul_one] at hadd
  rw [hsplit, ← hadd, Nat.add_comm]

theorem tidOf_toNat (n : UInt32) :
    (n ||| 0x80000000).toNat = n.toNat % 2 ^ 31 + 2 ^ 31 := by
  rw [UInt32.toNat_or]
  exact or_high n.toNat_lt

theorem tidOf_inj {m n : UInt32} :
    tidOf m = tidOf n ↔ m.toNat % 2 ^ 31 = n.toNat % 2 ^ 31 := by
  have hm := tidOf_toNat m
  have hn := tidOf_toNat n
  unfold tidOf
  generalize m ||| 0x80000000 = a at hm ⊢
  generalize n ||| 0x80000000 = b at hn ⊢
  have ha := a.toNat_lt
  have hb := b.toNat_lt
  constructor
  · intro h
    simp only [List.cons.injEq, ← UInt8.toNat_inj, UInt32.toNat_toUInt8, UInt32.toNat_shiftRight,
      Nat.shiftRight_eq_div_pow, and_true] at h
    have h24 : UInt32.toNat 24 % 32 = 24 := by decide
    have h16 : UInt32.toNat 16 % 32 = 16 := by decide
    have h8 : UInt32.toNat 8 % 32 = 8 := by decide
    rw [h24, h16, h8] at h
    omega
  · intro h
    have hab : a = b := by
      rw [← UInt32.toNat_inj]
      omega
    rw [hab]

theorem tidOf_ofNat {m n : ℕ} :
    tidOf (UInt32.ofNat m) = tidOf (UInt32.ofNat n) ↔ m ≡ n [MOD 2 ^ 31] := by
  rw [tidOf_inj, UInt32.toNat_ofNat', UInt32.toNat_ofNat', Nat.ModEq]
  omega

/-! ## Lives -/

/-- Where a dialogue is, and whose it is. -/
inductive Life
  | unborn
  | running (handler : Handler)
  | stored (handler : Handler)
  | gone
  deriving DecidableEq, Repr

namespace Life

/-- What becomes of a dialogue when something happens. -/
def next : Life → Entry → Option Life
  | .unborn, ⟨_, handler, .begins _⟩ | .unborn, ⟨_, handler, .starts⟩ => some (.running handler)
  | .running h, ⟨_, handler, event⟩ =>
    if handler = h then
      match event with
      | .continues _ | .timesOut _ _ | .handed _ | .flushed _ => some (.running h)
      | .stored _ => some (.stored h)
      | .closes _ => some .gone
      | _ => none
    else none
  | .stored h, ⟨_, handler, .taken _⟩ => if handler = h then some (.running h) else none
  | _, _ => none

/-- The life of a dialogue after what happened, if that is one. -/
def follow (life : Life) (log : List Entry) : Option Life := log.foldlM next life

theorem follow_append (life : Life) (xs ys : List Entry) :
    life.follow (xs ++ ys) = (life.follow xs).bind fun l => l.follow ys := by
  rw [follow, List.foldlM_append]
  rfl

theorem follow_single (life : Life) (x : Entry) : life.follow [x] = life.next x := by
  simp [follow]

/-- A handler in a turn may do and be told what it likes, until the turn ends. -/
theorem follow_turn (h : Handler) {es : List Entry} (hes : ∀ x ∈ es, x.handler = h ∧
    (x.event.ofCall = true ∨ (∃ turn, x.event = .continues turn) ∨
      ∃ timeout now, x.event = .timesOut timeout now)) :
    (Life.running h).follow es = some (.running h) := by
  induction es with
  | nil => rfl
  | cons x es ih =>
    have hnext : (Life.running h).next x = some (.running h) := by
      obtain ⟨hx, hevent⟩ := hes x List.mem_cons_self
      obtain ⟨s, h', event⟩ := x
      obtain rfl : h' = h := hx
      rcases hevent with hcall | ⟨turn, rfl⟩ | ⟨timeout, now, rfl⟩
      · cases event <;> simp_all [Event.ofCall, next]
      · simp [next]
      · simp [next]
    have hrest := ih fun y hy => hes y (List.mem_cons_of_mem _ hy)
    have hsplit := follow_append (.running h) [x] es
    rw [follow_single, hnext] at hsplit
    exact hsplit.trans hrest

end Life

/-- What happened with one dialogue. -/
def history (log : List Entry) (serial : ℕ) : List Entry := log.filter fun x => x.serial = serial

def lifeOf (log : List Entry) (serial : ℕ) : Option Life := Life.unborn.follow (history log serial)

theorem history_append (log es : List Entry) (serial : ℕ) :
    history (log ++ es) serial = history log serial ++ history es serial :=
  List.filter_append _ _

theorem history_map_self (h : Handler) (serial : ℕ) (events : List Event) :
    history (events.map fun event => ⟨serial, h, event⟩) serial =
      events.map fun event => ⟨serial, h, event⟩ := by
  rw [history, List.filter_eq_self]
  intro x hx
  obtain ⟨event, -, rfl⟩ := List.mem_map.mp hx
  simp

theorem history_map_ne (h : Handler) {serial other : ℕ} (hne : serial ≠ other)
    (events : List Event) : history (events.map fun event => ⟨serial, h, event⟩) other = [] := by
  rw [history, List.filter_eq_nil_iff]
  intro x hx
  obtain ⟨event, -, rfl⟩ := List.mem_map.mp hx
  simpa using hne

theorem lifeOf_self {log : List Entry} {serial : ℕ} {life : Life}
    (hl : lifeOf log serial = some life) (h : Handler) (events : List Event) :
    lifeOf (log ++ events.map fun event => ⟨serial, h, event⟩) serial =
      life.follow (events.map fun event => ⟨serial, h, event⟩) := by
  rw [lifeOf, history_append, history_map_self, Life.follow_append]
  exact congrArg (fun l => Option.bind l _) hl

theorem lifeOf_ne {serial other : ℕ} (hs : serial ≠ other) (log : List Entry) (h : Handler)
    (events : List Event) :
    lifeOf (log ++ events.map fun event => ⟨serial, h, event⟩) other = lifeOf log other := by
  rw [lifeOf, history_append, history_map_ne h hs, List.append_nil, lifeOf]

/-- How often something happened. -/
def count (p : Event → Bool) (log : List Entry) : ℕ := log.countP fun x => p x.event

def Event.isStored : Event → Bool
  | .stored _ => true
  | _ => false

def Event.isTaken : Event → Bool
  | .taken _ => true
  | _ => false

def Event.isClosing : Event → Bool
  | .closes _ => true
  | _ => false

/-! ## Moves -/

/-- A dialogue out of the store, with its handler if it was given to one. -/
abbrev Held := Option Handler × Dialogue

/-- One thing that happens to the store, with the dialogues that are out of it. An id is
allocated only where `G` allows it. -/
inductive Move (G : List Held → Engine → Prop) :
    List Held → Engine → List Held → Engine → Prop
  | alloc {R : List Held} {e : Engine} (d : Dialogue) (hg : G R e)
      (hs : d.serial = e.allocated + 1) (ht : d.ourTid = e.allocTid.1) :
      Move G R e ((none, d) :: R) e.allocTid.2
  | discard {R : List Held} {e : Engine} (d : Dialogue) : Move G ((none, d) :: R) e R e
  | give {R : List Held} {e : Engine} (h : Handler) (d d' : Dialogue) (event : Event)
      (events : List Event) (hk : d.Kept d') (hevent : event = .starts ∨ ∃ op, event = .begins op)
      (hevents : ∀ x ∈ events, x.ofCall = true) :
      Move G ((none, d) :: R) e ((some h, d') :: R) (e.note h d (event :: events))
  | turn {R : List Held} {e : Engine} (h : Handler) (d d' : Dialogue) (events : List Event)
      (hs : d'.serial = d.serial) (ht : d'.ourTid = d.ourTid)
      (hevents : ∀ x ∈ events, x.ofCall = true ∨ (∃ turn, x = .continues turn) ∨
        ∃ timeout now, x = .timesOut timeout now) :
      Move G ((some h, d) :: R) e ((some h, d') :: R) (e.note h d events)
  | take {R : List Held} {e : Engine} (tid : Tid) (r : Record)
      (hr : e.dialogues.lookup tid = some r) :
      Move G R e ((some r.handler, r.dialogue) :: R) (e.take tid).2
  | store {R : List Held} {e : Engine} (h : Handler) (d : Dialogue) (assoc : String)
      (activity : ℕ) (hc : d.closed = none) :
      Move G ((some h, d) :: R) e R (e.store d h assoc activity)
  | close {R : List Held} {e : Engine} (h : Handler) (d : Dialogue) (reason : CloseReason) :
      Move G ((some h, d) :: R) e R (e.closed h d reason)
  | claim {R : List Held} {e : Engine} (dialogues : Store Tid Record)
      (hsize : Store.size dialogues = Store.size e.dialogues)
      (hl : ∀ tid, (dialogues.lookup tid).map (fun r => (r.handler, r.dialogue)) =
        (e.dialogues.lookup tid).map fun r => (r.handler, r.dialogue)) :
      Move G R e R { e with dialogues := dialogues }
  | swap {R R' : List Held} {e : Engine} (hR : R.Perm R') : Move G R e R' e

def Steps (G : List Held → Engine → Prop) (R : List Held) (e : Engine) (R' : List Held)
    (e' : Engine) : Prop :=
  ReflTransGen (fun p q : List Held × Engine => Move G p.1 p.2 q.1 q.2) (R, e) (R', e')

namespace Steps

variable {G : List Held → Engine → Prop} {R R' R'' : List Held} {e e' e'' : Engine}

theorem refl (R : List Held) (e : Engine) : Steps G R e R e := ReflTransGen.refl

theorem trans (h : Steps G R e R' e') (h' : Steps G R' e' R'' e'') : Steps G R e R'' e'' :=
  ReflTransGen.trans h h'

theorem move (h : Steps G R e R' e') (hm : Move G R' e' R'' e'') : Steps G R e R'' e'' :=
  ReflTransGen.tail h hm

theorem invariant {I : List Held → Engine → Prop}
    (hmove : ∀ {R e R' e'}, Move G R e R' e' → I R e → I R' e') (h : Steps G R e R' e')
    (hi : I R e) : I R' e' := by
  have hpairs : ∀ {p q : List Held × Engine},
      ReflTransGen (fun p q : List Held × Engine => Move G p.1 p.2 q.1 q.2) p q →
        I p.1 p.2 → I q.1 q.2 := by
    intro p q hpq hp
    induction hpq with
    | refl => exact hp
    | tail _ hlast ih => exact hmove hlast ih
  exact hpairs h hi

end Steps

/-! ## The invariant -/

/-- A dialogue that is open: in the store, or out of it in a turn. -/
def Live (R : List Held) (e : Engine) (d : Dialogue) : Prop :=
  (∃ p ∈ R, p.2 = d) ∨ ∃ tid r, e.dialogues.lookup tid = some r ∧ r.dialogue = d

/-- No open dialogue got its id a multiple of 2^31 allocations ago. -/
def Fresh (R : List Held) (e : Engine) : Prop :=
  ∀ d, Live R e d → ¬ d.serial ≡ e.allocated + 1 [MOD 2 ^ 31]

/-- What holds of the store and the dialogues out of it. -/
structure Sound (R : List Held) (e : Engine) : Prop where
  counter : e.tidCounter = UInt32.ofNat e.allocated
  named : ∀ d, Live R e d → d.ourTid = tidOf (UInt32.ofNat d.serial) ∧ d.serial ≤ e.allocated
  apart : ∀ d d', Live R e d → Live R e d' → d.serial ≡ d'.serial [MOD 2 ^ 31] →
    d.serial = d'.serial
  nodup : (R.map fun p => p.2.serial).Nodup
  held : ∀ p ∈ R, lifeOf e.log p.2.serial =
    some (match p.1 with | none => .unborn | some h => .running h)
  stored : ∀ tid r, e.dialogues.lookup tid = some r → r.dialogue.ourTid = tid ∧
    r.dialogue.closed = none ∧ lifeOf e.log r.dialogue.serial = some (.stored r.handler)
  lives : ∀ s, lifeOf e.log s = some .unborn ∨ lifeOf e.log s = some .gone ∨
    (∃ h, lifeOf e.log s = some (.running h) ∧ ∃ p ∈ R, p.1 = some h ∧ p.2.serial = s) ∨
    ∃ h, lifeOf e.log s = some (.stored h) ∧
      ∃ tid r, e.dialogues.lookup tid = some r ∧ r.dialogue.serial = s
  later : ∀ s, e.allocated < s → lifeOf e.log s = some .unborn
  gauge : Store.size e.dialogues + count Event.isTaken e.log = count Event.isStored e.log

theorem sound_new (config : Config) (handlers fallbackHandlers : ℕ × ℤ → Option Handler) :
    Sound [] (Engine.new config handlers fallbackHandlers) := by
  have hnone : ∀ d, ¬ Live [] (Engine.new config handlers fallbackHandlers) d := by
    rintro d (⟨p, hp, -⟩ | ⟨tid, r, hr, -⟩)
    · cases hp
    · exact absurd hr (by simp [Engine.new])
  constructor
  · rfl
  · exact fun d hd => absurd hd (hnone d)
  · exact fun d d' hd => absurd hd (hnone d)
  · exact List.nodup_nil
  · simp
  · intro tid r hr
    exact absurd hr (by simp [Engine.new])
  · exact fun s => .inl rfl
  · exact fun s _ => rfl
  · rfl

theorem count_append (p : Event → Bool) (xs ys : List Entry) :
    count p (xs ++ ys) = count p xs + count p ys := List.countP_append

theorem count_note (p : Event → Bool) (e : Engine) (h : Handler) (d : Dialogue)
    (events : List Event) : count p (e.note h d events).log = count p e.log + events.countP p := by
  rw [Engine.note, count_append, count, count, List.countP_map]
  rfl

namespace Sound

variable {G : List Held → Engine → Prop} {R R' : List Held} {e : Engine}

theorem alloc (h : Sound R e) (hf : Fresh R e) {d : Dialogue} (hs : d.serial = e.allocated + 1)
    (ht : d.ourTid = e.allocTid.1) : Sound ((none, d) :: R) e.allocTid.2 := by
  have hcounter : e.tidCounter + 1 = UInt32.ofNat (e.allocated + 1) := by
    rw [h.counter, UInt32.ofNat_add]
    rfl
  have hlive : ∀ d', Live ((none, d) :: R) e.allocTid.2 d' → d' = d ∨ Live R e d' := by
    rintro d' (⟨p, hp, rfl⟩ | hstored)
    · rcases List.mem_cons.mp hp with rfl | hp
      · exact .inl rfl
      · exact .inr (.inl ⟨p, hp, rfl⟩)
    · exact .inr (.inr hstored)
  constructor
  · exact hcounter
  · intro d' hd'
    rcases hlive d' hd' with rfl | hd'
    · refine ⟨?_, hs.le⟩
      rw [ht, hs, ← hcounter]
      rfl
    · obtain ⟨htid, hle⟩ := h.named d' hd'
      exact ⟨htid, Nat.le_succ_of_le hle⟩
  · intro d₁ d₂ h₁ h₂ hmod
    rcases hlive d₁ h₁ with rfl | h₃ <;> rcases hlive d₂ h₂ with rfl | h₄
    · rfl
    · rw [hs] at hmod
      exact absurd hmod.symm (hf d₂ h₄)
    · rw [hs] at hmod
      exact absurd hmod (hf d₁ h₃)
    · exact h.apart d₁ d₂ h₃ h₄ hmod
  · rw [List.map_cons, List.nodup_cons]
    refine ⟨fun hmem => ?_, h.nodup⟩
    obtain ⟨p, hp, heq⟩ := List.mem_map.mp hmem
    have hle := (h.named p.2 (.inl ⟨p, hp, rfl⟩)).2
    dsimp only at heq
    omega
  · intro p hp
    rcases List.mem_cons.mp hp with rfl | hp
    · exact h.later _ (by dsimp only; omega)
    · exact h.held p hp
  · exact h.stored
  · intro s
    rcases h.lives s with hun | hgone | ⟨o, hrun, p, hp, hp'⟩ | hstored
    · exact .inl hun
    · exact .inr (.inl hgone)
    · exact .inr (.inr (.inl ⟨o, hrun, p, List.mem_cons_of_mem _ hp, hp'⟩))
    · exact .inr (.inr (.inr hstored))
  · exact fun s hlt => h.later s (Nat.lt_of_succ_lt hlt)
  · exact h.gauge

theorem discard {d : Dialogue} (h : Sound ((none, d) :: R) e) : Sound R e := by
  have hlive : ∀ d', Live R e d' → Live ((none, d) :: R) e d' := by
    rintro d' (⟨p, hp, rfl⟩ | hstored)
    · exact .inl ⟨p, List.mem_cons_of_mem _ hp, rfl⟩
    · exact .inr hstored
  constructor
  · exact h.counter
  · exact fun d' hd' => h.named d' (hlive d' hd')
  · exact fun d₁ d₂ h₁ h₂ => h.apart d₁ d₂ (hlive d₁ h₁) (hlive d₂ h₂)
  · exact (List.nodup_cons.mp h.nodup).2
  · exact fun p hp => h.held p (List.mem_cons_of_mem _ hp)
  · exact h.stored
  · intro s
    rcases h.lives s with hun | hgone | ⟨o, hrun, p, hp, hp'⟩ | hstored
    · exact .inl hun
    · exact .inr (.inl hgone)
    · rcases List.mem_cons.mp hp with rfl | hp
      · cases hp'.1
      · exact .inr (.inr (.inl ⟨o, hrun, p, hp, hp'⟩))
    · exact .inr (.inr (.inr hstored))
  · exact h.later
  · exact h.gauge

/-- What happens with a dialogue that is out of the store leaves it with its handler. -/
theorem act {o : Option Handler} {d d' : Dialogue} (h : Sound ((o, d) :: R) e)
    (handler : Handler) {events : List Event} (hs : d'.serial = d.serial)
    (ht : d'.ourTid = d.ourTid)
    (hlife : ∀ life, lifeOf e.log d.serial = some life →
      life.follow (events.map fun event => ⟨d.serial, handler, event⟩) = some (.running handler))
    (hquiet : ∀ x ∈ events, x.isStored = false ∧ x.isTaken = false) :
    Sound ((some handler, d') :: R) (e.note handler d events) := by
  have hhead : lifeOf (e.note handler d events).log d.serial = some (.running handler) := by
    have hold := h.held (o, d) List.mem_cons_self
    exact (lifeOf_self hold handler events).trans (hlife _ hold)
  have hlive : ∀ d'', Live ((some handler, d') :: R) (e.note handler d events) d'' →
      ∃ d₀, Live ((o, d) :: R) e d₀ ∧ d''.serial = d₀.serial ∧ d''.ourTid = d₀.ourTid := by
    rintro d'' (⟨p, hp, rfl⟩ | hstored)
    · rcases List.mem_cons.mp hp with rfl | hp
      · exact ⟨d, .inl ⟨_, List.mem_cons_self, rfl⟩, hs, ht⟩
      · exact ⟨p.2, .inl ⟨p, List.mem_cons_of_mem _ hp, rfl⟩, rfl, rfl⟩
    · exact ⟨d'', .inr hstored, rfl, rfl⟩
  have hnodup := List.nodup_cons.mp h.nodup
  have hother : ∀ p ∈ R, d.serial ≠ p.2.serial := fun p hp heq =>
    hnodup.1 (List.mem_map.mpr ⟨p, hp, heq.symm⟩)
  constructor
  · exact h.counter
  · intro d'' hd''
    obtain ⟨d₀, hd₀, hs₀, ht₀⟩ := hlive d'' hd''
    rw [hs₀, ht₀]
    exact h.named d₀ hd₀
  · intro d₁ d₂ h₁ h₂ hmod
    obtain ⟨d₃, h₃, hs₃, -⟩ := hlive d₁ h₁
    obtain ⟨d₄, h₄, hs₄, -⟩ := hlive d₂ h₂
    rw [hs₃, hs₄] at hmod ⊢
    exact h.apart d₃ d₄ h₃ h₄ hmod
  · rw [List.map_cons, List.nodup_cons]
    dsimp only
    rw [hs]
    exact hnodup
  · intro p hp
    rcases List.mem_cons.mp hp with rfl | hp
    · dsimp only
      rw [hs]
      exact hhead
    · exact (lifeOf_ne (hother p hp) e.log handler events).trans
        (h.held p (List.mem_cons_of_mem _ hp))
  · intro tid r hr
    obtain ⟨htid, hclosed, hlife'⟩ := h.stored tid r hr
    refine ⟨htid, hclosed, (lifeOf_ne ?_ e.log handler events).trans hlife'⟩
    intro heq
    have hold := h.held (o, d) List.mem_cons_self
    dsimp only at hold
    rw [heq, hlife'] at hold
    cases o <;> simp at hold
  · intro s
    by_cases hd : d.serial = s
    · subst hd
      exact .inr (.inr (.inl ⟨handler, hhead, _, List.mem_cons_self, rfl, hs⟩))
    · have hsame := lifeOf_ne hd e.log handler events
      change lifeOf (e.note handler d events).log s = lifeOf e.log s at hsame
      rw [hsame]
      rcases h.lives s with hun | hgone | ⟨o', hrun, p, hp, hp'⟩ | hstored
      · exact .inl hun
      · exact .inr (.inl hgone)
      · rcases List.mem_cons.mp hp with rfl | hp
        · exact absurd hp'.2 hd
        · exact .inr (.inr (.inl ⟨o', hrun, p, List.mem_cons_of_mem _ hp, hp'⟩))
      · exact .inr (.inr (.inr hstored))
  · intro s hlt
    have hle := (h.named d (.inl ⟨_, List.mem_cons_self, rfl⟩)).2
    have hd : d.serial ≠ s := by
      rintro rfl
      exact absurd hlt (Nat.not_lt.mpr hle)
    exact (lifeOf_ne hd e.log handler events).trans (h.later s hlt)
  · have hstored : events.countP Event.isStored = 0 := by
      rw [List.countP_eq_zero]
      exact fun x hx => by simp [(hquiet x hx).1]
    have htaken : events.countP Event.isTaken = 0 := by
      rw [List.countP_eq_zero]
      exact fun x hx => by simp [(hquiet x hx).2]
    rw [count_note, count_note, hstored, htaken]
    exact h.gauge

/-- The record of a dialogue, by the id that names it. -/
theorem serial_ne {tid : Tid} {r r' : Record} (h : Sound R e)
    (hr : e.dialogues.lookup tid = some r) {tid' : Tid}
    (hr' : e.dialogues.lookup tid' = some r') (hne : tid' ≠ tid) :
    r.dialogue.serial ≠ r'.dialogue.serial := by
  intro heq
  have hname := (h.named r.dialogue (.inr ⟨tid, r, hr, rfl⟩)).1
  have hname' := (h.named r'.dialogue (.inr ⟨tid', r', hr', rfl⟩)).1
  rw [(h.stored tid r hr).1] at hname
  rw [(h.stored tid' r' hr').1, ← heq, ← hname] at hname'
  exact hne hname'

theorem take (h : Sound R e) {tid : Tid} {r : Record} (hr : e.dialogues.lookup tid = some r) :
    Sound ((some r.handler, r.dialogue) :: R) (e.take tid).2 := by
  obtain ⟨htid, hclosed, hlife⟩ := h.stored tid r hr
  have htake : (e.take tid).2 = { e with dialogues := e.dialogues.erase tid }.note r.handler
      r.dialogue [.taken tid] := by
    rw [Engine.take, hr]
  have hlookup : ∀ tid' r', (e.take tid).2.dialogues.lookup tid' = some r' ↔
      tid' ≠ tid ∧ e.dialogues.lookup tid' = some r' := by
    intro tid' r'
    rw [htake]
    by_cases heq : tid' = tid
    · subst heq
      simp [Engine.note]
    · simp [Engine.note, heq, AList.lookup_erase_ne heq]
  have hhead : lifeOf (e.take tid).2.log r.dialogue.serial = some (.running r.handler) := by
    rw [htake]
    refine (lifeOf_self hlife r.handler [.taken tid]).trans ?_
    simp [Life.follow, Life.next]
  have hother : ∀ s, r.dialogue.serial ≠ s → lifeOf (e.take tid).2.log s = lifeOf e.log s := by
    intro s hs
    rw [htake]
    exact lifeOf_ne hs e.log r.handler [.taken tid]
  have hlive : ∀ d, Live ((some r.handler, r.dialogue) :: R) (e.take tid).2 d → Live R e d := by
    rintro d (⟨p, hp, rfl⟩ | ⟨tid', r', hr', rfl⟩)
    · rcases List.mem_cons.mp hp with rfl | hp
      · exact .inr ⟨tid, r, hr, rfl⟩
      · exact .inl ⟨p, hp, rfl⟩
    · exact .inr ⟨tid', r', ((hlookup tid' r').mp hr').2, rfl⟩
  have hapart : ∀ p ∈ R, r.dialogue.serial ≠ p.2.serial := by
    intro p hp heq
    have hheld := h.held p hp
    rw [← heq, hlife] at hheld
    obtain ⟨o, d⟩ := p
    cases o <;> simp at hheld
  have hsize : Store.size (e.dialogues.erase tid) + 1 = Store.size e.dialogues :=
    Store.size_erase (Store.mem_of_lookup hr)
  constructor
  · rw [htake]
    exact h.counter
  · intro d hd
    rw [htake]
    exact h.named d (hlive d hd)
  · exact fun d₁ d₂ h₁ h₂ => h.apart d₁ d₂ (hlive d₁ h₁) (hlive d₂ h₂)
  · rw [List.map_cons, List.nodup_cons]
    refine ⟨fun hmem => ?_, h.nodup⟩
    obtain ⟨p, hp, heq⟩ := List.mem_map.mp hmem
    exact hapart p hp heq.symm
  · intro p hp
    rcases List.mem_cons.mp hp with rfl | hp
    · exact hhead
    · rw [hother _ (hapart p hp)]
      exact h.held p hp
  · intro tid' r' hr'
    obtain ⟨hne, hr''⟩ := (hlookup tid' r').mp hr'
    rw [hother _ (h.serial_ne hr hr'' hne)]
    exact h.stored tid' r' hr''
  · intro s
    by_cases hs : r.dialogue.serial = s
    · subst hs
      exact .inr (.inr (.inl ⟨r.handler, hhead, _, List.mem_cons_self, rfl, rfl⟩))
    · rw [hother s hs]
      rcases h.lives s with hun | hgone | ⟨o, hrun, p, hp, hp'⟩ | ⟨o, hsto, tid', r', hr', hs'⟩
      · exact .inl hun
      · exact .inr (.inl hgone)
      · exact .inr (.inr (.inl ⟨o, hrun, p, List.mem_cons_of_mem _ hp, hp'⟩))
      · refine .inr (.inr (.inr ⟨o, hsto, tid', r', (hlookup tid' r').mpr ⟨?_, hr'⟩, hs'⟩))
        rintro rfl
        obtain rfl : r = r' := Option.some.inj (hr.symm.trans hr')
        exact hs hs'
  · intro s hlt
    have hle := (h.named r.dialogue (.inr ⟨tid, r, hr, rfl⟩)).2
    have hlt' : e.allocated < s := by
      rw [htake] at hlt
      exact hlt
    rw [hother s (by omega)]
    exact h.later s hlt'
  · have hgauge := h.gauge
    rw [htake, count_note, count_note]
    simp only [Engine.note, List.countP_singleton, Event.isTaken, Event.isStored,
      Bool.false_eq_true, ↓reduceIte]
    omega

/-- No record is stored under the id of a dialogue that is in a turn. -/
theorem absent {h' : Handler} {d : Dialogue} (h : Sound ((some h', d) :: R) e) :
    d.ourTid ∉ e.dialogues := by
  intro hmem
  obtain ⟨r, hr⟩ := Option.isSome_iff_exists.mp (AList.lookup_isSome.mpr hmem)
  have hd : Live ((some h', d) :: R) e d := .inl ⟨_, List.mem_cons_self, rfl⟩
  have hr' : Live ((some h', d) :: R) e r.dialogue := .inr ⟨_, r, hr, rfl⟩
  obtain ⟨htid, -, hlife⟩ := h.stored _ r hr
  have hmod : d.serial ≡ r.dialogue.serial [MOD 2 ^ 31] := by
    rw [← tidOf_ofNat, ← (h.named d hd).1, ← (h.named r.dialogue hr').1, htid]
  have hheld := h.held _ List.mem_cons_self
  dsimp only at hheld
  rw [h.apart d r.dialogue hd hr' hmod, hlife] at hheld
  cases hheld

/-- A turn ends, and the dialogue is where its life says. -/
theorem leave {h' : Handler} {d : Dialogue} (h : Sound ((some h', d) :: R) e) {event : Event}
    (dialogues : Store Tid Record)
    (hstays : ∀ tid r, dialogues.lookup tid = some r → e.dialogues.lookup tid = some r ∨
      tid = d.ourTid ∧ r.handler = h' ∧ r.dialogue = d ∧ d.closed = none ∧ event.isStored = true)
    (hkeeps : ∀ tid r, e.dialogues.lookup tid = some r → dialogues.lookup tid = some r)
    (hlife : (Life.running h').next ⟨d.serial, h', event⟩ = some .gone ∨
      (Life.running h').next ⟨d.serial, h', event⟩ = some (.stored h') ∧
        ∃ r, dialogues.lookup d.ourTid = some r ∧ r.dialogue = d)
    (hgone : event.isStored = true →
      (Life.running h').next ⟨d.serial, h', event⟩ = some (.stored h'))
    (hgauge : Store.size dialogues + count Event.isTaken (e.note h' d [event]).log =
      count Event.isStored (e.note h' d [event]).log) :
    Sound R ({ e with dialogues := dialogues }.note h' d [event]) := by
  have hrunning : lifeOf e.log d.serial = some (.running h') := h.held _ List.mem_cons_self
  have hself : lifeOf (e.note h' d [event]).log d.serial =
      (Life.running h').next ⟨d.serial, h', event⟩ :=
    (lifeOf_self hrunning h' [event]).trans (Life.follow_single _ _)
  have hother : ∀ s, d.serial ≠ s → lifeOf (e.note h' d [event]).log s = lifeOf e.log s :=
    fun s hs => lifeOf_ne hs e.log h' [event]
  have hlive : ∀ d', Live R ({ e with dialogues := dialogues }.note h' d [event]) d' →
      Live ((some h', d) :: R) e d' := by
    rintro d' (⟨p, hp, rfl⟩ | ⟨tid, r, hr, rfl⟩)
    · exact .inl ⟨p, List.mem_cons_of_mem _ hp, rfl⟩
    · rcases hstays tid r hr with hr | ⟨-, -, hd, -⟩
      · exact .inr ⟨tid, r, hr, rfl⟩
      · exact .inl ⟨_, List.mem_cons_self, hd.symm⟩
  have hnodup := List.nodup_cons.mp h.nodup
  have hapart : ∀ p ∈ R, d.serial ≠ p.2.serial := fun p hp heq =>
    hnodup.1 (List.mem_map.mpr ⟨p, hp, heq.symm⟩)
  constructor
  · exact h.counter
  · exact fun d' hd' => h.named d' (hlive d' hd')
  · exact fun d₁ d₂ h₁ h₂ => h.apart d₁ d₂ (hlive d₁ h₁) (hlive d₂ h₂)
  · exact hnodup.2
  · intro p hp
    exact (hother _ (hapart p hp)).trans (h.held p (List.mem_cons_of_mem _ hp))
  · intro tid r hr
    rcases hstays tid r hr with hr | ⟨rfl, rfl, rfl, hclosed, hstored⟩
    · obtain ⟨htid, hclosed, hlife'⟩ := h.stored tid r hr
      refine ⟨htid, hclosed, (hother _ fun heq => ?_).trans hlife'⟩
      rw [heq, hlife'] at hrunning
      cases hrunning
    · exact ⟨rfl, hclosed, hself.trans (hgone hstored)⟩
  · intro s
    by_cases hs : d.serial = s
    · subst hs
      rcases hlife with hl | ⟨hl, r, hr, hd⟩
      · exact .inr (.inl (hself.trans hl))
      · exact .inr (.inr (.inr ⟨h', hself.trans hl, d.ourTid, r, hr, by rw [hd]⟩))
    · have hsame := hother s hs
      rcases h.lives s with hun | hgone | ⟨o, hrun, p, hp, hp'⟩ | ⟨o, hsto, tid, r, hr, hs'⟩
      · exact .inl (hsame.trans hun)
      · exact .inr (.inl (hsame.trans hgone))
      · rcases List.mem_cons.mp hp with rfl | hp
        · exact absurd hp'.2 hs
        · exact .inr (.inr (.inl ⟨o, hsame.trans hrun, p, hp, hp'⟩))
      · exact .inr (.inr (.inr ⟨o, hsame.trans hsto, tid, r, hkeeps tid r hr, hs'⟩))
  · intro s hlt
    have hle := (h.named d (.inl ⟨_, List.mem_cons_self, rfl⟩)).2
    have hs : d.serial ≠ s := by
      rintro rfl
      exact absurd hlt (Nat.not_lt.mpr hle)
    exact (hother s hs).trans (h.later s hlt)
  · exact hgauge

theorem store {h' : Handler} {d : Dialogue} (h : Sound ((some h', d) :: R) e)
    (hc : d.closed = none) (assoc : String) (activity : ℕ) :
    Sound R (e.store d h' assoc activity) := by
  have habsent := h.absent
  refine h.leave _ ?_ ?_ (.inr ⟨?_, ?_⟩) ?_ ?_
  · intro tid r hr
    by_cases heq : tid = d.ourTid
    · subst heq
      rw [AList.lookup_insert] at hr
      obtain rfl := Option.some.inj hr
      exact .inr ⟨rfl, rfl, rfl, hc, rfl⟩
    · rw [AList.lookup_insert_ne heq] at hr
      exact .inl hr
  · intro tid r hr
    rw [AList.lookup_insert_ne, hr]
    rintro rfl
    exact habsent (Store.mem_of_lookup hr)
  · simp [Life.next]
  · exact ⟨_, AList.lookup_insert _, rfl⟩
  · intro
    simp [Life.next]
  · have hgauge := h.gauge
    rw [Store.size_insert habsent, count_note, count_note]
    simp only [List.countP_singleton, Event.isTaken, Event.isStored, Bool.false_eq_true,
      ↓reduceIte]
    omega

theorem close {h' : Handler} {d : Dialogue} (h : Sound ((some h', d) :: R) e)
    (reason : CloseReason) : Sound R (e.closed h' d reason) := by
  refine h.leave e.dialogues (fun tid r hr => .inl hr) (fun tid r hr => hr)
    (.inl ?_) ?_ ?_
  · simp [Life.next]
  · intro hstored
    cases hstored
  · rw [count_note, count_note]
    exact h.gauge

theorem claim (h : Sound R e) {dialogues : Store Tid Record}
    (hsize : Store.size dialogues = Store.size e.dialogues)
    (hl : ∀ tid, (dialogues.lookup tid).map (fun r => (r.handler, r.dialogue)) =
      (e.dialogues.lookup tid).map fun r => (r.handler, r.dialogue)) :
    Sound R { e with dialogues := dialogues } := by
  have hold : ∀ tid r, dialogues.lookup tid = some r → ∃ r', e.dialogues.lookup tid = some r' ∧
      r'.handler = r.handler ∧ r'.dialogue = r.dialogue := by
    intro tid r hr
    have heq := hl tid
    rw [hr, Option.map_some, eq_comm, Option.map_eq_some_iff] at heq
    obtain ⟨r', hr', hsame⟩ := heq
    exact ⟨r', hr', (Prod.mk.inj hsame).1, (Prod.mk.inj hsame).2⟩
  have hnew : ∀ tid r, e.dialogues.lookup tid = some r → ∃ r', dialogues.lookup tid = some r' ∧
      r'.handler = r.handler ∧ r'.dialogue = r.dialogue := by
    intro tid r hr
    have heq := hl tid
    rw [hr, Option.map_some, Option.map_eq_some_iff] at heq
    obtain ⟨r', hr', hsame⟩ := heq
    exact ⟨r', hr', (Prod.mk.inj hsame).1, (Prod.mk.inj hsame).2⟩
  have hlive : ∀ d, Live R { e with dialogues := dialogues } d → Live R e d := by
    rintro d (hheld | ⟨tid, r, hr, rfl⟩)
    · exact .inl hheld
    · obtain ⟨r', hr', -, hd⟩ := hold tid r hr
      exact .inr ⟨tid, r', hr', hd⟩
  constructor
  · exact h.counter
  · exact fun d hd => h.named d (hlive d hd)
  · exact fun d₁ d₂ h₁ h₂ => h.apart d₁ d₂ (hlive d₁ h₁) (hlive d₂ h₂)
  · exact h.nodup
  · exact h.held
  · intro tid r hr
    obtain ⟨r', hr', hh, hd⟩ := hold tid r hr
    rw [← hh, ← hd]
    exact h.stored tid r' hr'
  · intro s
    rcases h.lives s with hun | hgone | hrun | ⟨o, hsto, tid, r, hr, hs⟩
    · exact .inl hun
    · exact .inr (.inl hgone)
    · exact .inr (.inr (.inl hrun))
    · obtain ⟨r', hr', -, hd⟩ := hnew tid r hr
      exact .inr (.inr (.inr ⟨o, hsto, tid, r', hr', by rw [hd, hs]⟩))
  · exact h.later
  · rw [hsize]
    exact h.gauge

theorem swap (h : Sound R e) (hR : R.Perm R') : Sound R' e := by
  have hlive : ∀ d, Live R' e d → Live R e d := by
    rintro d (⟨p, hp, rfl⟩ | hstored)
    · exact .inl ⟨p, hR.mem_iff.mpr hp, rfl⟩
    · exact .inr hstored
  constructor
  · exact h.counter
  · exact fun d hd => h.named d (hlive d hd)
  · exact fun d₁ d₂ h₁ h₂ => h.apart d₁ d₂ (hlive d₁ h₁) (hlive d₂ h₂)
  · exact (hR.map _).nodup_iff.mp h.nodup
  · exact fun p hp => h.held p (hR.mem_iff.mpr hp)
  · exact h.stored
  · intro s
    rcases h.lives s with hun | hgone | ⟨o, hrun, p, hp, hp'⟩ | hstored
    · exact .inl hun
    · exact .inr (.inl hgone)
    · exact .inr (.inr (.inl ⟨o, hrun, p, hR.mem_iff.mp hp, hp'⟩))
    · exact .inr (.inr (.inr hstored))
  · exact h.later
  · exact h.gauge

/-- The invariant is kept by every move, if ids are allocated only where they are fresh. -/
theorem move {R' : List Held} {e' : Engine} (hm : Move Fresh R e R' e') (h : Sound R e) :
    Sound R' e' := by
  cases hm with
  | alloc d hg hs ht => exact h.alloc hg hs ht
  | discard d => exact h.discard
  | give handler d d' event events hk hevent hevents =>
    refine h.act handler hk.serial hk.ourTid ?_ ?_
    · intro life hlife
      have hunborn := h.held _ List.mem_cons_self
      dsimp only at hunborn
      obtain rfl := Option.some.inj (hunborn.symm.trans hlife)
      have hfirst : Life.unborn.next ⟨d.serial, handler, event⟩ = some (.running handler) := by
        rcases hevent with rfl | ⟨op, rfl⟩ <;> rfl
      have hsplit := Life.follow_append .unborn [⟨d.serial, handler, event⟩]
        (events.map fun event => ⟨d.serial, handler, event⟩)
      rw [Life.follow_single, hfirst] at hsplit
      refine hsplit.trans (Life.follow_turn handler ?_)
      intro x hx
      obtain ⟨y, hy, rfl⟩ := List.mem_map.mp hx
      exact ⟨rfl, .inl (hevents y hy)⟩
    · intro x hx
      rcases List.mem_cons.mp hx with rfl | hx
      · rcases hevent with rfl | ⟨op, rfl⟩ <;> exact ⟨rfl, rfl⟩
      · have hcall := hevents x hx
        cases x <;> simp_all [Event.ofCall, Event.isStored, Event.isTaken]
  | turn handler d d' events hs ht hevents =>
    refine h.act handler hs ht ?_ ?_
    · intro life hlife
      have hrunning := h.held _ List.mem_cons_self
      dsimp only at hrunning
      obtain rfl := Option.some.inj (hrunning.symm.trans hlife)
      refine Life.follow_turn handler ?_
      intro x hx
      obtain ⟨y, hy, rfl⟩ := List.mem_map.mp hx
      exact ⟨rfl, hevents y hy⟩
    · intro x hx
      rcases hevents x hx with hcall | ⟨turn, rfl⟩ | ⟨timeout, now, rfl⟩
      · cases x <;> simp_all [Event.ofCall, Event.isStored, Event.isTaken]
      · exact ⟨rfl, rfl⟩
      · exact ⟨rfl, rfl⟩
  | take tid r hr => exact h.take hr
  | store handler d assoc activity hc => exact h.store hc assoc activity
  | close handler d reason => exact h.close reason
  | claim dialogues hsize hl => exact h.claim hsize hl
  | swap hR => exact h.swap hR

end Sound

end SiphonSigtran.Tcap
