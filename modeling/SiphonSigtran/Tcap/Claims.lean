import SiphonSigtran.Tcap.Outcome
import SiphonSigtran.Tcap.Records

/-!
# Claims

A dialogue whose timers are due is claimed once, and then waits for its timers to be run. The
claim is marked on its record, so a turn of the dialogue in between, which stores the record anew,
makes it claimed a second time.
-/

namespace SiphonSigtran.Tcap

open Lib

variable {c : Codec} {e : Engine} {unserved : Tid → Option ℕ}

/-- The claims that are not served yet: under each id, the dialogue that was claimed, until its
timers are run or it is given back. -/
def Engine.served (e : Engine) (unserved : Tid → Option ℕ) : Engine.Op → Tid → Option ℕ
  | .claimExpired now => fun tid =>
    if tid ∈ (e.claimExpired now).1 then (e.dialogues.lookup tid).map fun r => r.dialogue.serial
    else unserved tid
  | .expire tid _ _ _ | .releaseClaim tid => Function.update unserved tid none
  | _ => unserved

/-- An operation, with the claims that are not served beside the engine. -/
def Engine.claims (c : Codec) (p : Engine × (Tid → Option ℕ)) (op : Engine.Op) :
    Engine × (Tid → Option ℕ) :=
  (p.1.step c op, p.1.served p.2 op)

/-- A Continue has its turn in a dialogue that waits for its timers to be run, and leaves it
open. -/
def Engine.interrupts (c : Codec) (p : Engine × (Tid → Option ℕ)) (op : Engine.Op) : Bool :=
  match op with
  | .deliver inbound _ _ _ =>
    (continued c inbound).any fun tid => (p.1.dialogues.lookup tid).any fun r =>
      p.2 tid = some r.dialogue.serial && ((p.1.step c op).dialogues.lookup tid).any
        fun r' => r'.dialogue.serial = r.dialogue.serial
  | _ => false

/-- Every record marked as claimed waits, and only dialogues that were opened do. -/
structure Marked (e : Engine) (unserved : Tid → Option ℕ) : Prop where
  ordered : Ordered e
  waits : ∀ tid r, e.dialogues.lookup tid = some r → r.claimed = true →
    unserved tid = some r.dialogue.serial
  opened : ∀ tid s, unserved tid = some s → s ≤ e.allocated

/-- Every record that waits is marked as claimed. -/
def Waiting (e : Engine) (unserved : Tid → Option ℕ) : Prop :=
  ∀ tid r, e.dialogues.lookup tid = some r → unserved tid = some r.dialogue.serial →
    r.claimed = true

theorem Marked.of_changes (h : Marked e unserved) {e' : Engine} {named : Option Tid} {now : ℕ}
    (hordered : Ordered e') (hle : e.allocated ≤ e'.allocated)
    (hchanges : Changes e e' named now) : Marked e' unserved := by
  refine ⟨hordered, fun tid r hr hclaimed => ?_, fun tid s hs => (h.opened tid s hs).trans hle⟩
  cases hchanges tid r hr with
  | same hsame hnamed => exact h.waits tid r hsame hclaimed
  | begun d htid hserial hallocated hrenewed =>
    rw [hrenewed.claimed] at hclaimed
    cases hclaimed
  | turned r₀ hnamed hr₀ hrenewed =>
    rw [hrenewed.claimed] at hclaimed
    cases hclaimed

theorem served_claimed {now : ℕ} {tid : Tid} {r : Record} (hr : e.dialogues.lookup tid = some r) :
    e.served unserved (.claimExpired now) tid =
      if r.claimed = false ∧ timersDue r now = true then some r.dialogue.serial
      else unserved tid := by
  have hmem : tid ∈ (e.claimExpired now).1 ↔ r.claimed = false ∧ timersDue r now = true := by
    rw [mem_claimExpired]
    constructor
    · rintro ⟨r', hr', hdue⟩
      obtain rfl := Option.some.inj (hr.symm.trans hr')
      exact hdue
    · exact fun hdue => ⟨r, hr, hdue⟩
  simp only [Engine.served, hmem, hr, Option.map_some]

theorem Marked.step (h : Marked e unserved) {op : Engine.Op} (hop : op.isSweep = false) :
    Marked (Engine.claims c (e, unserved) op).1 (Engine.claims c (e, unserved) op).2 := by
  have hordered := h.ordered.step (c := c) hop
  have hle := step_allocated (c := c) (e := e) op
  simp only [Engine.claims]
  cases op with
  | deliver inbound assoc script now =>
    exact h.of_changes hordered hle (deliver_changes h.ordered.filed inbound assoc script now)
  | begin req handler script now =>
    exact h.of_changes hordered hle (begin_changes req handler script now)
  | sweep now order scripts clock => cases hop
  | claimExpired now =>
    refine ⟨hordered, fun tid r hr hclaimed => ?_, fun tid s hs => ?_⟩
    · obtain ⟨r₀, hr₀, rfl⟩ := claimExpired_record hr
      rw [served_claimed hr₀]
      split_ifs with hdue
      · rfl
      · refine h.waits tid r₀ hr₀ ?_
        simp only [Bool.or_eq_true] at hclaimed
        rcases hclaimed with hclaimed | hclaimed
        · exact hclaimed
        · by_contra hnot
          exact hdue ⟨Bool.not_eq_true _ ▸ hnot, hclaimed⟩
    · refine le_trans ?_ hle
      simp only [Engine.served] at hs
      split_ifs at hs
      · obtain ⟨r₀, hr₀, rfl⟩ := Option.map_eq_some_iff.mp hs
        exact (h.ordered tid r₀ hr₀).serial
      · exact h.opened tid s hs
  | expire tid' now scripts clock =>
    refine ⟨hordered, fun tid r hr hclaimed => ?_, fun tid s hs => ?_⟩
    · rcases expire_record h.ordered.filed hr with
        ⟨hne, hsame⟩ | ⟨rfl, r₀, hr₀, ⟨-, rfl, -⟩ | ⟨-, hrenewed⟩⟩
      · simp only [Engine.served, Function.update_of_ne hne]
        exact h.waits tid r hsame hclaimed
      · cases hclaimed
      · rw [hrenewed.claimed] at hclaimed
        cases hclaimed
    · simp only [Engine.served, Function.update_apply] at hs
      split_ifs at hs
      exact (h.opened tid s hs).trans hle
  | releaseClaim tid' =>
    refine ⟨hordered, fun tid r hr hclaimed => ?_, fun tid s hs => ?_⟩
    · rcases releaseClaim_record hr with ⟨hne, hsame⟩ | ⟨rfl, r₀, hr₀, rfl⟩
      · simp only [Engine.served, Function.update_of_ne hne]
        exact h.waits tid r hsame hclaimed
      · cases hclaimed
    · simp only [Engine.served, Function.update_apply] at hs
      split_ifs at hs
      exact (h.opened tid s hs).trans hle

theorem Waiting.step (h : Waiting e unserved) (hmarked : Marked e unserved) {op : Engine.Op}
    (hop : op.isSweep = false) (hclear : Engine.interrupts c (e, unserved) op = false) :
    Waiting (Engine.claims c (e, unserved) op).1 (Engine.claims c (e, unserved) op).2 := by
  have hnew : ∀ {tid : Tid} {r : Record}, r.dialogue.serial = e.allocated + 1 →
      unserved tid ≠ some r.dialogue.serial := by
    intro tid r hserial hwaits
    have hle := hmarked.opened tid _ hwaits
    omega
  intro tid r hr hwaits
  simp only [Engine.claims] at hr hwaits
  cases op with
  | deliver inbound assoc script now =>
    have hchange := deliver_changes (c := c) hmarked.ordered.filed inbound assoc script now tid r hr
    cases hchange with
    | same hsame hnamed => exact h tid r hsame hwaits
    | begun d htid hserial hallocated hrenewed =>
      exact absurd hwaits (hnew (hrenewed.serial.trans hserial))
    | turned r₀ hnamed hr₀ hrenewed =>
      have hserial := hrenewed.serial
      simp only [Engine.interrupts, hnamed, hr₀, hr, Option.any_some, Bool.and_eq_false_iff,
        decide_eq_false_iff_not] at hclear
      rcases hclear with hclear | hclear
      · rw [hserial] at hwaits
        exact absurd hwaits hclear
      · exact absurd hserial hclear
  | begin req handler script now =>
    cases begin_changes (c := c) req handler script now tid r hr with
    | same hsame hnamed => exact h tid r hsame hwaits
    | begun d htid hserial hallocated hrenewed =>
      exact absurd hwaits (hnew (hrenewed.serial.trans hserial))
    | turned r₀ hnamed hr₀ hrenewed => cases hnamed
  | sweep now order scripts clock => cases hop
  | claimExpired now =>
    obtain ⟨r₀, hr₀, rfl⟩ := claimExpired_record hr
    rw [served_claimed hr₀] at hwaits
    split_ifs at hwaits with hdue
    · simp [hdue.2]
    · simp [h tid r₀ hr₀ hwaits]
  | expire tid' now scripts clock =>
    rcases expire_record hmarked.ordered.filed hr with ⟨hne, hsame⟩ | ⟨rfl, -⟩
    · simp only [Engine.served, Function.update_of_ne hne] at hwaits
      exact h tid r hsame hwaits
    · simp [Engine.served] at hwaits
  | releaseClaim tid' =>
    rcases releaseClaim_record hr with ⟨hne, hsame⟩ | ⟨rfl, -⟩
    · simp only [Engine.served, Function.update_of_ne hne] at hwaits
      exact h tid r hsame hwaits
    · simp [Engine.served] at hwaits

/-- In every run the next claim returns each dialogue whose timers are due and that does not wait
for an earlier claim. If no Continue has had its turn in a dialogue that waits and left it open, it
returns none that waits. -/
theorem claims_once (c : Codec) (config : Config)
    (handlers fallbackHandlers : ℕ × ℤ → Option Handler) (ops : List Engine.Op)
    (hops : ∀ op ∈ ops, op.isSweep = false) :
    let start := (Engine.new config handlers fallbackHandlers, fun _ : Tid => (none : Option ℕ))
    let p := Machine.run (Engine.claims c) start ops
    (∀ now tid r, p.1.dialogues.lookup tid = some r → timersDue r now = true →
      p.2 tid ≠ some r.dialogue.serial → tid ∈ (p.1.claimExpired now).1) ∧
    (Machine.Along (Engine.claims c) (fun p op => Engine.interrupts c p op = false) start ops →
      ∀ now, ∀ tid ∈ (p.1.claimExpired now).1, ∀ r, p.1.dialogues.lookup tid = some r →
        p.2 tid ≠ some r.dialogue.serial) := by
  intro start p
  have hnone : ∀ tid, start.1.dialogues.lookup tid = none := fun tid => by
    simp [start, Engine.new]
  have hstart : Marked start.1 start.2 := by
    refine ⟨ordered_new _ _ _, fun tid r hr => ?_, fun tid s hs => by cases hs⟩
    rw [hnone] at hr
    cases hr
  constructor
  · have hmarked : Marked p.1 p.2 := by
      refine Machine.run_invariant
        (P := fun p : Engine × (Tid → Option ℕ) => Marked p.1 p.2)
        (Q := fun _ op => op.isSweep = false) (fun p op h hop => h.step hop) hstart ?_
      exact Machine.along_of_forall _ hops
    intro now tid r hr hdue hfree
    refine mem_claimExpired.mpr ⟨r, hr, ?_, hdue⟩
    by_contra hclaimed
    exact hfree (hmarked.waits tid r hr (by simpa using hclaimed))
  · intro hclear now tid htid r hr hwaits
    have hboth : Marked p.1 p.2 ∧ Waiting p.1 p.2 := by
      refine Machine.run_invariant
        (P := fun p : Engine × (Tid → Option ℕ) => Marked p.1 p.2 ∧ Waiting p.1 p.2)
        (Q := fun p op => op.isSweep = false ∧ Engine.interrupts c p op = false)
        (fun p op h hop => ⟨h.1.step hop.1, h.2.step h.1 hop.1 hop.2⟩) ⟨hstart, ?_⟩ ?_
      · intro tid r hr
        rw [hnone] at hr
        cases hr
      · exact (Machine.along_of_forall _ hops).and hclear
    obtain ⟨r', hr', hclaimed, -⟩ := mem_claimExpired.mp htid
    obtain rfl := Option.some.inj (hr.symm.trans hr')
    rw [hboth.2 tid r hr hwaits] at hclaimed
    cases hclaimed

/-- The octets of a Continue without components, beside the messages with invokes. -/
def continueCodec : Codec :=
  { invokeCodec with
    decodeDetailed := fun data =>
      match data with
      | [0x65, 0x0C, 0x48, 0x04, a, b, c, d, 0x49, 0x04, a', b', c', d'] =>
        .complete (.continues ⟨[a, b, c, d], [a', b', c', d'], none, none⟩)
      | data => invokeCodec.decodeDetailed data }

/-- A dialogue passes an invoke on, which times out, and the dialogue is claimed. -/
def claimedOnce : List Engine.Op :=
  [.deliver invokeMsu "m2pa" (invokes 1 ++ [.send 0]) 0, .claimExpired (fromMillis 15000)]

theorem claims_once_of_timeout : [0x80, 0, 0, 1] ∉ ((Machine.run (Engine.claims continueCodec)
    (invokeEngine, fun _ => none) claimedOnce).1.claimExpired (fromMillis 15000)).1 := by
  intro hclaimed
  obtain ⟨r, hr, hwaits⟩ : ∃ r, (Machine.run (Engine.claims continueCodec)
      (invokeEngine, fun _ => none) claimedOnce).1.dialogues.lookup [0x80, 0, 0, 1] = some r ∧
      (Machine.run (Engine.claims continueCodec) (invokeEngine, fun _ => none) claimedOnce).2
        [0x80, 0, 0, 1] = some r.dialogue.serial :=
    ⟨_, rfl, rfl⟩
  exact (claims_once continueCodec ⟨15000, 0, 10⟩ (fun _ => some 7) (fun _ => none) claimedOnce
    (by decide)).2 (by decide +kernel) (fromMillis 15000) [0x80, 0, 0, 1] hclaimed r hr hwaits

/-- A Continue comes before the timers are run, and the dialogue is claimed again. -/
def continuedMeanwhile : List Engine.Op :=
  claimedOnce ++ [.deliver
    (shortMsu [0x65, 0x0C, 0x48, 0x04, 0, 0, 0, 5, 0x49, 0x04, 0x80, 0, 0, 1]) "m2pa" []
    (fromMillis 15000)]

theorem claimed_twice :
    ¬ ∀ (c : Codec) (config : Config) (handlers fallbackHandlers : ℕ × ℤ → Option Handler)
      (ops : List Engine.Op), (∀ op ∈ ops, op.isSweep = false) →
      let p := Machine.run (Engine.claims c)
        (Engine.new config handlers fallbackHandlers, fun _ => none) ops
      ∀ now, ∀ tid ∈ (p.1.claimExpired now).1, ∀ r ∈ p.1.dialogues.lookup tid,
        p.2 tid ≠ some r.dialogue.serial := by
  intro hall
  have hfree := hall continueCodec ⟨15000, 0, 10⟩ (fun _ => some 7) (fun _ => none)
    continuedMeanwhile (by decide) (fromMillis 15000)
  revert hfree
  decide +kernel

end SiphonSigtran.Tcap
