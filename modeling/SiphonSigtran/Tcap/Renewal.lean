import SiphonSigtran.Tcap.Closing

/-!
# Transaction ids come round

An id is the number of its allocation modulo 2^31. As long as none is allocated that an
open dialogue got 2^31 allocations before, or twice that, each names one dialogue, however
turns interleave. Nothing in the engine sees to that.
-/

namespace SiphonSigtran.Tcap

open Lib

variable {R R' : List Held} {e e' : Engine}

theorem Sound.allocTid_ne (h : Sound R e) {d : Dialogue} (hd : Live R e d) :
    e.allocTid.1 ≠ d.ourTid ↔ ¬ d.serial ≡ e.allocated + 1 [MOD 2 ^ 31] := by
  have hcounter : e.tidCounter + 1 = UInt32.ofNat (e.allocated + 1) := by
    rw [h.counter, UInt32.ofNat_add]
    rfl
  have halloc : e.allocTid.1 = tidOf (UInt32.ofNat (e.allocated + 1)) := by
    rw [← hcounter]
    rfl
  rw [halloc, (h.named d hd).1, Ne, eq_comm, tidOf_ofNat]

theorem Sound.eq_of_tid (h : Sound R e) {d d' : Dialogue} (hd : Live R e d) (hd' : Live R e d')
    (ht : d.ourTid = d'.ourTid) : d.serial = d'.serial := by
  apply h.apart d d' hd hd'
  rw [← tidOf_ofNat, ← (h.named d hd).1, ← (h.named d' hd').1, ht]

theorem Sound.not_stored (h : Sound R e) {o : Handler} {d : Dialogue} (hd : (some o, d) ∈ R) :
    d.ourTid ∉ e.dialogues :=
  (h.swap (List.perm_cons_erase hd)).absent

/-- An operation that allocates an id only where it is fresh. -/
theorem step_fresh (c : Codec) (op : Engine.Op)
    (hf : e.allocated < (e.step c op).allocated → Fresh [] e) :
    Steps Fresh [] e [] (e.step c op) := by
  have hsteps : Steps (fun R' e' => R' = [] ∧ e' = e) [] e [] (e.step c op) :=
    step_steps ⟨rfl, rfl⟩ op
  have hpairs : ∀ {p q : List Held × Engine},
      Relation.ReflTransGen (fun p q : List Held × Engine =>
        Move (fun R' e' => R' = [] ∧ e' = e) p.1 p.2 q.1 q.2) p q →
      q.2.allocated ≤ (e.step c op).allocated →
      Relation.ReflTransGen (fun p q : List Held × Engine => Move Fresh p.1 p.2 q.1 q.2) p q := by
    intro p q hpq
    induction hpq with
    | refl => exact fun _ => .refl
    | tail _ hlast ih =>
      intro hle
      refine (ih (hlast.allocated.trans hle)).tail (hlast.mono ?_)
      rintro ⟨hR, he⟩ hlt
      rw [hR, he]
      rw [he] at hlt
      exact hf (lt_of_lt_of_le hlt hle)
  exact hpairs hsteps le_rfl

theorem run_fresh (c : Codec) (config : Config) (handlers fallbackHandlers : ℕ × ℤ → Option Handler)
    {ops : List Engine.Op} (hf : Machine.Along (Engine.step c)
      (fun e op => e.allocated < (e.step c op).allocated → Fresh [] e)
      (Engine.new config handlers fallbackHandlers) ops) :
    Steps Fresh [] (Engine.new config handlers fallbackHandlers) []
      (Machine.run (Engine.step c) (Engine.new config handlers fallbackHandlers) ops) :=
  Machine.run_invariant (fun _ op h hop => h.trans (step_fresh c op hop)) (Steps.refl _ _) hf

/-- Where ids are allocated only when no open dialogue got one a multiple of 2^31 allocations
before, the next id is no open dialogue's just when that holds again, every id names one
open dialogue, and what is stored overwrites nothing. -/
theorem ids_name_one_dialogue (config : Config)
    (handlers fallbackHandlers : ℕ × ℤ → Option Handler)
    (h : Steps Fresh [] (Engine.new config handlers fallbackHandlers) R e) :
    ((∀ d, Live R e d → e.allocTid.1 ≠ d.ourTid) ↔ Fresh R e) ∧
    (∀ d d', Live R e d → Live R e d' → d.ourTid = d'.ourTid → d.serial = d'.serial) ∧
    (∀ o d, (some o, d) ∈ R → d.ourTid ∉ e.dialogues) ∧
    ∀ tid r, e.dialogues.lookup tid = some r → r.dialogue.ourTid = tid := by
  have hsound : Sound R e := h.invariant (fun hm hs => hs.move hm)
    (sound_new config handlers fallbackHandlers)
  refine ⟨?_, fun d d' hd hd' => hsound.eq_of_tid hd hd', fun o d hd => hsound.not_stored hd,
    fun tid r hr => (hsound.stored tid r hr).1⟩
  constructor
  · exact fun hne d hd => (hsound.allocTid_ne hd).mp (hne d hd)
  · exact fun hf d hd => (hsound.allocTid_ne hd).mpr (hf d hd)

/-- An engine with one dialogue, which has no idle timeout. -/
def oneDialogue : Engine :=
  Machine.run (Engine.step shortCodec) (Engine.new ⟨15000, 0, 10⟩ (fun _ => none) fun _ => none)
    [.begin shortRequest 7 [.send 0] 0]

theorem ids_name_one_dialogue_of_begin :
    (oneDialogue.dialogues.lookup [0x80, 0, 0, 1]).map (fun r => r.dialogue.ourTid) =
      some [0x80, 0, 0, 1] := by
  have hsteps : Steps Fresh [] (Engine.new ⟨15000, 0, 10⟩ (fun _ => none) fun _ => none) []
      oneDialogue := by
    apply run_fresh
    refine ⟨fun _ d hd => ?_, trivial⟩
    rcases hd with ⟨p, hp, -⟩ | ⟨tid, r, hr, -⟩
    · cases hp
    · cases hr
  have hsome : (oneDialogue.dialogues.lookup [0x80, 0, 0, 1]).isSome = true := by decide +kernel
  obtain ⟨r, hr⟩ := Option.isSome_iff_exists.mp hsome
  have hnamed := (ids_name_one_dialogue ⟨15000, 0, 10⟩ (fun _ => none) (fun _ => none)
    hsteps).2.2.2 [0x80, 0, 0, 1] r hr
  rw [hr]
  exact congrArg some hnamed

/-- A dialogue whose handler sends nothing takes an id and is not stored. -/
theorem begin_nothing (c : Codec) (e : Engine) (req : OutgoingBegin) (handler : Handler)
    (now : ℕ) : (e.begin c req handler [] now).2.dialogues = e.dialogues ∧
      (e.begin c req handler [] now).2.tidCounter = e.tidCounter + 1 :=
  ⟨rfl, rfl⟩

theorem run_nothing (c : Codec) (req : OutgoingBegin) (handler : Handler) (now n : ℕ)
    (e : Engine) :
    (Machine.run (Engine.step c) e (List.replicate n (.begin req handler [] now))).dialogues =
      e.dialogues ∧
    (Machine.run (Engine.step c) e (List.replicate n (.begin req handler [] now))).tidCounter =
      e.tidCounter + UInt32.ofNat n := by
  induction n generalizing e with
  | zero => simp
  | succ n ih =>
    obtain ⟨hdialogues, hcounter⟩ := begin_nothing c e req handler now
    obtain ⟨ihd, ihc⟩ := ih (e.step c (.begin req handler [] now))
    rw [List.replicate_succ, Machine.run_cons]
    constructor
    · exact ihd.trans hdialogues
    · rw [ihc]
      have hstep : (e.step c (.begin req handler [] now)).tidCounter = e.tidCounter + 1 := hcounter
      rw [hstep, UInt32.ofNat_add, UInt32.add_assoc, UInt32.add_comm 1]
      rfl

/-- One dialogue stays open while 2^31 - 1 more ids are used up, and the next is its own. -/
theorem id_of_open_dialogue_again :
    ¬ ∀ (c : Codec) (config : Config) (handlers fallbackHandlers : ℕ × ℤ → Option Handler)
      (ops : List Engine.Op) (d : Dialogue),
      Live [] (Machine.run (Engine.step c) (Engine.new config handlers fallbackHandlers) ops) d →
      (Machine.run (Engine.step c) (Engine.new config handlers fallbackHandlers) ops).allocTid.1 ≠
        d.ourTid := by
  intro hall
  have hsome : (oneDialogue.dialogues.lookup [0x80, 0, 0, 1]).isSome = true := by decide +kernel
  obtain ⟨r, hr⟩ := Option.isSome_iff_exists.mp hsome
  have hname : (oneDialogue.dialogues.lookup [0x80, 0, 0, 1]).map (fun r => r.dialogue.ourTid) =
      some [0x80, 0, 0, 1] := by decide +kernel
  rw [hr] at hname
  have htid : r.dialogue.ourTid = [0x80, 0, 0, 1] := Option.some.inj hname
  have hne := hall shortCodec ⟨15000, 0, 10⟩ (fun _ => none) (fun _ => none)
    (.begin shortRequest 7 [.send 0] 0 ::
      List.replicate (2 ^ 31 - 1) (.begin shortRequest 7 [] 0)) r.dialogue
  rw [Machine.run_cons, htid] at hne
  obtain ⟨hdialogues, hcounter⟩ :=
    run_nothing shortCodec shortRequest 7 0 (2 ^ 31 - 1) oneDialogue
  change Live [] (Machine.run (Engine.step shortCodec) oneDialogue _) _ →
    (Machine.run (Engine.step shortCodec) oneDialogue _).allocTid.1 ≠ _ at hne
  generalize Machine.run (Engine.step shortCodec) oneDialogue _ = last at hne hdialogues hcounter
  apply hne
  · rw [← hdialogues] at hr
    exact .inr ⟨_, r, hr, rfl⟩
  · have hfirst : oneDialogue.tidCounter = 1 := by decide +kernel
    have hround : tidOf (1 + UInt32.ofNat (2 ^ 31 - 1) + 1) = [0x80, 0, 0, 1] := by
      decide +kernel
    rw [Engine.allocTid, hcounter, hfirst]
    exact hround

end SiphonSigtran.Tcap
