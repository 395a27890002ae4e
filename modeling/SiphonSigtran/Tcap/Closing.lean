import Mathlib.Data.List.Induction
import SiphonSigtran.Lib.Machine
import SiphonSigtran.Tcap.EngineSteps

/-!
# The end of a dialogue

A handler that was given a dialogue hears of its end once, whatever ends it. What happens
with a dialogue is a run of its life, which ends with that.
-/

namespace SiphonSigtran.Tcap

open Lib Relation

/-! ## Runs that allocate few ids -/

theorem Move.mono {G G' : List Held → Engine → Prop} {R R' : List Held} {e e' : Engine}
    (h : Move G R e R' e') (hg : G R e → e.allocated < e'.allocated → G' R e) :
    Move G' R e R' e' := by
  cases h with
  | alloc d h hs ht => exact .alloc d (hg h (Nat.lt_succ_self _)) hs ht
  | discard d => exact .discard d
  | give h d d' event events hk hevent hevents => exact .give h d d' event events hk hevent hevents
  | turn h d d' events hs ht hevents => exact .turn h d d' events hs ht hevents
  | take tid r hr => exact .take tid r hr
  | store h d assoc activity hc => exact .store h d assoc activity hc
  | close h d reason => exact .close h d reason
  | claim dialogues hsize hl => exact .claim dialogues hsize hl
  | swap hR => exact .swap hR

theorem take_allocated (e : Engine) (tid : Tid) : (e.take tid).2.allocated = e.allocated := by
  unfold Engine.take
  split <;> rfl

theorem Move.allocated {G : List Held → Engine → Prop} {R R' : List Held} {e e' : Engine}
    (h : Move G R e R' e') : e.allocated ≤ e'.allocated := by
  cases h with
  | alloc => exact Nat.le_succ _
  | take tid => exact (take_allocated e tid).ge
  | _ => exact le_rfl

/-- Where the last state has so many ids allocated, every id was allocated below that. -/
theorem Steps.below {R R' : List Held} {e e' : Engine}
    (h : Steps (fun _ _ => True) R e R' e') {n : ℕ} (hn : e'.allocated ≤ n) :
    Steps (fun _ e => e.allocated < n) R e R' e' := by
  have hpairs : ∀ {p q : List Held × Engine},
      ReflTransGen (fun p q : List Held × Engine => Move (fun _ _ => True) p.1 p.2 q.1 q.2) p q →
        q.2.allocated ≤ n → ReflTransGen (fun p q : List Held × Engine =>
          Move (fun _ e => e.allocated < n) p.1 p.2 q.1 q.2) p q := by
    intro p q hpq
    induction hpq with
    | refl => exact fun _ => ReflTransGen.refl
    | tail _ hlast ih =>
      intro hle
      exact (ih (hlast.allocated.trans hle)).tail (hlast.mono fun _ hlt => lt_of_lt_of_le hlt hle)
  exact hpairs h hn

/-- The invariant of a run in which fewer than 2^31 ids are allocated. -/
theorem Steps.sound {R R' : List Held} {e e' : Engine}
    (h : Steps (fun _ _ => True) R e R' e') (hn : e'.allocated < 2 ^ 31) (hi : Sound R e) :
    Sound R' e' := by
  have hlast : e'.allocated ≤ 2 ^ 31 - 1 := by omega
  refine (h.below hlast).invariant (fun hm hs => ?_) hi
  refine hs.move (hm.mono fun hlow _ d hd hmod => ?_)
  have hle := (hs.named d hd).2
  rw [Nat.ModEq] at hmod
  omega

/-- The states that operations lead to. -/
theorem run_steps (c : Codec) (config : Config) (handlers fallbackHandlers : ℕ × ℤ → Option Handler)
    (ops : List Engine.Op) :
    Steps (fun _ _ => True) [] (Engine.new config handlers fallbackHandlers)
      [] (Machine.run (Engine.step c) (Engine.new config handlers fallbackHandlers) ops) := by
  apply Machine.run_invariant (Q := fun _ _ => True)
    (fun e op h _ => h.trans (step_steps trivial op)) (Steps.refl _ _)
  exact Machine.along_trivial _ ops

/-! ## What a life says of a history -/

/-- What led to where a dialogue is. -/
def Life.Fits (hist : List Entry) : Life → Prop
  | .unborn => hist = []
  | .running h | .stored h => hist ≠ [] ∧ ∀ x ∈ hist, x.handler = h ∧ x.event.isClosing = false
  | .gone => ∃ (h : Handler) (before : List Entry) (last : Entry), hist = before ++ [last] ∧
      before ≠ [] ∧ last.handler = h ∧ last.event.isClosing = true ∧
      ∀ x ∈ before, x.handler = h ∧ x.event.isClosing = false

theorem Life.fits_next {hist : List Entry} {life life' : Life} (h : life.Fits hist) {x : Entry}
    (hx : life.next x = some life') : life'.Fits (hist ++ [x]) := by
  obtain ⟨s, h', event⟩ := x
  cases life with
  | unborn =>
    obtain rfl : hist = [] := h
    cases event with
    | begins | starts =>
      obtain rfl := Option.some.inj hx
      simp [Fits, Event.isClosing]
    | _ => cases hx
  | running o =>
    obtain ⟨hne, hall⟩ := h
    by_cases ho : h' = o
    · subst ho
      have hkept : ∀ y ∈ hist ++ [⟨s, h', event⟩],
          event.isClosing = false → y.handler = h' ∧ y.event.isClosing = false := by
        intro y hy hopen
        rcases List.mem_append.mp hy with hy | hy
        · exact hall y hy
        · obtain rfl := List.mem_singleton.mp hy
          exact ⟨rfl, hopen⟩
      cases event with
      | continues | timesOut | handed | flushed | stored =>
        simp only [next, ↓reduceIte, Option.some.injEq] at hx
        subst hx
        exact ⟨by simp, fun y hy => hkept y hy rfl⟩
      | closes =>
        simp only [next, ↓reduceIte, Option.some.injEq] at hx
        subst hx
        exact ⟨h', hist, _, rfl, hne, rfl, rfl, hall⟩
      | _ => simp [next] at hx
    · simp [next, ho] at hx
  | stored o =>
    obtain ⟨hne, hall⟩ := h
    cases event with
    | taken tid =>
      by_cases ho : h' = o
      · subst ho
        simp only [next, ↓reduceIte, Option.some.injEq] at hx
        subst hx
        refine ⟨by simp, fun y hy => ?_⟩
        rcases List.mem_append.mp hy with hy | hy
        · exact hall y hy
        · obtain rfl := List.mem_singleton.mp hy
          exact ⟨rfl, rfl⟩
      · simp [next, ho] at hx
    | _ => simp [next] at hx
  | gone => simp [next] at hx

theorem Life.fits {hist : List Entry} {life : Life} (h : Life.unborn.follow hist = some life) :
    life.Fits hist := by
  induction hist using List.reverseRecOn generalizing life with
  | nil =>
    obtain rfl := Option.some.inj h
    rfl
  | append_singleton hist x ih =>
    rw [Life.follow_append, Option.bind_eq_some_iff] at h
    obtain ⟨before, hbefore, hlast⟩ := h
    rw [Life.follow_single] at hlast
    exact Life.fits_next (ih hbefore) hlast

/-- A handler is given a dialogue. -/
def Event.isGiving : Event → Bool
  | .begins _ | .starts => true
  | _ => false

/-- The ends of a dialogue that its handler hears of. -/
def closings (log : List Entry) (serial : ℕ) : List Entry :=
  (history log serial).filter fun x => x.event.isClosing

theorem mem_history {log : List Entry} {x : Entry} {serial : ℕ} :
    x ∈ history log serial ↔ x ∈ log ∧ x.serial = serial := by
  simp [history]

theorem closings_eq_nil {log : List Entry} {serial : ℕ}
    (h : ∀ x ∈ history log serial, x.event.isClosing = false) : closings log serial = [] := by
  rw [closings, List.filter_eq_nil_iff]
  intro x hx
  simp [h x hx]

/-- Where a dialogue that was given to a handler is when no turn is running. -/
theorem Sound.given {e : Engine} (h : Sound [] e) {x : Entry} (hx : x ∈ e.log) :
    (closings e.log x.serial = [] ∧ ∃ tid r, e.dialogues.lookup tid = some r ∧
      r.dialogue.serial = x.serial ∧ r.handler = x.handler ∧ r.dialogue.closed = none) ∨
    (∀ tid r, e.dialogues.lookup tid = some r → r.dialogue.serial ≠ x.serial) ∧
      ∃ closed, closings e.log x.serial = [⟨x.serial, x.handler, .closes closed⟩] := by
  have hmem : x ∈ history e.log x.serial := mem_history.mpr ⟨hx, rfl⟩
  rcases h.lives x.serial with hun | hgone | ⟨o, -, p, hp, -⟩ | ⟨o, hsto, tid, r, hr, hs⟩
  · have hfits : history e.log x.serial = [] := Life.fits hun
    rw [hfits] at hmem
    cases hmem
  · right
    refine ⟨fun tid r hr heq => ?_, ?_⟩
    · have hstored := (h.stored tid r hr).2.2
      rw [heq, hgone] at hstored
      cases hstored
    · obtain ⟨o, before, last, hhist, -, hlast, hclosing, hall⟩ := Life.fits hgone
      have hserial : last.serial = x.serial :=
        (mem_history.mp (hhist ▸ List.mem_append_right before (List.mem_singleton_self last))).2
      have hown : x.handler = o := by
        rw [hhist] at hmem
        rcases List.mem_append.mp hmem with hb | hl
        · exact (hall x hb).1
        · obtain rfl := List.mem_singleton.mp hl
          exact hlast
      have hnone : before.filter (fun x => x.event.isClosing) = [] := by
        rw [List.filter_eq_nil_iff]
        intro y hy
        simp [(hall y hy).2]
      obtain ⟨s, o', event⟩ := last
      cases event with
      | closes closed =>
        refine ⟨closed, ?_⟩
        rw [closings, hhist, List.filter_append, hnone, hown]
        dsimp only at hserial hlast
        simp [Event.isClosing, hserial, hlast]
      | _ => cases hclosing
  · cases hp
  · left
    obtain ⟨-, hall⟩ := Life.fits hsto
    refine ⟨closings_eq_nil fun y hy => (hall y hy).2, tid, r, hr, hs, ?_⟩
    obtain ⟨-, hclosed, hlife⟩ := h.stored tid r hr
    rw [hs, hsto] at hlife
    have howner : o = r.handler := Life.stored.inj (Option.some.inj hlife)
    exact ⟨howner.symm.trans (hall x hmem).1.symm, hclosed⟩

/-- Nothing happens with a dialogue after its end. -/
theorem Sound.over {R : List Held} {e : Engine} (h : Sound R e) {before after : List Entry}
    {x : Entry} (hlog : e.log = before ++ x :: after) (hx : x.event.isClosing = true) :
    ∀ y ∈ after, y.serial ≠ x.serial := by
  have hhist : history e.log x.serial = history before x.serial ++ x :: history after x.serial := by
    rw [hlog, history_append]
    simp [history]
  have hmem : x ∈ history e.log x.serial := by
    rw [hhist]
    exact List.mem_append_right _ List.mem_cons_self
  have hopen : ∀ {o}, (history e.log x.serial ≠ [] ∧
      ∀ y ∈ history e.log x.serial, y.handler = o ∧ y.event.isClosing = false) → False := by
    rintro o ⟨-, hall⟩
    exact Bool.false_ne_true ((hall x hmem).2.symm.trans hx)
  rcases h.lives x.serial with hun | hgone | ⟨o, hrun, -⟩ | ⟨o, hsto, -⟩
  · have hfits : history e.log x.serial = [] := Life.fits hun
    rw [hfits] at hmem
    cases hmem
  · obtain ⟨o, init, last, hinit, -, -, -, hall⟩ := Life.fits hgone
    rw [hhist] at hinit
    intro y hy heq
    have hlater : y ∈ history after x.serial := mem_history.mpr ⟨hy, heq⟩
    obtain ⟨ys, z, hys⟩ : ∃ ys z, history after x.serial = ys ++ [z] :=
      (List.eq_nil_or_concat' _).resolve_left (List.ne_nil_of_mem hlater)
    rw [hys, ← List.cons_append, ← List.append_assoc] at hinit
    have hsame := (List.append_inj' hinit rfl).1
    have hclosing := (hall x (hsame ▸ List.mem_append_right _ List.mem_cons_self)).2
    exact Bool.false_ne_true (hclosing.symm.trans hx)
  · exact absurd (Life.fits hrun) hopen
  · exact absurd (Life.fits hsto) hopen

/-- The octets of messages without components or a dialogue portion, in unitdata between two
subsystems. Other messages are not encoded. -/
def shortCodec : Codec where
  decodeSccp
    | 0x09 :: 0x00 :: 0x03 :: 0x05 :: 0x07 :: 0x02 :: 0x42 :: called :: 0x02 :: 0x42 :: calling ::
        _ :: data =>
      some (.udt ⟨⟨true, some called.toNat, none⟩, ⟨true, some calling.toNat, none⟩, data⟩)
    | _ => none
  encodeUdt
    | ⟨true, some called, none⟩, ⟨true, some calling, none⟩, data =>
      .ok ([0x09, 0x00, 0x03, 0x05, 0x07, 0x02, 0x42, .ofNat called, 0x02, 0x42, .ofNat calling,
        .ofNat data.length] ++ data)
    | _, _, _ => .error "not between two subsystems"
  encodeXudt := fun _ _ _ => .error "not a unitdata"
  encodeXudts := fun _ _ _ => none
  decode
    | 0x62 :: 0x06 :: 0x48 :: 0x04 :: otid => some (.begins ⟨otid, none, none⟩)
    | 0x64 :: 0x06 :: 0x49 :: 0x04 :: dtid => some (.ends ⟨dtid, none, none⟩)
    | _ => none
  decodeDetailed
    | 0x62 :: 0x06 :: 0x48 :: 0x04 :: otid => .complete (.begins ⟨otid, none, none⟩)
    | 0x64 :: 0x06 :: 0x49 :: 0x04 :: dtid => .complete (.ends ⟨dtid, none, none⟩)
    | _ => .problem ⟨.transactionPortion (.other 2), none, none, none, none⟩
  encode
    | .begins ⟨otid, none, none⟩ => .ok ([0x62, 0x06, 0x48, 0x04] ++ otid)
    | .ends ⟨dtid, none, none⟩ => .ok ([0x64, 0x06, 0x49, 0x04] ++ dtid)
    | .aborts ⟨dtid, none⟩ => .ok ([0x67, 0x06, 0x49, 0x04] ++ dtid)
    | .aborts ⟨dtid, some (.pAbort .resourceLimitation)⟩ =>
      .ok ([0x67, 0x09, 0x49, 0x04] ++ dtid ++ [0x4A, 0x01, 0x04])
    | _ => .error "not a short message"
  dialoguePdu := fun _ => none
  aarq := fun _ => none
  aareAccept := fun _ => none
  abrt := fun _ => []
  noCommonDialoguePortion := fun _ => []
  abnormalDialogue := []

/-- A request to begin a dialogue with another node. -/
def shortRequest : OutgoingBegin where
  applicationContext := []
  called := ⟨true, some 6, none⟩
  calling := ⟨true, some 8, none⟩
  opc := 1
  dpc := 2
  ni := 2
  sls := 0
  ingressAssoc := "m2pa"

end SiphonSigtran.Tcap
