import Mathlib.Data.List.Nodup
import Mathlib.Logic.Function.Basic
import SiphonSigtran.Lib.Machine

/-!
# One association at a time

A slot is for one association, and any number may be accepted for it. The first takes it. Another
waits for it to be vacated, and is refused when that takes too long. However a task that has the
slot ends, its hold is dropped: the slot is cleared of its association, freed, and one of those that
wait is woken.
-/

namespace SiphonSigtran.Transport

namespace Occupancy

/-- Where the task of an association is. -/
inductive Stage
  | absent
  | trying
  | asking
  | waiting
  | refused
  | holding
  | quiet
  | serving
  | leaving
  | over
  | cleared
  | freed
  | gone
  deriving DecidableEq, Repr

/-- A slot, and the tasks of the associations that were accepted or dialled for it. `active` is the
association whose layer made the slot an egress, `permit` and `waiters` are those of the
notification that it is free. -/
structure Slot where
  occupied : Bool
  sender : Option ℕ
  active : Option ℕ
  permit : Bool
  waiters : List ℕ
  shutdown : Bool
  stage : ℕ → Stage

/-- What the task of an association, or its layer, does next. -/
inductive Event
  | accept (a : ℕ)
  | dialled (a : ℕ)
  | occupy (a : ℕ)
  | vacated (a : ℕ)
  | expire (a : ℕ)
  | quiesce (a : ℕ)
  | setSender (a : ℕ)
  | setActive (a : ℕ) (on : Bool)
  | clearSender (a : ℕ)
  | stop (a : ℕ)
  | clear (a : ℕ)
  | free (a : ℕ)
  | notify (a : ℕ)
  | shutdown
  deriving DecidableEq, Repr

namespace Slot

def new : Slot := ⟨false, none, none, false, [], false, fun _ => .absent⟩

def move (s : Slot) (a : ℕ) (stage : Stage) : Slot :=
  { s with stage := Function.update s.stage a stage }

/-- A dropped hold frees the slot in three steps: it clears it if the association is still in it,
marks it free, and wakes the first that waits, or leaves a permit for the next that asks. -/
def step (s : Slot) : Event → Slot
  | .accept a => if s.stage a = .absent then s.move a .trying else s
  | .dialled a =>
    if s.stage a = .absent then
      if s.occupied then s.move a .refused else { s with occupied := true }.move a .holding
    else s
  | .occupy a =>
    if s.stage a = .trying then
      if s.shutdown then s.move a .gone
      else if s.occupied then s.move a .asking
      else { s with occupied := true }.move a .holding
    else s
  | .vacated a =>
    if s.stage a = .asking then
      if s.permit then { s with permit := false }.move a .trying
      else { s with waiters := s.waiters ++ [a] }.move a .waiting
    else s
  | .expire a =>
    if s.stage a = .waiting then { s with waiters := s.waiters.erase a }.move a .refused else s
  | .quiesce a => if s.stage a = .holding then { s with active := none }.move a .quiet else s
  | .setSender a => if s.stage a = .quiet then { s with sender := some a }.move a .serving else s
  | .setActive a on =>
    if s.stage a = .serving then { s with active := if on then some a else none } else s
  | .clearSender a => if s.stage a = .serving then { s with sender := none }.move a .leaving else s
  | .stop a =>
    match s.stage a with
    | .holding | .quiet | .serving => s.move a .over
    | .leaving => { s with active := none }.move a .over
    | _ => s
  | .clear a =>
    if s.stage a = .over then
      if s.sender = some a then { s with sender := none, active := none }.move a .cleared
      else s.move a .cleared
    else s
  | .free a => if s.stage a = .cleared then { s with occupied := false }.move a .freed else s
  | .notify a =>
    if s.stage a = .freed then
      match s.waiters with
      | [] => { s with permit := true }.move a .gone
      | b :: waiters => ({ s with waiters := waiters }.move a .gone).move b .trying
    else s
  | .shutdown => { s with shutdown := true }

end Slot

/-- The task has the slot. -/
def Stage.holds : Stage → Bool
  | .holding | .quiet | .serving | .leaving | .over | .cleared => true
  | _ => false

/-- What is so of a slot that `owner` has. -/
structure Owned (s : Slot) (owner : Option ℕ) : Prop where
  occupied : s.occupied = owner.isSome
  holds : ∀ a, (s.stage a).holds = true ↔ owner = some a
  sender : ∀ a, s.sender = some a → s.stage a = .serving ∨ s.stage a = .over
  served : ∀ a, s.stage a = .serving → s.sender = some a
  active : ∀ a, s.sender = some a → s.active = none ∨ s.active = some a
  quiet : ∀ a, s.stage a = .quiet → s.active = none

/-- Nobody waits for a slot that is free without somebody who will see to it. -/
structure Roused (s : Slot) : Prop where
  waiting : ∀ a, a ∈ s.waiters ↔ s.stage a = .waiting
  nodup : s.waiters.Nodup
  permit : s.permit = true → s.waiters = []
  awake : s.occupied = false → s.shutdown = false →
    (∃ a, s.stage a = .asking ∨ s.stage a = .waiting) →
      s.permit = true ∨ ∃ b, s.stage b = .trying ∨ s.stage b = .freed

namespace Owned

variable {s s' : Slot} {owner : Option ℕ} {a : ℕ} {stage : Stage}

theorem sender_eq (h : Owned s owner) (ha : s.sender = some a) : owner = some a := by
  rw [← h.holds]
  rcases h.sender a ha with hstage | hstage <;> rw [hstage] <;> rfl

/-- What is in the slot of a task that has it is its own. -/
theorem own_sender (h : Owned s (some a)) : s.sender = none ∨ s.sender = some a := by
  cases hs : s.sender with
  | none => exact .inl rfl
  | some b =>
    obtain rfl := Option.some.inj (h.sender_eq hs)
    exact .inr rfl

theorem free (h : Owned s none) : s.sender = none := by
  cases hs : s.sender with
  | none => rfl
  | some a => cases h.sender_eq hs

/-- Tasks that do not have the slot go on. -/
theorem others (h : Owned s owner) (hoccupied : s'.occupied = s.occupied)
    (hsender : s'.sender = s.sender) (hactive : s'.active = s.active)
    (hstage : ∀ b, s'.stage b = s.stage b ∨
      (s.stage b).holds = false ∧ (s'.stage b).holds = false) : Owned s' owner where
  occupied := hoccupied.trans h.occupied
  holds b := by
    rw [← h.holds]
    rcases hstage b with hsame | ⟨hbefore, hafter⟩
    · rw [hsame]
    · rw [hbefore, hafter]
  sender b hb := by
    rw [hsender] at hb
    have hserved := h.sender b hb
    rcases hstage b with hsame | ⟨hbefore, -⟩
    · rw [hsame]
      exact hserved
    · rw [(h.holds b).mpr (h.sender_eq hb)] at hbefore
      cases hbefore
  served b hb := by
    rw [hsender]
    rcases hstage b with hsame | ⟨-, hafter⟩
    · exact h.served b (hsame ▸ hb)
    · rw [hb] at hafter
      cases hafter
  active b hb := by
    rw [hsender] at hb
    rw [hactive]
    exact h.active b hb
  quiet b hb := by
    rw [hactive]
    rcases hstage b with hsame | ⟨-, hafter⟩
    · exact h.quiet b (hsame ▸ hb)
    · rw [hb] at hafter
      cases hafter

/-- The task that has the slot goes on. -/
theorem own (h : Owned s (some a)) (hmove : s'.stage = Function.update s.stage a stage)
    (hstage : stage.holds = true)
    (hsender : s'.sender = none ∧ stage ≠ .serving ∨
      s'.sender = some a ∧ (stage = .serving ∨ stage = .over) ∧
        (s'.active = none ∨ s'.active = some a))
    (hquiet : stage = .quiet → s'.active = none) (hoccupied : s'.occupied = s.occupied) :
    Owned s' (some a) where
  occupied := hoccupied.trans h.occupied
  holds b := by
    rw [hmove, ← h.holds]
    by_cases hb : b = a
    · subst hb
      rw [Function.update_self, hstage, (h.holds b).mpr rfl]
    · rw [Function.update_of_ne hb]
  sender b hb := by
    rcases hsender with ⟨hnone, -⟩ | ⟨hsome, hserved, -⟩
    · rw [hnone] at hb
      cases hb
    · obtain rfl := Option.some.inj (hsome.symm.trans hb)
      rw [hmove, Function.update_self]
      exact hserved
  served b hb := by
    by_cases hba : b = a
    · rw [hmove, hba, Function.update_self] at hb
      rw [hba]
      exact (hsender.resolve_left fun hnone => hnone.2 hb).1
    · rw [hmove, Function.update_of_ne hba] at hb
      have howner := (h.holds b).mp (by rw [hb]; rfl)
      exact absurd (Option.some.inj howner).symm hba
  active b hb := by
    rcases hsender with ⟨hnone, -⟩ | ⟨hsome, -, hactive⟩
    · rw [hnone] at hb
      cases hb
    · rw [← hb, hsome]
      exact hactive
  quiet b hb := by
    by_cases hba : b = a
    · rw [hmove, hba, Function.update_self] at hb
      exact hquiet hb
    · rw [hmove, Function.update_of_ne hba] at hb
      have howner := (h.holds b).mp (by rw [hb]; rfl)
      exact absurd (Option.some.inj howner).symm hba

theorem take (h : Owned s none) (a : ℕ) :
    Owned ({ s with occupied := true }.move a .holding) (some a) where
  occupied := rfl
  holds b := by
    by_cases hb : b = a
    · simp [Slot.move, hb, Stage.holds]
    · have hfree : ¬(s.stage b).holds = true := fun hholds => absurd ((h.holds b).mp hholds) nofun
      simp [Slot.move, hb, Ne.symm hb, hfree]
  sender b hb := absurd (h.free.symm.trans hb) nofun
  served b hb := by
    by_cases hba : b = a
    · simp [Slot.move, hba] at hb
    · have hserving : s.stage b = .serving := by simpa [Slot.move, hba] using hb
      exact absurd ((h.holds b).mp (by rw [hserving]; rfl)) nofun
  active b hb := absurd (h.free.symm.trans hb) nofun
  quiet b hb := by
    by_cases hba : b = a
    · simp [Slot.move, hba] at hb
    · exact h.quiet b (by simpa [Slot.move, hba] using hb)

theorem release (h : Owned s (some a)) (ha : s.stage a = .cleared) :
    Owned ({ s with occupied := false }.move a .freed) none := by
  have hfree : s.sender = none := by
    cases hs : s.sender with
    | none => rfl
    | some b =>
      obtain rfl := Option.some.inj (h.sender_eq hs)
      have hserved := h.sender a hs
      rw [ha] at hserved
      simp at hserved
  refine ⟨rfl, fun b => ?_, fun b hb => absurd (hfree.symm.trans hb) nofun, fun b hb => ?_,
    fun b hb => absurd (hfree.symm.trans hb) nofun, fun b hb => ?_⟩
  · by_cases hb : b = a
    · simp [Slot.move, hb, Stage.holds]
    · have hnot : ¬(s.stage b).holds = true := fun hholds =>
        hb (Option.some.inj ((h.holds b).mp hholds)).symm
      simp [Slot.move, hb, hnot]
  · by_cases hba : b = a
    · simp [Slot.move, hba] at hb
    · exact h.served b (by simpa [Slot.move, hba] using hb)
  · by_cases hba : b = a
    · simp [Slot.move, hba] at hb
    · exact h.quiet b (by simpa [Slot.move, hba] using hb)

end Owned

namespace Roused

variable {s s' : Slot} {a : ℕ} {stage : Stage}

/-- The task that has the slot goes on. -/
theorem own (h : Roused s) (hmove : s'.stage = Function.update s.stage a stage)
    (hbefore : (s.stage a).holds = true) (hafter : stage.holds = true) (hoccupied : s'.occupied = s.occupied)
    (hwaiters : s'.waiters = s.waiters) (hpermit : s'.permit = s.permit)
    (hshutdown : s'.shutdown = s.shutdown) : Roused s' := by
  have hsame (b : ℕ) {p : Stage} (hp : p.holds = false) : s'.stage b = p ↔ s.stage b = p := by
    rw [hmove]
    by_cases hb : b = a
    · subst hb
      rw [Function.update_self]
      constructor <;> rintro rfl
      · rw [hp] at hafter
        cases hafter
      · rw [hp] at hbefore
        cases hbefore
    · rw [Function.update_of_ne hb]
  have hasking (b : ℕ) := hsame b (p := .asking) rfl
  have hwaiting (b : ℕ) := hsame b (p := .waiting) rfl
  have htrying (b : ℕ) := hsame b (p := .trying) rfl
  have hfreed (b : ℕ) := hsame b (p := .freed) rfl
  refine ⟨fun b => ?_, hwaiters ▸ h.nodup, ?_, ?_⟩
  · rw [hwaiters, hwaiting]
    exact h.waiting b
  · rw [hpermit, hwaiters]
    exact h.permit
  · simp only [hoccupied, hshutdown, hpermit, hasking, hwaiting, htrying, hfreed]
    exact h.awake

/-- A task that waits for nothing goes on, and the slot is taken or somebody will see to it. -/
theorem goes (h : Roused s) (hmove : s'.stage = Function.update s.stage a stage)
    (hbefore : s.stage a ≠ .waiting) (hafter : stage ≠ .waiting) (hwaiters : s'.waiters = s.waiters)
    (hpermit : s'.permit = s.permit)
    (hawake : s'.occupied = false → s'.shutdown = false →
      (∃ b, s'.stage b = .asking ∨ s'.stage b = .waiting) →
        s'.permit = true ∨ ∃ b, s'.stage b = .trying ∨ s'.stage b = .freed) : Roused s' := by
  refine ⟨fun b => ?_, hwaiters ▸ h.nodup, ?_, hawake⟩
  · rw [hwaiters, h.waiting, hmove]
    by_cases hb : b = a
    · subst hb
      simp [hbefore, hafter]
    · rw [Function.update_of_ne hb]
  · rw [hpermit, hwaiters]
    exact h.permit

end Roused

/-! ## Every step -/

structure Sound (s : Slot) : Prop where
  owned : ∃ owner, Owned s owner
  roused : Roused s

namespace Sound

variable {s : Slot}

/-- A task that does not have the slot goes on without it. -/
theorem move_others {a : ℕ} {stage : Stage}
    (hbefore : (s.stage a).holds = false) (hafter : stage.holds = false) (b : ℕ) :
    Function.update s.stage a stage b = s.stage b ∨
      (s.stage b).holds = false ∧ (Function.update s.stage a stage b).holds = false := by
  by_cases hb : b = a
  · subst hb
    exact .inr ⟨hbefore, by rw [Function.update_self]; exact hafter⟩
  · exact .inl (Function.update_of_ne hb _ _)

theorem accept (h : Sound s) (a : ℕ) : Sound (s.step (.accept a)) := by
  simp only [Slot.step]
  split_ifs with ha
  · obtain ⟨owner, howned⟩ := h.owned
    exact ⟨⟨owner, howned.others rfl rfl rfl (move_others (by rw [ha]; rfl) rfl)⟩,
      h.roused.goes rfl (by simp [ha]) nofun rfl rfl fun _ _ _ =>
        .inr ⟨a, .inl (Function.update_self ..)⟩⟩
  · exact h

theorem dialled (h : Sound s) (a : ℕ) : Sound (s.step (.dialled a)) := by
  simp only [Slot.step]
  obtain ⟨owner, howned⟩ := h.owned
  split_ifs with ha hoccupied
  · refine ⟨⟨owner, howned.others rfl rfl rfl (move_others (by rw [ha]; rfl) rfl)⟩,
      h.roused.goes rfl (by simp [ha]) nofun rfl rfl fun hfree => ?_⟩
    exact absurd (hoccupied.symm.trans hfree) nofun
  · obtain rfl : owner = none := by simpa [hoccupied] using howned.occupied
    exact ⟨⟨some a, howned.take a⟩, h.roused.goes rfl (by simp [ha]) nofun rfl rfl nofun⟩
  · exact h

theorem occupy (h : Sound s) (a : ℕ) : Sound (s.step (.occupy a)) := by
  simp only [Slot.step]
  obtain ⟨owner, howned⟩ := h.owned
  split_ifs with ha hshutdown hoccupied
  · refine ⟨⟨owner, howned.others rfl rfl rfl (move_others (by rw [ha]; rfl) rfl)⟩,
      h.roused.goes rfl (by simp [ha]) nofun rfl rfl fun _ hon => ?_⟩
    exact absurd (hshutdown.symm.trans hon) nofun
  · refine ⟨⟨owner, howned.others rfl rfl rfl (move_others (by rw [ha]; rfl) rfl)⟩,
      h.roused.goes rfl (by simp [ha]) nofun rfl rfl fun hfree => ?_⟩
    exact absurd (hoccupied.symm.trans hfree) nofun
  · obtain rfl : owner = none := by simpa [hoccupied] using howned.occupied
    exact ⟨⟨some a, howned.take a⟩, h.roused.goes rfl (by simp [ha]) nofun rfl rfl nofun⟩
  · exact h

/-- A task that asks takes the permit, or waits: then somebody else sees to a slot that is free. -/
theorem vacated (h : Sound s) (a : ℕ) : Sound (s.step (.vacated a)) := by
  simp only [Slot.step]
  obtain ⟨owner, howned⟩ := h.owned
  split_ifs with ha hpermit
  · have hnobody := h.roused.permit hpermit
    refine ⟨⟨owner, howned.others rfl rfl rfl (move_others (by rw [ha]; rfl) rfl)⟩,
      fun b => ?_, h.roused.nodup, nofun, fun _ _ _ => .inr ⟨a, .inl (Function.update_self ..)⟩⟩
    change b ∈ s.waiters ↔ Function.update s.stage a .trying b = .waiting
    rw [h.roused.waiting]
    by_cases hb : b = a
    · subst hb
      simp [ha]
    · rw [Function.update_of_ne hb]
  · have hnot : a ∉ s.waiters := fun hmem => by simp [(h.roused.waiting a).mp hmem] at ha
    refine ⟨⟨owner, howned.others rfl rfl rfl (move_others (by rw [ha]; rfl) rfl)⟩,
      fun b => ?_, ?_, fun hon => absurd hon hpermit, fun hfree hon _ => ?_⟩
    · change b ∈ s.waiters ++ [a] ↔ Function.update s.stage a .waiting b = .waiting
      rw [List.mem_append, List.mem_singleton, h.roused.waiting]
      by_cases hb : b = a
      · subst hb
        simp
      · rw [Function.update_of_ne hb]
        simp [hb]
    · exact List.nodup_append.mpr ⟨h.roused.nodup, List.nodup_singleton a, fun b hb c hc => by
        rw [List.mem_singleton.mp hc]
        exact fun heq => hnot (heq ▸ hb)⟩
    · rcases h.roused.awake hfree hon ⟨a, .inl ha⟩ with hon' | ⟨b, hb⟩
      · exact absurd hon' hpermit
      · have hba : b ≠ a := by
          rintro rfl
          simp [ha] at hb
        exact .inr ⟨b, by simpa [Slot.move, hba] using hb⟩
  · exact h

theorem expire (h : Sound s) (a : ℕ) : Sound (s.step (.expire a)) := by
  simp only [Slot.step]
  obtain ⟨owner, howned⟩ := h.owned
  split_ifs with ha
  · refine ⟨⟨owner, howned.others rfl rfl rfl (move_others (by rw [ha]; rfl) rfl)⟩,
      fun b => ?_, h.roused.nodup.erase a, fun hon => ?_, fun hfree hon _ => ?_⟩
    · change b ∈ s.waiters.erase a ↔ Function.update s.stage a .refused b = .waiting
      rw [h.roused.nodup.mem_erase_iff, h.roused.waiting]
      by_cases hb : b = a
      · subst hb
        simp
      · rw [Function.update_of_ne hb]
        simp [hb]
    · change s.waiters.erase a = []
      rw [h.roused.permit hon]
      rfl
    · rcases h.roused.awake hfree hon ⟨a, .inr ha⟩ with hpermit | ⟨b, hb⟩
      · exact .inl hpermit
      · have hba : b ≠ a := by
          rintro rfl
          simp [ha] at hb
        exact .inr ⟨b, by simpa [Slot.move, hba] using hb⟩
  · exact h

/-! ### The task that has the slot -/

theorem owner_of (h : Sound s) {a : ℕ} (ha : (s.stage a).holds = true) : Owned s (some a) := by
  obtain ⟨owner, howned⟩ := h.owned
  obtain rfl := (howned.holds a).mp ha
  exact howned

theorem quiesce (h : Sound s) (a : ℕ) : Sound (s.step (.quiesce a)) := by
  simp only [Slot.step]
  split_ifs with ha
  · have howned := h.owner_of (a := a) (by rw [ha]; rfl)
    have hnone : s.sender = none := howned.own_sender.resolve_right fun hsome => by
      simpa [ha] using howned.sender a hsome
    exact ⟨⟨some a, howned.own rfl rfl (.inl ⟨hnone, nofun⟩) (fun _ => rfl) rfl⟩,
      h.roused.own rfl (by rw [ha]; rfl) rfl rfl rfl rfl rfl⟩
  · exact h

theorem setSender (h : Sound s) (a : ℕ) : Sound (s.step (.setSender a)) := by
  simp only [Slot.step]
  split_ifs with ha
  · have howned := h.owner_of (a := a) (by rw [ha]; rfl)
    exact ⟨⟨some a, howned.own rfl rfl (.inr ⟨rfl, .inl rfl, .inl (howned.quiet a ha)⟩) nofun rfl⟩,
      h.roused.own rfl (by rw [ha]; rfl) rfl rfl rfl rfl rfl⟩
  · exact h

theorem setActive (h : Sound s) (a : ℕ) (on : Bool) : Sound (s.step (.setActive a on)) := by
  simp only [Slot.step]
  by_cases ha : s.stage a = .serving
  · rw [if_pos ha]
    have howned := h.owner_of (a := a) (by rw [ha]; rfl)
    have hstay : s.stage = Function.update s.stage a .serving := by
      rw [← ha, Function.update_eq_self]
    refine ⟨⟨some a, howned.own hstay rfl ?_ nofun rfl⟩,
      h.roused.own hstay (by rw [ha]; rfl) rfl rfl rfl rfl rfl⟩
    refine .inr ⟨howned.served a ha, .inl rfl, ?_⟩
    cases on with
    | true => exact .inr rfl
    | false => exact .inl rfl
  · rw [if_neg ha]
    exact h

theorem clearSender (h : Sound s) (a : ℕ) : Sound (s.step (.clearSender a)) := by
  simp only [Slot.step]
  split_ifs with ha
  · have howned := h.owner_of (a := a) (by rw [ha]; rfl)
    exact ⟨⟨some a, howned.own rfl rfl (.inl ⟨rfl, nofun⟩) nofun rfl⟩,
      h.roused.own rfl (by rw [ha]; rfl) rfl rfl rfl rfl rfl⟩
  · exact h

/-- A task ends with its association in the slot, or without. -/
theorem ends (h : Sound s) {a : ℕ} (ha : (s.stage a).holds = true) : Sound (s.move a .over) := by
  have howned := h.owner_of ha
  refine ⟨⟨some a, howned.own rfl rfl ?_ nofun rfl⟩, h.roused.own rfl ha rfl rfl rfl rfl rfl⟩
  exact howned.own_sender.imp (fun hnone => ⟨hnone, nofun⟩)
    fun hsome => ⟨hsome, .inr rfl, howned.active a hsome⟩

theorem stop (h : Sound s) (a : ℕ) : Sound (s.step (.stop a)) := by
  simp only [Slot.step]
  split
  next ha => exact h.ends (by rw [ha]; rfl)
  next ha => exact h.ends (by rw [ha]; rfl)
  next ha => exact h.ends (by rw [ha]; rfl)
  next ha =>
    have howned := h.owner_of (a := a) (by rw [ha]; rfl)
    have hnone : s.sender = none := howned.own_sender.resolve_right fun hsome => by
      simpa [ha] using howned.sender a hsome
    exact ⟨⟨some a, howned.own rfl rfl (.inl ⟨hnone, nofun⟩) nofun rfl⟩,
      h.roused.own rfl (by rw [ha]; rfl) rfl rfl rfl rfl rfl⟩
  next => exact h

theorem clear (h : Sound s) (a : ℕ) : Sound (s.step (.clear a)) := by
  simp only [Slot.step]
  split_ifs with ha hsender
  · have howned := h.owner_of (a := a) (by rw [ha]; rfl)
    exact ⟨⟨some a, howned.own rfl rfl (.inl ⟨rfl, nofun⟩) nofun rfl⟩,
      h.roused.own rfl (by rw [ha]; rfl) rfl rfl rfl rfl rfl⟩
  · have howned := h.owner_of (a := a) (by rw [ha]; rfl)
    have hnone := howned.own_sender.resolve_right hsender
    exact ⟨⟨some a, howned.own rfl rfl (.inl ⟨hnone, nofun⟩) nofun rfl⟩,
      h.roused.own rfl (by rw [ha]; rfl) rfl rfl rfl rfl rfl⟩
  · exact h

theorem free (h : Sound s) (a : ℕ) : Sound (s.step (.free a)) := by
  simp only [Slot.step]
  split_ifs with ha
  · exact ⟨⟨none, (h.owner_of (by rw [ha]; rfl)).release ha⟩,
      h.roused.goes rfl (by simp [ha]) nofun rfl rfl fun _ _ _ =>
        .inr ⟨a, .inr (Function.update_self ..)⟩⟩
  · exact h

theorem notify (h : Sound s) (a : ℕ) : Sound (s.step (.notify a)) := by
  simp only [Slot.step]
  obtain ⟨owner, howned⟩ := h.owned
  split_ifs with ha
  · have hgone : Owned (s.move a .gone) owner :=
      howned.others rfl rfl rfl (move_others (by rw [ha]; rfl) rfl)
    have hwaiting := h.roused.waiting
    have hnodup := h.roused.nodup
    cases hwaiters : s.waiters with
    | nil =>
      rw [hwaiters] at hwaiting
      refine ⟨⟨owner, hgone.others rfl rfl rfl fun _ => .inl rfl⟩, fun c => ?_, List.nodup_nil,
        fun _ => rfl, fun _ _ _ => .inl rfl⟩
      change c ∈ [] ↔ Function.update s.stage a .gone c = .waiting
      rw [hwaiting]
      by_cases hc : c = a
      · subst hc
        simp [ha]
      · rw [Function.update_of_ne hc]
    | cons b rest =>
      rw [hwaiters] at hwaiting hnodup
      have hb : s.stage b = .waiting := (hwaiting b).mp List.mem_cons_self
      have hba : b ≠ a := by
        rintro rfl
        simp [ha] at hb
      have hstill : (s.move a .gone).stage b = .waiting := (Function.update_of_ne hba _ _).trans hb
      refine ⟨⟨owner, hgone.others rfl rfl rfl fun c => ?_⟩, fun c => ?_,
        (List.nodup_cons.mp hnodup).2, fun hon => ?_,
        fun _ _ _ => .inr ⟨b, .inl (Function.update_self ..)⟩⟩
      · exact move_others (s := s.move a .gone) (by rw [hstill]; rfl) rfl c
      · change c ∈ rest ↔
          Function.update (Function.update s.stage a .gone) b .trying c = .waiting
        by_cases hcb : c = b
        · subst hcb
          simp [(List.nodup_cons.mp hnodup).1]
        · have hc := hwaiting c
          rw [List.mem_cons, or_iff_right hcb] at hc
          rw [Function.update_of_ne hcb, hc]
          by_cases hca : c = a
          · subst hca
            simp [ha]
          · rw [Function.update_of_ne hca]
      · have hnobody := h.roused.permit hon
        rw [hwaiters] at hnobody
        cases hnobody
  · exact h

theorem shutdown (h : Sound s) : Sound (s.step .shutdown) := by
  obtain ⟨owner, howned⟩ := h.owned
  exact ⟨⟨owner, howned.others rfl rfl rfl fun _ => .inl rfl⟩, h.roused.waiting, h.roused.nodup,
    h.roused.permit, fun _ hon => absurd hon nofun⟩

theorem step (h : Sound s) (e : Event) : Sound (s.step e) := by
  cases e with
  | accept a => exact h.accept a
  | dialled a => exact h.dialled a
  | occupy a => exact h.occupy a
  | vacated a => exact h.vacated a
  | expire a => exact h.expire a
  | quiesce a => exact h.quiesce a
  | setSender a => exact h.setSender a
  | setActive a on => exact h.setActive a on
  | clearSender a => exact h.clearSender a
  | stop a => exact h.stop a
  | clear a => exact h.clear a
  | free a => exact h.free a
  | notify a => exact h.notify a
  | shutdown => exact h.shutdown

theorem new : Sound .new where
  owned := ⟨none, by constructor <;> simp [Slot.new, Stage.holds]⟩
  roused := by constructor <;> simp [Slot.new]

theorem run (es : List Event) : Sound (Lib.Machine.run Slot.step .new es) :=
  Lib.Machine.run_invariant (Q := fun _ _ => True) (fun _ e h _ => h.step e) new
    (Lib.Machine.along_trivial _ es)

end Sound

/-- The task whose doing an event is. -/
def Event.task : Event → Option ℕ
  | .accept a | .dialled a | .occupy a | .vacated a | .expire a | .quiesce a | .setSender a
  | .setActive a _ | .clearSender a | .stop a | .clear a | .free a | .notify a => some a
  | .shutdown => none

/-- An association that is served is not displaced, whatever the task of another does. -/
theorem Sound.undisturbed {s : Slot} (h : Sound s) {a : ℕ} (ha : s.stage a = .serving) {e : Event}
    (he : e.task ≠ some a) :
    (s.step e).stage a = .serving ∧ (s.step e).sender = some a ∧ (s.step e).active = s.active := by
  have howned := h.owner_of (a := a) (by rw [ha]; rfl)
  have hsender := howned.served a ha
  have hother {b : ℕ} (hb : b ≠ a) {stage : Stage} (hholds : stage.holds = true) :
      s.stage b ≠ stage := fun hstage =>
    hb (Option.some.inj ((howned.holds b).mp (by rw [hstage]; exact hholds))).symm
  have hmove {b : ℕ} (hb : b ≠ a) (stage : Stage) : (s.move b stage).stage a = .serving :=
    (Function.update_of_ne (Ne.symm hb) _ _).trans ha
  have hmine : ∀ {b : ℕ}, some b ≠ some a → b ≠ a := fun hne heq => hne (congrArg some heq)
  cases e with
  | shutdown => exact ⟨ha, hsender, rfl⟩
  | accept b | dialled b | occupy b | vacated b | expire b =>
    simp only [Slot.step]
    split_ifs
    all_goals
      first
      | exact ⟨hmove (hmine he) _, hsender, rfl⟩
      | exact ⟨ha, hsender, rfl⟩
  | quiesce b | setSender b | setActive b | clearSender b | clear b | free b =>
    simp only [Slot.step]
    rw [if_neg (hother (hmine he) rfl)]
    exact ⟨ha, hsender, rfl⟩
  | stop b =>
    have hb := hmine he
    simp only [Slot.step]
    split
    next hstage => exact absurd hstage (hother hb rfl)
    next hstage => exact absurd hstage (hother hb rfl)
    next hstage => exact absurd hstage (hother hb rfl)
    next hstage => exact absurd hstage (hother hb rfl)
    next => exact ⟨ha, hsender, rfl⟩
  | notify b =>
    simp only [Slot.step]
    split_ifs
    · cases hwaiters : s.waiters with
      | nil => exact ⟨hmove (hmine he) _, hsender, rfl⟩
      | cons c rest =>
        have hca : a ≠ c := by
          rintro rfl
          have hwaiting := (h.roused.waiting a).mp (by simp [hwaiters])
          simp [ha] at hwaiting
        exact ⟨(Function.update_of_ne hca _ _).trans (hmove (hmine he) _), hsender, rfl⟩
    · exact ⟨ha, hsender, rfl⟩

/-- However associations are accepted and dialled for a slot, wait for it, are served and end: one
task at most has the slot, and while it is marked free none has. What is in the slot is the
association of the task that has it, which only its own layer makes an egress and only its own task
takes out. A slot that is free and that somebody waits for is about to be tried, or somebody is
about to be woken. -/
theorem one_at_a_time (es : List Event) :
    let s := Lib.Machine.run Slot.step .new es
    (∀ a b, (s.stage a).holds = true → (s.stage b).holds = true → a = b) ∧
    (s.occupied = false → (∀ a, (s.stage a).holds = false) ∧ s.sender = none) ∧
    (∀ a, s.sender = some a →
      (s.stage a).holds = true ∧ (s.active = none ∨ s.active = some a)) ∧
    (∀ a e, s.stage a = .serving → e.task ≠ some a →
      (s.step e).stage a = .serving ∧ (s.step e).sender = some a ∧
        (s.step e).active = s.active) ∧
    (s.occupied = false → s.shutdown = false → s.waiters ≠ [] →
      ∃ b, s.stage b = .trying ∨ s.stage b = .freed) := by
  have h := Sound.run es
  dsimp only
  generalize Lib.Machine.run Slot.step .new es = s at h
  obtain ⟨owner, howned⟩ := h.owned
  refine ⟨fun a b ha hb => ?_, fun hfree => ?_, fun a ha => ?_,
    fun a e ha he => h.undisturbed ha he, fun hfree hon hwait => ?_⟩
  · exact Option.some.inj (((howned.holds a).mp ha).symm.trans ((howned.holds b).mp hb))
  · obtain rfl : owner = none := by simpa [hfree] using howned.occupied.symm
    refine ⟨fun a => ?_, howned.free⟩
    by_contra hholds
    cases (howned.holds a).mp (by simpa using hholds)
  · exact ⟨(howned.holds a).mpr (howned.sender_eq ha), howned.active a ha⟩
  · obtain ⟨a, ha⟩ := List.exists_mem_of_ne_nil _ hwait
    have hawake := h.roused.awake hfree hon ⟨a, .inr ((h.roused.waiting a).mp ha)⟩
    exact hawake.resolve_left fun hpermit => hwait (h.roused.permit hpermit)

end Occupancy

end SiphonSigtran.Transport
