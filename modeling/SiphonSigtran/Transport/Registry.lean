import SiphonSigtran.Lib.Store
import SiphonSigtran.Routing.RouteState

/-!
# The registry of a domain

What the tasks that serve the associations share: here the controlled rerouting
buffers. Every operation holds the lock of what it reads and writes, so it is
one step.
-/

namespace SiphonSigtran.Transport

open Lib Routing

/-- A message as a relay reads it. -/
structure Msu where
  opc : ℕ
  dpc : ℕ
  si : ℕ
  ni : ℕ
  mp : ℕ
  sls : ℕ
  payload : List UInt8
  deriving DecidableEq, Repr

/-- A message that was handed in. The number, for the proofs only, says which it is. -/
structure Handed where
  number : ℕ
  msu : Msu
  deriving DecidableEq, Repr

/-- What becomes of a message for a destination that may be held. The code returns `true` for
a message that was buffered and for one that was refused. -/
inductive Outcome
  | passed
  | buffered
  | refused
  deriving DecidableEq, Repr

/-- The controlled rerouting buffers, and what was counted of them. -/
structure Buffers where
  held : Store ℕ (List Handed)
  holding : ℕ
  reroutingBuffer : ℕ
  bufferFull : ℕ

namespace Buffers

def new (reroutingBuffer : ℕ) : Buffers := ⟨∅, 0, reroutingBuffer, 0⟩

/-- Start buffering the traffic of a destination. -/
def holdDestination (b : Buffers) (dpc : ℕ) : Buffers :=
  { b with
    held := b.held.insert dpc []
    holding := if (b.held.lookup dpc).isNone then b.holding + 1 else b.holding }

/-- Buffer a message if its destination is held. -/
def holdIfRerouting (b : Buffers) (msu : Handed) : Outcome × Buffers :=
  if b.holding = 0 then (.passed, b)
  else match b.held.lookup msu.msu.dpc with
    | none => (.passed, b)
    | some buffer =>
      if b.reroutingBuffer ≤ buffer.length then
        (.refused, { b with bufferFull := b.bufferFull + 1 })
      else (.buffered, { b with held := b.held.insert msu.msu.dpc (buffer ++ [msu]) })

/-- Take what is buffered for a destination. Once the buffer is found empty, which also ends
the buffering, there is nothing to take. -/
def releaseDestination (b : Buffers) (dpc : ℕ) : Option (List Handed) × Buffers :=
  match b.held.lookup dpc with
  | none => (none, b)
  | some [] => (none, { b with held := b.held.erase dpc, holding := b.holding - 1 })
  | some buffer => (some buffer, { b with held := b.held.insert dpc [] })

/-- What is buffered for a destination. -/
def bufferOf (b : Buffers) (dpc : ℕ) : List Handed := (b.held.lookup dpc).getD []

/-- Whether a destination is held. -/
def holds (b : Buffers) (dpc : ℕ) : Bool := (b.held.lookup dpc).isSome

/-- As many destinations are held as are counted, and a buffer holds messages for its
destination only. -/
structure Kept (b : Buffers) : Prop where
  counted : b.holding = b.held.size
  own : ∀ d, ∀ msu ∈ b.bufferOf d, msu.msu.dpc = d

theorem kept_new (n : ℕ) : (new n).Kept := ⟨rfl, by simp [new, bufferOf]⟩

theorem bufferOf_of_not_holds {b : Buffers} {d : ℕ} (h : b.holds d = false) :
    b.bufferOf d = [] := by
  unfold holds at h
  simp [bufferOf, Option.isSome_eq_false_iff.mp h |> Option.isNone_iff_eq_none.mp]

/-! ## What each operation does -/

@[simp] theorem holds_holdDestination (b : Buffers) (d e : ℕ) :
    (b.holdDestination d).holds e = (e = d || b.holds e) := by
  by_cases h : e = d
  · subst h
    simp [holds, holdDestination]
  · simp [holds, holdDestination, h, AList.lookup_insert_ne]

theorem bufferOf_holdDestination {b : Buffers} {d : ℕ} (h : b.holds d = false) (e : ℕ) :
    (b.holdDestination d).bufferOf e = b.bufferOf e := by
  by_cases he : e = d
  · subst he
    rw [bufferOf_of_not_holds h]
    simp [bufferOf, holdDestination]
  · simp [bufferOf, holdDestination, AList.lookup_insert_ne he]

theorem Kept.holdDestination {b : Buffers} (hb : b.Kept) {d : ℕ} (h : b.holds d = false) :
    (b.holdDestination d).Kept := by
  have hnone : b.held.lookup d = none := by simpa [holds] using h
  have hnew : d ∉ b.held := AList.lookup_eq_none.mp hnone
  constructor
  · simp [Buffers.holdDestination, hnone, Store.size_insert hnew, hb.counted]
  · intro e
    rw [bufferOf_holdDestination h]
    exact hb.own e

/-- What becomes of a message says what became of the buffers. -/
theorem holdIfRerouting_cases {b : Buffers} (hb : b.Kept) (msu : Handed) :
    (b.holds msu.msu.dpc = false ∧ b.holdIfRerouting msu = (.passed, b)) ∨
    (b.holds msu.msu.dpc = true ∧
      b.holdIfRerouting msu = (.refused, { b with bufferFull := b.bufferFull + 1 })) ∨
    (b.holds msu.msu.dpc = true ∧ b.holdIfRerouting msu =
      (.buffered, { b with
        held := b.held.insert msu.msu.dpc (b.bufferOf msu.msu.dpc ++ [msu]) })) := by
  unfold holdIfRerouting
  split_ifs with hz
  · refine .inl ⟨?_, rfl⟩
    rw [hb.counted] at hz
    have hempty : b.held.keys = [] := List.length_eq_zero_iff.mp hz
    have hnone : b.held.lookup msu.msu.dpc = none := by
      rw [AList.lookup_eq_none, AList.mem_keys, hempty]
      exact List.not_mem_nil
    simp [holds, hnone]
  · cases hl : b.held.lookup msu.msu.dpc with
    | none => exact .inl ⟨by simp [holds, hl], rfl⟩
    | some buffer =>
      dsimp only
      have hheld : b.holds msu.msu.dpc = true := by simp [holds, hl]
      split_ifs
      · exact .inr (.inl ⟨hheld, rfl⟩)
      · exact .inr (.inr ⟨hheld, by simp [bufferOf, hl]⟩)

theorem holds_insert {b : Buffers} {d : ℕ} (h : b.holds d = true) (buffer : List Handed) (e : ℕ) :
    ({ b with held := b.held.insert d buffer } : Buffers).holds e = b.holds e := by
  by_cases he : e = d
  · subst he
    simpa [holds] using h.symm
  · simp [holds, AList.lookup_insert_ne he]

theorem bufferOf_insert (b : Buffers) (d : ℕ) (buffer : List Handed) (e : ℕ) :
    ({ b with held := b.held.insert d buffer } : Buffers).bufferOf e =
      if e = d then buffer else b.bufferOf e := by
  by_cases he : e = d
  · subst he
    simp [bufferOf]
  · simp [bufferOf, he, AList.lookup_insert_ne he]

theorem Kept.insert {b : Buffers} (hb : b.Kept) {d : ℕ} (h : b.holds d = true)
    {buffer : List Handed} (hbuffer : ∀ msu ∈ buffer, msu.msu.dpc = d) :
    ({ b with held := b.held.insert d buffer } : Buffers).Kept := by
  have hmem : d ∈ b.held := by
    rw [← AList.lookup_isSome]
    exact h
  constructor
  · rw [Store.size_insert_of_mem hmem]
    exact hb.counted
  · intro e
    rw [bufferOf_insert]
    split_ifs with he
    · rw [he]
      exact hbuffer
    · exact hb.own e

/-- A release finds the buffer empty, and ends the buffering, or takes what is in it. -/
theorem releaseDestination_cases {b : Buffers} (hb : b.Kept) {d : ℕ} (h : b.holds d = true) :
    (b.bufferOf d = [] ∧ (b.releaseDestination d).1 = none ∧
      (b.releaseDestination d).2.Kept ∧
      (b.releaseDestination d).2.bufferFull = b.bufferFull ∧
      (∀ e, (b.releaseDestination d).2.holds e = (b.holds e && e ≠ d)) ∧
      ∀ e, (b.releaseDestination d).2.bufferOf e = b.bufferOf e) ∨
    (b.releaseDestination d =
      (some (b.bufferOf d), { b with held := b.held.insert d [] })) := by
  unfold releaseDestination
  obtain ⟨buffer, hl⟩ := Option.isSome_iff_exists.mp h
  cases buffer with
  | nil =>
    left
    rw [hl]
    have hholds : ∀ e, ({ b with held := b.held.erase d, holding := b.holding - 1 } :
        Buffers).holds e = (b.holds e && e ≠ d) := by
      intro e
      by_cases he : e = d
      · subst he
        simp [holds]
      · simp [holds, he, AList.lookup_erase_ne he]
    have hbuffer : ∀ e, ({ b with held := b.held.erase d, holding := b.holding - 1 } :
        Buffers).bufferOf e = b.bufferOf e := by
      intro e
      by_cases he : e = d
      · subst he
        simp [bufferOf, hl]
      · simp [bufferOf, AList.lookup_erase_ne he]
    refine ⟨by simp [bufferOf, hl], rfl, ⟨?_, ?_⟩, rfl, hholds, hbuffer⟩
    · have hmem : d ∈ b.held := AList.lookup_isSome.mp h
      simp only [hb.counted, Store.size, AList.keys_erase]
      rw [List.length_erase_of_mem (AList.mem_keys.mp hmem)]
    · intro e
      rw [hbuffer]
      exact hb.own e
  | cons msu rest =>
    right
    simp [hl, bufferOf]

end Buffers

end SiphonSigtran.Transport
