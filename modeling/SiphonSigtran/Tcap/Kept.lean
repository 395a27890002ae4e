import Mathlib.Data.List.Basic
import SiphonSigtran.Tcap.Dialogue

/-!
# What a turn keeps of a dialogue

Neither the calls of a handler nor the components of the peer change who a dialogue is
between. What a flush does is said once.
-/

namespace SiphonSigtran.Tcap

namespace Dialogue

/-- The same two ends, and the same transaction ids. -/
structure Kept (d d' : Dialogue) : Prop where
  serial : d'.serial = d.serial
  role : d'.role = d.role
  ourTid : d'.ourTid = d.ourTid
  peerTid : d'.peerTid = d.peerTid
  ac : d'.ac = d.ac
  addressing : d'.addressing = d.addressing

namespace Kept

variable {d d' d'' : Dialogue}

theorem refl (d : Dialogue) : Kept d d := ⟨rfl, rfl, rfl, rfl, rfl, rfl⟩

theorem trans (h : Kept d d') (h' : Kept d' d'') : Kept d d'' where
  serial := h'.serial.trans h.serial
  role := h'.role.trans h.role
  ourTid := h'.ourTid.trans h.ourTid
  peerTid := h'.peerTid.trans h.peerTid
  ac := h'.ac.trans h.ac
  addressing := h'.addressing.trans h.addressing

end Kept

variable {c : Codec}

theorem emit_kept (d : Dialogue) (message : TcapMessage) : Kept d (d.emit c message).2 := by
  unfold emit
  split <;> exact ⟨rfl, rfl, rfl, rfl, rfl, rfl⟩

/-- A dialogue that is closed with nothing left to send. -/
def dropped (d : Dialogue) (reason : CloseReason) : Dialogue :=
  { d with
    pending := []
    staged := []
    outstanding := []
    rejects := []
    closed := some reason }

theorem abortAs_cases (d : Dialogue) (reason : CloseReason) :
    (d.closed.isSome = true ∧ d.abortAs c reason = (.error .closed, d)) ∨
    (d.closed = none ∧ d.peerTid = [] ∧ d.abortAs c reason = (.ok (), d.dropped reason)) ∨
    d.closed = none ∧ d.peerTid ≠ [] ∧
      d.abortAs c reason = (d.dropped reason).emit c (.aborts (.uAbort d.peerTid
        (if d.ac.isEmpty then none else some (c.abrt .dialogueServiceUser)))) := by
  unfold abortAs
  rcases Option.eq_none_or_eq_some d.closed with hclosed | ⟨reason, hclosed⟩
  · rw [if_neg (by simp [hclosed])]
    right
    by_cases hpeer : d.peerTid = []
    · left
      refine ⟨hclosed, hpeer, ?_⟩
      simp [hpeer, dropped]
    · right
      refine ⟨hclosed, hpeer, ?_⟩
      simp [hpeer, dropped]
  · rw [if_pos (by simp [hclosed])]
    exact .inl ⟨by simp [hclosed], rfl⟩

theorem abortAs_kept (d : Dialogue) (reason : CloseReason) : Kept d (d.abortAs c reason).2 := by
  rcases abortAs_cases (c := c) d reason with ⟨-, h⟩ | ⟨-, -, h⟩ | ⟨-, -, h⟩
  · rw [h]
    exact Kept.refl d
  · rw [h]
    exact ⟨rfl, rfl, rfl, rfl, rfl, rfl⟩
  · rw [h]
    have hdropped : Kept d (d.dropped reason) := ⟨rfl, rfl, rfl, rfl, rfl, rfl⟩
    exact hdropped.trans (emit_kept _ _)

theorem abortAs_closed (d : Dialogue) (reason : CloseReason) :
    (d.abortAs c reason).2.closed ≠ none := by
  rcases abortAs_cases (c := c) d reason with ⟨hclosed, h⟩ | ⟨-, -, h⟩ | ⟨-, -, h⟩
  · rw [h]
    exact Option.isSome_iff_ne_none.mp hclosed
  · rw [h]
    simp [dropped]
  · rw [h]
    unfold emit
    split <;> simp [dropped, Dialogue.fail]

/-- What a flush does: nothing on a closed dialogue or without the peer's id, and otherwise
the message goes out or the state stays as it was, without what was staged. -/
theorem flush_cases (d : Dialogue) (closing : Bool) (now : ℕ) :
    (d.closed.isSome = true ∧ d.flush c closing now = (.error .closed, d)) ∨
    (d.closed = none ∧ d.opening = false ∧ d.peerTid = [] ∧
      d.flush c closing now = (.error .noPeerTransaction, d.fail .noPeerTransaction)) ∨
    d.closed = none ∧ (d.opening = true ∨ d.peerTid ≠ []) ∧
      ((∃ e, wrapMsu c (d.leg c closing) d.addressing = .error e ∧
        d.flush c closing now = (.error e, { d with pending := [], staged := [] }.fail e)) ∨
      ∃ msu, wrapMsu c (d.leg c closing) d.addressing = .ok msu ∧
        d.flush c closing now = (.ok (), { d with
          pending := []
          staged := []
          rejects := []
          aarePending := false
          firstFlushDone := true
          out := d.out ++ [msu]
          outstanding := if closing then [] else d.outstanding ++ d.staged.map (started now)
          closed := if closing then some .ended else none })) := by
  unfold flush
  rcases Option.eq_none_or_eq_some d.closed with hclosed | ⟨reason, hclosed⟩
  · rw [if_neg (by simp [hclosed])]
    by_cases hpeer : (!d.opening && d.peerTid.isEmpty) = true
    · rw [if_pos hpeer]
      simp only [Bool.and_eq_true, Bool.not_eq_true', List.isEmpty_iff] at hpeer
      exact .inr (.inl ⟨hclosed, hpeer.1, hpeer.2, rfl⟩)
    · rw [if_neg hpeer]
      refine .inr (.inr ⟨hclosed, ?_, ?_⟩)
      · by_contra hnone
        simp only [not_or, Bool.not_eq_true, not_not] at hnone
        exact hpeer (by simp [hnone])
      · unfold emit
        cases hwrap : wrapMsu c (d.leg c closing) d.addressing with
        | error e =>
          left
          refine ⟨e, rfl, ?_⟩
          simp only [hwrap]
        | ok msu =>
          right
          refine ⟨msu, rfl, ?_⟩
          cases closing <;> simp [hwrap, hclosed]
  · rw [if_pos (by simp [hclosed])]
    exact .inl ⟨by simp [hclosed], rfl⟩

theorem flush_kept (d : Dialogue) (closing : Bool) (now : ℕ) :
    Kept d (d.flush c closing now).2 := by
  rcases flush_cases (c := c) d closing now with ⟨-, h⟩ | ⟨-, -, -, h⟩
    | ⟨-, -, ⟨e, -, h⟩ | ⟨msu, -, h⟩⟩
  · rw [h]
    exact Kept.refl d
  · rw [h]
    exact ⟨rfl, rfl, rfl, rfl, rfl, rfl⟩
  · rw [h]
    exact ⟨rfl, rfl, rfl, rfl, rfl, rfl⟩
  · rw [h]
    exact ⟨rfl, rfl, rfl, rfl, rfl, rfl⟩

/-- Staging an invoke touches what is staged and the ring of ids, and sends nothing. -/
theorem invokeWith_only (d : Dialogue) (op : ℤ) (argument : Option Bytes)
    (opClass : OperationClass) (timeout : Option ℕ) :
    ∃ pending staged next, (d.invokeWith op argument opClass timeout).2 =
      { d with pending := pending, staged := staged, nextInvokeId := next } := by
  unfold invokeWith
  split_ifs
  · exact ⟨_, _, _, rfl⟩
  · unfold allocateInvokeId
    split <;> rename_i h <;> split at h
    · obtain ⟨-, rfl⟩ := Prod.mk.inj h
      exact ⟨_, _, _, rfl⟩
    · cases h
    · cases h
    · obtain ⟨-, rfl⟩ := Prod.mk.inj h
      split_ifs <;> exact ⟨_, _, _, rfl⟩

theorem invokeWith_kept (d : Dialogue) (op : ℤ) (argument : Option Bytes)
    (opClass : OperationClass) (timeout : Option ℕ) :
    Kept d (d.invokeWith op argument opClass timeout).2 := by
  obtain ⟨_, _, _, heq⟩ := d.invokeWith_only op argument opClass timeout
  rw [heq]
  exact ⟨rfl, rfl, rfl, rfl, rfl, rfl⟩

theorem call_invokeWith (d : Dialogue) (op : ℤ) (argument : Option Bytes)
    (opClass : OperationClass) (timeout : Option ℕ) :
    (d.call c (.invokeWith op argument opClass timeout)).1 =
      (d.invokeWith op argument opClass timeout).2 := by
  unfold call
  dsimp only
  split <;> rename_i heq <;> rw [heq]

theorem call_kept (d : Dialogue) (call : Call) : Kept d (d.call c call).1 := by
  cases call with
  | invokeWith op argument opClass timeout =>
    rw [call_invokeWith]
    exact d.invokeWith_kept op argument opClass timeout
  | send now =>
    have h := d.flush_kept (c := c) false now
    unfold Dialogue.call send
    dsimp only
    split <;> rename_i heq <;> rwa [heq] at h
  | sendEnd => exact d.flush_kept true 0
  | abort => exact d.abortAs_kept .aborted
  | _ => exact ⟨rfl, rfl, rfl, rfl, rfl, rfl⟩

theorem calls_kept (d : Dialogue) (script : List Call) : Kept d (d.calls c script).1 := by
  induction script generalizing d with
  | nil => exact Kept.refl d
  | cons call rest ih => exact (d.call_kept call).trans (ih _)

end Dialogue

/-- What a call adds: ids that are handed out and invokes that are flushed. -/
def Event.ofCall : Event → Bool
  | .handed _ | .flushed _ => true
  | _ => false

namespace Dialogue

variable {c : Codec}

theorem call_events (d : Dialogue) (call : Call) :
    ∀ event ∈ (d.call c call).2, event.ofCall = true := by
  cases call with
  | invokeWith op argument opClass timeout =>
    unfold Dialogue.call
    dsimp only
    split <;> simp [Event.ofCall]
  | send now =>
    unfold Dialogue.call
    dsimp only
    split <;> simp [Event.ofCall]
  | _ => simp [Dialogue.call]

theorem calls_events (d : Dialogue) (script : List Call) :
    ∀ event ∈ (d.calls c script).2, event.ofCall = true := by
  induction script generalizing d with
  | nil => simp [calls]
  | cons call rest ih =>
    intro event hevent
    rcases List.mem_append.mp hevent with h | h
    · exact d.call_events call event h
    · exact ih _ event h

/-! ## Receiving -/

/-- The components of the peer touch only the invokes in progress and the Rejects built here. -/
def OnlyReceives (d d' : Dialogue) : Prop :=
  ∃ outstanding rejects, d' = { d with outstanding := outstanding, rejects := rejects }

namespace OnlyReceives

variable {d d' d'' : Dialogue}

theorem refl (d : Dialogue) : OnlyReceives d d := ⟨_, _, rfl⟩

theorem trans (h : OnlyReceives d d') (h' : OnlyReceives d' d'') : OnlyReceives d d'' := by
  obtain ⟨_, _, rfl⟩ := h
  obtain ⟨_, _, rfl⟩ := h'
  exact ⟨_, _, rfl⟩

theorem kept (h : OnlyReceives d d') : Kept d d' := by
  obtain ⟨_, _, rfl⟩ := h
  exact ⟨rfl, rfl, rfl, rfl, rfl, rfl⟩

end OnlyReceives

theorem rejectHere_only (d : Dialogue) (isEnd : Bool) (reject : Reject) :
    OnlyReceives d (d.rejectHere isEnd reject).2 := by
  unfold rejectHere
  split_ifs <;> exact ⟨_, _, rfl⟩

theorem receiveComponent_only (d : Dialogue) (isEnd : Bool) (component : Component) :
    OnlyReceives d (d.receiveComponent isEnd component).2 := by
  have hrelease : ∀ id, OnlyReceives d (d.release id) := fun id => ⟨_, _, rfl⟩
  have hresult : ∀ last r, OnlyReceives d (d.receiveResult isEnd last r).2 := by
    intro last r
    unfold receiveResult
    split
    · exact d.rejectHere_only _ _
    · split_ifs
      · exact (hrelease _).trans (rejectHere_only _ _ _)
      · exact hrelease _
      · exact OnlyReceives.refl d
  cases component with
  | invoke i =>
    unfold receiveComponent
    dsimp only
    split_ifs
    · exact d.rejectHere_only _ _
    · exact OnlyReceives.refl d
  | returnResultLast r => exact hresult true r
  | returnResultNotLast r => exact hresult false r
  | returnError e =>
    unfold receiveComponent receiveError
    dsimp only
    split
    · exact d.rejectHere_only _ _
    · split_ifs
      · exact (hrelease _).trans (rejectHere_only _ _ _)
      · exact hrelease _
  | reject r =>
    unfold receiveComponent receiveReject
    dsimp only
    split <;> exact ⟨_, _, rfl⟩

theorem receiveComponents_only (d : Dialogue) (isEnd : Bool) (components : List Component) :
    OnlyReceives d (d.receiveComponents isEnd components).2 := by
  induction components generalizing d with
  | nil => exact OnlyReceives.refl d
  | cons component rest ih => exact (d.receiveComponent_only isEnd component).trans (ih _)

theorem receive_only (d : Dialogue) (isEnd : Bool) (components : List Component)
    (rejected : Option Rejected) : OnlyReceives d (d.receive isEnd components rejected).2 := by
  have hread := d.receiveComponents_only isEnd components
  unfold receive
  cases rejected with
  | none => exact hread
  | some r =>
    refine hread.trans ?_
    unfold stageRejected
    dsimp only
    split <;> exact ⟨_, _, rfl⟩

theorem receive_kept (d : Dialogue) (isEnd : Bool) (components : List Component)
    (rejected : Option Rejected) : Kept d (d.receive isEnd components rejected).2 :=
  (d.receive_only isEnd components rejected).kept

end Dialogue

end SiphonSigtran.Tcap
