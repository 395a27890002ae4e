import SiphonSigtran.Tcap.Acts
import SiphonSigtran.Tcap.Outcome

/-!
# A flush that fails

A flush whose message cannot be encoded drops what was staged for it and changes nothing
else. One that is refused before that, because the dialogue is closed or the peer has not
answered yet, leaves what was staged where it is, to go out with a later one.
-/

namespace SiphonSigtran.Tcap

namespace Dialogue

/-- Nothing changed but what was staged, which is dropped. The error is kept for the engine. -/
structure Unsent (d d' : Dialogue) : Prop where
  closed : d'.closed = d.closed
  peerTid : d'.peerTid = d.peerTid
  outstanding : d'.outstanding = d.outstanding
  rejects : d'.rejects = d.rejects
  aarePending : d'.aarePending = d.aarePending
  firstFlushDone : d'.firstFlushDone = d.firstFlushDone
  nextInvokeId : d'.nextInvokeId = d.nextInvokeId
  out : d'.out = d.out
  pending : d'.pending = []
  staged : d'.staged = []

variable {c : Codec} {d : Dialogue}

/-- A flush that is refused drops nothing. -/
theorem Unsent.of_kept {d' : Dialogue} (h : Unsent d d') (hpending : d'.pending = d.pending)
    (hstaged : d'.staged = d.staged) : d.pending = [] ∧ d.staged = [] :=
  ⟨hpending ▸ h.pending, hstaged ▸ h.staged⟩

/-- A failed flush drops what was staged, and changes nothing else, just where the dialogue is open
and may send, or nothing is staged. -/
theorem flush_unsent_iff {closing : Bool} {now : ℕ} {e : DialogueError}
    (h : (d.flush c closing now).1 = .error e) :
    Unsent d (d.flush c closing now).2 ↔ (d.pending = [] ∧ d.staged = []) ∨
      d.closed = none ∧ (d.opening = true ∨ d.peerTid ≠ []) := by
  rcases flush_cases (c := c) d closing now with
    ⟨hclosed, heq⟩ | ⟨-, hopening, hpeer, heq⟩ | ⟨hopen, hmay, ⟨e', -, heq⟩ | ⟨msu, -, heq⟩⟩
  · rw [heq]
    constructor
    · exact fun hunsent => .inl (hunsent.of_kept rfl rfl)
    · rintro (⟨hpending, hstaged⟩ | ⟨hopen, -⟩)
      · exact ⟨rfl, rfl, rfl, rfl, rfl, rfl, rfl, rfl, hpending, hstaged⟩
      · simp [hopen] at hclosed
  · rw [heq]
    constructor
    · exact fun hunsent => .inl (hunsent.of_kept rfl rfl)
    · rintro (⟨hpending, hstaged⟩ | ⟨-, hmay⟩)
      · exact ⟨rfl, rfl, rfl, rfl, rfl, rfl, rfl, rfl, hpending, hstaged⟩
      · simp [hopening, hpeer] at hmay
  · rw [heq]
    constructor
    · exact fun _ => .inr ⟨hopen, hmay⟩
    · exact fun _ => ⟨rfl, rfl, rfl, rfl, rfl, rfl, rfl, rfl, rfl, rfl⟩
  · rw [heq] at h
    cases h

/-- `send` and `sendEnd` that fail. -/
theorem failed_flush_iff (c : Codec) (d : Dialogue) :
    (∀ now e, (d.send c now).1 = .error e → (Unsent d (d.send c now).2 ↔
      (d.pending = [] ∧ d.staged = []) ∨
        d.closed = none ∧ (d.opening = true ∨ d.peerTid ≠ []))) ∧
    ∀ e, (d.sendEnd c).1 = .error e → (Unsent d (d.sendEnd c).2 ↔
      (d.pending = [] ∧ d.staged = []) ∨
        d.closed = none ∧ (d.opening = true ∨ d.peerTid ≠ [])) :=
  ⟨fun _ _ h => flush_unsent_iff h, fun _ h => flush_unsent_iff h⟩

end Dialogue

/-! ## A codec with a bound -/

/-- The length octets of a definite form. -/
def lengthOctets (n : ℕ) : Bytes :=
  if n < 128 then [.ofNat n]
  else if n < 256 then [0x81, .ofNat n]
  else [0x82, .ofNat (n / 256), .ofNat (n % 256)]

def problemOctets : Problem → Bytes
  | .general code => [0x80, 0x01, .ofNat code]
  | .invoke .unrecognizedLinkedId => [0x81, 0x01, 0x05]
  | .invoke (.other code) => [0x81, 0x01, .ofNat code]
  | .returnResult .unrecognizedInvokeId => [0x82, 0x01, 0x00]
  | .returnResult .returnResultUnexpected => [0x82, 0x01, 0x01]
  | .returnResult (.other code) => [0x82, 0x01, .ofNat code]
  | .returnError .unrecognizedInvokeId => [0x83, 0x01, 0x00]
  | .returnError .returnErrorUnexpected => [0x83, 0x01, 0x01]
  | .returnError (.other code) => [0x83, 0x01, .ofNat code]

def rejectOctets (r : Reject) : Bytes :=
  match r.invokeId with
  | some id => [0xA4, 0x06, 0x02, 0x01, .ofNat (id % 256).toNat] ++ problemOctets r.problem
  | none => [0xA4, 0x05, 0x05, 0x00] ++ problemOctets r.problem

def rejectsOctets : List Component → Option Bytes
  | [] => some []
  | .reject r :: rest => (rejectsOctets rest).map (rejectOctets r ++ ·)
  | _ => none

/-- A message of which the component portion holds Rejects, if there is one. -/
def answerOctets (tag : UInt8) (ids : Bytes) (dialoguePortion : Option Bytes)
    (components : Option (List Component)) : Except String Bytes :=
  match rejectsOctets (components.getD []) with
  | none => .error "not of Rejects"
  | some octets =>
    let portion :=
      if components.isSome then 0x6C :: lengthOctets octets.length ++ octets else []
    let body := ids ++ dialoguePortion.getD [] ++ portion
    .ok (tag :: lengthOctets body.length ++ body)

def idOctets (tag : UInt8) (tid : Tid) : Bytes := tag :: .ofNat tid.length :: tid

/-- The octets of Continues and Ends with Rejects, in unitdata of at most 254 octets between two
subsystems. -/
def boundedCodec : Codec :=
  { shortCodec with
    encodeUdt := fun called calling data =>
      if data.length ≤ 254 then shortCodec.encodeUdt called calling data
      else .error "too long for a unitdata"
    encode := fun message =>
      match message with
      | .ends ⟨dtid, portion, components⟩ =>
        answerOctets 0x64 (idOctets 0x49 dtid) portion components
      | .continues ⟨otid, dtid, portion, components⟩ =>
        answerOctets 0x65 (idOctets 0x48 otid ++ idOctets 0x49 dtid) portion components
      | message => shortCodec.encode message }

/-- A dialogue that a node began with us, from its subsystem 6 with our subsystem 8. -/
def answering : Dialogue :=
  .new 1 .responder [0x80, 0, 0, 1] [0, 0, 0, 5] [] 1
    ⟨⟨true, some 6, none⟩, ⟨true, some 8, none⟩, 1, 2, 2, 0, .udt⟩ ⟨15000, 30000, 10⟩

/-- Results of invokes that were never made. -/
def strayResults (n : ℕ) : List Component :=
  List.replicate n (.returnResultLast ⟨9, none⟩)

namespace Dialogue

/-- Forty Rejects do not fit in a unitdata. -/
theorem failed_flush_iff_of_rejects :
    Unsent (answering.receive false (strayResults 40) none).2
      ((answering.receive false (strayResults 40) none).2.sendEnd boundedCodec).2 :=
  ((failed_flush_iff boundedCodec (answering.receive false (strayResults 40) none).2).2
    (.sccp "too long for a unitdata") (by decide +kernel)).mpr
    (.inr ⟨by decide +kernel, .inr (by decide +kernel)⟩)

/-- A dialogue that we began, before the peer has answered, with a Reject staged. -/
def unanswered : Dialogue :=
  ((Dialogue.new 1 .initiator [0x80, 0, 0, 1] [] [] 0
    ⟨⟨true, some 6, none⟩, ⟨true, some 8, none⟩, 1, 2, 2, 0, .udt⟩ ⟨15000, 30000, 10⟩).calls
      boundedCodec [.send 0, .reject (some 1) (.general 0)]).1

/-- What is staged before the peer has answered is not dropped when it cannot be sent, and goes out
in the first Continue after the answer. -/
theorem refused_flush_keeps_staged :
    (¬ ∀ (c : Codec) (config : Config) (d : Dialogue), d.Reached c config → ∀ now e,
      (d.send c now).1 = .error e → Unsent d (d.send c now).2) ∧
    let answered := (unanswered.send boundedCodec 0).2.act boundedCodec (.learn [0, 0, 0, 5])
    (answered.send boundedCodec 0).1 = .ok () ∧
      answered.leg boundedCodec false = .continues
        ⟨[0x80, 0, 0, 1], [0, 0, 0, 5], none, some [.reject ⟨some 1, .general 0⟩]⟩ := by
  constructor
  · intro hall
    have hreached : unanswered.Reached boundedCodec ⟨15000, 30000, 10⟩ :=
      (reached_new _ _ _ _ _ fun _ => rfl).calls _
    have hunsent := hall boundedCodec ⟨15000, 30000, 10⟩ unanswered hreached 0 .noPeerTransaction
      (by decide +kernel)
    exact absurd hunsent.pending (by decide +kernel)
  · decide +kernel

end Dialogue

end SiphonSigtran.Tcap
