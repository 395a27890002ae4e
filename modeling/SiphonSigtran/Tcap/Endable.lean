import SiphonSigtran.Tcap.FailedFlush

/-!
# Ending a dialogue

The Rejects built for the peer's components wait for the next message, and wait on when it
cannot be encoded. A dialogue can be ended just as long as they fit in one End.
-/

namespace SiphonSigtran.Tcap

open Lib

/-- The handler stages a component of its own. -/
def Act.stages : Act → Bool
  | .call (.invokeWith ..) | .call (.reply ..) | .call (.replyTo ..) | .call (.error ..)
  | .call (.reject ..) => true
  | _ => false

/-- The TCAP message is put in a unitdata. -/
def Unitdata (c : Codec) (a : Addressing) (data : Bytes) : Prop :=
  ∃ payload, (match a.form with
    | .udt => c.encodeUdt a.outCalled a.outCalling data
    | .xudt => c.encodeXudt a.outCalled a.outCalling data) = .ok payload

/-- The component portion that holds just these Rejects. -/
def rejectPortion (rejects : List Reject) : Option (List Component) :=
  if rejects.isEmpty then none else some (rejects.map .reject)

/-- An End with these Rejects is no longer than the bound. -/
def EndFits (c : Codec) (bound : ℕ) (dtid : Tid) (portion : Option Bytes)
    (rejects : List Reject) : Prop :=
  ∃ bytes, c.encode (.ends ⟨dtid, portion, rejectPortion rejects⟩) = .ok bytes ∧
    bytes.length ≤ bound

theorem wrapMsu_ok_iff {c : Codec} {message : TcapMessage} {a : Addressing} :
    (∃ msu, wrapMsu c message a = .ok msu) ↔
      ∃ bytes, c.encode message = .ok bytes ∧ Unitdata c a bytes := by
  unfold wrapMsu Unitdata
  cases c.encode message with
  | error text => simp
  | ok bytes =>
    dsimp only
    constructor
    · rintro ⟨msu, hmsu⟩
      refine ⟨bytes, rfl, ?_⟩
      split at hmsu
      · cases hmsu
      · rename_i payload hpayload
        exact ⟨payload, hpayload⟩
    · rintro ⟨bytes', hbytes, payload, hpayload⟩
      obtain rfl := Except.ok.inj hbytes
      cases hform : a.form <;> rw [hform] at hpayload <;> dsimp only at hpayload ⊢ <;>
        rw [hpayload] <;> exact ⟨_, rfl⟩

namespace Dialogue

variable {c : Codec} {config : Config} {d : Dialogue} {a : Addressing}

/-- A dialogue in which the handler stages nothing. -/
structure Plain (a : Addressing) (ac : List ℕ) (d : Dialogue) : Prop where
  pending : d.pending = []
  unknown : d.opening = true → d.peerTid = []
  addressing : d.addressing = a
  ac : d.ac = ac

theorem abortAs_plain {ac : List ℕ} (h : Plain a ac d) (reason : CloseReason) :
    Plain a ac (d.abortAs c reason).2 := by
  rcases abortAs_cases (c := c) d reason with ⟨-, heq⟩ | ⟨-, -, heq⟩ | ⟨-, -, heq⟩
  · rw [heq]
    exact h
  · rw [heq]
    exact ⟨rfl, h.unknown, h.addressing, h.ac⟩
  · rw [heq]
    unfold emit
    split <;> exact ⟨rfl, h.unknown, h.addressing, h.ac⟩

theorem flush_plain {ac : List ℕ} (h : Plain a ac d) (closing : Bool) (now : ℕ) :
    Plain a ac (d.flush c closing now).2 := by
  rcases flush_cases (c := c) d closing now with
    ⟨-, heq⟩ | ⟨-, -, -, heq⟩ | ⟨-, -, ⟨e, -, heq⟩ | ⟨msu, -, heq⟩⟩
  · rw [heq]
    exact h
  · rw [heq]
    exact ⟨h.pending, h.unknown, h.addressing, h.ac⟩
  · rw [heq]
    exact ⟨rfl, h.unknown, h.addressing, h.ac⟩
  · rw [heq]
    exact ⟨rfl, fun hopening => by simp [opening] at hopening, h.addressing, h.ac⟩

theorem Plain.act {ac : List ℕ} (h : Plain a ac d) {act : Act} (hallowed : d.allowed act = true)
    (hstages : act.stages = false) : Plain a ac (d.act c act) := by
  cases act with
  | call call =>
    cases call with
    | send now =>
      have hflush := flush_plain (c := c) h false now
      simp only [Dialogue.act, Dialogue.call, send]
      split <;> rename_i heq <;> rwa [heq] at hflush
    | sendEnd => exact flush_plain h true 0
    | abort => exact abortAs_plain h .aborted
    | discardStaged => exact ⟨rfl, h.unknown, h.addressing, h.ac⟩
    | setIdleTimeout timeout => exact ⟨h.pending, h.unknown, h.addressing, h.ac⟩
    | _ => cases hstages
  | abortAs reason => exact abortAs_plain h reason
  | receive isEnd components rejected =>
    obtain ⟨_, _, heq⟩ := d.receive_only isEnd components rejected
    simp only [Dialogue.act]
    rw [heq]
    exact ⟨h.pending, h.unknown, h.addressing, h.ac⟩
  | learn tid =>
    -- The peer's id is learned once our Begin is sent.
    have hsent : d.opening = false := by
      simp only [allowed, Bool.and_eq_true, Bool.not_eq_true'] at hallowed
      exact hallowed.2
    simp only [Dialogue.act]
    split_ifs
    · refine ⟨h.pending, fun hopening => ?_, h.addressing, h.ac⟩
      change d.opening = true at hopening
      rw [hsent] at hopening
      cases hopening
    · exact h
  | blame invokeId op =>
    simp only [Dialogue.act]
    split_ifs
    · exact ⟨h.pending, h.unknown, h.addressing, h.ac⟩
    · exact h
  | _ => exact ⟨h.pending, h.unknown, h.addressing, h.ac⟩

/-- Ending an open dialogue with nothing staged succeeds just where the End with the Rejects can
be put in a unitdata. -/
theorem Plain.sendEnd_iff {ac : List ℕ} (h : Plain a ac d) (hopen : d.closed = none)
    (hpeer : d.peerTid ≠ []) : (d.sendEnd c).1 = .ok () ↔ ∃ bytes, c.encode (.ends ⟨d.peerTid,
      if d.aarePending then c.aareAccept ac else none, rejectPortion d.rejects⟩) = .ok bytes ∧
        Unitdata c a bytes := by
  have hopening : d.opening = false := by
    rw [← Bool.not_eq_true]
    exact fun hopening => hpeer (h.unknown hopening)
  have hleg : d.leg c true = .ends ⟨d.peerTid,
      if d.aarePending then c.aareAccept ac else none, rejectPortion d.rejects⟩ := by
    simp [leg, hopening, h.pending, h.ac, rejectPortion]
  rw [← hleg, ← wrapMsu_ok_iff, ← h.addressing]
  unfold sendEnd
  rcases flush_cases (c := c) d true 0 with
    ⟨hclosed, -⟩ | ⟨-, -, hnone, -⟩ | ⟨-, -, ⟨e, hwrap, heq⟩ | ⟨msu, hwrap, heq⟩⟩
  · simp [hopen] at hclosed
  · exact absurd hnone hpeer
  · rw [heq, hwrap]
    simp
  · rw [heq, hwrap]
    simp

/-- In every run in which the handler stages nothing, an open dialogue of which the peer is known
can be ended just where the End with the Rejects kept for the peer's components is within the bound
of the unitdata. It is if no more of them are kept than are known to fit. -/
theorem endable_iff (c : Codec) (config : Config) (serial : ℕ) (role : Role) (ourTid peerTid : Tid)
    (ac : List ℕ) (replyInvokeId : InvokeId) (addressing : Addressing) (bound : ℕ)
    (hrole : role = .initiator → peerTid = [])
    (hsccp : ∀ data, Unitdata c addressing data ↔ data.length ≤ bound) (acts : List Act)
    (hacts : Machine.Along (act c) (fun d act => d.allowed act = true ∧ act.stages = false)
      (new serial role ourTid peerTid ac replyInvokeId addressing config) acts) :
    let d := Machine.run (act c)
      (new serial role ourTid peerTid ac replyInvokeId addressing config) acts
    d.closed = none → d.peerTid ≠ [] →
      ((d.sendEnd c).1 = .ok () ↔ EndFits c bound d.peerTid
        (if d.aarePending then c.aareAccept ac else none) d.rejects) ∧
      ∀ most, (∀ portion ∈ [none, c.aareAccept ac], ∀ rejects : List Reject,
        rejects.length ≤ most → EndFits c bound d.peerTid portion rejects) →
        d.rejects.length ≤ most → (d.sendEnd c).1 = .ok () := by
  intro d hopen hpeer
  have hplain : Plain addressing ac d := by
    refine Machine.run_invariant (P := Plain addressing ac) (fun d act h hact => ?_) ?_ hacts
    · exact h.act hact.1 hact.2
    · refine ⟨rfl, fun hopening => ?_, rfl, rfl⟩
      simp only [opening, new, Bool.and_eq_true] at hopening
      exact hrole (of_decide_eq_true hopening.1)
  have hiff : (d.sendEnd c).1 = .ok () ↔ EndFits c bound d.peerTid
      (if d.aarePending then c.aareAccept ac else none) d.rejects := by
    rw [hplain.sendEnd_iff hopen hpeer]
    simp only [hsccp, EndFits]
  refine ⟨hiff, fun most hfits hmost => hiff.mpr (hfits _ ?_ _ hmost)⟩
  split_ifs <;> simp

end Dialogue

/-! ## The bounded codec -/

theorem problemOctets_length (problem : Problem) : (problemOctets problem).length = 3 := by
  unfold problemOctets
  split <;> rfl

theorem rejectOctets_length (r : Reject) : (rejectOctets r).length ≤ 8 := by
  unfold rejectOctets
  split <;> simp [problemOctets_length]

theorem rejectsOctets_length (rejects : List Reject) :
    ∃ octets, rejectsOctets (rejects.map .reject) = some octets ∧
      octets.length ≤ 8 * rejects.length := by
  induction rejects with
  | nil => exact ⟨[], rfl, le_rfl⟩
  | cons r rest ih =>
    obtain ⟨octets, heq, hlength⟩ := ih
    refine ⟨rejectOctets r ++ octets, ?_, ?_⟩
    · simp [rejectsOctets, heq]
    · have hfirst := rejectOctets_length r
      simp only [List.length_append, List.length_cons]
      omega

theorem lengthOctets_length (n : ℕ) : (lengthOctets n).length ≤ 3 := by
  unfold lengthOctets
  split_ifs <;> simp

/-- Twenty Rejects fit. -/
theorem boundedCodec_fits {dtid : Tid} (hdtid : dtid.length ≤ 4) {rejects : List Reject}
    (h : rejects.length ≤ 20) : EndFits boundedCodec 254 dtid none rejects := by
  have hrejects : ∃ octets, rejectsOctets ((rejectPortion rejects).getD []) = some octets ∧
      octets.length ≤ 160 := by
    obtain ⟨octets, heq, hlength⟩ := rejectsOctets_length rejects
    refine ⟨octets, ?_, by omega⟩
    unfold rejectPortion
    split_ifs with hempty
    · rw [List.isEmpty_iff] at hempty
      rw [← heq, hempty]
      rfl
    · exact heq
  obtain ⟨octets, heq, hlength⟩ := hrejects
  unfold EndFits boundedCodec answerOctets
  simp only [heq]
  refine ⟨_, rfl, ?_⟩
  have hinner := lengthOctets_length octets.length
  split_ifs <;> simp only [idOctets, List.length_cons, List.length_append, List.length_nil,
    Option.getD_none] <;> grind [lengthOctets_length]

theorem boundedCodec_unitdata (data : Bytes) :
    Unitdata boundedCodec answering.addressing data ↔ data.length ≤ 254 := by
  unfold Unitdata boundedCodec
  change (∃ payload, (if data.length ≤ 254 then _ else _) = Except.ok payload) ↔ _
  split_ifs with hlength
  · exact ⟨fun _ => hlength, fun _ => ⟨_, rfl⟩⟩
  · constructor
    · rintro ⟨payload, heq⟩
      cases heq
    · exact fun h => absurd h hlength

namespace Dialogue

/-- Three Rejects are kept, and the dialogue can be ended. -/
theorem endable_of_three_rejects :
    ((answering.act boundedCodec (.receive false (strayResults 3) none)).sendEnd boundedCodec).1 =
      .ok () :=
  ((endable_iff boundedCodec ⟨15000, 30000, 10⟩ 1 .responder [0x80, 0, 0, 1] [0, 0, 0, 5] [] 1
    answering.addressing 254 (by decide) boundedCodec_unitdata
    [.receive false (strayResults 3) none] ⟨⟨by decide +kernel, rfl⟩, trivial⟩
    (by decide +kernel) (by decide +kernel)).2 20
    (by
      intro portion hportion rejects hrejects
      have hnone : portion = none := by simpa [boundedCodec, shortCodec] using hportion
      rw [hnone]
      exact boundedCodec_fits (by decide +kernel) hrejects)
    (by decide +kernel))

/-- A Continue with forty results of invokes that were never made, and the dialogue cannot be ended
any more, though twenty Rejects would fit in the End. -/
theorem forty_rejects_cannot_end :
    ¬ ∀ (c : Codec) (config : Config) (serial : ℕ) (role : Role) (ourTid peerTid : Tid)
      (ac : List ℕ) (replyInvokeId : InvokeId) (addressing : Addressing) (bound most : ℕ),
      (role = .initiator → peerTid = []) →
      (∀ data, Unitdata c addressing data ↔ data.length ≤ bound) →
      (∀ dtid : Tid, dtid.length ≤ 4 → ∀ portion ∈ [none, c.aareAccept ac],
        ∀ rejects : List Reject, rejects.length ≤ most → EndFits c bound dtid portion rejects) →
      1 ≤ most → ∀ acts : List Act,
      Machine.Along (act c) (fun d act => d.allowed act = true ∧ act.stages = false)
        (new serial role ourTid peerTid ac replyInvokeId addressing config) acts →
      let d := Machine.run (act c)
        (new serial role ourTid peerTid ac replyInvokeId addressing config) acts
      d.closed = none → d.peerTid ≠ [] → (d.sendEnd c).1 = .ok () := by
  intro hall
  have hended := hall boundedCodec ⟨15000, 30000, 10⟩ 1 .responder [0x80, 0, 0, 1] [0, 0, 0, 5] [] 1
    answering.addressing 254 20 (by decide) boundedCodec_unitdata
    (by
      intro dtid hdtid portion hportion rejects hrejects
      have hnone : portion = none := by simpa [boundedCodec, shortCodec] using hportion
      rw [hnone]
      exact boundedCodec_fits hdtid hrejects)
    (by decide) [.receive false (strayResults 40) none] ⟨⟨by decide +kernel, rfl⟩, trivial⟩
    (by decide +kernel) (by decide +kernel)
  revert hended
  decide +kernel

end Dialogue

end SiphonSigtran.Tcap
