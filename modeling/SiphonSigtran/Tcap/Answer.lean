import SiphonSigtran.Tcap.Lane

/-!
# The answer to a Begin

Whatever a Begin contains and whatever its handler does, the peer hears of its transaction:
the dialogue is stored, or the last thing sent is an Abort or an End.
-/

namespace SiphonSigtran.Tcap

open Lib

variable {c : Codec} {a : Addressing} {otid : Tid}

/-- A Begin that was read, at least up to a component that could not be. -/
def begun (c : Codec) (data : Bytes) : Option (Begin × Option Rejected) :=
  match c.decodeDetailed data with
  | .complete (.begins b) => some (b, none)
  | .problem ⟨.component invokeId general, some (.begins b), _, reject, _⟩ =>
    some (b, some ⟨invokeId, .general general, reject⟩)
  | _ => none

/-- The dialogue of a Begin, with its components received. -/
def Engine.received (e : Engine) (b : Begin) (rejected : Option Rejected) (ac : List ℕ)
    (replyTo : Addressing) : List PeerComponent × Dialogue :=
  (Dialogue.new (e.allocated + 1) .responder e.allocTid.1 b.otid ac 0 replyTo e.config).receive
    false (b.components.getD []) rejected

/-- The messages with which the engine itself answers a Begin. -/
inductive OwnAnswer (c : Codec) (e : Engine) (b : Begin) (rejected : Option Rejected)
    (replyTo : Addressing) : TcapMessage → Prop
  | full : OwnAnswer c e b rejected replyTo (.aborts (.pAbort b.otid .resourceLimitation))
  | refused {information : Bytes} (h : offeredContext c b = .error information) :
    OwnAnswer c e b rejected replyTo (.aborts (.uAbort b.otid (some information)))
  | aborted {ac : Option (List ℕ)} (h : offeredContext c b = .ok ac) :
    OwnAnswer c e b rejected replyTo (.aborts (.uAbort b.otid
      (if (ac.getD []).isEmpty then none else some (c.abrt .dialogueServiceUser))))
  | rejects {ac : Option (List ℕ)} (h : offeredContext c b = .ok ac) :
    OwnAnswer c e b rejected replyTo ((e.received b rejected (ac.getD []) replyTo).2.leg c true)

/-- An MSU that carries a message of the transaction to the peer. -/
def Carries (c : Codec) (a : Addressing) (otid : Tid) (message : TcapMessage) (msu : Msu) : Prop :=
  wrapMsu c message a = .ok msu ∧ message.dtid = some otid

def TcapMessage.closes : TcapMessage → Bool
  | .ends _ | .aborts _ => true
  | _ => false

/-- What is sent tells the peer of the transaction, and of its end if it ended. -/
structure Informs (c : Codec) (a : Addressing) (otid : Tid) (closed : Bool) (out : List Msu) :
    Prop where
  carried : ∀ msu ∈ out, ∃ message, Carries c a otid message msu
  last : closed = true →
    ∃ msu message, out.getLast? = some msu ∧ Carries c a otid message msu ∧ message.closes = true

namespace Informs

theorem append {closed : Bool} {out : List Msu} (h : Informs c a otid closed out) {msu : Msu}
    {message : TcapMessage} (hmsu : Carries c a otid message msu) :
    Informs c a otid message.closes (out ++ [msu]) where
  carried x hx := by
    rcases List.mem_append.mp hx with hx | hx
    · exact h.carried x hx
    · obtain rfl := List.mem_singleton.mp hx
      exact ⟨message, hmsu⟩
  last hclosed := ⟨msu, message, by simp, hmsu, hclosed⟩

theorem nil : Informs c a otid false [] := ⟨by simp, fun h => absurd h Bool.false_ne_true⟩

theorem single {msu : Msu} {message : TcapMessage} (hmsu : Carries c a otid message msu) :
    Informs c a otid message.closes [msu] := nil.append hmsu

theorem ne_nil {out : List Msu} (h : Informs c a otid true out) : out ≠ [] := by
  obtain ⟨msu, message, hlast, -⟩ := h.last rfl
  rintro rfl
  cases hlast

end Informs

/-- The answer to a Begin: something is sent, all of it to the peer, and where no dialogue is
stored the last of it ends the transaction. -/
def Answered (c : Codec) (a : Addressing) (otid : Tid) (e : Engine) (answer : List Msu × Engine) :
    Prop :=
  answer.1 ≠ [] ∧ (∀ msu ∈ answer.1, ∃ message, Carries c a otid message msu) ∧
  (count Event.isStored answer.2.log = count Event.isStored e.log →
    ∃ msu message, answer.1.getLast? = some msu ∧ Carries c a otid message msu ∧
      message.closes = true)

theorem Answered.of_count {e e' : Engine} {answer : List Msu × Engine}
    (h : Answered c a otid e' answer)
    (hcount : count Event.isStored e'.log = count Event.isStored e.log) :
    Answered c a otid e answer :=
  ⟨h.1, h.2.1, fun hsame => h.2.2 (hsame.trans hcount.symm)⟩

theorem Informs.answered {out : List Msu} (h : Informs c a otid true out) (e e' : Engine) :
    Answered c a otid e (out, e') :=
  ⟨h.ne_nil, h.carried, fun _ => h.last rfl⟩

/-! ## A dialogue that answers -/

/-- A dialogue that the peer began, and what it has sent. -/
structure Answering (c : Codec) (a : Addressing) (otid : Tid) (ac : List ℕ) (d : Dialogue) :
    Prop where
  role : d.role = .responder
  addressing : d.addressing = a
  peerTid : d.peerTid = otid
  ac : d.ac = ac
  informs : Informs c a otid d.closed.isSome d.out

namespace Answering

variable {ac : List ℕ} {d : Dialogue}

theorem flush (h : Answering c a otid ac d) (closing : Bool) (now : ℕ) :
    Answering c a otid ac (d.flush c closing now).2 := by
  rcases d.flush_cases (c := c) closing now with
    ⟨-, heq⟩ | ⟨-, -, -, heq⟩ | ⟨-, -, ⟨e, -, heq⟩ | ⟨msu, hwrap, heq⟩⟩
  · rw [heq]
    exact h
  · rw [heq]
    exact ⟨h.role, h.addressing, h.peerTid, h.ac, h.informs⟩
  · rw [heq]
    exact ⟨h.role, h.addressing, h.peerTid, h.ac, h.informs⟩
  · rw [heq]
    refine ⟨h.role, h.addressing, h.peerTid, h.ac, ?_⟩
    have hopening : d.opening = false := by simp [Dialogue.opening, h.role]
    rw [h.addressing] at hwrap
    have hmessage : (d.leg c closing).dtid = some otid ∧ (d.leg c closing).closes = closing := by
      cases closing <;> simp
        [Dialogue.leg, hopening, h.peerTid, TcapMessage.dtid, TcapMessage.closes]
    have hsent := h.informs.append ⟨hwrap, hmessage.1⟩
    rw [hmessage.2] at hsent
    cases closing <;> exact hsent

/-- The Abort of a dialogue, which has to encode. -/
theorem abortAs (h : Answering c a otid ac d) (hotid : otid ≠ [])
    (hencodes : ∃ msu, wrapMsu c (.aborts (.uAbort otid
      (if ac.isEmpty then none else some (c.abrt .dialogueServiceUser)))) a = .ok msu)
    (reason : CloseReason) : Answering c a otid ac (d.abortAs c reason).2 ∧
      (d.abortAs c reason).2.closed.isSome = true := by
  obtain ⟨msu, hmsu⟩ := hencodes
  rcases d.abortAs_cases (c := c) reason with ⟨hclosed, heq⟩ | ⟨-, hpeer, -⟩ | ⟨hclosed, -, heq⟩
  · rw [heq]
    exact ⟨h, hclosed⟩
  · exact absurd (h.peerTid.symm.trans hpeer) hotid
  · have hwrap : wrapMsu c (.aborts (.uAbort d.peerTid
        (if d.ac.isEmpty then none else some (c.abrt .dialogueServiceUser))))
        (d.dropped reason).addressing = .ok msu := by
      rw [h.peerTid, h.ac]
      exact (congrArg _ h.addressing).trans hmsu
    have hcarries : Carries c a otid (.aborts (.uAbort otid
        (if ac.isEmpty then none else some (c.abrt .dialogueServiceUser)))) msu := ⟨hmsu, rfl⟩
    have hsent := h.informs.append hcarries
    rw [heq]
    unfold Dialogue.emit
    rw [hwrap]
    exact ⟨⟨h.role, h.addressing, h.peerTid, h.ac, hsent⟩, rfl⟩

theorem call (h : Answering c a otid ac d) (hotid : otid ≠ [])
    (hencodes : ∃ msu, wrapMsu c (.aborts (.uAbort otid
      (if ac.isEmpty then none else some (c.abrt .dialogueServiceUser)))) a = .ok msu)
    (call : Call) : Answering c a otid ac (d.call c call).1 := by
  cases call with
  | invokeWith op argument opClass timeout =>
    obtain ⟨_, _, _, heq⟩ := d.invokeWith_only op argument opClass timeout
    rw [Dialogue.call_invokeWith, heq]
    exact ⟨h.role, h.addressing, h.peerTid, h.ac, h.informs⟩
  | send now =>
    have hsent := h.flush false now
    unfold Dialogue.call Dialogue.send
    dsimp only
    split <;> rename_i heq <;> rwa [heq] at hsent
  | sendEnd => exact h.flush true 0
  | abort => exact (h.abortAs hotid hencodes .aborted).1
  | _ => exact ⟨h.role, h.addressing, h.peerTid, h.ac, h.informs⟩

theorem calls (h : Answering c a otid ac d) (hotid : otid ≠ [])
    (hencodes : ∃ msu, wrapMsu c (.aborts (.uAbort otid
      (if ac.isEmpty then none else some (c.abrt .dialogueServiceUser)))) a = .ok msu)
    (script : List Call) : Answering c a otid ac (d.calls c script).1 := by
  induction script generalizing d with
  | nil => exact h
  | cons call rest ih => exact ih (h.call hotid hencodes call)

/-- The End with which the engine refuses a dialogue. -/
theorem sendEnd (h : Answering c a otid ac d) (hotid : otid ≠ []) (hopen : d.closed = none)
    (hencodes : ∃ msu, wrapMsu c (d.leg c true) a = .ok msu) :
    Informs c a otid true (d.sendEnd c).2.out := by
  obtain ⟨msu, hmsu⟩ := hencodes
  have hsent := (h.flush true 0).informs
  have hclosed : (d.flush c true 0).2.closed.isSome = true := by
    rcases d.flush_cases (c := c) true 0 with
      ⟨hsome, -⟩ | ⟨-, -, hpeer, -⟩ | ⟨-, -, ⟨e, hwrap, -⟩ | ⟨msu', -, heq⟩⟩
    · simp [hopen] at hsome
    · exact absurd (h.peerTid.symm.trans hpeer) hotid
    · rw [h.addressing, hmsu] at hwrap
      cases hwrap
    · rw [heq]
      rfl
  rw [hclosed] at hsent
  exact hsent

/-- The turn in which a dialogue is given to its handler answers the peer. -/
theorem finishTurn (h : Answering c a otid ac d) (hotid : otid ≠ [])
    (hencodes : ∃ msu, wrapMsu c (.aborts (.uAbort otid
      (if ac.isEmpty then none else some (c.abrt .dialogueServiceUser)))) a = .ok msu)
    (e : Engine) (handler : Handler) (assoc : String) (lastActivity now : ℕ) :
    Answered c a otid e (e.finishTurn c d handler assoc .begins lastActivity now) := by
  obtain ⟨haborted, hended⟩ := h.abortAs hotid hencodes .noAnswer
  have hinforms := h.informs
  unfold Engine.finishTurn
  by_cases hsilent : d.closed.isNone ∧ d.out.isEmpty
  · obtain ⟨reason, hreason⟩ := Option.isSome_iff_exists.mp hended
    have hlast := haborted.informs
    rw [hended] at hlast
    simp only [hsilent, and_self, ↓reduceIte, hreason]
    exact hlast.answered e _
  · simp only [true_and, hsilent, ↓reduceIte]
    cases hclosed : d.closed with
    | some reason =>
      rw [hclosed] at hinforms
      exact Informs.answered hinforms e _
    | none =>
      have hsent : d.out ≠ [] := by
        intro hempty
        exact hsilent ⟨by simp [hclosed], by simp [hempty]⟩
      refine ⟨hsent, hinforms.carried, fun hcount => ?_⟩
      rw [Engine.store, count_note] at hcount
      simp [Event.isStored] at hcount

end Answering

/-! ## Every exit -/

theorem onBegin_answered {e : Engine} {b : Begin} {rejected : Option Rejected}
    (hotid : b.otid ≠ [])
    (hanswer : ∀ message, OwnAnswer c e b rejected a message → ∃ msu, wrapMsu c message a = .ok msu)
    (udt : UnitData) (assoc : String) (script : List Call) (now : ℕ) :
    Answered c a b.otid e (e.onBegin c b rejected a udt assoc script now) := by
  have habort : ∀ abort : Abort, abort.dtid = b.otid →
      OwnAnswer c e b rejected a (.aborts abort) →
      ∀ e', Answered c a b.otid e (sendAbort c abort a, e') := by
    intro abort hdtid hown e'
    obtain ⟨msu, hmsu⟩ := hanswer _ hown
    rw [sendAbort, hmsu]
    exact (Informs.single ⟨hmsu, congrArg some hdtid⟩).answered e e'
  unfold Engine.onBegin
  split_ifs with hfull
  · exact habort _ rfl .full e
  cases hoffered : offeredContext c b with
  | error information => exact habort _ rfl (.refused hoffered) e
  | ok ac =>
    have hencodes := hanswer _ (.aborted hoffered)
    have hends := hanswer _ (.rejects hoffered)
    have hreceived : Answering c a b.otid (ac.getD [])
        (e.received b rejected (ac.getD []) a).2 ∧
        (e.received b rejected (ac.getD []) a).2.closed = none := by
      obtain ⟨_, _, heq⟩ := (Dialogue.new (e.allocated + 1) .responder e.allocTid.1 b.otid
        (ac.getD []) 0 a e.config).receive_only false (b.components.getD []) rejected
      rw [Engine.received, heq]
      exact ⟨⟨rfl, rfl, rfl, rfl, Informs.nil⟩, rfl⟩
    dsimp only
    generalize hread : Dialogue.receive _ false (b.components.getD []) rejected = received
    have hsame : e.received b rejected (ac.getD []) a = received := hread
    rw [hsame] at hends hreceived
    obtain ⟨hturn, hopen⟩ := hreceived
    have haborted : ∀ d, Answering c a b.otid (ac.getD []) d →
        Answered c a b.otid e ((d.abort c).2.out, e.allocTid.2) := by
      intro d hd
      obtain ⟨hsent, hclosed⟩ := hd.abortAs hotid hencodes .aborted
      have hlast := hsent.informs
      rw [hclosed] at hlast
      exact hlast.answered e _
    cases hfirst : received.1.findIdx? PeerComponent.dispatchable with
    | none =>
      dsimp only
      split_ifs
      · exact (hturn.sendEnd hotid hopen hends).answered e _
      · exact haborted _ hturn
    | some first =>
      obtain ⟨hlt, hdispatchable, -⟩ := List.findIdx?_eq_some_iff_getElem.mp hfirst
      dsimp only
      rw [List.getElem?_eq_getElem hlt]
      cases hinvoke : received.1[first] with
      | invoke invokeId op argument =>
        dsimp only
        have hgiven : Answering c a b.otid (ac.getD [])
            { received.2 with replyInvokeId := invokeId } :=
          ⟨hturn.role, hturn.addressing, hturn.peerTid, hturn.ac, hturn.informs⟩
        cases e.allocTid.2.handlerOf (udt.calledParty.ssn.getD 0) op with
        | none => exact haborted _ hgiven
        | some handler =>
          have hcalled := hgiven.calls hotid hencodes script
          refine (hcalled.finishTurn hotid hencodes _ handler assoc now now).of_count ?_
          rw [Engine.callback, count_note, List.countP_cons]
          have hnone : ((Dialogue.calls c { received.2 with replyInvokeId := invokeId }
              script).2).countP Event.isStored = 0 := by
            rw [List.countP_eq_zero]
            intro event hevent
            have hcall := Dialogue.calls_events _ script event hevent
            cases event <;> simp_all [Event.ofCall, Event.isStored]
          rw [hnone]
          rfl
      | _ =>
        rw [hinvoke] at hdispatchable
        cases hdispatchable

theorem wrapMsu_label {message : TcapMessage} {msu : Msu} (h : wrapMsu c message a = .ok msu) :
    msu.opc = a.opc ∧ msu.dpc = a.dpc ∧ msu.ni = a.ni ∧ msu.sls = a.sls := by
  unfold wrapMsu at h
  cases hencode : c.encode message with
  | error text =>
    rw [hencode] at h
    cases h
  | ok bytes =>
    rw [hencode] at h
    dsimp only at h
    split at h
    · cases h
    · obtain rfl := Except.ok.inj h
      exact ⟨rfl, rfl, rfl, rfl⟩

/-- The unitdata in an SCCP message, whatever its hop counter. -/
def unitdataIn : SccpMessage → Option (UnitData × UnitdataForm)
  | .udt udt => some (udt, .udt)
  | .xudt xudt => some (xudtAsUnitdata xudt, .xudt)
  | .other _ => none

/-- The short messages in an XUDT to a global title that leads to one of our subsystems. -/
def extendedCodec : Codec :=
  { shortCodec with
    decodeSccp := fun payload =>
      match payload with
      | 0x11 :: 0x00 :: hops :: 0x04 :: 0x0A :: 0x0C :: 0x00 :: 0x06 :: 0x12 :: called :: 0x00 ::
          0x11 :: 0x04 :: 0x21 :: 0x02 :: 0x42 :: calling :: _ :: data =>
        some (.xudt ⟨⟨false, some called.toNat, some "12"⟩, ⟨true, some calling.toNat, none⟩, data,
          hops.toNat, 0, []⟩)
      | _ => none
    encodeXudt := fun called calling data =>
      match called, calling with
      | ⟨true, some called, none⟩, ⟨false, some calling, some "12"⟩ =>
        .ok ([0x11, 0x00, 0x0F, 0x04, 0x06, 0x0C, 0x00, 0x02, 0x42, .ofNat called, 0x06, 0x12,
          .ofNat calling, 0x00, 0x11, 0x04, 0x21, .ofNat data.length] ++ data)
      | _, _ => .error "not from that global title to a subsystem" }

end SiphonSigtran.Tcap
