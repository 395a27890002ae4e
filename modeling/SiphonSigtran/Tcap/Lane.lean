import Mathlib.Data.Nat.Prime.Basic
import SiphonSigtran.Tcap.Closing

/-!
# The lane of a message

Messages and timers of dialogues run on lanes, by a hash of the transaction id. The lane of
a message is read with the strict decoder, and the engine acts on what the lenient one
understands: where a message is damaged, it is on no dialogue's lane.
-/

namespace SiphonSigtran.Tcap

open Lib

/-- One octet of FNV-1a. -/
def laneStep (hash : UInt64) (byte : UInt8) : UInt64 :=
  (hash ^^^ byte.toUInt64) * 0x00000100000001b3

/-- The lane of a dialogue by the transaction id that keys it. -/
def tidLane (tid : Tid) : UInt64 := tid.foldl laneStep 0xcbf29ce484222325

/-- The lane an inbound MSU belongs on. -/
def dialogueLane (c : Codec) (inbound : Msu) : UInt64 :=
  if inbound.si ≠ siSccp then 0
  else
    let data := match c.decodeSccp inbound.payload with
      | some (.udt udt) => some udt.data
      | some (.xudt xudt) => some xudt.data
      | _ => none
    match data.bind c.decode with
    | some (.begins b) => tidLane b.otid
    | some (.continues m) => tidLane m.dtid
    | some (.ends m) => tidLane m.dtid
    | some (.aborts a) => tidLane a.dtid
    | _ => 0

/-! ## No id of the engine is on lane 0 by its hash -/

/-- The low 40 bits of a hash, of which the prime is only 435. -/
def lowBits (hash : UInt64) : ℕ := hash.toNat % 2 ^ 40

theorem lowBits_step (hash : UInt64) (byte : UInt8) :
    lowBits (laneStep hash byte) = ((lowBits hash ^^^ byte.toNat) * 435) % 2 ^ 40 := by
  have hbyte : byte.toNat % 2 ^ 40 = byte.toNat :=
    Nat.mod_eq_of_lt (byte.toNat_lt.trans (by decide))
  have hprime : (0x00000100000001b3 : UInt64).toNat % 2 ^ 40 = 435 % 2 ^ 40 := by decide
  rw [lowBits, laneStep, UInt64.toNat_mul, UInt64.toNat_xor, UInt8.toNat_toUInt64,
    Nat.mod_mod_of_dvd _ (pow_dvd_pow 2 (by decide)), Nat.mul_mod, hprime, ← Nat.mul_mod,
    Nat.mul_mod, Nat.xor_mod_two_pow, hbyte, ← lowBits]
  rw [Nat.mul_mod, Nat.mod_mod, ← Nat.mul_mod]

theorem xor_octet (n : ℕ) (byte : UInt8) :
    n ≤ (n ^^^ byte.toNat) + 255 ∧ (n ^^^ byte.toNat) ≤ n + 255 := by
  have hbyte := byte.toNat_lt
  have hdiv : (n ^^^ byte.toNat) / 2 ^ 8 = n / 2 ^ 8 := by
    rw [Nat.xor_div_two_pow, Nat.div_eq_of_lt hbyte, Nat.xor_zero]
  omega

/-- An octet takes a hash from one interval to another, where nothing wraps. -/
theorem lowBits_interval {hash : UInt64} {low width low' : ℕ} (byte : UInt8) (turns : ℕ)
    (h : low ≤ lowBits hash ∧ lowBits hash ≤ low + width)
    (hlow : 435 * (low - 255) = turns * 2 ^ 40 + low') (hpos : 255 ≤ low)
    (hfit : low' + 435 * (width + 510) < 2 ^ 40) :
    low' ≤ lowBits (laneStep hash byte) ∧
      lowBits (laneStep hash byte) ≤ low' + 435 * (width + 510) := by
  obtain ⟨hbelow, habove⟩ := xor_octet (lowBits hash) byte
  rw [lowBits_step]
  generalize lowBits hash ^^^ byte.toNat = mixed at hbelow habove
  obtain ⟨k, rfl⟩ : ∃ k, mixed = (low - 255) + k := ⟨mixed - (low - 255), by omega⟩
  have hk : k ≤ width + 510 := by omega
  have hmul : 435 * k ≤ 435 * (width + 510) := Nat.mul_le_mul_left 435 hk
  have hwrap : (low - 255 + k) * 435 = low' + 435 * k + 2 ^ 40 * turns := by
    rw [Nat.add_mul, Nat.mul_comm (low - 255), hlow]
    omega
  rw [hwrap, Nat.add_mul_mod_self_left, Nat.mod_eq_of_lt (lt_of_le_of_lt (by omega) hfit)]
  omega

/-- The hash of four octets is not zero. -/
theorem tidLane_ne_zero {tid : Tid} (h : tid.length = 4) : tidLane tid ≠ 0 := by
  obtain ⟨a, b, c, d, rfl⟩ : ∃ a b c d, tid = [a, b, c, d] := by
    match tid, h with
    | [a, b, c, d], _ => exact ⟨a, b, c, d, rfl⟩
  have hstart : 981469373221 ≤ lowBits 0xcbf29ce484222325 ∧
      lowBits 0xcbf29ce484222325 ≤ 981469373221 + 0 := by decide
  have hfirst := lowBits_interval a 388 hstart
    (show 435 * (981469373221 - 255) = 388 * 2 ^ 40 + 328665663122 by decide)
    (by decide) (by decide)
  have hsecond := lowBits_interval b 130 hfirst
    (show 435 * (328665663122 - 255) = 130 * 2 ^ 40 + 33051736265 by decide)
    (by decide) (by decide)
  have hthird := lowBits_interval c 13 hsecond
    (show 435 * (33051736265 - 255) = 13 * 2 ^ 40 + 83854003262 by decide)
    (by decide) (by decide)
  intro hzero
  have hlast : lowBits (tidLane [a, b, c, d]) = 0 := by rw [hzero]; decide
  simp only [tidLane, List.foldl_cons, List.foldl_nil] at hlast
  generalize laneStep (laneStep (laneStep 0xcbf29ce484222325 a) b) c = hash at hthird hlast
  rw [lowBits_step] at hlast
  have hfar := (xor_octet (lowBits hash) d).1
  have hlow : lowBits hash ^^^ d.toNat < 2 ^ 40 :=
    Nat.xor_lt_two_pow (Nat.mod_lt _ (by decide)) (d.toNat_lt.trans (by decide))
  have hdvd : 2 ^ 40 ∣ (lowBits hash ^^^ d.toNat) :=
    Nat.Coprime.dvd_of_dvd_mul_right (by decide) (Nat.dvd_of_mod_eq_zero hlast)
  have hnone := Nat.eq_zero_of_dvd_of_lt hdvd hlow
  omega

/-! ## What is taken -/

/-- What was noted since, and what holds of each event of it. -/
def Noted (e e' : Engine) (P : Event → Prop) : Prop :=
  ∃ entries, e'.log = e.log ++ entries ∧ ∀ x ∈ entries, P x.event

/-- The ids under which dialogues were taken out of the store since. -/
def takenIds (e e' : Engine) : List Tid :=
  (e'.log.drop e.log.length).filterMap fun x =>
    match x.event with
    | .taken tid => some tid
    | _ => none

namespace Noted

variable {e e' e'' : Engine} {P Q : Event → Prop}

theorem refl (e : Engine) : Noted e e P := ⟨[], by simp, by simp⟩

theorem trans (h : Noted e e' P) (h' : Noted e' e'' P) : Noted e e'' P := by
  obtain ⟨xs, hxs, hall⟩ := h
  obtain ⟨ys, hys, hall'⟩ := h'
  refine ⟨xs ++ ys, by rw [hys, hxs, List.append_assoc], fun x hx => ?_⟩
  rcases List.mem_append.mp hx with hx | hx
  · exact hall x hx
  · exact hall' x hx

theorem mono (hPQ : ∀ event, P event → Q event) (h : Noted e e' P) : Noted e e' Q := by
  obtain ⟨xs, hxs, hall⟩ := h
  exact ⟨xs, hxs, fun x hx => hPQ _ (hall x hx)⟩

theorem note (e : Engine) (handler : Handler) (d : Dialogue) {events : List Event}
    (h : ∀ event ∈ events, P event) : Noted e (e.note handler d events) P := by
  refine ⟨_, rfl, fun x hx => ?_⟩
  obtain ⟨event, hevent, rfl⟩ := List.mem_map.mp hx
  exact h event hevent

theorem of_taken (h : Noted e e' P) {tid : Tid} (ht : tid ∈ takenIds e e') :
    P (.taken tid) := by
  obtain ⟨entries, hlog, hall⟩ := h
  rw [takenIds, hlog, List.drop_left] at ht
  obtain ⟨x, hx, hevent⟩ := List.mem_filterMap.mp ht
  obtain ⟨s, handler, event⟩ := x
  cases event with
  | taken tid' =>
    obtain rfl := Option.some.inj hevent
    exact hall _ hx
  | _ => cases hevent

end Noted

/-- If a dialogue is taken, it is one of the store under an id of which `P` holds. -/
def TakesOnly (e e' : Engine) (P : Tid → Prop) : Prop :=
  Noted e e' fun event => ∀ tid, event = .taken tid → tid ∈ e.dialogues ∧ P tid

section TakesOnly

variable {c : Codec} {e e' : Engine} {P : Tid → Prop}

theorem TakesOnly.mono {Q : Tid → Prop} (h : TakesOnly e e' P) (hPQ : ∀ tid, P tid → Q tid) :
    TakesOnly e e' Q :=
  Noted.mono (fun _ hevent tid heq => ⟨(hevent tid heq).1, hPQ tid (hevent tid heq).2⟩) h

/-- What takes nothing. -/
theorem TakesOnly.of_quiet (h : Noted e e' fun event => event.isTaken = false) :
    TakesOnly e e' P := by
  refine h.mono fun event hquiet tid heq => ?_
  rw [heq] at hquiet
  cases hquiet

theorem take_quiet {tid : Tid} {r : Record} (hr : e.dialogues.lookup tid = some r) {e' : Engine}
    (h : Noted (e.take tid).2 e' fun event => event.isTaken = false) (hP : P tid) :
    TakesOnly e e' P := by
  have hmem : tid ∈ e.dialogues := Store.mem_of_lookup hr
  have htake : TakesOnly e (e.take tid).2 P := by
    rw [Engine.take, hr]
    refine ⟨[⟨r.dialogue.serial, r.handler, .taken tid⟩], rfl, fun x hx tid' heq => ?_⟩
    obtain rfl := List.mem_singleton.mp hx
    obtain rfl := Event.taken.inj heq
    exact ⟨hmem, hP⟩
  refine htake.trans (h.mono fun event hquiet tid' heq => ?_)
  rw [heq] at hquiet
  cases hquiet

theorem closed_quiet (e : Engine) (handler : Handler) (d : Dialogue) (reason : CloseReason) :
    Noted e (e.closed handler d reason) fun event => event.isTaken = false :=
  Noted.note e handler d (by simp [Event.isTaken])

theorem callback_quiet (e : Engine) (handler : Handler) (d : Dialogue) {event : Event}
    (hevent : event.isTaken = false) (script : List Call) :
    Noted e (e.callback c handler d event script).2 fun event => event.isTaken = false := by
  refine Noted.note e handler d fun x hx => ?_
  rcases List.mem_cons.mp hx with rfl | hx
  · exact hevent
  · have hcall := d.calls_events script x hx
    cases x <;> simp_all [Event.ofCall, Event.isTaken]

theorem finishTurn_quiet (e : Engine) (d : Dialogue) (handler : Handler) (assoc : String)
    (turn : Turn) (lastActivity now : ℕ) :
    Noted e (e.finishTurn c d handler assoc turn lastActivity now).2
      fun event => event.isTaken = false := by
  unfold Engine.finishTurn
  extract_lets d₁ frames d₂ activity
  cases d₂.closed with
  | some reason => exact closed_quiet e handler d₂ reason
  | none => exact ⟨_, rfl, by simp [Event.isTaken]⟩

theorem onAbort_takes (abort : Abort) :
    TakesOnly e (e.onAbort c abort) fun tid => abort.dtid = tid := by
  unfold Engine.onAbort
  rcases take_cases e abort.dtid with h | ⟨r, hr, h⟩
  · rw [h]
    exact Noted.refl e
  · rw [h]
    exact take_quiet hr (closed_quiet _ _ _ _) rfl

theorem onTurn_takes (ourTid : Tid) (peerOtid : Option Tid) (components : List Component)
    (rejected : Option Rejected) (isEnd : Bool) (replyTo : Addressing) (script : List Call)
    (now : ℕ) :
    TakesOnly e (e.onTurn c ourTid peerOtid components rejected isEnd replyTo script now).2
      fun tid => ourTid = tid := by
  unfold Engine.onTurn
  rcases take_cases e ourTid with h | ⟨r, hr, h⟩
  · rw [h]
    cases peerOtid <;> exact Noted.refl e
  · rw [h]
    have hturn : ∀ d peer, Noted (e.take ourTid).2
        ((e.take ourTid).2.callback c r.handler d (.continues peer) script).2
        fun event => event.isTaken = false := fun d peer => callback_quiet _ _ d rfl script
    dsimp only
    generalize Dialogue.receive _ isEnd components rejected = received
    split_ifs
    · exact take_quiet hr ((hturn _ _).trans (closed_quiet _ _ _ _)) rfl
    · exact take_quiet hr ((hturn _ _).trans (finishTurn_quiet _ _ _ _ _ _ _)) rfl

theorem onBegin_quiet (b : Begin) (rejected : Option Rejected) (replyTo : Addressing)
    (udt : UnitData) (assoc : String) (script : List Call) (now : ℕ) :
    Noted e (e.onBegin c b rejected replyTo udt assoc script now).2
      fun event => event.isTaken = false := by
  have halloc : Noted e e.allocTid.2 fun event => event.isTaken = false :=
    ⟨[], by simp [Engine.allocTid], by simp⟩
  unfold Engine.onBegin
  split_ifs
  · exact Noted.refl e
  cases offeredContext c b with
  | error information => exact Noted.refl e
  | ok ac =>
    dsimp only
    split
    · split_ifs <;> exact halloc
    · split
      · split
        · exact halloc
        · exact (halloc.trans (callback_quiet _ _ _ rfl _)).trans (finishTurn_quiet _ _ _ _ _ _ _)
      · exact halloc

theorem onMessage_takes (message : TcapMessage) (rejected : Option Rejected)
    (replyTo : Addressing) (udt : UnitData) (assoc : String) (script : List Call) (now : ℕ) :
    TakesOnly e (e.onMessage c message rejected replyTo udt assoc script now).2
      fun tid => message.dtid = some tid := by
  cases message with
  | begins b => exact .of_quiet (onBegin_quiet b rejected replyTo udt assoc script now)
  | continues m => exact (onTurn_takes _ _ _ _ _ _ _ _).mono fun _ => congrArg some
  | ends m => exact (onTurn_takes _ _ _ _ _ _ _ _).mono fun _ => congrArg some
  | aborts a => exact (onAbort_takes a).mono fun _ => congrArg some
  | unidirectional => exact Noted.refl e

theorem onProblem_takes (problem : DecodeProblem) (replyTo : Addressing) (udt : UnitData)
    (assoc : String) (script : List Call) (now : ℕ) :
    TakesOnly e (e.onProblem c problem replyTo udt assoc script now).2 fun _ => True := by
  obtain ⟨_, _, message, -, -, heq⟩ | ⟨-, heq | ⟨tid, r, reason, hr, heq⟩⟩ :=
    e.onProblem_cases c problem replyTo udt assoc script now
  · rw [heq]
    exact (onMessage_takes message _ _ _ _ _ _).mono fun _ _ => trivial
  · rw [heq]
    exact Noted.refl e
  · rw [heq]
    exact take_quiet hr (closed_quiet _ _ _ _) trivial

/-- The unitdata an inbound MSU brings to this node. -/
def unitdataOf (c : Codec) (inbound : Msu) : Option UnitData :=
  if inbound.si ≠ siSccp then none
  else (c.decodeSccp inbound.payload).bind fun message =>
    (Engine.terminated message).map Prod.fst

/-- A message that this node terminates and that the lenient decoder finds nothing wrong with. -/
def Undamaged (c : Codec) (inbound : Msu) : Prop :=
  ∃ udt message, unitdataOf c inbound = some udt ∧ c.decodeDetailed udt.data = .complete message

/-- A dialogue is taken for a whole message that names it, or for a damaged one. -/
theorem deliver_takes (inbound : Msu) (assoc : String) (script : List Call) (now : ℕ) :
    TakesOnly e (e.deliver c inbound assoc script now).2 fun tid =>
      ∃ udt, unitdataOf c inbound = some udt ∧
        ((∃ message, c.decodeDetailed udt.data = .complete message ∧ message.dtid = some tid) ∨
          ∃ problem, c.decodeDetailed udt.data = .problem problem) := by
  unfold Engine.deliver
  split_ifs with hsi
  · exact Noted.refl e
  cases hsccp : c.decodeSccp inbound.payload with
  | none => exact Noted.refl e
  | some message =>
    dsimp only
    cases hterminated : Engine.terminated message with
    | none =>
      dsimp only
      split
      · split_ifs <;> exact Noted.refl e
      · exact Noted.refl e
    | some pair =>
      obtain ⟨udt, form⟩ := pair
      have hudt : unitdataOf c inbound = some udt := by
        simp [unitdataOf, hsi, hsccp, hterminated]
      dsimp only
      cases hdecoded : c.decodeDetailed udt.data with
      | complete message =>
        exact (onMessage_takes message none _ _ _ _ _).mono fun _ htid =>
          ⟨udt, hudt, .inl ⟨message, hdecoded, htid⟩⟩
      | problem problem =>
        exact (onProblem_takes problem _ _ _ _ _).mono fun _ _ =>
          ⟨udt, hudt, .inr ⟨problem, hdecoded⟩⟩

end TakesOnly

/-! ## The two readings -/

/-- The ids of the dialogues and the keys of the store have four octets. -/
def FourOctets (R : List Held) (e : Engine) : Prop :=
  (∀ p ∈ R, p.2.ourTid.length = 4) ∧
  ∀ tid r, e.dialogues.lookup tid = some r → tid.length = 4 ∧ r.dialogue.ourTid.length = 4

theorem Move.four_octets {G : List Held → Engine → Prop} {R R' : List Held} {e e' : Engine}
    (h : Move G R e R' e') (hi : FourOctets R e) : FourOctets R' e' := by
  obtain ⟨hheld, hstored⟩ := hi
  have htail : ∀ {p : Held}, (∀ q ∈ p :: R', q.2.ourTid.length = 4) →
      ∀ q ∈ R', q.2.ourTid.length = 4 := fun hall q hq => hall q (List.mem_cons_of_mem _ hq)
  cases h with
  | alloc d hg hs ht =>
    refine ⟨fun p hp => ?_, hstored⟩
    rcases List.mem_cons.mp hp with rfl | hp
    · rw [ht]
      rfl
    · exact hheld p hp
  | discard d => exact ⟨htail hheld, hstored⟩
  | give h d d' event events hk =>
    refine ⟨fun p hp => ?_, hstored⟩
    rcases List.mem_cons.mp hp with rfl | hp
    · rw [hk.ourTid]
      exact hheld _ List.mem_cons_self
    · exact hheld p (List.mem_cons_of_mem _ hp)
  | turn h d d' events hs ht =>
    refine ⟨fun p hp => ?_, hstored⟩
    rcases List.mem_cons.mp hp with rfl | hp
    · rw [ht]
      exact hheld _ List.mem_cons_self
    · exact hheld p (List.mem_cons_of_mem _ hp)
  | take tid r hr =>
    constructor
    · intro p hp
      rcases List.mem_cons.mp hp with rfl | hp
      · exact (hstored tid r hr).2
      · exact hheld p hp
    · intro tid' r' hr'
      rw [Engine.take, hr] at hr'
      by_cases heq : tid' = tid
      · subst heq
        simp [Engine.note] at hr'
      · simp only [Engine.note, AList.lookup_erase_ne heq] at hr'
        exact hstored tid' r' hr'
  | store h d assoc activity hc =>
    have hd : d.ourTid.length = 4 := hheld _ List.mem_cons_self
    refine ⟨htail hheld, fun tid r hr => ?_⟩
    by_cases heq : tid = d.ourTid
    · subst heq
      simp only [Engine.store, Engine.note, AList.lookup_insert, Option.some.injEq] at hr
      rw [← hr]
      exact ⟨hd, hd⟩
    · simp only [Engine.store, Engine.note, AList.lookup_insert_ne heq] at hr
      exact hstored tid r hr
  | close h d reason => exact ⟨htail hheld, hstored⟩
  | claim dialogues hsize hl =>
    refine ⟨hheld, fun tid r hr => ?_⟩
    have hsame := hl tid
    rw [hr, Option.map_some, eq_comm, Option.map_eq_some_iff] at hsame
    obtain ⟨r', hr', heq⟩ := hsame
    rw [← (Prod.mk.inj heq).2]
    exact hstored tid r' hr'
  | swap hR => exact ⟨fun p hp => hheld p (hR.mem_iff.mpr hp), hstored⟩

/-- Both readings are of the same octets. -/
theorem unitdataOf_cases {c : Codec} {inbound : Msu} {udt : UnitData}
    (hudt : unitdataOf c inbound = some udt) : inbound.si = siSccp ∧
      (c.decodeSccp inbound.payload = some (.udt udt) ∨
        ∃ xudt, c.decodeSccp inbound.payload = some (.xudt xudt) ∧ xudt.data = udt.data) := by
  unfold unitdataOf at hudt
  split_ifs at hudt with hsi
  refine ⟨not_not.mp hsi, ?_⟩
  obtain ⟨message, hsccp, hterminated⟩ := Option.bind_eq_some_iff.mp hudt
  obtain ⟨pair, hpair, hfirst⟩ := Option.map_eq_some_iff.mp hterminated
  cases message with
  | udt message =>
    obtain rfl := Option.some.inj hpair
    exact .inl (hsccp.trans (congrArg (fun m => some (SccpMessage.udt m)) hfirst))
  | xudt xudt =>
    unfold Engine.terminated at hpair
    dsimp only at hpair
    split_ifs at hpair
    obtain rfl := Option.some.inj hpair
    exact .inr ⟨xudt, hsccp, congrArg UnitData.data hfirst⟩
  | other name => cases hpair

theorem dialogueLane_of_complete {c : Codec} {inbound : Msu} {udt : UnitData}
    (hudt : unitdataOf c inbound = some udt) {message : TcapMessage}
    (hdecode : c.decode udt.data = some message) {tid : Tid} (htid : message.dtid = some tid) :
    dialogueLane c inbound = tidLane tid := by
  obtain ⟨hsi, hsccp⟩ := unitdataOf_cases hudt
  cases message with
  | begins b => cases htid
  | unidirectional => cases htid
  | _ =>
    obtain rfl := Option.some.inj htid
    rcases hsccp with hsccp | ⟨xudt, hsccp, hdata⟩
    · simp only [dialogueLane, hsi, hsccp, ne_eq, not_true_eq_false, ↓reduceIte,
        Option.bind_some, hdecode]
    · simp only [dialogueLane, hsi, hsccp, ne_eq, not_true_eq_false, ↓reduceIte,
        Option.bind_some, hdata, hdecode]

theorem dialogueLane_of_damaged {c : Codec} {inbound : Msu} {udt : UnitData}
    (hudt : unitdataOf c inbound = some udt) (hdecode : c.decode udt.data = none) :
    dialogueLane c inbound = 0 := by
  obtain ⟨hsi, hsccp | ⟨xudt, hsccp, hdata⟩⟩ := unitdataOf_cases hudt
  · simp [dialogueLane, hsi, hsccp, hdecode]
  · simp [dialogueLane, hsi, hsccp, hdata, hdecode]

/-- The lane of a message for which a dialogue is taken is that dialogue's, if and only if
nothing is wrong with the message. -/
theorem lane_of_taken (c : Codec)
    (hdecode : ∀ data message,
      c.decode data = some message ↔ c.decodeDetailed data = .complete message)
    (config : Config) (handlers fallbackHandlers : ℕ × ℤ → Option Handler) {R : List Held}
    {e : Engine}
    (h : Steps (fun _ _ => True) [] (Engine.new config handlers fallbackHandlers) R e)
    (inbound : Msu) (assoc : String) (script : List Call) (now : ℕ) {tid : Tid}
    (ht : tid ∈ takenIds e (e.deliver c inbound assoc script now).2) :
    dialogueLane c inbound = tidLane tid ↔ Undamaged c inbound := by
  obtain ⟨hmem, udt, hudt, hread⟩ := (deliver_takes inbound assoc script now).of_taken ht tid rfl
  rcases hread with ⟨message, hcomplete, hdtid⟩ | ⟨problem, hproblem⟩
  · have hstrict : c.decode udt.data = some message := (hdecode _ _).mpr hcomplete
    have hlane := dialogueLane_of_complete hudt hstrict hdtid
    exact iff_of_true hlane ⟨udt, message, hudt, hcomplete⟩
  · have hnone : c.decode udt.data = none := by
      cases hstrict : c.decode udt.data with
      | none => rfl
      | some message =>
        have hcomplete := (hdecode _ _).mp hstrict
        rw [hproblem] at hcomplete
        cases hcomplete
    have hoctets : FourOctets R e := h.invariant Move.four_octets
      ⟨by simp, fun tid r hr => absurd hr (by simp [Engine.new])⟩
    obtain ⟨r, hr⟩ := Option.isSome_iff_exists.mp (AList.lookup_isSome.mpr hmem)
    have hlane := tidLane_ne_zero (hoctets.2 tid r hr).1
    rw [dialogueLane_of_damaged hudt hnone]
    refine iff_of_false hlane.symm ?_
    rintro ⟨udt', message, hudt', hcomplete⟩
    obtain rfl := Option.some.inj (hudt.symm.trans hudt')
    rw [hproblem] at hcomplete
    cases hcomplete

/-- The short messages, and a Continue with an Invoke that stops after its invoke id. -/
def damagedCodec : Codec :=
  { shortCodec with
    decodeDetailed := fun data =>
      match shortCodec.decode data with
      | some message => .complete message
      | none =>
        match data with
        | [0x65, 0x10, 0x48, 0x01, otid, 0x49, 0x04, a, b, c, d, 0x6C, 0x05, 0xA1, 0x03, 0x02,
            0x01, id] =>
          .problem ⟨.component (some id.toNat) 1,
            some (.continues ⟨[otid], [a, b, c, d], none, some []⟩), some [a, b, c, d],
            some ⟨some id.toNat, .general 1⟩, none⟩
        | _ => .problem ⟨.transactionPortion (.other 2), none, none, none, none⟩ }

theorem damagedCodec_decode (data : Bytes) (message : TcapMessage) :
    damagedCodec.decode data = some message ↔
      damagedCodec.decodeDetailed data = .complete message := by
  have hsame : damagedCodec.decode data = shortCodec.decode data := rfl
  rw [hsame]
  unfold damagedCodec
  dsimp only
  cases shortCodec.decode data with
  | some _ => simp
  | none =>
    dsimp only
    split <;> simp

/-- What a node sends us in a unitdata, from its subsystem 6 to our subsystem 8. -/
def shortMsu (data : Bytes) : Msu where
  opc := 2
  dpc := 1
  si := siSccp
  ni := 2
  mp := 0
  sls := 0
  payload := [0x09, 0x00, 0x03, 0x05, 0x07, 0x02, 0x42, 0x08, 0x02, 0x42, 0x06,
    .ofNat data.length] ++ data

theorem lane_of_taken_of_end : dialogueLane damagedCodec
    (shortMsu [0x64, 0x06, 0x49, 0x04, 0x80, 0x00, 0x00, 0x01]) = tidLane [0x80, 0, 0, 1] :=
  (lane_of_taken damagedCodec damagedCodec_decode ⟨15000, 0, 10⟩ (fun _ => none) (fun _ => none)
    (run_steps damagedCodec ⟨15000, 0, 10⟩ (fun _ => none) (fun _ => none)
      [.begin shortRequest 7 [.send 0] 0])
    (shortMsu [0x64, 0x06, 0x49, 0x04, 0x80, 0x00, 0x00, 0x01]) "m2pa" [] 0
    (by decide +kernel)).mpr
    ⟨⟨⟨true, some 8, none⟩, ⟨true, some 6, none⟩, [0x64, 0x06, 0x49, 0x04, 0x80, 0x00, 0x00, 0x01]⟩,
      .ends ⟨[0x80, 0, 0, 1], none, none⟩, by decide +kernel, by decide +kernel⟩

/-- A Continue of which an Invoke cannot be read is on lane 0, and is its dialogue's. -/
theorem damaged_continue_on_other_lane :
    ¬ ∀ (c : Codec), (∀ data message,
        c.decode data = some message ↔ c.decodeDetailed data = .complete message) →
      ∀ (config : Config) (handlers fallbackHandlers : ℕ × ℤ → Option Handler) (R : List Held)
        (e : Engine), Steps (fun _ _ => True) [] (Engine.new config handlers fallbackHandlers) R e →
      ∀ (inbound : Msu) (assoc : String) (script : List Call) (now : ℕ) (tid : Tid),
        tid ∈ takenIds e (e.deliver c inbound assoc script now).2 →
        dialogueLane c inbound = tidLane tid := by
  intro hall
  have hlane := hall damagedCodec damagedCodec_decode ⟨15000, 0, 10⟩ (fun _ => none)
    (fun _ => none) [] _ (run_steps damagedCodec ⟨15000, 0, 10⟩ (fun _ => none) (fun _ => none)
      [.begin shortRequest 7 [.send 0] 0])
    (shortMsu [0x65, 0x10, 0x48, 0x01, 0x87, 0x49, 0x04, 0x80, 0x00, 0x00, 0x01, 0x6C, 0x05, 0xA1,
      0x03, 0x02, 0x01, 0x09]) "m2pa" [] 0 [0x80, 0, 0, 1] (by decide +kernel)
  exact absurd hlane (by decide +kernel)

end SiphonSigtran.Tcap
