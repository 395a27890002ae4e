import SiphonSigtran.Transport.Peer

/-!
# Runs of the task of an association

What is refused is counted once and changes nothing, and an Error answers a message that is none.
A peer that is silent for two intervals of T(beat) is taken to be unavailable, and no other.
-/

namespace SiphonSigtran.Transport

open Lib

namespace Peer

variable {crate : Crate} {c : Conf} {sight : Sight} {raw : List UInt8} {s : State} {task : Task}
  {e : Event} {es : List Event} {acts acts' : List Act}

/-! ## Errors -/

/-- The codec tells Errors by their class and type. -/
def Crate.Marks (crate : Crate) : Prop :=
  ∀ raw message, crate.decode raw = .ok message →
    (message.messageType = .error ↔ isError raw = true)

def Act.discards : Act → Bool
  | .discard _ => true
  | _ => false

def Act.complains : Act → Bool
  | .send (.error _ _ _) => true
  | _ => false

/-- Counting, dropping and answering with an Error leave the node as it is. -/
def Act.idle : Act → Bool
  | .discard _ | .count _ | .send (.error _ _ _) => true
  | _ => false

/-- A message arrives. -/
def Event.arrives : Event → Bool
  | .arrived _ _ _ _ _ => true
  | _ => false

/-- A message of M3UA arrives that is no Error. -/
def Event.speaks : Event → Bool
  | .arrived _ _ ppid _ raw => ppid = ppidM3ua && !isError raw
  | _ => false

/-- A turn refuses the message that arrived: that is counted once and answered with an Error at
most, and nothing else is done. -/
structure Refuses (task : Task) (r : Task × List Act) : Prop where
  discards : r.2.countP Act.discards = 1
  complains : r.2.countP Act.complains ≤ 1
  idle : ∀ act ∈ r.2, act.idle = true
  same : ∃ s, task = .serving s ∧ (r.1 = task ∨ r.1 = .serving { s with heard := true })

/-- A turn refuses nothing. -/
def Quiet (r : Task × List Act) : Prop := ∀ act ∈ r.2, act.refuses = false

/-- A message of M3UA is refused, and may have been counted by its type before. -/
theorem refuses_refuse (s : State) (raw : List UInt8) (counted : Option MessageType)
    (code : Option Code) (contexts : List ℕ) (reason : RxDiscard) :
    Refuses (.serving s) (.serving { s with heard := true },
      (counted.map Act.count).toList ++ refuse code contexts raw reason) where
  discards := by
    cases counted <;> cases code <;> simp [refuse, List.countP_cons, Act.discards]
  complains := by
    cases counted <;> cases code <;> simp [refuse, List.countP_cons, Act.complains]
  idle := by
    cases counted <;> cases code <;> simp [refuse, Act.idle]
  same := ⟨s, rfl, .inr rfl⟩

theorem Quiet.counts {r : Task × List Act} (h : Quiet r) :
    r.2.countP Act.discards = 0 ∧ r.2.countP Act.complains = 0 := by
  constructor
  · refine List.countP_eq_zero.mpr fun act hact hdiscards => ?_
    have hrefuses := h act hact
    cases act with
    | discard reason => cases hrefuses
    | _ => cases hdiscards
  · refine List.countP_eq_zero.mpr fun act hact hcomplains => ?_
    have hrefuses := h act hact
    cases act with
    | send message =>
      cases message with
      | error code contexts diagnostic => cases hrefuses
      | _ => cases hcomplains
    | _ => cases hcomplains

theorem quiet_clock (s : State) (now : ℕ) :
    Silent ((c.slot.handle s.asking (.clock now)).2.flatMap (actsOf [])) := by
  refine Asks.silent ?_
  unfold AspSide.Slot.handle
  dsimp only
  split_ifs
  · unfold AspSide.Slot.ackTimeout
    dsimp only
    split_ifs
    · exact (asks_nil.cons (by simp)).cons (by simp)
    · exact resend_asks _ _
  · exact asks_nil

theorem silent_leave (isSender : Bool) : Silent (leave c isSender) := by
  cases isSender
  · exact silent_one rfl
  · exact .cons rfl (.cons rfl (silent_one rfl))

/-- What T(beat) does. -/
theorem beat_eq (s : State) :
    beat s = if s.heard = false ∧ 1 ≤ s.silent then (none, [.event .beatTimeout, .abort])
      else
        (some { s with
            heard := false
            silent := if s.heard then 0 else s.silent + 1
            beat := (s.beat + 1) % 2 ^ 64 },
          [.send (.heartbeat (beatOctets ((s.beat + 1) % 2 ^ 64)))]) := by
  unfold beat
  dsimp only
  cases hheard : s.heard with
  | true => simp
  | false =>
    by_cases hsilent : 1 ≤ s.silent
    · have htwo : 2 ≤ s.silent + 1 := by omega
      simp [hsilent, htwo]
    · have hone : ¬2 ≤ s.silent + 1 := by omega
      simp [hsilent, hone]

theorem silent_beat (s : State) : Silent (beat s).2 := by
  rw [beat_eq]
  split_ifs
  · exact .cons rfl (silent_one rfl)
  all_goals exact silent_one rfl

/-- What arrives is refused, or nothing is. -/
theorem step_refuses (crate : Crate) (c : Conf) (task : Task) (e : Event) :
    (e.arrives = true ∧ Refuses task (step crate c task e)) ∨ Quiet (step crate c task e) := by
  cases task with
  | superseded => exact .inr silent_nil
  | ended => exact .inr silent_nil
  | serving s =>
    cases e with
    | arrived sight now ppid stream raw =>
      by_cases hppid : ppid = ppidM3ua
      · have hfate := received_fate crate c sight raw now stream { s with heard := true }
        simp only [step, hppid, ne_eq, not_true_eq_false, if_false]
        generalize received crate c sight now raw stream { s with heard := true } = r at hfate ⊢
        cases hfate with
        | superseded => exact .inr silent_nil
        | refused counted code contexts reason =>
          exact .inl ⟨rfl, refuses_refuse s raw counted code contexts reason⟩
        | taken asking hacts => exact .inr hacts
      · refine .inl ⟨rfl, ?_⟩
        simp only [step, ne_eq, hppid, not_false_eq_true, if_true]
        exact ⟨rfl, by simp [Act.complains], by simp [Act.idle], s, rfl, .inl rfl⟩
    | ack now => exact .inr (quiet_clock s now)
    | tick isSender =>
      refine .inr ?_
      have hbeat := silent_beat s
      simp only [step]
      split_ifs
      · exact silent_nil
      · generalize beat s = r at hbeat ⊢
        obtain ⟨next, acts⟩ := r
        cases next with
        | some s => exact hbeat
        | none => exact hbeat.append (silent_leave isSender)
    | closed isSender => exact .inr (silent_leave isSender)

/-- An Error is not answered. -/
theorem received_error (hmarks : crate.Marks) (herror : isError raw = true) (c : Conf)
    (sight : Sight) (now stream : ℕ) (s : State) :
    ∀ act ∈ (received crate c sight now raw stream s).2.2, act.sends = false := by
  unfold received
  cases hread : read crate raw with
  | error acts =>
    obtain ⟨code, rfl⟩ := read_refused hread
    simp [herror, refuse, Act.sends]
  | ok message =>
    have htype : message.messageType = .error :=
      (hmarks raw message (read_ok hread)).mpr herror
    dsimp only
    rw [if_neg (by rw [htype]; decide)]
    split_ifs with hsender hwrong
    · simp
    · exact absurd htype hwrong.2
    all_goals simp [htype, Act.sends]

/-- What is not answered sends no Error. -/
theorem complains_eq_zero (h : ∀ act ∈ acts, act.sends = false) :
    acts.countP Act.complains = 0 := by
  refine List.countP_eq_zero.mpr fun act hact hcomplains => ?_
  have hsent := h act hact
  cases act with
  | send message => cases hsent
  | _ => cases hcomplains

/-- An Error, and what is no message of M3UA, is refused without an Error. -/
theorem step_speechless (hmarks : crate.Marks) (harrives : e.arrives = true)
    (hspeaks : e.speaks = false) : (step crate c (.serving s) e).2.countP Act.complains = 0 := by
  cases e with
  | arrived sight now ppid stream raw =>
    by_cases hppid : ppid = ppidM3ua
    · have herror : isError raw = true := by simpa [Event.speaks, hppid] using hspeaks
      have hnone := complains_eq_zero
        (received_error hmarks herror c sight now stream { s with heard := true })
      simp only [step, hppid, ne_eq, not_true_eq_false, if_false]
      generalize received crate c sight now raw stream { s with heard := true } = r at hnone ⊢
      obtain ⟨next, how, acts⟩ := r
      cases how <;> exact hnone
    · simp only [step, ne_eq, hppid, not_false_eq_true, if_true]
      rfl
  | _ => cases harrives

theorem step_complains (hmarks : crate.Marks) (task : Task) (e : Event) :
    (step crate c task e).2.countP Act.complains ≤ if e.speaks then 1 else 0 := by
  rcases step_refuses crate c task e with ⟨harrives, hrefuses⟩ | hquiet
  · cases hspeaks : e.speaks with
    | true => simpa using hrefuses.complains
    | false =>
      obtain ⟨s, rfl, -⟩ := hrefuses.same
      simp [step_speechless hmarks harrives hspeaks]
  · rw [hquiet.counts.2]
    exact Nat.zero_le _

/-- The task, and all that it did. -/
def running (crate : Crate) (c : Conf) : Task × List Act → Event → Task × List Act :=
  Machine.watch (step crate c) fun done _ _ r => done ++ r.2

/-- The turns of a run add up. -/
theorem run_counts (hmarks : crate.Marks) (es : List Event) (p : Task × List Act) :
    let q := Machine.run (running crate c) p es
    q.2.countP Act.complains ≤ p.2.countP Act.complains + es.countP Event.speaks ∧
      q.2.countP Act.discards ≤ p.2.countP Act.discards + es.countP Event.arrives ∧
      q.2.countP Act.complains + p.2.countP Act.discards ≤
        q.2.countP Act.discards + p.2.countP Act.complains := by
  induction es generalizing p with
  | nil => exact ⟨le_refl _, le_refl _, (Nat.add_comm _ _).le⟩
  | cons e es ih =>
    obtain ⟨hcomplains, hdiscards, hless⟩ := ih (running crate c p e)
    have hdone : (running crate c p e).2 = p.2 ++ (step crate c p.1 e).2 := rfl
    have hspeaks := step_complains (c := c) hmarks p.1 e
    have hturn : (step crate c p.1 e).2.countP Act.discards ≤ (if e.arrives then 1 else 0) ∧
        (step crate c p.1 e).2.countP Act.complains ≤
          (step crate c p.1 e).2.countP Act.discards := by
      rcases step_refuses crate c p.1 e with ⟨harrives, hrefuses⟩ | hquiet
      · rw [hrefuses.discards, harrives]
        exact ⟨le_refl _, hrefuses.complains⟩
      · rw [hquiet.counts.1, hquiet.counts.2]
        exact ⟨Nat.zero_le _, le_refl _⟩
    rw [hdone, List.countP_append] at hcomplains hdiscards hless
    rw [List.countP_append] at hless
    simp only [Machine.run_cons, List.countP_cons]
    refine ⟨?_, ?_, ?_⟩
    · omega
    · omega
    · omega

/-- In every run of the task of an association, whatever arrives, a message that is refused is
counted once and answered with one Error at most, and changes nothing; nothing else is counted or
answered so. There are no more Errors than messages that are none, so two nodes do not answer each
other's Errors. -/
theorem refused_once (hmarks : crate.Marks) (task : Task) (es : List Event) :
    let done := (Machine.run (running crate c) (task, []) es).2
    (done.countP Act.complains ≤ es.countP Event.speaks ∧
      done.countP Act.complains ≤ done.countP Act.discards ∧
      done.countP Act.discards ≤ es.countP Event.arrives) ∧
    ∀ before e after, es = before ++ e :: after →
      let reached := (Machine.run (running crate c) (task, []) before).1
      (e.arrives = true ∧ Refuses reached (step crate c reached e)) ∨
        ((step crate c reached e).2.countP Act.discards = 0 ∧
          (step crate c reached e).2.countP Act.complains = 0) := by
  intro done
  obtain ⟨hcomplains, hdiscards, hless⟩ := run_counts (c := c) hmarks es (task, [])
  refine ⟨⟨by simpa using hcomplains, by simpa using hless, by simpa using hdiscards⟩, ?_⟩
  intro before e after _ reached
  exact (step_refuses crate c reached e).imp_right fun hquiet => hquiet.counts

/-- A codec that reads Errors and nothing else. -/
def errorsOnly : Crate where
  decode raw :=
    if isError raw then
      .ok ⟨.error, none, none, [], none, [], none, none, none, none, none, none, none,
        .error .missingParameter⟩
    else .error .tooShort
  declared := List.length
  isClass _ := false
  valid _ := false
  tfc _ _ := none

theorem errorsOnly_marks : errorsOnly.Marks := by
  intro raw message h
  simp only [errorsOnly] at h
  split_ifs at h with herror
  obtain rfl := Except.ok.inj h
  simp [herror]

/-- A gateway that hears nothing of an ASP. -/
def lonely : Conf := ⟨⟨0, [], 2000, none⟩, true, 30000⟩

/-- What the gateway of an ASP that is not active finds. -/
def idleSight : Sight := ⟨true, fun _ => .notActive, [], fun _ => none, fun _ => false, false, 0, 0⟩

/-- Of an Error and of one octet that is no message, the latter is answered. -/
def errorAndOctet : List Event :=
  [.arrived idleSight 0 ppidM3ua 0 [1, 0, 0, 0, 0, 0, 0, 8], .arrived idleSight 0 ppidM3ua 0 [1]]

theorem refused_once_of_errorAndOctet :
    (Machine.run (running errorsOnly lonely) (.serving .new, []) errorAndOctet).2.countP
      Act.complains ≤ 1 :=
  (refused_once errorsOnly_marks (.serving .new) errorAndOctet).1.1

/-! ## Heartbeats -/

/-- T(beat) runs out. -/
def Event.ticks : Event → Bool
  | .tick _ => true
  | _ => false

/-- Something of M3UA arrives. -/
def Event.sounds : Event → Bool
  | .arrived _ _ ppid _ _ => ppid = ppidM3ua
  | _ => false

/-- What happened since T(beat) last ran out, the latest first. -/
def interval (past : List Event) : List Event := past.takeWhile fun e => !e.ticks

/-- What had happened before T(beat) last ran out. -/
def earlier (past : List Event) : Option (List Event) := (past.dropWhile fun e => !e.ticks).tail?

def Soundless (events : List Event) : Prop := ∀ e ∈ events, e.sounds = false

/-- The whole interval before the current one was silent. -/
def WasSilent (past : List Event) : Prop :=
  ∃ before, earlier past = some before ∧ Soundless (interval before)

/-- What the task has of what happened. -/
structure Hears (past : List Event) (s : State) : Prop where
  heard : s.heard = false ↔ Soundless (interval past)
  silent : 1 ≤ s.silent ↔ WasSilent past
  beat : s.beat = past.countP Event.ticks % 2 ^ 64

theorem interval_cons (e : Event) (past : List Event) :
    interval (e :: past) = if e.ticks then [] else e :: interval past := by
  cases h : e.ticks <;> simp [interval, h]

theorem earlier_cons (e : Event) (past : List Event) :
    earlier (e :: past) = if e.ticks then some past else earlier past := by
  cases h : e.ticks <;> simp [earlier, h]

theorem soundless_cons (events : List Event) :
    Soundless (e :: events) ↔ e.sounds = false ∧ Soundless events := by
  simp [Soundless]

theorem wasSilent_cons (past : List Event) (h : e.ticks = false) :
    WasSilent (e :: past) ↔ WasSilent past := by
  simp [WasSilent, earlier_cons, h]

theorem wasSilent_tick (past : List Event) (h : e.ticks = true) :
    WasSilent (e :: past) ↔ Soundless (interval past) := by
  simp [WasSilent, earlier_cons, h]

/-- What happens beside T(beat) and changes what was heard only by a sound. -/
theorem Hears.beside {past : List Event} {s' : State} (h : Hears past s) (hticks : e.ticks = false)
    (hheard : s'.heard = (s.heard || e.sounds)) (hsilent : s'.silent = s.silent)
    (hbeat : s'.beat = s.beat) : Hears (e :: past) s' where
  heard := by
    rw [hheard, interval_cons, if_neg (by simp [hticks]), soundless_cons, ← h.heard]
    cases s.heard <;> simp
  silent := by rw [hsilent, wasSilent_cons past hticks, h.silent]
  beat := by rw [hbeat, h.beat, List.countP_cons_of_neg (by simp [hticks])]

/-- T(beat) runs out of an association that goes on. -/
theorem Hears.tick {past : List Event} (h : Hears past s) (isSender : Bool) :
    Hears (.tick isSender :: past)
      { s with
        heard := false
        silent := if s.heard then 0 else s.silent + 1
        beat := (s.beat + 1) % 2 ^ 64 } where
  heard := by simp [interval_cons, Event.ticks, Soundless]
  silent := by
    rw [wasSilent_tick past rfl, ← h.heard]
    cases s.heard <;> simp
  beat := by
    rw [List.countP_cons_of_pos rfl, h.beat, Nat.mod_add_mod]

theorem Hears.step {past : List Event} {s' : State} (hbeat : c.beatMs ≠ 0) (h : Hears past s)
    (hnext : (step crate c (.serving s) e).1 = .serving s') : Hears (e :: past) s' := by
  cases e with
  | arrived sight now ppid stream raw =>
    by_cases hppid : ppid = ppidM3ua
    · have hsounds : (Event.arrived sight now ppid stream raw).sounds = true := by
        simp [Event.sounds, hppid]
      have hfate := received_fate crate c sight raw now stream { s with heard := true }
      simp only [Peer.step, hppid, ne_eq, not_true_eq_false, if_false] at hnext
      generalize received crate c sight now raw stream { s with heard := true } = r
        at hfate hnext
      cases hfate with
      | superseded => cases hnext
      | refused counted code contexts reason =>
        obtain rfl := Task.serving.inj hnext
        exact h.beside rfl (by simp [hsounds]) rfl rfl
      | taken asking hacts =>
        obtain rfl := Task.serving.inj hnext
        exact h.beside rfl (by simp [hsounds]) rfl rfl
    · simp only [Peer.step, ne_eq, hppid, not_false_eq_true, if_true] at hnext
      obtain rfl := Task.serving.inj hnext
      exact h.beside rfl (by simp [Event.sounds, hppid]) rfl rfl
  | ack now =>
    obtain rfl := Task.serving.inj hnext
    exact h.beside rfl (by simp [Event.sounds]) rfl rfl
  | tick isSender =>
    simp only [Peer.step, if_neg hbeat, beat_eq] at hnext
    by_cases hsilent : s.heard = false ∧ 1 ≤ s.silent
    · rw [if_pos hsilent] at hnext
      cases hnext
    · rw [if_neg hsilent] at hnext
      obtain rfl := Task.serving.inj hnext
      exact h.tick isSender
  | closed isSender => cases hnext

/-- A task that is over does nothing more. -/
theorem stays (h : ∀ s, task ≠ .serving s) (es : List Event) :
    Machine.run (fun task e => (step crate c task e).1) task es = task := by
  induction es with
  | nil => rfl
  | cons e es ih =>
    cases task with
    | serving s => exact absurd rfl (h s)
    | _ => exact ih

theorem hears_new (asking : AspSide.Asking) : Hears [] { State.new with asking } where
  heard := by simp [State.new, interval, Soundless]
  silent := by simp [State.new, WasSilent, earlier]
  beat := rfl

theorem hears_start (now : ℕ) : Hears [] (start c now).1 := by
  unfold start
  split_ifs
  · exact hears_new _
  · exact hears_new _

/-- A run that still serves its association served it all along. -/
theorem hears_run (hbeat : c.beatMs ≠ 0) {past : List Event} {first : State}
    (h : Hears past first) (es : List Event) (hserving :
      Machine.run (fun task e => (step crate c task e).1) (.serving first) es = .serving s) :
    Hears (es.reverse ++ past) s := by
  induction es generalizing first past with
  | nil =>
    obtain rfl := Task.serving.inj hserving
    exact h
  | cons e es ih =>
    rw [Machine.run_cons] at hserving
    cases hnext : (step crate c (.serving first) e).1 with
    | serving next =>
      rw [hnext] at hserving
      simpa using ih (h.step hbeat hnext) hserving
    | superseded =>
      rw [hnext, stays (by simp)] at hserving
      cases hserving
    | ended =>
      rw [hnext, stays (by simp)] at hserving
      cases hserving

/-- Heartbeat Data of eight octets tells 2^64 Heartbeats apart. -/
theorem beatOctets_inj {m n : ℕ} (hm : m < 2 ^ 64) (hn : n < 2 ^ 64)
    (h : beatOctets m = beatOctets n) : m = n := by
  have hoctet : ∀ i < 8, m / 2 ^ (8 * (7 - i)) % 2 ^ 8 = n / 2 ^ (8 * (7 - i)) % 2 ^ 8 := by
    intro i hi
    have heq := List.map_inj_left.mp h i (List.mem_range.mpr hi)
    simpa [Nat.shiftRight_eq_div_pow] using congrArg UInt8.toNat heq
  refine Nat.eq_of_testBit_eq fun i => ?_
  by_cases hi : i < 64
  · have hbit := congrArg (fun octet => octet.testBit (i % 8)) (hoctet (7 - i / 8) (by omega))
    have hlt : i % 8 < 8 := Nat.mod_lt _ (by decide)
    have hplace : i % 8 + 8 * (7 - (7 - i / 8)) = i := by omega
    simpa only [Nat.testBit_mod_two_pow, Nat.testBit_div_two_pow, hlt, hplace, decide_true,
      Bool.true_and] using hbit
  · have hle : 2 ^ 64 ≤ 2 ^ i := Nat.pow_le_pow_right (by decide) (by omega)
    rw [Nat.testBit_lt_two_pow (hm.trans_le hle), Nat.testBit_lt_two_pow (hn.trans_le hle)]

theorem arrived_goesOn (crate : Crate) (c : Conf) (s : State) (sight : Sight)
    (now ppid stream : ℕ) (raw : List UInt8) :
    (step crate c (.serving s) (.arrived sight now ppid stream raw)).1 ≠ .ended := by
  simp only [step]
  split_ifs
  · simp
  · split <;> simp

/-- In every run of the task of an association with T(beat), the peer is taken to be unavailable
when T(beat) runs out and nothing of M3UA arrived in two whole intervals, and never otherwise. Until
then one Heartbeat goes out each time, whose data no other of the 2^64 before it has. -/
theorem unavailable_iff_silent (crate : Crate) (hbeat : c.beatMs ≠ 0) (now : ℕ) (es : List Event)
    {s : State} (hserving : Machine.run (fun task e => (step crate c task e).1)
      (.serving (start c now).1) es = .serving s) :
    (∀ e, (step crate c (.serving s) e).1 = .ended ↔
      (∃ b, e = .closed b) ∨
        e.ticks = true ∧ Soundless (interval es.reverse) ∧ WasSilent es.reverse) ∧
    (∀ b, (step crate c (.serving s) (.tick b)).1 ≠ .ended →
      (step crate c (.serving s) (.tick b)).2 =
        [.send (.heartbeat (beatOctets ((es.countP Event.ticks + 1) % 2 ^ 64)))]) ∧
    ∀ k, 0 < k → k < 2 ^ 64 → beatOctets ((es.countP Event.ticks + 1) % 2 ^ 64) ≠
      beatOctets ((es.countP Event.ticks + 1 + k) % 2 ^ 64) := by
  have hhears := hears_run hbeat (hears_start now) es hserving
  rw [List.append_nil] at hhears
  have hcount : s.beat = es.countP Event.ticks % 2 ^ 64 := by
    simpa [List.countP_reverse] using hhears.beat
  have hsilent : s.heard = false ∧ 1 ≤ s.silent ↔
      Soundless (interval es.reverse) ∧ WasSilent es.reverse :=
    and_congr hhears.heard hhears.silent
  refine ⟨fun e => ?_, fun b hgoes => ?_, fun k hpos hlt heq => ?_⟩
  · cases e with
    | arrived sight now ppid stream raw =>
      have hgoes := arrived_goesOn crate c s sight now ppid stream raw
      simp [hgoes, Event.ticks]
    | ack now => simp [step, Event.ticks]
    | closed b => simp [step]
    | tick b =>
      simp only [step, if_neg hbeat, beat_eq, Event.ticks, true_and, reduceCtorEq, exists_false,
        false_or]
      rw [← hsilent]
      by_cases hboth : s.heard = false ∧ 1 ≤ s.silent
      · rw [if_pos hboth]
        simp [hboth]
      · rw [if_neg hboth]
        simp [hboth]
  · simp only [step, if_neg hbeat, beat_eq] at hgoes ⊢
    by_cases hboth : s.heard = false ∧ 1 ≤ s.silent
    · rw [if_pos hboth] at hgoes
      exact absurd rfl hgoes
    · rw [if_neg hboth, hcount, Nat.mod_add_mod]
  · have hsame := beatOctets_inj (Nat.mod_lt _ (by decide)) (Nat.mod_lt _ (by decide)) heq
    omega

/-- The first interval of silence is one, the second ends the association. -/
theorem unavailable_iff_silent_of_lonely :
    (step errorsOnly lonely (.serving ⟨false, 1, 1, ⟨false, [], none⟩⟩)
      (.tick true)).1 = .ended := by
  have h := unavailable_iff_silent errorsOnly (c := lonely) (by decide) 0 [.tick true] rfl
  exact (h.1 (.tick true)).mpr (.inr ⟨rfl, by simp [Soundless, interval, Event.ticks],
    [], rfl, by simp [Soundless, interval]⟩)

end Peer

end SiphonSigtran.Transport
