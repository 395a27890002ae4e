import SiphonSigtran.M2pa.LinkSequence

/-!
# Abnormal backward sequence numbers

A User Data message whose BSN names neither the last acknowledged message nor one still
unacknowledged is discarded, and the link fails on a second one among three that follow each other.
The link counts down from the last abnormal one; an observer keeps every one since the start.
-/

namespace SiphonSigtran.M2pa.Link

open Lib.Machine Lib.Serial

variable {codec : Codec}

/-- The BSN names neither the last acknowledged message nor one still unacknowledged. -/
def Abnormal (l : Link) (bsn : ℕ) : Prop :=
  bsn % 0x1000000 ≠ l.acked ∧ ∀ u ∈ l.unacked, u.fsn ≠ bsn % 0x1000000

instance (l : Link) (bsn : ℕ) : Decidable (l.Abnormal bsn) :=
  inferInstanceAs (Decidable (_ ∧ _))

/-- The link processes a User Data message: in service, or brought into service by it. -/
def processes (l : Link) : Bool := l.isAligned || l.state = .alignedReady

/-- Which of the User Data messages processed since the link was started were abnormal, the last
one first. -/
def noteBsn (before : List Bool) (l : Link) (e : Event) (_ : Link × List Action) : List Bool :=
  match e.call with
  | .start => if l.state = .outOfService then [] else before
  | .onData bsn _ _ => if l.processes then decide (l.Abnormal bsn) :: before else before
  | _ => before

/-- The link fails on a User Data message for its BSN exactly if that one and one of the two before
were abnormal; any other abnormal one is discarded, and the numbering stays. -/
def Ruled (codec : Codec) (p : Link × List Bool) (e : Event) : Prop :=
  ∀ bsn fsn message, e.call = .onData bsn fsn message → p.1.processes = true →
    (.outOfService .abnormalBsn ∈ (p.1.step codec e).2 ↔
      p.1.Abnormal bsn ∧ true ∈ p.2.take 2) ∧
    (p.1.Abnormal bsn → true ∉ p.2.take 2 →
      .discarded .rxAbnormalBsn 1 ∈ (p.1.step codec e).2 ∧
      (∀ msu, .deliver msu ∉ (p.1.step codec e).2) ∧
      (p.1.step codec e).1.acked = p.1.acked ∧ (p.1.step codec e).1.unacked = p.1.unacked ∧
      (p.1.step codec e).1.fsnIn = p.1.fsnIn)

/-! ## The window -/

/-- While fewer than half the circle of numbers are unacknowledged the distance on the circle tells
which BSN is abnormal. -/
theorem Numbered.accepts_iff {l : Link} (h : l.Numbered) (hw : l.InWindow)
    (hs : l.state ≠ .outOfService) (bsn : ℕ) : l.Accepts bsn ↔ ¬ l.Abnormal bsn := by
  have hlength : l.unacked.length ≤ 0x7FFFFF := hw
  have hstep := seqDistance_eq_gap (b := bsn % 0x1000000) h.acked_lt
  have hfsn : ∀ i (hi : i < l.unacked.length),
      l.unacked[i].fsn = (l.acked + (i + 1)) % 0x1000000 := by
    intro i hi
    have hat := (h.consecutive hs).getElem i (by simpa using hi)
    rw [List.getElem_map] at hat
    rw [hat, Nat.add_assoc, Nat.add_comm 1]
  unfold Accepts
  rw [h.outstanding hw hs]
  constructor
  · rintro haccepts ⟨hacked, hunacked⟩
    have hat := add_gap (by decide : 0 < 0x1000000) l.acked (bsn % 0x1000000)
    rw [Nat.mod_mod, ← hstep] at hat
    cases hk : seqDistance l.acked (bsn % 0x1000000) with
    | zero =>
      rw [hk, Nat.add_zero, Nat.mod_eq_of_lt h.acked_lt] at hat
      exact hacked hat.symm
    | succ k =>
      rw [hk] at hat haccepts
      have hlt : k < l.unacked.length := by omega
      exact hunacked _ (List.getElem_mem hlt) ((hfsn k hlt).trans hat)
  · intro hnormal
    by_cases hacked : bsn % 0x1000000 = l.acked
    · rw [hstep, hacked]
      have hzero := gap_add (by decide : 0 < 0x1000000) l.acked 0
      rw [Nat.add_zero, Nat.mod_eq_of_lt h.acked_lt] at hzero
      rw [hzero]
      exact Nat.zero_le _
    · have hsome : ∃ u ∈ l.unacked, u.fsn = bsn % 0x1000000 := by
        by_contra hnone
        exact hnormal ⟨hacked, fun u hu heq => hnone ⟨u, hu, heq⟩⟩
      obtain ⟨u, hu, heq⟩ := hsome
      obtain ⟨i, hi, rfl⟩ := List.getElem_of_mem hu
      rw [hstep, ← heq, hfsn i hi, gap_add (by decide), Nat.mod_eq_of_lt (by omega)]
      omega

/-! ## The countdown -/

/-- How many messages the link still watches after the last abnormal one. -/
def countdown : List Bool → ℕ
  | true :: _ => 2
  | false :: true :: _ => 1
  | _ => 0

theorem countdown_pos (before : List Bool) : 0 < countdown before ↔ true ∈ before.take 2 := by
  match before with
  | [] | [false] | [true] | true :: _ :: _ | false :: true :: _ | false :: false :: _ =>
    simp [countdown]

theorem countdown_normal (before : List Bool) :
    countdown (false :: before) = countdown before - 1 := by
  match before with
  | [] | [false] | [true] | true :: _ :: _ | false :: true :: _ | false :: false :: _ => rfl

/-- The countdown of a started link is that of the observer. -/
def CountsDown (p : Link × List Bool) : Prop :=
  p.1.state ≠ .outOfService → p.1.bsnWatch = countdown p.2

/-! ## What a message does to the countdown -/

theorem not_faulty_armT7 (l : Link) (now : ℕ) (reason : Failure) :
    .outOfService reason ∉ l.armT7 now := by
  unfold armT7
  split <;> simp

/-- Only a User Data message takes the countdown on. -/
theorem acknowledge_bsnWatch (codec : Codec) {l : Link} {bsn : ℕ} (h : l.Accepts bsn)
    (strict : Bool) (now : ℕ) :
    (l.acknowledge codec bsn strict now).1.bsnWatch =
      if strict then l.bsnWatch - 1 else l.bsnWatch := by
  have hnot : ¬ seqDistance l.acked (bsn % 0x1000000) > seqDistance l.acked l.fsnOut :=
    Nat.not_lt.mpr h
  unfold acknowledge
  simp only [if_neg hnot]
  by_cases hstep : seqDistance l.acked (bsn % 0x1000000) > 0
  · simp only [if_pos hstep]
    cases strict <;> rfl
  · simp only [if_neg hstep]
    cases strict <;> rfl

/-- A BSN that is accepted fails nothing. -/
theorem AcknowledgeMove.normal {l : Link} {bsn now : ℕ} {strict : Bool}
    {a : Link × List Action × Bool} (hm : AcknowledgeMove codec l bsn strict now a)
    (h : l.Accepts bsn) : a.2.2 = true ∧ ∀ reason, .outOfService reason ∉ a.2.1 := by
  cases hm with
  | ignored hnot _ => exact absurd h hnot
  | abnormal hnot _ _ => exact absurd h hnot
  | faulty hnot _ _ _ => exact absurd h hnot
  | repeated watch _ _ => exact ⟨rfl, by simp⟩
  | advanced watch _ _ =>
    refine ⟨rfl, fun reason => ?_⟩
    dsimp only
    split_ifs
    · exact not_faulty_armT7 (l.released bsn) now reason
    · simp

/-- A message whose BSN is accepted takes the countdown on, and fails nothing. -/
theorem receive_of_acknowledge {l : Link} {bsn now : ℕ} {a : Link × List Action × Bool}
    (ha : l.acknowledge codec bsn true now = a) (hwatch : a.1.bsnWatch = l.bsnWatch - 1)
    (htrue : a.2.2 = true) (hout : ∀ reason, .outOfService reason ∉ a.2.1) (fsn : ℕ)
    (message : UserDataMessage) :
    (l.receive codec bsn fsn message now).1.bsnWatch = l.bsnWatch - 1 ∧
      ∀ reason, .outOfService reason ∉ (l.receive codec bsn fsn message now).2 := by
  simp only [receive, ha, htrue, Bool.not_true, Bool.false_eq_true, ↓reduceIte]
  split_ifs
  · exact ⟨hwatch, hout⟩
  · exact ⟨hwatch, by simpa using hout⟩
  · exact ⟨hwatch, by simpa using hout⟩

theorem receive_normal (codec : Codec) {l : Link} {bsn : ℕ} (h : l.Accepts bsn) (fsn : ℕ)
    (message : UserDataMessage) (now : ℕ) :
    (l.receive codec bsn fsn message now).1.bsnWatch = l.bsnWatch - 1 ∧
      ∀ reason, .outOfService reason ∉ (l.receive codec bsn fsn message now).2 := by
  have hwatch := acknowledge_bsnWatch codec h true now
  rw [if_pos rfl] at hwatch
  obtain ⟨htrue, hout⟩ := (acknowledge_move codec l bsn true now).normal h
  exact receive_of_acknowledge rfl hwatch htrue hout fsn message

theorem receive_abnormal {l : Link} {bsn : ℕ} (h : ¬ l.Accepts bsn) (hwatch : l.bsnWatch = 0)
    (fsn : ℕ) (message : UserDataMessage) (now : ℕ) :
    l.receive codec bsn fsn message now =
      ({ l with bsnWatch := 2 }, [.discarded .rxAbnormalBsn 1]) := by
  have hgt : seqDistance l.acked (bsn % 0x1000000) > seqDistance l.acked l.fsnOut :=
    Nat.not_le.mp h
  simp [receive, acknowledge, hgt, hwatch]

theorem receive_faulty {l : Link} {bsn : ℕ} (h : ¬ l.Accepts bsn) (hwatch : 0 < l.bsnWatch)
    (hs : l.state ≠ .outOfService) (fsn : ℕ) (message : UserDataMessage) (now : ℕ) :
    l.receive codec bsn fsn message now =
      (l.failed, .discarded .rxAbnormalBsn 1 :: l.failActions codec .abnormalBsn) := by
  have hgt : seqDistance l.acked (bsn % 0x1000000) > seqDistance l.acked l.fsnOut :=
    Nat.not_le.mp h
  simp [receive, acknowledge, hgt, hwatch, fail_of_started hs]

theorem onData_aligned {l : Link} (h : l.isAligned = true) (bsn fsn : ℕ)
    (message : UserDataMessage) (now : ℕ) :
    l.onData codec bsn fsn message now = l.receive codec bsn fsn message now := by
  have hin : l.state = .inService ∨ l.state = .processorOutage := by simpa [isAligned] using h
  unfold onData
  rcases hin with hs | hs <;> rw [hs]

theorem onData_ready {l : Link} (h : l.state = .alignedReady) (bsn fsn : ℕ)
    (message : UserDataMessage) (now : ℕ) :
    l.onData codec bsn fsn message now =
      ((l.enterService.1.receive codec bsn fsn message now).1,
        [.stop .t1, .inService] ++ (l.enterService.1.receive codec bsn fsn message now).2) := by
  unfold onData
  rw [h]
  rfl

/-! ## What leaves the countdown as it is -/

theorem acknowledge_status_bsnWatch (codec : Codec) (l : Link) (bsn now : ℕ) :
    (l.acknowledge codec bsn false now).1.bsnWatch = l.bsnWatch := by
  by_cases h : l.Accepts bsn
  · exact acknowledge_bsnWatch codec h false now
  · have hgt : seqDistance l.acked (bsn % 0x1000000) > seqDistance l.acked l.fsnOut :=
      Nat.not_le.mp h
    simp [acknowledge, hgt]

theorem fail_bsnWatch (codec : Codec) (l : Link) (reason : Failure) :
    (l.fail codec reason).1.bsnWatch = l.bsnWatch := by
  unfold fail
  split <;> rfl

theorem transmit_bsnWatch (codec : Codec) (l : Link) (msu : Msu) (now : ℕ) :
    (l.transmit codec msu now).1.bsnWatch = l.bsnWatch := by
  obtain ⟨fsnOut, ackDue, unacked, hl⟩ := (transmit_move codec l msu now).frame
  rw [hl]

theorem flushUnsent_bsnWatch (codec : Codec) (l : Link) (now : ℕ) :
    (l.flushUnsent codec now).1.bsnWatch = l.bsnWatch := by
  obtain ⟨fsnOut, ackDue, unacked, hl⟩ := (flushUnsent_move codec l now).frame rfl
  rw [hl]

theorem resume_bsnWatch (codec : Codec) (l : Link) (now : ℕ) :
    (l.resume codec now).1.bsnWatch = l.bsnWatch := by
  unfold resume
  dsimp only
  split_ifs
  · rfl
  · rw [flushUnsent_bsnWatch]

/-- The countdown of a result, by the link in it. -/
theorem bsnWatch_of_eq {r : Link × List Action} {l : Link} {out : List Action}
    (h : r = (l, out)) : r.1.bsnWatch = l.bsnWatch := by
  rw [h]

theorem ready_bsnWatch (codec : Codec) {l : Link} (h : l.state = .inService) (bsn now : ℕ) :
    (l.onStatus codec .ready bsn now).1.bsnWatch = l.bsnWatch := by
  have hready : l.onStatus codec .ready bsn now = ((l.acknowledge codec bsn false now).1,
      (l.acknowledge codec bsn false now).2.1) := by simp only [onStatus, h]
  exact (bsnWatch_of_eq hready).trans (acknowledge_status_bsnWatch codec l bsn now)

theorem recovered_bsnWatch (codec : Codec) {l : Link} (h : l.state = .processorOutage)
    (bsn now : ℕ) : (l.onStatus codec .processorRecovered bsn now).1.bsnWatch = l.bsnWatch := by
  have hrecover : l.onStatus codec .processorRecovered bsn now =
      (((l.acknowledge codec bsn false now).1.resume codec now).1,
        (l.acknowledge codec bsn false now).2.1 ++
          ((l.acknowledge codec bsn false now).1.resume codec now).2) := by
    simp only [onStatus, h, recover]
  exact ((bsnWatch_of_eq hrecover).trans (resume_bsnWatch codec _ now)).trans
    (acknowledge_status_bsnWatch codec l bsn now)

theorem EndBusyMove.bsnWatch {l : Link} {now : ℕ} {r : Link × List Action}
    (h : EndBusyMove codec l now r) : r.1.bsnWatch = l.bsnWatch := by
  cases h with
  | idle _ | cleared _ _ => rfl
  | flushed _ _ hf =>
    obtain ⟨fsnOut, ackDue, unacked, hl⟩ := hf.frame rfl
    rw [hl]
    rfl

theorem onStatus_bsnWatch (codec : Codec) (l : Link) (status : Status) (bsn now : ℕ) :
    (l.onStatus codec status bsn now).1.bsnWatch = l.bsnWatch := by
  by_cases hready : l.state = .inService ∧ status = .ready
  · obtain ⟨hs, rfl⟩ := hready
    exact ready_bsnWatch codec hs bsn now
  by_cases hrecovered : l.state = .processorOutage ∧ status = .processorRecovered
  · obtain ⟨hs, rfl⟩ := hrecovered
    exact recovered_bsnWatch codec hs bsn now
  have hm := onStatus_move codec l status bsn now
  generalize l.onStatus codec status bsn now = r at hm
  cases hm with
  | align _ _ _ _ =>
    unfold Link.align
    split <;> rfl
  | prove _ _ _ _ =>
    unfold Link.prove
    split <;> rfl
  | busyEnded _ _ hr => exact hr.bsnWatch
  | acknowledge _ hs _ => exact absurd ⟨hs, rfl⟩ hready
  | recover _ hs _ _ => exact absurd ⟨hs, rfl⟩ hrecovered
  | ignored | failed | startOver | shorten | noteReady | enter | outage | busy | stillBusy => rfl

theorem timeout_bsnWatch (codec : Codec) (l : Link) (timer : Timer) (now : ℕ) :
    (l.timeout codec timer now).1.bsnWatch = l.bsnWatch := by
  have hm := timeout_move codec l timer now
  generalize l.timeout codec timer now = r at hm
  cases hm <;> rfl

theorem send_bsnWatch (codec : Codec) (l : Link) (msu : Msu) (now : ℕ) :
    (l.send codec msu now).1.bsnWatch = l.bsnWatch := by
  have hm := send_move codec l msu now
  generalize l.send codec msu now = r at hm
  cases hm with
  | transmitted _ _ ht =>
    obtain ⟨fsnOut, ackDue, unacked, hl⟩ := ht.frame
    rw [hl]
  | congested _ _ _ | queued _ _ _ | refused _ => rfl

/-- Only a start and User Data touch the countdown. -/
theorem step_bsnWatch (codec : Codec) (l : Link) (e : Event) (hstart : e.call ≠ .start)
    (hdata : ∀ bsn fsn message, e.call ≠ .onData bsn fsn message) :
    (l.step codec e).1.bsnWatch = l.bsnWatch := by
  unfold step
  cases hcall : e.call with
  | start => exact absurd hcall hstart
  | onData bsn fsn message => exact absurd hcall (hdata bsn fsn message)
  | established | detach | abandon => rfl
  | fail reason => exact fail_bsnWatch codec l reason
  | retrieve fsnc =>
    dsimp only
    rw [retrieve_fst]
  | send msu => exact send_bsnWatch codec l msu e.now
  | timeout timer => exact timeout_bsnWatch codec l timer e.now
  | onStatus status bsn => exact onStatus_bsnWatch codec l status bsn e.now
  | flushAck =>
    dsimp only [flushAck]
    split_ifs <;> rfl

/-- A link out of service stays so until it is started. -/
theorem step_outOfService (codec : Codec) {l : Link} (h : l.state = .outOfService) {e : Event}
    (hstart : e.call ≠ .start) : (l.step codec e).1.state = .outOfService := by
  unfold step
  cases hcall : e.call with
  | start => exact absurd hcall hstart
  | established | detach | abandon => exact h
  | fail reason => simp [fail, h]
  | retrieve fsnc =>
    dsimp only
    rw [retrieve_fst]
    exact h
  | send msu => simp [send, h]
  | timeout timer => cases timer <;> simp [timeout, h]
  | onStatus status bsn => simp [onStatus, h]
  | onData bsn fsn message => simp [onData, h]
  | flushAck => simp [flushAck, isAligned, h]

/-! ## Every run -/

/-- What User Data does at a link in service. -/
structure Received (l : Link) (before : List Bool) (bsn : ℕ) (r : Link × List Action) : Prop where
  fails : .outOfService .abnormalBsn ∈ r.2 ↔ l.Abnormal bsn ∧ true ∈ before.take 2
  discarded : l.Abnormal bsn → true ∉ before.take 2 → .discarded .rxAbnormalBsn 1 ∈ r.2 ∧
    (∀ msu, .deliver msu ∉ r.2) ∧ r.1.acked = l.acked ∧ r.1.unacked = l.unacked ∧
    r.1.fsnIn = l.fsnIn
  counts : r.1.state ≠ .outOfService →
    r.1.bsnWatch = countdown (decide (l.Abnormal bsn) :: before)

theorem receive_received (codec : Codec) {l : Link} (hn : l.Numbered) (hw : l.InWindow)
    (hs : l.state ≠ .outOfService) {before : List Bool} (hwatch : l.bsnWatch = countdown before)
    (bsn fsn : ℕ) (message : UserDataMessage) (now : ℕ) :
    Received l before bsn (l.receive codec bsn fsn message now) := by
  have hiff := hn.accepts_iff hw hs bsn
  by_cases haccepts : l.Accepts bsn
  · have hnormal := hiff.mp haccepts
    obtain ⟨hnext, hout⟩ := receive_normal codec haccepts fsn message now
    refine ⟨?_, fun habnormal => absurd habnormal hnormal, fun _ => ?_⟩
    · exact iff_of_false (hout _) fun h => hnormal h.1
    · rw [hnext, hwatch, decide_eq_false hnormal, countdown_normal]
  · have habnormal : l.Abnormal bsn := not_not.mp (mt hiff.mpr haccepts)
    rcases Nat.eq_zero_or_pos l.bsnWatch with hzero | hpos
    · have hnone : true ∉ before.take 2 := by
        rw [← countdown_pos, ← hwatch, hzero]
        exact Nat.lt_irrefl 0
      rw [receive_abnormal haccepts hzero]
      refine ⟨?_, fun _ _ => ⟨by simp, by simp, rfl, rfl, rfl⟩, fun _ => ?_⟩
      · exact iff_of_false (by simp) fun h => hnone h.2
      · rw [decide_eq_true habnormal]
        rfl
    · have hone : true ∈ before.take 2 := by
        rw [← countdown_pos, ← hwatch]
        exact hpos
      rw [receive_faulty haccepts hpos hs]
      refine ⟨?_, fun _ hnone => absurd hone hnone, fun hstate => absurd rfl hstate⟩
      exact iff_of_true (by simp [failActions]) ⟨habnormal, hone⟩

/-- What a User Data message does that brings the link into service is what it does in service. -/
theorem Received.entered {l : Link} {before : List Bool} {bsn : ℕ} {r : Link × List Action}
    (h : Received l.enterService.1 before bsn r) :
    Received l before bsn (r.1, [.stop .t1, .inService] ++ r.2) := by
  refine ⟨?_, fun habnormal hnone => ?_, h.counts⟩
  · have hfails : .outOfService .abnormalBsn ∈ r.2 ↔ l.Abnormal bsn ∧ true ∈ before.take 2 :=
      h.fails
    simpa using hfails
  · obtain ⟨hdiscarded, hdeliver, hstay⟩ := h.discarded habnormal hnone
    exact ⟨List.mem_append_right _ hdiscarded, by simpa using hdeliver, hstay⟩

theorem onData_received (codec : Codec) {l : Link} (hn : l.Numbered) (hw : l.InWindow)
    (hp : l.processes = true) {before : List Bool} (hwatch : CountsDown (l, before))
    (bsn fsn : ℕ) (message : UserDataMessage) (now : ℕ) :
    Received l before bsn (l.onData codec bsn fsn message now) := by
  rcases Bool.or_eq_true_iff.mp hp with haligned | hready
  · have hs : l.state ≠ .outOfService := by
      intro hs
      simp [isAligned, hs] at haligned
    rw [onData_aligned haligned]
    exact receive_received codec hn hw hs (hwatch hs) bsn fsn message now
  · have hstate : l.state = .alignedReady := of_decide_eq_true hready
    have hs : l.state ≠ .outOfService := by simp [hstate]
    have hentered : l.enterService.1.Numbered :=
      hn.of_eq (by simp [hstate, enterService]) rfl hn.fsnIn_lt rfl rfl
    have hcount : l.enterService.1.bsnWatch = countdown before := hwatch hs
    rw [onData_ready hstate]
    exact (receive_received codec hentered hw (by simp [enterService]) hcount bsn fsn message
      now).entered

theorem ruled_of_countsDown (codec : Codec) {p : Link × List Bool} (hn : p.1.Numbered)
    (hw : p.1.InWindow) (hwatch : CountsDown p) (e : Event) : Ruled codec p e := by
  intro bsn fsn message hcall hp
  have hreceived := onData_received codec hn hw hp hwatch bsn fsn message e.now
  unfold step
  rw [hcall]
  exact ⟨hreceived.fails, hreceived.discarded⟩

/-- Every event keeps the countdown that of the observer. -/
theorem CountsDown.step (codec : Codec) {p : Link × List Bool} (hn : p.1.Numbered)
    (hw : p.1.InWindow) (hwatch : CountsDown p) (e : Event) :
    CountsDown (watch (step codec) noteBsn p e) := by
  intro hstate
  have hnote (hsame : noteBsn p.2 p.1 e (p.1.step codec e) = p.2) (hstart : e.call ≠ .start)
      (hcount : (p.1.step codec e).1.bsnWatch = p.1.bsnWatch) :
      (watch (Link.step codec) noteBsn p e).1.bsnWatch =
        countdown (watch (Link.step codec) noteBsn p e).2 := by
    have hbefore : p.1.state ≠ .outOfService :=
      fun hout => hstate (step_outOfService codec hout hstart)
    simp only [watch, hsame, hcount]
    exact hwatch hbefore
  cases hcall : e.call with
  | start =>
    by_cases hout : p.1.state = .outOfService
    · simp [watch, noteBsn, hcall, Link.step, Link.start, hout, countdown]
    · have hsame : p.1.step codec e = (p.1, []) := by simp [Link.step, hcall, Link.start, hout]
      simp only [watch, noteBsn, hcall, hsame, if_neg hout]
      exact hwatch hout
  | onData bsn fsn message =>
    by_cases hp : p.1.processes = true
    · have hreceived := onData_received codec hn hw hp hwatch bsn fsn message e.now
      have hdata : p.1.step codec e = p.1.onData codec bsn fsn message e.now := by
        simp only [Link.step, hcall]
      rw [← hdata] at hreceived
      simp only [watch, noteBsn, hcall, hp, if_true]
      exact hreceived.counts hstate
    · have hsame : (p.1.step codec e).1 = p.1 := by
        have hm := onData_move codec p.1 bsn fsn message e.now
        simp only [Link.step, hcall]
        generalize p.1.onData codec bsn fsn message e.now = r at hm
        cases hm with
        | refused _ _ => rfl
        | enter hs _ => simp [processes, hs] at hp
        | received ha _ => simp [processes, ha] at hp
      refine hnote ?_ (by simp [hcall]) (by rw [hsame])
      simp only [noteBsn, hcall, hp, Bool.false_eq_true, if_false]
  | established | fail | retrieve | detach | abandon | send | timeout | onStatus | flushAck =>
    have hcount := step_bsnWatch codec p.1 e (by simp [hcall]) (by simp [hcall])
    refine hnote ?_ (by simp [hcall]) hcount
    simp only [noteBsn, hcall]

/-- The rule of abnormal BSNs holds of every call of a run that keeps fewer than half the circle of
numbers unacknowledged. -/
theorem abnormal_bsn_ruled (codec : Codec) (timers : LinkTimers) (proving : Proving)
    (txQueue : ℕ) (events : List Event)
    (h : Along (fun l e => (step codec l e).1) (fun l e => (step codec l e).1.InWindow)
      (new timers proving txQueue) events) :
    Along (watch (step codec) noteBsn) (Ruled codec) (new timers proving txQueue, []) events := by
  have hplain := @along_map _ _ (watch (step codec) noteBsn) _
    (fun l e => (step codec l e).1) (fun l e => (step codec l e).1.InWindow) Prod.fst
    (fun _ _ => rfl) (new timers proving txQueue, []) events
  have hnew : (new timers proving txQueue).Numbered := new_numbered timers proving txQueue
  refine @along_of_invariant _ _ _
    (fun p : Link × List Bool => p.1.Numbered ∧ p.1.InWindow ∧ CountsDown p) _ _ ?_ ?_ _
    ⟨hnew, Nat.zero_le _, fun _ => rfl⟩ _ (hplain.mpr h)
  · rintro p e ⟨hn, hw, hwatch⟩ hnext
    exact ⟨(step_move codec p.1 e).numbered hn hw, hnext, hwatch.step codec hn hw e⟩
  · rintro p e ⟨hn, hw, hwatch⟩ _
    exact ruled_of_countsDown codec hn hw hwatch e

/-- A link in service that fails on the second of two abnormal messages. -/
theorem abnormal_bsn_ruled_of_two :
    Along (watch (step wire) noteBsn) (Ruled wire) (new .default .normal 10, [])
      (bringUp ++ [⟨8300, .onData 5 0 .empty⟩, ⟨8400, .onData seqMask 0 .empty⟩,
        ⟨8500, .onData 6 0 .empty⟩]) :=
  abnormal_bsn_ruled wire .default .normal 10 _ (by decide)

/-! ## Half the circle unacknowledged -/

/-- A link in service that has sent up to this number. -/
def sentUpTo (fsnOut acked bsnWatch : ℕ) (unacked : List Unacked) : Link :=
  { new .default .normal 10 with
    state := .inService
    fsnOut := fsnOut
    acked := acked
    bsnWatch := bsnWatch
    unacked := unacked }

def oldest : Unacked := ⟨0, 8300, [0x85]⟩

theorem run_bringUp :
    run (fun l e => (step wire l e).1) (new .default .normal 10)
      (bringUp ++ [⟨8300, .send [0x85]⟩]) = sentUpTo 0 seqMask 0 [oldest] := by
  decide

theorem run_sends (n : ℕ) :
    ∃ rest, run (fun l e => (step wire l e).1) (sentUpTo 0 seqMask 0 [oldest])
      (List.replicate n ⟨8300, .send [0x85]⟩) =
        sentUpTo (n % 0x1000000) seqMask 0 (oldest :: rest) := by
  induction n with
  | zero => exact ⟨[], rfl⟩
  | succ n ih =>
    obtain ⟨rest, hrun⟩ := ih
    have hsend (k : ℕ) (unacked : List Unacked) :
        (step wire (sentUpTo k seqMask 0 unacked) ⟨8300, .send [0x85]⟩).1 =
          sentUpTo ((k + 1) % 0x1000000) seqMask 0
            (unacked ++ [⟨(k + 1) % 0x1000000, 8300, [0x85]⟩]) := rfl
    refine ⟨rest ++ [⟨(n + 1) % 0x1000000, 8300, [0x85]⟩], ?_⟩
    rw [List.replicate_succ', run_append, hrun, run_cons, run_nil, hsend, Nat.mod_add_mod,
      List.cons_append]

/-- Half the circle is sent and acknowledged by one message, and then its first number again. -/
def halfCircle : List Event :=
  bringUp ++ [⟨8300, .send [0x85]⟩] ++ List.replicate 0x7FFFFF ⟨8300, .send [0x85]⟩ ++
    [⟨8400, .onData 0x7FFFFF 0 .empty⟩, ⟨8500, .onData 0 0 .empty⟩]

theorem run_halfCircle :
    ∃ rest, run (fun l e => (step wire l e).1) (new .default .normal 10) halfCircle =
      sentUpTo 0x7FFFFF 0x7FFFFF 2 (oldest :: rest) := by
  obtain ⟨rest, hsends⟩ := run_sends 0x7FFFFF
  have hkept : popAcknowledged 0x7FFFFF (oldest :: rest) = oldest :: rest := by
    simp [popAcknowledged, oldest, seqDistance, seqMask]
  have hreleased : (step wire (sentUpTo 0x7FFFFF seqMask 0 (oldest :: rest))
      ⟨8400, .onData 0x7FFFFF 0 .empty⟩).1 = sentUpTo 0x7FFFFF 0x7FFFFF 0 (oldest :: rest) := by
    simp [step, onData, receive, acknowledge, sentUpTo, seqDistance, seqMask, hkept, new,
      UserDataMessage.empty, UserDataMessage.isEmpty]
  have habnormal : (step wire (sentUpTo 0x7FFFFF 0x7FFFFF 0 (oldest :: rest))
      ⟨8500, .onData 0 0 .empty⟩).1 = sentUpTo 0x7FFFFF 0x7FFFFF 2 (oldest :: rest) := by
    simp [step, onData, receive, acknowledge, sentUpTo, seqDistance, new]
  refine ⟨rest, ?_⟩
  rw [halfCircle, run_append, run_append, run_bringUp, hsends, run_cons, run_cons, run_nil]
  exact (congrArg (fun l => (step wire l ⟨8500, .onData 0 0 .empty⟩).1) hreleased).trans habnormal

/-- With half the circle acknowledged at once the buffer keeps what was acknowledged. The link then
fails on a number that is in the buffer. -/
theorem fails_on_unacknowledged :
    ¬ Along (watch (step wire) noteBsn) (Ruled wire) (new .default .normal 10, [])
      (halfCircle ++ [⟨8600, .onData 0 0 .empty⟩]) := by
  intro h
  have hlast := ((along_append _ _ _).mp h).2.1
  have hlink := run_watch_fst (step wire) noteBsn (new .default .normal 10, []) halfCircle
  generalize run (watch (step wire) noteBsn) (new .default .normal 10, []) halfCircle = p at *
  obtain ⟨rest, hrun⟩ := run_halfCircle
  rw [hrun] at hlink
  obtain ⟨l, before⟩ := p
  obtain rfl : l = sentUpTo 0x7FFFFF 0x7FFFFF 2 (oldest :: rest) := hlink
  have hfails : .outOfService .abnormalBsn ∈ (step wire
      (sentUpTo 0x7FFFFF 0x7FFFFF 2 (oldest :: rest)) ⟨8600, .onData 0 0 .empty⟩).2 := by
    simp [step, onData, receive, acknowledge, sentUpTo, seqDistance, fail, new]
  have habnormal := ((hlast 0 0 .empty rfl rfl).1.mp hfails).1
  exact habnormal.2 oldest List.mem_cons_self rfl

end SiphonSigtran.M2pa.Link
