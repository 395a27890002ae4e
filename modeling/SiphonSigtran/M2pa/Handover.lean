import SiphonSigtran.M2pa.RunnerSettles

/-!
# What a failed link hands over

The task of a link hands what level 2 held when it failed to the traffic of the link, which keeps it
until level 3 takes it, and says with which number a changeover is to begin. That is what the task
does when the link was available. One that was not carried nothing of level 3's, and what it held
goes with it; and a link that is aligned again delivers before its test is passed.
-/

namespace SiphonSigtran.M2pa

open Lib Lib.Machine

/-- An MSU is handed over. -/
def Action.delivers : Action → Bool
  | .deliver _ => true
  | _ => false

/-! ## The traffic of a link that failed -/

namespace LinkTraffic

variable {t : LinkTraffic}

/-- What is kept of one failure a second one does not replace. -/
theorem unavailable_kept {held : Retrievable} (h : t.kept = some held)
    (left : Option Retrievable) : (t.unavailable left).1.kept = some held := by
  unfold unavailable failed
  cases left with
  | none =>
    dsimp only
    split_ifs <;> exact h
  | some left =>
    dsimp only
    split_ifs <;> simp_all

/-- A link that carried traffic keeps what it held. -/
theorem unavailable_keeps (hcarried : t.state ≠ .closed) (hkept : t.kept = none)
    (left : Retrievable) : (t.unavailable (some left)).1.kept = some left := by
  unfold unavailable failed
  dsimp only
  split_ifs <;> simp_all

/-- What is kept and not a test of the link goes to the alternatives. -/
theorem divertAll_retrieved {held : Retrievable} (h : t.kept = some held) {fsnc : Option ℕ}
    {msu : Msu} (hmem : msu ∈ (held.retrieve fsnc).resend) (htest : isLinkTest msu = false) :
    .retrieved msu ∈ (t.divertAll fsnc).2 := by
  have htake : (t.divert fsnc).2.messages.take (t.divert fsnc).2.resent =
      (held.retrieve fsnc).resend.filter fun msu => !isLinkTest msu := by
    simp only [divert, h, List.take_left]
  unfold divertAll
  dsimp only
  rw [htake]
  simp [List.mem_filter, hmem, htest]

end LinkTraffic

namespace Runner

variable {ι : Type*} (port : LinkPort ι)

/-! ## What is promised of a failure -/

/-- The link fails in the step. -/
def Fails (r : Runner) (e : ℕ × Input) : Prop :=
  r.link.state ≠ .outOfService ∧ (r.next port e).link.state = .outOfService

/-- The link is available and has its traffic, and nothing is kept of a failure before. -/
def Carries (r : Runner) : Prop :=
  r.available = true ∧ r.traffic.state ≠ .closed ∧ r.traffic.kept = none

/-- Level 3 takes nothing of what is kept of a failure. -/
def Untaken : Runner → List (ℕ × Input) → Prop :=
  Along (next port) fun r e => takes r e.2 = false

/-- Level 2 is not started. -/
def Unstarted : Runner → List (ℕ × Input) → Prop :=
  Along (next port) fun r e => (r.next port e).link.state = .outOfService

/-- The task took over `held` from a link that failed: the traffic keeps it whatever comes, until
level 3 has it retrieved, and the next start abandons nothing. -/
structure HandedOver (held : Retrievable) (r : Runner) : Prop where
  settled : r.applying = false
  kept : ∀ es, Untaken port r es → (run (next port) r es).traffic.kept = some held
  retrieved : ∀ es, Untaken port r es → (run (next port) r es).applying = false →
    ∀ now fsnc, ∀ msu ∈ (held.retrieve fsnc).resend, isLinkTest msu = false →
      .traffic (.retrieved msu) ∈
        ((run (next port) r es).step port (now, .command (.divert fsnc))).2
  abandoned : ∀ es, Unstarted port r es → ∀ count,
    .discarded .txLostOnFailure count ∉ ((run (next port) r es).link.start port.codec).2

/-- All that a link that fails holds, sent or unsent, is handed over when everything the failure
asks for is carried out. -/
def HandsOver (r : Runner) (e : ℕ × Input) : Prop :=
  Fails port r e → Carries r → ∃ n, ∀ answers : List (ℕ × Bool), n ≤ answers.length →
    HandedOver port r.link.leave (run (next port) (r.next port e) (works answers))

/-- Nothing is delivered as long as level 2 is not in service. -/
def Silent (r : Runner) : Prop :=
  ∀ es, Along (next port) (fun r e => (r.next port e).link.isAligned = false) r es →
    Along (next port) (fun r e => ∀ msu, .delivered msu ∉ (r.step port e).2) r es

/-- The number of the last message accepted since level 2 was started. -/
def noteAccepted (accepted : ℕ) (r : Runner) (e : ℕ × Input) (s : Runner × List Report) : ℕ :=
  if r.link.state = .outOfService ∧ s.1.link.state ≠ .outOfService then seqMask
  else if s.1.pending.any Action.delivers then
    ((brings port r e.2).map (· % 0x1000000)).getD accepted
  else accepted

/-- A link that goes down is reported with the number of the last message accepted. -/
def Covers (p : Runner × ℕ) (e : ℕ × Input) : Prop :=
  ∀ bsnt, .linkDown bsnt ∈ (p.1.step port e).2 → bsnt = p.2 ∧ Silent port (p.1.next port e)

variable {port} {r : Runner} {e : ℕ × Input} {held : Retrievable}

/-! ## What a failure leaves to the traffic -/

/-- What a failed link held is set aside, or the traffic has taken it over. -/
structure Owes (held : Retrievable) (r : Runner) : Prop where
  ordered : Ordered r
  out : r.link.state = .outOfService
  owed : (r.applying = true ∧ Carries r ∧ r.link.retrievable = some held) ∨
    (r.link.retrievable = none ∧ r.traffic.kept = some held)

theorem Fails.owes (h : Ordered r) (hf : Fails port r e) (hc : Carries r) :
    Owes r.link.leave (r.next port e) := by
  obtain ⟨hup, hdown⟩ := hf
  have hmove : Move port r e.2 (r.step port e) := step_move h e
  refine ⟨h.step port e, hdown, .inl ?_⟩
  unfold next at hdown ⊢
  generalize r.step port e = s at hmove hdown
  cases hmove with
  | asked rest out ha =>
    have happ : s.1.applying = true := by
      by_contra hno
      obtain ⟨-, hlink, -⟩ := ha.idle (by simpa using hno)
      exact hup (hlink ▸ hdown)
    have htraffic : s.1.traffic = r.traffic :=
      ha.traffic.resolve_right fun hno => hup (hno.2.1 hdown)
    refine ⟨happ, ⟨ha.available.trans hc.1, ?_, ?_⟩, ha.outcome.setAside hup hdown⟩
    · rw [htraffic]
      exact hc.2.1
    · rw [htraffic]
      exact hc.2.2
  | started hs =>
    rw [hs.state] at hdown
    cases hdown
  | finished happ _ =>
    obtain ⟨hdone, -, -⟩ := h.finished port happ
    exact absurd (hdone.state.symm.trans hdown) hup

/-- A task that works keeps what it owes, until the traffic has it. -/
theorem Owes.work (h : Owes held r) (answer : ℕ × Bool) :
    Owes held (r.next port (answer.1, .work answer.2)) := by
  obtain ⟨hordered, hout, howed⟩ := h
  cases happ : r.applying with
  | false =>
    rw [next_work_of_idle happ]
    exact ⟨hordered, hout, howed⟩
  | true =>
    have hmove : Move port r (.work answer.2) (r.step port (answer.1, .work answer.2)) :=
      step_move hordered (answer.1, .work answer.2)
    have hnext := hordered.step port (answer.1, .work answer.2)
    unfold next
    generalize r.step port (answer.1, .work answer.2) = s at hmove hnext
    cases hmove with
    | asked rest out ha =>
      obtain ⟨hstate, hretrievable⟩ := ha.outcome.out hout
      have hbusy : s.1.applying = true := by
        by_contra hno
        exact absurd ((ha.idle (by simpa using hno)).1.symm.trans happ) (by simp)
      have htraffic : s.1.traffic = r.traffic :=
        ha.traffic.resolve_right fun hno => absurd (hno.1.symm.trans happ) (by simp)
      refine ⟨hnext, hstate, ?_⟩
      unfold Carries at howed ⊢
      rw [hretrievable, htraffic, ha.available, hbusy]
      exact howed.imp (fun hset => ⟨rfl, hset.2⟩) id
    | started hs => exact absurd (hs.idle.symm.trans happ) (by simp)
    | finished _ _ =>
      obtain ⟨hdone, -, -⟩ := hordered.finished port happ
      refine ⟨hnext, hdone.state.trans hout, .inr ?_⟩
      rcases howed with ⟨-, ⟨hup, hcarried, hnone⟩, hset⟩ | ⟨hnone, hkept⟩
      · obtain ⟨htraffic, hempty⟩ := hdone.handed hup hout
        refine ⟨hempty, ?_⟩
        rw [htraffic]
        change (r.traffic.unavailable r.link.retrievable).1.kept = some held
        rw [hset]
        exact LinkTraffic.unavailable_keeps hcarried hnone held
      · refine ⟨hdone.retrievable.elim (fun hsame => hsame.trans hnone) id, ?_⟩
        rcases hdone.traffic with htraffic | htraffic
        · rw [htraffic]
          exact hkept
        · rw [htraffic]
          exact LinkTraffic.unavailable_kept hkept _

theorem Owes.works (h : Owes held r) (answers : List (ℕ × Bool)) :
    Owes held (run (next port) r (works answers)) := by
  induction answers generalizing r with
  | nil => exact h
  | cons answer answers ih =>
    rw [Runner.works, List.map_cons, run_cons]
    exact ih (h.work answer)

/-! ## What the traffic keeps -/

/-- Only level 3 takes what is kept of a failure. -/
theorem kept_step (h : Ordered r) (hkept : r.traffic.kept = some held)
    (htakes : takes r e.2 = false) : (r.next port e).traffic.kept = some held := by
  have hmove : Move port r e.2 (r.step port e) := step_move h e
  unfold next
  generalize r.step port e = s at hmove
  cases hmove with
  | asked rest out ha =>
    rcases ha.traffic with hsame | ⟨-, -, htaken | hsame⟩
    · rw [hsame, hkept]
    · exact absurd (htaken.symm.trans htakes) (by simp)
    · rw [hsame, hkept]
  | started hs => rw [hs.traffic, hkept]
  | finished happ _ =>
    obtain ⟨hdone, -, -⟩ := h.finished port happ
    rcases hdone.traffic with hsame | hsame
    · rw [hsame]
      exact hkept
    · rw [hsame]
      exact LinkTraffic.unavailable_kept hkept _

/-- A link out of service that has nothing set aside has nothing to abandon. -/
theorem empty_step (h : Ordered r) (hout : r.link.state = .outOfService)
    (hnone : r.link.retrievable = none) (hstill : (r.next port e).link.state = .outOfService) :
    (r.next port e).link.retrievable = none := by
  have hmove : Move port r e.2 (r.step port e) := step_move h e
  unfold next at hstill ⊢
  generalize r.step port e = s at hmove hstill
  cases hmove with
  | asked rest out ha => exact (ha.outcome.out hout).2.trans hnone
  | started hs =>
    rw [hs.state] at hstill
    cases hstill
  | finished happ _ =>
    obtain ⟨hdone, -, -⟩ := h.finished port happ
    exact hdone.retrievable.elim (fun hsame => hsame.trans hnone) id

theorem not_abandoned {l : Link} (hout : l.state = .outOfService) (hnone : l.retrievable = none)
    (count : ℕ) : .discarded .txLostOnFailure count ∉ (l.start port.codec).2 := by
  have hcount : l.abandon.2 = 0 := by
    rw [Link.abandon, hnone]
    rfl
  have hstatus : .discarded .txLostOnFailure count ∉
      l.started.sendStatus port.codec .alignment statusStream := by
    unfold Link.sendStatus Link.sendFrame
    split <;> simp
  rw [start_of_out hout]
  unfold Link.startActions
  rw [hcount, if_neg (Nat.lt_irrefl 0)]
  simpa using hstatus

theorem Owes.handedOver (h : Owes held r) (happ : r.applying = false) : HandedOver port held r := by
  obtain ⟨hordered, hout, howed⟩ := h
  obtain ⟨hnone, hkept⟩ := howed.resolve_left fun hno => absurd (hno.1.symm.trans happ) (by simp)
  have hkeeps : ∀ es, Untaken port r es → Ordered (run (next port) r es) ∧
      (run (next port) r es).traffic.kept = some held := by
    intro es hes
    refine run_invariant (P := fun r => Ordered r ∧ r.traffic.kept = some held)
      (fun r e hr htakes => ?_) ⟨hordered, hkept⟩ hes
    exact ⟨hr.1.step port e, kept_step hr.1 hr.2 htakes⟩
  refine ⟨happ, fun es hes => (hkeeps es hes).2, fun es hes hidle now fsnc msu hmem htest => ?_,
    fun es hes => ?_⟩
  · obtain ⟨hafter, hstill⟩ := hkeeps es hes
    have hretrieved := LinkTraffic.divertAll_retrieved hstill hmem htest
    have hended := hafter.ended hidle
    unfold step
    rw [hidle]
    cases hphase : (run (next port) r es).phase with
    | ending => exact absurd hphase hended
    | idle => exact List.mem_map_of_mem hretrieved
    | serving => exact List.mem_map_of_mem hretrieved
  · obtain ⟨-, hafter, hempty⟩ := run_invariant
      (P := fun r => Ordered r ∧ r.link.state = .outOfService ∧ r.link.retrievable = none)
      (fun r e hr hstill => ⟨hr.1.step port e, hstill, empty_step hr.1 hr.2.1 hr.2.2 hstill⟩)
      ⟨hordered, hout, hnone⟩ hes
    exact not_abandoned hafter hempty

theorem handsOver (h : Ordered r) (e : ℕ × Input) : HandsOver port r e := by
  intro hf hc
  have howes := hf.owes h hc
  refine ⟨(r.next port e).toDo + 1, fun answers hn => ?_⟩
  exact (howes.works answers).handedOver (settles howes.ordered hn)

/-! ## The number in a changeover order -/

/-- Nothing is to be delivered. -/
structure Mute (r : Runner) : Prop where
  ordered : Ordered r
  undelivered : ∀ msu, .deliver msu ∉ r.pending

theorem Mute.step (h : Mute r) (haligned : (r.next port e).link.isAligned = false) :
    Mute (r.next port e) ∧ ∀ msu, .delivered msu ∉ (r.step port e).2 := by
  obtain ⟨hordered, hnone⟩ := h
  have hmove : Move port r e.2 (r.step port e) := step_move hordered e
  have hnext := hordered.step port e
  unfold next at haligned ⊢
  generalize r.step port e = s at hmove haligned hnext
  cases hmove with
  | asked rest out ha =>
    refine ⟨⟨hnext, fun msu hmem => ?_⟩, fun msu hmem => hnone msu (ha.delivered msu hmem)⟩
    rw [ha.pending] at hmem
    rcases List.mem_append.mp hmem with hmem | hmem
    · exact hnone msu (ha.rest _ hmem)
    · exact absurd ((ha.outcome.aligned hmem).symm.trans haligned) (by simp)
  | started hs =>
    refine ⟨⟨hnext, not_deliver_of_plain hs.pending⟩, fun msu hmem => ?_⟩
    rw [hs.quiet] at hmem
    cases hmem
  | finished happ hpending =>
    obtain ⟨hdone, hd, -⟩ := hordered.finished port happ
    refine ⟨⟨hnext, fun msu hmem => ?_⟩, hd⟩
    rw [hdone.pending.trans hpending] at hmem
    cases hmem

theorem Mute.silent (h : Mute r) : Silent port r := fun _ hes =>
  along_of_invariant (P := Mute) (fun _ _ hm haligned => (hm.step haligned).1)
    (fun _ _ hm haligned => (hm.step haligned).2) h hes

/-- The number that a changeover order is to carry is that of the last message accepted. -/
structure Numbered (p : Runner × ℕ) : Prop where
  ordered : Ordered p.1
  fresh : p.1.link.Fresh
  named : p.1.link.Named
  accepted : p.2 = p.1.link.fsnIn

theorem delivers_iff {out : List Action} :
    out.any Action.delivers = true ↔ ∃ msu, .deliver msu ∈ out := by
  rw [List.any_eq_true]
  constructor
  · rintro ⟨action, hmem, hdelivers⟩
    cases action with
    | deliver msu => exact ⟨msu, hmem⟩
    | _ => cases hdelivers
  · rintro ⟨msu, hmem⟩
    exact ⟨.deliver msu, hmem, rfl⟩

theorem brings_of_applying (happ : r.applying = true) (i : Input) : brings port r i = none := by
  unfold brings
  rw [if_pos happ]

/-- A message accepted is the only thing that changes the number. -/
theorem Asked.accepted {rest out : List Action} {s : Runner × List Report} (h : Ordered r)
    (ha : Asked port r e.2 rest out s) : noteAccepted port r.link.fsnIn r e s = s.1.link.fsnIn := by
  have hstart : ¬(r.link.state = .outOfService ∧ s.1.link.state ≠ .outOfService) :=
    fun hno => hno.2 (ha.outcome.out hno.1).1
  unfold noteAccepted
  rw [if_neg hstart]
  obtain ⟨n, msu, hbrings, hmem, hnumber⟩ | ⟨hnone, hnumber⟩ := ha.outcome.number
  · have hany : s.1.pending.any Action.delivers = true := by
      rw [ha.pending]
      exact delivers_iff.mpr ⟨msu, List.mem_append_right _ hmem⟩
    rw [if_pos hany, hbrings, hnumber]
    rfl
  · split_ifs with hany
    · -- What is still to be handed over was accepted before.
      obtain ⟨msu, hmem⟩ := delivers_iff.mp hany
      rw [ha.pending] at hmem
      have hrest := (List.mem_append.mp hmem).resolve_right (hnone msu)
      have happ : r.applying = true := by
        by_contra hidle
        have hempty := h.idle (by simpa using hidle)
        have hbefore := ha.rest _ hrest
        rw [hempty] at hbefore
        cases hbefore
      rw [brings_of_applying happ, hnumber]
      rfl
    · exact hnumber.symm

theorem Numbered.step {p : Runner × ℕ} (h : Numbered p) (e : ℕ × Input) :
    Numbered (watch (step port) (noteAccepted port) p e) ∧ Covers port p e := by
  obtain ⟨r, accepted⟩ := p
  obtain ⟨hordered, hfresh, hnamed, haccepted⟩ := h
  dsimp only at hordered hfresh hnamed haccepted
  subst haccepted
  have hmove : Move port r e.2 (r.step port e) := step_move hordered e
  have hnext := hordered.step port e
  unfold Covers watch next
  dsimp only
  generalize r.step port e = s at hmove hnext
  cases hmove with
  | asked rest out ha =>
    exact ⟨⟨hnext, ha.outcome.fresh hfresh, ha.outcome.named hfresh hnamed, ha.accepted hordered⟩,
      fun bsnt hmem => absurd hmem (ha.quiet.2 bsnt)⟩
  | started hs =>
    have hstart : r.link.state = .outOfService ∧ s.1.link.state ≠ .outOfService := by
      refine ⟨hs.out, ?_⟩
      rw [hs.state]
      simp
    refine ⟨⟨hnext, fun _ => hs.retrievable, fun held hheld => ?_, ?_⟩, fun bsnt hmem => ?_⟩
    · rw [hs.retrievable] at hheld
      cases hheld
    · unfold noteAccepted
      rw [if_pos hstart, hs.fsnIn]
    · rw [hs.quiet] at hmem
      cases hmem
  | finished happ hpending =>
    obtain ⟨hdone, -, hdown⟩ := hordered.finished port happ
    have hempty := hdone.pending.trans hpending
    refine ⟨⟨hnext, fun hup => ?_, fun held hheld => ?_, ?_⟩, fun bsnt hmem => ⟨?_, ?_⟩⟩
    · rcases hdone.retrievable with hsame | hnone
      · exact hsame.trans (hfresh fun hout => hup (hdone.state.trans hout))
      · exact hnone
    · rcases hdone.retrievable with hsame | hnone
      · rw [hsame] at hheld
        exact (hnamed held hheld).trans hdone.fsnIn.symm
      · rw [hnone] at hheld
        cases hheld
    · have hstart : ¬(r.link.state = .outOfService ∧
          (r.acknowledged.finish port).1.link.state ≠ .outOfService) :=
        fun hno => hno.2 (hdone.state.trans hno.1)
      unfold noteAccepted
      rw [if_neg hstart, hempty, brings_of_applying happ]
      exact hdone.fsnIn.symm
    · exact (hdown bsnt hmem).trans hnamed.bsnt
    · refine Mute.silent ⟨hnext, fun msu hmem => ?_⟩
      rw [hempty] at hmem
      cases hmem

/-- In every run of the task of a link, what an available link holds when it fails is handed over,
and the number it goes down with is that of the last message accepted. -/
theorem failure_handed_over (port : LinkPort ι) (es : List (ℕ × Input)) :
    Along (watch (step port) (noteAccepted port))
      (fun p e => HandsOver port p.1 e ∧ Covers port p e) (new port, seqMask) es := by
  have hstart : Numbered (new port, seqMask) :=
    ⟨new_ordered port, fun _ => rfl, fun held hheld => (by cases hheld), rfl⟩
  refine along_of_invariant (P := Numbered) (fun p e hp _ => (hp.step e).1) (fun p e hp _ => ?_)
    hstart (along_trivial _ es)
  exact ⟨handsOver hp.ordered e, (hp.step e).2⟩

/-! ## A link with a test -/

/-- A link of two nodes that is tested when it comes into service. -/
def testedPort : LinkPort (Fin 4) where
  settings :=
    { timers := .default
      proving := .normal
      txQueue := 16
      restart := 1000
      test := some ⟨5000, 60000, [1, 2]⟩
      ownPc := 1
      adjacentPc := some 2
      ni := 2
      slc := 0
      index := some 0 }
  codec := wire
  mtp3 := Transport.ituCodec
  encodeTest
    | .sltm pattern => some (0x11 :: UInt8.ofNat (16 * pattern.length) :: pattern)
    | .slta pattern => some (0x21 :: UInt8.ofNat (16 * pattern.length) :: pattern)
  decodeTest
    | 0x11 :: _ :: pattern => some (.sltm pattern)
    | 0x21 :: _ :: pattern => some (.slta pattern)
    | _ => none

/-- A message of the other node to this one. -/
def fromPeer (si : ℕ) (data : List UInt8) : Msu :=
  Transport.ituCodec.encode .itu ⟨si, Transport.ituCodec.fromBits 2, 0, 2, 1, 0, data⟩

def statusFrom (now : ℕ) (status : Status) (bsn fsn : ℕ) : ℕ × Input :=
  (now, .received (linkStatusFrame status bsn fsn) ppidM2pa)

def dataFrom (now bsn fsn : ℕ) (msu : Msu) : ℕ × Input :=
  (now, .received (userDataFrame bsn fsn msu) ppidM2pa)

/-- Alignment with a peer that finishes proving first, into service. -/
def aligning (now : ℕ) : List (ℕ × Input) :=
  [statusFrom now .alignment seqMask seqMask, statusFrom (now + 1) .provingNormal seqMask seqMask,
    statusFrom (now + 2) .ready seqMask seqMask, (now + 8201, .fire)]

/-- Each event, with what it asks for carried out. -/
def carriedOut (es : List (ℕ × Input)) : List (ℕ × Input) :=
  es.flatMap fun e => e :: works (List.replicate 12 (e.1, false))

/-- A link that passed its test and has its traffic. -/
def carrying : List (ℕ × Input) :=
  carriedOut ((0, .associated) :: aligning 1 ++
    [dataFrom 8300 0 0 (fromPeer 1 [0x21, 0x20, 1, 2]), (8400, .command .open),
      (8500, .carry (fromPeer 3 [5]))])

/-- It fails, its changeover is over, and it is aligned again when its traffic is to come back. -/
def untested : List (ℕ × Input) :=
  carriedOut (statusFrom 8600 .outOfService 0 0 :: (8700, .command (.divert (some 0))) ::
    (9600, .fire) :: aligning 9700 ++
    [dataFrom 18000 seqMask 0 (fromPeer 3 [7]), (18100, .command .hold)])

/-- What others see of a run. -/
def reports (port : LinkPort ι) : Runner → List (ℕ × Input) → List Report
  | _, [] => []
  | r, e :: es => (r.step port e).2 ++ reports port (r.next port e) es

/-- What level 3 hears of a link and what the link delivers. -/
def notable : Report → Bool
  | .delivered _ | .linkUp | .linkDown _ => true
  | _ => false

theorem failure_handed_over_of_status : ∃ n, ∀ answers : List (ℕ × Bool), n ≤ answers.length →
    HandedOver testedPort ⟨0, 0, [(1, fromPeer 3 [5])], []⟩
      (run (next testedPort) ((run (next testedPort) (new testedPort) carrying).next testedPort
        (statusFrom 8600 .outOfService 0 0)) (works answers)) := by
  have hall := failure_handed_over testedPort (carrying ++ [statusFrom 8600 .outOfService 0 0])
  rw [along_append] at hall
  have hlast := hall.2.1.1
  rw [run_watch_fst] at hlast
  change HandsOver testedPort (run (next testedPort) (new testedPort) carrying) _ at hlast
  have hleave : (run (next testedPort) (new testedPort) carrying).link.leave =
      ⟨0, 0, [(1, fromPeer 3 [5])], []⟩ := by decide +kernel
  rw [← hleave]
  exact hlast ⟨by decide +kernel, by decide +kernel⟩ ⟨by decide +kernel, by decide +kernel,
    by decide +kernel⟩

/-- A link that is aligned again delivers before it is up, and what it holds when it fails before
its test is passed goes with it. -/
theorem given_up_before_tested :
    (reports testedPort (new testedPort) (carrying ++ untested)).filter notable =
      [.delivered (fromPeer 1 [0x21, 0x20, 1, 2]), .linkUp, .linkDown 0,
        .delivered (fromPeer 3 [7])] ∧
    Fails testedPort (run (next testedPort) (new testedPort) (carrying ++ untested))
      (statusFrom 18200 .outOfService 0 0) ∧
    (run (next testedPort) (new testedPort) (carrying ++ untested)).traffic.state = .hold ∧
    (run (next testedPort) (new testedPort) (carrying ++ untested)).traffic.kept = none ∧
    (run (next testedPort) (new testedPort) (carrying ++ untested)).link.leave.len = 1 ∧
    (run (next testedPort) (new testedPort) (carrying ++ untested ++
      carriedOut [statusFrom 18200 .outOfService 0 0])).traffic.kept = none ∧
    .discarded .txLostOnFailure 1 ∈ ((run (next testedPort) (new testedPort)
      (carrying ++ untested ++ carriedOut [statusFrom 18200 .outOfService 0 0])).link.start
        wire).2 :=
  ⟨by decide +kernel, ⟨by decide +kernel, by decide +kernel⟩, by decide +kernel, by decide +kernel,
    by decide +kernel, by decide +kernel, by decide +kernel⟩

end Runner

end SiphonSigtran.M2pa
