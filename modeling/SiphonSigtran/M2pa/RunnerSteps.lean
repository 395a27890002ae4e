import SiphonSigtran.M2pa.LinkOutcome
import SiphonSigtran.M2pa.Runner

/-!
# What one step of the task of a link can do

A step asks something of the link, starts alignment, or finds everything done: `Move`. An invariant
of the task is proved by cases on that.
-/

namespace SiphonSigtran.M2pa.Runner

open Link (Outcome)

variable {ι : Type*} {port : LinkPort ι} {now : ℕ}

/-! ## The test and its link -/

/-- What neither the test nor a timer touches. -/
structure Same (r r' : Runner) : Prop where
  phase : r'.phase = r.phase
  lost : r'.lost = r.lost
  available : r'.available = r.available
  traffic : r'.traffic = r.traffic
  applying : r'.applying = r.applying
  restart : r'.deadlines.restart = r.deadlines.restart

theorem Same.rfl (r : Runner) : Same r r :=
  ⟨Eq.refl _, Eq.refl _, Eq.refl _, Eq.refl _, Eq.refl _, Eq.refl _⟩

theorem Same.trans {r r' r'' : Runner} (h : Same r r') (h' : Same r' r'') : Same r r'' where
  phase := h'.phase.trans h.phase
  lost := h'.lost.trans h.lost
  available := h'.available.trans h.available
  traffic := h'.traffic.trans h.traffic
  applying := h'.applying.trans h.applying
  restart := h'.restart.trans h.restart

theorem same_ask (r : Runner) (asked : Link × List Action) : Same r (r.ask asked) :=
  ⟨rfl, rfl, rfl, rfl, rfl, rfl⟩

/-- The link is asked for nothing. -/
structure Quiet (r r' : Runner) : Prop where
  same : Same r r'
  link : r'.link = r.link
  pending : r'.pending = r.pending

theorem Quiet.rfl (r : Runner) : Quiet r r := ⟨.rfl r, Eq.refl _, Eq.refl _⟩

theorem Quiet.trans {r r' r'' : Runner} (h : Quiet r r') (h' : Quiet r' r'') : Quiet r r'' :=
  ⟨h.same.trans h'.same, h'.link.trans h.link, h'.pending.trans h.pending⟩

/-- What the test has its link do: nothing, send one message, or fail. -/
inductive Tested (port : LinkPort ι) (now : ℕ) (r : Runner) : Runner → Prop
  | quiet {r' : Runner} (h : Quiet r r') : Tested port now r r'
  | sent {r' : Runner} (msu : Msu) (h : Same r r')
      (hl : r'.link = (r.link.send port.codec msu now).1)
      (hp : r'.pending = r.pending ++ (r.link.send port.codec msu now).2) : Tested port now r r'
  | failed {r' : Runner} (h : Same r r')
      (hl : r'.link = (r.link.fail port.codec .linkTest).1)
      (hp : r'.pending = r.pending ++ (r.link.fail port.codec .linkTest).2) :
      Tested port now r r'

theorem Quiet.tested {r r' r'' : Runner} (h : Quiet r r') (ht : Tested port now r' r'') :
    Tested port now r r'' := by
  cases ht with
  | quiet hq => exact .quiet (h.trans hq)
  | sent msu hs hl hp =>
    rw [h.link] at hl hp
    rw [h.pending] at hp
    exact .sent msu (h.same.trans hs) hl hp
  | failed hs hl hp =>
    rw [h.link] at hl hp
    rw [h.pending] at hp
    exact .failed (h.same.trans hs) hl hp

theorem Tested.quiet_after {r r' r'' : Runner} (ht : Tested port now r r') (h : Quiet r' r'') :
    Tested port now r r'' := by
  cases ht with
  | quiet hq => exact .quiet (hq.trans h)
  | sent msu hs hl hp => exact .sent msu (hs.trans h.same) (h.link.trans hl) (h.pending.trans hp)
  | failed hs hl hp => exact .failed (hs.trans h.same) (h.link.trans hl) (h.pending.trans hp)

theorem Tested.same {r r' : Runner} (h : Tested port now r r') : Same r r' := by
  cases h with
  | quiet h => exact h.same
  | sent _ h _ _ => exact h
  | failed h _ _ => exact h

theorem sendTest_tested (r : Runner) : Quiet r (r.sendTest port now) ∨
    ∃ msu, r.sendTest port now = r.ask (r.link.send port.codec msu now) := by
  unfold sendTest
  split
  · split
    next msu _ => exact .inr ⟨msu, rfl⟩
    next => exact .inl (.rfl r)
  · exact .inl (.rfl r)

theorem applyTestAction_quiet (r : Runner) {action : TestAction} (h : action.asks = false) :
    Quiet r (applyTestAction port now r action) := by
  cases action with
  | sendTest | failed => cases h
  | start timer after => exact ⟨⟨rfl, rfl, rfl, rfl, rfl, rfl⟩, rfl, rfl⟩
  | stop timer => exact ⟨⟨rfl, rfl, rfl, rfl, rfl, rfl⟩, rfl, rfl⟩
  | available | attemptFailed => exact .rfl r

theorem applyTestActions_quiet (r : Runner) {out : List TestAction}
    (h : out.filter TestAction.asks = []) :
    Quiet r (out.foldl (applyTestAction port now) r) := by
  induction out generalizing r with
  | nil => exact .rfl r
  | cons action out ih =>
    have hall := List.filter_eq_nil_iff.mp h
    have hquiet : action.asks = false := by simpa using hall action List.mem_cons_self
    refine (applyTestAction_quiet r hquiet).trans (ih _ (List.filter_eq_nil_iff.mpr ?_))
    exact fun a ha => hall a (List.mem_cons_of_mem _ ha)

/-- An action that asks something of the link. -/
theorem applyTestAction_tested (r : Runner) (action : TestAction) :
    Tested port now r (applyTestAction port now r action) := by
  cases h : action.asks with
  | false => exact .quiet (applyTestAction_quiet r h)
  | true =>
    cases action with
    | sendTest =>
      have hsend : Quiet r (r.sendTest port now) ∨
          ∃ msu, r.sendTest port now = r.ask (r.link.send port.codec msu now) := sendTest_tested r
      obtain hquiet | ⟨msu, heq⟩ := hsend
      · exact .quiet hquiet
      · rw [applyTestAction, heq]
        exact .sent msu (same_ask r _) rfl rfl
    | failed => exact .failed (same_ask r _) rfl rfl
    | start timer after => cases h
    | stop timer => cases h
    | available => cases h
    | attemptFailed => cases h

theorem applyTestActions_tested (r : Runner) {out : List TestAction} (h : LinkTest.Asks out) :
    Tested port now r (out.foldl (applyTestAction port now) r) := by
  induction out generalizing r with
  | nil => exact .quiet (.rfl r)
  | cons action out ih =>
    rw [List.foldl_cons]
    cases hasks : action.asks with
    | false =>
      have hfilter : (action :: out).filter TestAction.asks = out.filter TestAction.asks :=
        List.filter_cons_of_neg (by simp [hasks])
      unfold LinkTest.Asks at h ih
      rw [hfilter] at h
      exact (applyTestAction_quiet r hasks).tested (ih _ h)
    | true =>
      -- One action asks something, so that the others do not.
      have hfilter : (action :: out).filter TestAction.asks =
          action :: out.filter TestAction.asks := List.filter_cons_of_pos hasks
      have hrest : out.filter TestAction.asks = [] := by
        unfold LinkTest.Asks at h
        rw [hfilter] at h
        rcases h with h | h | h
        · cases h
        · exact (List.cons.inj h).2
        · exact (List.cons.inj h).2
      exact (applyTestAction_tested r action).quiet_after (applyTestActions_quiet _ hrest)

theorem applyTestActions_test (r : Runner) (out : List TestAction) :
    (out.foldl (applyTestAction port now) r).test = r.test := by
  induction out generalizing r with
  | nil => rfl
  | cons action out ih =>
    rw [List.foldl_cons, ih]
    cases action with
    | sendTest =>
      simp only [applyTestAction, sendTest]
      split
      · split <;> rfl
      · rfl
    | _ => rfl

variable {operation : LinkTest → LinkTest × List TestAction}

theorem applyTest_tested (r : Runner) (h : ∀ test, LinkTest.Asks (operation test).2) :
    Tested port now r (r.applyTest port now operation) := by
  unfold applyTest
  split
  next test _ =>
    have hquiet : Quiet r { r with test := some (operation test).1 } :=
      ⟨⟨rfl, rfl, rfl, rfl, rfl, rfl⟩, rfl, rfl⟩
    exact hquiet.tested (applyTestActions_tested _ (h test))
  next => exact .quiet (.rfl r)

theorem applyTest_quiet (r : Runner)
    (h : ∀ test, r.test = some test → (operation test).2.filter TestAction.asks = []) :
    Quiet r (r.applyTest port now operation) := by
  unfold applyTest
  split
  next test htest =>
    have hquiet : Quiet r { r with test := some (operation test).1 } :=
      ⟨⟨rfl, rfl, rfl, rfl, rfl, rfl⟩, rfl, rfl⟩
    exact hquiet.trans (applyTestActions_quiet _ (h test htest))
  next => exact .rfl r

theorem applyTest_test (r : Runner) : (r.applyTest port now operation).test =
    r.test.map fun test => (operation test).1 := by
  unfold applyTest
  split
  next test htest => rw [applyTestActions_test, htest, Option.map_some]
  next htest => rw [htest, Option.map_none]

theorem Tested.outcome {r r' : Runner} (h : Tested port now r r') (fsn : Option ℕ) :
    ∃ out, r'.pending = r.pending ++ out ∧ r.link.Outcome fsn (r'.link, out) := by
  cases h with
  | quiet h =>
    refine ⟨[], by rw [h.pending, List.append_nil], ?_⟩
    rw [h.link]
    exact .rfl r.link fsn
  | sent msu _ hl hp =>
    refine ⟨_, hp, ?_⟩
    rw [hl]
    exact (Link.send_move port.codec r.link msu now).outcome fsn
  | failed _ hl hp =>
    refine ⟨_, hp, ?_⟩
    rw [hl]
    exact (Link.fail_move port.codec r.link .linkTest).outcome fsn

/-! ## Timers -/

theorem fireLink_outcome (port : LinkPort ι) (now : ℕ) (r : Runner) (timer : Timer) :
    ∃ out, Same r (r.fireLink port now timer) ∧ (r.fireLink port now timer).test = r.test ∧
      (r.fireLink port now timer).pending = r.pending ++ out ∧
      ∀ fsn q, (r.fireLink port now timer).link.Outcome fsn q →
        r.link.Outcome fsn (q.1, out ++ q.2) := by
  unfold fireLink
  split_ifs
  · refine ⟨_, ⟨rfl, rfl, rfl, rfl, rfl, rfl⟩, rfl, rfl, fun fsn q hq => ?_⟩
    exact hq.after_timeout (Link.timeout_move port.codec r.link timer now)
  · exact ⟨[], .rfl r, rfl, (List.append_nil _).symm, fun _ _ hq => hq⟩

/-- The timers of the link that ran out, and then whatever else. -/
theorem fireLinks_outcome (port : LinkPort ι) (now : ℕ) (timers : List Timer) (r : Runner) :
    ∃ out, Same r (timers.foldl (fireLink port now) r) ∧
      (timers.foldl (fireLink port now) r).pending = r.pending ++ out ∧
      ∀ fsn q, (timers.foldl (fireLink port now) r).link.Outcome fsn q →
        r.link.Outcome fsn (q.1, out ++ q.2) := by
  induction timers generalizing r with
  | nil => exact ⟨[], .rfl r, (List.append_nil _).symm, fun _ _ hq => hq⟩
  | cons timer timers ih =>
    obtain ⟨first, hsame, -, hpending, hfirst⟩ := fireLink_outcome port now r timer
    obtain ⟨others, hsame', hpending', hothers⟩ := ih (r.fireLink port now timer)
    refine ⟨first ++ others, hsame.trans hsame', ?_, fun fsn q hq => ?_⟩
    · rw [List.foldl_cons, hpending', hpending, List.append_assoc]
    · rw [List.append_assoc]
      exact hfirst fsn _ (hothers fsn q hq)

/-- Of the timers of the test one asks something at most. -/
theorem fireTests_tested (port : LinkPort ι) (now : ℕ) (r : Runner) :
    Tested port now r (TestTimer.all.foldl (fireTest port now) r) := by
  have hfirst : ∀ (r : Runner) timer, Tested port now r (r.fireTest port now timer) := by
    intro r timer
    unfold fireTest
    split_ifs
    · have hquiet : Quiet r { r with
          deadlines := { r.deadlines with
            test := Function.update r.deadlines.test timer none } } :=
        ⟨⟨rfl, rfl, rfl, rfl, rfl, rfl⟩, rfl, rfl⟩
      exact hquiet.tested (applyTest_tested _ fun test => test.timeout_asks timer)
    · exact .quiet (.rfl r)
  have hquiet : ∀ (r : Runner) timer, (∀ test, r.test = some test →
      (test.timeout timer).2.filter TestAction.asks = []) →
      Quiet r (r.fireTest port now timer) := by
    intro r timer h
    unfold fireTest
    split_ifs
    · have hquiet : Quiet r { r with
          deadlines := { r.deadlines with
            test := Function.update r.deadlines.test timer none } } :=
        ⟨⟨rfl, rfl, rfl, rfl, rfl, rfl⟩, rfl, rfl⟩
      exact hquiet.trans (applyTest_quiet _ h)
    · exact .rfl r
  change Tested port now r ((r.fireTest port now .t1).fireTest port now .t2)
  by_cases hasks : ∀ test, r.test = some test → (test.timeout .t1).2.filter TestAction.asks = []
  · exact (hquiet r .t1 hasks).tested (hfirst _ .t2)
  · -- The first asked something, so that the test awaits an acknowledgement or is over.
    push Not at hasks
    obtain ⟨test, htest, hne⟩ := hasks
    by_cases hdue : (r.deadlines.test .t1).any (· ≤ now) = true
    · refine (hfirst r .t1).quiet_after (hquiet _ .t2 fun test' htest' => ?_)
      have hafter : (r.fireTest port now .t1).test = some (test.timeout .t1).1 := by
        unfold fireTest
        rw [if_pos hdue, applyTest_test]
        dsimp only
        rw [htest, Option.map_some]
      rw [hafter] at htest'
      obtain rfl := Option.some.inj htest'
      exact (test.timeout_twice).resolve_left hne
    · have hstill : r.fireTest port now .t1 = r := by
        unfold fireTest
        rw [if_neg hdue]
      rw [hstill]
      exact hfirst r .t2

/-! ## Steps -/

/-- The number of the message that an event brings. -/
def brings (port : LinkPort ι) (r : Runner) (i : Input) : Option ℕ :=
  if r.applying then none
  else match i with
    | .received data _ =>
      match port.codec.decode data with
      | some (.userData _ fsn _) => some fsn
      | _ => none
    | _ => none

/-- Level 3 takes what is kept of a failure, or has it dropped. -/
def takes (r : Runner) (i : Input) : Bool :=
  !r.applying && match r.phase, i with
    | .idle, .command (.divert _) | .serving, .command (.divert _)
    | .serving, .command .open => true
    | _, _ => false

/-- What holds between the steps of a task, whatever level 3 and the peer do. -/
structure Ordered (r : Runner) : Prop where
  idle : r.applying = false → r.pending = []
  served : r.applying = false → r.phase = .serving → r.lost = false
  ended : r.applying = false → r.phase ≠ .ending
  out : r.phase ≠ .serving ∨ r.lost = true → r.link.state = .outOfService
  restart : r.deadlines.restart ≠ none → r.link.state = .outOfService
  reported : ∀ reason, .outOfService reason ∈ r.pending → r.link.state = .outOfService

/-- The link carries something out, or nothing. -/
structure Asked (port : LinkPort ι) (r : Runner) (i : Input) (rest out : List Action)
    (s : Runner × List Report) : Prop where
  outcome : r.link.Outcome (brings port r i) (s.1.link, out)
  pending : s.1.pending = rest ++ out
  rest : ∀ a ∈ rest, a ∈ r.pending
  available : s.1.available = r.available
  restart : s.1.deadlines.restart ≠ none →
    r.deadlines.restart ≠ none ∨ ∃ reason, .outOfService reason ∈ r.pending
  out : s.1.phase ≠ .serving ∨ s.1.lost = true →
    (r.phase ≠ .serving ∨ r.lost = true) ∨ s.1.link.state = .outOfService
  idle : s.1.applying = false → r.applying = false ∧ s.1.link = r.link ∧
    s.1.pending = r.pending ∧ s.1.phase = r.phase ∧ s.1.lost = r.lost
  traffic : s.1.traffic = r.traffic ∨ r.applying = false ∧
    (s.1.link.state = .outOfService → r.link.state = .outOfService) ∧
    (takes r i = true ∨ s.1.traffic.kept = r.traffic.kept)
  quiet : .linkUp ∉ s.2 ∧ ∀ bsnt, .linkDown bsnt ∉ s.2
  delivered : ∀ msu, .delivered msu ∈ s.2 → .deliver msu ∈ r.pending

/-- Alignment starts. -/
structure Started (port : LinkPort ι) (r : Runner) (i : Input) (s : Runner × List Report) :
    Prop where
  idle : r.applying = false
  out : r.link.state = .outOfService
  state : s.1.link.state = .notAligned
  fsnIn : s.1.link.fsnIn = seqMask
  retrievable : s.1.link.retrievable = none
  pending : s.1.pending.all Action.plain = true
  phase : s.1.phase = .serving
  lost : s.1.lost = false
  applying : s.1.applying = true
  restart : s.1.deadlines.restart = none
  traffic : s.1.traffic = r.traffic
  takes : takes r i = false
  quiet : s.2 = []

/-- With nothing left to acknowledge. -/
def acknowledged (r : Runner) : Runner := { r with link := { r.link with ackDue := false } }

inductive Move (port : LinkPort ι) (r : Runner) (i : Input) : Runner × List Report → Prop
  | asked {s : Runner × List Report} (rest out : List Action) (h : Asked port r i rest out s) :
      Move port r i s
  | started {s : Runner × List Report} (h : Started port r i s) : Move port r i s
  | finished (happ : r.applying = true) (hpending : r.pending = []) :
      Move port r i (r.acknowledged.finish port)

theorem move_ignored (r : Runner) (i : Input) : Move port r i (r, []) := by
  refine .asked r.pending []
    ⟨.rfl r.link _, ?_, fun _ h => h, rfl, .inl, .inl, ?_, .inl rfl, ?_, ?_⟩
  · exact (List.append_nil _).symm
  · exact fun h => ⟨h, rfl, rfl, rfl, rfl⟩
  · simp
  · simp

theorem apply_eq {r : Runner} (h : r.applying = true) : r.apply = r := by
  cases r
  cases h
  rfl

/-- Something is asked of the link, and nothing of the traffic. -/
theorem asked_of_outcome {r r' : Runner} {i : Input} {rest out : List Action}
    {reports : List Report} (hs : Same r r')
    (ho : r.link.Outcome (brings port r i) (r'.link, out)) (hp : r'.pending = rest ++ out)
    (hrest : ∀ a ∈ rest, a ∈ r.pending)
    (hquiet : .linkUp ∉ reports ∧ ∀ bsnt, .linkDown bsnt ∉ reports)
    (hd : ∀ msu, .delivered msu ∈ reports → .deliver msu ∈ r.pending) :
    Asked port r i rest out (r'.apply, reports) where
  outcome := ho
  pending := hp
  rest := hrest
  available := hs.available
  restart h := .inl (hs.restart ▸ h)
  out h := .inl (hs.phase ▸ hs.lost ▸ h)
  idle h := absurd h (by simp [apply])
  traffic := .inl hs.traffic
  quiet := hquiet
  delivered := hd

section

variable {r : Runner} {i : Input}

/-- An event that asks one thing of the link. -/
theorem move_ask {asked : Link × List Action} (ho : r.link.Outcome (brings port r i) asked) :
    Move port r i ((r.ask asked).apply, []) :=
  .asked r.pending asked.2
    (asked_of_outcome (same_ask r asked) ho rfl (fun _ h => h) (by simp) (by simp))

/-- The task carries something out that touches its link only. -/
theorem move_same {r' : Runner} (rest out : List Action) {reports : List Report}
    (happ : r.applying = true) (hs : Same r r')
    (ho : r.link.Outcome (brings port r i) (r'.link, out)) (hp : r'.pending = rest ++ out)
    (hrest : ∀ a ∈ rest, a ∈ r.pending)
    (hquiet : .linkUp ∉ reports ∧ ∀ bsnt, .linkDown bsnt ∉ reports)
    (hd : ∀ msu, .delivered msu ∈ reports → .deliver msu ∈ r.pending) :
    Move port r i (r', reports) := by
  have happ' : r'.applying = true := hs.applying.trans happ
  rw [← apply_eq happ']
  exact .asked rest out (asked_of_outcome hs ho hp hrest hquiet hd)

/-- What the test asks of the link. -/
theorem move_tested {r' : Runner} {rest : List Action} {reports : List Report}
    (happ : r.applying = true) (hrest : ∀ a ∈ rest, a ∈ r.pending)
    (ht : Tested port now { r with pending := rest } r')
    (hquiet : .linkUp ∉ reports ∧ ∀ bsnt, .linkDown bsnt ∉ reports)
    (hd : ∀ msu, .delivered msu ∈ reports → .deliver msu ∈ r.pending) :
    Move port r i (r', reports) := by
  obtain ⟨out, hp, ho⟩ := ht.outcome (brings port r i)
  have hs := ht.same
  exact move_same rest out happ
    ⟨hs.phase, hs.lost, hs.available, hs.traffic, hs.applying, hs.restart⟩ ho hp hrest hquiet hd

/-! ### Carrying out one action -/

/-- What is done about a message of the test: nothing, or what the test asks of its link. -/
theorem linkTestMessage_tested (port : LinkPort ι) (now : ℕ) (r : Runner)
    (msu : Transport.Mtp3Msu ι) :
    Tested port now r (r.linkTestMessage port now msu).1 ∧
      ∀ report ∈ (r.linkTestMessage port now msu).2, ∃ slc reply, report = .direct slc reply := by
  unfold linkTestMessage
  split
  · exact ⟨.quiet (.rfl r), by simp⟩
  next message _ =>
    by_cases hdpc : msu.dpc ≠ port.settings.ownPc
    · rw [if_pos hdpc]
      exact ⟨.quiet (.rfl r), by simp⟩
    · rw [if_neg hdpc]
      cases message with
      | sltm pattern =>
        dsimp only
        split
        · exact ⟨.quiet (.rfl r), by simp⟩
        next reply _ =>
          split_ifs
          · exact ⟨.sent reply (same_ask r _) rfl rfl, by simp⟩
          · exact ⟨.quiet (.rfl r), by simp⟩
      | slta pattern =>
        dsimp only
        split_ifs
        · exact ⟨applyTest_tested r fun test => test.acknowledged_asks _, by simp⟩
        · exact ⟨.quiet (.rfl r), by simp⟩

theorem deliver_tested (port : LinkPort ι) (now : ℕ) (r : Runner) (raw : Msu) :
    Tested port now r (r.deliver port now raw).1 ∧
      ∀ report ∈ (r.deliver port now raw).2,
        report = .delivered raw ∨ ∃ slc reply, report = .direct slc reply := by
  unfold deliver
  split
  · exact ⟨.quiet (.rfl r), by simp⟩
  next msu _ =>
    split_ifs
    · obtain ⟨ht, hreports⟩ := linkTestMessage_tested port now r msu
      refine ⟨ht, fun report hmem => ?_⟩
      rcases List.mem_cons.mp hmem with heq | hmem
      · exact .inl heq
      · exact .inr (hreports report hmem)
    · exact ⟨.quiet (.rfl r), by simp⟩

theorem applyOne_move (refused : Bool) {action : Action} {rest : List Action}
    (happ : r.applying = true) (hpending : r.pending = action :: rest) :
    Move port r i (({ r with pending := rest }).applyOne port now refused action) := by
  have hrest : ∀ a ∈ rest, a ∈ r.pending := by
    intro a ha
    rw [hpending]
    exact List.mem_cons_of_mem _ ha
  have hquiet : ∀ reports : List Report, reports = [] →
      .linkUp ∉ reports ∧ ∀ bsnt, .linkDown bsnt ∉ reports := by
    rintro reports rfl
    simp
  -- Nothing is asked of the link.
  have hwait : ∀ (r' : Runner) (reports : List Report), Same r r' → r'.link = r.link →
      r'.pending = rest → (.linkUp ∉ reports ∧ ∀ bsnt, .linkDown bsnt ∉ reports) →
      (∀ msu, .delivered msu ∉ reports) → Move port r i (r', reports) := by
    intro r' reports hs hl hp hq hd
    refine move_same rest [] happ hs ?_ ?_ hrest hq fun msu hmem => absurd hmem (hd msu)
    · rw [hl]
      exact .rfl r.link _
    · rw [hp, List.append_nil]
  cases action with
  | send frame stream si =>
    dsimp only [applyOne]
    split_ifs
    · exact hwait _ _ ⟨rfl, rfl, rfl, rfl, rfl, rfl⟩ rfl rfl (by simp) (by simp)
    · have hfail := Link.fail_move port.codec r.link .association
      refine .asked rest (r.link.fail port.codec .association).2
        ⟨hfail.outcome _, rfl, hrest, rfl, .inl, ?_, ?_, .inl rfl, by simp, by simp⟩
      · exact fun _ => .inr hfail.state
      · intro hno
        exact absurd (happ.symm.trans hno) (by simp)
    · exact hwait _ _ ⟨rfl, rfl, rfl, rfl, rfl, rfl⟩ rfl rfl (by simp) (by simp)
  | deliver msu =>
    obtain ⟨ht, hreports⟩ := deliver_tested port now { r with pending := rest } msu
    refine move_tested happ hrest ht ⟨fun hmem => ?_, fun bsnt hmem => ?_⟩ fun raw hmem => ?_
    · rcases hreports _ hmem with heq | ⟨_, _, heq⟩ <;> cases heq
    · rcases hreports _ hmem with heq | ⟨_, _, heq⟩ <;> cases heq
    · rcases hreports _ hmem with heq | ⟨_, _, heq⟩
      · cases heq
        rw [hpending]
        exact List.mem_cons_self
      · cases heq
  | start timer after =>
    exact hwait _ _ ⟨rfl, rfl, rfl, rfl, rfl, rfl⟩ rfl rfl (by simp) (by simp)
  | stop timer =>
    exact hwait _ _ ⟨rfl, rfl, rfl, rfl, rfl, rfl⟩ rfl rfl (by simp) (by simp)
  | inService =>
    have hasks : ∀ test : LinkTest, LinkTest.Asks test.begin.2 := fun test =>
      .inr (.inl test.begin_asks)
    exact move_tested happ hrest (applyTest_tested _ hasks) (by simp) (by simp)
  | outOfService reason =>
    have hstop : Quiet { r with pending := rest }
        (({ r with pending := rest }).applyTest port now LinkTest.stop) :=
      applyTest_quiet _ fun test _ => test.stop_asks
    refine .asked rest [] ⟨?_, ?_, hrest, hstop.same.available, ?_, ?_, ?_,
      .inl hstop.same.traffic, by simp [applyOne], by simp [applyOne]⟩
    · change r.link.Outcome _ ((({ r with pending := rest }).applyTest port now LinkTest.stop).link,
        [])
      rw [hstop.link]
      exact .rfl r.link _
    · exact hstop.pending.trans (List.append_nil _).symm
    · intro _
      refine .inr ⟨reason, ?_⟩
      rw [hpending]
      exact List.mem_cons_self
    · intro h
      change (({ r with pending := rest }).applyTest port now LinkTest.stop).phase ≠ _ ∨
        (({ r with pending := rest }).applyTest port now LinkTest.stop).lost = true at h
      rw [hstop.same.phase, hstop.same.lost] at h
      exact .inl h
    · intro hno
      exact absurd (happ.symm.trans (hstop.same.applying.symm.trans hno)) (by simp)
  | remoteProcessorOutage on =>
    exact hwait _ _ ⟨rfl, rfl, rfl, rfl, rfl, rfl⟩ rfl rfl (by simp) (by simp)
  | discarded reason count =>
    exact hwait _ _ ⟨rfl, rfl, rfl, rfl, rfl, rfl⟩ rfl rfl (by simp) (by simp)

end

end SiphonSigtran.M2pa.Runner
