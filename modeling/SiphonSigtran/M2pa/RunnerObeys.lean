import SiphonSigtran.M2pa.RunnerTold

/-!
# What a task does on its own

What a task does with the traffic of its link is what level 3 last told it. On its own account it
only buffers what it carried, when the link fails or is opened without an association.
-/

namespace SiphonSigtran.M2pa

/-- What is done with traffic after a command. -/
def TrafficState.obey (t : TrafficState) : LinkCommand → TrafficState
  | .hold => .hold
  | .divert _ => .closed
  | .open => .open
  | .fail | .direct _ => t

/-- What is done with traffic when the link fails. -/
def TrafficState.kept : TrafficState → TrafficState
  | .open => .hold
  | t => t

namespace LinkTraffic

theorem offer_state (t : LinkTraffic) (msu : Msu) (inService : Bool) :
    (t.offer msu inService).1.state = t.state := by
  unfold offer
  split
  · rfl
  · rfl
  · split_ifs <;> rfl
  · split_ifs <;> rfl

theorem unavailable_state (t : LinkTraffic) (left : Option Retrievable) :
    (t.unavailable left).1.state = t.state.kept := by
  unfold unavailable failed
  by_cases hs : t.state = .open
  · cases left with
    | none => simp [hs, TrafficState.kept]
    | some left => by_cases hk : t.kept = none <;> simp [hs, hk, TrafficState.kept]
  · have hkept : t.state.kept = t.state := by
      cases h : t.state with
      | «open» => exact absurd h hs
      | _ => rfl
    cases left with
    | none => simp [hs, hkept]
    | some left => by_cases hk : t.state ≠ .closed ∧ t.kept = none <;> simp [hs, hk, hkept]

end LinkTraffic

namespace Runner

variable {ι : Type*} {port : LinkPort ι} {now : ℕ} {r : Runner}

/-- A link is not opened without an association: it buffers. -/
def obeys (r : Runner) (command : LinkCommand) : TrafficState :=
  match r.phase, command with
  | .idle, .open => .hold
  | _, command => r.traffic.state.obey command

theorem carryBuffered_state (port : LinkPort ι) (now : ℕ) (canSend : Bool) (msus : List Msu)
    (r : Runner) :
    (carryBuffered port now canSend msus r).1.traffic.state = r.traffic.state := by
  induction msus generalizing r with
  | nil => rfl
  | cons msu msus ih =>
    have hoffer := r.traffic.offer_state msu canSend
    simp only [carryBuffered]
    split
    all_goals exact (ih _).trans hoffer

/-- A task that waits does what it is told. -/
theorem command_obeyed (port : LinkPort ι) (now : ℕ) (happ : r.applying = false)
    (hphase : r.phase ≠ .ending) (command : LinkCommand) :
    (r.step port (now, .command command)).1.traffic.state = r.obeys command := by
  unfold step obeys
  cases hp : r.phase with
  | ending => exact absurd hp hphase
  | idle => cases command <;> simp only [happ] <;> rfl
  | serving =>
    cases command with
    | «open» =>
      simp only [happ]
      exact carryBuffered_state port now r.canSend r.traffic.open.2.1 _
    | _ =>
      simp only [happ]
      rfl

/-- The traffic of the link stays as it is, or the link fails and what it carried is buffered. -/
def Stays (r : Runner) (s : Runner × List Report) : Prop :=
  s.1.traffic.state = r.traffic.state ∨
    r.available = true ∧ s.1.available = false ∧ s.1.traffic.state = r.traffic.state.kept

theorem refresh_stays (port : LinkPort ι) (r : Runner) : Stays r (r.refreshAvailability port) := by
  rw [refreshAvailability_eq]
  by_cases hsame : r.serves = r.available
  · rw [if_pos hsame]
    exact .inl rfl
  · rw [if_neg hsame]
    cases hserves : r.serves with
    | true => exact .inl rfl
    | false =>
      have hup : r.available = true := by simpa [hserves] using hsame
      exact .inr ⟨hup, rfl, r.traffic.unavailable_state _⟩

theorem finish_stays (port : LinkPort ι) (r : Runner) : Stays r (r.finish port) := by
  have hrefresh := refresh_stays port r
  rcases finish_cases port r with ⟨-, hfinish⟩ | ⟨-, -, hfinish⟩ | ⟨-, -, hfinish⟩
  all_goals
    rw [hfinish]
    exact hrefresh

/-- What else a task comes across leaves the traffic of the link as it is, unless the link
fails. -/
theorem step_stays (h : Ordered r) (e : ℕ × Input) (he : ∀ command, e.2 ≠ .command command) :
    Stays r (r.step port e) := by
  cases hmove : r.applying with
  | true =>
    have hstep : Move port r e.2 (r.step port e) := step_move h e
    generalize hs : r.step port e = s at hstep
    cases hstep with
    | asked rest out hasked =>
      have htraffic : s.1.traffic = r.traffic :=
        hasked.traffic.resolve_right fun hno => absurd (hno.1.symm.trans hmove) (by simp)
      exact .inl (congrArg LinkTraffic.state htraffic)
    | started hstarted => exact .inl (congrArg LinkTraffic.state hstarted.traffic)
    | finished happ hpending => exact finish_stays port r.acknowledged
  | false =>
    obtain ⟨now, i⟩ := e
    left
    unfold step
    cases i with
    | command command => exact absurd rfl (he command)
    | carry msu =>
      have hoffer := r.traffic.offer_state msu
      cases hp : r.phase with
      | idle =>
        simp only [hmove]
        exact hoffer false
      | ending => simp only [hmove]
      | serving =>
        simp only [hmove]
        unfold carry
        dsimp only
        split
        all_goals exact hoffer r.canSend
    | associated | lost | stopped =>
      cases hp : r.phase
      all_goals simp only [hmove]
      all_goals rfl
    | work refused =>
      cases hp : r.phase
      all_goals simp only [hmove]
    | received data ppid =>
      cases hp : r.phase with
      | idle | ending => simp only [hmove]
      | serving =>
        simp only [hmove]
        unfold received
        split_ifs
        · rfl
        · split <;> rfl
    | fire =>
      cases hp : r.phase with
      | idle | ending => simp only [hmove]
      | serving =>
        simp only [hmove]
        obtain ⟨-, hsame, -, -⟩ := fireLinks_outcome port now Timer.all r
        have htested := fireTests_tested port now (Timer.all.foldl (fireLink port now) r)
        have htraffic := (hsame.trans htested.same).traffic
        refine (congrArg LinkTraffic.state ?_).trans (congrArg LinkTraffic.state htraffic)
        unfold fire fireRestart
        dsimp only
        split_ifs <;> rfl

end Runner

end SiphonSigtran.M2pa
