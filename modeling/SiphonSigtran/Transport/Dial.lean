import SiphonSigtran.Lib.Machine
import Mathlib.Tactic.Ring
import Mathlib.Order.Lattice

/-!
# Dialling an association

An association that this node opens is dialled when the node starts, after every attempt that
failed and after it was lost. Between attempts it waits, twice as long each time up to a limit, less
a part at random. Instants and durations are in nanoseconds, waits are whole milliseconds.
-/

namespace SiphonSigtran.Transport

open Lib

inductive DialFailure
  | refused
  | timeout
  | unreachable
  | local_
  | other
  deriving DecidableEq, Repr

def u32Max : ℕ := 2 ^ 32 - 1

def u64Max : ℕ := 2 ^ 64 - 1

/-- Nanoseconds of a millisecond. -/
def millisecond : ℕ := 1000000

/-! ## The random part -/

structure Jitter where
  state : UInt64
  deriving DecidableEq, Repr

namespace Jitter

def seeded (seed : UInt64) : Jitter := ⟨if seed = 0 then 0x9E3779B97F4A7C15 else seed⟩

def next (j : Jitter) : UInt64 × Jitter :=
  let x := j.state
  let x := x ^^^ (x >>> 12)
  let x := x ^^^ (x <<< 25)
  let x := x ^^^ (x >>> 27)
  (x * 0x2545F4914F6CDD1D, ⟨x⟩)

/-- A number from 0 to `bound` inclusive. -/
def upTo (j : Jitter) (bound : ℕ) : ℕ × Jitter :=
  let (x, j) := j.next
  if bound + 1 ≤ u64Max then ((x >>> 11).toNat % (bound + 1), j) else (x.toNat, j)

theorem upTo_le (j : Jitter) {bound : ℕ} (h : bound ≤ u64Max) : (j.upTo bound).1 ≤ bound := by
  unfold upTo
  split_ifs with hspan
  · exact Nat.lt_succ_iff.mp (Nat.mod_lt _ (Nat.succ_pos bound))
  · have hbound : bound = u64Max := by omega
    have hlt : j.next.1.toNat < 2 ^ 64 := UInt64.toNat_lt _
    rw [hbound]
    unfold u64Max
    change j.next.1.toNat ≤ 2 ^ 64 - 1
    omega

end Jitter

/-! ## The machine -/

namespace Dial

structure Settings where
  connectTimeout : ℕ
  initial : ℕ
  max : ℕ
  jitterPercent : ℕ
  logEvery : ℕ
  deriving DecidableEq, Repr

inductive State
  | idle
  | connecting
  | up (since : ℕ)
  | waiting
  | stopped
  deriving DecidableEq, Repr

inductive Input
  | start
  | connected
  | failed (reason : DialFailure)
  | lost
  | elapsed
  | stop
  deriving DecidableEq, Repr

inductive Line
  | established (failed : ℕ)
  | failing (reason : DialFailure) (quiet next : ℕ)
  | lost (up next : ℕ)
  deriving DecidableEq, Repr

inductive Action
  | connect
  | serve
  | wait (duration : ℕ)
  | log (line : Line)
  deriving DecidableEq, Repr

end Dial

structure Dial where
  settings : Dial.Settings
  state : Dial.State
  waits : ℕ
  failed : ℕ
  jitter : Jitter
  logged : Option (DialFailure × ℕ)
  quiet : ℕ
  waiting : ℕ
  deriving DecidableEq, Repr

namespace Dial

def new (settings : Settings) (jitter : Jitter) : Dial :=
  ⟨settings, .idle, 0, 0, jitter, none, 0, 0⟩

/-- The next wait, as the code computes it. -/
def nextWait (d : Dial) : ℕ × Dial :=
  -- `as u64` keeps the low 64 bits of the milliseconds
  let initial := Nat.max (d.settings.initial / millisecond) 1 % 2 ^ 64
  let max := Nat.max (d.settings.max / millisecond % 2 ^ 64) initial
  let doubled := if d.waits < 64 then min (initial * 2 ^ d.waits) u64Max else u64Max
  let whole := min doubled max
  let off := min (whole * min d.settings.jitterPercent 100) u64Max / 100
  let (less, jitter) := d.jitter.upTo off
  let wait := Nat.max (whole - less) 1 * millisecond
  (wait, { d with waits := min (d.waits + 1) u32Max, jitter := jitter, waiting := wait })

/-- Whether a failure has a line of its own. -/
def due (d : Dial) (reason : DialFailure) (now : ℕ) : Bool :=
  match d.logged with
  | some (last, at_) => last ≠ reason ∨ d.settings.logEvery ≤ now - at_
  | none => true

/-- An attempt failed. -/
def attemptFailed (d : Dial) (reason : DialFailure) (now : ℕ) : Dial × List Action :=
  let (next, d') := { d with failed := min (d.failed + 1) u32Max }.nextWait
  if d.due reason now then
    ({ d' with state := .waiting, quiet := 0, logged := some (reason, now) },
      [.log (.failing reason d.quiet next), .wait next])
  else ({ d' with state := .waiting, quiet := min (d.quiet + 1) u32Max }, [.wait next])

/-- The waits start over when the association was up for as long as the longest of them. -/
def startedOver (d : Dial) (up : ℕ) : Dial :=
  if d.settings.max ≤ up then { d with waits := 0 } else d

/-- The association was lost. -/
def associationLost (d : Dial) (up : ℕ) : Dial × List Action :=
  let (next, d') := (d.startedOver up).nextWait
  ({ d' with state := .waiting }, [.log (.lost up next), .wait next])

/-- Feed what happened. -/
def handle (d : Dial) (input : Input) (now : ℕ) : Dial × List Action :=
  match d.state, input with
  | .stopped, _ => (d, [])
  | _, .stop => ({ d with state := .stopped }, [])
  | .idle, .start | .waiting, .elapsed => ({ d with state := .connecting }, [.connect])
  | .connecting, .connected =>
    ({ d with state := .up now, failed := 0, logged := none, quiet := 0 },
      [.log (.established d.failed), .serve])
  | .connecting, .failed reason => d.attemptFailed reason now
  | .up since, .lost => d.associationLost (now - since)
  | _, _ => (d, [])

/-! ## What is asked of the task -/

/-- What the task was asked to do. -/
inductive Task
  | connect
  | serve
  | wait (duration : ℕ)
  deriving DecidableEq, Repr

def taskOf : Action → Option Task
  | .connect => some .connect
  | .serve => some .serve
  | .wait duration => some (.wait duration)
  | .log _ => none

@[simp] theorem tasks_log (line : Line) (actions : List Action) :
    (Action.log line :: actions).filterMap taskOf = actions.filterMap taskOf := rfl

@[simp] theorem tasks_wait (duration : ℕ) :
    [Action.wait duration].filterMap taskOf = [.wait duration] := rfl

/-- Whether an input is the end of a task. -/
def ends : Input → Task → Bool
  | .connected, .connect | .failed _, .connect | .lost, .serve | .elapsed, .wait _ | .stop, _ =>
    true
  | _, _ => false

/-- What an observer of the inputs and the actions knows: the tasks that are running, since when the
association is up, how many waits there were since the start or since the loss of one that had been
up for the longest wait, and how many attempts failed since it was last up. -/
structure Observed where
  running : List Task
  since : ℕ
  waits : ℕ
  failed : ℕ
  deriving DecidableEq, Repr

namespace Observed

def new : Observed := ⟨[], 0, 0, 0⟩

/-- The tasks that go on after an input. -/
def goingOn (o : Observed) (input : Input) : List Task := o.running.filter fun t => !ends input t

/-- The number of the next wait. -/
def waitNumber (o : Observed) (settings : Settings) (input : Input) (now : ℕ) : ℕ :=
  if input = .lost ∧ .serve ∈ o.running ∧ settings.max ≤ now - o.since then 0 else o.waits

/-- The attempts that failed, with the one that an input ends. -/
def failures (o : Observed) (input : Input) : ℕ :=
  match input with
  | .failed _ => if .connect ∈ o.running then o.failed + 1 else o.failed
  | _ => o.failed

def note (settings : Settings) (o : Observed) (input : Input) (now : ℕ) (actions : List Action) :
    Observed where
  running := o.goingOn input ++ actions.filterMap taskOf
  since := if .serve ∈ actions then now else o.since
  waits := o.waitNumber settings input now + actions.countP fun a =>
    match a with
    | .wait _ => true
    | _ => false
  failed := if .serve ∈ actions then 0 else o.failures input

end Observed

/-- A machine and its observer after some inputs. -/
def watched (settings : Settings) (seed : UInt64) (inputs : List (Input × ℕ)) : Dial × Observed :=
  Machine.run
    (Machine.watch (fun d i => d.handle i.1 i.2)
      fun o _ i r => o.note settings i.1 i.2 r.2)
    (new settings (.seeded seed), .new) inputs

/-- The one task that is asked for in a state. -/
def asked (d : Dial) : List Task :=
  match d.state with
  | .connecting => [.connect]
  | .up _ => [.serve]
  | .waiting => [.wait d.waiting]
  | .idle | .stopped => []

/-! ## The schedule -/

namespace Settings

/-- The shortest wait in milliseconds. -/
def initialMs (s : Settings) : ℕ := Nat.max (s.initial / millisecond) 1

/-- The longest wait in milliseconds. -/
def maxMs (s : Settings) : ℕ := Nat.max (s.max / millisecond) s.initialMs

/-- The wait with a number, before anything is taken off. -/
def whole (s : Settings) (k : ℕ) : ℕ := min s.maxMs (s.initialMs * 2 ^ k)

/-- The milliseconds of the waits have 64 bits, as those of a configuration have. -/
structure Fits (s : Settings) : Prop where
  initial : s.initial / millisecond ≤ u64Max
  max : s.max / millisecond ≤ u64Max

end Settings

/-- A wait with a number is on schedule. -/
def WaitWithin (s : Settings) (k duration : ℕ) : Prop :=
  ∃ ms, duration = ms * millisecond ∧ 0 < ms ∧
    s.whole k - s.whole k * min s.jitterPercent 100 / 100 ≤ ms ∧ ms ≤ s.whole k

/-- What is asked for is on schedule: the association is dialled when nothing is running, a wait is
as long as its number has it, and the line that it is up counts the attempts that failed. -/
structure Scheduled (s : Settings) (o : Observed) (input : Input) (now : ℕ)
    (actions : List Action) : Prop where
  dials : .connect ∈ actions → o.goingOn input = []
  waits : ∀ duration, .wait duration ∈ actions →
    WaitWithin s (o.waitNumber s input now) duration
  reports : ∀ n, .log (.established n) ∈ actions → n = min o.failed u32Max

/-! ## The waits -/

/-- Where the shift runs out of bits, or the product does, the limit is below them anyway. -/
theorem min_doubled {i m k : ℕ} (hi : 0 < i) (hm : m ≤ u64Max) :
    min (if min k u32Max < 64 then min (i * 2 ^ min k u32Max) u64Max else u64Max) m =
      min m (i * 2 ^ k) := by
  by_cases hk : k < 64
  · have hsmall : min k u32Max = k := by
      unfold u32Max
      omega
    rw [hsmall, if_pos hk]
    omega
  · have hlarge : ¬ min k u32Max < 64 := by
      unfold u32Max
      omega
    have hpow : u64Max < i * 2 ^ k := by
      have hle : 2 ^ 64 ≤ 2 ^ k := Nat.pow_le_pow_right (by decide) (not_lt.mp hk)
      have hmul : 1 * 2 ^ k ≤ i * 2 ^ k := Nat.mul_le_mul_right _ hi
      unfold u64Max
      omega
    rw [if_neg hlarge]
    omega

theorem Settings.initialMs_pos (s : Settings) : 0 < s.initialMs :=
  Nat.lt_of_lt_of_le Nat.one_pos (Nat.le_max_right _ _)

theorem Settings.Fits.initialMs_le {s : Settings} (h : s.Fits) : s.initialMs ≤ u64Max :=
  Nat.max_le.mpr ⟨h.initial, by decide⟩

theorem Settings.Fits.maxMs_le {s : Settings} (h : s.Fits) : s.maxMs ≤ u64Max :=
  Nat.max_le.mpr ⟨h.max, h.initialMs_le⟩

theorem Settings.whole_pos (s : Settings) (k : ℕ) : 0 < s.whole k :=
  Nat.lt_min.mpr
    ⟨Nat.lt_of_lt_of_le s.initialMs_pos (Nat.le_max_right _ _),
      Nat.mul_pos s.initialMs_pos (Nat.two_pow_pos k)⟩

/-- What a wait is before anything is taken off. -/
theorem whole_eq {d : Dial} (h : d.settings.Fits) {k : ℕ} (hk : d.waits = min k u32Max) :
    min (if d.waits < 64 then
        min (Nat.max (d.settings.initial / millisecond) 1 % 2 ^ 64 * 2 ^ d.waits) u64Max
        else u64Max)
      (Nat.max (d.settings.max / millisecond % 2 ^ 64)
        (Nat.max (d.settings.initial / millisecond) 1 % 2 ^ 64)) = d.settings.whole k := by
  have hinitial : Nat.max (d.settings.initial / millisecond) 1 % 2 ^ 64 = d.settings.initialMs :=
    Nat.mod_eq_of_lt (Nat.lt_succ_of_le h.initialMs_le)
  have hmax : d.settings.max / millisecond % 2 ^ 64 = d.settings.max / millisecond :=
    Nat.mod_eq_of_lt (Nat.lt_succ_of_le h.max)
  rw [hinitial, hmax, hk]
  exact min_doubled d.settings.initialMs_pos h.maxMs_le

/-- What is left of a wait when a part of it was taken off. -/
theorem waitWithin_of_less {s : Settings} {k less : ℕ}
    (h : less ≤ min (s.whole k * min s.jitterPercent 100) u64Max / 100) :
    WaitWithin s k (Nat.max (s.whole k - less) 1 * millisecond) := by
  have hless : less ≤ s.whole k * min s.jitterPercent 100 / 100 :=
    h.trans (Nat.div_le_div_right (Nat.min_le_left _ _))
  have hpos := s.whole_pos k
  refine ⟨Nat.max (s.whole k - less) 1, rfl, ?_, ?_, ?_⟩
  · exact Nat.lt_of_lt_of_le Nat.one_pos (Nat.le_max_right _ _)
  · exact le_trans (Nat.sub_le_sub_left hless _) (Nat.le_max_left _ _)
  · exact Nat.max_le.mpr ⟨Nat.sub_le _ _, hpos⟩

@[simp] theorem nextWait_settings (d : Dial) : d.nextWait.2.settings = d.settings := rfl

@[simp] theorem nextWait_failed (d : Dial) : d.nextWait.2.failed = d.failed := rfl

@[simp] theorem nextWait_waiting (d : Dial) : d.nextWait.2.waiting = d.nextWait.1 := rfl

@[simp] theorem nextWait_waits (d : Dial) : d.nextWait.2.waits = min (d.waits + 1) u32Max := rfl

/-- The next wait is on schedule. -/
theorem nextWait_within {d : Dial} (h : d.settings.Fits) {k : ℕ} (hk : d.waits = min k u32Max) :
    WaitWithin d.settings k d.nextWait.1 := by
  have hoff : (d.jitter.upTo (min (d.settings.whole k * min d.settings.jitterPercent 100) u64Max /
      100)).1 ≤ min (d.settings.whole k * min d.settings.jitterPercent 100) u64Max / 100 := by
    apply Jitter.upTo_le
    exact (Nat.div_le_self _ _).trans (Nat.min_le_right _ _)
  unfold nextWait
  simp only [whole_eq h hk]
  exact waitWithin_of_less hoff

/-! ## What an input does -/

/-- The tasks of a state that go on after an input. -/
def keeps (d : Dial) (input : Input) : List Task := d.asked.filter fun t => !ends input t

/-- What `handle` does, by the input and what is running. -/
inductive Move (d : Dial) (now : ℕ) : Input → Dial × List Action → Prop
  | ignored {input : Input} (h : ∀ t ∈ d.asked, ends input t = false) : Move d now input (d, [])
  | stopped : Move d now .stop ({ d with state := .stopped }, [])
  | dials {input : Input} (hkeeps : d.keeps input = []) (hlost : input ≠ .lost)
      (hfailed : ∀ reason, input ≠ .failed reason) :
      Move d now input ({ d with state := .connecting }, [.connect])
  | established (h : d.state = .connecting) :
      Move d now .connected
        ({ d with state := .up now, failed := 0, logged := none, quiet := 0 },
          [.log (.established d.failed), .serve])
  | failed (reason : DialFailure) (h : d.state = .connecting) :
      Move d now (.failed reason) (d.attemptFailed reason now)
  | lost {since : ℕ} (h : d.state = .up since) :
      Move d now .lost (d.associationLost (now - since))

theorem handle_move (d : Dial) (input : Input) (now : ℕ) :
    Move d now input (d.handle input now) := by
  have hstop : d.state ≠ .stopped → Move d now .stop ({ d with state := .stopped }, []) :=
    fun _ => .stopped
  cases hstate : d.state with
  | stopped =>
    have hhandle : d.handle input now = (d, []) := by simp only [handle, hstate]
    rw [hhandle]
    exact .ignored (by simp [asked, hstate])
  | idle =>
    cases input with
    | stop => simpa only [handle, hstate] using hstop (by simp [hstate])
    | start =>
      simp only [handle, hstate]
      exact .dials (by simp [keeps, asked, hstate]) (by simp) (by simp)
    | connected | failed | lost | elapsed =>
      simp only [handle, hstate]
      exact .ignored (by simp [asked, hstate])
  | waiting =>
    cases input with
    | stop => simpa only [handle, hstate] using hstop (by simp [hstate])
    | elapsed =>
      simp only [handle, hstate]
      exact .dials (by simp [keeps, asked, hstate, ends]) (by simp) (by simp)
    | start | connected | failed | lost =>
      simp only [handle, hstate]
      exact .ignored (by simp [asked, hstate, ends])
  | connecting =>
    cases input with
    | stop => simpa only [handle, hstate] using hstop (by simp [hstate])
    | connected =>
      simp only [handle, hstate]
      exact .established hstate
    | failed reason =>
      simp only [handle, hstate]
      exact .failed reason hstate
    | start | lost | elapsed =>
      simp only [handle, hstate]
      exact .ignored (by simp [asked, hstate, ends])
  | up since =>
    cases input with
    | stop => simpa only [handle, hstate] using hstop (by simp [hstate])
    | lost =>
      simp only [handle, hstate]
      exact .lost hstate
    | start | connected | failed | elapsed =>
      simp only [handle, hstate]
      exact .ignored (by simp [asked, hstate, ends])

/-! ## Every run is on schedule -/

/-- The machine and what an observer knows of it agree. -/
structure Linked (s : Settings) (d : Dial) (o : Observed) : Prop where
  settings : d.settings = s
  running : o.running = d.asked
  waits : d.waits = min o.waits u32Max
  failed : d.failed = min o.failed u32Max
  since : ∀ t, d.state = .up t → o.since = t

theorem linked_new (s : Settings) (seed : UInt64) : Linked s (new s (.seeded seed)) .new :=
  ⟨rfl, rfl, (Nat.zero_min _).symm, (Nat.zero_min _).symm, by simp [new]⟩

variable {s : Settings} {d : Dial} {o : Observed} {now : ℕ}

theorem Linked.goingOn (h : Linked s d o) (input : Input) : o.goingOn input = d.keeps input := by
  unfold Observed.goingOn keeps
  rw [h.running]

/-- An input that ends nothing counts for nothing. -/
theorem Linked.ignored (h : Linked s d o) {input : Input} (now : ℕ)
    (hends : ∀ t ∈ d.asked, ends input t = false) :
    o.goingOn input = o.running ∧ o.waitNumber s input now = o.waits ∧
      o.failures input = o.failed := by
  rw [← h.running] at hends
  refine ⟨?_, ?_, ?_⟩
  · apply List.filter_eq_self.mpr
    intro t ht
    rw [hends t ht]
    rfl
  · apply if_neg
    rintro ⟨rfl, hserve, -⟩
    exact Bool.noConfusion (hends .serve hserve)
  · unfold Observed.failures
    split
    · apply if_neg
      intro hconnect
      exact Bool.noConfusion (hends .connect hconnect)
    · rfl

/-- A step keeps the machine and the observer together, and asks for what is on schedule. -/
theorem Linked.step (h : Linked s d o) (hfits : s.Fits) {input : Input} {r : Dial × List Action}
    (hmove : Move d now input r) :
    Linked s r.1 (o.note s input now r.2) ∧ Scheduled s o input now r.2 := by
  cases hmove with
  | ignored hends =>
    obtain ⟨hgoing, hwaits, hfailures⟩ := h.ignored now hends
    refine ⟨⟨h.settings, ?_, ?_, ?_, ?_⟩, by simp, by simp, by simp⟩
    · simp [Observed.note, hgoing, h.running]
    · simp [Observed.note, hwaits, h.waits]
    · simp [Observed.note, hfailures, h.failed]
    · intro t ht
      simpa [Observed.note] using h.since t ht
  | stopped =>
    refine ⟨⟨h.settings, ?_, ?_, ?_, by simp⟩, by simp, by simp, by simp⟩
    · simp [Observed.note, Observed.goingOn, ends, asked]
    · simp [Observed.note, Observed.waitNumber, h.waits]
    · simp [Observed.note, Observed.failures, h.failed]
  | dials hkeeps hlost hfailed =>
    have hgoing : o.goingOn input = [] := (h.goingOn input).trans hkeeps
    have hfailures : o.failures input = o.failed := by
      unfold Observed.failures
      split
      · exact absurd rfl (hfailed _)
      · rfl
    refine ⟨⟨h.settings, ?_, ?_, ?_, by simp⟩, fun _ => hgoing, by simp, by simp⟩
    · simp [Observed.note, hgoing, taskOf, asked]
    · simp [Observed.note, Observed.waitNumber, hlost, h.waits]
    · simp [Observed.note, hfailures, h.failed]
  | established hstate =>
    have hgoing : o.goingOn .connected = [] := by
      rw [h.goingOn]
      simp [keeps, asked, hstate, ends]
    refine ⟨⟨h.settings, ?_, ?_, ?_, ?_⟩, by simp, by simp, ?_⟩
    · rw [Observed.note, hgoing]
      rfl
    · simp [Observed.note, Observed.waitNumber, h.waits]
    · simp [Observed.note]
    · intro t ht
      simpa [Observed.note] using ht
    · intro n hn
      simpa [h.failed] using hn
  | failed reason hstate =>
    have hconnect : .connect ∈ o.running := by simp [h.running, asked, hstate]
    have hgoing : o.goingOn (.failed reason) = [] := by
      rw [h.goingOn]
      simp [keeps, asked, hstate, ends]
    have hnumber : o.waitNumber s (.failed reason) now = o.waits := if_neg (by simp)
    obtain rfl := h.settings
    have hwithin := nextWait_within (d := { d with failed := min (d.failed + 1) u32Max }) hfits
      h.waits
    have hwaits : min (d.waits + 1) u32Max = min (o.waits + 1) u32Max := by
      rw [h.waits]
      omega
    have hfailed : min (d.failed + 1) u32Max = min (o.failed + 1) u32Max := by
      rw [h.failed]
      omega
    unfold attemptFailed
    split_ifs
    · refine ⟨⟨h.settings, ?_, ?_, ?_, by simp⟩, by simp, ?_, by simp⟩
      · simp [Observed.note, hgoing, asked]
      · simpa [Observed.note, hnumber] using hwaits
      · simpa [Observed.note, Observed.failures, hconnect] using hfailed
      · intro duration hduration
        obtain rfl : duration = _ := by simpa using hduration
        rw [hnumber]
        exact hwithin
    · refine ⟨⟨h.settings, ?_, ?_, ?_, by simp⟩, by simp, ?_, by simp⟩
      · simp [Observed.note, hgoing, asked]
      · simpa [Observed.note, hnumber] using hwaits
      · simpa [Observed.note, Observed.failures, hconnect] using hfailed
      · intro duration hduration
        obtain rfl : duration = _ := by simpa using hduration
        rw [hnumber]
        exact hwithin
  | @lost since hstate =>
    have hserve : .serve ∈ o.running := by simp [h.running, asked, hstate]
    have hgoing : o.goingOn .lost = [] := by
      rw [h.goingOn]
      simp [keeps, asked, hstate, ends]
    have hsettings : (d.startedOver (now - since)).settings = s := by
      unfold startedOver
      split_ifs <;> exact h.settings
    have hfailed : (d.startedOver (now - since)).failed = d.failed := by
      unfold startedOver
      split_ifs <;> rfl
    have hnumber : (d.startedOver (now - since)).waits =
        min (o.waitNumber s .lost now) u32Max := by
      unfold Observed.waitNumber startedOver
      rw [h.since since hstate, h.settings]
      split_ifs with hlong hcond hcond
      · simp
      · exact absurd ⟨rfl, hserve, hlong⟩ hcond
      · exact absurd hcond.2.2 hlong
      · exact h.waits
    have hwithin := nextWait_within (hsettings ▸ hfits) hnumber
    rw [hsettings] at hwithin
    refine ⟨⟨hsettings, ?_, ?_, ?_, ?_⟩, ?_, ?_, ?_⟩
    · simp [associationLost, Observed.note, hgoing, asked]
    · simp only [associationLost, Observed.note, nextWait_waits, hnumber]
      simp
      omega
    · simp [associationLost, Observed.note, Observed.failures, hfailed, h.failed]
    · simp [associationLost]
    · simp [associationLost]
    · intro duration hduration
      obtain rfl : duration = _ := by simpa [associationLost] using hduration
      exact hwithin
    · simp [associationLost]

theorem linked_watched (hfits : s.Fits) (seed : UInt64) (inputs : List (Input × ℕ)) :
    Linked s (watched s seed inputs).1 (watched s seed inputs).2 := by
  apply Machine.run_invariant
    (P := fun p : Dial × Observed => Linked s p.1 p.2) (Q := fun _ _ => True)
  · rintro ⟨d, o⟩ ⟨input, now⟩ h -
    exact (h.step hfits (handle_move d input now)).1
  · exact linked_new s seed
  · exact Machine.along_trivial _ _

/-- After any inputs the one task that the state asks for is running, and whatever happens next,
what is asked for is on schedule. -/
theorem on_schedule (s : Settings) (hfits : s.Fits) (seed : UInt64)
    (inputs : List (Input × ℕ)) (input : Input) (now : ℕ) :
    let d := (watched s seed inputs).1
    let o := (watched s seed inputs).2
    o.running = d.asked ∧ Scheduled s o input now (d.handle input now).2 := by
  have h := linked_watched hfits seed inputs
  exact ⟨h.running, (h.step hfits (handle_move _ input now)).2⟩

/-! ## The settings of a configuration, and others -/

/-- The `dial:` block of an association. -/
structure Block where
  connectTimeoutMs : UInt64
  backoffInitialMs : UInt64
  backoffMaxMs : UInt64
  backoffJitterPercent : UInt8
  deriving DecidableEq, Repr

def Block.default : Block := ⟨10000, 1000, 30000, 20⟩

/-- How often the log tells that an association is still not there. -/
def logEvery : ℕ := 60 * 1000 * millisecond

def dialSettings (b : Block) : Settings :=
  ⟨b.connectTimeoutMs.toNat * millisecond, b.backoffInitialMs.toNat * millisecond,
    b.backoffMaxMs.toNat * millisecond, b.backoffJitterPercent.toNat, logEvery⟩

/-- The settings of a configuration have room in 64 bits. -/
theorem fits_dialSettings (b : Block) : (dialSettings b).Fits := by
  have hroom : ∀ n : UInt64, n.toNat * millisecond / millisecond ≤ u64Max := by
    intro n
    have hlt := n.toNat_lt
    rw [Nat.mul_div_cancel _ (by decide)]
    unfold u64Max
    omega
  exact ⟨hroom b.backoffInitialMs, hroom b.backoffMaxMs⟩

/-- The first attempt of an association with the default settings, and its failure. -/
theorem on_schedule_default :
    (watched (dialSettings .default) 1 [(.start, 0)]).2.running =
        (watched (dialSettings .default) 1 [(.start, 0)]).1.asked ∧
      Scheduled (dialSettings .default) (watched (dialSettings .default) 1 [(.start, 0)]).2
        (.failed .refused) 10
        ((watched (dialSettings .default) 1 [(.start, 0)]).1.handle (.failed .refused) 10).2 :=
  on_schedule (dialSettings .default) (fits_dialSettings .default) 1 [(.start, 0)]
    (.failed .refused) 10

/-- An attempt, and others after as many failures. -/
def failures : ℕ → List (Input × ℕ)
  | 0 => [(.start, 0)]
  | n + 1 => failures n ++ [(.failed .refused, 0), (.elapsed, 0)]

theorem watched_append (s : Settings) (seed : UInt64) (inputs later : List (Input × ℕ)) :
    watched s seed (inputs ++ later) =
      Machine.run (Machine.watch (fun d i => d.handle i.1 i.2)
        fun o _ i r => o.note s i.1 i.2 r.2) (watched s seed inputs) later :=
  Machine.run_append _ _ _

theorem handle_failed {d : Dial} (h : d.state = .connecting) (reason : DialFailure) (now : ℕ) :
    d.handle (.failed reason) now = d.attemptFailed reason now := by
  simp only [handle, h]

theorem handle_connected {d : Dial} (h : d.state = .connecting) (now : ℕ) :
    (d.handle .connected now).2 = [.log (.established d.failed), .serve] := by
  simp only [handle, h]

theorem handle_elapsed {d : Dial} (h : d.state = .waiting) (now : ℕ) :
    d.handle .elapsed now = ({ d with state := .connecting }, [.connect]) := by
  simp only [handle, h]

/-- The observer counts every failure. -/
theorem watched_failures {s : Settings} (hfits : s.Fits) (seed : UInt64) (n : ℕ) :
    (watched s seed (failures n)).1.state = .connecting ∧
      (watched s seed (failures n)).2.failed = n := by
  induction n with
  | zero => exact ⟨rfl, rfl⟩
  | succ n ih =>
    obtain ⟨hstate, hfailed⟩ := ih
    have hlinked := linked_watched hfits seed (failures n)
    have hconnect : .connect ∈ (watched s seed (failures n)).2.running := by
      simp [hlinked.running, asked, hstate]
    rw [failures, watched_append]
    generalize watched s seed (failures n) = p at hstate hfailed hconnect
    obtain ⟨d, o⟩ := p
    dsimp only at hstate hfailed hconnect
    have hwaiting : (d.attemptFailed .refused 0).1.state = .waiting := by
      unfold attemptFailed
      split_ifs <;> rfl
    have hserve : .serve ∉ (d.attemptFailed .refused 0).2 := by
      unfold attemptFailed
      split_ifs <;> simp
    simp only [Machine.run_cons, Machine.run_nil, Machine.watch, handle_failed hstate,
      handle_elapsed hwaiting]
    refine ⟨trivial, ?_⟩
    simp [Observed.note, hserve, Observed.failures, hconnect, hfailed]

/-- Waits that 64 bits of milliseconds do not hold. -/
def hugeSettings : Settings := ⟨0, 2 ^ 64 * millisecond, 2 ^ 64 * millisecond, 0, 0⟩

/-- A wait of 2^64 milliseconds is one of one millisecond, and 2^32 failures are reported as one
less. -/
theorem schedule_overflows :
    (∃ duration,
      .wait duration ∈
        ((watched hugeSettings 1 [(.start, 0)]).1.handle (.failed .refused) 0).2 ∧
      ¬ WaitWithin hugeSettings
        ((watched hugeSettings 1 [(.start, 0)]).2.waitNumber hugeSettings (.failed .refused) 0)
        duration) ∧
    ∃ n,
      .log (.established n) ∈
        ((watched (dialSettings .default) 1 (failures (2 ^ 32))).1.handle .connected 0).2 ∧
      n ≠ (watched (dialSettings .default) 1 (failures (2 ^ 32))).2.failed := by
  constructor
  · refine ⟨millisecond, by decide +kernel, ?_⟩
    rintro ⟨ms, hduration, -, hle, -⟩
    have hms : ms = 1 := Nat.eq_of_mul_eq_mul_right (by decide)
      (hduration.symm.trans (Nat.one_mul millisecond).symm)
    rw [hms] at hle
    exact absurd hle (by decide +kernel)
  · have hfits := fits_dialSettings .default
    obtain ⟨hstate, hfailed⟩ := watched_failures hfits 1 (2 ^ 32)
    have hlinked := linked_watched hfits 1 (failures (2 ^ 32))
    refine ⟨(watched (dialSettings .default) 1 (failures (2 ^ 32))).1.failed, ?_, ?_⟩
    · rw [handle_connected hstate]
      exact List.mem_cons_self
    · rw [hlinked.failed, hfailed]
      decide

end Dial

end SiphonSigtran.Transport
