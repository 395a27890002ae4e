import SiphonSigtran.Tcap.Outcome
import SiphonSigtran.Tcap.Records

/-!
# Idle dialogues

The activity of a record is the time of the last message of its dialogue. Whether a dialogue is
idle is decided before the handler is told of the invokes that expired, so one that its callbacks
use again, or let wait longer, is aborted all the same.
-/

namespace SiphonSigtran.Tcap

open Lib

variable {c : Codec} {e : Engine}

/-! ## The last message -/

/-- The dialogue under an id is one that this operation opened. -/
def Engine.opens (c : Codec) (e : Engine) (op : Engine.Op) (tid : Tid) : Bool :=
  ((e.step c op).dialogues.lookup tid).any fun r => r.dialogue.serial = e.allocated + 1

/-- The time of the last message that an operation brought or sent in the dialogue under an id. -/
def Engine.hears (c : Codec) (e : Engine) (op : Engine.Op) (tid : Tid) : Option ℕ :=
  match op with
  | .deliver inbound _ _ now =>
    if continued c inbound = some tid ∨ e.opens c op tid then some now else none
  | .begin _ _ _ now => if e.opens c op tid then some now else none
  | .expire tid' now scripts clock =>
    if tid' = tid ∧ (e.expire c tid' now scripts clock).1 ≠ [] then some clock else none
  | _ => none

/-- An operation, with the time of the last message of each dialogue beside the engine. -/
def Engine.hear (c : Codec) (p : Engine × (Tid → ℕ)) (op : Engine.Op) : Engine × (Tid → ℕ) :=
  (p.1.step c op, fun tid => (p.1.hears c op tid).getD (p.2 tid))

/-- The activity of each record is the time of the last message. -/
structure Timely (e : Engine) (last : Tid → ℕ) : Prop where
  ordered : Ordered e
  activity : ∀ tid r, e.dialogues.lookup tid = some r → r.lastActivity = last tid

theorem opens_of_old {op : Engine.Op} {tid : Tid} {r : Record}
    (hr : (e.step c op).dialogues.lookup tid = some r) (hold : r.dialogue.serial ≤ e.allocated) :
    e.opens c op tid = false := by
  unfold Engine.opens
  rw [hr]
  simp only [Option.any_some, decide_eq_false_iff_not]
  omega

theorem opens_of_new {op : Engine.Op} {tid : Tid} {r : Record}
    (hr : (e.step c op).dialogues.lookup tid = some r)
    (hnew : r.dialogue.serial = e.allocated + 1) : e.opens c op tid = true := by
  unfold Engine.opens
  rw [hr]
  simpa using hnew

theorem Timely.step {last : Tid → ℕ} (h : Timely e last) {op : Engine.Op}
    (hop : op.isSweep = false) :
    Timely (Engine.hear c (e, last) op).1 (Engine.hear c (e, last) op).2 := by
  refine ⟨h.ordered.step hop, fun tid r hr => ?_⟩
  simp only [Engine.hear] at hr ⊢
  cases op with
  | deliver inbound assoc script now =>
    have hchange := deliver_changes (c := c) h.ordered.filed inbound assoc script now tid r hr
    simp only [Engine.hears]
    cases hchange with
    | same hsame hnamed =>
      have hopens := opens_of_old hr (h.ordered tid r hsame).serial
      rw [if_neg (by simp [hnamed, hopens])]
      exact h.activity tid r hsame
    | begun d htid hserial hallocated hrenewed =>
      have hopens := opens_of_new hr (hrenewed.serial.trans hserial)
      rw [if_pos (.inr hopens)]
      exact hrenewed.lastActivity
    | turned r₀ hnamed hr₀ hrenewed =>
      rw [if_pos (.inl hnamed)]
      exact hrenewed.lastActivity
  | begin req handler script now =>
    have hchange := begin_changes (c := c) req handler script now tid r hr
    simp only [Engine.hears]
    cases hchange with
    | same hsame hnamed =>
      have hopens := opens_of_old hr (h.ordered tid r hsame).serial
      rw [if_neg (by simp [hopens])]
      exact h.activity tid r hsame
    | begun d htid hserial hallocated hrenewed =>
      have hopens := opens_of_new hr (hrenewed.serial.trans hserial)
      rw [if_pos hopens]
      exact hrenewed.lastActivity
    | turned r₀ hnamed hr₀ hrenewed => cases hnamed
  | sweep now order scripts clock => cases hop
  | claimExpired now =>
    obtain ⟨r₀, hr₀, rfl⟩ := claimExpired_record hr
    exact h.activity tid r₀ hr₀
  | expire tid' now scripts clock =>
    simp only [Engine.hears]
    rcases expire_record h.ordered.filed hr with
      ⟨hne, hsame⟩ | ⟨rfl, r₀, hr₀, ⟨-, rfl, hnothing⟩ | ⟨-, hrenewed⟩⟩
    · rw [if_neg fun hboth => hne hboth.1.symm]
      exact h.activity tid r hsame
    · rw [if_neg fun hboth => hboth.2 hnothing]
      exact h.activity tid r₀ hr₀
    · have hactivity := hrenewed.lastActivity
      by_cases hnothing : (e.expire c tid now scripts clock).1 = []
      · rw [if_neg fun hboth => hboth.2 hnothing]
        rw [hnothing] at hactivity
        exact hactivity.trans (h.activity tid r₀ hr₀)
      · rw [if_pos ⟨rfl, hnothing⟩]
        rw [if_neg (by simpa using hnothing)] at hactivity
        exact hactivity
  | releaseClaim tid' =>
    rcases releaseClaim_record hr with ⟨-, hsame⟩ | ⟨rfl, r₀, hr₀, rfl⟩
    · exact h.activity tid r hsame
    · exact h.activity tid r₀ hr₀

/-! ## The idle timeout -/

/-- A handler hears that its dialogue was idle for too long. -/
def Event.closesIdle : Event → Bool
  | .closes closed => closed.reason = .idleTimeout
  | _ => false

/-- Running the timers of a dialogue closes one as idle. -/
def Engine.idles (c : Codec) (e : Engine) (tid : Tid) (now : ℕ) (scripts : List (List Call))
    (clock : ℕ) : Bool :=
  ((e.expire c tid now scripts clock).2.log.drop e.log.length).any fun x => x.event.closesIdle

namespace Dialogue

variable {d : Dialogue}

theorem abortAs_reason (h : d.closed = none) (reason : CloseReason) :
    (d.abortAs c reason).2.closed = some reason := by
  rcases abortAs_cases (c := c) d reason with ⟨hclosed, -⟩ | ⟨-, -, heq⟩ | ⟨-, -, heq⟩
  · simp [h] at hclosed
  · rw [heq]
    rfl
  · rw [heq]
    unfold emit
    split <;> rfl

/-- Calls do not close a dialogue as idle. -/
theorem calls_not_idle (h : d.closed ≠ some .idleTimeout) (script : List Call) :
    (d.calls c script).1.closed ≠ some .idleTimeout := by
  induction script generalizing d with
  | nil => exact h
  | cons call rest ih =>
    apply ih
    cases d.call_sending (c := c) call with
    | quiet hclosed hrejects hout hfirst haare => rwa [hclosed]
    | passes closing msu hcall hopen hwrap hclosed hrejects hout hfirst =>
      rw [hclosed]
      split_ifs <;> simp
    | aborts hcall hopen hclosed hrejects hfirst =>
      rw [hclosed]
      simp

theorem afterTold_not_idle (h : d.closed ≠ some .idleTimeout) (invokes : List Outstanding)
    (scripts : List (List Call)) :
    (d.afterTold c invokes scripts).closed ≠ some .idleTimeout := by
  induction invokes generalizing d scripts with
  | nil => exact h
  | cons invoke rest ih =>
    unfold Dialogue.afterTold
    split_ifs
    · exact h
    · exact ih h scripts
    · have hcalls := calls_not_idle (c := c) h (scripts.headD [])
      refine ih ?_ _
      simp only [Dialogue.act]
      split_ifs
      · simp
      · exact hcalls

end Dialogue

/-- The timers of an open dialogue close it as idle where it was when they began to run, and its
callbacks left it open. -/
theorem idles_iff {tid : Tid} {r : Record} (hr : e.dialogues.lookup tid = some r)
    (hopen : r.dialogue.closed = none) (now : ℕ) (scripts : List (List Call)) (clock : ℕ) :
    e.idles c tid now scripts clock = true ↔ idleExpired r now = true ∧
      (r.dialogue.afterTimers c now scripts).closed = none := by
  have hcalled : (r.dialogue.afterTimers c now scripts).closed ≠ some .idleTimeout := by
    refine Dialogue.afterTold_not_idle ?_ _ _
    simp [Dialogue.act, hopen]
  have htimed : (r.timed c now scripts).closed = some .idleTimeout ↔ idleExpired r now = true ∧
      (r.dialogue.afterTimers c now scripts).closed = none := by
    unfold Record.timed
    dsimp only
    split_ifs with hboth
    · simp only [Bool.and_eq_true, Option.isNone_iff_eq_none] at hboth
      rw [Dialogue.abortAs_reason hboth.1]
      simp [hboth]
    · simp only [Bool.and_eq_true, Option.isNone_iff_eq_none] at hboth
      exact ⟨fun hidle => absurd hidle hcalled, fun hidle => absurd ⟨hidle.2, hidle.1⟩ hboth⟩
  cases hdue : timersDue r now with
  | false =>
    have hidle := Engine.expire_idle (c := c) hr hdue scripts clock
    have hnot : idleExpired r now = false := by
      simp only [timersDue, Bool.or_eq_false_iff] at hdue
      exact hdue.2
    unfold Engine.idles
    rw [hidle, hnot]
    simp [Engine.releaseClaim]
  | true =>
    obtain ⟨events, heq, hevents⟩ := Engine.expire_due (c := c) hr hdue scripts clock
    rw [← htimed]
    have htaken : (e.take tid).2.log = e.log ++ [⟨r.dialogue.serial, r.handler, .taken tid⟩] := by
      unfold Engine.take
      rw [hr]
      rfl
    have hany : ∀ last : Entry,
      ((((e.log ++ [(⟨r.dialogue.serial, r.handler, .taken tid⟩ : Entry)]) ++
        events.map fun event => (⟨r.dialogue.serial, r.handler, event⟩ : Entry)) ++
          [last]).drop e.log.length).any (fun x => x.event.closesIdle) =
        last.event.closesIdle := by
      intro last
      have hquiet : (events.map fun event => (⟨r.dialogue.serial, r.handler, event⟩ : Entry)).any
          (fun x => x.event.closesIdle) = false := by
        rw [List.any_map, List.any_eq_false]
        intro event hevent
        have hnot := hevents event hevent
        cases event <;> simp_all [Event.closesIdle, Event.isClosing]
      rw [List.append_assoc, List.append_assoc, List.drop_left, List.any_append, List.any_append,
        hquiet]
      simp [Event.closesIdle]
    unfold Engine.idles
    rw [heq]
    dsimp only
    obtain ⟨d', -, htimer, ⟨reason, hclosed, hturn⟩ | ⟨hclosed, hturn⟩⟩ :=
      Engine.finishTurn_cases (c := c) ((e.take tid).2.note r.handler r.dialogue events)
        (r.timed c now scripts) r.handler r.ingressAssoc .timer r.lastActivity clock
    · obtain rfl := htimer (by decide)
      rw [hturn, hclosed]
      simp only [Engine.closed, Engine.note, htaken, List.map_cons, List.map_nil]
      rw [hany]
      simp only [Event.closesIdle, Dialogue.closedEvent, Option.some.injEq]
      exact decide_eq_true_iff
    · obtain rfl := htimer (by decide)
      rw [hturn, hclosed]
      simp only [Engine.store, Engine.note, htaken, List.map_cons, List.map_nil]
      rw [hany]
      simp [Event.closesIdle]

/-- Nothing was sent in the dialogue while its timers ran, and since its last message the idle
timeout that it then has is over. -/
def Quiet (d : Dialogue) (last now : ℕ) : Prop :=
  d.out = [] ∧ ∃ idle, d.idleTimeout = some idle ∧ idle ≤ now - last

/-- In every run, running the timers of a dialogue closes it as idle only when it is quiet then, if
and only if the callbacks of a dialogue that was idle when they began close it, or send nothing
and leave an idle timeout that is over. -/
theorem idle_abort_iff (c : Codec) (config : Config)
    (handlers fallbackHandlers : ℕ × ℤ → Option Handler) (ops : List Engine.Op)
    (hops : ∀ op ∈ ops, op.isSweep = false) :
    let p := Machine.run (Engine.hear c)
      (Engine.new config handlers fallbackHandlers, fun _ => 0) ops
    ∀ tid r, p.1.dialogues.lookup tid = some r → ∀ now scripts clock,
      ((p.1.idles c tid now scripts clock = true →
          Quiet (r.dialogue.afterTimers c now scripts) (p.2 tid) now) ↔
        (idleExpired r now = true → (r.dialogue.afterTimers c now scripts).closed = none →
          (r.dialogue.afterTimers c now scripts).out = [] ∧
            idleExpired { r with dialogue := r.dialogue.afterTimers c now scripts } now =
              true)) := by
  intro p tid r hr now scripts clock
  have htimely : Timely p.1 p.2 := by
    refine Machine.run_invariant (P := fun p : Engine × (Tid → ℕ) => Timely p.1 p.2)
      (Q := fun _ op => op.isSweep = false) (fun p op h hop => h.step hop) ?_ ?_
    · refine ⟨ordered_new _ _ _, fun tid r hr => ?_⟩
      simp [Engine.new] at hr
    · exact Machine.along_of_forall _ hops
  have hrun : p.1 = Machine.run (Engine.step c) (Engine.new config handlers fallbackHandlers) ops :=
    Machine.run_map Prod.fst (fun _ _ => rfl) _ _
  have hopen : r.dialogue.closed = none := by
    rw [hrun] at hr
    exact (stored_reached c config handlers fallbackHandlers ops hr).1
  have hidle : idleExpired { r with dialogue := r.dialogue.afterTimers c now scripts } now = true ↔
      ∃ idle, (r.dialogue.afterTimers c now scripts).idleTimeout = some idle ∧
        idle ≤ now - p.2 tid := by
    rw [← htimely.activity tid r hr]
    simp [idleExpired, Option.any_eq_true]
  rw [idles_iff hr hopen, Quiet, hidle]
  constructor
  · exact fun h hexpired hclosed => h ⟨hexpired, hclosed⟩
  · exact fun h hboth => h hboth.1 hboth.2

/-- An engine whose dialogues are idle after ten seconds, and time their invokes for fifteen. -/
def restless : List Engine.Op := [.deliver invokeMsu "m2pa" (invokes 1 ++ [.send 0]) 0]

/-- The dialogue that is opened has been idle when its invoke times out, and is aborted if its
handler does nothing. -/
theorem idle_abort_iff_of_silence :
    let p := Machine.run (Engine.hear invokeCodec)
      (Engine.new ⟨15000, 10000, 10⟩ (fun _ => some 7) fun _ => none, fun _ => 0) restless
    ∃ r, p.1.dialogues.lookup [0x80, 0, 0, 1] = some r ∧
      Quiet (r.dialogue.afterTimers invokeCodec (fromMillis 15000) []) (p.2 [0x80, 0, 0, 1])
        (fromMillis 15000) := by
  intro p
  obtain ⟨r, hr⟩ : ∃ r, p.1.dialogues.lookup [0x80, 0, 0, 1] = some r :=
    Option.isSome_iff_exists.mp (by decide +kernel)
  refine ⟨r, hr, ?_⟩
  refine (idle_abort_iff invokeCodec ⟨15000, 10000, 10⟩ (fun _ => some 7) (fun _ => none) restless
    (by decide) _ r hr (fromMillis 15000) [] (fromMillis 15000)).mpr ?_ (by decide +kernel)
  have hall : ∀ r ∈ p.1.dialogues.lookup [0x80, 0, 0, 1],
      (r.dialogue.afterTimers invokeCodec (fromMillis 15000) []).out = [] ∧ idleExpired
        { r with dialogue := r.dialogue.afterTimers invokeCodec (fromMillis 15000) [] }
        (fromMillis 15000) = true := by
    decide +kernel
  exact fun _ _ => hall r hr

/-- If it passes another invoke on when it is told, the dialogue is aborted in that turn. -/
theorem aborted_in_use :
    ¬ ∀ (c : Codec) (config : Config) (handlers fallbackHandlers : ℕ × ℤ → Option Handler)
      (ops : List Engine.Op), (∀ op ∈ ops, op.isSweep = false) →
      let p := Machine.run (Engine.hear c)
        (Engine.new config handlers fallbackHandlers, fun _ => 0) ops
      ∀ tid, ∀ r ∈ p.1.dialogues.lookup tid, ∀ now scripts clock,
        p.1.idles c tid now scripts clock = true →
          Quiet (r.dialogue.afterTimers c now scripts) (p.2 tid) now := by
  intro hall
  let p := Machine.run (Engine.hear invokeCodec)
    (Engine.new ⟨15000, 10000, 10⟩ (fun _ => some 7) fun _ => none, fun _ => 0) restless
  obtain ⟨r, hr⟩ : ∃ r, p.1.dialogues.lookup [0x80, 0, 0, 1] = some r :=
    Option.isSome_iff_exists.mp (by decide +kernel)
  have hquiet := hall invokeCodec ⟨15000, 10000, 10⟩ (fun _ => some 7) (fun _ => none) restless
    (by decide) [0x80, 0, 0, 1] r hr (fromMillis 15000)
    [invokes 1 ++ [.send (fromMillis 15000)]] (fromMillis 15000) (by decide +kernel)
  have hsent : ∀ r ∈ p.1.dialogues.lookup [0x80, 0, 0, 1],
      (r.dialogue.afterTimers invokeCodec (fromMillis 15000)
        [invokes 1 ++ [.send (fromMillis 15000)]]).out ≠ [] := by
    decide +kernel
  exact hsent r hr hquiet.1

end SiphonSigtran.Tcap
