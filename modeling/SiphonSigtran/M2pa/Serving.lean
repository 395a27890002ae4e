import SiphonSigtran.Lib.Machine
import SiphonSigtran.Lib.Buffer
import SiphonSigtran.M2pa.Traffic

/-!
# Serving the queue of a link

One task at a time serves the queue of a link: that of its association, or one without while there
is none. What level 2 answers, whether it can send and what it holds when it fails, comes with each
event, so that nothing is said of it. Every message taken from the queue is sent, passed on, counted
as dropped or still held; and they leave in order as long as nothing is put in the buffer of a link
that is open.
-/

namespace SiphonSigtran.M2pa

open Lib Lib.Machine

/-- What level 3 tells the task that serves a link. -/
inductive LinkCommand
  | hold
  | divert (fsnc : Option ℕ)
  | open
  | fail
  | direct (msu : Msu)
  deriving DecidableEq, Repr

/-- What a task does about the traffic of its link. What was retrieved goes to the alternatives as
what is rerouted does, but was sent once or taken from level 2. -/
inductive Effect
  | sent (msu : Msu)
  | direct (msu : Msu)
  | rerouted (msu : Msu)
  | retrieved (msu : Msu)
  | full (msu : Msu)
  | counted (resent confirmed linkTests : ℕ)
  | lost (count : ℕ)
  | notSent
  | routable (on : Bool)
  deriving DecidableEq, Repr

namespace LinkTraffic

/-- Count what a failure took with it and nothing will send again. -/
def lostWithTheLink (count : ℕ) : List Effect := if count > 0 then [.lost count] else []

/-- An MSU handed to the link for transmission. -/
def carry (t : LinkTraffic) (msu : Msu) (canSend : Bool) : LinkTraffic × List Effect :=
  let offered := t.offer msu canSend
  (offered.1, match offered.2 with
    | .send msu => [.sent msu]
    | .held => []
    | .divert msu => [.rerouted msu]
    | .full => [.full msu])

/-- What was buffered, offered to the link one after the other. -/
def carryBuffered (canSend : Bool) : List Msu → LinkTraffic → LinkTraffic × List Effect
  | [], t => (t, [])
  | msu :: rest, t =>
    let offered := t.offer msu canSend
    let others := carryBuffered canSend rest offered.1
    (others.1, (match offered.2 with
      | .send msu => [.sent msu]
      | .full => [.full msu]
      | .held | .divert _ => []) ++ others.2)

def divertAll (t : LinkTraffic) (fsnc : Option ℕ) : LinkTraffic × List Effect :=
  let diverted := (t.divert fsnc).2
  ((t.divert fsnc).1,
    .counted diverted.resent diverted.confirmed diverted.linkTests ::
      lostWithTheLink diverted.unconfirmed ++
      (diverted.messages.take diverted.resent).map .retrieved ++
      (diverted.messages.drop diverted.resent).map .rerouted ++ [.routable false])

/-- What level 3 wants of the link. Taking it out of service is for level 2. -/
def command (t : LinkTraffic) (canSend : Bool) : LinkCommand → LinkTraffic × List Effect
  | .hold => (t.hold, [.routable true])
  | .divert fsnc => t.divertAll fsnc
  | .open =>
    let opened := t.open
    let carried := carryBuffered canSend opened.2.1 opened.1
    (carried.1, .routable true :: lostWithTheLink opened.2.2 ++ carried.2)
  | .fail => (t, [])
  | .direct msu => (t, [.direct msu])

/-- The link stopped being available, with `left` what it held when it failed. -/
def unavailable (t : LinkTraffic) (left : Option Retrievable) : LinkTraffic × List Effect :=
  ((t.failed left).1, lostWithTheLink (t.failed left).2)

/-- An MSU handed to a link that has no association. -/
def idleCarry (t : LinkTraffic) (msu : Msu) : LinkTraffic × List Effect :=
  let offered := t.offer msu false
  (offered.1, match offered.2 with
    | .divert msu => [.rerouted msu]
    | .full => [.full msu]
    | .held | .send _ => [])

/-- What level 3 wants of a link that has no association. -/
def idleCommand (t : LinkTraffic) : LinkCommand → LinkTraffic × List Effect
  | .hold => (t.hold, [.routable true])
  | .divert fsnc => t.divertAll fsnc
  | .open => (t.hold, [.routable true])
  | .fail => (t, [])
  | .direct _ => (t, [.notSent])

end LinkTraffic

/-- What the tasks that serve a link come across. `canSend` is whether level 2 is aligned on an
association that is not lost. -/
inductive Served
  | carry (msu : Msu) (canSend : Bool)
  | command (command : LinkCommand) (canSend : Bool)
  | unavailable (left : Option Retrievable)
  | idleCarry (msu : Msu)
  | idleCommand (command : LinkCommand)
  deriving DecidableEq, Repr

namespace LinkTraffic

def serve (t : LinkTraffic) : Served → LinkTraffic × List Effect
  | .carry msu canSend => t.carry msu canSend
  | .command command canSend => t.command canSend command
  | .unavailable left => t.unavailable left
  | .idleCarry msu => t.idleCarry msu
  | .idleCommand command => t.idleCommand command

/-- Something is put in the buffer of a link that is open. -/
def Strands (t : LinkTraffic) : Served → Prop
  | .carry _ canSend => t.state = .open ∧ canSend = false ∧ t.held.length < t.capacity
  | .command .open canSend => canSend = false ∧ t.held ≠ []
  | .idleCarry _ => t.state = .open ∧ t.held.length < t.capacity
  | _ => False

end LinkTraffic

/-- What is taken from the queue. -/
def Served.taken : Served → List Msu
  | .carry msu _ | .idleCarry msu => [msu]
  | _ => []

/-- What of the queue leaves: passed to level 2, or to the alternatives. -/
def Effect.left : Effect → List Msu
  | .sent msu | .rerouted msu => [msu]
  | _ => []

def Effect.dropped : Effect → List Msu
  | .full msu => [msu]
  | _ => []

/-- The ledger of the queue after one more event, from what the task does about it. -/
def account (b : Buffer.Ledger Msu) (e : Served) (served : LinkTraffic × List Effect) :
    Buffer.Ledger Msu where
  taken := b.taken ++ e.taken
  left := b.left ++ served.2.flatMap Effect.left
  held := served.1.held
  dropped := b.dropped ++ served.2.flatMap Effect.dropped

/-- The tasks of a link, and the ledger of its queue. -/
def accounting : LinkTraffic × Buffer.Ledger Msu → Served → LinkTraffic × Buffer.Ledger Msu :=
  Machine.watch LinkTraffic.serve fun b _ e served => account b e served

/-! ## One event -/

namespace LinkTraffic

/-- The buffer of a link that does not hold is empty. -/
def Clear (t : LinkTraffic) : Prop := t.state ≠ .hold → t.held = []

theorem carryBuffered_send {t : LinkTraffic} (h : t.state = .open) (msus : List Msu) :
    carryBuffered true msus t = (t, msus.map .sent) := by
  induction msus with
  | nil => rfl
  | cons msu msus ih => simp [carryBuffered, offer, h, ih]

/-- What was buffered is buffered again when level 2 cannot send: there was room for it. -/
theorem carryBuffered_held {t : LinkTraffic} (h : t.state = .open) {msus : List Msu}
    (hroom : t.held.length + msus.length ≤ t.capacity) :
    (carryBuffered false msus t).1.state = .open ∧
      (carryBuffered false msus t).1.held = t.held ++ msus ∧
      (carryBuffered false msus t).2 = [] := by
  induction msus generalizing t with
  | nil => simp [carryBuffered, h]
  | cons msu msus ih =>
    rw [List.length_cons] at hroom
    have hfull : ¬t.held.length ≥ t.capacity := by omega
    have hoffer : t.offer msu false = ({ t with
        held := t.held ++ [msu]
        bounded := by simp; omega }, .held) := by
      simp [offer, h, hfull]
    obtain ⟨hstate, hheld, hout⟩ := ih (t := (t.offer msu false).1) (by rw [hoffer]; exact h) (by
      rw [hoffer]
      simp only [List.length_append, List.length_cons, List.length_nil]
      omega)
    rw [hoffer] at hstate hheld hout
    simp only [carryBuffered, hoffer]
    exact ⟨hstate, by rw [hheld, List.append_assoc]; rfl, hout⟩

theorem left_lostWithTheLink (count : ℕ) : (lostWithTheLink count).flatMap Effect.left = [] := by
  unfold lostWithTheLink
  split_ifs <;> rfl

theorem dropped_lostWithTheLink (count : ℕ) :
    (lostWithTheLink count).flatMap Effect.dropped = [] := by
  unfold lostWithTheLink
  split_ifs <;> rfl

/-- A message offered is passed on, held or dropped. -/
theorem offer_cases (t : LinkTraffic) (msu : Msu) (inService : Bool) :
    (t.state = .open ∧ inService = true ∧ t.offer msu inService = (t, .send msu)) ∨
    (t.state = .closed ∧ t.offer msu inService = (t, .divert msu)) ∨
    ((t.state = .hold ∨ t.state = .open ∧ inService = false) ∧
      t.offer msu inService = (t, .full)) ∨
    ((t.state = .hold ∨ t.state = .open ∧ inService = false ∧ t.held.length < t.capacity) ∧
      (t.offer msu inService).1.state = t.state ∧
      (t.offer msu inService).1.held = t.held ++ [msu] ∧ (t.offer msu inService).2 = .held) := by
  by_cases hfull : t.held.length ≥ t.capacity
  · cases hs : t.state <;> cases inService <;> simp [offer, hs, hfull]
  · have hroom : t.held.length < t.capacity := by omega
    cases hs : t.state <;> cases inService <;> simp [offer, hs, hfull, hroom]

/-- Nothing is sent while level 2 cannot. -/
theorem offer_unsent (t : LinkTraffic) (msu m : Msu) : (t.offer msu false).2 ≠ .send m := by
  rcases t.offer_cases msu false with ⟨-, hno, -⟩ | ⟨-, hout⟩ | ⟨-, hout⟩ | ⟨-, -, -, hout⟩
  · exact absurd hno Bool.false_ne_true
  all_goals simp [hout]

/-- A failure leaves the buffer as it is. -/
theorem failed_held (t : LinkTraffic) (left : Option Retrievable) :
    (t.failed left).1.held = t.held ∧
      (t.failed left).1.state = if t.state = .open then .hold else t.state := by
  unfold failed
  cases left with
  | none => by_cases hs : t.state = .open <;> simp [hs]
  | some left =>
    dsimp only
    by_cases hs : t.state = .open
    · by_cases hk : t.kept = none <;> simp [hs, hk]
    · by_cases hcarried : t.state ≠ .closed ∧ t.kept = none <;> simp [hs, hcarried]

/-- What a failed link held is kept, or counted as lost but for the link tests. -/
theorem failed_keeps (t : LinkTraffic) (left : Retrievable) :
    (t.failed (some left)).1.kept = some left ∨
      (t.failed (some left)).2 + left.linkTests = left.len := by
  unfold failed
  dsimp only
  split_ifs
  · exact .inl rfl
  · exact .inr left.lost_add_linkTests
  · exact .inl rfl
  · exact .inr left.lost_add_linkTests

theorem divertAll_out (t : LinkTraffic) (fsnc : Option ℕ) :
    (t.divertAll fsnc).2.flatMap Effect.left = t.held ∧
      (t.divertAll fsnc).2.flatMap Effect.dropped = [] := by
  have hleft : ∀ xs : List Msu, (xs.map Effect.rerouted).flatMap Effect.left = xs ∧
      (xs.map Effect.retrieved).flatMap Effect.left = [] ∧
      (xs.map Effect.rerouted).flatMap Effect.dropped = [] ∧
      (xs.map Effect.retrieved).flatMap Effect.dropped = [] := by
    intro xs
    induction xs with
    | nil => simp
    | cons x xs ih => simpa [Effect.left, Effect.dropped] using ih
  simp only [divertAll, List.flatMap_append, List.flatMap_cons, List.flatMap_nil, Effect.left,
    Effect.dropped, left_lostWithTheLink, dropped_lostWithTheLink, hleft, divert_held,
    List.nil_append, List.append_nil, and_self]

/-- The state and the buffer of an offer, with nothing said of what was kept. -/
theorem Clear.offer {t : LinkTraffic} (h : t.Clear) {msu : Msu} {inService : Bool}
    (hs : ¬(t.state = .open ∧ inService = false ∧ t.held.length < t.capacity)) :
    (t.offer msu inService).1.Clear := by
  rcases t.offer_cases msu inService with ⟨-, -, hout⟩ | ⟨-, hout⟩ | ⟨-, hout⟩ |
    ⟨hstate, hsame, -, -⟩
  · rw [hout]
    exact h
  · rw [hout]
    exact h
  · rw [hout]
    exact h
  · intro hne
    rcases hstate with hhold | hopen
    · exact absurd (hsame.trans hhold) hne
    · exact absurd hopen hs

end LinkTraffic

section

variable {t : LinkTraffic} {b : Buffer.Ledger Msu}

open LinkTraffic

/-- A message taken from the queue is passed on, held or dropped, and it overtakes nothing when
what is held is held by a link that holds. -/
theorem account_offer (h : b.held = t.held) (msu : Msu) (inService : Bool) {e : Served}
    {served : LinkTraffic × List Effect} (hs : served.1 = (t.offer msu inService).1)
    (he : e.taken = [msu]) (hleft : served.2.flatMap Effect.left =
      match (t.offer msu inService).2 with | .send msu | .divert msu => [msu] | _ => [])
    (hdropped : served.2.flatMap Effect.dropped =
      match (t.offer msu inService).2 with | .full => [msu] | _ => []) :
    ∃ m, account b e served = b.move m ∧ (t.Clear → ¬b.Overtakes m) := by
  obtain ⟨t', effects⟩ := served
  dsimp only at hs hleft hdropped
  have hpass : t.state ≠ .hold → t.Clear → ¬b.Overtakes (.pass msu) := fun hne hclear hheld =>
    hheld (h.trans (hclear hne))
  rcases t.offer_cases msu inService with ⟨hstate, -, hout⟩ | ⟨hstate, hout⟩ | ⟨-, hout⟩ |
    ⟨-, -, hheld, hout⟩
  · rw [hout] at hs hleft hdropped
    refine ⟨.pass msu, ?_, hpass (by simp [hstate])⟩
    simp [account, Buffer.Ledger.move, he, hs, h, hleft, hdropped]
  · rw [hout] at hs hleft hdropped
    refine ⟨.pass msu, ?_, hpass (by simp [hstate])⟩
    simp [account, Buffer.Ledger.move, he, hs, h, hleft, hdropped]
  · rw [hout] at hs hleft hdropped
    refine ⟨.drop msu, ?_, fun _ hno => hno⟩
    simp [account, Buffer.Ledger.move, he, hs, h, hleft, hdropped]
  · rw [hout] at hleft hdropped
    refine ⟨.hold msu, ?_, fun _ hno => hno⟩
    simp [account, Buffer.Ledger.move, he, hs, hheld, h, hleft, hdropped]

theorem account_still {e : Served} {served : LinkTraffic × List Effect} (he : e.taken = [])
    (hheld : served.1.held = b.held) (hleft : served.2.flatMap Effect.left = [])
    (hdropped : served.2.flatMap Effect.dropped = []) : account b e served = b := by
  simp [account, he, hheld, hleft, hdropped]

theorem account_release {e : Served} {served : LinkTraffic × List Effect} (he : e.taken = [])
    (hheld : served.1.held = []) (hleft : served.2.flatMap Effect.left = b.held)
    (hdropped : served.2.flatMap Effect.dropped = []) :
    account b e served = b.move .release := by
  simp [account, Buffer.Ledger.move, he, hheld, hleft, hdropped]

/-- What was buffered goes out on the link, or stays buffered when level 2 cannot send. -/
theorem account_open (h : b.held = t.held) (canSend : Bool) :
    account b (.command .open canSend) (t.command canSend .open) = b ∨
      account b (.command .open canSend) (t.command canSend .open) = b.move .release := by
  have hopened : (t.open).1.state = .open := rfl
  cases canSend with
  | true =>
    right
    have hcarried := carryBuffered_send hopened t.held
    have hsent : ∀ xs : List Msu, (xs.map Effect.sent).flatMap Effect.left = xs ∧
        (xs.map Effect.sent).flatMap Effect.dropped = [] := by
      intro xs
      induction xs with
      | nil => simp
      | cons x xs ih => simpa [Effect.left, Effect.dropped] using ih
    have hcommand : t.command true .open = ((t.open).1,
        .routable true :: lostWithTheLink (t.open).2.2 ++ t.held.map .sent) := by
      have hbuffered : (t.open).2.1 = t.held := rfl
      simp only [command, hbuffered, hcarried]
    rw [hcommand]
    apply account_release rfl rfl
    · simp [List.flatMap_append, Effect.left, left_lostWithTheLink, hsent, h]
    · simp [List.flatMap_append, Effect.dropped, dropped_lostWithTheLink, hsent]
  | false =>
    left
    have hroom : (t.open).1.held.length + t.held.length ≤ (t.open).1.capacity := by
      simpa [LinkTraffic.open] using t.bounded
    have hbuffered : (t.open).2.1 = t.held := rfl
    obtain ⟨-, hheld, hout⟩ := carryBuffered_held hopened hroom
    apply account_still rfl
    · rw [h]
      exact hheld.trans (by simp [LinkTraffic.open])
    · simp only [command, hbuffered, hout, List.flatMap_append, List.flatMap_cons,
        left_lostWithTheLink, Effect.left, List.nil_append, List.flatMap_nil]
    · simp only [command, hbuffered, hout, List.flatMap_append, List.flatMap_cons,
        dropped_lostWithTheLink, Effect.dropped, List.nil_append, List.flatMap_nil]

/-- An event of a task does one thing to the ledger of the queue, or none. -/
theorem account_serve (h : b.held = t.held) (e : Served) : account b e (t.serve e) = b ∨
    ∃ m, account b e (t.serve e) = b.move m ∧ (t.Clear → ¬b.Overtakes m) := by
  have hdivert : ∀ e fsnc, e.taken = [] → account b e (t.divertAll fsnc) = b.move .release := by
    intro e fsnc he
    obtain ⟨hleft, hdropped⟩ := t.divertAll_out fsnc
    exact account_release he rfl (hleft.trans h.symm) hdropped
  have hhold : ∀ e, e.taken = [] → account b e (t.hold, [.routable true]) = b := fun e he =>
    account_still he h.symm rfl rfl
  cases e with
  | carry msu canSend =>
    right
    refine account_offer h msu canSend rfl rfl ?_ ?_
    all_goals
      simp only [serve, carry]
      cases (t.offer msu canSend).2 <;> rfl
  | idleCarry msu =>
    right
    have hunsent := t.offer_unsent msu
    refine account_offer h msu false rfl rfl ?_ ?_
    all_goals
      simp only [serve, idleCarry]
      cases hout : (t.offer msu false).2 with
      | send m => exact absurd hout (hunsent m)
      | _ => rfl
  | unavailable left =>
    left
    apply account_still rfl
    · exact (t.failed_held left).1.trans h.symm
    · exact left_lostWithTheLink _
    · exact dropped_lostWithTheLink _
  | idleCommand c =>
    cases c with
    | hold | «open» => exact .inl (hhold _ rfl)
    | divert fsnc => exact .inr ⟨.release, hdivert _ fsnc rfl, fun _ hno => hno⟩
    | fail | direct msu => exact .inl (account_still rfl h.symm rfl rfl)
  | command c canSend =>
    cases c with
    | hold => exact .inl (hhold _ rfl)
    | divert fsnc => exact .inr ⟨.release, hdivert _ fsnc rfl, fun _ hno => hno⟩
    | fail | direct msu => exact .inl (account_still rfl h.symm rfl rfl)
    | «open» =>
      rcases account_open h canSend with hsame | hreleased
      · exact .inl hsame
      · exact .inr ⟨.release, hreleased, fun _ hno => hno⟩

end

/-- What is taken from the queue and leaves at once leaves an empty buffer. -/
theorem LinkTraffic.Clear.in_turn {t : LinkTraffic} (h : t.Clear) {e : Served}
    (he : e.taken ≠ []) (hleft : (t.serve e).2.flatMap Effect.left ≠ []) : t.held = [] := by
  by_contra hheld
  have hstate : t.state = .hold := by
    by_contra hne
    exact hheld (h hne)
  apply hleft
  cases e with
  | carry msu canSend =>
    simp only [LinkTraffic.serve, LinkTraffic.carry]
    rcases t.offer_cases msu canSend with ⟨hno, -⟩ | ⟨hno, -⟩ | ⟨-, hout⟩ | ⟨-, -, -, hout⟩
    · simp [hstate] at hno
    · simp [hstate] at hno
    · simp [hout, Effect.left]
    · simp [hout]
  | idleCarry msu =>
    simp only [LinkTraffic.serve, LinkTraffic.idleCarry]
    rcases t.offer_cases msu false with ⟨hno, -⟩ | ⟨hno, -⟩ | ⟨-, hout⟩ | ⟨-, -, -, hout⟩
    · simp [hstate] at hno
    · simp [hstate] at hno
    · simp [hout, Effect.left]
    · simp [hout]
  | _ => exact absurd rfl he

/-- A link that is open has nothing in its buffer when nothing is put there while it is. -/
theorem LinkTraffic.Clear.serve {t : LinkTraffic} (h : t.Clear) {e : Served}
    (he : ¬t.Strands e) : (t.serve e).1.Clear := by
  have hhold : t.hold.Clear := fun hne => absurd rfl hne
  have hdivert : ∀ fsnc, (t.divertAll fsnc).1.Clear := fun _ _ => rfl
  cases e with
  | carry msu canSend => exact h.offer he
  | idleCarry msu => exact h.offer fun hs => he ⟨hs.1, hs.2.2⟩
  | unavailable left =>
    obtain ⟨hheld, hstate⟩ := t.failed_held left
    intro hne
    refine hheld.trans (h fun hhold => hne (hstate.trans ?_))
    simp [hhold]
  | idleCommand c =>
    cases c with
    | hold | «open» => exact hhold
    | divert fsnc => exact hdivert fsnc
    | fail | direct => exact h
  | command c canSend =>
    cases c with
    | hold => exact hhold
    | divert fsnc => exact hdivert fsnc
    | fail | direct => exact h
    | «open» =>
      have hopened : (t.open).1.state = .open := rfl
      cases canSend with
      | true =>
        have hcarried : (t.serve (.command .open true)).1 = (t.open).1 := by
          simp only [LinkTraffic.serve, LinkTraffic.command, carryBuffered_send hopened]
        rw [hcarried]
        exact fun _ => rfl
      | false =>
        have hheld : t.held = [] := by
          by_contra hne
          exact he ⟨rfl, hne⟩
        have hcarried : (t.serve (.command .open false)).1 = (t.open).1 := by
          have hbuffered : (t.open).2.1 = [] := hheld
          simp only [LinkTraffic.serve, LinkTraffic.command, hbuffered]
          rfl
        rw [hcarried]
        exact fun _ => rfl

instance (t : LinkTraffic) : ∀ e, Decidable (t.Strands e)
  | .carry _ canSend =>
    inferInstanceAs (Decidable (t.state = .open ∧ canSend = false ∧ t.held.length < t.capacity))
  | .command .open canSend => inferInstanceAs (Decidable (canSend = false ∧ t.held ≠ []))
  | .idleCarry _ => inferInstanceAs (Decidable (t.state = .open ∧ t.held.length < t.capacity))
  | .command .hold _ | .command (.divert _) _ | .command .fail _ | .command (.direct _) _
  | .unavailable _ | .idleCommand _ => .isFalse id

/-! ## Runs -/

/-- What holds of the tasks and the ledger of the queue, whatever comes. -/
structure Booked (s : LinkTraffic × Buffer.Ledger Msu) : Prop where
  held : s.2.held = s.1.held
  accounted : s.2.Accounted

theorem Booked.step {s : LinkTraffic × Buffer.Ledger Msu} (h : Booked s) (e : Served) :
    Booked (accounting s e) := by
  refine ⟨rfl, ?_⟩
  have hledger : (accounting s e).2 = account s.2 e (s.1.serve e) := rfl
  rw [hledger]
  rcases account_serve h.held e with hsame | ⟨m, hmove, -⟩
  · rw [hsame]
    exact h.accounted
  · rw [hmove]
    exact h.accounted.move m

/-- What holds as long as nothing is put in the buffer of a link that is open. -/
structure Orderly (s : LinkTraffic × Buffer.Ledger Msu) : Prop extends Booked s where
  clear : s.1.Clear
  inOrder : s.2.InOrder

theorem Orderly.step {s : LinkTraffic × Buffer.Ledger Msu} (h : Orderly s) {e : Served}
    (he : ¬s.1.Strands e) : Orderly (accounting s e) := by
  have hledger : (accounting s e).2 = account s.2 e (s.1.serve e) := rfl
  refine ⟨h.toBooked.step e, h.clear.serve he, ?_⟩
  rw [hledger]
  rcases account_serve h.held e with hsame | ⟨m, hmove, hm⟩
  · rw [hsame]
    exact h.inOrder
  · rw [hmove]
    exact h.inOrder.move (hm h.clear)

theorem orderly_new (capacity : ℕ) : Orderly (LinkTraffic.new capacity, .empty) where
  held := rfl
  accounted := Buffer.Ledger.accounted_empty
  clear _ := rfl
  inOrder := Buffer.Ledger.inOrder_empty

theorem booked_run (capacity : ℕ) (is : List Served) :
    Booked (Machine.run accounting (.new capacity, .empty) is) :=
  run_invariant (Q := fun _ _ => True) (fun _ e h _ => h.step e)
    (orderly_new capacity).toBooked (along_trivial _ is)

theorem orderly_run {capacity : ℕ} {is : List Served}
    (h : Along accounting (fun s e => ¬s.1.Strands e) (.new capacity, .empty) is) :
    Orderly (Machine.run accounting (.new capacity, .empty) is) :=
  run_invariant (fun _ _ h he => h.step he) (orderly_new capacity) h

/-- The ledger is of everything taken from the queue. -/
theorem taken_run (s : LinkTraffic × Buffer.Ledger Msu) (is : List Served) :
    (Machine.run accounting s is).2.taken = s.2.taken ++ is.flatMap Served.taken := by
  induction is generalizing s with
  | nil => simp
  | cons e is ih =>
    rw [run_cons, ih, List.flatMap_cons, ← List.append_assoc]
    rfl

/-- Everything taken from the queue, and everything a failed link held, is accounted for; and
nothing overtakes what is held when nothing is put in the buffer of a link that is open. -/
theorem queue_in_order (capacity : ℕ) (is : List Served) :
    let s := Machine.run accounting (.new capacity, .empty) is
    (s.2.taken = is.flatMap Served.taken ∧ s.2.held = s.1.held ∧
      (s.2.taken : Multiset Msu) = s.2.left + s.2.held + s.2.dropped) ∧
    (∀ kept, s.1.kept = some kept →
      (∀ fsnc, (s.1.divert fsnc).2.resent + (s.1.divert fsnc).2.confirmed +
          (s.1.divert fsnc).2.unconfirmed + (s.1.divert fsnc).2.linkTests = kept.len ∧
        ∀ msu ∈ (s.1.divert fsnc).2.messages.take (s.1.divert fsnc).2.resent,
          isLinkTest msu = false) ∧
      (s.1.open).2.2 + kept.linkTests = kept.len) ∧
    (∀ left, (s.1.failed (some left)).1.kept = some left ∨
      (s.1.failed (some left)).2 + left.linkTests = left.len) ∧
    (Along accounting (fun s e => ¬s.1.Strands e) (.new capacity, .empty) is →
      (s.2.left ++ s.2.held).Sublist s.2.taken ∧
      ∀ e, e.taken ≠ [] → (s.1.serve e).2.flatMap Effect.left ≠ [] → s.1.held = []) := by
  intro s
  have hs : Booked s := booked_run capacity is
  refine ⟨⟨taken_run (.new capacity, .empty) is, hs.held, hs.accounted⟩, ?_, ?_, ?_⟩
  · intro kept hkept
    constructor
    · intro fsnc
      constructor
      · exact LinkTraffic.divert_accounts hkept fsnc
      · intro msu hmsu
        exact LinkTraffic.divert_retrieved hmsu
    · simp only [LinkTraffic.open, hkept, Option.map_some, Option.getD_some]
      exact kept.lost_add_linkTests
  · intro left
    exact s.1.failed_keeps left
  · intro hrun
    have horderly : Orderly s := orderly_run hrun
    constructor
    · exact horderly.inOrder
    · intro e he hleft
      exact horderly.clear.in_turn he hleft

/-- Traffic is buffered, sent when the link is open again, and passed on when it closed. -/
def heldThenSent : List Served :=
  [.command .hold true, .carry [0x85, 1] true, .command .open true, .carry [0x85, 2] true,
    .unavailable none, .idleCarry [0x85, 3], .idleCommand (.divert none)]

theorem heldThenSent_in_order :
    let s := Machine.run accounting (.new 4, .empty) heldThenSent
    (s.2.left ++ s.2.held).Sublist s.2.taken :=
  ((queue_in_order 4 heldThenSent).2.2.2 (by decide +kernel)).1

/-- Level 3 opens the link while it is not aligned: what was buffered stays so, and the next
message that comes once it is aligned is sent before it. -/
def openedUnaligned : List Served :=
  [.command .hold true, .carry [0x85, 1] true, .command .open false, .carry [0x85, 2] true]

theorem openedUnaligned_overtakes :
    ¬∀ (capacity : ℕ) (is : List Served),
      let s := Machine.run accounting (.new capacity, .empty) is
      (s.2.taken : Multiset Msu) = s.2.left + s.2.held + s.2.dropped ∧
        (s.2.left ++ s.2.held).Sublist s.2.taken := by
  intro h
  exact absurd (h 4 openedUnaligned).2 (by decide +kernel)

end SiphonSigtran.M2pa
