import SiphonSigtran.Tcap.Acts

/-!
# What operations do to the records

A record is stored anew when its dialogue has had a turn, and only then: for a Continue that
names it, or when its timers ran. All other records stay as they are.
-/

namespace SiphonSigtran.Tcap

open Lib

variable {c : Codec} {e : Engine} {d : Dialogue}

/-- The transaction that a message continues. -/
def TcapMessage.continued : TcapMessage → Option Tid
  | .continues m => some m.dtid
  | _ => none

/-- The transaction that a message continues which was understood up to a component. -/
def DecodeProblem.continued (problem : DecodeProblem) : Option Tid :=
  match problem.fault with
  | .component _ _ => problem.understood.bind TcapMessage.continued
  | _ => none

/-- The transaction of ours that an inbound MSU continues. -/
def continued (c : Codec) (inbound : Msu) : Option Tid :=
  if inbound.si ≠ siSccp then none
  else
    ((c.decodeSccp inbound.payload).bind Engine.terminated).bind fun unitdata =>
      match c.decodeDetailed unitdata.1.data with
      | .complete message => message.continued
      | .problem problem => problem.continued

/-- The records are filed under the ids of their dialogues, and have nothing left to send. -/
structure Filed (tid : Tid) (allocated : ℕ) (r : Record) : Prop where
  ourTid : r.dialogue.ourTid = tid
  serial : r.dialogue.serial ≤ allocated
  out : r.dialogue.out = []

/-- A dialogue as a turn leaves it in the store. -/
structure Renewed (d : Dialogue) (activity : ℕ) (r : Record) : Prop where
  ourTid : r.dialogue.ourTid = d.ourTid
  serial : r.dialogue.serial = d.serial
  out : r.dialogue.out = []
  claimed : r.claimed = false
  lastActivity : r.lastActivity = activity

theorem Renewed.of_same {d' : Dialogue} {activity : ℕ} {r : Record} (h : Renewed d activity r)
    (htid : d.ourTid = d'.ourTid) (hserial : d.serial = d'.serial) : Renewed d' activity r :=
  ⟨h.ourTid.trans htid, h.serial.trans hserial, h.out, h.claimed, h.lastActivity⟩

/-! ## One turn -/

theorem store_record {handler : Handler} {assoc : String} {activity : ℕ} {tid : Tid} {r : Record}
    (hr : (e.store d handler assoc activity).dialogues.lookup tid = some r) :
    e.dialogues.lookup tid = some r ∨
      tid = d.ourTid ∧ r = ⟨handler, d, assoc, activity, false⟩ := by
  change (e.dialogues.insert d.ourTid _).lookup tid = some r at hr
  by_cases heq : tid = d.ourTid
  · subst heq
    rw [AList.lookup_insert] at hr
    exact .inr ⟨rfl, (Option.some.inj hr).symm⟩
  · rw [AList.lookup_insert_ne heq] at hr
    exact .inl hr

theorem Engine.finishTurn_cases (e : Engine) (d : Dialogue) (handler : Handler) (assoc : String)
    (turn : Turn) (lastActivity now : ℕ) : ∃ d', d.Kept d' ∧ (turn ≠ .begins → d' = d) ∧
      ((∃ reason, d'.closed = some reason ∧
        e.finishTurn c d handler assoc turn lastActivity now =
          (d'.out, e.closed handler { d' with sendError := none, out := [] } reason)) ∨
      d'.closed = none ∧ e.finishTurn c d handler assoc turn lastActivity now =
        (d'.out, e.store { d' with sendError := none, out := [] } handler assoc
          (if turn = .timer ∧ d'.out.isEmpty then lastActivity else now))) := by
  unfold Engine.finishTurn
  extract_lets d₁ frames d₂ activity
  refine ⟨d₁, ?_, ?_, ?_⟩
  · simp only [d₁]
    split_ifs
    · exact d.abortAs_kept _
    · exact Dialogue.Kept.refl d
  · intro hturn
    exact if_neg fun hbegins => hturn hbegins.1
  · rcases Option.eq_none_or_eq_some d₁.closed with hd | ⟨reason, hd⟩
    · refine .inr ⟨hd, ?_⟩
      split
      · rename_i reason hsome
        cases hsome.symm.trans hd
      · rfl
    · refine .inl ⟨reason, hd, ?_⟩
      split
      · rename_i reason' hsome
        obtain rfl := Option.some.inj (hsome.symm.trans hd)
        rfl
      · rename_i hnone
        cases hnone.symm.trans hd

theorem finishTurn_record {handler : Handler} {assoc : String} {turn : Turn}
    {lastActivity now : ℕ} {tid : Tid} {r : Record}
    (hr : (e.finishTurn c d handler assoc turn lastActivity now).2.dialogues.lookup tid =
      some r) : e.dialogues.lookup tid = some r ∨ tid = d.ourTid ∧
        Renewed d (if turn = .timer ∧ (e.finishTurn c d handler assoc turn lastActivity
          now).1.isEmpty then lastActivity else now) r := by
  obtain ⟨d', hkept, -, ⟨reason, -, heq⟩ | ⟨-, heq⟩⟩ :=
    e.finishTurn_cases (c := c) d handler assoc turn lastActivity now
  · rw [heq] at hr
    exact .inl hr
  · rw [heq] at hr ⊢
    rcases store_record hr with hsame | ⟨htid, rfl⟩
    · exact .inl hsame
    · exact .inr ⟨htid.trans hkept.ourTid, hkept.ourTid, hkept.serial, rfl, rfl, rfl⟩

theorem finishTurn_allocated (e : Engine) (d : Dialogue) (handler : Handler) (assoc : String)
    (turn : Turn) (lastActivity now : ℕ) :
    (e.finishTurn c d handler assoc turn lastActivity now).2.allocated = e.allocated := by
  obtain ⟨d', -, -, ⟨reason, -, heq⟩ | ⟨-, heq⟩⟩ :=
    e.finishTurn_cases (c := c) d handler assoc turn lastActivity now
  · rw [heq]
    rfl
  · rw [heq]
    rfl

theorem take_record {tid tid' : Tid} {r : Record}
    (hr : (e.take tid).2.dialogues.lookup tid' = some r) :
    tid' ≠ tid ∧ e.dialogues.lookup tid' = some r := by
  unfold Engine.take at hr
  split at hr
  · rename_i hnone
    refine ⟨?_, hr⟩
    rintro rfl
    rw [hnone] at hr
    cases hr
  · by_cases heq : tid' = tid
    · subst heq
      simp [Engine.note] at hr
    · exact ⟨heq, by simpa [Engine.note, AList.lookup_erase_ne heq] using hr⟩

/-! ## Inbound messages -/

/-- What a record after an inbound message, or a request to begin, was before: the same, if its
dialogue was not continued, or the dialogue is new, or it had a turn because it was continued. -/
inductive Change (e e' : Engine) (named : Option Tid) (now : ℕ) (tid : Tid) (r : Record) : Prop
  | same (h : e.dialogues.lookup tid = some r) (hnamed : named ≠ some tid)
  | begun (d : Dialogue) (htid : d.ourTid = tid) (hserial : d.serial = e.allocated + 1)
      (hallocated : e'.allocated = e.allocated + 1) (hrenewed : Renewed d now r)
  | turned (r' : Record) (hnamed : named = some tid) (hr : e.dialogues.lookup tid = some r')
      (hrenewed : Renewed r'.dialogue now r)

/-- What is in the store after an operation. -/
def Changes (e e' : Engine) (named : Option Tid) (now : ℕ) : Prop :=
  ∀ tid r, e'.dialogues.lookup tid = some r → Change e e' named now tid r

theorem onTurn_changes (hfiled : ∀ tid r, e.dialogues.lookup tid = some r →
      r.dialogue.ourTid = tid) (ourTid : Tid) (peerOtid : Option Tid)
    (components : List Component) (rejected : Option Rejected) (isEnd : Bool)
    (replyTo : Addressing) (script : List Call) (now : ℕ) :
    Changes e (e.onTurn c ourTid peerOtid components rejected isEnd replyTo script now).2
      (if isEnd then none else some ourTid) now := by
  intro tid r hr
  unfold Engine.onTurn at hr
  have hother : tid ≠ ourTid → (if isEnd then none else some ourTid) ≠ some tid := by
    intro hne
    split_ifs
    · simp
    · exact fun heq => hne (Option.some.inj heq).symm
  rcases take_cases e ourTid with heq | ⟨r₀, hr₀, heq⟩
  · have hnone : e.dialogues.lookup ourTid = none := by
      unfold Engine.take at heq
      split at heq
      · assumption
      · cases heq
    have hsame : e.dialogues.lookup tid = some r := by
      rw [heq] at hr
      cases peerOtid <;> exact hr
    refine .same hsame (hother ?_)
    rintro rfl
    cases hnone.symm.trans hsame
  · rw [heq] at hr
    dsimp only at hr
    generalize hlearned : (if r₀.dialogue.peerTid.isEmpty then
      { r₀.dialogue with peerTid := peerOtid.getD r₀.dialogue.peerTid } else r₀.dialogue) = d
      at hr
    have hsame : d.serial = r₀.dialogue.serial ∧ d.ourTid = r₀.dialogue.ourTid := by
      rw [← hlearned]
      split_ifs <;> exact ⟨rfl, rfl⟩
    have hkept := d.receive_kept isEnd components rejected
    generalize d.receive isEnd components rejected = received at hkept hr
    have hcalled := received.2.calls_kept (c := c) script
    split_ifs at hr with hend
    · exact .same (take_record hr).2 (hother (take_record hr).1)
    · rcases finishTurn_record hr with hsame' | ⟨htid, hrenewed⟩
      · exact .same (take_record hsame').2 (hother (take_record hsame').1)
      · have htid' : tid = ourTid := by
          rw [htid]
          exact hcalled.ourTid.trans (hkept.ourTid.trans (hsame.2.trans (hfiled _ _ hr₀)))
        subst htid'
        refine .turned r₀ (by simp [hend]) hr₀ ?_
        refine hrenewed.of_same ?_ ?_
        · exact hcalled.ourTid.trans (hkept.ourTid.trans hsame.2)
        · exact hcalled.serial.trans (hkept.serial.trans hsame.1)

theorem onBegin_changes (b : Begin) (rejected : Option Rejected) (replyTo : Addressing)
    (udt : UnitData) (assoc : String) (script : List Call) (now : ℕ) :
    Changes e (e.onBegin c b rejected replyTo udt assoc script now).2 none now := by
  intro tid r
  generalize hout : e.onBegin c b rejected replyTo udt assoc script now = out
  unfold Engine.onBegin at hout
  split_ifs at hout
  · rw [← hout]
    exact fun hr => .same hr nofun
  cases hoffered : offeredContext c b with
  | error information =>
    rw [hoffered] at hout
    rw [← hout]
    exact fun hr => .same hr nofun
  | ok ac =>
    rw [hoffered] at hout
    dsimp only at hout
    generalize hd : Dialogue.new e.allocTid.2.allocated .responder e.allocTid.1 b.otid
      (ac.getD []) 0 replyTo e.allocTid.2.config = d at hout
    have hserial : d.serial = e.allocated + 1 := by
      rw [← hd]
      rfl
    have hkept := d.receive_kept false (b.components.getD []) rejected
    generalize d.receive false (b.components.getD []) rejected = received at hkept hout
    split at hout
    · split_ifs at hout <;> (rw [← hout]; exact fun hr => .same hr nofun)
    · split at hout
      · split at hout
        · rw [← hout]
          exact fun hr => .same hr nofun
        · rename_i invokeId _ _ _ _ handler _
          have hcalled := ({ received.2 with replyInvokeId := invokeId } : Dialogue).calls_kept
            (c := c) script
          rw [← hout]
          intro hr
          rcases finishTurn_record hr with hsame | ⟨htid, hrenewed⟩
          · exact .same hsame nofun
          · refine .begun d ?_ hserial (finishTurn_allocated _ _ _ _ _ _ _) ?_
            · rw [htid]
              exact (hcalled.ourTid.trans hkept.ourTid).symm
            · exact hrenewed.of_same (hcalled.ourTid.trans hkept.ourTid)
                (hcalled.serial.trans hkept.serial)
      · rw [← hout]
        exact fun hr => .same hr nofun

theorem onMessage_changes (hfiled : ∀ tid r, e.dialogues.lookup tid = some r →
      r.dialogue.ourTid = tid) (message : TcapMessage) (rejected : Option Rejected)
    (replyTo : Addressing) (udt : UnitData) (assoc : String) (script : List Call) (now : ℕ) :
    Changes e (e.onMessage c message rejected replyTo udt assoc script now).2 message.continued
      now := by
  cases message with
  | begins b => exact onBegin_changes b rejected replyTo udt assoc script now
  | continues m => exact onTurn_changes hfiled _ _ _ _ false _ _ _
  | ends m => exact onTurn_changes hfiled _ _ _ _ true _ _ _
  | aborts a =>
    intro tid r hr
    unfold Engine.onMessage Engine.onAbort at hr
    dsimp only at hr
    rcases take_cases e a.dtid with heq | ⟨r₀, -, heq⟩
    · rw [heq] at hr
      exact .same hr nofun
    · rw [heq] at hr
      exact .same (take_record hr).2 nofun
  | unidirectional => exact fun tid r hr => .same hr nofun

theorem onProblem_changes (hfiled : ∀ tid r, e.dialogues.lookup tid = some r →
      r.dialogue.ourTid = tid) (problem : DecodeProblem) (replyTo : Addressing) (udt : UnitData)
    (assoc : String) (script : List Call) (now : ℕ) :
    Changes e (e.onProblem c problem replyTo udt assoc script now).2
      problem.continued now := by
  obtain ⟨_, _, message, hfault, hunderstood, heq⟩ | ⟨hnot, hreleased⟩ :=
    e.onProblem_cases c problem replyTo udt assoc script now
  · have hnamed : problem.continued = message.continued := by
      rw [DecodeProblem.continued, hfault, hunderstood, Option.bind_some]
    rw [heq, hnamed]
    exact onMessage_changes hfiled message _ replyTo udt assoc script now
  · have hnamed : problem.continued = none := by
      unfold DecodeProblem.continued
      split
      next invokeId general hfault =>
        cases hunderstood : problem.understood with
        | none => rfl
        | some message => exact absurd hunderstood (hnot invokeId general message hfault)
      next => rfl
    rw [hnamed]
    intro tid r hr
    rcases hreleased with heq | ⟨tid', r', reason, -, heq⟩
    · rw [heq] at hr
      exact .same hr nofun
    · rw [heq] at hr
      exact .same (take_record hr).2 nofun

theorem deliver_changes (hfiled : ∀ tid r, e.dialogues.lookup tid = some r →
      r.dialogue.ourTid = tid) (inbound : Msu) (assoc : String) (script : List Call) (now : ℕ) :
    Changes e (e.deliver c inbound assoc script now).2 (continued c inbound) now := by
  unfold Engine.deliver continued
  split_ifs
  · exact fun tid r hr => .same hr nofun
  cases c.decodeSccp inbound.payload with
  | none => exact fun tid r hr => .same hr nofun
  | some message =>
    dsimp only [Option.bind_some]
    cases Engine.terminated message with
    | some unitdata =>
      dsimp only [Option.bind_some]
      cases c.decodeDetailed unitdata.1.data with
      | complete message => exact onMessage_changes hfiled message _ _ _ _ _ _
      | problem problem => exact onProblem_changes hfiled problem _ _ _ _ _
    | none =>
      dsimp only [Option.bind_none]
      split
      · split_ifs <;> exact fun tid r hr => .same hr nofun
      · exact fun tid r hr => .same hr nofun

theorem begin_changes (req : OutgoingBegin) (handler : Handler) (script : List Call)
    (now : ℕ) : Changes e (e.begin c req handler script now).2 none now := by
  intro tid r
  generalize hout : e.begin c req handler script now = out
  unfold Engine.begin at hout
  dsimp only at hout
  generalize hnew : Dialogue.new e.allocTid.2.allocated .initiator e.allocTid.1 []
    req.applicationContext 0 _ e.allocTid.2.config = d at hout
  have hserial : d.serial = e.allocated + 1 := by
    rw [← hnew]
    rfl
  have hcalled := d.calls_kept (c := c) script
  split at hout
  · rw [← hout]
    exact fun hr => .same hr nofun
  · split_ifs at hout
    · rw [← hout]
      exact fun hr => .same hr nofun
    · rw [← hout]
      intro hr
      rcases store_record hr with hsame | ⟨htid, rfl⟩
      · exact .same hsame nofun
      · exact .begun d (hcalled.ourTid.symm.trans htid.symm) hserial rfl
          ⟨hcalled.ourTid, hcalled.serial, rfl, rfl, rfl⟩

/-! ## Timers -/

/-- The dialogue when its handler has been told of all invokes that expired. -/
def Dialogue.afterTimers (c : Codec) (d : Dialogue) (now : ℕ) (scripts : List (List Call)) :
    Dialogue :=
  (d.act c (.drain now)).afterTold c (d.outstanding.filter fun o => o.expired now) scripts

theorem Dialogue.told_kept (d : Dialogue) (invokes : List Outstanding)
    (scripts : List (List Call)) : d.Kept (d.afterTold c invokes scripts) := by
  induction invokes generalizing d scripts with
  | nil => exact Dialogue.Kept.refl d
  | cons invoke rest ih =>
    unfold Dialogue.afterTold
    split_ifs
    · exact Dialogue.Kept.refl d
    · exact ih d scripts
    · refine Dialogue.Kept.trans ?_ (ih _ _)
      refine (d.calls_kept (c := c) (scripts.headD [])).trans ?_
      simp only [Dialogue.act]
      split_ifs <;> exact ⟨rfl, rfl, rfl, rfl, rfl, rfl⟩

theorem Dialogue.afterTimers_kept (d : Dialogue) (now : ℕ) (scripts : List (List Call)) :
    d.Kept (d.afterTimers c now scripts) := by
  refine Dialogue.Kept.trans ?_ (Dialogue.told_kept _ _ _)
  exact ⟨rfl, rfl, rfl, rfl, rfl, rfl⟩

/-- What becomes of it then: it is aborted if it was idle when its timers began to run. -/
def Record.timed (c : Codec) (r : Record) (now : ℕ) (scripts : List (List Call)) : Dialogue :=
  let d := r.dialogue.afterTimers c now scripts
  if d.closed.isNone && idleExpired r now then (d.abortAs c .idleTimeout).2 else d

theorem Record.timed_kept (r : Record) (now : ℕ) (scripts : List (List Call)) :
    r.dialogue.Kept (r.timed c now scripts) := by
  have hkept := r.dialogue.afterTimers_kept (c := c) now scripts
  unfold Record.timed
  dsimp only
  split_ifs
  · exact hkept.trans (Dialogue.abortAs_kept _ _)
  · exact hkept

/-- The timers of a dialogue that are due are a turn of it. -/
theorem Engine.expire_due {tid : Tid} {r : Record} {now : ℕ} (hr : e.dialogues.lookup tid = some r)
    (hdue : timersDue r now = true) (scripts : List (List Call)) (clock : ℕ) :
    ∃ events, e.expire c tid now scripts clock =
      (((((e.take tid).2.note r.handler r.dialogue events).finishTurn c (r.timed c now scripts)
        r.handler r.ingressAssoc .timer r.lastActivity clock).1.map fun m => (r.ingressAssoc, m)),
      (((e.take tid).2.note r.handler r.dialogue events).finishTurn c (r.timed c now scripts)
        r.handler r.ingressAssoc .timer r.lastActivity clock).2) ∧
      ∀ event ∈ events, event.isClosing = false := by
  have hdialogue := Engine.cancel_dialogue c (e.take tid).2 r.handler now
    (r.dialogue.act c (.drain now)) (r.dialogue.outstanding.filter fun o => o.expired now) scripts
  obtain ⟨events, hlog, hopen⟩ : ∃ events, ((e.take tid).2.cancel c r.handler now
      (r.dialogue.act c (.drain now)) (r.dialogue.outstanding.filter fun o => o.expired now)
      scripts).2 = (e.take tid).2.note r.handler (r.dialogue.act c (.drain now)) events ∧
      ∀ event ∈ events, event.isClosing = false := by
    refine ⟨_, Engine.cancel_log _ _ _ _ _ _ _, fun event hevent => ?_⟩
    obtain ⟨p, -, hp⟩ := List.mem_flatMap.mp hevent
    rcases List.mem_cons.mp hp with rfl | hp
    · rfl
    · have hcall := Dialogue.calls_events _ _ event hp
      cases event <;> simp_all [Event.ofCall, Event.isClosing]
  refine ⟨events, ?_, hopen⟩
  unfold Engine.expire
  rw [hr]
  dsimp only
  rw [if_neg (by simp [hdue])]
  simp only [List.partition_eq_filter_filter]
  simp only [Dialogue.act, List.partition_eq_filter_filter] at hdialogue hlog
  rw [hdialogue, hlog]
  simp only [Record.timed, Dialogue.afterTimers, Dialogue.act, List.partition_eq_filter_filter]
  rfl

theorem Engine.expire_idle {tid : Tid} {r : Record} {now : ℕ}
    (hr : e.dialogues.lookup tid = some r) (hdue : timersDue r now = false)
    (scripts : List (List Call)) (clock : ℕ) :
    e.expire c tid now scripts clock = ([], e.releaseClaim tid) := by
  unfold Engine.expire
  rw [hr]
  simp [hdue]

theorem releaseClaim_record {tid tid' : Tid} {r : Record}
    (hr : (e.releaseClaim tid).dialogues.lookup tid' = some r) :
    (tid' ≠ tid ∧ e.dialogues.lookup tid' = some r) ∨ tid' = tid ∧ ∃ r₀,
      e.dialogues.lookup tid = some r₀ ∧ r = { r₀ with claimed := false } := by
  rw [Engine.releaseClaim, Store.lookup_modify, Option.map_eq_some_iff] at hr
  obtain ⟨r₀, hr₀, rfl⟩ := hr
  by_cases heq : tid' = tid
  · subst heq
    exact .inr ⟨rfl, r₀, hr₀, by simp⟩
  · refine .inl ⟨heq, ?_⟩
    rw [if_neg heq]
    exact hr₀

/-- After the timers of a dialogue ran the others are as they were. It is stored anew if they were
due, and keeps the time of its last message if nothing was sent. -/
theorem expire_record (hfiled : ∀ tid r, e.dialogues.lookup tid = some r →
      r.dialogue.ourTid = tid) {tid tid' : Tid} {now clock : ℕ} {scripts : List (List Call)}
    {r : Record} (hr : (e.expire c tid now scripts clock).2.dialogues.lookup tid' = some r) :
    (tid' ≠ tid ∧ e.dialogues.lookup tid' = some r) ∨ tid' = tid ∧ ∃ r₀,
      e.dialogues.lookup tid = some r₀ ∧
      ((timersDue r₀ now = false ∧ r = { r₀ with claimed := false } ∧
          (e.expire c tid now scripts clock).1 = []) ∨
        timersDue r₀ now = true ∧ Renewed r₀.dialogue
          (if (e.expire c tid now scripts clock).1.isEmpty then r₀.lastActivity else clock) r) := by
  cases hlookup : e.dialogues.lookup tid with
  | none =>
    have hnothing : e.expire c tid now scripts clock = ([], e) := by
      unfold Engine.expire
      rw [hlookup]
    rw [hnothing] at hr
    refine .inl ⟨?_, hr⟩
    rintro rfl
    cases hlookup.symm.trans hr
  | some r₀ =>
    cases hdue : timersDue r₀ now with
    | false =>
      have hidle := Engine.expire_idle (c := c) hlookup hdue scripts clock
      rw [hidle] at hr
      rcases releaseClaim_record hr with hother | ⟨htid, r₁, hr₁, heq⟩
      · exact .inl hother
      · obtain rfl := Option.some.inj (hlookup.symm.trans hr₁)
        exact .inr ⟨htid, r₀, rfl, .inl ⟨hdue, heq, by rw [hidle]⟩⟩
    | true =>
      obtain ⟨events, heq, -⟩ := Engine.expire_due (c := c) hlookup hdue scripts clock
      have hkept := r₀.timed_kept (c := c) now scripts
      rw [heq] at hr ⊢
      rcases finishTurn_record hr with hsame | ⟨htid, hrenewed⟩
      · exact .inl (take_record hsame)
      · right
        refine ⟨htid.trans (hkept.ourTid.trans (hfiled _ _ hlookup)), r₀, rfl, .inr ⟨hdue, ?_⟩⟩
        have hsame := hrenewed.of_same hkept.ourTid hkept.serial
        simpa using hsame

theorem claimExpired_record {now : ℕ} {tid : Tid} {r : Record}
    (hr : (e.claimExpired now).2.dialogues.lookup tid = some r) : ∃ r₀,
      e.dialogues.lookup tid = some r₀ ∧
        r = { r₀ with claimed := r₀.claimed || timersDue r₀ now } := by
  rw [Engine.claimExpired, Store.lookup_mapValues, Option.map_eq_some_iff] at hr
  obtain ⟨r₀, hr₀, rfl⟩ := hr
  refine ⟨r₀, hr₀, ?_⟩
  cases hclaimed : r₀.claimed <;> cases hdue : timersDue r₀ now <;> simp_all <;>
    rw [← hclaimed]

/-- The ids that a claim returns. -/
theorem mem_claimExpired {now : ℕ} {tid : Tid} : tid ∈ (e.claimExpired now).1 ↔ ∃ r,
    e.dialogues.lookup tid = some r ∧ r.claimed = false ∧ timersDue r now = true := by
  unfold Engine.claimExpired
  simp only [List.mem_map, List.mem_filter, Bool.and_eq_true, Bool.not_eq_true']
  constructor
  · rintro ⟨⟨tid', r⟩, ⟨hmem, hclaimed, hdue⟩, rfl⟩
    exact ⟨r, AList.mem_lookup_iff.mpr hmem, hclaimed, hdue⟩
  · rintro ⟨r, hr, hclaimed, hdue⟩
    exact ⟨⟨tid, r⟩, ⟨AList.mem_lookup_iff.mp hr, hclaimed, hdue⟩, rfl⟩

/-! ## Runs -/

/-- A sweep is a claim, and then the timers of the dialogues claimed one after the other. -/
theorem sweep_run (now : ℕ) (order : List Tid → List Tid) (scripts : Tid → List (List Call))
    (clock : Tid → ℕ) : e.step c (.sweep now order scripts clock) =
      Machine.run (Engine.step c) (e.step c (.claimExpired now))
        ((order (e.claimExpired now).1).map fun tid =>
          .expire tid now (scripts tid) (clock tid)) := by
  have hall : ∀ (tids : List Tid) (e : Engine), (Engine.expireAll c now scripts clock e tids).2 =
      Machine.run (Engine.step c) e
        (tids.map fun tid => .expire tid now (scripts tid) (clock tid)) := by
    intro tids
    induction tids with
    | nil => exact fun e => rfl
    | cons tid rest ih => exact fun e => ih _
  exact hall _ _

def Engine.Op.isSweep : Engine.Op → Bool
  | .sweep .. => true
  | _ => false

/-- All records are as `Filed` has it. -/
def Ordered (e : Engine) : Prop :=
  ∀ tid r, e.dialogues.lookup tid = some r → Filed tid e.allocated r

theorem Ordered.filed (h : Ordered e) (tid : Tid) (r : Record)
    (hr : e.dialogues.lookup tid = some r) : r.dialogue.ourTid = tid := (h tid r hr).ourTid

theorem step_allocated (op : Engine.Op) : e.allocated ≤ (e.step c op).allocated := by
  have hsteps : Steps (fun _ _ => True) [] e [] (e.step c op) := step_steps trivial op
  exact hsteps.invariant (I := fun _ e' => e.allocated ≤ e'.allocated)
    (fun hm h => h.trans hm.allocated) le_rfl

theorem Ordered.of_changes (h : Ordered e) {e' : Engine} {named : Option Tid} {now : ℕ}
    (hle : e.allocated ≤ e'.allocated) (hchanges : Changes e e' named now) : Ordered e' := by
  intro tid r hr
  cases hchanges tid r hr with
  | same hsame hnamed =>
    obtain ⟨hid, hserial, hout⟩ := h tid r hsame
    exact ⟨hid, hserial.trans hle, hout⟩
  | begun d htid hserial hallocated hrenewed =>
    refine ⟨hrenewed.ourTid.trans htid, ?_, hrenewed.out⟩
    rw [hrenewed.serial, hserial, hallocated]
  | turned r₀ hnamed hr₀ hrenewed =>
    obtain ⟨hid, hserial, hout⟩ := h tid r₀ hr₀
    refine ⟨hrenewed.ourTid.trans hid, ?_, hrenewed.out⟩
    rw [hrenewed.serial]
    exact hserial.trans hle

theorem Ordered.step (h : Ordered e) {op : Engine.Op} (hop : op.isSweep = false) :
    Ordered (e.step c op) := by
  have hle := step_allocated (c := c) (e := e) op
  cases op with
  | deliver inbound assoc script now =>
    exact h.of_changes hle (deliver_changes h.filed inbound assoc script now)
  | begin req handler script now => exact h.of_changes hle (begin_changes req handler script now)
  | sweep now order scripts clock => cases hop
  | claimExpired now =>
    intro tid r hr
    obtain ⟨r₀, hr₀, rfl⟩ := claimExpired_record hr
    obtain ⟨hid, hserial, hout⟩ := h tid r₀ hr₀
    exact ⟨hid, hserial, hout⟩
  | expire tid now scripts clock =>
    intro tid' r hr
    rcases expire_record h.filed hr with ⟨-, hsame⟩ | ⟨rfl, r₀, hr₀, ⟨-, rfl, -⟩ | ⟨-, hrenewed⟩⟩
    · obtain ⟨hid, hserial, hout⟩ := h tid' r hsame
      exact ⟨hid, hserial.trans hle, hout⟩
    · obtain ⟨hid, hserial, hout⟩ := h tid' r₀ hr₀
      exact ⟨hid, hserial.trans hle, hout⟩
    · obtain ⟨hid, hserial, hout⟩ := h tid' r₀ hr₀
      refine ⟨hrenewed.ourTid.trans hid, ?_, hrenewed.out⟩
      rw [hrenewed.serial]
      exact hserial.trans hle
  | releaseClaim tid =>
    intro tid' r hr
    rcases releaseClaim_record hr with ⟨-, hsame⟩ | ⟨rfl, r₀, hr₀, rfl⟩
    · exact h tid' r hsame
    · obtain ⟨hid, hserial, hout⟩ := h tid' r₀ hr₀
      exact ⟨hid, hserial, hout⟩

theorem ordered_new (config : Config) (handlers fallbackHandlers : ℕ × ℤ → Option Handler) :
    Ordered (Engine.new config handlers fallbackHandlers) := by
  intro tid r hr
  simp [Engine.new] at hr

end SiphonSigtran.Tcap
