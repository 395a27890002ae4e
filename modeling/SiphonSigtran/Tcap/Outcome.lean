import SiphonSigtran.Tcap.Lane
import SiphonSigtran.Tcap.Sight

/-!
# Each invoke has one outcome

What the handler of a dialogue sees of its invokes in a run of the engine. Expired invokes
are no longer in progress before the handler is told of them, so a callback for one of them
can be given the id of another and pass a new invoke on under it: the new one then times
out at once. As long as nobody is told of a timeout while another invoke of that id is in
progress, each invoke has at most one outcome and a fitting one.
-/

namespace SiphonSigtran.Tcap

open Lib

/-- The components that a message brings to a dialogue. -/
def TcapMessage.components : TcapMessage → List Component
  | .continues message => message.components.getD []
  | .ends message => message.components.getD []
  | _ => []

namespace Engine

/-- The components of what an operation delivers, as far as they were understood. -/
def Op.components (c : Codec) : Op → List Component
  | .deliver inbound _ _ _ =>
    match (c.decodeSccp inbound.payload).bind terminated with
    | some (udt, _) =>
      match c.decodeDetailed udt.data with
      | .complete message => message.components
      | .problem problem => (problem.understood.map TcapMessage.components).getD []
    | none => []
  | _ => []

/-- What happened with the invokes of a dialogue. -/
def sightsOf (components : List Component) (log : List Entry) (serial : ℕ) : List Sight :=
  (history log serial).flatMap fun x => x.event.sights components

/-- What the handler of a dialogue sees of its invokes in a run. -/
def trace (c : Codec) (serial : ℕ) : Engine → List Op → List Sight
  | _, [] => []
  | e, op :: ops =>
    sightsOf (op.components c) ((e.step c op).log.drop e.log.length) serial ++
      trace c serial (e.step c op) ops

end Engine

/-- The handler is told of no timeout while another invoke of that id is in progress. -/
def Dialogue.clear (c : Codec) (d : Dialogue) : List Outstanding → List (List Call) → Bool
  | [], _ => true
  | invoke :: rest, scripts =>
    if d.closed.isSome then true
    else if invoke.opClass = .four then clear c d rest scripts
    else
      let after := (d.calls c (scripts.headD [])).1
      let after :=
        if after.closed = some .aborted then
          { after with closed := some (.invokeTimeout invoke.id invoke.op) }
        else after
      d.outstanding.all (fun o => o.id ≠ invoke.id) && clear c after rest scripts.tail

namespace Engine

/-- So it is when the timers of a dialogue are run. -/
def clearAt (c : Codec) (e : Engine) (tid : Tid) (now : ℕ) (scripts : List (List Call)) : Bool :=
  match e.dialogues.lookup tid with
  | none => true
  | some r =>
    if !timersDue r now then true
    else
      let (expired, running) := r.dialogue.outstanding.partition fun o => o.expired now
      ({ r.dialogue with outstanding := running } : Dialogue).clear c expired scripts

def clearAll (c : Codec) (now : ℕ) (scripts : Tid → List (List Call)) (clock : Tid → ℕ)
    (e : Engine) : List Tid → Bool
  | [] => true
  | tid :: rest =>
    e.clearAt c tid now (scripts tid) &&
      clearAll c now scripts clock (e.expire c tid now (scripts tid) (clock tid)).2 rest

/-- So it is in an operation. -/
def clear (c : Codec) (e : Engine) : Op → Bool
  | .expire tid now scripts _ => e.clearAt c tid now scripts
  | .sweep now order scripts clock =>
    let (tids, e) := e.claimExpired now
    e.clearAll c now scripts clock (order tids)
  | _ => true

end Engine

/-! ## The engine as the handlers see it -/

section

variable (base : ℕ → List Sight) (components : List Component) (n : ℕ)

/-- What was seen of a dialogue before an operation, and so far in it. -/
def view (e : Engine) (serial : ℕ) : List Sight :=
  base serial ++ Engine.sightsOf components (e.log.drop n) serial

/-- Every dialogue in the store is as its handler has seen. -/
structure Watched (e : Engine) : Prop where
  logged : n ≤ e.log.length
  lawful : ∀ s, Lawful (view base components n e s)
  later : ∀ s, e.allocated < s → view base components n e s = []
  stored : ∀ tid r, e.dialogues.lookup tid = some r → r.dialogue.closed = none ∧
    r.dialogue.serial ≤ e.allocated ∧
    Followed (view base components n e r.dialogue.serial) r.dialogue []
  apart : ∀ tid tid' r r', e.dialogues.lookup tid = some r →
    e.dialogues.lookup tid' = some r' → r.dialogue.serial = r'.dialogue.serial → tid = tid'

/-- So is a dialogue that is out of it, with the invokes that its handler is still to be told
of. -/
structure Taken (e : Engine) (d : Dialogue) (due : List Outstanding) : Prop where
  watched : Watched base components n e
  serial : d.serial ≤ e.allocated
  alone : ∀ tid r, e.dialogues.lookup tid = some r → r.dialogue.serial ≠ d.serial
  followed : Followed (view base components n e d.serial) d due

end

variable {base : ℕ → List Sight} {components : List Component} {n : ℕ} {c : Codec} {e : Engine}
  {d d' : Dialogue} {due due' : List Outstanding}

theorem view_note (hn : n ≤ e.log.length) (h : Handler) (d : Dialogue) (events : List Event)
    (s : ℕ) : view base components n (e.note h d events) s =
      view base components n e s ++
        if d.serial = s then events.flatMap (Event.sights components) else [] := by
  have hlog : (e.note h d events).log.drop n =
      e.log.drop n ++ events.map fun event => ⟨d.serial, h, event⟩ :=
    List.drop_append_of_le_length hn
  unfold view Engine.sightsOf
  rw [hlog, history_append, List.flatMap_append, ← List.append_assoc]
  congr 1
  split_ifs with hs
  · subst hs
    rw [history_map_self, List.flatMap_map]
  · rw [history_map_ne h hs]
    rfl

theorem view_quiet (hn : n ≤ e.log.length) (h : Handler) (d : Dialogue) {event : Event}
    (hevent : event.sights components = []) (s : ℕ) :
    view base components n (e.note h d [event]) s = view base components n e s := by
  rw [view_note hn]
  simp [hevent]

namespace Taken

/-- What happens with a dialogue that is out of the store is seen by its handler only. -/
theorem note (h : Taken base components n e d due) (handler : Handler) {events : List Event}
    (hs : d'.serial = d.serial)
    (hf : Followed (view base components n e d.serial ++
      events.flatMap (Event.sights components)) d' due') :
    Taken base components n (e.note handler d events) d' due' := by
  have hview : ∀ s, view base components n (e.note handler d events) s =
      view base components n e s ++
        if d.serial = s then events.flatMap (Event.sights components) else [] :=
    view_note h.watched.logged handler d events
  have hother : ∀ s, d.serial ≠ s →
      view base components n (e.note handler d events) s = view base components n e s := by
    intro s hne
    rw [hview, if_neg hne, List.append_nil]
  have hself : Followed (view base components n (e.note handler d events) d.serial) d' due' := by
    rw [hview, if_pos rfl]
    exact hf
  refine ⟨⟨?_, ?_, ?_, ?_, ?_⟩, ?_, ?_, ?_⟩
  · have hlen := h.watched.logged
    simp only [Engine.note, List.length_append]
    omega
  · intro s
    by_cases hd : d.serial = s
    · rw [← hd]
      exact hself.1
    · rw [hother s hd]
      exact h.watched.lawful s
  · intro s hlt
    have hle := h.serial
    have hd : d.serial ≠ s := by
      rintro rfl
      exact absurd hlt (Nat.not_lt.mpr hle)
    rw [hother s hd]
    exact h.watched.later s hlt
  · intro tid r hr
    obtain ⟨hclosed, hle, hfollowed⟩ := h.watched.stored tid r hr
    refine ⟨hclosed, hle, ?_⟩
    rw [hother _ (h.alone tid r hr).symm]
    exact hfollowed
  · exact h.watched.apart
  · rw [hs]
    exact h.serial
  · intro tid r hr
    rw [hs]
    exact h.alone tid r hr
  · rw [hs]
    exact hself

theorem change (h : Taken base components n e d due) (hs : d'.serial = d.serial)
    (hf : Followed (view base components n e d.serial) d' due') :
    Taken base components n e d' due' := by
  refine ⟨h.watched, hs ▸ h.serial, ?_, hs ▸ hf⟩
  intro tid r hr
  rw [hs]
  exact h.alone tid r hr

theorem callback (h : Taken base components n e d due) (handler : Handler) {event : Event}
    (script : List Call)
    (hf : Followed (view base components n e d.serial ++ event.sights components) d' due')
    (hs : d'.serial = d.serial) :
    Taken base components n (e.callback c handler d' event script).2
      (e.callback c handler d' event script).1 due' := by
  have hcalls := hf.calls (c := c) script components
  rw [List.append_assoc, ← List.flatMap_cons] at hcalls
  have hnoted := h.note handler ((d'.calls_kept script).serial.trans hs) hcalls
  unfold Engine.callback
  dsimp only
  rw [Engine.note_congr hs]
  exact hnoted

end Taken

namespace Watched

theorem take (h : Watched base components n e) {tid : Tid} {r : Record}
    (hr : e.dialogues.lookup tid = some r) :
    Taken base components n (e.take tid).2 r.dialogue [] := by
  have htake : (e.take tid).2 = { e with dialogues := e.dialogues.erase tid }.note r.handler
      r.dialogue [.taken tid] := by
    rw [Engine.take, hr]
  have hview : ∀ s, view base components n (e.take tid).2 s = view base components n e s := by
    intro s
    rw [htake]
    exact view_quiet (e := { e with dialogues := e.dialogues.erase tid }) h.logged r.handler
      r.dialogue rfl s
  have hlookup : ∀ tid' r', (e.take tid).2.dialogues.lookup tid' = some r' →
      tid' ≠ tid ∧ e.dialogues.lookup tid' = some r' := by
    intro tid' r' hr'
    rw [htake] at hr'
    by_cases heq : tid' = tid
    · subst heq
      simp [Engine.note] at hr'
    · exact ⟨heq, by simpa [Engine.note, AList.lookup_erase_ne heq] using hr'⟩
  have hallocated := take_allocated e tid
  obtain ⟨-, hle, hfollowed⟩ := h.stored tid r hr
  refine ⟨⟨?_, ?_, ?_, ?_, ?_⟩, ?_, ?_, ?_⟩
  · have hlen := h.logged
    rw [htake]
    simp only [Engine.note, List.length_append]
    omega
  · intro s
    rw [hview]
    exact h.lawful s
  · intro s hlt
    rw [hview]
    exact h.later s (hallocated ▸ hlt)
  · intro tid' r' hr'
    obtain ⟨-, hold⟩ := hlookup tid' r' hr'
    rw [hview, hallocated]
    exact h.stored tid' r' hold
  · intro tid₁ tid₂ r₁ r₂ h₁ h₂ hs
    exact h.apart tid₁ tid₂ r₁ r₂ (hlookup tid₁ r₁ h₁).2 (hlookup tid₂ r₂ h₂).2 hs
  · rw [hallocated]
    exact hle
  · intro tid' r' hr' hs
    obtain ⟨hne, hold⟩ := hlookup tid' r' hr'
    exact hne (h.apart tid' tid r' r hold hr hs)
  · rw [hview]
    exact hfollowed

/-- A new dialogue has no invokes, and nothing was seen of it. -/
theorem alloc (h : Watched base components n e) (hs : d.serial = e.allocated + 1)
    (ho : d.outstanding = []) (hstaged : d.staged = []) :
    Taken base components n e.allocTid.2 d [] := by
  refine ⟨⟨h.logged, h.lawful, ?_, ?_, h.apart⟩, hs.le, ?_, ?_⟩
  · intro s hlt
    exact h.later s (Nat.lt_of_succ_lt hlt)
  · intro tid r hr
    obtain ⟨hclosed, hle, hfollowed⟩ := h.stored tid r hr
    exact ⟨hclosed, Nat.le_succ_of_le hle, hfollowed⟩
  · intro tid r hr heq
    have hle := (h.stored tid r hr).2.1
    omega
  · have hnone : view base components n e d.serial = [] := h.later _ (by omega)
    have hids : d.ids = [] := by
      rw [Dialogue.ids, ho, hstaged]
      rfl
    change Followed (view base components n e d.serial) d []
    rw [hnone]
    refine ⟨Lawful.nil, fun _ => ⟨by rw [hids]; exact List.nodup_nil, List.nodup_nil, ?_⟩⟩
    rintro o span ⟨⟨before, heq⟩, -⟩
    cases before <;> cases heq

/-- The flags of the dialogues whose timers are due do not matter. -/
theorem claim (h : Watched base components n e) {dialogues : Store Tid Record}
    (hl : ∀ tid, (dialogues.lookup tid).map (fun r => (r.handler, r.dialogue)) =
      (e.dialogues.lookup tid).map fun r => (r.handler, r.dialogue)) :
    Watched base components n { e with dialogues := dialogues } := by
  have hold : ∀ tid r, dialogues.lookup tid = some r → ∃ r', e.dialogues.lookup tid = some r' ∧
      r'.dialogue = r.dialogue := by
    intro tid r hr
    have heq := hl tid
    rw [hr, Option.map_some, eq_comm, Option.map_eq_some_iff] at heq
    obtain ⟨r', hr', hsame⟩ := heq
    exact ⟨r', hr', (Prod.mk.inj hsame).2⟩
  refine ⟨h.logged, h.lawful, h.later, ?_, ?_⟩
  · intro tid r hr
    obtain ⟨r', hr', hd⟩ := hold tid r hr
    rw [← hd]
    exact h.stored tid r' hr'
  · intro tid tid' r₁ r₂ h₁ h₂ hs
    obtain ⟨r₃, h₃, hd₃⟩ := hold tid r₁ h₁
    obtain ⟨r₄, h₄, hd₄⟩ := hold tid' r₂ h₂
    rw [← hd₃, ← hd₄] at hs
    exact h.apart tid tid' r₃ r₄ h₃ h₄ hs

end Watched

namespace Taken

theorem close (h : Taken base components n e d due) (handler : Handler) (reason : CloseReason) :
    Watched base components n (e.closed handler d reason) := by
  have hsame : Followed (view base components n e d.serial ++
      [Event.closes (d.closedEvent reason)].flatMap (Event.sights components)) d due := by
    simpa [Event.sights] using h.followed
  exact (h.note handler rfl hsame).watched

theorem store (h : Taken base components n e d []) (hc : d.closed = none) (handler : Handler)
    (assoc : String) (activity : ℕ) :
    Watched base components n (e.store d handler assoc activity) := by
  have hsame : Followed (view base components n e d.serial ++
      [Event.stored d.ourTid].flatMap (Event.sights components)) d [] := by
    simpa [Event.sights] using h.followed
  have hnoted : Taken base components n (e.note handler d [.stored d.ourTid]) d [] :=
    h.note handler rfl hsame
  obtain ⟨hlogged, hlawful, hlater, hstored, hapart⟩ := hnoted.watched
  refine ⟨hlogged, hlawful, hlater, ?_, ?_⟩
  · intro tid r hr
    by_cases heq : tid = d.ourTid
    · subst heq
      change (e.dialogues.insert d.ourTid _).lookup d.ourTid = some r at hr
      rw [AList.lookup_insert] at hr
      obtain rfl := Option.some.inj hr
      exact ⟨hc, hnoted.serial, hnoted.followed⟩
    · change (e.dialogues.insert d.ourTid _).lookup tid = some r at hr
      rw [AList.lookup_insert_ne heq] at hr
      exact hstored tid r hr
  · have hcases : ∀ tid r, (e.store d handler assoc activity).dialogues.lookup tid = some r →
        (tid = d.ourTid ∧ r.dialogue = d) ∨ e.dialogues.lookup tid = some r := by
      intro tid r hr
      change (e.dialogues.insert d.ourTid _).lookup tid = some r at hr
      by_cases heq : tid = d.ourTid
      · subst heq
        rw [AList.lookup_insert] at hr
        obtain rfl := Option.some.inj hr
        exact .inl ⟨rfl, rfl⟩
      · rw [AList.lookup_insert_ne heq] at hr
        exact .inr hr
    intro tid tid' r r' hr hr' hs
    rcases hcases tid r hr with ⟨rfl, hd⟩ | hr <;> rcases hcases tid' r' hr' with ⟨rfl, hd'⟩ | hr'
    · rfl
    · rw [hd] at hs
      exact absurd hs.symm (h.alone tid' r' hr')
    · rw [hd'] at hs
      exact absurd hs (h.alone tid r hr)
    · exact hapart tid tid' r r' hr hr' hs

/-- A turn ends with nothing left to be told, or with the dialogue closed. -/
theorem finishTurn (h : Taken base components n e d due) (hdue : d.closed = none → due = [])
    (handler : Handler) (assoc : String) (turn : Turn) (lastActivity now : ℕ) :
    Watched base components n (e.finishTurn c d handler assoc turn lastActivity now).2 := by
  unfold Engine.finishTurn
  extract_lets d₁ frames d₂ activity
  have hfirst : d₁.serial = d.serial ∧
      Followed (view base components n e d.serial) d₁ due ∧
        (d₁.closed = none → d.closed = none) := by
    simp only [d₁]
    split_ifs
    · exact ⟨(d.abortAs_kept _).serial, h.followed.abortAs _,
        fun hopen => absurd hopen (d.abortAs_closed _)⟩
    · exact ⟨rfl, h.followed, id⟩
  obtain ⟨hserial, hfollowed, hclosed⟩ := hfirst
  have hleft : Taken base components n e d₂ due :=
    h.change hserial (hfollowed.mono id rfl (List.Sublist.refl _))
  cases hreason : d₂.closed with
  | some reason => exact hleft.close handler reason
  | none =>
    obtain rfl := hdue (hclosed hreason)
    exact hleft.store hreason handler assoc activity

end Taken

/-! ## The operations -/

theorem onAbort_watched (h : Watched base components n e) (abort : Abort) :
    Watched base components n (e.onAbort c abort) := by
  unfold Engine.onAbort
  rcases take_cases e abort.dtid with htake | ⟨r, hr, htake⟩
  · rw [htake]
    exact h
  · rw [htake]
    exact (h.take hr).close _ _

theorem onTurn_watched (h : Watched base components n e) (ourTid : Tid) (peerOtid : Option Tid)
    (rejected : Option Rejected) (isEnd : Bool) (replyTo : Addressing) (script : List Call)
    (now : ℕ) : Watched base components n
      (e.onTurn c ourTid peerOtid components rejected isEnd replyTo script now).2 := by
  unfold Engine.onTurn
  rcases take_cases e ourTid with htake | ⟨r, hr, htake⟩
  · rw [htake]
    cases peerOtid <;> exact h
  · rw [htake]
    have hopen := (h.stored ourTid r hr).1
    have htaken := h.take hr
    dsimp only
    generalize hlearned : (if r.dialogue.peerTid.isEmpty then
      { r.dialogue with peerTid := peerOtid.getD r.dialogue.peerTid } else r.dialogue) = d
    have hsame : d.serial = r.dialogue.serial ∧ d.closed = none ∧
        Followed (view base components n (e.take ourTid).2 r.dialogue.serial) d [] := by
      rw [← hlearned]
      split_ifs
      · exact ⟨rfl, hopen, htaken.followed.mono id rfl (List.Sublist.refl _)⟩
      · exact ⟨rfl, hopen, htaken.followed⟩
    obtain ⟨hserial, hclosed, hfollowed⟩ := hsame
    have hread : Followed (view base components n (e.take ourTid).2 r.dialogue.serial ++
        (Event.continues ⟨isEnd, (d.receive isEnd components rejected).1⟩).sights components)
        (d.receive isEnd components rejected).2 [] :=
      hfollowed.receive hclosed isEnd components rejected
    have hkept := (d.receive_kept isEnd components rejected).serial.trans hserial
    generalize d.receive isEnd components rejected = received at hread hkept ⊢
    split_ifs
    · have hended : Followed (view base components n (e.take ourTid).2 r.dialogue.serial ++
          (Event.continues ⟨isEnd, received.1⟩).sights components) { received.2 with
            outstanding := [], rejects := [], closed := some .peerEnded } [] :=
        ⟨hread.1, fun hopen => by cases hopen⟩
      exact (htaken.callback _ script hended hkept).close _ _
    · exact (htaken.callback _ script hread hkept).finishTurn (fun _ => rfl) _ _ _ _ _

theorem onBegin_watched (h : Watched base components n e) (b : Begin) (rejected : Option Rejected)
    (replyTo : Addressing) (udt : UnitData) (assoc : String) (script : List Call) (now : ℕ) :
    Watched base components n (e.onBegin c b rejected replyTo udt assoc script now).2 := by
  unfold Engine.onBegin
  split_ifs
  · exact h
  cases offeredContext c b with
  | error information => exact h
  | ok ac =>
    dsimp only
    generalize hnew : Dialogue.new e.allocTid.2.allocated .responder e.allocTid.1 b.otid
      (ac.getD []) 0 replyTo e.allocTid.2.config = d
    have hserial : d.serial = e.allocated + 1 := by rw [← hnew]; rfl
    have hnone : d.outstanding = [] ∧ d.staged = [] := by rw [← hnew]; exact ⟨rfl, rfl⟩
    have hkept := d.receive_kept false (b.components.getD []) rejected
    -- The peer's first message finds no invokes of ours.
    have ho : (d.receive false (b.components.getD []) rejected).2.outstanding = [] := by
      have hsublist := d.receive_sublist false (b.components.getD []) rejected
      rw [hnone.1] at hsublist
      exact List.sublist_nil.mp hsublist
    have hs : (d.receive false (b.components.getD []) rejected).2.staged = [] := by
      obtain ⟨_, _, heq⟩ := d.receive_only false (b.components.getD []) rejected
      rw [heq]
      exact hnone.2
    generalize d.receive false (b.components.getD []) rejected = received at hkept ho hs ⊢
    have hopened : Taken base components n e.allocTid.2 received.2 [] :=
      h.alloc (hkept.serial.trans hserial) ho hs
    cases received.1.findIdx? PeerComponent.dispatchable with
    | none =>
      dsimp only
      split_ifs <;> exact hopened.watched
    | some first =>
      dsimp only
      split
      · rename_i invokeId op argument _
        cases e.allocTid.2.handlerOf (udt.calledParty.ssn.getD 0) op with
        | none => exact hopened.watched
        | some handler =>
          have hf : Followed (view base components n e.allocTid.2 received.2.serial ++
              (Event.begins ⟨op, invokeId, argument, ac, udt.calledParty.ssn.getD 0,
                udt.callingParty.digits, udt.calledParty.digits,
                received.1.eraseIdx first⟩).sights components)
              { received.2 with replyInvokeId := invokeId } [] := by
            have hsame : Followed (view base components n e.allocTid.2 received.2.serial)
                { received.2 with replyInvokeId := invokeId } [] :=
              hopened.followed.mono id rfl (List.Sublist.refl _)
            simpa [Event.sights] using hsame
          exact (hopened.callback handler script hf rfl).finishTurn (fun _ => rfl) _ _ _ _ _
      · exact hopened.watched

theorem onMessage_watched (h : Watched base components n e) {message : TcapMessage}
    (hcs : components = message.components) (rejected : Option Rejected) (replyTo : Addressing)
    (udt : UnitData) (assoc : String) (script : List Call) (now : ℕ) :
    Watched base components n (e.onMessage c message rejected replyTo udt assoc script now).2 := by
  cases message with
  | begins b => exact onBegin_watched h b rejected replyTo udt assoc script now
  | continues m =>
    subst hcs
    exact onTurn_watched h m.dtid (some m.otid) rejected false replyTo script now
  | ends m =>
    subst hcs
    exact onTurn_watched h m.dtid none rejected true replyTo script now
  | aborts a => exact onAbort_watched h a
  | unidirectional => exact h

theorem onProblem_watched (h : Watched base components n e) {problem : DecodeProblem}
    (hcs : components = (problem.understood.map TcapMessage.components).getD [])
    (replyTo : Addressing) (udt : UnitData) (assoc : String) (script : List Call) (now : ℕ) :
    Watched base components n (e.onProblem c problem replyTo udt assoc script now).2 := by
  obtain ⟨_, _, message, -, hunderstood, heq⟩ | ⟨-, heq | ⟨tid, r, reason, hr, heq⟩⟩ :=
    e.onProblem_cases c problem replyTo udt assoc script now
  · rw [hunderstood] at hcs
    rw [heq]
    exact onMessage_watched h hcs _ replyTo udt assoc script now
  · rw [heq]
    exact h
  · rw [heq]
    exact (h.take hr).close _ _

theorem deliver_watched {inbound : Msu} {assoc : String} {script : List Call} {now : ℕ}
    (h : Watched base ((Engine.Op.deliver inbound assoc script now).components c) n e) :
    Watched base ((Engine.Op.deliver inbound assoc script now).components c) n
      (e.deliver c inbound assoc script now).2 := by
  unfold Engine.deliver
  split_ifs
  · exact h
  cases hsccp : c.decodeSccp inbound.payload with
  | none => exact h
  | some message =>
    dsimp only
    cases hterminated : Engine.terminated message with
    | some p =>
      obtain ⟨udt, form⟩ := p
      dsimp only
      cases hdecoded : c.decodeDetailed udt.data with
      | complete message' =>
        refine onMessage_watched h ?_ _ _ _ _ _ _
        simp [Engine.Op.components, hsccp, hterminated, hdecoded]
      | problem problem =>
        refine onProblem_watched h ?_ _ _ _ _ _
        simp [Engine.Op.components, hsccp, hterminated, hdecoded]
    | none =>
      dsimp only
      split
      · split_ifs <;> exact h
      · exact h

theorem begin_watched (h : Watched base components n e) (req : OutgoingBegin) (handler : Handler)
    (script : List Call) (now : ℕ) :
    Watched base components n (e.begin c req handler script now).2 := by
  unfold Engine.begin
  dsimp only
  generalize hnew : Dialogue.new e.allocTid.2.allocated .initiator e.allocTid.1 []
    req.applicationContext 0 _ e.allocTid.2.config = d
  have hopened : Taken base components n e.allocTid.2 d [] := by
    apply h.alloc <;> rw [← hnew] <;> rfl
  have hf : Followed (view base components n e.allocTid.2 d.serial ++
      Event.starts.sights components) d [] := by
    simpa [Event.sights] using hopened.followed
  have hturn := hopened.callback (c := c) handler script hf rfl
  generalize Engine.callback c e.allocTid.2 handler d .starts script = turn at hturn ⊢
  have hleft : Taken base components n turn.2 { turn.1 with out := [] } [] :=
    hturn.change rfl (hturn.followed.mono id rfl (List.Sublist.refl _))
  split
  · exact hleft.close _ _
  · rename_i hclosed
    split_ifs
    · exact hleft.close _ .notSent
    · exact hleft.store hclosed _ _ _

/-! ## Timers -/

theorem releaseClaim_watched (h : Watched base components n e) (tid : Tid) :
    Watched base components n (e.releaseClaim tid) := by
  refine h.claim fun tid' => ?_
  rw [Store.lookup_modify, Option.map_map]
  congr 1
  funext r
  simp only [Function.comp_apply]
  split_ifs <;> rfl

theorem claimExpired_watched (h : Watched base components n e) (now : ℕ) :
    Watched base components n (e.claimExpired now).2 := by
  refine h.claim fun tid => ?_
  rw [Store.lookup_mapValues, Option.map_map]
  congr 1
  funext r
  simp only [Function.comp_apply]
  split_ifs <;> rfl

/-- The handler is told of the expired invokes, one after the other. In the end none is left, or
the dialogue is closed. -/
theorem cancel_watched (h : Taken base components n e d due) {now : ℕ}
    (hexpired : ∀ o ∈ due, o.expired now = true) (handler : Handler)
    (scripts : List (List Call)) (hclear : d.clear c due scripts = true) :
    ∃ left, ((e.cancel c handler now d due scripts).1.closed = none → left = []) ∧
      Taken base components n (e.cancel c handler now d due scripts).2
        (e.cancel c handler now d due scripts).1 left := by
  induction due generalizing e d scripts with
  | nil => exact ⟨[], fun _ => rfl, h⟩
  | cons invoke rest ih =>
    have hrest : ∀ o ∈ rest, o.expired now = true := fun o ho =>
      hexpired o (List.mem_cons_of_mem _ ho)
    unfold Engine.cancel
    unfold Dialogue.clear at hclear
    split_ifs at hclear ⊢ with hclosed hfour
    · refine ⟨invoke :: rest, fun hopen => ?_, h⟩
      have hnone : d.closed = none := hopen
      simp [hnone] at hclosed
    · exact ih (h.change rfl h.followed.skip) hrest scripts hclear
    · rw [Bool.and_eq_true, List.all_eq_true] at hclear
      obtain ⟨hall, hafter⟩ := hclear
      have hapart : ∀ o ∈ d.outstanding, o.id ≠ invoke.id := fun o ho => by simpa using hall o ho
      have hopen : d.closed = none := by simpa using hclosed
      have htold : Followed (view base components n e d.serial ++
          (Event.timesOut ⟨invoke.id, invoke.op, invoke.opClass⟩ now).sights components) d rest :=
        h.followed.notify hopen hfour (hexpired _ List.mem_cons_self) hapart
      have hturn := h.callback (c := c) handler (scripts.headD []) htold rfl
      dsimp only
      refine ih (hturn.change ?_ ?_) hrest _ hafter
      · split_ifs <;> rfl
      · split_ifs
        · exact ⟨hturn.followed.1, fun hnone => by cases hnone⟩
        · exact hturn.followed

theorem expire_watched (h : Watched base components n e) {tid : Tid} {now : ℕ}
    {scripts : List (List Call)} (hclear : e.clearAt c tid now scripts = true) (clock : ℕ) :
    Watched base components n (e.expire c tid now scripts clock).2 := by
  unfold Engine.expire
  split
  · exact h
  · rename_i r hr
    split_ifs with hdue
    · exact releaseClaim_watched h tid
    · have hclear' := hclear
      rw [Engine.clearAt, hr] at hclear'
      simp only [hdue, Bool.false_eq_true, ↓reduceIte] at hclear'
      dsimp only
      have htaken := h.take hr
      have hdrained : Taken base components n (e.take tid).2 { r.dialogue with
          outstanding := (r.dialogue.outstanding.partition fun o => o.expired now).2 }
          (r.dialogue.outstanding.partition fun o => o.expired now).1 :=
        htaken.change rfl (htaken.followed.drain _)
      have hexpired : ∀ o ∈ (r.dialogue.outstanding.partition fun o => o.expired now).1,
          o.expired now = true := by
        rw [List.partition_eq_filter_filter]
        exact fun o ho => (List.mem_filter.mp ho).2
      obtain ⟨left, hleft, htold⟩ := cancel_watched hdrained hexpired r.handler scripts hclear'
      refine (htold.change ?_ ?_).finishTurn (fun hopen => hleft ?_) _ _ _ _ _
      · split_ifs
        · exact (Dialogue.abortAs_kept _ _).serial
        · rfl
      · split_ifs
        · exact htold.followed.abortAs _
        · exact htold.followed
      · split_ifs at hopen
        · exact absurd hopen (Dialogue.abortAs_closed _ _)
        · exact hopen

theorem expireAll_watched (h : Watched base components n e) {now : ℕ}
    {scripts : Tid → List (List Call)} {clock : Tid → ℕ} {tids : List Tid}
    (hclear : e.clearAll c now scripts clock tids = true) :
    Watched base components n (Engine.expireAll c now scripts clock e tids).2 := by
  induction tids generalizing e with
  | nil => exact h
  | cons tid rest ih =>
    rw [Engine.clearAll, Bool.and_eq_true] at hclear
    exact ih (expire_watched h hclear.1 _) hclear.2

/-- An operation in which nobody is told of a timeout while another invoke of that id is in
progress keeps every dialogue as its handler has seen. -/
theorem step_watched {op : Engine.Op} (h : Watched base (op.components c) n e)
    (hclear : e.clear c op = true) : Watched base (op.components c) n (e.step c op) := by
  cases op with
  | deliver inbound assoc script now => exact deliver_watched h
  | begin req handler script now => exact begin_watched h req handler script now
  | sweep now order scripts clock => exact expireAll_watched (claimExpired_watched h now) hclear
  | claimExpired now => exact claimExpired_watched h now
  | expire tid now scripts clock => exact expire_watched h hclear clock
  | releaseClaim tid => exact releaseClaim_watched h tid


/-! ## Every run -/

/-- What was seen so far is what was seen before the next operation. -/
theorem Watched.rebase (h : Watched base components n e) (cs : List Component) :
    Watched (view base components n e) cs e.log.length e := by
  have hview : ∀ s, view (view base components n e) cs e.log.length e s =
      view base components n e s := by
    intro s
    rw [view, List.drop_length]
    exact List.append_nil _
  refine ⟨le_rfl, ?_, ?_, ?_, h.apart⟩
  · intro s
    rw [hview]
    exact h.lawful s
  · intro s hlt
    rw [hview]
    exact h.later s hlt
  · intro tid r hr
    rw [hview]
    exact h.stored tid r hr

theorem watched_new (config : Config) (handlers fallbackHandlers : ℕ × ℤ → Option Handler) :
    Watched (fun _ => []) [] 0 (Engine.new config handlers fallbackHandlers) := by
  have hnone : ∀ tid, (Engine.new config handlers fallbackHandlers).dialogues.lookup tid =
      none := fun tid => by simp [Engine.new]
  refine ⟨le_rfl, fun s => Lawful.nil, fun s _ => rfl, ?_, ?_⟩
  · intro tid r hr
    rw [hnone] at hr
    cases hr
  · intro tid tid' r r' hr
    rw [hnone] at hr
    cases hr

/-- What is seen in a run is seen before it, and then in its operations. -/
theorem run_watched {ops : List Engine.Op} (h : Watched base components n e)
    (hclear : Machine.Along (Engine.step c) (fun e op => e.clear c op = true) e ops) :
    ∃ base' components' n', Watched base' components' n' (Machine.run (Engine.step c) e ops) ∧
      ∀ serial, view base' components' n' (Machine.run (Engine.step c) e ops) serial =
        view base components n e serial ++ Engine.trace c serial e ops := by
  induction ops generalizing base components n e with
  | nil => exact ⟨base, components, n, h, fun serial => (List.append_nil _).symm⟩
  | cons op ops ih =>
    have hstep := step_watched (h.rebase (op.components c)) hclear.1
    obtain ⟨base', components', n', hlast, hview⟩ := ih hstep hclear.2
    refine ⟨base', components', n', hlast, fun serial => (hview serial).trans ?_⟩
    rw [view]
    simp only [Engine.trace, List.append_assoc]

/-- A closed dialogue is told of nothing. -/
theorem cancel_closed (c : Codec) (e : Engine) (handler : Handler) (now : ℕ) {d : Dialogue}
    (hc : d.closed ≠ none) (due : List Outstanding) (scripts : List (List Call)) :
    e.cancel c handler now d due scripts = (d, e) := by
  cases due with
  | nil => rfl
  | cons invoke rest =>
    unfold Engine.cancel
    rw [if_pos (Option.isSome_iff_ne_none.mpr hc)]

/-- In a run in which no handler is told of a timeout while another invoke of that id is in
progress, every invoke that is flushed has at most one final outcome, and only a fitting one, until
its id is handed out again. A dialogue has its timers run while it is open, and once it is closed
its handler is told of no more timeouts. -/
theorem one_outcome (c : Codec) (config : Config)
    (handlers fallbackHandlers : ℕ × ℤ → Option Handler) (ops : List Engine.Op)
    (h : Machine.Along (Engine.step c) (fun e op => e.clear c op = true)
      (Engine.new config handlers fallbackHandlers) ops) :
    (∀ serial, Lawful
      (Engine.trace c serial (Engine.new config handlers fallbackHandlers) ops)) ∧
    (∀ tid r, (Machine.run (Engine.step c) (Engine.new config handlers fallbackHandlers)
      ops).dialogues.lookup tid = some r → r.dialogue.closed = none) ∧
    ∀ (e : Engine) (handler : Handler) (now : ℕ) (d : Dialogue) (due : List Outstanding)
      (scripts : List (List Call)), d.closed ≠ none →
      e.cancel c handler now d due scripts = (d, e) := by
  obtain ⟨base, components, n, hlast, hview⟩ :=
    run_watched (watched_new config handlers fallbackHandlers) h
  refine ⟨fun serial => ?_, fun tid r hr => (hlast.stored tid r hr).1,
    fun e handler now d due scripts hc => cancel_closed c e handler now hc due scripts⟩
  have hlawful := hlast.lawful serial
  rw [hview serial] at hlawful
  exact hlawful

/-- An Invoke of a small operation without an argument. -/
def encodeInvoke : Component → Option Bytes
  | .invoke ⟨id, none, .localCode op, none⟩ =>
    some [0xA1, 0x06, 0x02, 0x01, .ofNat id.toNat, 0x02, 0x01, .ofNat op.toNat]
  | _ => none

/-- The octets of a Begin with one such Invoke and of a Continue with several, without a
dialogue portion. -/
def invokeCodec : Codec :=
  { shortCodec with
    decodeDetailed := fun data =>
      match data with
      | 0x62 :: 0x10 :: 0x48 :: 0x04 :: a :: b :: c :: d :: 0x6C :: 0x08 :: 0xA1 :: 0x06 ::
          0x02 :: 0x01 :: id :: 0x02 :: 0x01 :: op :: [] =>
        .complete (.begins ⟨[a, b, c, d], none,
          some [.invoke ⟨id.toNat, none, .localCode op.toNat, none⟩]⟩)
      | _ => .problem ⟨.transactionPortion (.other 2), none, none, none, none⟩
    encode := fun message =>
      match message with
      | .continues ⟨otid, dtid, none, some components⟩ =>
        match components.mapM encodeInvoke with
        | some invokes =>
          let octets := invokes.flatten
          .ok ([0x65, .ofNat (14 + octets.length), 0x48, 0x04] ++ otid ++ [0x49, 0x04] ++ dtid ++
            [0x6C, .ofNat octets.length] ++ octets)
        | none => .error "not of such invokes"
      | _ => .error "not a Continue" }

/-- A Begin with an Invoke of operation 45. -/
def invokeMsu : Msu :=
  shortMsu [0x62, 0x10, 0x48, 0x04, 0x00, 0x00, 0x00, 0x05, 0x6C, 0x08, 0xA1, 0x06, 0x02, 0x01,
    0x01, 0x02, 0x01, 45]

def invokes (n : ℕ) : List Call := List.replicate n (.invokeWith 45 none .one none)

def invokeEngine : Engine := Engine.new ⟨15000, 0, 10⟩ (fun _ => some 7) fun _ => none

/-- A handler passes two invokes on, and both time out. -/
def bothTimeOut : List Engine.Op :=
  [.deliver invokeMsu "m2pa" (invokes 2 ++ [.send 0]) 0,
    .sweep (fromMillis 15000) id (fun _ => []) fun _ => fromMillis 15000]

theorem one_outcome_of_timeouts : Lawful (Engine.trace invokeCodec 1 invokeEngine bothTimeOut) :=
  (one_outcome invokeCodec ⟨15000, 0, 10⟩ (fun _ => some 7) (fun _ => none) bothTimeOut
    (by decide +kernel)).1 1

/-- The handler uses the other ids up and discards those invokes, and when told of the timeout of
the first invoke passes two more on. -/
def idsComeRound : List Engine.Op :=
  [.deliver invokeMsu "m2pa" (invokes 2 ++ [.send 0] ++ invokes 126 ++ [.discardStaged]) 0,
    .sweep (fromMillis 15000) id (fun _ => [invokes 2 ++ [.send (fromMillis 15000)]])
      fun _ => fromMillis 15000]

/-- The second of them times out when it has just been passed on. -/
theorem times_out_at_once :
    ¬ ∀ (c : Codec) (config : Config) (handlers fallbackHandlers : ℕ × ℤ → Option Handler)
      (ops : List Engine.Op) (serial : ℕ),
      Lawful (Engine.trace c serial (Engine.new config handlers fallbackHandlers) ops) := by
  intro hall
  have hlawful := hall invokeCodec ⟨15000, 0, 10⟩ (fun _ => some 7) (fun _ => none) idsComeRound 1
  let invoke : Outstanding := ⟨2, 45, .one, fromMillis 15000, some (fromMillis 30000)⟩
  let timeout : Sight := .timesOut ⟨2, 45, .one⟩ (fromMillis 15000)
  have htrace : Engine.trace invokeCodec 1 invokeEngine idsComeRound =
      (Engine.trace invokeCodec 1 invokeEngine idsComeRound).take 134 ++
        .flushed invoke :: [timeout] := by
    decide +kernel
  have hlaw : Law invoke [timeout] := hlawful invoke [timeout] ⟨⟨_, htrace⟩, by decide⟩
  have hfits : timeout.Fits invoke := hlaw.fits timeout List.mem_cons_self
  obtain ⟨-, -, deadline, hdeadline, hle⟩ := hfits rfl
  obtain rfl := Option.some.inj hdeadline
  exact absurd hle (by decide)

end SiphonSigtran.Tcap
