import SiphonSigtran.Tcap.Life

/-!
# Operations are moves

Every operation of the engine begins and ends with no dialogue out of the store, and is a
sequence of moves. An id is allocated at most once, and before anything else changes.
-/

namespace SiphonSigtran.Tcap

open Lib Engine

variable {G : List Held → Engine → Prop} {R R' : List Held} {c : Codec} {e e' : Engine}
  {h : Handler} {d : Dialogue}

theorem Engine.note_nil (e : Engine) (h : Handler) (d : Dialogue) : e.note h d [] = e := by
  simp [note]

theorem Engine.note_congr {d d' : Dialogue} (hs : d'.serial = d.serial) (e : Engine)
    (h : Handler) (events : List Event) : e.note h d' events = e.note h d events := by
  simp [note, hs]

namespace Steps

theorem change (hsteps : Steps G R e ((some h, d) :: R') e') {d' : Dialogue}
    (hs : d'.serial = d.serial) (ht : d'.ourTid = d.ourTid) :
    Steps G R e ((some h, d') :: R') e' := by
  have hturn := hsteps.move (Move.turn h d d' [] hs ht (by simp))
  rwa [note_nil] at hturn

/-- A callback of the handler in its turn. -/
theorem callback (hsteps : Steps G R e ((some h, d) :: R') e') {event : Event}
    (hevent : (∃ turn, event = .continues turn) ∨ ∃ timeout now, event = .timesOut timeout now)
    (script : List Call) :
    Steps G R e ((some h, (e'.callback c h d event script).1) :: R')
      (e'.callback c h d event script).2 := by
  have hkept := d.calls_kept (c := c) script
  refine hsteps.move (Move.turn h d _ _ hkept.serial hkept.ourTid ?_)
  intro x hx
  rcases List.mem_cons.mp hx with rfl | hx
  · exact .inr hevent
  · exact .inl (d.calls_events script x hx)

/-- A turn ends with the dialogue back in the store, or closed. -/
theorem finishTurn (hsteps : Steps G R e ((some h, d) :: R') e') (assoc : String) (turn : Turn)
    (lastActivity now : ℕ) :
    Steps G R e R' (e'.finishTurn c d h assoc turn lastActivity now).2 := by
  unfold Engine.finishTurn
  extract_lets d₁ frames d₂ activity
  have hkept : d.Kept d₁ := by
    simp only [d₁]
    split_ifs
    · exact d.abortAs_kept _
    · exact Dialogue.Kept.refl d
  have hleft : Steps G R e ((some h, d₂) :: R') e' := hsteps.change hkept.serial hkept.ourTid
  cases hclosed : d₂.closed with
  | some reason => exact hleft.move (Move.close h d₂ reason)
  | none => exact hleft.move (Move.store h d₂ assoc activity hclosed)

end Steps

theorem take_steps (hsteps : Steps G R e R' e') {tid : Tid} {r : Record}
    (hr : (e'.take tid).1 = some r) :
    Steps G R e ((some r.handler, r.dialogue) :: R') (e'.take tid).2 := by
  have hlookup : e'.dialogues.lookup tid = some r := by
    unfold take at hr
    split at hr
    · cases hr
    · obtain rfl := Option.some.inj hr
      assumption
  exact hsteps.move (Move.take tid r hlookup)

theorem take_none {tid : Tid} (hr : (e.take tid).1 = none) : (e.take tid).2 = e := by
  unfold take at hr ⊢
  split at hr
  · simp_all
  · cases hr

/-- What is done with a dialogue that is taken, if there is one. -/
theorem take_cases (e : Engine) (tid : Tid) :
    (e.take tid = (none, e)) ∨ ∃ r, e.dialogues.lookup tid = some r ∧
      e.take tid = (some r, (e.take tid).2) := by
  unfold take
  cases hr : e.dialogues.lookup tid with
  | none => exact .inl rfl
  | some r => exact .inr ⟨r, rfl, rfl⟩

/-- A damaged message is handled by what was understood of it, or its dialogue is closed if there
is one. -/
theorem Engine.onProblem_cases (c : Codec) (e : Engine) (problem : DecodeProblem)
    (replyTo : Addressing) (udt : UnitData) (assoc : String) (script : List Call) (now : ℕ) :
    (∃ invokeId general message, problem.fault = .component invokeId general ∧
      problem.understood = some message ∧
        e.onProblem c problem replyTo udt assoc script now =
          e.onMessage c message (some ⟨invokeId, .general general, problem.reject⟩) replyTo udt
            assoc script now) ∨
      (∀ invokeId general message, problem.fault = .component invokeId general →
        problem.understood ≠ some message) ∧
        ((e.onProblem c problem replyTo udt assoc script now).2 = e ∨
          ∃ tid r reason, e.dialogues.lookup tid = some r ∧
            (e.onProblem c problem replyTo udt assoc script now).2 =
              (e.take tid).2.closed r.handler r.dialogue reason) := by
  obtain ⟨fault, understood, dtid, reject, abort⟩ := problem
  have hreleased : (∀ invokeId general, fault ≠ .component invokeId general) →
      (e.onProblem c ⟨fault, understood, dtid, reject, abort⟩ replyTo udt assoc script now).2 = e ∨
        ∃ tid r reason, e.dialogues.lookup tid = some r ∧
          (e.onProblem c ⟨fault, understood, dtid, reject, abort⟩ replyTo udt assoc script now).2 =
            (e.take tid).2.closed r.handler r.dialogue reason := by
    intro hfault
    cases fault with
    | component invokeId general => exact absurd rfl (hfault invokeId general)
    | transactionPortion | dialoguePortion =>
      cases dtid with
      | none => exact .inl rfl
      | some tid =>
        simp only [onProblem]
        rcases take_cases e tid with htake | ⟨r, hr, htake⟩
        · rw [htake]
          exact .inl rfl
        · rw [htake]
          exact .inr ⟨tid, r, _, hr, rfl⟩
  cases fault with
  | component invokeId general =>
    cases understood with
    | none => exact .inr ⟨nofun, .inl rfl⟩
    | some message => exact .inl ⟨invokeId, general, message, rfl, rfl, rfl⟩
  | transactionPortion cause => exact .inr ⟨nofun, hreleased nofun⟩
  | dialoguePortion => exact .inr ⟨nofun, hreleased nofun⟩

/-! ## Inbound messages -/

theorem onAbort_steps (abort : Abort) : Steps G [] e [] (e.onAbort c abort) := by
  unfold onAbort
  rcases take_cases e abort.dtid with h | ⟨r, hr, h⟩
  · rw [h]
    exact Steps.refl [] e
  · rw [h]
    exact ((Steps.refl [] e).move (Move.take _ r hr)).move (Move.close r.handler r.dialogue _)

theorem onTurn_steps (ourTid : Tid) (peerOtid : Option Tid) (components : List Component)
    (rejected : Option Rejected) (isEnd : Bool) (replyTo : Addressing) (script : List Call)
    (now : ℕ) : Steps G [] e []
      (e.onTurn c ourTid peerOtid components rejected isEnd replyTo script now).2 := by
  unfold onTurn
  rcases take_cases e ourTid with h | ⟨r, hr, h⟩
  · rw [h]
    cases peerOtid <;> exact Steps.refl [] e
  · rw [h]
    have htaken := (Steps.refl [] e).move (Move.take (G := G) ourTid r hr)
    dsimp only
    generalize hlearned : (if r.dialogue.peerTid.isEmpty then
      { r.dialogue with peerTid := peerOtid.getD r.dialogue.peerTid } else r.dialogue) = d
    have hsame : d.serial = r.dialogue.serial ∧ d.ourTid = r.dialogue.ourTid := by
      rw [← hlearned]
      split_ifs <;> exact ⟨rfl, rfl⟩
    have hkept := d.receive_kept isEnd components rejected
    have hs := hkept.serial.trans hsame.1
    have ht := hkept.ourTid.trans hsame.2
    generalize d.receive isEnd components rejected = received at hs ht ⊢
    split_ifs
    · have hclosed : Steps G [] e [(some r.handler, { received.2 with
          outstanding := [], rejects := [], closed := some .peerEnded })] (e.take ourTid).2 :=
        htaken.change hs ht
      exact (hclosed.callback (.inl ⟨⟨isEnd, received.1⟩, rfl⟩) script).move (Move.close _ _ _)
    · have hturn := (htaken.change hs ht).callback (c := c) (.inl ⟨⟨isEnd, received.1⟩, rfl⟩) script
      exact hturn.finishTurn _ _ _ _

theorem onBegin_steps (hg : e.openDialogues < e.config.maxDialogues → G [] e) (b : Begin)
    (rejected : Option Rejected)
    (replyTo : Addressing) (udt : UnitData) (assoc : String) (script : List Call) (now : ℕ) :
    Steps G [] e [] (e.onBegin c b rejected replyTo udt assoc script now).2 := by
  unfold onBegin
  split_ifs with hfull
  · exact Steps.refl [] e
  have hroom : G [] e := hg (Nat.not_le.mp hfull)
  cases offeredContext c b with
  | error information => exact Steps.refl [] e
  | ok ac =>
    dsimp only
    have hkept := (Dialogue.new e.allocTid.2.allocated .responder e.allocTid.1 b.otid (ac.getD []) 0
      replyTo e.allocTid.2.config).receive_kept false (b.components.getD []) rejected
    generalize (Dialogue.new e.allocTid.2.allocated .responder e.allocTid.1 b.otid (ac.getD []) 0
      replyTo e.allocTid.2.config).receive false (b.components.getD []) rejected =
        received at hkept ⊢
    have hopened : ∀ d : Dialogue, d.serial = received.2.serial → d.ourTid = received.2.ourTid →
        Steps G [] e [(none, d)] e.allocTid.2 := fun d hs ht =>
      (Steps.refl [] e).move (Move.alloc d hroom (hs.trans hkept.serial) (ht.trans hkept.ourTid))
    have hdropped : Steps G [] e [] e.allocTid.2 :=
      (hopened received.2 rfl rfl).move (Move.discard _)
    cases received.1.findIdx? PeerComponent.dispatchable with
    | none =>
      dsimp only
      split_ifs <;> exact hdropped
    | some first =>
      dsimp only
      split
      · rename_i invokeId op argument _
        cases e.allocTid.2.handlerOf (udt.calledParty.ssn.getD 0) op with
        | none => exact hdropped
        | some handler =>
          refine Steps.finishTurn (Steps.move (hopened { received.2 with replyInvokeId := invokeId }
            rfl rfl) (Move.give handler _ _ _ _ (Dialogue.calls_kept _ script) (.inr ⟨_, rfl⟩) ?_))
            _ _ _ _
          exact Dialogue.calls_events _ script
      · exact hdropped

theorem onMessage_steps (hg : e.openDialogues < e.config.maxDialogues → G [] e)
    (message : TcapMessage) (rejected : Option Rejected) (replyTo : Addressing) (udt : UnitData)
    (assoc : String) (script : List Call) (now : ℕ) :
    Steps G [] e [] (e.onMessage c message rejected replyTo udt assoc script now).2 := by
  cases message with
  | begins b => exact onBegin_steps hg b rejected replyTo udt assoc script now
  | continues m => exact onTurn_steps _ _ _ _ _ _ _ _
  | ends m => exact onTurn_steps _ _ _ _ _ _ _ _
  | aborts a => exact onAbort_steps a
  | unidirectional => exact Steps.refl [] e

theorem onProblem_steps (hg : e.openDialogues < e.config.maxDialogues → G [] e)
    (problem : DecodeProblem) (replyTo : Addressing) (udt : UnitData) (assoc : String)
    (script : List Call) (now : ℕ) :
    Steps G [] e [] (e.onProblem c problem replyTo udt assoc script now).2 := by
  obtain ⟨_, _, message, -, -, heq⟩ | ⟨-, heq | ⟨tid, r, reason, hr, heq⟩⟩ :=
    e.onProblem_cases c problem replyTo udt assoc script now
  · rw [heq]
    exact onMessage_steps hg message _ replyTo udt assoc script now
  · rw [heq]
    exact Steps.refl [] e
  · rw [heq]
    exact ((Steps.refl [] e).move (Move.take _ r hr)).move (Move.close r.handler r.dialogue _)

theorem deliver_steps (hg : e.openDialogues < e.config.maxDialogues → G [] e) (inbound : Msu)
    (assoc : String) (script : List Call) (now : ℕ) :
    Steps G [] e [] (e.deliver c inbound assoc script now).2 := by
  unfold deliver
  split_ifs
  · exact Steps.refl [] e
  cases c.decodeSccp inbound.payload with
  | none => exact Steps.refl [] e
  | some message =>
    dsimp only
    split
    · split
      · exact onMessage_steps hg _ _ _ _ _ _ _
      · exact onProblem_steps hg _ _ _ _ _ _
    · split
      · split_ifs <;> exact Steps.refl [] e
      · exact Steps.refl [] e

theorem begin_steps (hg : G [] e) (req : OutgoingBegin) (handler : Handler)
    (script : List Call) (now : ℕ) : Steps G [] e [] (e.begin c req handler script now).2 := by
  unfold Engine.begin
  dsimp only
  generalize hnew : Dialogue.new e.allocTid.2.allocated .initiator e.allocTid.1 []
    req.applicationContext 0 _ e.allocTid.2.config = d
  have hs : d.serial = e.allocated + 1 := by rw [← hnew]; rfl
  have ht : d.ourTid = e.allocTid.1 := by rw [← hnew]; rfl
  have hkept := d.calls_kept (c := c) script
  have hturn : Steps G [] e [(some handler, (d.calls c script).1)]
      (e.allocTid.2.note handler d (.starts :: (d.calls c script).2)) :=
    ((Steps.refl [] e).move (Move.alloc d hg hs ht)).move
      (Move.give handler d _ .starts _ hkept (.inl rfl) (d.calls_events script))
  have hleft : Steps G [] e [(some handler, { (d.calls c script).1 with out := [] })]
      (e.allocTid.2.note handler d (.starts :: (d.calls c script).2)) := hturn.change rfl rfl
  unfold Engine.callback
  dsimp only
  split
  · exact hleft.move (Move.close _ _ _)
  · rename_i hclosed
    split_ifs
    · exact hleft.move (Move.close _ _ .notSent)
    · exact hleft.move (Move.store _ _ _ _ hclosed)

/-! ## Timers -/

theorem claimExpired_steps (R : List Held) (now : ℕ) : Steps G R e R (e.claimExpired now).2 := by
  refine (Steps.refl R e).move (Move.claim _ (Store.size_mapValues _ _) ?_)
  intro tid
  rw [Store.lookup_mapValues, Option.map_map]
  congr 1
  funext r
  simp only [Function.comp_apply]
  split_ifs <;> rfl

theorem releaseClaim_steps (R : List Held) (tid : Tid) : Steps G R e R (e.releaseClaim tid) := by
  refine (Steps.refl R e).move (Move.claim _ (Store.size_modify _ _ _) ?_)
  intro tid'
  rw [Store.lookup_modify, Option.map_map]
  congr 1
  funext r
  simp only [Function.comp_apply]
  split_ifs <;> rfl

theorem cancel_steps (hsteps : Steps G R e ((some h, d) :: R') e') (now : ℕ)
    (invokes : List Outstanding) (scripts : List (List Call)) :
    Steps G R e ((some h, (e'.cancel c h now d invokes scripts).1) :: R')
      (e'.cancel c h now d invokes scripts).2 := by
  induction invokes generalizing e' d scripts with
  | nil => exact hsteps
  | cons invoke rest ih =>
    unfold cancel
    split_ifs with hclosed hfour
    · exact hsteps
    · exact ih hsteps scripts
    · dsimp only
      apply ih
      let timeout : InvokeTimeout := ⟨invoke.id, invoke.op, invoke.opClass⟩
      apply (hsteps.callback (c := c) (.inr ⟨timeout, now, rfl⟩) (scripts.headD [])).change
      all_goals split_ifs <;> rfl

theorem expire_steps (tid : Tid) (now : ℕ) (scripts : List (List Call)) (clock : ℕ) :
    Steps G [] e [] (e.expire c tid now scripts clock).2 := by
  unfold expire
  split
  · exact Steps.refl [] e
  · rename_i r hr
    split_ifs
    · exact releaseClaim_steps [] tid
    · dsimp only
      have htaken := (Steps.refl [] e).move (Move.take (G := G) tid r hr)
      have hdrained : Steps G [] e [(some r.handler, { r.dialogue with
          outstanding := (r.dialogue.outstanding.partition fun o => o.expired now).2 })]
          (e.take tid).2 := htaken.change rfl rfl
      have htold := cancel_steps (c := c) hdrained now
        (r.dialogue.outstanding.partition fun o => o.expired now).1 scripts
      refine (htold.change ?_ ?_).finishTurn _ _ _ _
      · split_ifs
        · exact (Dialogue.abortAs_kept _ _).serial
        · rfl
      · split_ifs
        · exact (Dialogue.abortAs_kept _ _).ourTid
        · rfl

theorem expireAll_steps (hsteps : Steps G [] e [] e') (now : ℕ)
    (scripts : Tid → List (List Call)) (clock : Tid → ℕ) (tids : List Tid) :
    Steps G [] e [] (expireAll c now scripts clock e' tids).2 := by
  induction tids generalizing e' with
  | nil => exact hsteps
  | cons tid rest ih => exact ih (hsteps.trans (expire_steps tid now _ _))

/-- Every operation is a sequence of moves, in which an id is allocated in the first state
if at all. -/
theorem step_steps (hg : G [] e) (op : Op) : Steps G [] e [] (e.step c op) := by
  cases op with
  | deliver inbound assoc script now => exact deliver_steps (fun _ => hg) inbound assoc script now
  | begin req handler script now => exact begin_steps hg req handler script now
  | sweep now order scripts clock =>
    exact expireAll_steps (claimExpired_steps [] now) now scripts clock _
  | claimExpired now => exact claimExpired_steps [] now
  | expire tid now scripts clock => exact expire_steps tid now scripts clock
  | releaseClaim tid => exact releaseClaim_steps [] tid

end SiphonSigtran.Tcap
