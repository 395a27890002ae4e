import SiphonSigtran.Lib.Machine
import SiphonSigtran.Tcap.Ceiling

/-!
# A dialogue from turn to turn

What is done with one dialogue, act by act: the peer's components are read, the handler makes
its calls, timers run out, and the engine closes it or takes what is to be sent. Every
dialogue of an engine is such a run of acts.
-/

namespace SiphonSigtran.Tcap

open Lib

/-- One thing that is done with a dialogue. -/
inductive Act
  | learn (tid : Tid)
  | receive (isEnd : Bool) (components : List Component) (rejected : Option Rejected)
  | serve (invokeId : InvokeId)
  | call (call : Call)
  | drain (now : ℕ)
  | blame (invokeId : InvokeId) (operationCode : ℤ)
  | abortAs (reason : CloseReason)
  | peerEnds
  | takeFrames
  | settle

namespace Dialogue

def act (c : Codec) (d : Dialogue) : Act → Dialogue
  | .learn tid => if d.peerTid.isEmpty then { d with peerTid := tid } else d
  | .receive isEnd components rejected => (d.receive isEnd components rejected).2
  | .serve invokeId => { d with replyInvokeId := invokeId }
  | .call call => (d.call c call).1
  | .drain now =>
    { d with outstanding := (d.outstanding.partition fun o => o.expired now).2 }
  | .blame invokeId operationCode =>
    if d.closed = some .aborted then
      { d with closed := some (.invokeTimeout invokeId operationCode) }
    else d
  | .abortAs reason => (d.abortAs c reason).2
  | .peerEnds => { d with outstanding := [], rejects := [], closed := some .peerEnded }
  | .takeFrames => { d with out := [] }
  | .settle => { d with sendError := none }

/-- What comes from outside comes to open dialogues only, and after our Begin. -/
def allowed (d : Dialogue) : Act → Bool
  | .learn _ | .receive .. | .serve _ | .drain _ | .peerEnds => d.closed.isNone && !d.opening
  | .abortAs reason => reason = .noAnswer || reason = .idleTimeout
  | _ => true

/-- The dialogues that acts lead to. We do not know the peer's id when we begin one. -/
def Reached (c : Codec) (config : Config) (d : Dialogue) : Prop :=
  ∃ serial role ourTid peerTid ac replyInvokeId addressing acts,
    (role = .initiator → peerTid = []) ∧
    Machine.Along (act c) (fun d a => d.allowed a = true)
      (new serial role ourTid peerTid ac replyInvokeId addressing config) acts ∧
    d = Machine.run (act c) (new serial role ourTid peerTid ac replyInvokeId addressing config)
      acts

variable {c : Codec} {config : Config} {d : Dialogue}

theorem reached_new (serial : ℕ) {role : Role} (ourTid : Tid) {peerTid : Tid} (ac : List ℕ)
    (replyInvokeId : InvokeId) (addressing : Addressing)
    (h : role = .initiator → peerTid = []) :
    Reached c config (new serial role ourTid peerTid ac replyInvokeId addressing config) :=
  ⟨serial, role, ourTid, peerTid, ac, replyInvokeId, addressing, [], h, trivial, rfl⟩

theorem Reached.act (h : Reached c config d) {a : Act} (ha : d.allowed a = true) :
    Reached c config (d.act c a) := by
  obtain ⟨serial, role, ourTid, peerTid, ac, replyInvokeId, addressing, acts, hrole, halong,
    rfl⟩ := h
  refine ⟨serial, role, ourTid, peerTid, ac, replyInvokeId, addressing, acts ++ [a], hrole, ?_, ?_⟩
  · rw [Machine.along_append]
    exact ⟨halong, ha, trivial⟩
  · rw [Machine.run_append]
    rfl

/-- What holds of new dialogues and is kept by every act holds of every dialogue reached. -/
theorem Reached.invariant {P : Dialogue → Prop} (h : Reached c config d)
    (hnew : ∀ serial role ourTid peerTid ac replyInvokeId addressing,
      (role = .initiator → peerTid = []) →
      P (new serial role ourTid peerTid ac replyInvokeId addressing config))
    (hact : ∀ d a, P d → d.allowed a = true → P (d.act c a)) : P d := by
  obtain ⟨serial, role, ourTid, peerTid, ac, replyInvokeId, addressing, acts, hrole, halong,
    rfl⟩ := h
  exact Machine.run_invariant hact (hnew _ _ _ _ _ _ _ hrole) halong

theorem Reached.calls (h : Reached c config d) (script : List Call) :
    Reached c config (d.calls c script).1 := by
  induction script generalizing d with
  | nil => exact h
  | cons call rest ih => exact ih (h.act (a := .call call) rfl)

/-! ## What a call sends -/

/-- What a call does with what is to be sent: nothing, or it passes a message on with what is
staged and the Rejects built here, or it aborts. -/
inductive Sending (c : Codec) (d : Dialogue) (call : Call) (d' : Dialogue) : Prop
  | quiet (hclosed : d'.closed = d.closed) (hrejects : d'.rejects = d.rejects)
      (hout : d'.out = d.out) (hfirst : d'.firstFlushDone = d.firstFlushDone)
      (haare : d'.aarePending = d.aarePending)
  | passes (closing : Bool) (msu : Msu)
      (hcall : ∃ now, call = if closing then .sendEnd else .send now)
      (hopen : d.closed = none)
      (hwrap : wrapMsu c (d.leg c closing) d.addressing = .ok msu)
      (hclosed : d'.closed = if closing then some .ended else none) (hrejects : d'.rejects = [])
      (hout : d'.out = d.out ++ [msu]) (hfirst : d'.firstFlushDone = true)
  | aborts (hcall : call = .abort) (hopen : d.closed = none) (hclosed : d'.closed = some .aborted)
      (hrejects : d'.rejects = []) (hfirst : d'.firstFlushDone = d.firstFlushDone)

theorem call_sending (d : Dialogue) (call : Call) : Sending c d call (d.call c call).1 := by
  cases call with
  | invokeWith op argument opClass timeout =>
    rw [call_invokeWith]
    obtain ⟨_, _, _, heq⟩ := d.invokeWith_only op argument opClass timeout
    rw [heq]
    exact .quiet rfl rfl rfl rfl rfl
  | send now =>
    unfold Dialogue.call send
    dsimp only
    rcases flush_cases (c := c) d false now with
      ⟨-, h⟩ | ⟨-, -, -, h⟩ | ⟨hopen, -, ⟨e, -, h⟩ | ⟨msu, hwrap, h⟩⟩
    · rw [h]
      exact .quiet rfl rfl rfl rfl rfl
    · rw [h]
      exact .quiet rfl rfl rfl rfl rfl
    · rw [h]
      exact .quiet rfl rfl rfl rfl rfl
    · rw [h]
      exact .passes false msu ⟨now, rfl⟩ hopen hwrap rfl rfl rfl rfl
  | sendEnd =>
    unfold Dialogue.call sendEnd
    dsimp only
    rcases flush_cases (c := c) d true 0 with
      ⟨-, h⟩ | ⟨-, -, -, h⟩ | ⟨hopen, -, ⟨e, -, h⟩ | ⟨msu, hwrap, h⟩⟩
    · rw [h]
      exact .quiet rfl rfl rfl rfl rfl
    · rw [h]
      exact .quiet rfl rfl rfl rfl rfl
    · rw [h]
      exact .quiet rfl rfl rfl rfl rfl
    · rw [h]
      exact .passes true msu ⟨0, rfl⟩ hopen hwrap rfl rfl rfl rfl
  | abort =>
    unfold Dialogue.call Dialogue.abort
    dsimp only
    rcases abortAs_cases (c := c) d .aborted with ⟨-, h⟩ | ⟨hopen, -, h⟩ | ⟨hopen, -, h⟩
    · rw [h]
      exact .quiet rfl rfl rfl rfl rfl
    · rw [h]
      exact .aborts rfl hopen rfl rfl rfl
    · rw [h]
      unfold emit
      split <;> exact .aborts rfl hopen rfl rfl rfl
  | _ => exact .quiet rfl rfl rfl rfl rfl

/-- As long as our Begin is not sent, nothing is. -/
def Silent (d : Dialogue) : Prop := d.closed = none → d.opening = true → d.out = []

theorem opening_congr {d d' : Dialogue} (hrole : d'.role = d.role)
    (hfirst : d'.firstFlushDone = d.firstFlushDone) : d'.opening = d.opening := by
  unfold opening
  rw [hrole, hfirst]

theorem Silent.call (h : Silent d) (call : Call) : Silent (d.call c call).1 := by
  intro hclosed' hopening
  have hrole := (d.call_kept (c := c) call).role
  cases d.call_sending (c := c) call with
  | quiet hclosed hrejects hout hfirst haare =>
    rw [hout]
    exact h (hclosed ▸ hclosed') (opening_congr hrole hfirst ▸ hopening)
  | passes closing msu hcall hopen hwrap hclosed hrejects hout hfirst =>
    simp [opening, hfirst] at hopening
  | aborts hcall hopen hclosed hrejects hfirst =>
    rw [hclosed] at hclosed'
    cases hclosed'

/-- An open dialogue of which something was sent has sent its Begin. -/
theorem Reached.silent (h : Reached c config d) : Silent d := by
  refine h.invariant (fun _ _ _ _ _ _ _ _ _ _ => rfl) ?_
  intro d a hd ha
  cases a with
  | call call => exact hd.call call
  | abortAs reason => exact fun hclosed => absurd hclosed (d.abortAs_closed reason)
  | learn tid =>
    simp only [Dialogue.act]
    split_ifs <;> exact hd
  | blame invokeId op =>
    simp only [Dialogue.act]
    split_ifs
    · exact fun hclosed => by cases hclosed
    · exact hd
  | receive isEnd components rejected =>
    obtain ⟨_, _, heq⟩ := d.receive_only isEnd components rejected
    simp only [Dialogue.act]
    rw [heq]
    exact hd
  | peerEnds => exact fun hclosed => by cases hclosed
  | takeFrames => exact fun _ _ => rfl
  | serve invokeId => exact hd
  | drain now => exact hd
  | settle => exact hd

/-- Our Begin is sent once. -/
theorem opening_act (h : d.opening = false) (a : Act) : (d.act c a).opening = false := by
  cases a with
  | call call =>
    have hrole := (d.call_kept (c := c) call).role
    simp only [Dialogue.act]
    cases d.call_sending (c := c) call with
    | quiet hclosed hrejects hout hfirst haare => exact (opening_congr hrole hfirst).trans h
    | passes closing msu hcall hopen hwrap hclosed hrejects hout hfirst => simp [opening, hfirst]
    | aborts hcall hopen hclosed hrejects hfirst => exact (opening_congr hrole hfirst).trans h
  | abortAs reason =>
    simp only [Dialogue.act]
    rcases abortAs_cases (c := c) d reason with ⟨-, heq⟩ | ⟨-, -, heq⟩ | ⟨-, -, heq⟩
    · rw [heq]
      exact h
    · rw [heq]
      exact h
    · rw [heq]
      unfold emit
      split <;> exact h
  | learn tid =>
    simp only [Dialogue.act]
    split_ifs <;> exact h
  | blame invokeId op =>
    simp only [Dialogue.act]
    split_ifs <;> exact h
  | receive isEnd components rejected =>
    obtain ⟨_, _, heq⟩ := d.receive_only isEnd components rejected
    simp only [Dialogue.act]
    rw [heq]
    exact h
  | _ => exact h

theorem opening_calls (h : d.opening = false) (script : List Call) :
    (d.calls c script).1.opening = false := by
  induction script generalizing d with
  | nil => exact h
  | cons call rest ih => exact ih (opening_act h (.call call))

/-- The callbacks for expired invokes: each invoke, the dialogue when its handler is told, and the
calls the handler then makes. -/
def told (c : Codec) (d : Dialogue) : List Outstanding → List (List Call) →
    List (Outstanding × Dialogue × List Call)
  | [], _ => []
  | invoke :: rest, scripts =>
    if d.closed.isSome then []
    else if invoke.opClass = .four then told c d rest scripts
    else
      let after := (d.calls c (scripts.headD [])).1.act c (.blame invoke.id invoke.op)
      (invoke, d, scripts.headD []) :: told c after rest scripts.tail

/-- The dialogue after those callbacks. -/
def afterTold (c : Codec) (d : Dialogue) : List Outstanding → List (List Call) → Dialogue
  | [], _ => d
  | invoke :: rest, scripts =>
    if d.closed.isSome then d
    else if invoke.opClass = .four then afterTold c d rest scripts
    else
      let after := (d.calls c (scripts.headD [])).1.act c (.blame invoke.id invoke.op)
      afterTold c after rest scripts.tail

end Dialogue

/-- What the engine does with a dialogue when its invokes expire. -/
theorem Engine.cancel_dialogue (c : Codec) (e : Engine) (handler : Handler) (now : ℕ)
    (d : Dialogue) (invokes : List Outstanding) (scripts : List (List Call)) :
    (e.cancel c handler now d invokes scripts).1 = d.afterTold c invokes scripts := by
  induction invokes generalizing e d scripts with
  | nil => rfl
  | cons invoke rest ih =>
    unfold Engine.cancel Dialogue.afterTold
    split_ifs
    · rfl
    · exact ih e d scripts
    · exact ih _ _ _

theorem Engine.note_note (e : Engine) (handler : Handler) {d d' : Dialogue}
    (hs : d'.serial = d.serial) (xs ys : List Event) :
    (e.note handler d xs).note handler d' ys = e.note handler d (xs ++ ys) := by
  simp [note, hs]

/-- The handler is told of the timeouts at those callbacks, in that order. -/
theorem Engine.cancel_log (c : Codec) (e : Engine) (handler : Handler) (now : ℕ)
    (d : Dialogue) (invokes : List Outstanding) (scripts : List (List Call)) :
    (e.cancel c handler now d invokes scripts).2 = e.note handler d
      ((d.told c invokes scripts).flatMap fun p =>
        .timesOut ⟨p.1.id, p.1.op, p.1.opClass⟩ now :: (p.2.1.calls c p.2.2).2) := by
  induction invokes generalizing e d scripts with
  | nil => exact (Engine.note_nil e handler d).symm
  | cons invoke rest ih =>
    unfold Engine.cancel Dialogue.told
    split_ifs
    · exact (Engine.note_nil e handler d).symm
    · exact ih e d scripts
    · have hrest := ih (e.callback c handler d
        (.timesOut ⟨invoke.id, invoke.op, invoke.opClass⟩ now) (scripts.headD [])).2
        ((d.calls c (scripts.headD [])).1.act c (.blame invoke.id invoke.op)) scripts.tail
      have hserial : ((d.calls c (scripts.headD [])).1.act c
          (.blame invoke.id invoke.op)).serial = d.serial := by
        have hkept := (d.calls_kept (c := c) (scripts.headD [])).serial
        simp only [Dialogue.act]
        split_ifs <;> exact hkept
      refine hrest.trans ((Engine.note_note e handler hserial _ _).trans ?_)
      rw [List.flatMap_cons]

/-! ## The dialogues of an engine -/

variable {c : Codec} {config : Config} {e : Engine} {d : Dialogue}

namespace Dialogue

theorem Reached.afterTold (h : Reached c config d) (invokes : List Outstanding)
    (scripts : List (List Call)) : Reached c config (d.afterTold c invokes scripts) := by
  induction invokes generalizing d scripts with
  | nil => exact h
  | cons invoke rest ih =>
    unfold Dialogue.afterTold
    split_ifs
    · exact h
    · exact ih h scripts
    · exact ih ((h.calls _).act rfl) _

theorem opening_afterTold (h : d.opening = false) (invokes : List Outstanding)
    (scripts : List (List Call)) : (d.afterTold c invokes scripts).opening = false := by
  induction invokes generalizing d scripts with
  | nil => exact h
  | cons invoke rest ih =>
    unfold Dialogue.afterTold
    split_ifs
    · exact h
    · exact ih h scripts
    · exact ih (opening_act (opening_calls h _) _) _

/-- A dialogue between turns: our Begin is sent, if it was us to begin. -/
structure Sound (c : Codec) (config : Config) (d : Dialogue) : Prop where
  opening : d.opening = false
  reached : d.Reached c config

namespace Sound

theorem act (h : Sound c config d) {a : Act} (ha : d.allowed a = true) :
    Sound c config (d.act c a) := ⟨opening_act h.opening a, h.reached.act ha⟩

theorem calls (h : Sound c config d) (script : List Call) :
    Sound c config (d.calls c script).1 := ⟨opening_calls h.opening script, h.reached.calls script⟩

theorem afterTold (h : Sound c config d) (invokes : List Outstanding)
    (scripts : List (List Call)) : Sound c config (d.afterTold c invokes scripts) :=
  ⟨opening_afterTold h.opening invokes scripts, h.reached.afterTold invokes scripts⟩

theorem receive (h : Sound c config d) (hc : d.closed = none) (isEnd : Bool)
    (components : List Component) (rejected : Option Rejected) :
    Sound c config (d.receive isEnd components rejected).2 ∧
      (d.receive isEnd components rejected).2.closed = none := by
  obtain ⟨_, _, hsame⟩ := d.receive_only isEnd components rejected
  refine ⟨h.act (a := .receive isEnd components rejected) ?_, ?_⟩
  · simpa [allowed] using ⟨hc, h.opening⟩
  · rw [hsame]
    exact hc

end Sound

end Dialogue

/-- Every dialogue in the store is open, and reached by acts. -/
def Stocked (c : Codec) (e : Engine) : Prop :=
  ∀ tid r, e.dialogues.lookup tid = some r →
    r.dialogue.closed = none ∧ r.dialogue.Sound c e.config

namespace Stocked

theorem of_same {e' : Engine} (h : Stocked c e) (hconfig : e'.config = e.config)
    (hl : ∀ tid r, e'.dialogues.lookup tid = some r →
      ∃ r', e.dialogues.lookup tid = some r' ∧ r'.dialogue = r.dialogue) : Stocked c e' := by
  intro tid r hr
  obtain ⟨r', hr', hd⟩ := hl tid r hr
  rw [hconfig, ← hd]
  exact h tid r' hr'

theorem take (h : Stocked c e) (tid : Tid) : Stocked c (e.take tid).2 := by
  have hconfig : (e.take tid).2.config = e.config := by
    unfold Engine.take
    split <;> rfl
  refine h.of_same hconfig fun tid' r hr => ?_
  unfold Engine.take at hr
  split at hr
  · exact ⟨r, hr, rfl⟩
  · by_cases heq : tid' = tid
    · subst heq
      simp [Engine.note] at hr
    · exact ⟨r, by simpa [Engine.note, AList.lookup_erase_ne heq] using hr, rfl⟩

theorem store (h : Stocked c e) (hc : d.closed = none) (hd : d.Sound c e.config)
    (handler : Handler) (assoc : String) (activity : ℕ) :
    Stocked c (e.store d handler assoc activity) := by
  intro tid r hr
  change (e.dialogues.insert d.ourTid _).lookup tid = some r at hr
  by_cases heq : tid = d.ourTid
  · subst heq
    rw [AList.lookup_insert] at hr
    obtain rfl := Option.some.inj hr
    exact ⟨hc, hd⟩
  · rw [AList.lookup_insert_ne heq] at hr
    exact h tid r hr

theorem finishTurn (h : Stocked c e) (hd : d.Sound c e.config) (handler : Handler)
    (assoc : String) (turn : Turn) (lastActivity now : ℕ) :
    Stocked c (e.finishTurn c d handler assoc turn lastActivity now).2 := by
  unfold Engine.finishTurn
  extract_lets d₁ frames d₂ activity
  have hfirst : d₁.Sound c e.config := by
    simp only [d₁]
    split_ifs
    · exact hd.act (a := .abortAs .noAnswer) rfl
    · exact hd
  have hlast : d₂.Sound c e.config :=
    (hfirst.act (a := .settle) rfl).act (a := .takeFrames) rfl
  cases hclosed : d₂.closed with
  | some reason => exact h
  | none => exact h.store hclosed hlast handler assoc activity

theorem onAbort (h : Stocked c e) (abort : Abort) : Stocked c (e.onAbort c abort) := by
  have htake := h.take abort.dtid
  unfold Engine.onAbort
  rcases take_cases e abort.dtid with heq | ⟨r, -, heq⟩
  · rw [heq]
    exact h
  · rw [heq]
    exact htake

theorem onTurn (h : Stocked c e) (ourTid : Tid) (peerOtid : Option Tid)
    (components : List Component) (rejected : Option Rejected) (isEnd : Bool)
    (replyTo : Addressing) (script : List Call) (now : ℕ) :
    Stocked c (e.onTurn c ourTid peerOtid components rejected isEnd replyTo script now).2 := by
  have htake := h.take ourTid
  unfold Engine.onTurn
  rcases take_cases e ourTid with heq | ⟨r, hr, heq⟩
  · rw [heq]
    cases peerOtid <;> exact h
  · rw [heq]
    dsimp only
    obtain ⟨hopen, hsound⟩ := h ourTid r hr
    generalize hlearned : (if r.dialogue.peerTid.isEmpty then
      { r.dialogue with peerTid := peerOtid.getD r.dialogue.peerTid } else r.dialogue) = d
    have hd : d.closed = none ∧ d.Sound c e.config := by
      have hlearn := hsound.act (a := .learn (peerOtid.getD r.dialogue.peerTid))
        (by simpa [Dialogue.allowed] using ⟨hopen, hsound.opening⟩)
      rw [Dialogue.act, hlearned] at hlearn
      refine ⟨?_, hlearn⟩
      rw [← hlearned]
      split_ifs <;> exact hopen
    obtain ⟨hread, hstill⟩ := hd.2.receive hd.1 isEnd components rejected
    generalize d.receive isEnd components rejected = received at hread hstill ⊢
    split_ifs
    · exact htake
    · have hconfig : (e.take ourTid).2.config = e.config := by
        unfold Engine.take
        split <;> rfl
      refine finishTurn (e := (e.take ourTid).2.note _ _ _) htake ?_ _ _ _ _ _
      change Dialogue.Sound c (e.take ourTid).2.config _
      rw [hconfig]
      exact hread.calls script

theorem onBegin (h : Stocked c e) (b : Begin) (rejected : Option Rejected)
    (replyTo : Addressing) (udt : UnitData) (assoc : String) (script : List Call) (now : ℕ) :
    Stocked c (e.onBegin c b rejected replyTo udt assoc script now).2 := by
  have hopened : Stocked c e.allocTid.2 := h
  unfold Engine.onBegin
  split_ifs
  · exact h
  cases offeredContext c b with
  | error information => exact h
  | ok ac =>
    dsimp only
    have hnew : (Dialogue.new e.allocTid.2.allocated .responder e.allocTid.1 b.otid (ac.getD []) 0
      replyTo e.allocTid.2.config).Sound c e.config :=
      ⟨rfl, Dialogue.reached_new _ _ _ _ _ (fun hrole => by cases hrole)⟩
    generalize hd : Dialogue.new e.allocTid.2.allocated .responder e.allocTid.1 b.otid
      (ac.getD []) 0 replyTo e.allocTid.2.config = d at hnew
    have hopen : d.closed = none := by rw [← hd]; rfl
    obtain ⟨hread, hstill⟩ := hnew.receive hopen false (b.components.getD []) rejected
    generalize d.receive false (b.components.getD []) rejected = received at hread hstill ⊢
    cases received.1.findIdx? PeerComponent.dispatchable with
    | none =>
      dsimp only
      split_ifs <;> exact hopened
    | some first =>
      dsimp only
      split
      · rename_i invokeId op argument _
        cases e.allocTid.2.handlerOf (udt.calledParty.ssn.getD 0) op with
        | none => exact hopened
        | some handler =>
          refine finishTurn (e := e.allocTid.2.note _ _ _) hopened ?_ _ _ _ _ _
          exact (hread.act (a := .serve invokeId)
            (by simpa [Dialogue.allowed] using ⟨hstill, hread.opening⟩)).calls script
      · exact hopened

theorem onMessage (h : Stocked c e) (message : TcapMessage) (rejected : Option Rejected)
    (replyTo : Addressing) (udt : UnitData) (assoc : String) (script : List Call) (now : ℕ) :
    Stocked c (e.onMessage c message rejected replyTo udt assoc script now).2 := by
  cases message with
  | begins b => exact h.onBegin b rejected replyTo udt assoc script now
  | continues m => exact h.onTurn _ _ _ _ _ _ _ _
  | ends m => exact h.onTurn _ _ _ _ _ _ _ _
  | aborts a => exact h.onAbort a
  | unidirectional => exact h

theorem onProblem (h : Stocked c e) (problem : DecodeProblem) (replyTo : Addressing)
    (udt : UnitData) (assoc : String) (script : List Call) (now : ℕ) :
    Stocked c (e.onProblem c problem replyTo udt assoc script now).2 := by
  obtain ⟨_, _, message, -, -, heq⟩ | ⟨-, heq | ⟨tid, r, reason, -, heq⟩⟩ :=
    e.onProblem_cases c problem replyTo udt assoc script now
  · rw [heq]
    exact h.onMessage message _ replyTo udt assoc script now
  · rw [heq]
    exact h
  · rw [heq]
    exact h.take tid

theorem deliver (h : Stocked c e) (inbound : Msu) (assoc : String) (script : List Call)
    (now : ℕ) : Stocked c (e.deliver c inbound assoc script now).2 := by
  unfold Engine.deliver
  split_ifs
  · exact h
  cases c.decodeSccp inbound.payload with
  | none => exact h
  | some message =>
    dsimp only
    split
    · split
      · exact h.onMessage _ _ _ _ _ _ _
      · exact h.onProblem _ _ _ _ _ _
    · split
      · split_ifs <;> exact h
      · exact h

theorem begin (h : Stocked c e) (req : OutgoingBegin) (handler : Handler) (script : List Call)
    (now : ℕ) : Stocked c (e.begin c req handler script now).2 := by
  have hopened : Stocked c e.allocTid.2 := h
  unfold Engine.begin
  dsimp only
  generalize hnew : Dialogue.new e.allocTid.2.allocated .initiator e.allocTid.1 []
    req.applicationContext 0 _ e.allocTid.2.config = d
  have hd : d.Reached c e.config := by
    rw [← hnew]
    exact Dialogue.reached_new _ _ _ _ _ fun _ => rfl
  have hturn := hd.calls script
  split
  · exact hopened
  · rename_i hclosed
    split_ifs with hframes
    · exact hopened
    · -- Something was sent, so the Begin was.
      have hsent : (d.calls c script).1.opening = false := by
        rw [← Bool.not_eq_true]
        intro hopening
        have hnone := hturn.silent hclosed hopening
        change ¬ (d.calls c script).1.out.isEmpty = true at hframes
        rw [hnone] at hframes
        exact hframes rfl
      have hlast : Dialogue.Sound c e.config ((d.calls c script).1.act c .takeFrames) :=
        ⟨hsent, hturn.act (a := .takeFrames) rfl⟩
      exact store (e := (e.allocTid.2.callback c handler d .starts script).2)
        (d := (d.calls c script).1.act c .takeFrames) hopened hclosed hlast _ _ _

theorem expire (h : Stocked c e) (tid : Tid) (now : ℕ) (scripts : List (List Call))
    (clock : ℕ) : Stocked c (e.expire c tid now scripts clock).2 := by
  have htake := h.take tid
  unfold Engine.expire
  split
  · exact h
  · rename_i r hr
    split_ifs
    · refine h.of_same rfl fun tid' r' hr' => ?_
      rw [Engine.releaseClaim, Store.lookup_modify, Option.map_eq_some_iff] at hr'
      obtain ⟨r₀, hr₀, hsame⟩ := hr'
      refine ⟨r₀, hr₀, ?_⟩
      rw [← hsame]
      split_ifs <;> rfl
    · dsimp only
      obtain ⟨hopen, hsound⟩ := h tid r hr
      have hdrained := hsound.act (a := .drain now)
        (by simpa [Dialogue.allowed] using ⟨hopen, hsound.opening⟩)
      rw [Dialogue.act] at hdrained
      generalize hcancel : (e.take tid).2.cancel c r.handler now _ _ scripts = cancelled
      have hdialogue := Engine.cancel_dialogue c (e.take tid).2 r.handler now
        { r.dialogue with outstanding := (r.dialogue.outstanding.partition
          fun o => o.expired now).2 }
        (r.dialogue.outstanding.partition fun o => o.expired now).1 scripts
      have hlog := Engine.cancel_log c (e.take tid).2 r.handler now
        { r.dialogue with outstanding := (r.dialogue.outstanding.partition
          fun o => o.expired now).2 }
        (r.dialogue.outstanding.partition fun o => o.expired now).1 scripts
      rw [hcancel] at hdialogue hlog
      have hconfig : cancelled.2.config = e.config := by
        rw [hlog]
        change (e.take tid).2.config = e.config
        unfold Engine.take
        split <;> rfl
      have hstocked : Stocked c cancelled.2 := by
        rw [hlog]
        exact htake
      refine hstocked.finishTurn ?_ _ _ _ _ _
      rw [hconfig]
      have hafter : cancelled.1.Sound c e.config := by
        rw [hdialogue]
        exact hdrained.afterTold _ _
      split_ifs
      · exact hafter.act (a := .abortAs .idleTimeout) rfl
      · exact hafter

theorem expireAll (h : Stocked c e) (now : ℕ) (scripts : Tid → List (List Call))
    (clock : Tid → ℕ) (tids : List Tid) :
    Stocked c (Engine.expireAll c now scripts clock e tids).2 := by
  induction tids generalizing e with
  | nil => exact h
  | cons tid rest ih => exact ih (h.expire tid now _ _)

theorem claimExpired (h : Stocked c e) (now : ℕ) : Stocked c (e.claimExpired now).2 := by
  refine h.of_same rfl fun tid r hr => ?_
  rw [Engine.claimExpired, Store.lookup_mapValues, Option.map_eq_some_iff] at hr
  obtain ⟨r₀, hr₀, hsame⟩ := hr
  refine ⟨r₀, hr₀, ?_⟩
  rw [← hsame]
  split_ifs <;> rfl

theorem step (h : Stocked c e) (op : Engine.Op) : Stocked c (e.step c op) := by
  cases op with
  | deliver inbound assoc script now => exact h.deliver inbound assoc script now
  | begin req handler script now => exact h.begin req handler script now
  | sweep now order scripts clock => exact (h.claimExpired now).expireAll now scripts clock _
  | claimExpired now => exact h.claimExpired now
  | expire tid now scripts clock => exact h.expire tid now scripts clock
  | releaseClaim tid =>
    refine h.of_same rfl fun tid' r' hr' => ?_
    rw [Engine.step, Engine.releaseClaim, Store.lookup_modify, Option.map_eq_some_iff] at hr'
    obtain ⟨r₀, hr₀, hsame⟩ := hr'
    refine ⟨r₀, hr₀, ?_⟩
    rw [← hsame]
    split_ifs <;> rfl

end Stocked

/-- Every dialogue that a run leaves in the store is open, and acts lead to it. -/
theorem stored_reached (c : Codec) (config : Config)
    (handlers fallbackHandlers : ℕ × ℤ → Option Handler) (ops : List Engine.Op) {tid : Tid}
    {r : Record} (hr : (Machine.run (Engine.step c) (Engine.new config handlers fallbackHandlers)
      ops).dialogues.lookup tid = some r) :
    r.dialogue.closed = none ∧ r.dialogue.Sound c config := by
  have hrun : Stocked c (Machine.run (Engine.step c)
        (Engine.new config handlers fallbackHandlers) ops) ∧
      (Machine.run (Engine.step c) (Engine.new config handlers fallbackHandlers)
        ops).config = config := by
    apply Machine.run_invariant
      (P := fun e : Engine => Stocked c e ∧ e.config = config)
      (fun e op h _ => ⟨h.1.step op, (e.step_config op).trans h.2⟩) _
      (Machine.along_trivial _ ops)
    exact ⟨fun tid r hr => by simp [Engine.new] at hr, rfl⟩
  have hstored := hrun.1 tid r hr
  rwa [hrun.2] at hstored

end SiphonSigtran.Tcap
