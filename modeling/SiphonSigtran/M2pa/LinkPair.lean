import SiphonSigtran.M2pa.LinkLedger
import SiphonSigtran.M2pa.LinkOrder

/-!
# Two links joined by an association

The two ends of an association, each a link with its inbound channels: one for the
status stream and one for the data stream, each in order, and no order between
them. An end acts on its own account (starts, fails, sends, a timer runs out, the
due acknowledgement is flushed) or takes the frame that arrived first on one of
its channels. What its link sends goes to the end of the channels of the other.
-/

namespace SiphonSigtran.M2pa

open Link

/-- One end: its link, the MSUs its link accepted and delivered, and what is on the way. -/
structure Side where
  link : Link
  accepted : List Msu
  delivered : List Msu
  statusIn : List Frame
  dataIn : List Frame
  deriving DecidableEq

/-- What an end may do. -/
inductive Op
  | start
  | fail (reason : Failure)
  | send (msu : Msu)
  | timeout (timer : Timer)
  | flushAck
  | arriveStatus
  | arriveData
  deriving DecidableEq, Repr

/-- The frames sent on a stream. -/
def framesOn (stream : ℕ) (out : List Action) : List Frame :=
  out.filterMap fun
    | .send frame s _ => if s = stream then some frame else none
    | _ => none

def deliveries (out : List Action) : List Msu :=
  out.filterMap fun
    | .deliver msu => some msu
    | _ => none

/-- The call that a frame of the peer makes. -/
def received (codec : Codec) (frame : Frame) : Option Call :=
  match codec.decode frame with
  | some (.linkStatus bsn _ state) => some (.onStatus state bsn)
  | some (.userData bsn fsn message) => some (.onData bsn fsn message)
  | none => none

namespace Side

def call (codec : Codec) (x : Side) : Op → Option Call
  | .start => some .start
  | .fail reason => some (.fail reason)
  | .send msu => some (.send msu)
  | .timeout timer => some (.timeout timer)
  | .flushAck => some .flushAck
  | .arriveStatus => x.statusIn.head?.bind (received codec)
  | .arriveData => x.dataIn.head?.bind (received codec)

/-- The end with the frame taken that the operation is about. -/
def taken (x : Side) : Op → Side
  | .arriveStatus => { x with statusIn := x.statusIn.tail }
  | .arriveData => { x with dataIn := x.dataIn.tail }
  | _ => x

/-- The end after a call of its link. -/
def after (x : Side) (call : Call) (r : Link × List Action) : Side :=
  { x with
    link := r.1
    accepted := x.accepted ++ acceptedBy call r.2
    delivered := x.delivered ++ deliveries r.2 }

/-- The end after what the other one sent. -/
def reached (y : Side) (out : List Action) : Side :=
  { y with
    statusIn := y.statusIn ++ framesOn statusStream out
    dataIn := y.dataIn ++ framesOn dataStream out }

/-- `x` acts, and `y` is the other end. -/
def act (codec : Codec) (now : ℕ) (op : Op) (x y : Side) : Side × Side :=
  match x.call codec op with
  | some call =>
    let r := x.link.step codec ⟨now, call⟩
    ((x.taken op).after call r, y.reached r.2)
  | none => (x.taken op, y)

/-- An end before anything happened. -/
def new (timers : LinkTimers) (proving : Proving) (txQueue : ℕ) : Side :=
  ⟨.new timers proving txQueue, [], [], [], []⟩

end Side

/-- Both ends. -/
structure Pair where
  a : Side
  b : Side
  deriving DecidableEq

/-- The instant, the end that acts and what it does. -/
structure Input where
  now : ℕ
  atA : Bool
  op : Op
  deriving DecidableEq, Repr

namespace Pair

def actor (p : Pair) (i : Input) : Side := if i.atA then p.a else p.b

def step (codec : Codec) (p : Pair) (i : Input) : Pair :=
  if i.atA then
    let q := p.a.act codec i.now i.op p.b
    ⟨q.1, q.2⟩
  else
    let q := p.b.act codec i.now i.op p.a
    ⟨q.2, q.1⟩

end Pair

/-! ## Frames and deliveries of actions -/

@[simp] theorem framesOn_nil (stream : ℕ) : framesOn stream [] = [] := rfl

@[simp] theorem framesOn_append (stream : ℕ) (xs ys : List Action) :
    framesOn stream (xs ++ ys) = framesOn stream xs ++ framesOn stream ys :=
  List.filterMap_append

@[simp] theorem framesOn_send (stream : ℕ) (frame : Frame) (s : ℕ) (si : Option ℕ)
    (out : List Action) :
    framesOn stream (.send frame s si :: out) =
      if s = stream then frame :: framesOn stream out else framesOn stream out := by
  unfold framesOn
  rw [List.filterMap_cons]
  split <;> simp_all

@[simp] theorem framesOn_deliver (stream : ℕ) (msu : Msu) (out : List Action) :
    framesOn stream (.deliver msu :: out) = framesOn stream out := rfl
@[simp] theorem framesOn_start (stream : ℕ) (t : Timer) (n : ℕ) (out : List Action) :
    framesOn stream (.start t n :: out) = framesOn stream out := rfl
@[simp] theorem framesOn_stop (stream : ℕ) (t : Timer) (out : List Action) :
    framesOn stream (.stop t :: out) = framesOn stream out := rfl
@[simp] theorem framesOn_inService (stream : ℕ) (out : List Action) :
    framesOn stream (.inService :: out) = framesOn stream out := rfl
@[simp] theorem framesOn_outOfService (stream : ℕ) (r : Failure) (out : List Action) :
    framesOn stream (.outOfService r :: out) = framesOn stream out := rfl
@[simp] theorem framesOn_remoteProcessorOutage (stream : ℕ) (on : Bool) (out : List Action) :
    framesOn stream (.remoteProcessorOutage on :: out) = framesOn stream out := rfl
@[simp] theorem framesOn_discarded (stream : ℕ) (r : Discard) (n : ℕ) (out : List Action) :
    framesOn stream (.discarded r n :: out) = framesOn stream out := rfl

@[simp] theorem deliveries_nil : deliveries [] = [] := rfl

@[simp] theorem deliveries_append (xs ys : List Action) :
    deliveries (xs ++ ys) = deliveries xs ++ deliveries ys := List.filterMap_append

@[simp] theorem deliveries_deliver (msu : Msu) (out : List Action) :
    deliveries (.deliver msu :: out) = msu :: deliveries out := rfl
@[simp] theorem deliveries_send (frame : Frame) (s : ℕ) (si : Option ℕ) (out : List Action) :
    deliveries (.send frame s si :: out) = deliveries out := rfl
@[simp] theorem deliveries_start (t : Timer) (n : ℕ) (out : List Action) :
    deliveries (.start t n :: out) = deliveries out := rfl
@[simp] theorem deliveries_stop (t : Timer) (out : List Action) :
    deliveries (.stop t :: out) = deliveries out := rfl
@[simp] theorem deliveries_inService (out : List Action) :
    deliveries (.inService :: out) = deliveries out := rfl
@[simp] theorem deliveries_outOfService (r : Failure) (out : List Action) :
    deliveries (.outOfService r :: out) = deliveries out := rfl
@[simp] theorem deliveries_remoteProcessorOutage (on : Bool) (out : List Action) :
    deliveries (.remoteProcessorOutage on :: out) = deliveries out := rfl
@[simp] theorem deliveries_discarded (r : Discard) (n : ℕ) (out : List Action) :
    deliveries (.discarded r n :: out) = deliveries out := rfl

/-- The statuses that a link of this implementation sends. -/
def Status.plain : Status → Bool
  | .alignment | .provingNormal | .provingEmergency | .ready | .outOfService => true
  | _ => false

namespace Link

open Lib.Serial

variable {codec : Codec}

/-! ## What a call does to one end -/

/-- What the link keeps for changeover, or would: the messages sent and not acknowledged. -/
def buffered (l : Link) : List (ℕ × Msu) :=
  match l.retrievable with
  | some held => held.unacked
  | none => l.unacked.map fun u => (u.fsn, u.msu)

/-- A link whose peer was never busy or in outage: it queues nothing, and what its failure
left is what it had then. -/
structure Plain (l : Link) : Prop where
  state : l.state ≠ .processorOutage
  busy : l.remoteBusy = false
  held : ∀ held, l.retrievable = some held → held.bsnt = l.fsnIn ∧ held.acked = l.acked ∧
    held.unsent = [] ∧ l.state = .outOfService

/-- The same counters and buffer, in a life that did not begin just now. -/
structure Still (l l' : Link) : Prop where
  acked : l'.acked = l.acked
  fsnOut : l'.fsnOut = l.fsnOut
  fsnIn : l'.fsnIn = l.fsnIn
  buffered : l'.buffered = l.buffered
  idle : l'.isAligned = false → l'.retrievable = none →
    l.isAligned = false ∧ l.retrievable = none

/-- Status frames of this implementation. A Ready is sent before service only. -/
def Greets (codec : Codec) (l : Link) (out : List Action) : Prop :=
  ∀ frame ∈ framesOn statusStream out, ∃ bsn fsn status,
    codec.decode frame = some (.linkStatus bsn fsn status) ∧ status.plain = true ∧
      (status = .ready → bsn = l.fsnIn ∧ l.isAligned = false ∧ l.retrievable = none)

/-- What a call does to its end of a pair. -/
inductive Effect (codec : Codec) (l : Link) : Call → Link × List Action → Prop
  | quiet {call : Call} {r : Link × List Action} (h : Still l r.1)
      (hdata : framesOn dataStream r.2 = []) (hstatus : Greets codec l r.2)
      (hdelivered : deliveries r.2 = []) (haccepted : acceptedBy call r.2 = []) :
      Effect codec l call r
  | sent {msu : Msu} {r : Link × List Action} (frame : Frame) (hacked : r.1.acked = l.acked)
      (hin : r.1.fsnIn = l.fsnIn) (hout : r.1.fsnOut = (l.fsnOut + 1) % 0x1000000)
      (hbuffered : r.1.buffered = l.buffered ++ [((l.fsnOut + 1) % 0x1000000, msu)])
      (haligned : r.1.isAligned = true) (hdata : framesOn dataStream r.2 = [frame])
      (hframe : codec.decode frame =
        some (.userData l.fsnIn ((l.fsnOut + 1) % 0x1000000) ⟨0, msu⟩))
      (hstatus : framesOn statusStream r.2 = []) (hdelivered : deliveries r.2 = [])
      (haccepted : acceptedBy (.send msu) r.2 = [msu]) : Effect codec l (.send msu) r
  | flushed {r : Link × List Action} (frame : Frame) (h : Still l r.1)
      (hdata : framesOn dataStream r.2 = [frame])
      (hframe : codec.decode frame = some (.userData l.fsnIn l.fsnOut .empty))
      (hstatus : framesOn statusStream r.2 = []) (hdelivered : deliveries r.2 = []) :
      Effect codec l .flushAck r
  | received {bsn fsn : ℕ} {message : UserDataMessage} {r : Link × List Action}
      (haccepts : l.Accepts bsn) (hacked : r.1.acked = bsn % 0x1000000)
      (hout : r.1.fsnOut = l.fsnOut)
      (hbuffered : r.1.buffered = l.buffered.drop (seqDistance l.acked (bsn % 0x1000000)))
      (haligned : r.1.isAligned = true) (hframes : ∀ stream, framesOn stream r.2 = [])
      (hin : deliveries r.2 = [] ∧ r.1.fsnIn = l.fsnIn ∧
          (message.isEmpty = false → fsn % 0x1000000 ≠ (l.fsnIn + 1) % 0x1000000) ∨
        deliveries r.2 = [message.msu] ∧ r.1.fsnIn = fsn % 0x1000000 ∧
          message.isEmpty = false ∧ fsn % 0x1000000 = (l.fsnIn + 1) % 0x1000000) :
      Effect codec l (.onData bsn fsn message) r

/-- The calls of a pair: the statuses a peer sends, and BSNs that name what was sent. -/
def Fits (l : Link) : Call → Prop
  | .start => l.state = .outOfService → l.retrievable = none ∧ l.acked = seqMask ∧
      l.fsnOut = seqMask ∧ l.fsnIn = seqMask
  | .onStatus status bsn => status.plain = true ∧ (status = .ready → l.state = .inService →
      ¬ l.Accepts bsn ∨ seqDistance l.acked (bsn % 0x1000000) = 0)
  | .onData bsn _ _ => l.isAligned = true ∨ l.state = .alignedReady → l.Accepts bsn
  | .established | .retrieve _ | .detach | .abandon => False
  | _ => True

theorem Still.rfl (l : Link) : Still l l := ⟨Eq.refl _, Eq.refl _, Eq.refl _, Eq.refl _, And.intro⟩

/-- A link with the same counters, buffer and life. -/
theorem Still.of_eq {l l' : Link} (hacked : l'.acked = l.acked) (hout : l'.fsnOut = l.fsnOut)
    (hin : l'.fsnIn = l.fsnIn) (hu : l'.unacked = l.unacked)
    (hr : l'.retrievable = l.retrievable)
    (ha : l'.isAligned = false → l.isAligned = false) : Still l l' :=
  ⟨hacked, hout, hin, by simp only [Link.buffered, hu, hr], fun hi hn => ⟨ha hi, hr ▸ hn⟩⟩

theorem still_failed {l : Link} (h : l.retrievable = none) : Still l l.failed :=
  ⟨rfl, rfl, rfl, by simp [Link.buffered, h, failed, leave], fun _ hn => by simp [failed] at hn⟩

theorem framesOn_sendFrame_ne {m : M2paMessage} {stream s : ℕ} {si : Option ℕ} (h : s ≠ stream) :
    framesOn stream (sendFrame codec m s si) = [] := by
  unfold sendFrame
  split <;> simp [h]

theorem deliveries_sendFrame (m : M2paMessage) (s : ℕ) (si : Option ℕ) :
    deliveries (sendFrame codec m s si) = [] := by
  unfold sendFrame
  split <;> rfl

@[simp] theorem deliveries_sendStatus (l : Link) (status : Status) (stream : ℕ) :
    deliveries (l.sendStatus codec status stream) = [] := deliveries_sendFrame _ _ _

@[simp] theorem framesOn_sendStatus (l : Link) (status : Status) :
    framesOn dataStream (l.sendStatus codec status statusStream) = [] :=
  framesOn_sendFrame_ne (by decide)

/-- The status frames of a link are those of its numbered counters. -/
theorem Numbered.mem_sendStatus {l : Link} (h : l.Numbered) {status : Status} {frame : Frame}
    (hmem : frame ∈ framesOn statusStream (l.sendStatus codec status statusStream)) :
    codec.decode frame = some (.linkStatus l.fsnIn l.fsnOut status) := by
  have hsendable : (M2paMessage.linkStatus l.fsnIn l.fsnOut status).Sendable :=
    ⟨Nat.le_of_lt_succ h.fsnIn_lt, Nat.le_of_lt_succ h.fsnOut_lt⟩
  unfold sendStatus sendFrame at hmem
  split at hmem
  next sent hframe =>
    simp only [framesOn_send, ↓reduceIte, framesOn_nil, List.mem_singleton] at hmem
    subst hmem
    exact codec.decode_encode hsendable hframe
  next => simp at hmem

theorem Numbered.greets {l l' : Link} (h : l'.Numbered) {status : Status}
    (hplain : status.plain = true)
    (hready : status = .ready → l'.fsnIn = l.fsnIn ∧ l.isAligned = false ∧ l.retrievable = none) :
    Greets codec l (l'.sendStatus codec status statusStream) :=
  fun _ hmem => ⟨_, _, status, h.mem_sendStatus hmem, hplain, hready⟩

theorem greets_of_nil {l : Link} {out : List Action} (h : framesOn statusStream out = []) :
    Greets codec l out := by
  intro frame hmem
  simp [h] at hmem

theorem Greets.of_eq {l : Link} {out out' : List Action} (h : Greets codec l out)
    (hout : framesOn statusStream out' = framesOn statusStream out) : Greets codec l out' := by
  intro frame hmem
  rw [hout] at hmem
  exact h frame hmem

theorem framesOn_armT7 (l : Link) (now stream : ℕ) : framesOn stream (l.armT7 now) = [] := by
  unfold armT7
  split <;> rfl

theorem deliveries_armT7 (l : Link) (now : ℕ) : deliveries (l.armT7 now) = [] := by
  unfold armT7
  split <;> rfl

theorem Numbered.effect_failed {l : Link} (h : l.Numbered) (hr : l.retrievable = none)
    {call : Call} (hcall : ∀ msu, call ≠ .send msu) (reason : Failure) :
    Effect codec l call (l.failed, l.failActions codec reason) := by
  have hdata : framesOn dataStream (l.failActions codec reason) = [] := by
    unfold failActions
    split <;> simp [Timer.all]
  have hstatus : Greets codec l (l.failActions codec reason) := by
    intro frame hmem
    have hsent : frame ∈ framesOn statusStream (l.sendStatus codec .outOfService statusStream) := by
      unfold failActions at hmem
      split at hmem
      · simp [Timer.all] at hmem
      · simpa [Timer.all] using hmem
    exact ⟨_, _, .outOfService, h.mem_sendStatus hsent, rfl, by simp⟩
  refine .quiet (still_failed hr) hdata hstatus ?_ ?_
  · unfold failActions
    split <;> simp [Timer.all]
  · unfold acceptedBy
    split
    · exact absurd rfl (hcall _)
    · rfl

/-- An acceptable BSN releases the front of the buffer and says nothing. -/
structure Releases (l : Link) (bsn : ℕ) (a : Link × List Action × Bool) : Prop where
  acked : a.1.acked = bsn % 0x1000000
  buffered : a.1.buffered = l.buffered.drop (seqDistance l.acked (bsn % 0x1000000))
  frames : ∀ stream, framesOn stream a.2.1 = []
  deliveries : deliveries a.2.1 = []
  accepted : a.2.2 = true

theorem AcknowledgeMove.releases {l : Link} {bsn now : ℕ} {strict : Bool}
    {a : Link × List Action × Bool} (h : AcknowledgeMove codec l bsn strict now a)
    (hn : l.Numbered) (hw : l.InWindow) (hs : l.state ≠ .outOfService)
    (hr : l.retrievable = none) (ha : l.Accepts bsn) : Releases l bsn a := by
  have hgap := add_gap (by decide : 0 < 0x1000000) l.acked (bsn % 0x1000000)
  rw [← seqDistance_eq_gap hn.acked_lt, Nat.mod_mod] at hgap
  cases h with
  | ignored hna _ => exact absurd ha hna
  | abnormal hna _ _ => exact absurd ha hna
  | faulty hna _ _ _ => exact absurd ha hna
  | repeated _ _ hstep =>
    rw [hstep, Nat.add_zero, Nat.mod_eq_of_lt hn.acked_lt] at hgap
    exact ⟨hgap, by rw [hstep]; rfl, fun _ => rfl, rfl, rfl⟩
  | advanced watch _ _ =>
    have hdrop := hn.released_unacked hw hs ha
    refine ⟨rfl, ?_, fun stream => ?_, ?_, rfl⟩
    · simp only [Link.buffered, released, hr]
      rw [← List.map_drop, ← hdrop]
      rfl
    · dsimp only
      split
      · exact framesOn_armT7 _ now stream
      · rfl
    · dsimp only
      split
      · exact deliveries_armT7 _ now
      · rfl

theorem ReceiveMove.effect {l : Link} {bsn fsn now : ℕ} {message : UserDataMessage}
    {r : Link × List Action} (h : ReceiveMove codec l bsn fsn message now r)
    (hn : l.Numbered) (hw : l.InWindow) (haligned : l.isAligned = true)
    (hr : l.retrievable = none) (ha : l.Accepts bsn) :
    Effect codec l (.onData bsn fsn message) r := by
  have hs : l.state ≠ .outOfService := by
    intro hs
    simp [isAligned, hs] at haligned
  cases h with
  | discarded hack hno =>
    simp [(hack.releases hn hw hs hr ha).accepted] at hno
  | empty hack hok he =>
    have hrel := hack.releases hn hw hs hr ha
    obtain ⟨acked, unacked, watch, hl⟩ := hack.frame_of_accepted hok
    refine .received ha hrel.acked (by rw [hl]) hrel.buffered (by rw [hl]; exact haligned)
      hrel.frames (.inl ⟨hrel.deliveries, by rw [hl], fun hne => ?_⟩)
    simp [he] at hne
  | @outOfSequence a hack hok he hf =>
    have hrel := hack.releases hn hw hs hr ha
    obtain ⟨acked, unacked, watch, hl⟩ := hack.frame_of_accepted hok
    have hin : a.1.fsnIn = l.fsnIn := by rw [hl]
    rw [hin] at hf
    refine .received ha hrel.acked (by rw [hl]) hrel.buffered (by rw [hl]; exact haligned)
      (fun stream => ?_) (.inl ⟨?_, by rw [hl], fun _ => hf⟩)
    · simp [hrel.frames stream]
    · simp [hrel.deliveries]
  | @delivered a hack hok he hf =>
    have hrel := hack.releases hn hw hs hr ha
    obtain ⟨acked, unacked, watch, hl⟩ := hack.frame_of_accepted hok
    have hin : a.1.fsnIn = l.fsnIn := by rw [hl]
    rw [hin] at hf
    refine .received ha hrel.acked (by rw [hl]) hrel.buffered ?_ (fun stream => ?_)
      (.inr ⟨?_, rfl, he, hf⟩)
    · rw [hl]
      exact haligned
    · simp [hrel.frames stream]
    · simp [hrel.deliveries]

theorem Effect.entered {l : Link} {bsn fsn : ℕ} {message : UserDataMessage}
    {r : Link × List Action} (h : Effect codec l.enterService.1 (.onData bsn fsn message) r) :
    Effect codec l (.onData bsn fsn message) (r.1, l.enterService.2 ++ r.2) := by
  have haligned : l.enterService.1.isAligned = true := rfl
  have hframes (stream : ℕ) : framesOn stream (l.enterService.2 ++ r.2) = framesOn stream r.2 := by
    simp [enterService]
  have hdeliveries : deliveries (l.enterService.2 ++ r.2) = deliveries r.2 := by
    simp [enterService]
  cases h with
  | quiet h hdata hstatus hdelivered _ =>
    refine .quiet ⟨h.acked, h.fsnOut, h.fsnIn, h.buffered, fun hi hn => ?_⟩
      ((hframes _).trans hdata)
      ?_ (hdeliveries.trans hdelivered) rfl
    · exact absurd (h.idle hi hn).1 (by simp [haligned])
    · intro frame hmem
      rw [hframes] at hmem
      obtain ⟨bsn, fsn, status, hdecode, hplain, hready⟩ := hstatus frame hmem
      refine ⟨bsn, fsn, status, hdecode, hplain, fun hr => ?_⟩
      simp [haligned] at hready
      exact absurd hr hready
  | received ha hacked hout hbuffered hal hfr hin =>
    refine .received ha hacked hout hbuffered hal
      (fun stream => (hframes stream).trans (hfr stream)) ?_
    rw [hdeliveries]
    exact hin

theorem DataMove.effect {l : Link} {bsn fsn now : ℕ} {message : UserDataMessage}
    {r : Link × List Action} (h : DataMove codec l bsn fsn message now r)
    (hn : l.Numbered) (hw : l.InWindow) (hf : l.Fresh) (ha : l.Fits (.onData bsn fsn message)) :
    Effect codec l (.onData bsn fsn message) r := by
  cases h with
  | refused _ _ =>
    refine .quiet (.rfl l) ?_ (greets_of_nil ?_) ?_ rfl <;> split <;> rfl
  | @enter r hs hr =>
    have hentered : l.enterService.1.Numbered :=
      hn.of_eq (by simp [hs, enterService]) rfl hn.fsnIn_lt rfl rfl
    exact (hr.effect hentered hw rfl (hf (by simp [hs])) (ha (.inr hs))).entered
  | received haligned hr =>
    have hs : l.state ≠ .outOfService := by
      intro hs
      simp [isAligned, hs] at haligned
    exact hr.effect hn hw haligned (hf hs) (ha (.inl haligned))

theorem TransmitMove.effect {l : Link} {msu : Msu} {now : ℕ} {r : Link × List Action}
    (h : TransmitMove codec l msu now r) (hn : l.Numbered) (hr : l.retrievable = none)
    (hs : l.state = .inService) : Effect codec l (.send msu) r := by
  cases h with
  | sent frame hframe =>
    have hsendable :
        (M2paMessage.userData l.fsnIn ((l.fsnOut + 1) % 0x1000000) ⟨0, msu⟩).Sendable :=
      ⟨Nat.le_of_lt_succ hn.fsnIn_lt, Nat.le_of_lt_succ (Nat.mod_lt _ (by decide)), rfl⟩
    refine .sent frame rfl rfl rfl ?_ (by simp [isAligned, transmitted, hs]) ?_
      (codec.decode_encode hsendable hframe) ?_ ?_ ?_
    · simp [Link.buffered, transmitted, hr]
    · split <;> simp
    · split <;> simp [dataStream, statusStream]
    · split <;> rfl
    · have hany : (.send frame dataStream (serviceIndicator msu) ::
          if l.unacked.isEmpty then [.start .t7 l.timers.t7] else [] : List Action).any
            Action.isDiscarded = false := by
        split <;> rfl
      simp only [acceptedBy, hany]
      rfl
  | refused _ =>
    exact .quiet (.rfl l) rfl (greets_of_nil rfl) rfl rfl

theorem SendMove.effect {l : Link} {msu : Msu} {now : ℕ} {r : Link × List Action}
    (h : SendMove codec l msu now r) (hn : l.Numbered) (hf : l.Fresh) (hp : l.Plain) :
    Effect codec l (.send msu) r := by
  have hcalm (ha : l.isAligned = true) : l.state = .inService ∧ l.remoteBusy = false := by
    refine ⟨?_, hp.busy⟩
    simpa [isAligned, hp.state] using ha
  cases h with
  | transmitted hs _ ht => exact ht.effect hn (hf (by simp [hs])) hs
  | congested ha hb _ => exact absurd (hcalm ha) hb
  | queued ha hb _ => exact absurd (hcalm ha) hb
  | refused _ => exact .quiet (.rfl l) rfl (greets_of_nil rfl) rfl rfl

theorem plain_provingStatus (l : Link) :
    l.provingStatus.plain = true ∧ l.provingStatus ≠ .ready := by
  unfold provingStatus
  split <;> decide

theorem TimeoutMove.effect {l : Link} {timer : Timer} {now : ℕ} {r : Link × List Action}
    (h : TimeoutMove codec l timer now r) (hn : l.Numbered) (hf : l.Fresh) :
    Effect codec l (.timeout timer) r := by
  have hready (hs : l.state = .proving) : Greets codec l (l.sendStatus codec .ready statusStream) :=
    hn.greets rfl fun _ => ⟨rfl, by simp [isAligned, hs], hf (by simp [hs])⟩
  cases h with
  | stale _ => exact .quiet (.rfl l) rfl (greets_of_nil rfl) rfl rfl
  | failed reason hs => exact hn.effect_failed (hf hs) (by simp) reason
  | ready hs _ _ =>
    have hidle : l.isAligned = false := by simp [isAligned, hs]
    exact .quiet (.of_eq rfl rfl rfl rfl rfl fun _ => hidle) (by simp)
      ((hready hs).of_eq (by simp)) (by simp) rfl
  | enter hs _ _ =>
    have hidle : l.isAligned = false := by simp [isAligned, hs]
    exact .quiet (.of_eq rfl rfl rfl rfl rfl fun _ => hidle) (by simp [enterService])
      ((hready hs).of_eq (by simp [enterService])) (by simp [enterService]) rfl
  | repeatProving hs _ =>
    have hplain := l.plain_provingStatus
    exact .quiet (.rfl l) (by simp)
      ((hn.greets hplain.1 fun he => absurd he hplain.2).of_eq (by simp)) (by simp) rfl
  | rearm _ _ _ =>
    exact .quiet (.rfl l) (framesOn_armT7 l now _) (greets_of_nil (framesOn_armT7 l now _))
      (deliveries_armT7 l now) rfl

theorem StatusMove.effect {l : Link} {status : Status} {bsn now : ℕ} {r : Link × List Action}
    (h : StatusMove codec l now status bsn r) (hn : l.Numbered) (hf : l.Fresh)
    (hfit : l.Fits (.onStatus status bsn)) : Effect codec l (.onStatus status bsn) r := by
  cases h with
  | ignored _ _ _ => exact .quiet (.rfl l) rfl (greets_of_nil rfl) rfl rfl
  | align _ _ hs _ =>
    have hidle : l.isAligned = false := by simp [isAligned, hs]
    have hplain := (l.align codec status).1.plain_provingStatus
    have hgreets : Greets codec l ((l.align codec status).1.sendStatus codec
        (l.align codec status).1.provingStatus statusStream) :=
      (hn.align codec hs status).greets hplain.1 fun he => absurd he hplain.2
    refine .quiet (.of_eq ?_ ?_ ?_ ?_ ?_ fun _ => hidle) ?_ (hgreets.of_eq ?_) ?_ rfl <;>
      simp only [Link.align] <;> split <;> simp
  | prove _ _ hs _ =>
    have hidle : l.isAligned = false := by simp [isAligned, hs]
    refine .quiet (.of_eq ?_ ?_ ?_ ?_ ?_ fun _ => hidle) rfl (greets_of_nil rfl) rfl rfl <;>
      simp only [Link.prove] <;> split <;> rfl
  | failed _ _ hs _ => exact hn.effect_failed (hf hs) (by simp) .peerStatus
  | startOver _ hs =>
    have hidle : l.isAligned = false := by simp [isAligned, hs]
    exact .quiet (.of_eq rfl rfl rfl rfl rfl fun _ => hidle) rfl (greets_of_nil rfl) rfl rfl
  | shorten _ hs =>
    exact .quiet (.of_eq rfl rfl rfl rfl rfl id) rfl (greets_of_nil rfl) rfl rfl
  | noteReady _ hs =>
    exact .quiet (.of_eq rfl rfl rfl rfl rfl id) rfl (greets_of_nil rfl) rfl rfl
  | enter _ hs =>
    have hidle : l.isAligned = false := by simp [isAligned, hs]
    have hready : Greets codec l (l.sendStatus codec .ready statusStream) :=
      hn.greets rfl fun _ => ⟨rfl, hidle, hf (by simp [hs])⟩
    exact .quiet (.of_eq rfl rfl rfl rfl rfl fun _ => hidle) (by simp [enterService])
      (hready.of_eq (by simp [enterService])) (by simp [enterService]) rfl
  | outage _ _ => exact absurd hfit.1 (by decide)
  | busy _ _ _ => exact absurd hfit.1 (by decide)
  | stillBusy _ _ _ => exact absurd hfit.1 (by decide)
  | busyEnded _ _ _ => exact absurd hfit.1 (by decide)
  | acknowledge _ hs ha =>
    cases ha with
    | ignored _ _ => exact .quiet (.rfl l) rfl (greets_of_nil rfl) rfl rfl
    | abnormal _ hstrict _ => cases hstrict
    | faulty _ hstrict _ _ => cases hstrict
    | repeated watch _ _ =>
      exact .quiet (.of_eq rfl rfl rfl rfl rfl id) rfl (greets_of_nil rfl) rfl rfl
    | advanced watch haccepts hstep =>
      obtain hno | hzero := hfit.2 rfl hs
      · exact absurd haccepts hno
      · exact absurd hzero (Nat.ne_of_gt hstep)
  | recover _ _ _ _ => exact absurd hfit.1 (by decide)

/-- Every call of a pair is one of the four things. -/
theorem StepMove.effect {l : Link} {now : ℕ} {call : Call} {r : Link × List Action}
    (h : StepMove codec l now call r) (hn : l.Numbered) (hw : l.InWindow) (hf : l.Fresh)
    (hp : l.Plain) (hfit : l.Fits call) : Effect codec l call r := by
  cases h with
  | established => exact hfit.elim
  | startIgnored _ => exact .quiet (.rfl l) rfl (greets_of_nil rfl) rfl rfl
  | started hs =>
    obtain ⟨hr, hacked, hout, hin⟩ := hfit hs
    have hgreets : Greets codec l (l.started.sendStatus codec .alignment statusStream) :=
      (hn.started hs).greets rfl (by simp)
    have hidle : l.isAligned = false := by simp [isAligned, hs]
    refine .quiet ⟨hacked.symm, hout.symm, hin.symm, ?_, fun _ _ => ⟨hidle, hr⟩⟩ ?_
      (hgreets.of_eq ?_) ?_ rfl
    · simp [Link.buffered, Link.started, hr]
    · unfold startActions
      split <;> simp
    · unfold startActions
      split <;> simp
    · unfold startActions
      split <;> simp
  | fail reason hm =>
    cases hm with
    | out _ => exact .quiet (.rfl l) rfl (greets_of_nil rfl) rfl rfl
    | failed hs => exact hn.effect_failed (hf hs) (by simp) reason
  | retrieve _ => exact hfit.elim
  | detach => exact hfit.elim
  | abandon => exact hfit.elim
  | send _ hm => exact hm.effect hn hf hp
  | timeout _ hm => exact hm.effect hn hf
  | onStatus _ _ hm => exact hm.effect hn hf hfit
  | onData _ _ _ hm => exact hm.effect hn hw hf hfit
  | flushIgnored _ => exact .quiet (.of_eq rfl rfl rfl rfl rfl id) rfl (greets_of_nil rfl) rfl rfl
  | flushed _ _ =>
    have hstill : Still l { l with ackDue := false } := .of_eq rfl rfl rfl rfl rfl id
    have hsendable : (M2paMessage.userData l.fsnIn l.fsnOut .empty).Sendable :=
      ⟨Nat.le_of_lt_succ hn.fsnIn_lt, Nat.le_of_lt_succ hn.fsnOut_lt, rfl⟩
    unfold sendFrame
    split
    next frame hframe =>
      exact .flushed frame hstill rfl (codec.decode_encode hsendable hframe) rfl rfl
    next => exact .quiet hstill rfl (greets_of_nil rfl) rfl rfl

/-! ## A link whose peer is never busy -/

theorem Plain.of_started {l : Link} (hs : l.state ≠ .processorOutage)
    (hb : l.remoteBusy = false) (hr : l.retrievable = none) : l.Plain :=
  ⟨hs, hb, by simp [hr]⟩

theorem Plain.unsent_nil {l : Link} (h : l.Plain) (hq : l.Queued) : l.unsent = [] := by
  cases ha : l.isAligned with
  | false => exact hq.idle_unsent ha
  | true =>
    have hs : l.state = .inService := by simpa [isAligned, h.state] using ha
    exact hq.calm hs h.busy

theorem Plain.failed {l : Link} (h : l.Plain) (hq : l.Queued) : l.failed.Plain := by
  refine ⟨by simp, rfl, fun held hr => ?_⟩
  obtain rfl : l.leave = held := Option.some.inj hr
  exact ⟨rfl, rfl, h.unsent_nil hq, rfl⟩

theorem ReceiveMove.plain {l : Link} {bsn fsn now : ℕ} {message : UserDataMessage}
    {r : Link × List Action} (h : ReceiveMove codec l bsn fsn message now r)
    (hp : l.Plain) (hq : l.Queued) (hr : l.retrievable = none) : r.1.Plain := by
  obtain hfailed | ⟨acked, unacked, watch, fsnIn, ackDue, hl⟩ := h.frame
  · rw [hfailed]
    exact hp.failed hq
  · rw [hl]
    exact .of_started hp.state hp.busy hr

theorem DataMove.plain {l : Link} {bsn fsn now : ℕ} {message : UserDataMessage}
    {r : Link × List Action} (h : DataMove codec l bsn fsn message now r)
    (hp : l.Plain) (hq : l.Queued) (hf : l.Fresh) : r.1.Plain := by
  cases h with
  | refused _ _ => exact hp
  | enter hs hm =>
    have hr : l.enterService.1.retrievable = none := hf (by simp [hs])
    have hidle : l.isAligned = false := by simp [isAligned, hs]
    have hentered : l.enterService.1.Queued :=
      .of_empty (hq.idle_unacked hidle) (hq.idle_unsent hidle) hp.busy
    exact hm.plain (.of_started (by simp [enterService]) hp.busy hr) hentered hr
  | received ha hm =>
    have hs : l.state ≠ .outOfService := by
      intro hs
      simp [isAligned, hs] at ha
    exact hm.plain hp hq (hf hs)

theorem TimeoutMove.plain {l : Link} {timer : Timer} {now : ℕ} {r : Link × List Action}
    (h : TimeoutMove codec l timer now r) (hp : l.Plain) (hq : l.Queued) (hf : l.Fresh) :
    r.1.Plain := by
  cases h with
  | stale _ => exact hp
  | failed _ _ => exact hp.failed hq
  | ready hs _ _ => exact .of_started (by simp) hp.busy (hf (by simp [hs]))
  | enter hs _ _ => exact .of_started (by simp [enterService]) hp.busy (hf (by simp [hs]))
  | repeatProving _ _ => exact hp
  | rearm _ _ _ => exact hp

theorem StatusMove.plain {l : Link} {status : Status} {bsn now : ℕ} {r : Link × List Action}
    (h : StatusMove codec l now status bsn r) (hp : l.Plain) (hq : l.Queued) (hf : l.Fresh)
    (hfit : l.Fits (.onStatus status bsn)) : r.1.Plain := by
  cases h with
  | ignored _ _ _ => exact hp
  | align _ _ hs _ =>
    refine .of_started (by simp [Link.align]) ?_ ?_ <;> simp only [Link.align] <;> split <;>
      first | exact hp.busy | exact hf (by simp [hs])
  | prove _ _ hs _ =>
    refine .of_started (by simp [Link.prove]) ?_ ?_ <;> simp only [Link.prove] <;> split <;>
      first | exact hp.busy | exact hf (by simp [hs])
  | failed _ _ _ _ => exact hp.failed hq
  | startOver _ hs => exact .of_started (by simp) hp.busy (hf (by simp [hs]))
  | shorten _ hs => exact .of_started hp.state hp.busy (hf (by simp [hs]))
  | noteReady _ hs => exact .of_started hp.state hp.busy (hf (by simp [hs]))
  | enter _ hs => exact .of_started (by simp [enterService]) hp.busy (hf (by simp [hs]))
  | outage _ _ => exact absurd hfit.1 (by decide)
  | busy _ _ _ => exact absurd hfit.1 (by decide)
  | stillBusy _ _ _ => exact hp
  | busyEnded _ _ _ => exact absurd hfit.1 (by decide)
  | acknowledge _ hs ha =>
    obtain ⟨acked, unacked, watch, hl⟩ := ha.frame_of_accepted ha.accepted
    rw [hl]
    exact .of_started hp.state hp.busy (hf (by simp [hs]))
  | recover _ _ _ _ => exact absurd hfit.1 (by decide)

theorem StepMove.plain {l : Link} {now : ℕ} {call : Call} {r : Link × List Action}
    (h : StepMove codec l now call r) (hp : l.Plain) (hq : l.Queued) (hf : l.Fresh)
    (hfit : l.Fits call) : r.1.Plain := by
  cases h with
  | established => exact hfit.elim
  | startIgnored _ => exact hp
  | started _ => exact .of_started (by simp [Link.started]) rfl rfl
  | fail _ hm =>
    cases hm with
    | out _ => exact hp
    | failed _ => exact hp.failed hq
  | retrieve _ => exact hfit.elim
  | detach => exact hfit.elim
  | abandon => exact hfit.elim
  | send _ hm =>
    cases hm with
    | transmitted hs _ ht =>
      obtain ⟨fsnOut, ackDue, unacked, hl⟩ := ht.frame
      rw [hl]
      exact .of_started hp.state hp.busy (hf (by simp [hs]))
    | congested _ _ _ => exact hp
    | queued _ _ _ => exact ⟨hp.state, hp.busy, fun held hr => by
        have hs : l.state ≠ .outOfService := by
          intro hs
          simp_all [isAligned]
        simp [hf hs] at hr⟩
    | refused _ => exact hp
  | timeout _ hm => exact hm.plain hp hq hf
  | onStatus _ _ hm => exact hm.plain hp hq hf hfit
  | onData _ _ _ hm => exact hm.plain hp hq hf
  | flushIgnored _ => exact ⟨hp.state, hp.busy, hp.held⟩
  | flushed _ _ => exact ⟨hp.state, hp.busy, hp.held⟩

end Link

end SiphonSigtran.M2pa
