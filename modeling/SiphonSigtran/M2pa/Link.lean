import SiphonSigtran.M2pa.Message

/-!
# Link state control

Level 2 of one M2PA link: initial alignment, the numbering and acknowledgement
of User Data, the retransmission buffer kept for changeover, remote processor
outage and remote congestion. The link owns no socket and no clock. Every
operation takes what happened, with the current instant, and gives the next link
and the actions it pushes, in order.

Instants and durations are counts of one unit of time. A 32-bit number is a `ℕ`
below `2 ^ 32`, the subtraction that wraps is written out, and `n & SEQ_MASK` is
`n % 0x1000000`.
-/

namespace SiphonSigtran.M2pa

def statusStream : ℕ := 0
def dataStream : ℕ := 1

/-- The distance from `a` forward to `b` on the 24-bit sequence circle. -/
def seqDistance (a b : ℕ) : ℕ := (b + 0x100000000 - a) % 0x100000000 % 0x1000000

/-- The low four bits of the SIO. -/
def serviceIndicator (msu : Msu) : Option ℕ := msu.head?.map fun sio => sio.toNat % 16

inductive Proving
  | normal | emergency
  deriving DecidableEq, Repr

structure LinkTimers where
  t1 : ℕ
  t2 : ℕ
  t3 : ℕ
  t4Normal : ℕ
  t4Emergency : ℕ
  t6 : ℕ
  t7 : ℕ
  provingInterval : ℕ
  deriving DecidableEq, Repr

/-- The defaults of Q.703 12.3, in milliseconds. -/
def LinkTimers.default : LinkTimers where
  t1 := 45000
  t2 := 30000
  t3 := 1500
  t4Normal := 8200
  t4Emergency := 500
  t6 := 4500
  t7 := 2000
  provingInterval := 100

inductive State
  | outOfService | notAligned | aligned | proving | alignedReady | inService | processorOutage
  deriving DecidableEq, Repr

inductive Timer
  | t1 | t2 | t3 | t4 | t6 | t7 | proving
  deriving DecidableEq, Repr

/-- Every timer, in index order. -/
def Timer.all : List Timer := [.t1, .t2, .t3, .t4, .t6, .t7, .proving]

inductive Failure
  | t1 | t2 | t3 | t6 | t7 | peerStatus | abnormalBsn | linkTest | association | stopped
  deriving DecidableEq, Repr

inductive Discard
  | rxOutOfSequence | rxNotInService | rxAbnormalBsn | txNotInService | txCongestion
  | txLostOnFailure | txFlushedByPeer | encode
  deriving DecidableEq, Repr

/-- What the caller has to do after an event. -/
inductive Action
  | send (frame : Frame) (stream : ℕ) (si : Option ℕ)
  | deliver (msu : Msu)
  | start (timer : Timer) (after : ℕ)
  | stop (timer : Timer)
  | inService
  | outOfService (reason : Failure)
  | remoteProcessorOutage (on : Bool)
  | discarded (reason : Discard) (count : ℕ)
  deriving DecidableEq, Repr

/-- A sent User Data message that the peer has not acknowledged. -/
structure Unacked where
  fsn : ℕ
  sentAt : ℕ
  msu : Msu
  deriving DecidableEq, Repr

/-- What a failed link still holds for the changeover procedure. -/
structure Retrievable where
  bsnt : ℕ
  acked : ℕ
  unacked : List (ℕ × Msu)
  unsent : List Msu
  deriving DecidableEq, Repr

structure Retrieval where
  resend : List Msu
  confirmed : ℕ
  unconfirmed : List Msu
  deriving DecidableEq, Repr

def Retrievable.len (r : Retrievable) : ℕ := r.unacked.length + r.unsent.length

/-- With an FSNC that names a message sent and still held, what follows it and then
what was never sent; without one, what was never sent only. -/
def Retrievable.retrieve (r : Retrievable) (fsnc : Option ℕ) : Retrieval :=
  let lastSent := (r.unacked.getLast?.map Prod.fst).getD r.acked
  let valid := fsnc.filter fun f =>
    seqDistance r.acked (f % 0x1000000) ≤ seqDistance r.acked lastSent
  match valid with
  | some fsnc =>
    let accepted := seqDistance r.acked (fsnc % 0x1000000)
    { resend := (r.unacked.filter fun u => seqDistance r.acked u.1 > accepted).map Prod.snd ++
        r.unsent
      confirmed := (r.unacked.filter fun u => ¬ seqDistance r.acked u.1 > accepted).length
      unconfirmed := [] }
  | none => { resend := r.unsent, confirmed := 0, unconfirmed := r.unacked.map Prod.snd }

structure Link where
  timers : LinkTimers
  proving : Proving
  txQueue : ℕ
  state : State
  useEmergency : Bool
  peerReady : Bool
  fsnOut : ℕ
  fsnIn : ℕ
  acked : ℕ
  bsnWatch : ℕ
  remoteBusy : Bool
  ackDue : Bool
  unacked : List Unacked
  unsent : List Msu
  retrievable : Option Retrievable
  deriving DecidableEq, Repr

namespace Link

def new (timers : LinkTimers) (proving : Proving) (txQueue : ℕ) : Link where
  timers := timers
  proving := proving
  txQueue := txQueue
  state := .outOfService
  useEmergency := proving = .emergency
  peerReady := false
  fsnOut := seqMask
  fsnIn := seqMask
  acked := seqMask
  bsnWatch := 0
  remoteBusy := false
  ackDue := false
  unacked := []
  unsent := []
  retrievable := none

/-- In service at level 2, processor outage at the peer included. -/
def isAligned (l : Link) : Bool := l.state = .inService || l.state = .processorOutage

/-! ## Frames -/

def sendFrame (codec : Codec) (message : M2paMessage) (stream : ℕ) (si : Option ℕ) :
    List Action :=
  match codec.encode message with
  | some frame => [.send frame stream si]
  | none => [.discarded .encode 1]

def sendStatus (codec : Codec) (l : Link) (status : Status) (stream : ℕ) : List Action :=
  sendFrame codec (.linkStatus l.fsnIn l.fsnOut status) stream none

def provingStatus (l : Link) : Status :=
  match l.proving with
  | .normal => .provingNormal
  | .emergency => .provingEmergency

def t4 (l : Link) : ℕ := if l.useEmergency then l.timers.t4Emergency else l.timers.t4Normal

/-! ## Failure and retrieval -/

/-- What the link holds, as a failure leaves it for retrieval. -/
def leave (l : Link) : Retrievable where
  bsnt := l.fsnIn
  acked := l.acked
  unacked := l.unacked.map fun u => (u.fsn, u.msu)
  unsent := l.unsent

def fail (codec : Codec) (l : Link) (reason : Failure) : Link × List Action :=
  if l.state = .outOfService then (l, [])
  else
    ({ l with
        retrievable := some l.leave
        unacked := []
        unsent := []
        state := .outOfService
        remoteBusy := false
        ackDue := false
        peerReady := false },
      Timer.all.map .stop ++
        -- There is nothing to send it on when the association is what failed.
        (if reason = .association then [] else l.sendStatus codec .outOfService statusStream) ++
        [.outOfService reason])

def bsnt (l : Link) : ℕ :=
  match l.retrievable with
  | some r => r.bsnt
  | none => l.fsnIn

def retrieve (l : Link) (fsnc : Option ℕ) : Link × List Msu :=
  match l.retrievable with
  | some held => ({ l with retrievable := none }, (held.retrieve fsnc).resend)
  | none => (l, [])

def detach (l : Link) : Link × Option Retrievable :=
  ({ l with retrievable := none }, l.retrievable)

def abandon (l : Link) : Link × ℕ :=
  ({ l with retrievable := none }, (l.retrievable.map Retrievable.len).getD 0)

/-! ## Start -/

def established (codec : Codec) (l : Link) : Link × List Action :=
  (l, l.sendStatus codec .outOfService statusStream)

def start (codec : Codec) (l : Link) : Link × List Action :=
  if l.state ≠ .outOfService then (l, [])
  else
    let count := l.abandon.2
    let l := { l.abandon.1 with
      fsnOut := seqMask
      fsnIn := seqMask
      acked := seqMask
      bsnWatch := 0
      remoteBusy := false
      ackDue := false
      peerReady := false
      useEmergency := l.proving = .emergency
      state := .notAligned }
    (l, (if count > 0 then [.discarded .txLostOnFailure count] else []) ++
      l.sendStatus codec .alignment statusStream ++ [.start .t2 l.timers.t2])

def enterService (l : Link) : Link × List Action :=
  ({ l with state := .inService, peerReady := false }, [.stop .t1, .inService])

/-! ## User Data -/

/-- Number, send and keep one MSU. -/
def transmit (codec : Codec) (l : Link) (msu : Msu) (now : ℕ) : Link × List Action :=
  let fsn := (l.fsnOut + 1) % 0x1000000
  let si := serviceIndicator msu
  match codec.encode (.userData l.fsnIn fsn ⟨0, msu⟩) with
  | some frame =>
    -- The message carries the BSN: it is the acknowledgement.
    ({ l with fsnOut := fsn, ackDue := false, unacked := l.unacked ++ [⟨fsn, now, msu⟩] },
      .send frame dataStream si ::
        (if l.unacked.isEmpty then [.start .t7 l.timers.t7] else []))
  | none => (l, [.discarded .encode 1])

/-- Pop and transmit the MSUs of the queue, one after the other. -/
def transmitQueue (codec : Codec) (now : ℕ) : List Msu → Link → Link × List Action
  | [], l => (l, [])
  | msu :: rest, l =>
    let first := { l with unsent := rest }.transmit codec msu now
    let others := transmitQueue codec now rest first.1
    (others.1, first.2 ++ others.2)

def flushUnsent (codec : Codec) (l : Link) (now : ℕ) : Link × List Action :=
  transmitQueue codec now l.unsent l

/-- (Re)start T7 for the oldest unacknowledged message, or stop it. -/
def armT7 (l : Link) (now : ℕ) : List Action :=
  match l.unacked.head? with
  | some oldest => [.start .t7 (oldest.sentAt + l.timers.t7 - now)]
  | none => [.stop .t7]

/-- T7 afresh for everything still unacknowledged. -/
def restartT7 (l : Link) (now : ℕ) : Link × List Action :=
  ({ l with unacked := l.unacked.map fun u => { u with sentAt := now } },
    if l.unacked.isEmpty then [] else [.start .t7 l.timers.t7])

/-- Release from the front what the BSN acknowledges: less than half a circle behind it. -/
def popAcknowledged (bsn : ℕ) (unacked : List Unacked) : List Unacked :=
  unacked.dropWhile fun u => decide (seqDistance u.fsn bsn < seqMask / 2)

/-- Apply a received BSN. The answer is `false` when the message that carried it is
to be discarded or the link failed on it. -/
def acknowledge (codec : Codec) (l : Link) (bsn : ℕ) (strict : Bool) (now : ℕ) :
    Link × List Action × Bool :=
  let bsn := bsn % 0x1000000
  let outstanding := seqDistance l.acked l.fsnOut
  let step := seqDistance l.acked bsn
  if step > outstanding then
    if !strict then (l, [], true)
    else if l.bsnWatch > 0 then
      let failed := l.fail codec .abnormalBsn
      (failed.1, .discarded .rxAbnormalBsn 1 :: failed.2, false)
    else ({ l with bsnWatch := 2 }, [.discarded .rxAbnormalBsn 1], false)
  else
    let l := if strict then { l with bsnWatch := l.bsnWatch - 1 } else l
    if step > 0 then
      let l := { l with acked := bsn, unacked := popAcknowledged bsn l.unacked }
      (l, if l.state = .inService ∧ l.remoteBusy = false then l.armT7 now else [], true)
    else (l, [], true)

def send (codec : Codec) (l : Link) (msu : Msu) (now : ℕ) : Link × List Action :=
  match l.state with
  | .inService | .processorOutage =>
    if l.state = .inService ∧ l.remoteBusy = false then l.transmit codec msu now
    else if l.unsent.length ≥ l.txQueue then (l, [.discarded .txCongestion 1])
    else ({ l with unsent := l.unsent ++ [msu] }, [])
  | _ => (l, [.discarded .txNotInService 1])

/-! ## Timers -/

def timeout (codec : Codec) (l : Link) (timer : Timer) (now : ℕ) : Link × List Action :=
  match timer, l.state with
  | .t2, .notAligned => l.fail codec .t2
  | .t3, .aligned => l.fail codec .t3
  | .t4, .proving =>
    let ready := .stop .proving :: l.sendStatus codec .ready statusStream
    if l.peerReady then
      let entered := l.enterService
      (entered.1, ready ++ entered.2)
    else ({ l with state := .alignedReady }, ready ++ [.start .t1 l.timers.t1])
  | .proving, .proving =>
    (l, l.sendStatus codec l.provingStatus statusStream ++
      [.start .proving l.timers.provingInterval])
  | .t1, .alignedReady => l.fail codec .t1
  | .t6, .inService | .t6, .processorOutage =>
    if l.remoteBusy then l.fail codec .t6 else (l, [])
  | .t7, .inService =>
    match l.unacked.head? with
    | some oldest =>
      if now - oldest.sentAt ≥ l.timers.t7 then l.fail codec .t7 else (l, l.armT7 now)
    | none => (l, [])
  -- A timer of a state the link has left.
  | _, _ => (l, [])

/-! ## Messages from the peer -/

/-- Not aligned, and the peer is aligning: answer with our own proving status. -/
def align (codec : Codec) (l : Link) (status : Status) : Link × List Action :=
  let l := if status = .provingEmergency then { l with useEmergency := true } else l
  let l := { l with state := .aligned }
  (l, .stop .t2 :: l.sendStatus codec l.provingStatus statusStream ++ [.start .t3 l.timers.t3])

/-- Aligned, and the peer is proving. -/
def prove (l : Link) (status : Status) : Link × List Action :=
  let l := if status = .provingEmergency then { l with useEmergency := true } else l
  let l := { l with state := .proving }
  (l, [.stop .t3, .start .t4 l.t4, .start .proving l.timers.provingInterval])

/-- The first Busy of the peer. -/
def becomeBusy (l : Link) : Link × List Action :=
  if l.remoteBusy then (l, [])
  else ({ l with remoteBusy := true },
    .stop .t7 :: if l.unacked.isEmpty then [] else [.start .t6 l.timers.t6])

def endBusy (codec : Codec) (l : Link) (now : ℕ) : Link × List Action :=
  if !l.remoteBusy then (l, [])
  else
    let l := { l with remoteBusy := false }
    if l.state = .inService then
      let restarted := l.restartT7 now
      let flushed := restarted.1.flushUnsent codec now
      (flushed.1, .stop .t6 :: restarted.2 ++ flushed.2)
    else (l, [.stop .t6])

/-- The peer recovered from processor outage, and its BSN was applied: what it did not
keep is gone. -/
def resume (codec : Codec) (l : Link) (now : ℕ) : Link × List Action :=
  let flushedByPeer : List Action :=
    if l.unacked.isEmpty then [] else [.discarded .txFlushedByPeer l.unacked.length]
  let l := { l with unacked := [], fsnOut := l.acked, state := .inService }
  let ready := l.sendStatus codec .ready dataStream ++ [.remoteProcessorOutage false]
  let flushed := if l.remoteBusy then (l, []) else l.flushUnsent codec now
  (flushed.1, flushedByPeer ++ ready ++ flushed.2)

def recover (codec : Codec) (l : Link) (bsn now : ℕ) : Link × List Action :=
  let acknowledged := l.acknowledge codec bsn false now
  let resumed := acknowledged.1.resume codec now
  (resumed.1, acknowledged.2.1 ++ resumed.2)

def onStatus (codec : Codec) (l : Link) (status : Status) (bsn now : ℕ) : Link × List Action :=
  match l.state, status with
  | .outOfService, _ => (l, [])
  | .notAligned, .alignment | .notAligned, .provingNormal | .notAligned, .provingEmergency =>
    l.align codec status
  | .notAligned, _ => (l, [])
  | .aligned, .provingNormal | .aligned, .provingEmergency => l.prove status
  | .aligned, .outOfService | .proving, .outOfService => l.fail codec .peerStatus
  | .aligned, _ => (l, [])
  -- The peer started over.
  | .proving, .alignment =>
    ({ l with state := .aligned }, [.stop .t4, .stop .proving, .start .t3 l.timers.t3])
  | .proving, .provingEmergency =>
    if !l.useEmergency then
      let l := { l with useEmergency := true }
      (l, [.start .t4 l.t4])
    else (l, [])
  -- The peer finished proving first. It says so once.
  | .proving, .ready => ({ l with peerReady := true }, [])
  | .proving, _ => (l, [])
  | .alignedReady, .ready =>
    let entered := l.enterService
    (entered.1, l.sendStatus codec .ready statusStream ++ entered.2)
  | .alignedReady, .processorOutage | .inService, .processorOutage =>
    ({ l with state := .processorOutage },
      [.stop .t1, .stop .t7, .remoteProcessorOutage true])
  | .alignedReady, .alignment | .alignedReady, .outOfService => l.fail codec .peerStatus
  | .alignedReady, _ => (l, [])
  | .inService, .alignment | .inService, .provingNormal | .inService, .provingEmergency
  | .inService, .outOfService | .processorOutage, .alignment | .processorOutage, .provingNormal
  | .processorOutage, .provingEmergency | .processorOutage, .outOfService =>
    l.fail codec .peerStatus
  | .inService, .busy | .processorOutage, .busy => l.becomeBusy
  | .inService, .busyEnded | .processorOutage, .busyEnded => l.endBusy codec now
  | .inService, .ready =>
    let acknowledged := l.acknowledge codec bsn false now
    (acknowledged.1, acknowledged.2.1)
  | .inService, .processorRecovered => (l, [])
  | .processorOutage, .processorRecovered => l.recover codec bsn now
  | .processorOutage, .ready | .processorOutage, .processorOutage => (l, [])

/-- A User Data message at a link in service. An empty one is an acknowledgement. -/
def receive (codec : Codec) (l : Link) (bsn fsn : ℕ) (message : UserDataMessage) (now : ℕ) :
    Link × List Action :=
  let acknowledged := l.acknowledge codec bsn true now
  let l := acknowledged.1
  let out := acknowledged.2.1
  if !acknowledged.2.2 then (l, out)
  else if message.isEmpty then (l, out)
  else if fsn % 0x1000000 ≠ (l.fsnIn + 1) % 0x1000000 then
    (l, out ++ [.discarded .rxOutOfSequence 1])
  else ({ l with fsnIn := fsn % 0x1000000, ackDue := true }, out ++ [.deliver message.msu])

def onData (codec : Codec) (l : Link) (bsn fsn : ℕ) (message : UserDataMessage) (now : ℕ) :
    Link × List Action :=
  match l.state with
  -- A signal unit from the peer means it is in service.
  | .alignedReady =>
    let entered := l.enterService
    let received := entered.1.receive codec bsn fsn message now
    (received.1, entered.2 ++ received.2)
  | .inService | .processorOutage => l.receive codec bsn fsn message now
  | _ => (l, if message.isEmpty then [] else [.discarded .rxNotInService 1])

/-- Acknowledge what was received, if nothing sent since has done so. -/
def flushAck (codec : Codec) (l : Link) : Link × List Action :=
  let due := l.ackDue
  let l := { l with ackDue := false }
  if !due || !l.isAligned then (l, [])
  else (l, sendFrame codec (.userData l.fsnIn l.fsnOut .empty) dataStream none)

/-! ## Calls -/

/-- An operation of the link. -/
inductive Call
  | established
  | start
  | fail (reason : Failure)
  | retrieve (fsnc : Option ℕ)
  | detach
  | abandon
  | send (msu : Msu)
  | timeout (timer : Timer)
  | onStatus (status : Status) (bsn : ℕ)
  | onData (bsn fsn : ℕ) (message : UserDataMessage)
  | flushAck
  deriving DecidableEq, Repr

/-- A call and the instant of it. -/
structure Event where
  now : ℕ
  call : Call
  deriving DecidableEq, Repr

def step (codec : Codec) (l : Link) (e : Event) : Link × List Action :=
  match e.call with
  | .established => l.established codec
  | .start => l.start codec
  | .fail reason => l.fail codec reason
  | .retrieve fsnc => ((l.retrieve fsnc).1, [])
  | .detach => (l.detach.1, [])
  | .abandon => (l.abandon.1, [])
  | .send msu => l.send codec msu e.now
  | .timeout timer => l.timeout codec timer e.now
  | .onStatus status bsn => l.onStatus codec status bsn e.now
  | .onData bsn fsn message => l.onData codec bsn fsn message e.now
  | .flushAck => l.flushAck codec

/-- Alignment with a peer that finishes proving first, into service. -/
def bringUp : List Event :=
  [⟨0, .start⟩, ⟨1, .onStatus .alignment seqMask⟩, ⟨2, .onStatus .provingNormal seqMask⟩,
    ⟨3, .onStatus .ready seqMask⟩, ⟨8202, .timeout .t4⟩]

end Link

end SiphonSigtran.M2pa
