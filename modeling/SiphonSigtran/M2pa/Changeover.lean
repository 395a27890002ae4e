import SiphonSigtran.Lib.Channel
import SiphonSigtran.M2pa.LinkPair

/-!
# Changeover between two ends

Both ends of an association count the same messages. What one of them keeps for
retrieval begins after the last message it saw acknowledged, what the other one
delivered is the beginning of what the first accepted, and what is on the way
carries both counts forward. So when the links have failed, the messages that
follow the number of the last one delivered are exactly those to send again.
-/

namespace SiphonSigtran.M2pa

open Link Lib.Serial Lib.Channel Lib.Machine

variable {codec : Codec}

/-! ## What is on the way -/

/-- A data frame on the way to an end that took the first `m` messages: it acknowledges only,
or carries a later message with its number. -/
def Conveys (codec : Codec) (accepted : List Msu) (m : ℕ) (frame : Frame) (n : ℕ) : Prop :=
  ∃ bsn fsn message, codec.decode frame = some (.userData bsn fsn message) ∧
    m ≤ n ∧ n ≤ accepted.length ∧
    (message.isEmpty = false → m < n ∧ fsn = last 0x1000000 n ∧
      accepted[n - 1]? = some message.msu)

/-- A data frame on the way to an end that knows `m` of its messages to have arrived: it names
the last of these, or a later one of the `arrived`. -/
def Confirms (codec : Codec) (arrived m : ℕ) (frame : Frame) (n : ℕ) : Prop :=
  ∃ bsn fsn message, codec.decode frame = some (.userData bsn fsn message) ∧
    m ≤ n ∧ n ≤ arrived ∧ bsn = last 0x1000000 n

theorem Conveys.weaken {accepted : List Msu} {l m n : ℕ} {f : Frame} (hlm : l ≤ m)
    (h : Conveys codec accepted m f n) : Conveys codec accepted l f n := by
  obtain ⟨bsn, fsn, message, hdecode, hmn, hn, hmessage⟩ := h
  refine ⟨bsn, fsn, message, hdecode, hlm.trans hmn, hn, fun he => ?_⟩
  obtain ⟨hlt, hrest⟩ := hmessage he
  exact ⟨hlm.trans_lt hlt, hrest⟩

theorem Conveys.le {accepted : List Msu} {m n : ℕ} {f : Frame}
    (h : Conveys codec accepted m f n) : m ≤ n ∧ n ≤ accepted.length := by
  obtain ⟨_, _, _, _, hmn, hn, _⟩ := h
  exact ⟨hmn, hn⟩

theorem Conveys.append {accepted : List Msu} {m n : ℕ} {f : Frame}
    (h : Conveys codec accepted m f n) (more : List Msu) :
    Conveys codec (accepted ++ more) m f n := by
  obtain ⟨bsn, fsn, message, hdecode, hmn, hn, hmessage⟩ := h
  refine ⟨bsn, fsn, message, hdecode, hmn, by simp; omega, fun he => ?_⟩
  obtain ⟨hlt, hfsn, hmsu⟩ := hmessage he
  refine ⟨hlt, hfsn, ?_⟩
  rw [List.getElem?_append_left (by omega)]
  exact hmsu

theorem Confirms.weaken {arrived l m n : ℕ} {f : Frame} (hlm : l ≤ m)
    (h : Confirms codec arrived m f n) : Confirms codec arrived l f n := by
  obtain ⟨bsn, fsn, message, hdecode, hmn, hn, hbsn⟩ := h
  exact ⟨bsn, fsn, message, hdecode, hlm.trans hmn, hn, hbsn⟩

theorem Confirms.le {arrived m n : ℕ} {f : Frame} (h : Confirms codec arrived m f n) :
    m ≤ n ∧ n ≤ arrived := by
  obtain ⟨_, _, _, _, hmn, hn, _⟩ := h
  exact ⟨hmn, hn⟩

theorem Confirms.more {arrived arrived' m n : ℕ} {f : Frame} (h : Confirms codec arrived m f n)
    (hle : arrived ≤ arrived') : Confirms codec arrived' m f n := by
  obtain ⟨bsn, fsn, message, hdecode, hmn, hn, hbsn⟩ := h
  exact ⟨bsn, fsn, message, hdecode, hmn, hn.trans hle, hbsn⟩

/-- A status frame of this implementation. The Ready comes from before any delivery. -/
def Greeting (codec : Codec) (frame : Frame) : Prop :=
  ∃ bsn fsn status, codec.decode frame = some (.linkStatus bsn fsn status) ∧
    status.plain = true ∧ (status = .ready → bsn = last 0x1000000 0)

/-! ## One direction -/

/-- What goes from `x` to `y`, of which `x` knows that the first `a` arrived. -/
structure Flow (codec : Codec) (x y : Side) (a : ℕ) : Prop where
  known : a ≤ y.delivered.length
  delivered : y.delivered <+: x.accepted
  acked : x.link.acked = last 0x1000000 a
  fsnOut : x.link.fsnOut = last 0x1000000 x.accepted.length
  fsnIn : y.link.fsnIn = last 0x1000000 y.delivered.length
  buffered : x.link.buffered = number 0x1000000 a (x.accepted.drop a)
  window : x.accepted.length ≤ a + 0x7FFFFF
  messages : Ascending (Conveys codec x.accepted) y.delivered.length y.dataIn
  confirmations : Ascending (Confirms codec y.delivered.length) a x.dataIn
  greetings : ∀ frame ∈ x.statusIn, Greeting codec frame

/-- An end with a sound link, that sent and took nothing unless it was in service. -/
structure Sound (x : Side) : Prop where
  numbered : x.link.Numbered
  inWindow : x.link.InWindow
  queued : x.link.Queued
  fresh : x.link.Fresh
  plain : x.link.Plain
  idle : x.link.isAligned = false → x.link.retrievable = none →
    x.accepted = [] ∧ x.delivered = []

theorem Flow.delivered_le {x y : Side} {a : ℕ} (h : Flow codec x y a) :
    y.delivered.length ≤ x.accepted.length := h.delivered.length_le

namespace Side

@[simp] theorem taken_link (x : Side) (op : Op) : (x.taken op).link = x.link := by
  cases op <;> rfl
@[simp] theorem taken_accepted (x : Side) (op : Op) : (x.taken op).accepted = x.accepted := by
  cases op <;> rfl
@[simp] theorem taken_delivered (x : Side) (op : Op) : (x.taken op).delivered = x.delivered := by
  cases op <;> rfl

theorem mem_taken {x : Side} {op : Op} {frame : Frame} (h : frame ∈ (x.taken op).statusIn) :
    frame ∈ x.statusIn := by
  cases op <;> first | exact h | exact List.mem_of_mem_tail h

theorem ascending_taken {x : Side} (op : Op) {R : ℕ → Frame → ℕ → Prop} {m : ℕ}
    (hle : ∀ m f n, R m f n → m ≤ n) (hweaken : ∀ l m f n, l ≤ m → R m f n → R l f n)
    (h : Ascending R m x.dataIn) : Ascending R m (x.taken op).dataIn := by
  cases op with
  | arriveData => exact h.tail fun l f m g n hf => hweaken l m g n (hle l f m hf)
  | _ => exact h

/-- A message that an end takes is the oldest of its data channel. -/
theorem call_onData {x y : Side} {a : ℕ} {op : Op} {bsn fsn : ℕ} {message : UserDataMessage}
    (hxy : Flow codec x y a) (h : x.call codec op = some (.onData bsn fsn message)) :
    ∃ frame rest, x.dataIn = frame :: rest ∧ (x.taken op).dataIn = rest ∧
      codec.decode frame = some (.userData bsn fsn message) := by
  cases op with
  | arriveData =>
    cases hd : x.dataIn with
    | nil => simp [call, hd] at h
    | cons frame rest =>
      refine ⟨frame, rest, rfl, by simp [taken, hd], ?_⟩
      simp only [call, hd, List.head?_cons, Option.bind_some, received] at h
      split at h <;> simp_all
  | arriveStatus =>
    cases hd : x.statusIn with
    | nil => simp [call, hd] at h
    | cons frame rest =>
      obtain ⟨_, _, _, hdecode, _⟩ := hxy.greetings frame (by simp [hd])
      simp [call, hd, received, hdecode] at h
  | _ => simp [call] at h

/-- Only an arrival on an empty channel is nothing. -/
theorem taken_of_call_none {x y : Side} {a : ℕ} {op : Op} (hxy : Flow codec x y a)
    (h : x.call codec op = none) : x.taken op = x := by
  cases op with
  | arriveData =>
    cases hd : x.dataIn with
    | nil =>
      have htail : x.dataIn.tail = x.dataIn := by simp [hd]
      simp only [taken, htail]
    | cons frame rest =>
      have hconfirm := hxy.confirmations
      rw [hd] at hconfirm
      obtain ⟨_, ⟨_, _, _, hdecode, _⟩, -⟩ := hconfirm
      simp [call, hd, received, hdecode] at h
  | arriveStatus =>
    cases hd : x.statusIn with
    | nil =>
      have htail : x.statusIn.tail = x.statusIn := by simp [hd]
      simp only [taken, htail]
    | cons frame rest =>
      obtain ⟨_, _, _, hdecode, _⟩ := hxy.greetings frame (by simp [hd])
      simp [call, hd, received, hdecode] at h
  | _ => simp [call] at h

end Side

/-! ## Steps -/

theorem Flow.confirmations_taken {x y : Side} {a : ℕ} (h : Flow codec x y a) (op : Op) :
    Ascending (Confirms codec y.delivered.length) a (x.taken op).dataIn :=
  Side.ascending_taken op (fun _ _ _ hc => hc.le.1) (fun _ _ _ _ hle hc => hc.weaken hle)
    h.confirmations

theorem Flow.messages_taken {x y : Side} {a : ℕ} (h : Flow codec x y a) (op : Op) :
    Ascending (Conveys codec x.accepted) y.delivered.length (y.taken op).dataIn :=
  Side.ascending_taken op (fun _ _ _ hc => hc.le.1) (fun _ _ _ _ hle hc => hc.weaken hle)
    h.messages

/-- The flow from the end that acts, and leaves its buffer as it is. -/
theorem Flow.still {x y : Side} {a : ℕ} (h : Flow codec x y a) {op : Op} {call : Call}
    {r : Link × List Action} (hs : Still x.link r.1) (haccepted : acceptedBy call r.2 = [])
    (hdata : Ascending (Conveys codec x.accepted) y.delivered.length
      (y.dataIn ++ framesOn dataStream r.2)) :
    Flow codec ((x.taken op).after call r) (y.reached r.2) a := by
  have hacc : ((x.taken op).after call r).accepted = x.accepted := by
    simp [Side.after, haccepted]
  refine ⟨h.known, ?_, hs.acked.trans h.acked, ?_, h.fsnIn, ?_, ?_, ?_, h.confirmations_taken op,
    fun frame hmem => h.greetings frame (Side.mem_taken hmem)⟩
  · rw [hacc]
    exact h.delivered
  · rw [hacc]
    exact hs.fsnOut.trans h.fsnOut
  · rw [hacc]
    exact hs.buffered.trans h.buffered
  · rw [hacc]
    exact h.window
  · rw [hacc]
    exact hdata

/-- A frame that carries no message changes nothing of what is on the way. -/
theorem Flow.messages_push {x y : Side} {a : ℕ} (h : Flow codec x y a) {frame : Frame}
    {bsn fsn : ℕ} (hframe : codec.decode frame = some (.userData bsn fsn .empty)) :
    Ascending (Conveys codec x.accepted) y.delivered.length (y.dataIn ++ [frame]) := by
  refine h.messages.push x.accepted.length (fun _ _ _ => id) (fun _ _ _ hc => hc.le.2)
    (fun m hm => ⟨m, _, _, _, hframe, le_rfl, hm, by simp [UserDataMessage.isEmpty,
      UserDataMessage.empty]⟩) h.delivered_le

/-- The flow from the end that acts. -/
theorem Flow.sender {x y : Side} {a : ℕ} (h : Flow codec x y a) {op : Op} {call : Call}
    {r : Link × List Action} (hcall : x.call codec op = some call)
    (he : Effect codec x.link call r)
    (hwindow : r.1.isAligned = true → r.1.buffered.length ≤ 0x7FFFFF) :
    ∃ a', Flow codec ((x.taken op).after call r) (y.reached r.2) a' := by
  cases he with
  | quiet hs hdata _ _ haccepted =>
    refine ⟨a, h.still hs haccepted ?_⟩
    rw [hdata, List.append_nil]
    exact h.messages
  | flushed frame hs hdata hframe _ _ =>
    refine ⟨a, h.still hs rfl ?_⟩
    rw [hdata]
    exact h.messages_push hframe
  | @sent msu r frame hacked hin hout hbuffered haligned hdata hframe _ _ haccepted =>
    have hacc : ((x.taken op).after (.send msu) r).accepted = x.accepted ++ [msu] := by
      simp [Side.after, haccepted]
    have hlast : (x.link.fsnOut + 1) % 0x1000000 = last 0x1000000 (x.accepted.length + 1) := by
      rw [h.fsnOut, last_add_one]
    have hle := h.delivered_le
    have hknown := h.known
    refine ⟨a, h.known, ?_, hacked.trans h.acked, ?_, h.fsnIn, ?_, ?_, ?_,
      h.confirmations_taken op, fun frame hmem => h.greetings frame (Side.mem_taken hmem)⟩
    · rw [hacc]
      exact h.delivered.trans (List.prefix_append _ _)
    · rw [hacc, List.length_append, List.length_singleton]
      exact hout.trans hlast
    · rw [hacc]
      change r.1.buffered = _
      rw [hbuffered, h.buffered, hlast, List.drop_append_of_le_length (by omega), number_append,
        List.length_drop, show a + (x.accepted.length - a) = x.accepted.length by omega]
      rfl
    · have hlen := hwindow haligned
      rw [hbuffered, h.buffered, List.length_append, length_number, List.length_drop,
        List.length_singleton] at hlen
      rw [hacc, List.length_append, List.length_singleton]
      omega
    · rw [hacc]
      change Ascending _ _ (y.dataIn ++ framesOn dataStream r.2)
      rw [hdata]
      refine h.messages.push x.accepted.length (fun _ _ _ hc => hc.append [msu])
        (fun _ _ _ hc => hc.le.2) (fun m hm => ⟨x.accepted.length + 1, _, _, _, hframe, by omega,
          by simp, fun _ => ⟨by omega, hlast, by simp⟩⟩) hle
  | @received bsn fsn message r haccepts hacked hout hbuffered haligned hframes _ =>
    obtain ⟨frame, rest, hd, htaken, hdecode⟩ := Side.call_onData h hcall
    have hconfirm := h.confirmations
    rw [hd] at hconfirm
    obtain ⟨n, ⟨bsn', fsn', message', hdecode', han, hn, hbsn⟩, hrest⟩ := hconfirm
    rw [hdecode] at hdecode'
    cases hdecode'
    have hmod : bsn % 0x1000000 = bsn := by
      rw [hbsn]
      exact Nat.mod_eq_of_lt (last_lt (by decide) n)
    have hwin := h.window
    have hle := h.delivered_le
    have hgap : seqDistance x.link.acked (bsn % 0x1000000) = n - a := by
      rw [hmod, h.acked, seqDistance_eq_gap (last_lt (by decide) a), hbsn,
        gap_last (by decide) han (by omega)]
    have hacc : ((x.taken op).after (.onData bsn fsn message) r).accepted = x.accepted := by
      simp [Side.after, acceptedBy]
    refine ⟨n, hn, ?_, ?_, ?_, h.fsnIn, ?_, ?_, ?_, ?_,
      fun frame hmem => h.greetings frame (Side.mem_taken hmem)⟩
    · rw [hacc]
      exact h.delivered
    · exact hacked.trans (hmod.trans hbsn)
    · rw [hacc]
      exact hout.trans h.fsnOut
    · rw [hacc]
      change r.1.buffered = _
      rw [hbuffered, hgap, h.buffered, drop_number, List.drop_drop,
        show a + (n - a) = n by omega]
    · rw [hacc]
      omega
    · rw [hacc]
      change Ascending _ _ (y.dataIn ++ framesOn dataStream r.2)
      rw [hframes, List.append_nil]
      exact h.messages
    · change Ascending _ _ (x.taken op).dataIn
      rw [htaken]
      exact hrest

theorem Flow.greetings_reached {x y : Side} {a : ℕ} (h : Flow codec x y a) (hy : Sound y)
    {out : List Action} (hg : Greets codec y.link out) :
    ∀ frame ∈ (x.reached out).statusIn, Greeting codec frame := by
  intro frame hmem
  obtain hmem | hmem := List.mem_append.mp hmem
  · exact h.greetings frame hmem
  · obtain ⟨bsn, fsn, status, hdecode, hplain, hready⟩ := hg frame hmem
    refine ⟨bsn, fsn, status, hdecode, hplain, fun hr => ?_⟩
    obtain ⟨hbsn, hidle, hnone⟩ := hready hr
    rw [hbsn, h.fsnIn, (hy.idle hidle hnone).2]
    rfl

/-- One more frame from the end that takes the messages, which names the last it took. -/
theorem Flow.confirmations_push {x y : Side} {a : ℕ} (h : Flow codec x y a) {frame : Frame}
    {fsn : ℕ} {message : UserDataMessage}
    (hframe : codec.decode frame = some (.userData y.link.fsnIn fsn message)) :
    Ascending (Confirms codec y.delivered.length) a (x.dataIn ++ [frame]) :=
  h.confirmations.push y.delivered.length (fun _ _ _ => id) (fun _ _ _ hc => hc.le.2)
    (fun _ hm => ⟨y.delivered.length, _, _, _, hframe, hm, le_rfl, h.fsnIn⟩) h.known

/-- The flow to the end that acts, and takes no message. -/
theorem Flow.idle {x y : Side} {a : ℕ} (h : Flow codec x y a) (hy : Sound y) {op : Op}
    {call : Call} {r : Link × List Action} (hin : r.1.fsnIn = y.link.fsnIn)
    (hdelivered : deliveries r.2 = []) (hstatus : Greets codec y.link r.2)
    (hdata : Ascending (Confirms codec y.delivered.length) a
      (x.dataIn ++ framesOn dataStream r.2)) :
    Flow codec (x.reached r.2) ((y.taken op).after call r) a := by
  have hdel : ((y.taken op).after call r).delivered = y.delivered := by
    simp [Side.after, hdelivered]
  refine ⟨?_, ?_, h.acked, h.fsnOut, ?_, h.buffered, h.window, ?_, ?_,
    h.greetings_reached hy hstatus⟩
  · rw [hdel]
    exact h.known
  · rw [hdel]
    exact h.delivered
  · rw [hdel]
    exact hin.trans h.fsnIn
  · rw [hdel]
    exact h.messages_taken op
  · rw [hdel]
    exact hdata

/-- The flow to the end that acts. -/
theorem Flow.receiver {x y : Side} {a b : ℕ} (h : Flow codec x y a) (hback : Flow codec y x b)
    (hy : Sound y) {op : Op} {call : Call} {r : Link × List Action}
    (hcall : y.call codec op = some call) (he : Effect codec y.link call r) :
    Flow codec (x.reached r.2) ((y.taken op).after call r) a := by
  cases he with
  | quiet hs hdata hstatus hdelivered _ =>
    refine h.idle hy hs.fsnIn hdelivered hstatus ?_
    rw [hdata, List.append_nil]
    exact h.confirmations
  | flushed frame hs hdata hframe hstatus hdelivered =>
    refine h.idle hy hs.fsnIn hdelivered (greets_of_nil hstatus) ?_
    rw [hdata]
    exact h.confirmations_push hframe
  | sent frame _ hin _ _ _ hdata hframe hstatus hdelivered _ =>
    refine h.idle hy hin hdelivered (greets_of_nil hstatus) ?_
    rw [hdata]
    exact h.confirmations_push hframe
  | @received bsn fsn message r _ _ _ _ _ hframes hin =>
    have hreached : x.reached r.2 = x := by simp [Side.reached, hframes]
    rw [hreached]
    obtain ⟨hnone, hsame, -⟩ | ⟨hmsu, hnew, hne, hnext⟩ := hin
    · have hidle := @Flow.idle codec x y a h hy op (.onData bsn fsn message) r hsame hnone
        (greets_of_nil (hframes _)) (by rw [hframes, List.append_nil]; exact h.confirmations)
      rwa [hreached] at hidle
    · obtain ⟨frame, rest, hd, htaken, hdecode⟩ := Side.call_onData hback hcall
      have hmessages := h.messages
      rw [hd] at hmessages
      obtain ⟨n, ⟨bsn', fsn', message', hdecode', -, hn, hmessage⟩, hrest⟩ := hmessages
      rw [hdecode] at hdecode'
      cases hdecode'
      obtain ⟨hlt, hfsn, hat⟩ := hmessage hne
      have hmod : fsn % 0x1000000 = last 0x1000000 n := by
        rw [hfsn]
        exact Nat.mod_eq_of_lt (last_lt (by decide : 0 < 0x1000000) n)
      have hwin := h.window
      have hknown := h.known
      -- The window makes the number name one message: the next.
      have hcount : y.delivered.length + 1 = n := by
        refine last_inj (by decide : 0 < 0x1000000) (by omega) (by omega) ?_
        rw [← last_add_one, ← h.fsnIn, ← hnext, hmod]
      have hdel : ((y.taken op).after (.onData bsn fsn message) r).delivered =
          y.delivered ++ [message.msu] := by
        simp [Side.after, hmsu]
      have hlen : (y.delivered ++ [message.msu]).length = n := by simp [hcount]
      refine ⟨?_, ?_, h.acked, h.fsnOut, ?_, h.buffered, h.window, ?_, ?_, h.greetings⟩
      · rw [hdel, hlen]
        omega
      · rw [hdel]
        obtain ⟨more, hmore⟩ := h.delivered
        rw [← hcount, Nat.add_sub_cancel, ← hmore, List.getElem?_append_right le_rfl,
          Nat.sub_self] at hat
        cases more with
        | nil => simp at hat
        | cons m more =>
          obtain rfl : m = message.msu := by simpa using hat
          exact ⟨more, by simp [← hmore]⟩
      · rw [hdel, hlen]
        exact hnew.trans hmod
      · rw [hdel, hlen]
        change Ascending _ _ (y.taken op).dataIn
        rw [htaken]
        exact hrest
      · rw [hdel, hlen]
        exact h.confirmations.mono fun _ _ _ hc => hc.more (by omega)

/-! ## Runs -/

theorem Sound.fits {x y : Side} {a b : ℕ} (hx : Sound x) (h : Flow codec x y a)
    (hback : Flow codec y x b) {op : Op} {call : Call} (hcall : x.call codec op = some call)
    (hstart : op = .start → x.link.retrievable = none)
    (hready : ∀ bsn, call = .onStatus .ready bsn → x.link.state = .inService →
      x.accepted.length < 0x1000000) : x.link.Fits call := by
  have hknown := h.known
  have hle := h.delivered_le
  have hwin := h.window
  have hgap (n : ℕ) (han : a ≤ n) (hn : n < a + 0x1000000) :
      seqDistance x.link.acked (last 0x1000000 n) = n - a := by
    rw [h.acked, seqDistance_eq_gap (last_lt (by decide) a), gap_last (by decide) han (by omega)]
  have hmod (n : ℕ) : last 0x1000000 n % 0x1000000 = last 0x1000000 n :=
    Nat.mod_eq_of_lt (last_lt (by decide) n)
  cases op with
  | start =>
    cases hcall
    intro hs
    have hnone := hstart rfl
    obtain ⟨haccepted, hdelivered⟩ := hx.idle (by simp [isAligned, hs]) hnone
    rw [haccepted, List.length_nil] at hle
    obtain rfl : a = 0 := by omega
    refine ⟨hnone, h.acked, ?_, ?_⟩
    · rw [h.fsnOut, haccepted]
      rfl
    · rw [hback.fsnIn, hdelivered]
      rfl
  | fail _ => cases hcall; trivial
  | send _ => cases hcall; trivial
  | timeout _ => cases hcall; trivial
  | flushAck => cases hcall; trivial
  | arriveStatus =>
    cases hd : x.statusIn with
    | nil => simp [Side.call, hd] at hcall
    | cons frame rest =>
      obtain ⟨bsn, fsn, status, hdecode, hplain, hbsn⟩ := h.greetings frame (by simp [hd])
      simp only [Side.call, hd, List.head?_cons, Option.bind_some, received, hdecode,
        Option.some.injEq] at hcall
      subst hcall
      refine ⟨hplain, fun hr hs => ?_⟩
      subst hr
      have hlen := hready bsn rfl hs
      rw [hbsn rfl, hmod]
      obtain rfl | ha := Nat.eq_zero_or_pos a
      · exact .inr (hgap 0 le_rfl (by omega))
      -- The number from before the first message lies behind what was acknowledged.
      · left
        have hround : seqDistance x.link.acked (last 0x1000000 0) = 0x1000000 - a := by
          rw [h.acked, seqDistance_eq_gap (last_lt (by decide) a),
            gap_last_behind (by decide) ha (by omega), Nat.sub_zero]
        have hout := hgap x.accepted.length (by omega) (by omega)
        rw [← h.fsnOut] at hout
        unfold Link.Accepts
        rw [hmod, hround, hout]
        omega
  | arriveData =>
    cases hd : x.dataIn with
    | nil => simp [Side.call, hd] at hcall
    | cons frame rest =>
      have hconfirm := h.confirmations
      rw [hd] at hconfirm
      obtain ⟨n, ⟨bsn, fsn, message, hdecode, han, hn, hbsn⟩, -⟩ := hconfirm
      simp only [Side.call, hd, List.head?_cons, Option.bind_some, received, hdecode,
        Option.some.injEq] at hcall
      subst hcall
      intro _
      have hout := hgap x.accepted.length (by omega) (by omega)
      rw [← h.fsnOut] at hout
      unfold Link.Accepts
      rw [hbsn, hmod, hgap n han (by omega), hout]
      omega

/-- Both ends are sound, and both directions flow. -/
structure Joined (codec : Codec) (x y : Side) : Prop where
  left : Sound x
  right : Sound y
  flow : ∃ a, Flow codec x y a
  back : ∃ b, Flow codec y x b

theorem Joined.swap {x y : Side} (h : Joined codec x y) : Joined codec y x :=
  ⟨h.right, h.left, h.back, h.flow⟩

theorem Sound.reached {y : Side} (h : Sound y) (out : List Action) : Sound (y.reached out) :=
  ⟨h.numbered, h.inWindow, h.queued, h.fresh, h.plain, h.idle⟩

theorem Sound.after {x : Side} (h : Sound x) {now : ℕ} {op : Op} {call : Call}
    {r : Link × List Action} (hmove : StepMove codec x.link now call r)
    (hfit : x.link.Fits call) (hw : r.1.InWindow) : Sound ((x.taken op).after call r) := by
  refine ⟨hmove.numbered h.numbered h.inWindow, hw, hmove.keepsQueued h.queued,
    hmove.fresh h.fresh, hmove.plain h.plain h.queued h.fresh hfit, fun hi hn => ?_⟩
  have he := hmove.effect h.numbered h.inWindow h.fresh h.plain hfit
  change r.1.isAligned = false at hi
  cases he with
  | quiet hs _ _ hdelivered haccepted =>
    obtain ⟨hi, hn⟩ := hs.idle hi hn
    simpa [Side.after, hdelivered, haccepted] using h.idle hi hn
  | flushed _ hs _ _ _ hdelivered =>
    obtain ⟨hi, hn⟩ := hs.idle hi hn
    simpa [Side.after, hdelivered, acceptedBy] using h.idle hi hn
  | sent _ _ _ _ _ haligned _ _ _ _ _ => simp [haligned] at hi
  | received _ _ _ _ haligned _ _ => simp [haligned] at hi

theorem Joined.act {x y : Side} (h : Joined codec x y) {now : ℕ} {op : Op}
    (hstart : op = .start → x.link.retrievable = none)
    (hready : ∀ bsn, x.call codec op = some (.onStatus .ready bsn) →
      x.link.state = .inService → x.accepted.length < 0x1000000)
    (hw : (x.act codec now op y).1.link.InWindow) :
    Joined codec (x.act codec now op y).1 (x.act codec now op y).2 := by
  obtain ⟨hx, hy, ⟨a, ha⟩, ⟨b, hb⟩⟩ := h
  unfold Side.act at hw ⊢
  cases hcall : x.call codec op with
  | none =>
    rw [Side.taken_of_call_none ha hcall]
    exact ⟨hx, hy, ⟨a, ha⟩, b, hb⟩
  | some call =>
    rw [hcall] at hready hw
    have hmove := step_move codec x.link ⟨now, call⟩
    have hfit := hx.fits ha hb hcall hstart fun bsn hbsn => hready bsn (congrArg some hbsn)
    have he := hmove.effect hx.numbered hx.inWindow hx.fresh hx.plain hfit
    have hsound : Sound ((x.taken op).after call (x.link.step codec ⟨now, call⟩)) :=
      hx.after hmove hfit hw
    refine ⟨hsound, hy.reached _, ?_, b, hb.receiver ha hx hcall he⟩
    refine ha.sender hcall he fun haligned => ?_
    have hnone : (x.link.step codec ⟨now, call⟩).1.retrievable = none := by
      refine hsound.fresh fun hs => ?_
      change (x.link.step codec ⟨now, call⟩).1.state = .outOfService at hs
      simp [isAligned, hs] at haligned
    unfold Link.buffered
    rw [hnone, List.length_map]
    exact hw

/-- One alignment period with fewer than half the circle of numbers unacknowledged: an end
starts once, and sends messages that are not empty. -/
structure Permitted (codec : Codec) (p : Pair) (i : Input) : Prop where
  once : i.op = .start → (p.actor i).link.retrievable = none
  nonEmpty : i.op ≠ .send []
  inWindow : ((p.step codec i).actor i).link.InWindow

instance (codec : Codec) (p : Pair) (i : Input) : Decidable (Permitted codec p i) :=
  decidable_of_iff
    ((i.op = .start → (p.actor i).link.retrievable = none) ∧ i.op ≠ .send [] ∧
      ((p.step codec i).actor i).link.InWindow)
    ⟨fun ⟨hs, hn, hw⟩ => ⟨hs, hn, hw⟩, fun ⟨hs, hn, hw⟩ => ⟨hs, hn, hw⟩⟩

/-- No Ready reaches a link in service that has sent the whole circle of numbers. -/
def Timely (codec : Codec) (p : Pair) (i : Input) : Prop :=
  (p.actor i).link.state = .inService → 0x1000000 ≤ (p.actor i).accepted.length →
    ∀ bsn, (p.actor i).call codec i.op ≠ some (.onStatus .ready bsn)

theorem Joined.step {p : Pair} (h : Joined codec p.a p.b) {i : Input}
    (hp : Permitted codec p i) (ht : Timely codec p i) :
    Joined codec (p.step codec i).a (p.step codec i).b := by
  obtain ⟨now, atA, op⟩ := i
  have hready (bsn : ℕ)
    (hcall : (p.actor ⟨now, atA, op⟩).call codec op = some (.onStatus .ready bsn))
      (hs : (p.actor ⟨now, atA, op⟩).link.state = .inService) :
      (p.actor ⟨now, atA, op⟩).accepted.length < 0x1000000 :=
    Nat.lt_of_not_le fun hle => ht hs hle bsn hcall
  cases atA with
  | true => exact h.act hp.once hready hp.inWindow
  | false => exact (h.swap.act hp.once hready hp.inWindow).swap

theorem flow_new (codec : Codec) (ta tb : LinkTimers) (pa pb : Proving) (qa qb : ℕ) :
    Flow codec (.new ta pa qa) (.new tb pb qb) 0 := by
  have hmask : seqMask = last 0x1000000 0 := by
    rw [last_zero (by decide)]
    rfl
  exact ⟨le_rfl, List.nil_prefix, hmask, hmask, hmask, rfl, Nat.zero_le _, trivial, trivial,
    by simp [Side.new]⟩

theorem sound_new (timers : LinkTimers) (proving : Proving) (txQueue : ℕ) :
    Sound (.new timers proving txQueue) :=
  ⟨new_numbered timers proving txQueue, Nat.zero_le _, new_queued timers proving txQueue,
    fun _ => rfl, .of_started (by simp [Side.new, Link.new]) rfl rfl, fun _ _ => ⟨rfl, rfl⟩⟩

theorem Sound.bsnt {y : Side} (h : Sound y) : y.link.bsnt = y.link.fsnIn := by
  unfold Link.bsnt
  cases hr : y.link.retrievable with
  | none => rfl
  | some held => exact (h.plain.held held hr).1

/-- A valid FSNC cuts the buffer. -/
theorem retrieve_of_valid {held : Retrievable} {fsnc : Option ℕ} {f : ℕ}
    (hvalid : fsnc.filter (fun f => decide (seqDistance held.acked (f % 0x1000000) ≤
      seqDistance held.acked ((held.unacked.getLast?.map Prod.fst).getD held.acked))) = some f) :
    held.retrieve fsnc =
      { resend := (held.unacked.filter fun u => seqDistance held.acked u.1 >
            seqDistance held.acked (f % 0x1000000)).map Prod.snd ++ held.unsent
        confirmed := (held.unacked.filter fun u => ¬ seqDistance held.acked u.1 >
            seqDistance held.acked (f % 0x1000000)).length
        unconfirmed := [] } := by
  unfold Retrievable.retrieve
  dsimp only
  rw [hvalid]

/-- What a failed link keeps, cut at the number of the last message that arrived. -/
theorem Flow.retrieve {x y : Side} {a : ℕ} (h : Flow codec x y a) (hx : Sound x) (hy : Sound y)
    {held : Retrievable} (hheld : x.link.retrievable = some held) :
    y.delivered ++ (held.retrieve (some y.link.bsnt)).resend = x.accepted ∧
      (held.retrieve (some y.link.bsnt)).unconfirmed = [] := by
  obtain ⟨-, hacked, hunsent, -⟩ := hx.plain.held held hheld
  have hknown := h.known
  have hle := h.delivered_le
  have hwin := h.window
  have hunacked : held.unacked = number 0x1000000 a (x.accepted.drop a) := by
    have hbuffered := h.buffered
    simpa only [Link.buffered, hheld] using hbuffered
  rw [h.acked] at hacked
  have hlast : (held.unacked.getLast?.map Prod.fst).getD held.acked =
      last 0x1000000 x.accepted.length := by
    rw [hunacked, hacked, getLast_number, List.length_drop,
      show a + (x.accepted.length - a) = x.accepted.length by omega]
  have hgap (n : ℕ) (han : a ≤ n) (hn : n ≤ x.accepted.length) :
      seqDistance held.acked (last 0x1000000 n) = n - a := by
    rw [hacked, seqDistance_eq_gap (last_lt (by decide) a), gap_last (by decide) han (by omega)]
  have hmod : last 0x1000000 y.delivered.length % 0x1000000 =
      last 0x1000000 y.delivered.length := Nat.mod_eq_of_lt (last_lt (by decide) _)
  have hwindow : seqDistance held.acked (last 0x1000000 y.delivered.length % 0x1000000) ≤
      seqDistance held.acked ((held.unacked.getLast?.map Prod.fst).getD held.acked) := by
    rw [hmod, hlast, hgap _ hknown hle, hgap _ (hknown.trans hle) le_rfl]
    omega
  have hvalid : (some (last 0x1000000 y.delivered.length)).filter (fun f => decide
      (seqDistance held.acked (f % 0x1000000) ≤
        seqDistance held.acked ((held.unacked.getLast?.map Prod.fst).getD held.acked))) =
        some (last 0x1000000 y.delivered.length) := by
    rw [Option.filter_some, if_pos (decide_eq_true hwindow)]
  have hafter : held.unacked.filter (fun u => decide (seqDistance held.acked u.1 >
      y.delivered.length - a)) =
      number 0x1000000 y.delivered.length (x.accepted.drop y.delivered.length) := by
    have hfilter := filter_gap_number (by decide : 0 < 0x1000000) a 0 (y.delivered.length - a)
      (x.accepted.drop a) (by rw [List.length_drop]; omega)
    rw [Nat.add_zero, Nat.sub_zero, List.drop_drop,
      show a + (y.delivered.length - a) = y.delivered.length by omega] at hfilter
    rw [hunacked, hacked, ← hfilter]
    refine List.filter_congr fun u _ => ?_
    rw [seqDistance_eq_gap (last_lt (by decide) a)]
  rw [hy.bsnt, h.fsnIn, retrieve_of_valid hvalid, hmod, hgap _ hknown hle]
  simp only [hafter, map_snd_number, hunsent, List.append_nil, and_true]
  obtain ⟨more, hmore⟩ := h.delivered
  rw [← hmore, List.drop_left]

theorem joined_of_run {is : List Input} {p : Pair} (hp : Joined codec p.a p.b)
    (h : Along (Pair.step codec) (fun p i => Permitted codec p i ∧ Timely codec p i) p is) :
    Joined codec (run (Pair.step codec) p is).a (run (Pair.step codec) p is).b :=
  @run_invariant _ _ _ (fun p => Joined codec p.a p.b) _
    (fun _ _ hj hi => hj.step hi.1 hi.2) _ hp _ h

theorem joined_new (codec : Codec) (ta tb : LinkTimers) (pa pb : Proving) (qa qb : ℕ) :
    Joined codec (.new ta pa qa) (.new tb pb qb) :=
  ⟨sound_new ta pa qa, sound_new tb pb qb, ⟨0, flow_new codec ta tb pa pb qa qb⟩, 0,
    flow_new codec tb ta pb pa qb qa⟩

/-- Changeover loses nothing and duplicates nothing: what one end delivered, and what the
other one's link gives back for the number of the last of it, is what the other accepted. -/
theorem changeover_complete (codec : Codec) (ta tb : LinkTimers) (pa pb : Proving)
    (qa qb : ℕ) (is : List Input)
    (h : Along (Pair.step codec) (fun p i => Permitted codec p i ∧ Timely codec p i)
      ⟨.new ta pa qa, .new tb pb qb⟩ is) (held : Retrievable)
    (hheld : (run (Pair.step codec) ⟨.new ta pa qa, .new tb pb qb⟩ is).a.link.detach.2 =
      some held) :
    let p := run (Pair.step codec) ⟨.new ta pa qa, .new tb pb qb⟩ is
    p.b.delivered ++ (held.retrieve (some p.b.link.bsnt)).resend = p.a.accepted ∧
      (held.retrieve (some p.b.link.bsnt)).unconfirmed = [] := by
  obtain ⟨hx, hy, ⟨a, ha⟩, -⟩ := joined_of_run (joined_new codec ta tb pa pb qa qb) h
  exact ha.retrieve hx hy hheld

/-! ## A Ready that comes too late -/

/-- Both ends into service. The Ready with which the second one answers the Ready of the first
stays on its way. -/
def meet : List Input :=
  [⟨0, true, .start⟩, ⟨0, false, .start⟩, ⟨1, true, .arriveStatus⟩, ⟨1, false, .arriveStatus⟩,
    ⟨2, true, .arriveStatus⟩, ⟨2, false, .arriveStatus⟩, ⟨8202, true, .timeout .t4⟩,
    ⟨8202, false, .timeout .t4⟩, ⟨8203, true, .arriveStatus⟩, ⟨8203, true, .arriveStatus⟩,
    ⟨8203, false, .arriveStatus⟩, ⟨8203, false, .arriveStatus⟩]

/-- A message goes over and is acknowledged. -/
def exchange : List Input :=
  [⟨9000, true, .send [0x85]⟩, ⟨9000, false, .arriveData⟩, ⟨9000, false, .flushAck⟩,
    ⟨9000, true, .arriveData⟩]

/-- Two messages are sent, one arrives, and both links fail. -/
def interrupted : List Input :=
  meet ++ [⟨9000, true, .arriveStatus⟩, ⟨9001, true, .send [0x85]⟩, ⟨9002, true, .send [0x86]⟩,
    ⟨9003, false, .arriveData⟩, ⟨9004, false, .fail .linkTest⟩, ⟨9005, true, .fail .linkTest⟩]

theorem changeover_complete_of_failure :
    let p := run (Pair.step wire) ⟨.new .default .normal 10, .new .default .normal 10⟩ interrupted
    p.b.delivered ++ (Retrievable.retrieve ⟨seqMask, seqMask, [(0, [0x85]), (1, [0x86])], []⟩
        (some p.b.link.bsnt)).resend = p.a.accepted ∧
      (Retrievable.retrieve ⟨seqMask, seqMask, [(0, [0x85]), (1, [0x86])], []⟩
        (some p.b.link.bsnt)).unconfirmed = [] := by
  have hallowed : Along (Pair.step wire)
      (fun p i => Permitted wire p i ∧ (p.actor i).accepted.length < 0x1000000)
      ⟨.new .default .normal 10, .new .default .normal 10⟩ interrupted := by decide
  refine changeover_complete wire .default .default .normal .normal 10 10 interrupted
    (hallowed.mono fun p i h => ⟨h.1, fun _ hle => absurd hle (Nat.not_le_of_lt h.2)⟩) _ ?_
  decide

/-- A link in service with nothing queued. -/
def inServiceAt (fsnOut fsnIn acked : ℕ) (ackDue : Bool) (unacked : List Unacked) : Link :=
  { Link.new .default .normal 10 with
    state := .inService
    fsnOut := fsnOut
    fsnIn := fsnIn
    acked := acked
    ackDue := ackDue
    unacked := unacked }

/-- The end that sends, after `n` messages. -/
def senderAt (n : ℕ) (link : Link) (dataIn : List Frame) : Side where
  link := link
  accepted := List.replicate n [0x85]
  delivered := []
  statusIn := [linkStatusFrame .ready seqMask seqMask]
  dataIn := dataIn

def receiverAt (n : ℕ) (link : Link) (dataIn : List Frame) : Side where
  link := link
  accepted := []
  delivered := List.replicate n [0x85]
  statusIn := []
  dataIn := dataIn

/-- Both ends after `n` messages, of which the last has the number `k`. -/
def exchanged (n k : ℕ) : Pair where
  a := senderAt n (inServiceAt k seqMask k false []) []
  b := receiverAt n (inServiceAt seqMask k seqMask false []) []

theorem exchanged_of_meet :
    run (Pair.step wire) ⟨.new .default .normal 10, .new .default .normal 10⟩ meet =
      exchanged 0 seqMask := by
  decide

theorem send_inServiceAt (o i a : ℕ) (msu : Msu) (now : ℕ) :
    (inServiceAt o i a false []).send wire msu now =
      (inServiceAt ((o + 1) % 0x1000000) i a false [⟨(o + 1) % 0x1000000, now, msu⟩],
        [.send (userDataFrame i ((o + 1) % 0x1000000) msu) dataStream (serviceIndicator msu),
          .start .t7 2000]) := rfl

/-- A BSN that acknowledges nothing new. -/
theorem acknowledge_repeated {o i a bsn : ℕ} {due : Bool} (now : ℕ)
    (hstep : seqDistance a (bsn % 0x1000000) = 0) :
    (inServiceAt o i a due []).acknowledge wire bsn true now =
      (inServiceAt o i a due [], [], true) := by
  have hle : ¬ seqDistance a (bsn % 0x1000000) > seqDistance a o := by
    rw [hstep]
    exact Nat.not_lt_zero _
  have hnew : ¬ seqDistance a (bsn % 0x1000000) > 0 := by
    rw [hstep]
    exact Nat.not_lt_zero _
  unfold acknowledge
  dsimp only [inServiceAt]
  rw [if_neg hle, if_pos rfl, if_neg hnew]
  rfl

/-- A BSN that acknowledges the one message outstanding. -/
theorem acknowledge_last {o i a bsn sentAt : ℕ} {due strict : Bool} {msu : Msu} (now : ℕ)
    (hout : seqDistance a o = 1) (hstep : seqDistance a (bsn % 0x1000000) = 1)
    (hcovers : seqDistance o (bsn % 0x1000000) = 0) :
    (inServiceAt o i a due [⟨o, sentAt, msu⟩]).acknowledge wire bsn strict now =
      (inServiceAt o i (bsn % 0x1000000) due [], [.stop .t7], true) := by
  have hle : ¬ seqDistance a (bsn % 0x1000000) > seqDistance a o := by
    rw [hstep, hout]
    exact Nat.lt_irrefl 1
  have hnew : seqDistance a (bsn % 0x1000000) > 0 := by
    rw [hstep]
    exact Nat.one_pos
  have hpop : popAcknowledged (bsn % 0x1000000) [⟨o, sentAt, msu⟩] = [] := by
    have hhalf : decide (seqDistance o (bsn % 0x1000000) < seqMask / 2) = true := by
      rw [hcovers]
      rfl
    unfold popAcknowledged
    rw [List.dropWhile_cons, if_pos hhalf, List.dropWhile_nil]
  unfold acknowledge
  cases strict <;>
  · dsimp only [inServiceAt]
    rw [if_neg hle]
    first | rw [if_pos rfl] | rw [if_neg Bool.false_ne_true]
    rw [if_pos hnew, hpop]
    rfl

theorem onData_inServiceAt {o i a bsn fsn : ℕ} {msu : Msu} (now : ℕ)
    (hne : msu.isEmpty = false) (hstep : seqDistance a (bsn % 0x1000000) = 0)
    (hfsn : fsn % 0x1000000 = (i + 1) % 0x1000000) :
    (inServiceAt o i a false []).onData wire bsn fsn ⟨0, msu⟩ now =
      (inServiceAt o (fsn % 0x1000000) a true [], [.deliver msu]) := by
  change (inServiceAt o i a false []).receive wire bsn fsn ⟨0, msu⟩ now = _
  unfold receive
  rw [acknowledge_repeated now hstep]
  have hfull : ¬ (⟨0, msu⟩ : UserDataMessage).isEmpty = true := by
    simp [UserDataMessage.isEmpty, hne]
  have hnext : ¬ fsn % 0x1000000 ≠ ((inServiceAt o i a false []).fsnIn + 1) % 0x1000000 :=
    fun h => h hfsn
  dsimp only
  rw [if_neg (by decide), if_neg hfull, if_neg hnext]
  rfl

theorem flushAck_inServiceAt (o i a : ℕ) :
    (inServiceAt o i a true []).flushAck wire =
      (inServiceAt o i a false [], [.send (userDataFrame i o []) dataStream none]) := rfl

theorem onData_acknowledgement {o i a bsn fsn sentAt : ℕ} {msu : Msu} (now : ℕ)
    (hout : seqDistance a o = 1) (hstep : seqDistance a (bsn % 0x1000000) = 1)
    (hcovers : seqDistance o (bsn % 0x1000000) = 0) :
    (inServiceAt o i a false [⟨o, sentAt, msu⟩]).onData wire bsn fsn .empty now =
      (inServiceAt o i (bsn % 0x1000000) false [], [.stop .t7]) := by
  change (inServiceAt o i a false [⟨o, sentAt, msu⟩]).receive wire bsn fsn .empty now = _
  unfold receive
  rw [acknowledge_last now hout hstep hcovers]
  rfl

theorem seqDistance_self {k : ℕ} (hk : k < 0x1000000) : seqDistance k k = 0 := by
  rw [seqDistance_eq_gap hk]
  unfold gap
  rw [Nat.mod_eq_of_lt hk, show k + (0x1000000 - k) = 0x1000000 by omega]

theorem seqDistance_next {k : ℕ} (hk : k < 0x1000000) :
    seqDistance k ((k + 1) % 0x1000000) = 1 := by
  rw [seqDistance_eq_gap hk, gap_add (by decide)]

theorem step_a {p : Pair} {now : ℕ} {op : Op} {call : Call} {r : Link × List Action}
    (hcall : p.a.call codec op = some call) (hlink : p.a.link.step codec ⟨now, call⟩ = r) :
    p.step codec ⟨now, true, op⟩ = ⟨(p.a.taken op).after call r, p.b.reached r.2⟩ := by
  simp only [Pair.step, ↓reduceIte, Side.act, hcall, hlink]

theorem step_b {p : Pair} {now : ℕ} {op : Op} {call : Call} {r : Link × List Action}
    (hcall : p.b.call codec op = some call) (hlink : p.b.link.step codec ⟨now, call⟩ = r) :
    p.step codec ⟨now, false, op⟩ = ⟨p.a.reached r.2, (p.b.taken op).after call r⟩ := by
  simp only [Pair.step, Bool.false_eq_true, ↓reduceIte, Side.act, hcall, hlink]

theorem decode_message {k : ℕ} (hk : k < 0x1000000) :
    wire.decode (userDataFrame seqMask k [0x85]) = some (.userData seqMask k ⟨0, [0x85]⟩) :=
  @Codec.decode_encode wire (.userData seqMask k ⟨0, [0x85]⟩) _
    ⟨le_rfl, Nat.le_of_lt_succ hk, rfl⟩ rfl

theorem decode_answer {k : ℕ} (hk : k < 0x1000000) :
    wire.decode (userDataFrame k seqMask []) = some (.userData k seqMask .empty) :=
  @Codec.decode_encode wire (.userData k seqMask .empty) _
    ⟨Nat.le_of_lt_succ hk, le_rfl, rfl⟩ rfl

/-- The message with the number `k'` is on its way. -/
def outbound (n k k' : ℕ) : Pair where
  a := senderAt (n + 1) (inServiceAt k' seqMask k false [⟨k', 9000, [0x85]⟩]) []
  b := receiverAt n (inServiceAt seqMask k seqMask false []) [userDataFrame seqMask k' [0x85]]

/-- It arrived. -/
def arrived (n k k' : ℕ) : Pair where
  a := senderAt (n + 1) (inServiceAt k' seqMask k false [⟨k', 9000, [0x85]⟩]) []
  b := receiverAt (n + 1) (inServiceAt seqMask k' seqMask true []) []

/-- Its acknowledgement is on its way. -/
def answered (n k k' : ℕ) : Pair where
  a := senderAt (n + 1) (inServiceAt k' seqMask k false [⟨k', 9000, [0x85]⟩])
    [userDataFrame k' seqMask []]
  b := receiverAt (n + 1) (inServiceAt seqMask k' seqMask false []) []

theorem exchanged_send {k k' : ℕ} (n : ℕ) (hnext : (k + 1) % 0x1000000 = k') :
    (exchanged n k).step wire ⟨9000, true, .send [0x85]⟩ = outbound n k k' := by
  have hsent := send_inServiceAt k seqMask k [0x85] 9000
  rw [hnext] at hsent
  rw [@step_a wire (exchanged n k) 9000 (.send [0x85]) (.send [0x85]) _ rfl hsent, outbound,
    senderAt, List.replicate_succ']
  rfl

theorem outbound_arrive {k k' : ℕ} (n : ℕ) (hnext : (k + 1) % 0x1000000 = k')
    (hk' : k' < 0x1000000) :
    (outbound n k k').step wire ⟨9000, false, .arriveData⟩ = arrived n k k' := by
  have hmod := Nat.mod_eq_of_lt hk'
  have hmask : seqDistance seqMask (seqMask % 0x1000000) = 0 := by decide
  have hreceived := @onData_inServiceAt seqMask k seqMask seqMask k' [0x85] 9000 rfl hmask
    (hmod.trans hnext.symm)
  rw [hmod] at hreceived
  have hcall : (outbound n k k').b.call wire .arriveData =
      some (.onData seqMask k' ⟨0, [0x85]⟩) := by
    simp only [Side.call, outbound, receiverAt, List.head?_cons, Option.bind_some, received,
      decode_message hk']
  rw [@step_b wire (outbound n k k') 9000 .arriveData _ _ hcall hreceived, arrived, receiverAt,
    List.replicate_succ']
  rfl

theorem arrived_flush (n k k' : ℕ) :
    (arrived n k k').step wire ⟨9000, false, .flushAck⟩ = answered n k k' := by
  rw [@step_b wire (arrived n k k') 9000 .flushAck .flushAck _ rfl
    (flushAck_inServiceAt seqMask k' seqMask)]
  simp [arrived, answered, senderAt, receiverAt, Side.taken, Side.after, Side.reached, acceptedBy,
    dataStream, statusStream]

theorem answered_arrive {k k' : ℕ} (n : ℕ) (hone : seqDistance k k' = 1)
    (hk' : k' < 0x1000000) :
    (answered n k k').step wire ⟨9000, true, .arriveData⟩ = exchanged (n + 1) k' := by
  have hmod := Nat.mod_eq_of_lt hk'
  have hself := seqDistance_self hk'
  have hconfirmed := @onData_acknowledgement k' seqMask k k' seqMask 9000 [0x85] 9000 hone
    (by rw [hmod, hone]) (by rw [hmod, hself])
  rw [hmod] at hconfirmed
  have hcall : (answered n k k').a.call wire .arriveData =
      some (.onData k' seqMask .empty) := by
    simp only [Side.call, answered, senderAt, List.head?_cons, Option.bind_some, received,
      decode_answer hk']
  rw [@step_a wire (answered n k k') 9000 .arriveData _ _ hcall hconfirmed]
  simp [answered, exchanged, senderAt, receiverAt, Side.taken, Side.after, Side.reached, acceptedBy]

/-- One exchange takes both ends one number on, and is permitted. -/
theorem exchanged_next {k k' : ℕ} (n : ℕ) (hk : k < 0x1000000)
    (hnext : (k + 1) % 0x1000000 = k') :
    run (Pair.step wire) (exchanged n k) exchange = exchanged (n + 1) k' ∧
      Along (Pair.step wire) (Permitted wire) (exchanged n k) exchange := by
  have hone := seqDistance_next hk
  have hk' : k' < 0x1000000 := hnext ▸ Nat.mod_lt _ (by decide)
  rw [hnext] at hone
  have h1 := exchanged_send n hnext
  have h2 := outbound_arrive n hnext hk'
  have h3 := arrived_flush n k k'
  have h4 := answered_arrive n hone hk'
  constructor
  · rw [exchange, run_cons, h1, run_cons, h2, run_cons, h3, run_cons, h4, run_nil]
  · rw [exchange, along_cons, h1, along_cons, h2, along_cons, h3, along_cons, h4]
    refine ⟨⟨by simp, by simp, ?_⟩, ⟨by simp, by simp, ?_⟩, ⟨by simp, by simp, ?_⟩,
      ⟨by simp, by simp, ?_⟩, trivial⟩
    · rw [h1]
      exact (by decide : 1 ≤ 0x7FFFFF)
    · rw [h2]
      exact Nat.zero_le _
    · rw [h3]
      exact Nat.zero_le _
    · rw [h4]
      exact Nat.zero_le _

/-- Any number of exchanges. -/
theorem exchanged_all (n : ℕ) :
    run (Pair.step wire) (exchanged 0 (last 0x1000000 0)) (List.replicate n exchange).flatten =
        exchanged n (last 0x1000000 n) ∧
      Along (Pair.step wire) (Permitted wire) (exchanged 0 (last 0x1000000 0))
        (List.replicate n exchange).flatten := by
  induction n with
  | zero => exact ⟨rfl, trivial⟩
  | succ n ih =>
    obtain ⟨hrun, halong⟩ := ih
    obtain ⟨hnext, hpermitted⟩ :=
      exchanged_next n (last_lt (by decide) n) (@last_add_one 0x1000000 n)
    rw [List.replicate_succ', List.flatten_append, List.flatten_singleton, run_append, along_append,
      hrun]
    exact ⟨hnext, halong, hpermitted⟩

/-- The message that closes the circle is sent, the old Ready arrives, and both links fail. -/
def close : List Input :=
  [⟨9000, true, .send [0x85]⟩, ⟨9000, true, .arriveStatus⟩, ⟨9000, true, .fail .linkTest⟩,
    ⟨9000, false, .fail .linkTest⟩]

def lateReady : List Input := meet ++ ((List.replicate 0xFFFFFF exchange).flatten ++ close)

/-- The link of the sender with the last message on its way, and after the old Ready. -/
def filled : Link := inServiceAt 0xFFFFFF seqMask 0xFFFFFE false [⟨0xFFFFFF, 9000, [0x85]⟩]
def misled : Link := inServiceAt 0xFFFFFF seqMask 0xFFFFFF false []

theorem filled_ready :
    filled.step wire ⟨9000, .onStatus .ready seqMask⟩ = (misled, [.stop .t7]) := by
  decide

/-- The receiver of the last message but one. -/
def waiting : Link := inServiceAt seqMask 0xFFFFFE seqMask false []

/-- The end of the run, whatever went before: both links failed, the sender's holds nothing,
and the receiver took one message less than was accepted. -/
theorem closed (n : ℕ) :
    let p := run (Pair.step wire) (exchanged n 0xFFFFFE) close
    Along (Pair.step wire) (Permitted wire) (exchanged n 0xFFFFFE) close ∧
      p.a.link = misled.failed ∧ p.b.link = waiting.failed ∧
      p.a.accepted.length = n + 1 ∧ p.b.delivered.length = n := by
  have h1 := @exchanged_send 0xFFFFFE 0xFFFFFF n (by decide)
  have h2 := @step_a wire (outbound n 0xFFFFFE 0xFFFFFF) 9000 .arriveStatus
    (.onStatus .ready seqMask) _ (by rfl) filled_ready
  have h3 (x y : Side) (hx : x.link = misled) :=
    @step_a wire ⟨x, y⟩ 9000 (.fail .linkTest) (.fail .linkTest)
      (misled.failed, misled.failActions wire .linkTest) rfl (by rw [hx]; rfl)
  have h4 (x y : Side) (hy : y.link = waiting) :=
    @step_b wire ⟨x, y⟩ 9000 (.fail .linkTest) (.fail .linkTest)
      (waiting.failed, waiting.failActions wire .linkTest) rfl (by rw [hy]; rfl)
  dsimp only
  rw [close, along_cons, along_cons, along_cons, along_cons, run_cons, run_cons, run_cons, run_cons,
    run_nil, h1, h2, h3 _ _ rfl, h4 _ _ rfl]
  refine ⟨⟨⟨by simp, by simp, ?_⟩, ⟨by simp, by simp, ?_⟩, ⟨by simp, by simp, ?_⟩,
    ⟨by simp, by simp, ?_⟩, trivial⟩, rfl, rfl, ?_, ?_⟩
  · rw [h1]
    exact (by decide : 1 ≤ 0x7FFFFF)
  · rw [h2]
    exact Nat.zero_le _
  · rw [h3 _ _ rfl]
    exact Nat.zero_le _
  · rw [h4 _ _ rfl]
    exact Nat.zero_le _
  · simp [Side.after, Side.taken, Side.reached, outbound, senderAt, acceptedBy]
  · simp [Side.after, Side.taken, Side.reached, outbound, receiverAt, failActions, Timer.all]

/-- The Ready with which the second end answered names the number before the first message.
When the whole circle of numbers was sent, that is the number of the last message sent, and the
link takes for delivered what is not. -/
theorem late_ready_loses :
    let start : Pair := ⟨.new .default .normal 10, .new .default .normal 10⟩
    let p := run (Pair.step wire) start lateReady
    Along (Pair.step wire) (Permitted wire) start lateReady ∧ p.b.link.state = .outOfService ∧
      p.a.link.detach.2 = some misled.leave ∧
      p.b.delivered ++ (misled.leave.retrieve (some p.b.link.bsnt)).resend ≠ p.a.accepted := by
  obtain ⟨hrun, halong⟩ := exchanged_all 0xFFFFFF
  obtain ⟨hclose, ha, hb, haccepted, hdelivered⟩ := closed 0xFFFFFF
  rw [show last 0x1000000 0xFFFFFF = 0xFFFFFE by decide] at hrun
  have hmeet : Along (Pair.step wire) (Permitted wire)
      ⟨.new .default .normal 10, .new .default .normal 10⟩ meet := by decide
  have hresend : (misled.leave.retrieve (some waiting.failed.bsnt)).resend = [] := by decide
  have hzero : exchanged 0 seqMask = exchanged 0 (last 0x1000000 0) := by rfl
  dsimp only
  rw [lateReady, run_append, along_append, exchanged_of_meet, hzero, run_append, along_append, hrun,
    ha, hb, hresend]
  refine ⟨⟨hmeet, halong, hclose⟩, rfl, rfl, fun h => ?_⟩
  have hlength := congrArg List.length h
  rw [List.append_nil, haccepted, hdelivered] at hlength
  omega

end SiphonSigtran.M2pa
