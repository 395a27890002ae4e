import SiphonSigtran.Lib.Machine
import SiphonSigtran.Lib.Serial
import SiphonSigtran.M2pa.LinkMoves

/-!
# Sequence numbers and queue of a link

While a link is started its retransmission buffer holds the numbers that follow
the last acknowledged one, up to the last one sent, as long as it holds fewer
than half the circle of them. From this the acknowledgement, which stops on a
half-circle test, releases exactly what a valid BSN covers.

MSUs leave in the order in which `send` accepted them: what waits in the queue
is the end of what was accepted, and what left is taken from the rest, in order.
-/

namespace SiphonSigtran.M2pa

open Lib.Serial

theorem seqDistance_eq_gap {a b : ℕ} (h : a < 0x1000000) :
    seqDistance a b = gap 0x1000000 a b := by
  unfold seqDistance gap
  omega

theorem seqDistance_lt (a b : ℕ) : seqDistance a b < 0x1000000 :=
  Nat.mod_lt _ (by decide)

namespace Link

open Lib.Machine

variable {codec : Codec}

/-! ## Numbering -/

/-- Fewer than half the circle of sequence numbers are unacknowledged. -/
def InWindow (l : Link) : Prop := l.unacked.length ≤ 0x7FFFFF

instance (l : Link) : Decidable l.InWindow := inferInstanceAs (Decidable (_ ≤ _))

/-- The numbering of a link: its counters are 24 bits, and while it is started the buffer
holds the numbers after the last acknowledged one up to the last one sent. Out of service
the buffer is empty. -/
structure Numbered (l : Link) : Prop where
  acked_lt : l.acked < 0x1000000
  fsnIn_lt : l.fsnIn < 0x1000000
  fsnOut_lt : l.fsnOut < 0x1000000
  empty : l.state = .outOfService → l.unacked = []
  consecutive : l.state ≠ .outOfService →
    Consecutive 0x1000000 l.acked (l.unacked.map Unacked.fsn)
  fsnOut_eq : l.state ≠ .outOfService → l.fsnOut = (l.acked + l.unacked.length) % 0x1000000

theorem Numbered.fsn_lt {l : Link} (h : l.Numbered) (hs : l.state ≠ .outOfService)
    {u : Unacked} (hu : u ∈ l.unacked) : u.fsn < 0x1000000 := by
  obtain ⟨i, hi, rfl⟩ := List.getElem_of_mem hu
  have hfsn := (h.consecutive hs).getElem i (by simpa using hi)
  rw [List.getElem_map] at hfsn
  omega

theorem Numbered.outstanding {l : Link} (h : l.Numbered) (hw : l.InWindow)
    (hs : l.state ≠ .outOfService) : seqDistance l.acked l.fsnOut = l.unacked.length := by
  unfold InWindow at hw
  rw [seqDistance_eq_gap h.acked_lt, h.fsnOut_eq hs, gap_add (by decide),
    Nat.mod_eq_of_lt (by omega)]

/-- An acceptable BSN releases the messages up to the one it names, and no others. -/
theorem Numbered.popAcknowledged_eq {l : Link} (h : l.Numbered) (hw : l.InWindow)
    (hs : l.state ≠ .outOfService) {bsn : ℕ} (ha : l.Accepts bsn) :
    popAcknowledged (bsn % 0x1000000) l.unacked =
      l.unacked.drop (seqDistance l.acked (bsn % 0x1000000)) := by
  have hk : seqDistance l.acked (bsn % 0x1000000) ≤ l.unacked.length := by
    rw [← h.outstanding hw hs]
    exact ha
  have hbsn : bsn % 0x1000000 =
      (l.acked + seqDistance l.acked (bsn % 0x1000000)) % 0x1000000 := by
    rw [seqDistance_eq_gap h.acked_lt, add_gap (by decide), Nat.mod_mod]
  refine (h.consecutive hs).dropWhile_gap (by decide : 2 * 0x7FFFFF ≤ 0x1000000) (by decide) hw hk
    fun u hu => ?_
  rw [← hbsn, seqDistance_eq_gap (h.fsn_lt hs hu)]
  rfl

theorem Numbered.released_unacked {l : Link} (h : l.Numbered) (hw : l.InWindow)
    (hs : l.state ≠ .outOfService) {bsn : ℕ} (ha : l.Accepts bsn) :
    (l.released bsn).unacked = l.unacked.drop (seqDistance l.acked (bsn % 0x1000000)) :=
  h.popAcknowledged_eq hw hs ha

/-- The numbering reads the counters, the numbers in the buffer and whether the link is
started only. -/
theorem Numbered.of_eq {l l' : Link} (h : l.Numbered)
    (hs : l'.state = .outOfService ↔ l.state = .outOfService) (hacked : l'.acked = l.acked)
    (hin : l'.fsnIn < 0x1000000) (hout : l'.fsnOut = l.fsnOut)
    (hunacked : l'.unacked.map Unacked.fsn = l.unacked.map Unacked.fsn) : l'.Numbered := by
  have hlength : l'.unacked.length = l.unacked.length := by
    simpa using congrArg List.length hunacked
  refine ⟨hacked ▸ h.acked_lt, hin, hout ▸ h.fsnOut_lt, fun hs' => ?_, fun hs' => ?_,
    fun hs' => ?_⟩
  · rw [← List.length_eq_zero_iff, hlength, h.empty (hs.mp hs')]
    rfl
  · rw [hacked, hunacked]
    exact h.consecutive (hs.not.mp hs')
  · rw [hout, hacked, hlength]
    exact h.fsnOut_eq (hs.not.mp hs')

theorem Numbered.failed {l : Link} (h : l.Numbered) : l.failed.Numbered :=
  ⟨h.acked_lt, h.fsnIn_lt, h.fsnOut_lt, fun _ => rfl, fun hs => absurd rfl hs,
    fun hs => absurd rfl hs⟩

theorem Numbered.released {l : Link} (h : l.Numbered) (hw : l.InWindow)
    (hs : l.state ≠ .outOfService) {bsn : ℕ} (ha : l.Accepts bsn) :
    (l.released bsn).Numbered := by
  have hk : seqDistance l.acked (bsn % 0x1000000) ≤ l.unacked.length := by
    rw [← h.outstanding hw hs]
    exact ha
  have hbsn : (l.released bsn).acked =
      (l.acked + seqDistance l.acked (bsn % 0x1000000)) % 0x1000000 := by
    rw [seqDistance_eq_gap h.acked_lt, add_gap (by decide), Nat.mod_mod]
    rfl
  have hdrop := h.released_unacked hw hs ha
  generalize seqDistance l.acked (bsn % 0x1000000) = k at hk hbsn hdrop
  refine ⟨Nat.mod_lt _ (by decide), h.fsnIn_lt, h.fsnOut_lt, fun hs' => absurd hs' hs,
    fun _ => ?_, fun _ => ?_⟩
  · rw [hdrop, List.map_drop, hbsn]
    exact (h.consecutive hs).drop h.acked_lt k (by simpa using hk)
  · rw [hdrop, List.length_drop, hbsn, Nat.mod_add_mod,
      show l.acked + k + (l.unacked.length - k) = l.acked + l.unacked.length by omega]
    exact h.fsnOut_eq hs

theorem FailMove.numbered {l : Link} {reason : Failure} {r : Link × List Action}
    (h : FailMove codec l reason r) (hn : l.Numbered) : r.1.Numbered := by
  cases h with
  | out _ => exact hn
  | failed _ => exact hn.failed

theorem Numbered.transmitted {l : Link} (h : l.Numbered) (hs : l.state ≠ .outOfService)
    (msu : Msu) (now : ℕ) : (l.transmitted msu now).Numbered := by
  have hnext : (l.fsnOut + 1) % 0x1000000 =
      (l.acked + (l.unacked.length + 1)) % 0x1000000 := by
    rw [h.fsnOut_eq hs, Nat.mod_add_mod, Nat.add_assoc]
  refine ⟨h.acked_lt, h.fsnIn_lt, Nat.mod_lt _ (by decide), fun hs' => absurd hs' hs,
    fun _ => ?_, fun _ => ?_⟩
  · have hlast := (h.consecutive hs).getLast h.acked_lt
    rw [List.length_map] at hlast
    simp only [Link.transmitted, List.map_append, List.map_cons, List.map_nil]
    rw [consecutive_append, consecutive_cons, hlast, ← h.fsnOut_eq hs]
    exact ⟨h.consecutive hs, rfl, trivial⟩
  · simpa [Link.transmitted] using hnext

theorem TransmitMove.numbered {l : Link} {msu : Msu} {now : ℕ} {r : Link × List Action}
    (h : TransmitMove codec l msu now r) (hn : l.Numbered) (hs : l.state ≠ .outOfService) :
    r.1.Numbered ∧ r.1.state = l.state := by
  cases h with
  | sent frame _ => exact ⟨hn.transmitted hs msu now, rfl⟩
  | refused _ => exact ⟨hn, rfl⟩

theorem Numbered.popped {l : Link} (h : l.Numbered) (rest : List Msu) :
    { l with unsent := rest }.Numbered := h.of_eq Iff.rfl rfl h.fsnIn_lt rfl rfl

theorem QueueMove.numbered {now : ℕ} {queue : List Msu} {l : Link} {r : Link × List Action}
    (h : QueueMove codec now queue l r) (hn : l.Numbered) (hs : l.state ≠ .outOfService) :
    r.1.Numbered := by
  induction h with
  | nil l => exact hn
  | cons hfirst _ ih =>
    obtain ⟨hfirst, hstate⟩ := hfirst.numbered (hn.popped _) hs
    exact ih hfirst (by rwa [hstate])

theorem SendMove.numbered {l : Link} {msu : Msu} {now : ℕ} {r : Link × List Action}
    (h : SendMove codec l msu now r) (hn : l.Numbered) : r.1.Numbered := by
  cases h with
  | transmitted hs _ ht => exact (ht.numbered hn (by simp [hs])).1
  | congested _ _ _ => exact hn
  | queued _ _ _ => exact hn.of_eq Iff.rfl rfl hn.fsnIn_lt rfl rfl
  | refused _ => exact hn

theorem AcknowledgeMove.numbered {l : Link} {bsn now : ℕ} {strict : Bool}
    {a : Link × List Action × Bool} (h : AcknowledgeMove codec l bsn strict now a)
    (hn : l.Numbered) (hw : l.InWindow) (hs : l.state ≠ .outOfService) : a.1.Numbered := by
  cases h with
  | ignored _ _ => exact hn
  | abnormal _ _ _ => exact hn.of_eq Iff.rfl rfl hn.fsnIn_lt rfl rfl
  | faulty _ _ _ hf => exact hf.numbered hn
  | repeated _ _ _ => exact hn.of_eq Iff.rfl rfl hn.fsnIn_lt rfl rfl
  | advanced _ ha _ => exact (hn.released hw hs ha).of_eq Iff.rfl rfl hn.fsnIn_lt rfl rfl

theorem ReceiveMove.numbered {l : Link} {bsn fsn now : ℕ} {message : UserDataMessage}
    {r : Link × List Action} (h : ReceiveMove codec l bsn fsn message now r)
    (hn : l.Numbered) (hw : l.InWindow) (hs : l.state ≠ .outOfService) : r.1.Numbered := by
  cases h with
  | discarded ha _ => exact ha.numbered hn hw hs
  | empty ha _ _ => exact ha.numbered hn hw hs
  | outOfSequence ha _ _ _ => exact ha.numbered hn hw hs
  | delivered ha _ _ _ =>
    exact (ha.numbered hn hw hs).of_eq Iff.rfl rfl (Nat.mod_lt _ (by decide)) rfl rfl

theorem DataMove.numbered {l : Link} {bsn fsn now : ℕ} {message : UserDataMessage}
    {r : Link × List Action} (h : DataMove codec l bsn fsn message now r)
    (hn : l.Numbered) (hw : l.InWindow) : r.1.Numbered := by
  cases h with
  | refused _ _ => exact hn
  | enter hs hr =>
    have hentered : l.enterService.1.Numbered :=
      hn.of_eq (by simp [hs, enterService]) rfl hn.fsnIn_lt rfl rfl
    exact hr.numbered hentered hw (by simp [enterService])
  | received ha hr => exact hr.numbered hn hw (by rintro hs; simp [isAligned, hs] at ha)

theorem TimeoutMove.numbered {l : Link} {timer : Timer} {now : ℕ} {r : Link × List Action}
    (h : TimeoutMove codec l timer now r) (hn : l.Numbered) : r.1.Numbered := by
  cases h with
  | stale _ => exact hn
  | failed _ _ => exact hn.failed
  | ready hs _ _ => exact hn.of_eq (by simp [hs]) rfl hn.fsnIn_lt rfl rfl
  | enter hs _ _ => exact hn.of_eq (by simp [hs, enterService]) rfl hn.fsnIn_lt rfl rfl
  | repeatProving _ _ => exact hn
  | rearm _ _ _ => exact hn

theorem restartT7_fsn (l : Link) (now : ℕ) :
    (l.restartT7 now).1.unacked.map Unacked.fsn = l.unacked.map Unacked.fsn := by
  simp [restartT7]

theorem EndBusyMove.numbered {l : Link} {now : ℕ} {r : Link × List Action}
    (h : EndBusyMove codec l now r) (hn : l.Numbered) : r.1.Numbered := by
  cases h with
  | idle _ => exact hn
  | flushed _ hs hf =>
    have hrestarted : ({ l with remoteBusy := false }.restartT7 now).1.Numbered :=
      hn.of_eq Iff.rfl rfl hn.fsnIn_lt rfl (restartT7_fsn { l with remoteBusy := false } now)
    exact hf.numbered hrestarted (by simp [restartT7, hs])
  | cleared _ _ => exact hn.of_eq Iff.rfl rfl hn.fsnIn_lt rfl rfl

theorem Numbered.resumed {l : Link} (h : l.Numbered) : l.resumed.Numbered :=
  ⟨h.acked_lt, h.fsnIn_lt, h.acked_lt, fun _ => rfl, fun _ => trivial,
    fun _ => (Nat.mod_eq_of_lt h.acked_lt).symm⟩

theorem ResumeMove.numbered {l : Link} {now : ℕ} {r : Link × List Action}
    (h : ResumeMove codec l now r) (hn : l.Numbered) : r.1.Numbered := by
  cases h with
  | busy _ => exact hn.resumed
  | flushed _ hf => exact hf.numbered hn.resumed (by simp [Link.resumed])

theorem Numbered.align {l : Link} (h : l.Numbered) (codec : Codec) (hs : l.state = .notAligned)
    (status : Status) : (l.align codec status).1.Numbered := by
  refine h.of_eq ?_ ?_ ?_ ?_ ?_ <;> unfold Link.align <;> split <;>
    first | exact h.fsnIn_lt | rfl | simp [hs]

theorem StatusMove.numbered {l : Link} {status : Status} {bsn now : ℕ} {r : Link × List Action}
    (h : StatusMove codec l now status bsn r) (hn : l.Numbered) (hw : l.InWindow) :
    r.1.Numbered := by
  cases h with
  | ignored _ _ _ => exact hn
  | align status _ hs _ => exact hn.align codec hs status
  | prove _ _ hs _ =>
    refine hn.of_eq ?_ ?_ ?_ ?_ ?_ <;> unfold Link.prove <;> split <;>
      first | exact hn.fsnIn_lt | rfl | simp [hs]
  | failed _ _ _ _ => exact hn.failed
  | startOver _ hs => exact hn.of_eq (by simp [hs]) rfl hn.fsnIn_lt rfl rfl
  | shorten _ _ => exact hn.of_eq Iff.rfl rfl hn.fsnIn_lt rfl rfl
  | noteReady _ _ => exact hn.of_eq Iff.rfl rfl hn.fsnIn_lt rfl rfl
  | enter _ hs => exact hn.of_eq (by simp [hs, enterService]) rfl hn.fsnIn_lt rfl rfl
  | outage _ hs =>
    exact hn.of_eq (by rcases hs with hs | hs <;> simp [hs]) rfl hn.fsnIn_lt rfl rfl
  | busy _ _ _ => exact hn.of_eq Iff.rfl rfl hn.fsnIn_lt rfl rfl
  | stillBusy _ _ _ => exact hn
  | busyEnded _ _ hr => exact hr.numbered hn
  | acknowledge _ hs ha => exact ha.numbered hn hw (by simp [hs])
  | recover _ hs ha hr => exact hr.numbered (ha.numbered hn hw (by simp [hs]))

theorem Numbered.started {l : Link} (h : l.Numbered) (hs : l.state = .outOfService) :
    l.started.Numbered := by
  have hmask : seqMask < 0x1000000 := by decide
  have hempty : l.started.unacked = [] := h.empty hs
  refine ⟨hmask, hmask, hmask, fun _ => hempty, fun _ => ?_, fun _ => ?_⟩
  · rw [hempty]
    trivial
  · rw [hempty]
    rfl

/-- Every call keeps the numbering. -/
theorem StepMove.numbered {l : Link} {now : ℕ} {call : Call} {r : Link × List Action}
    (h : StepMove codec l now call r) (hn : l.Numbered) (hw : l.InWindow) : r.1.Numbered := by
  cases h with
  | established => exact hn
  | startIgnored _ => exact hn
  | started hs => exact hn.started hs
  | fail _ hf => exact hf.numbered hn
  | retrieve _ => exact hn.of_eq Iff.rfl rfl hn.fsnIn_lt rfl rfl
  | detach => exact hn.of_eq Iff.rfl rfl hn.fsnIn_lt rfl rfl
  | abandon => exact hn.of_eq Iff.rfl rfl hn.fsnIn_lt rfl rfl
  | send _ hm => exact hm.numbered hn
  | timeout _ hm => exact hm.numbered hn
  | onStatus _ _ hm => exact hm.numbered hn hw
  | onData _ _ _ hm => exact hm.numbered hn hw
  | flushIgnored _ => exact hn.of_eq Iff.rfl rfl hn.fsnIn_lt rfl rfl
  | flushed _ _ => exact hn.of_eq Iff.rfl rfl hn.fsnIn_lt rfl rfl

/-! ## The queue -/

/-- The buffers of a link: one that is not aligned holds nothing and thinks nobody busy, one
that may send has nothing waiting, and no more waits than the queue may hold. -/
structure Queued (l : Link) : Prop where
  idle_unacked : l.isAligned = false → l.unacked = []
  idle_unsent : l.isAligned = false → l.unsent = []
  idle_busy : l.isAligned = false → l.remoteBusy = false
  calm : l.state = .inService → l.remoteBusy = false → l.unsent = []
  unsent_le : l.unsent.length ≤ l.txQueue

theorem Queued.of_empty {l : Link} (hu : l.unacked = []) (hq : l.unsent = [])
    (hb : l.remoteBusy = false) : l.Queued :=
  ⟨fun _ => hu, fun _ => hq, fun _ => hb, fun _ _ => hq, by simp [hq]⟩

theorem Queued.of_idle {l l' : Link} (h : l.Queued) (ha : l.isAligned = false)
    (hu : l'.unacked = l.unacked) (hq : l'.unsent = l.unsent)
    (hb : l'.remoteBusy = l.remoteBusy) : l'.Queued :=
  .of_empty (hu.trans (h.idle_unacked ha)) (hq.trans (h.idle_unsent ha))
    (hb.trans (h.idle_busy ha))

theorem Queued.of_aligned {l : Link} (ha : l.isAligned = true)
    (hcalm : l.state = .inService → l.remoteBusy = false → l.unsent = [])
    (hle : l.unsent.length ≤ l.txQueue) : l.Queued := by
  have hidle (h : l.isAligned = false) : False := by simp [ha] at h
  exact ⟨fun h => (hidle h).elim, fun h => (hidle h).elim, fun h => (hidle h).elim, hcalm, hle⟩

theorem Queued.failed (l : Link) : l.failed.Queued := .of_empty rfl rfl rfl

theorem FailMove.keepsQueued {l : Link} {reason : Failure} {r : Link × List Action}
    (h : FailMove codec l reason r) (hq : l.Queued) : r.1.Queued := by
  cases h with
  | out _ => exact hq
  | failed _ => exact .failed l

theorem QueueMove.keepsQueued {now : ℕ} {queue : List Msu} {l : Link} {r : Link × List Action}
    (h : QueueMove codec now queue l r) (hl : l.unsent = queue) (ha : l.isAligned = true) :
    r.1.Queued := by
  obtain ⟨fsnOut, ackDue, unacked, hr⟩ := h.frame hl
  rw [hr]
  exact .of_aligned ha (fun _ _ => rfl) (Nat.zero_le _)

theorem SendMove.keepsQueued {l : Link} {msu : Msu} {now : ℕ} {r : Link × List Action}
    (h : SendMove codec l msu now r) (hq : l.Queued) : r.1.Queued := by
  cases h with
  | transmitted hs hb ht =>
    obtain ⟨fsnOut, ackDue, unacked, hr⟩ := ht.frame
    rw [hr]
    exact .of_aligned (by simp [isAligned, hs]) (fun _ _ => hq.calm hs hb) hq.unsent_le
  | congested _ _ _ => exact hq
  | queued ha hb hlt =>
    refine .of_aligned ha (fun hs hb' => absurd ⟨hs, hb'⟩ hb) ?_
    simp only [List.length_append, List.length_singleton]
    exact hlt
  | refused _ => exact hq

theorem AcknowledgeMove.keepsQueued {l : Link} {bsn now : ℕ} {strict : Bool}
    {a : Link × List Action × Bool} (h : AcknowledgeMove codec l bsn strict now a)
    (hq : l.Queued) (ha : l.isAligned = true) : a.1.Queued := by
  obtain hfailed | ⟨acked, unacked, watch, hl⟩ := h.frame
  · rw [hfailed]
    exact .failed l
  · rw [hl]
    exact .of_aligned ha hq.calm hq.unsent_le

theorem ReceiveMove.keepsQueued {l : Link} {bsn fsn now : ℕ} {message : UserDataMessage}
    {r : Link × List Action} (h : ReceiveMove codec l bsn fsn message now r)
    (hq : l.Queued) (ha : l.isAligned = true) : r.1.Queued := by
  obtain hfailed | ⟨acked, unacked, watch, fsnIn, ackDue, hl⟩ := h.frame
  · rw [hfailed]
    exact .failed l
  · rw [hl]
    exact .of_aligned ha hq.calm hq.unsent_le

theorem Queued.enterService {l : Link} (h : l.Queued) (hs : l.isAligned = false) :
    l.enterService.1.Queued := h.of_idle hs rfl rfl rfl

theorem DataMove.keepsQueued {l : Link} {bsn fsn now : ℕ} {message : UserDataMessage}
    {r : Link × List Action} (h : DataMove codec l bsn fsn message now r) (hq : l.Queued) :
    r.1.Queued := by
  cases h with
  | refused _ _ => exact hq
  | enter hs hr => exact hr.keepsQueued (hq.enterService (by simp [isAligned, hs])) rfl
  | received ha hr => exact hr.keepsQueued hq ha

theorem TimeoutMove.keepsQueued {l : Link} {timer : Timer} {now : ℕ} {r : Link × List Action}
    (h : TimeoutMove codec l timer now r) (hq : l.Queued) : r.1.Queued := by
  cases h with
  | stale _ => exact hq
  | failed _ _ => exact .failed l
  | ready hs _ _ => exact hq.of_idle (by simp [isAligned, hs]) rfl rfl rfl
  | enter hs _ _ => exact hq.enterService (by simp [isAligned, hs])
  | repeatProving _ _ => exact hq
  | rearm _ _ _ => exact hq

theorem EndBusyMove.keepsQueued {l : Link} {now : ℕ} {r : Link × List Action}
    (h : EndBusyMove codec l now r) (hq : l.Queued) (ha : l.isAligned = true) :
    r.1.Queued := by
  cases h with
  | idle _ => exact hq
  | flushed _ hs hf => exact hf.keepsQueued rfl (by simp [isAligned, restartT7, hs])
  | cleared _ hs => exact .of_aligned ha (fun hs' => absurd hs' hs) hq.unsent_le

theorem ResumeMove.keepsQueued {l : Link} {now : ℕ} {r : Link × List Action}
    (h : ResumeMove codec l now r) (hq : l.Queued) : r.1.Queued := by
  cases h with
  | busy hb =>
    exact .of_aligned rfl (fun _ hb' => absurd (hb.symm.trans hb') (by simp)) hq.unsent_le
  | flushed _ hf => exact hf.keepsQueued rfl rfl

theorem StatusMove.keepsQueued {l : Link} {status : Status} {bsn now : ℕ} {r : Link × List Action}
    (h : StatusMove codec l now status bsn r) (hq : l.Queued) : r.1.Queued := by
  cases h with
  | ignored _ _ _ => exact hq
  | align _ _ hs _ =>
    refine hq.of_idle (by simp [isAligned, hs]) ?_ ?_ ?_ <;> unfold Link.align <;> split <;> rfl
  | prove _ _ hs _ =>
    refine hq.of_idle (by simp [isAligned, hs]) ?_ ?_ ?_ <;> unfold Link.prove <;> split <;> rfl
  | failed _ _ _ _ => exact .failed l
  | startOver _ hs => exact hq.of_idle (by simp [isAligned, hs]) rfl rfl rfl
  | shorten _ hs => exact hq.of_idle (by simp [isAligned, hs]) rfl rfl rfl
  | noteReady _ hs => exact hq.of_idle (by simp [isAligned, hs]) rfl rfl rfl
  | enter _ hs => exact hq.enterService (by simp [isAligned, hs])
  | outage _ _ => exact .of_aligned rfl (by simp) hq.unsent_le
  | busy _ ha _ => exact .of_aligned ha (by simp) hq.unsent_le
  | stillBusy _ _ _ => exact hq
  | busyEnded _ ha hr => exact hr.keepsQueued hq ha
  | acknowledge _ hs ha => exact ha.keepsQueued hq (by simp [isAligned, hs])
  | recover _ hs ha hr => exact hr.keepsQueued (ha.keepsQueued hq (by simp [isAligned, hs]))

/-- Every call keeps the queue. -/
theorem StepMove.keepsQueued {l : Link} {now : ℕ} {call : Call} {r : Link × List Action}
    (h : StepMove codec l now call r) (hq : l.Queued) : r.1.Queued := by
  cases h with
  | established => exact hq
  | startIgnored _ => exact hq
  | started hs =>
    have ha : l.isAligned = false := by simp [isAligned, hs]
    exact .of_empty (hq.idle_unacked ha) (hq.idle_unsent ha) rfl
  | fail _ hf => exact hf.keepsQueued hq
  | retrieve _ => exact ⟨hq.1, hq.2, hq.3, hq.4, hq.5⟩
  | detach => exact ⟨hq.1, hq.2, hq.3, hq.4, hq.5⟩
  | abandon => exact ⟨hq.1, hq.2, hq.3, hq.4, hq.5⟩
  | send _ hm => exact hm.keepsQueued hq
  | timeout _ hm => exact hm.keepsQueued hq
  | onStatus _ _ hm => exact hm.keepsQueued hq
  | onData _ _ _ hm => exact hm.keepsQueued hq
  | flushIgnored _ => exact ⟨hq.1, hq.2, hq.3, hq.4, hq.5⟩
  | flushed _ _ => exact ⟨hq.1, hq.2, hq.3, hq.4, hq.5⟩

theorem new_numbered (timers : LinkTimers) (proving : Proving) (txQueue : ℕ) :
    (new timers proving txQueue).Numbered :=
  ⟨Nat.lt_succ_self _, Nat.lt_succ_self _, Nat.lt_succ_self _, fun _ => rfl,
    fun hs => absurd rfl hs, fun hs => absurd rfl hs⟩

theorem new_queued (timers : LinkTimers) (proving : Proving) (txQueue : ℕ) :
    (new timers proving txQueue).Queued := .of_empty rfl rfl rfl

end Link

end SiphonSigtran.M2pa
