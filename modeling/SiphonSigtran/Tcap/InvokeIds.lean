import SiphonSigtran.Tcap.FailedFlush

/-!
# Invoke ids

The ids of the invokes in progress are distinct, and an id is refused only when all 256 are
taken. When several invokes expire at once their ids are free before the handler is told of
any of them, so a callback can be given the id of one it will be told of next.
-/

namespace SiphonSigtran.Tcap

open Lib

namespace Dialogue

variable {c : Codec} {config : Config} {d : Dialogue}

/-! ## Allocation -/

theorem mem_candidates {start id : ℤ} :
    id ∈ candidates start ↔ -128 ≤ id ∧ id ≤ 127 := by
  unfold candidates
  rw [List.mem_append, List.mem_map, List.mem_map]
  constructor
  · rintro (⟨k, hk, heq⟩ | ⟨k, hk, heq⟩)
    · have hring : (start + (k : ℤ)) % 128 = id := heq
      omega
    · have hover : -((k : ℤ) + 1) = id := heq
      have hlt := List.mem_range.mp hk
      omega
  · rintro ⟨hlow, hhigh⟩
    by_cases hid : 0 ≤ id
    · left
      refine ⟨((id - start) % 128).toNat, List.mem_range.mpr (by omega), ?_⟩
      omega
    · right
      refine ⟨(-id - 1).toNat, List.mem_range.mpr (by omega), ?_⟩
      omega

/-- An id is refused only when all of them are taken. -/
theorem allocateInvokeId_none : d.allocateInvokeId.1 = none ↔
    ∀ id : InvokeId, -128 ≤ id → id ≤ 127 → id ∈ d.ids := by
  have hnone : d.allocateInvokeId.1 = none ↔
      ((candidates (max d.nextInvokeId 0)).find? fun id => !d.inUse id) = none := by
    unfold allocateInvokeId
    split <;> rename_i h <;> simp [h]
  rw [hnone, List.find?_eq_none]
  constructor
  · intro hall id hlow hhigh
    have hused := hall id (mem_candidates.mpr ⟨hlow, hhigh⟩)
    exact inUse_eq_true.mp (by simpa using hused)
  · intro hall id hid
    obtain ⟨hlow, hhigh⟩ := mem_candidates.mp hid
    simp [inUse_eq_true.mpr (hall id hlow hhigh)]

/-! ## Distinct ids -/

/-- What a call does with the ids that are assigned. -/
theorem call_ids (d : Dialogue) (call : Call) :
    (d.call c call).1.ids.Sublist d.ids ∨
      ∃ id, id ∉ d.ids ∧ (d.call c call).1.ids = d.ids ++ [id] ∧
        (d.call c call).2 = [.handed id] := by
  by_cases hc : d.closed = none
  · have hdeed := call_deed (c := c) hc call
    generalize (d.call c call).1 = d', (d.call c call).2 = events at hdeed ⊢
    cases hdeed with
    | quiet _ ho hs =>
      left
      unfold ids
      rcases hs with hs | hs
      · rw [ho, hs]
      · rw [ho, hs, List.append_nil]
        exact (List.sublist_append_left _ _).map _
    | hands o _ hfree ho hs =>
      right
      refine ⟨o.id, hfree, ?_, rfl⟩
      unfold ids
      rw [ho, hs]
      simp
    | sends now _ ho hs =>
      left
      have hids : d'.ids = d.ids := by
        unfold ids
        rw [ho, hs]
        simp [Function.comp_def]
      rw [hids]
    | closes _ _ hids =>
      left
      rw [hids]
      exact List.nil_sublist _
  · left
    have hsome : d.closed.isSome = true := Option.isSome_iff_ne_none.mpr hc
    cases call with
    | invokeWith op argument opClass timeout => simp [Dialogue.call, invokeWith, hsome]
    | send now => simp [Dialogue.call, send, flush, hsome]
    | sendEnd => simp [Dialogue.call, sendEnd, flush, hsome]
    | abort => simp [Dialogue.call, Dialogue.abort, abortAs, hsome]
    | discardStaged => simp [Dialogue.call, discardStaged, ids]
    | _ => exact List.Sublist.refl _

theorem call_nodup (h : d.ids.Nodup) (call : Call) : (d.call c call).1.ids.Nodup := by
  rcases d.call_ids (c := c) call with hsub | ⟨id, hfree, hids, -⟩
  · exact h.sublist hsub
  · rw [hids]
    simpa using h.concat hfree

/-- The ids that are assigned in a dialogue are distinct. -/
theorem Reached.nodup (h : Reached c config d) : d.ids.Nodup := by
  apply h.invariant
  · intro serial role ourTid peerTid ac replyInvokeId addressing _
    exact List.nodup_nil
  · intro d a hd ha
    cases a with
    | call call => exact call_nodup hd call
    | receive isEnd components rejected =>
      refine hd.sublist ?_
      have hstaged := (d.receive_only isEnd components rejected)
      obtain ⟨_, _, heq⟩ := hstaged
      have hkept := d.receive_sublist isEnd components rejected
      simp only [Dialogue.act]
      rw [heq] at hkept ⊢
      exact (hkept.append (List.Sublist.refl _)).map _
    | drain now =>
      refine hd.sublist ?_
      have hrunning : (d.outstanding.partition fun o => o.expired now).2.Sublist
          d.outstanding := by
        rw [List.partition_eq_filter_filter]
        exact List.filter_sublist
      exact (hrunning.append (List.Sublist.refl _)).map _
    | abortAs reason =>
      simp only [Dialogue.act]
      by_cases hc : d.closed = none
      · rw [abortAs_ids hc reason]
        exact List.nodup_nil
      · rwa [abortAs, if_pos (Option.isSome_iff_ne_none.mpr hc)]
    | peerEnds =>
      refine hd.sublist ?_
      exact (List.sublist_append_right _ _).map _
    | learn tid =>
      simp only [Dialogue.act]
      split_ifs <;> exact hd
    | blame invokeId op =>
      simp only [Dialogue.act]
      split_ifs <;> exact hd
    | _ => exact hd

/-! ## Invokes that expire together -/

/-- A call that stages an invoke under this id. -/
def takes (d : Dialogue) (id : InvokeId) : Call → Bool
  | .invokeWith .. => d.closed.isNone && decide (d.allocateInvokeId.1 = some id)
  | _ => false

/-- None of the calls stages an invoke under this id. -/
def spares (c : Codec) (id : InvokeId) (d : Dialogue) : List Call → Bool
  | [] => true
  | call :: rest => !d.takes id call && spares c id (d.call c call).1 rest

theorem call_free {id : InvokeId} {call : Call} (hfree : id ∉ d.ids)
    (h : d.takes id call = false) : id ∉ (d.call c call).1.ids := by
  rcases d.call_ids (c := c) call with hsub | ⟨id', hfree', hids, hhanded⟩
  · exact fun hmem => hfree (hsub.subset hmem)
  · rw [hids]
    intro hmem
    rcases List.mem_append.mp hmem with hmem | hmem
    · exact hfree hmem
    · obtain rfl := List.mem_singleton.mp hmem
      -- Only an invoke that is staged is handed an id.
      have htakes : d.takes id call = true := by
        cases call with
        | invokeWith op argument opClass timeout =>
          by_cases hc : d.closed = none
          · have hopen : d.closed.isSome = false := by simp [hc]
            simp only [Dialogue.call, invokeWith, hopen, Bool.false_eq_true, ↓reduceIte] at hhanded
            simp only [takes, hc]
            generalize d.allocateInvokeId = allocated at hhanded ⊢
            obtain ⟨id' | _, d'⟩ := allocated
            · simp at hhanded
            · simpa using hhanded
          · have hnone := (call_closed (c := c) hc (.invokeWith op argument opClass timeout)).1
            rw [hnone] at hhanded
            cases hhanded
        | send now =>
          simp only [Dialogue.call] at hhanded
          split at hhanded <;> simp at hhanded
        | _ => simp [Dialogue.call] at hhanded
      rw [htakes] at h
      cases h

theorem calls_free {id : InvokeId} {script : List Call} (hfree : id ∉ d.ids)
    (h : d.spares c id script = true) : id ∉ (d.calls c script).1.ids := by
  induction script generalizing d with
  | nil => exact hfree
  | cons call rest ih =>
    simp only [spares, Bool.and_eq_true, Bool.not_eq_true'] at h
    exact ih (call_free hfree h.1) h.2

/-- Where no callback stages an invoke under the id of one that a later callback is for, every
callback is for an id that is free. -/
theorem told_free {due : List Outstanding} {scripts : List (List Call)}
    (hfree : ∀ p ∈ d.told c due scripts, p.1.id ∉ d.ids)
    (h : (d.told c due scripts).Pairwise fun p q => p.2.1.spares c q.1.id p.2.2 = true) :
    ∀ p ∈ d.told c due scripts, p.1.id ∉ p.2.1.ids := by
  induction due generalizing d scripts with
  | nil => simp [told]
  | cons invoke rest ih =>
    unfold told at hfree h ⊢
    split_ifs at hfree h ⊢
    · simp
    · exact ih hfree h
    · dsimp only at hfree h ⊢
      rw [List.pairwise_cons] at h
      intro p hp
      rcases List.mem_cons.mp hp with rfl | hp
      · exact hfree _ List.mem_cons_self
      · refine ih ?_ h.2 p hp
        intro q hq
        have hcalls := calls_free (hfree q (List.mem_cons_of_mem _ hq)) (h.1 q hq)
        simp only [Dialogue.act]
        split_ifs <;> exact hcalls

/-- The callbacks are for invokes that expired. -/
theorem told_subset {due : List Outstanding} {scripts : List (List Call)} :
    ∀ p ∈ d.told c due scripts, p.1 ∈ due := by
  induction due generalizing d scripts with
  | nil => simp [told]
  | cons invoke rest ih =>
    unfold told
    split_ifs
    · simp
    · exact fun p hp => List.mem_cons_of_mem _ (ih p hp)
    · intro p hp
      rcases List.mem_cons.mp hp with rfl | hp
      · exact List.mem_cons_self
      · exact List.mem_cons_of_mem _ (ih p hp)

/-- The callbacks when the timers of a dialogue run at a time. -/
def timeouts (c : Codec) (d : Dialogue) (now : ℕ) (scripts : List (List Call)) :
    List (Outstanding × Dialogue × List Call) :=
  (d.act c (.drain now)).told c (d.outstanding.filter fun o => o.expired now) scripts

theorem expired_free (h : d.ids.Nodup) (now : ℕ) {o : Outstanding} (ho : o ∈ d.outstanding)
    (hexpired : o.expired now = true) : o.id ∉ (d.act c (.drain now)).ids := by
  have hids : (d.outstanding.map Outstanding.id).Nodup ∧
      ∀ o ∈ d.outstanding, ∀ s ∈ d.staged, o.id ≠ s.id := by
    rw [ids, List.map_append, List.nodup_append] at h
    refine ⟨h.1, fun o ho s hs => ?_⟩
    exact h.2.2 _ (List.mem_map_of_mem ho) _ (List.mem_map_of_mem hs)
  intro hmem
  obtain ⟨s, hs, hsame⟩ := List.mem_map.mp hmem
  rcases List.mem_append.mp hs with hs | hs
  · simp only [Dialogue.act, List.partition_eq_filter_filter, List.mem_filter] at hs
    have heq : s = o := List.inj_on_of_nodup_map hids.1 hs.1 ho hsame
    rw [heq] at hs
    simp [hexpired] at hs
  · exact hids.2 o ho s hs hsame.symm

/-- In every dialogue reached the ids that are assigned are distinct, the next one is none of them
and there is one unless all are taken. When its timers run and no callback stages an invoke under
the id of one that a later callback is for, every callback is for an id that is free. -/
theorem invoke_ids (h : Reached c config d) :
    d.ids.Nodup ∧ (∀ id, d.allocateInvokeId.1 = some id → id ∉ d.ids) ∧
    (d.allocateInvokeId.1 = none ↔ ∀ id : InvokeId, -128 ≤ id → id ≤ 127 → id ∈ d.ids) ∧
    ∀ now scripts, (d.timeouts c now scripts).Pairwise
        (fun p q => p.2.1.spares c q.1.id p.2.2 = true) →
      ∀ p ∈ d.timeouts c now scripts, p.1.id ∉ p.2.1.ids := by
  refine ⟨h.nodup, ?_, allocateInvokeId_none, ?_⟩
  · intro id hid
    obtain ⟨d', heq⟩ : ∃ d', d.allocateInvokeId = (some id, d') := ⟨_, Prod.ext hid rfl⟩
    exact (allocateInvokeId_free heq).1
  · intro now scripts hpair
    apply told_free _ hpair
    intro p hp
    obtain ⟨hmem, hexpired⟩ := List.mem_filter.mp (told_subset p hp)
    exact expired_free h.nodup now hmem hexpired

end Dialogue

/-- The engine tells the handler of the timeouts at these callbacks. -/
theorem Engine.cancel_timeouts (c : Codec) (e : Engine) (handler : Handler) (now : ℕ)
    (d : Dialogue) (scripts : List (List Call)) :
    (e.cancel c handler now
      { d with outstanding := (d.outstanding.partition fun o => o.expired now).2 }
      (d.outstanding.partition fun o => o.expired now).1 scripts).2 = e.note handler d
      ((d.timeouts c now scripts).flatMap fun p =>
        .timesOut ⟨p.1.id, p.1.op, p.1.opClass⟩ now :: (p.2.1.calls c p.2.2).2) := by
  rw [Engine.cancel_log]
  simp only [Dialogue.timeouts, Dialogue.act, List.partition_eq_filter_filter]
  rfl

namespace Dialogue

/-- Two invokes that are passed on. -/
theorem invoke_ids_of_timeouts :
    ((answering.calls invokeCodec (invokes 2 ++ [.send 0])).1.timeouts invokeCodec
      (fromMillis 15000) []).all (fun p => p.1.id ∉ p.2.1.ids) = true := by
  have hreached : Reached invokeCodec ⟨15000, 30000, 10⟩
      (answering.calls invokeCodec (invokes 2 ++ [.send 0])).1 :=
    (reached_new _ _ _ _ _ (by decide)).calls _
  have htold := (invoke_ids hreached).2.2.2 (fromMillis 15000) [] (by decide +kernel)
  exact List.all_eq_true.mpr fun p hp => decide_eq_true (htold p hp)

/-- The dialogue has passed two invokes on, has used the other ids up, and has discarded those
invokes. -/
def cameRound : Dialogue :=
  (answering.calls invokeCodec (invokes 2 ++ [.send 0] ++ invokes 126 ++ [.discardStaged])).1

/-- When both invokes time out and the handler stages two more at the first callback, the second
callback is for an id that is staged. -/
theorem told_of_a_staged_id :
    ¬ ∀ (c : Codec) (config : Config) (d : Dialogue), d.Reached c config → ∀ now scripts,
      ∀ p ∈ d.timeouts c now scripts, p.1.id ∉ p.2.1.ids := by
  intro hall
  have hreached : cameRound.Reached invokeCodec ⟨15000, 30000, 10⟩ :=
    (reached_new _ _ _ _ _ (by decide)).calls _
  have hfree := hall invokeCodec ⟨15000, 30000, 10⟩ cameRound hreached (fromMillis 15000)
    [invokes 2]
  revert hfree
  decide +kernel

end Dialogue

end SiphonSigtran.Tcap
