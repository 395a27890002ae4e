import Mathlib.Data.List.Nodup
import Mathlib.Data.List.TakeWhile
import SiphonSigtran.Tcap.Engine
import SiphonSigtran.Tcap.Kept

/-!
# What becomes of our invokes

What a handler sees of its invokes, beside the components the peer sent. An invoke is
followed from its flush until its id is handed out again: it is in progress, or its timer
has run out and the handler is still to be told, or it is over.
-/

namespace SiphonSigtran.Tcap

/-- What happens with the invokes of a dialogue. -/
inductive Sight
  | handed (id : InvokeId)
  | flushed (invoke : Outstanding)
  | reads (component : Component) (shown : PeerComponent)
  | timesOut (timeout : InvokeTimeout) (now : ℕ)
  deriving DecidableEq, Repr

/-- What an event shows, in an operation that brings these components. -/
def Event.sights (components : List Component) : Event → List Sight
  | .handed id => [.handed id]
  | .flushed invokes => invokes.map .flushed
  | .continues turn => List.zipWith .reads components turn.components
  | .timesOut timeout now => [.timesOut timeout now]
  | _ => []

/-- A Reject of one of our invokes, by a general problem or an invoke problem. -/
def Reject.names (r : Reject) (id : InvokeId) : Bool :=
  match r.problem with
  | .general _ | .invoke _ => r.invokeId = some id
  | _ => false

/-- The handler is shown a result or an error of the invoke. -/
def PeerComponent.answers (id : InvokeId) : PeerComponent → Bool
  | .result id' _ _ | .error id' _ => id' = id
  | _ => false

namespace Sight

/-- After this the operation is no longer in progress. -/
def ends (id : InvokeId) : Sight → Bool
  | .reads (.returnResultLast r) _ => r.invokeId = id
  | .reads (.returnResultNotLast r) (.localReject _ _) => r.invokeId = id
  | .reads (.returnError e) _ => e.invokeId = id
  | .reads (.reject r) _ => r.names id
  | .timesOut timeout _ => timeout.invokeId = id
  | _ => false

/-- The handler is given the outcome of the operation. -/
def outcome (id : InvokeId) : Sight → Bool
  | .reads (.returnResultLast _) (.result id' _ _) => id' = id
  | .reads _ (.error id' _) => id' = id
  | .reads (.reject r) _ => r.names id
  | .timesOut timeout _ => timeout.invokeId = id
  | _ => false

def isReject : Sight → Bool
  | .reads (.reject _) _ => true
  | _ => false

/-- What may be seen of an invoke. -/
def Fits (o : Outstanding) : Sight → Prop
  | .reads (.returnResultLast r) shown | .reads (.returnResultNotLast r) shown =>
    if r.invokeId = o.id then
      (o.opClass.reportsSuccess = true ∧ ∃ op parameter, shown = .result o.id op parameter) ∨
      (o.opClass.reportsSuccess = false ∧
        shown = .localReject (some o.id) (.returnResult .returnResultUnexpected)) ∨
      shown = .localReject (some o.id) (.returnResult .unrecognizedInvokeId)
    else shown.answers o.id = false
  | .reads (.returnError e) shown =>
    if e.invokeId = o.id then
      (o.opClass.reportsFailure = true ∧ ∃ code, shown = .error o.id code) ∨
      (o.opClass.reportsFailure = false ∧
        shown = .localReject (some o.id) (.returnError .returnErrorUnexpected)) ∨
      shown = .localReject (some o.id) (.returnError .unrecognizedInvokeId)
    else shown.answers o.id = false
  | .reads _ shown => shown.answers o.id = false
  | .timesOut timeout now =>
    timeout.invokeId = o.id → timeout = ⟨o.id, o.op, o.opClass⟩ ∧ o.opClass ≠ .four ∧
      ∃ deadline, o.deadline = some deadline ∧ deadline ≤ now
  | _ => True

/-- What may be seen of an invoke that is over. -/
def Late (id : InvokeId) : Sight → Prop
  | .reads (.returnResultLast r) shown | .reads (.returnResultNotLast r) shown =>
    if r.invokeId = id then shown = .localReject (some id) (.returnResult .unrecognizedInvokeId)
    else shown.answers id = false
  | .reads (.returnError e) shown =>
    if e.invokeId = id then shown = .localReject (some id) (.returnError .unrecognizedInvokeId)
    else shown.answers id = false
  | .reads _ shown => shown.answers id = false
  | .timesOut timeout _ => timeout.invokeId ≠ id
  | _ => True

end Sight

/-- The final outcomes of an operation, in what is seen since its flush. A Reject of an
operation that is over ends nothing. -/
def outcomes (id : InvokeId) (span : List Sight) : List Sight :=
  match span.dropWhile fun x => !x.ends id with
  | [] => []
  | x :: after => [x].filter (Sight.outcome id) ++
      after.filter fun y => y.outcome id && !y.isReject

/-- One of our invokes has at most one final outcome, and only a fitting one. -/
structure Law (o : Outstanding) (span : List Sight) : Prop where
  once : (outcomes o.id span).length ≤ 1
  fits : ∀ x ∈ span, x.Fits o
  late : ∀ before x after, span = before ++ x :: after → x.ends o.id = true →
    ∀ y ∈ after, y.Late o.id

/-- What is seen from the flush of an invoke on, while its id is not handed out again. -/
def Window (seen : List Sight) (o : Outstanding) (span : List Sight) : Prop :=
  (∃ before, seen = before ++ .flushed o :: span) ∧ .handed o.id ∉ span

/-- Every invoke that was flushed meets the law until its id is handed out again. -/
def Lawful (seen : List Sight) : Prop := ∀ o span, Window seen o span → Law o span

theorem window_append {seen : List Sight} {x : Sight} {o : Outstanding} {span : List Sight}
    (h : Window (seen ++ [x]) o span) :
    (x = .flushed o ∧ span = []) ∨
    ∃ span', Window seen o span' ∧ x ≠ .handed o.id ∧ span = span' ++ [x] := by
  obtain ⟨⟨before, heq⟩, hfree⟩ := h
  rcases List.eq_nil_or_concat' span with rfl | ⟨span', y, rfl⟩
  · left
    have hlast := (List.append_inj' heq rfl).2
    exact ⟨(List.cons.inj hlast).1, rfl⟩
  · right
    rw [← List.cons_append, ← List.append_assoc] at heq
    obtain ⟨hseen, hlast⟩ := List.append_inj' heq rfl
    obtain rfl := (List.cons.inj hlast).1
    simp only [List.mem_append, List.mem_singleton, not_or] at hfree
    exact ⟨span', ⟨⟨before, hseen⟩, hfree.1⟩, fun hx => hfree.2 hx.symm, rfl⟩

/-! ## The law, one sight after the other -/

theorem dropWhile_ends {id : InvokeId} {span : List Sight} (h : ∀ x ∈ span, x.ends id = false) :
    (span.dropWhile fun x => !x.ends id) = [] := by
  rw [List.dropWhile_eq_nil_iff]
  intro x hx
  simp [h x hx]

theorem Sight.Late.answers {id : InvokeId} {component : Component} {shown : PeerComponent}
    (h : (Sight.reads component shown).Late id) : shown.answers id = false := by
  cases component with
  | returnResultLast r | returnResultNotLast r | returnError r =>
    simp only [Late] at h
    split_ifs at h
    · rw [h]
      rfl
    · exact h
  | _ => exact h

/-- A sight that is late is no outcome, unless it is a Reject. -/
theorem Sight.Late.no_outcome {id : InvokeId} {x : Sight} (h : x.Late id) :
    (x.outcome id && !x.isReject) = false := by
  cases x with
  | reads component shown =>
    have hanswers := h.answers
    cases component <;> cases shown <;> simp_all [PeerComponent.answers, outcome, isReject]
  | timesOut timeout now => simpa [Late, outcome, isReject] using h
  | _ => rfl

theorem Law.nil (o : Outstanding) : Law o [] := by
  refine ⟨by simp [outcomes], by simp, ?_⟩
  intro before x after h
  simp at h

/-- While an operation is in progress, any fitting sight may be next. -/
theorem Law.append_open {o : Outstanding} {span : List Sight} (h : Law o span)
    (hopen : ∀ x ∈ span, x.ends o.id = false) {x : Sight} (hx : x.Fits o) :
    Law o (span ++ [x]) := by
  refine ⟨?_, ?_, ?_⟩
  · unfold outcomes
    rw [List.dropWhile_append, dropWhile_ends hopen]
    simp only [List.isEmpty_nil, ↓reduceIte]
    cases hends : x.ends o.id with
    | false => simp [hends]
    | true =>
      simp only [List.dropWhile_cons, hends, Bool.not_true, Bool.false_eq_true, ↓reduceIte,
        List.filter_nil, List.append_nil]
      exact List.length_filter_le _ _
  · intro y hy
    rcases List.mem_append.mp hy with hy | hy
    · exact h.fits y hy
    · rwa [List.mem_singleton.mp hy]
  · intro before y after heq hends z hz
    rcases List.eq_nil_or_concat' after with rfl | ⟨after', w, rfl⟩
    · cases hz
    · rw [← List.cons_append, ← List.append_assoc] at heq
      have hspan := (List.append_inj' heq rfl).1
      have hfalse := hopen y (hspan ▸ List.mem_append_right before List.mem_cons_self)
      rw [hfalse] at hends
      cases hends

/-- Once it is over, only late ones. -/
theorem Law.append_late {o : Outstanding} {span : List Sight} (h : Law o span) {x : Sight}
    (hx : x.Fits o) (hlate : x.Late o.id) : Law o (span ++ [x]) := by
  by_cases hopen : ∀ y ∈ span, y.ends o.id = false
  · exact h.append_open hopen hx
  · refine ⟨?_, ?_, ?_⟩
    · have honce := h.once
      unfold outcomes at honce ⊢
      rw [List.dropWhile_append]
      cases hdrop : span.dropWhile fun y => !y.ends o.id with
      | nil =>
        rw [List.dropWhile_eq_nil_iff] at hdrop
        exact absurd (fun y hy => by simpa using hdrop y hy) hopen
      | cons y after =>
        rw [hdrop] at honce
        simpa [List.filter_append, hlate.no_outcome] using honce
    · intro y hy
      rcases List.mem_append.mp hy with hy | hy
      · exact h.fits y hy
      · rwa [List.mem_singleton.mp hy]
    · intro before y after heq hends z hz
      rcases List.eq_nil_or_concat' after with rfl | ⟨after', w, rfl⟩
      · cases hz
      · rw [← List.cons_append, ← List.append_assoc] at heq
        obtain ⟨hspan, hlast⟩ := List.append_inj' heq rfl
        obtain rfl := (List.cons.inj hlast).1
        rcases List.mem_append.mp hz with hz | hz
        · exact h.late before y after' hspan hends z hz
        · rwa [List.mem_singleton.mp hz]

/-! ## The invokes of a dialogue -/

theorem Outstanding.expired_iff {o : Outstanding} {now : ℕ} :
    o.expired now = true ↔ ∃ deadline, o.deadline = some deadline ∧ deadline ≤ now := by
  unfold Outstanding.expired
  cases o.deadline <;> simp

@[simp] theorem Dialogue.started_id (now : ℕ) (o : Outstanding) : (started now o).id = o.id := rfl

namespace Dialogue

/-- The ids that are assigned. -/
def ids (d : Dialogue) : List InvokeId := (d.outstanding ++ d.staged).map Outstanding.id

theorem inUse_eq_true {d : Dialogue} {id : InvokeId} : d.inUse id = true ↔ id ∈ d.ids := by
  simp only [inUse, ids, Bool.or_eq_true, List.any_eq_true, decide_eq_true_eq, List.map_append,
    List.mem_append, List.mem_map]

end Dialogue

/-- How far an invoke got that was flushed: in progress, or about to be notified of its
timeout, or over. -/
inductive Phase (o : Outstanding) (span : List Sight) (d : Dialogue) (due : List Outstanding) :
    Prop
  | running (hopen : ∀ x ∈ span, x.ends o.id = false) (hmem : o ∈ d.outstanding)
  | waiting (hopen : ∀ x ∈ span, x.ends o.id = false) (hmem : o ∈ due) (hfree : o.id ∉ d.ids)
  | past (hfree : o.id ∉ d.ids) (hnot : o.id ∉ due.map Outstanding.id)

/-- What holds of an open dialogue and of those of its invokes that have expired and are not
notified yet. -/
structure Tracks (seen : List Sight) (d : Dialogue) (due : List Outstanding) : Prop where
  ids : d.ids.Nodup
  dues : (due.map Outstanding.id).Nodup
  phase : ∀ o span, Window seen o span → Phase o span d due

/-- The handler has seen only what is lawful, and the dialogue is as it has seen unless it is
closed. -/
def Followed (seen : List Sight) (d : Dialogue) (due : List Outstanding) : Prop :=
  Lawful seen ∧ (d.closed = none → Tracks seen d due)

theorem Lawful.nil : Lawful [] := by
  rintro o span ⟨⟨before, h⟩, -⟩
  cases before <;> cases h

/-- One more sight is lawful where every invoke in each phase may be seen so. -/
theorem Lawful.append {seen : List Sight} (h : Lawful seen) {x : Sight}
    (hx : ∀ o span, Window seen o span → x ≠ .handed o.id →
      x.Fits o ∧ ((∀ y ∈ span, y.ends o.id = false) ∨ x.Late o.id)) :
    Lawful (seen ++ [x]) := by
  intro o span hspan
  rcases window_append hspan with ⟨-, rfl⟩ | ⟨span', hold, hne, rfl⟩
  · exact Law.nil o
  · obtain ⟨hfits, hopen | hlate⟩ := hx o span' hold hne
    · exact (h o span' hold).append_open hopen hfits
    · exact (h o span' hold).append_late hfits hlate

/-- A sight that leaves every invoke in a phase. -/
theorem Tracks.append {seen : List Sight} {d d' : Dialogue} {due due' : List Outstanding}
    (h : Tracks seen d due) (hids : d'.ids.Nodup) (hdues : (due'.map Outstanding.id).Nodup)
    {x : Sight} (hx : ∀ o span, Phase o span d due → x ≠ .handed o.id →
      Phase o (span ++ [x]) d' due')
    (hflushed : ∀ o, x = .flushed o → Phase o [] d' due') : Tracks (seen ++ [x]) d' due' := by
  refine ⟨hids, hdues, ?_⟩
  intro o span hspan
  rcases window_append hspan with ⟨hlast, rfl⟩ | ⟨span', hold, hne, rfl⟩
  · exact hflushed o hlast
  · exact hx o span' (h.phase o span' hold) hne

/-- In any phase the invoke is in progress as seen, or not among those that are. -/
theorem Phase.open_or_free {o : Outstanding} {span : List Sight} {d : Dialogue}
    {due : List Outstanding} (h : Phase o span d due) :
    (∀ x ∈ span, x.ends o.id = false) ∨ o.id ∉ d.ids ∧ o.id ∉ due.map Outstanding.id := by
  cases h with
  | running hopen hmem => exact .inl hopen
  | waiting hopen hmem hfree => exact .inl hopen
  | past hfree hnot => exact .inr ⟨hfree, hnot⟩

theorem open_append {o : Outstanding} {span : List Sight} {x : Sight}
    (hopen : ∀ y ∈ span, y.ends o.id = false) (hx : x.ends o.id = false) :
    ∀ y ∈ span ++ [x], y.ends o.id = false := by
  intro y hy
  rcases List.mem_append.mp hy with hy | hy
  · exact hopen y hy
  · rwa [List.mem_singleton.mp hy]

/-! ## What a call can do -/

/-- What a call does with the invokes of an open dialogue. -/
inductive Deed (d : Dialogue) : List Event → Dialogue → Prop
  | quiet (d' : Dialogue) (ho : d'.outstanding = d.outstanding)
      (hs : d'.staged = d.staged ∨ d'.staged = []) : Deed d [] d'
  | hands (o : Outstanding) (d' : Dialogue) (hfree : o.id ∉ d.ids)
      (ho : d'.outstanding = d.outstanding) (hs : d'.staged = d.staged ++ [o]) :
      Deed d [.handed o.id] d'
  | sends (now : ℕ) (d' : Dialogue)
      (ho : d'.outstanding = d.outstanding ++ d.staged.map (Dialogue.started now))
      (hs : d'.staged = []) : Deed d [.flushed (d.staged.map (Dialogue.started now))] d'
  | closes (d' : Dialogue) (hc : d'.closed ≠ none) (hids : d'.ids = []) : Deed d [] d'

namespace Dialogue

variable {c : Codec}

theorem allocateInvokeId_free {d d' : Dialogue} {id : InvokeId}
    (h : d.allocateInvokeId = (some id, d')) : id ∉ d.ids ∧ d'.outstanding = d.outstanding ∧
      d'.staged = d.staged ∧ d'.pending = d.pending ∧ d'.defaultInvokeTimeout =
        d.defaultInvokeTimeout := by
  unfold allocateInvokeId at h
  split at h
  · cases h
  · rename_i id' hfind
    obtain ⟨hid, hd⟩ := Prod.mk.inj h
    obtain rfl := Option.some.inj hid
    have hfree := List.find?_some hfind
    refine ⟨fun hmem => ?_, ?_⟩
    · simp [inUse_eq_true.mpr hmem] at hfree
    · rw [← hd]
      split_ifs <;> exact ⟨rfl, rfl, rfl, rfl⟩

theorem abortAs_ids {d : Dialogue} (hc : d.closed = none) (reason : CloseReason) :
    (d.abortAs c reason).2.ids = [] := by
  rcases abortAs_cases (c := c) d reason with ⟨hclosed, -⟩ | ⟨-, -, h⟩ | ⟨-, -, h⟩
  · simp [hc] at hclosed
  · rw [h]
    rfl
  · rw [h]
    unfold emit
    split <;> rfl

theorem call_deed {d : Dialogue} (hc : d.closed = none) (call : Call) :
    Deed d (d.call c call).2 (d.call c call).1 := by
  cases call with
  | invokeWith op argument opClass timeout =>
    have hopen : d.closed.isSome = false := by simp [hc]
    unfold Dialogue.call invokeWith
    simp only [hopen, Bool.false_eq_true, ↓reduceIte]
    cases halloc : d.allocateInvokeId with
    | mk id d' =>
      cases id with
      | none =>
        have hsame : d' = d := by
          unfold allocateInvokeId at halloc
          split at halloc
          · exact (Prod.mk.inj halloc).2.symm
          · cases (Prod.mk.inj halloc).1
        exact .quiet d' (by rw [hsame]) (.inl (by rw [hsame]))
      | some id =>
        obtain ⟨hfree, ho, hs, -, -⟩ := allocateInvokeId_free halloc
        exact .hands ⟨id, op, opClass, timeout.getD d'.defaultInvokeTimeout, none⟩ _ hfree ho
          (by rw [← hs])
  | send now =>
    unfold Dialogue.call send
    dsimp only
    rcases flush_cases (c := c) d false now with ⟨h, -⟩ | ⟨-, -, -, h⟩
      | ⟨-, -, ⟨e, -, h⟩ | ⟨msu, -, h⟩⟩
    · simp [hc] at h
    · rw [h]
      exact .quiet _ rfl (.inl rfl)
    · rw [h]
      exact .quiet _ rfl (.inr rfl)
    · rw [h]
      exact .sends now _ rfl rfl
  | sendEnd =>
    unfold Dialogue.call sendEnd
    dsimp only
    rcases flush_cases (c := c) d true 0 with ⟨h, -⟩ | ⟨-, -, -, h⟩
      | ⟨-, -, ⟨e, -, h⟩ | ⟨msu, -, h⟩⟩
    · simp [hc] at h
    · rw [h]
      exact .quiet _ rfl (.inl rfl)
    · rw [h]
      exact .quiet _ rfl (.inr rfl)
    · rw [h]
      exact .closes _ (by simp) rfl
  | abort => exact .closes _ (d.abortAs_closed .aborted) (abortAs_ids hc .aborted)
  | discardStaged => exact .quiet _ rfl (.inr rfl)
  | _ => exact .quiet _ rfl (.inl rfl)

/-- Nothing happens with the invokes of a closed dialogue. -/
theorem call_closed {d : Dialogue} (hc : d.closed ≠ none) (call : Call) :
    (d.call c call).2 = [] ∧ (d.call c call).1.closed = d.closed := by
  have hsome : d.closed.isSome = true := Option.isSome_iff_ne_none.mpr hc
  cases call with
  | invokeWith op argument opClass timeout => simp [Dialogue.call, invokeWith, hsome]
  | send now => simp [Dialogue.call, send, flush, hsome]
  | sendEnd => simp [Dialogue.call, sendEnd, flush, hsome]
  | abort => simp [Dialogue.call, Dialogue.abort, abortAs, hsome]
  | _ => exact ⟨rfl, rfl⟩

end Dialogue

/-- Invokes stay in their phases when none leaves and no id is assigned anew. -/
theorem Phase.mono {o : Outstanding} {span : List Sight} {d d' : Dialogue}
    {due : List Outstanding} (h : Phase o span d due)
    (hstays : o ∈ d.outstanding → o ∈ d'.outstanding) (hids : d'.ids ⊆ d.ids) :
    Phase o span d' due := by
  cases h with
  | running hopen hmem => exact .running hopen (hstays hmem)
  | waiting hopen hmem hfree => exact .waiting hopen hmem fun hin => hfree (hids hin)
  | past hfree hnot => exact .past (fun hin => hfree (hids hin)) hnot

namespace Followed

variable {seen : List Sight} {d d' : Dialogue} {due : List Outstanding}

theorem mono (h : Followed seen d due) (hc : d'.closed = none → d.closed = none)
    (ho : d'.outstanding = d.outstanding) (hids : d'.ids.Sublist d.ids) :
    Followed seen d' due := by
  refine ⟨h.1, fun hopen => ?_⟩
  have htracks := h.2 (hc hopen)
  refine ⟨htracks.ids.sublist hids, htracks.dues, fun o span hspan => ?_⟩
  exact (htracks.phase o span hspan).mono (fun hmem => by rwa [ho]) hids.subset

theorem abortAs {c : Codec} (h : Followed seen d due) (reason : CloseReason) :
    Followed seen (d.abortAs c reason).2 due :=
  ⟨h.1, fun hopen => absurd hopen (d.abortAs_closed reason)⟩

/-- Invokes that are in progress are seen to be flushed. -/
theorem flushed (h : Followed seen d due) (os : List Outstanding)
    (hos : ∀ o ∈ os, o ∈ d.outstanding) :
    Followed (seen ++ os.map .flushed) d due := by
  induction os generalizing seen with
  | nil => simpa using h
  | cons o os ih =>
    have hone : Followed (seen ++ [.flushed o]) d due := by
      refine ⟨h.1.append fun o' span _ _ => ⟨trivial, .inr trivial⟩, fun hc => ?_⟩
      have htracks := h.2 hc
      refine htracks.append htracks.ids htracks.dues ?_ ?_
      · intro o' span hphase _
        cases hphase with
        | running hopen hmem => exact .running (open_append hopen rfl) hmem
        | waiting hopen hmem hfree => exact .waiting (open_append hopen rfl) hmem hfree
        | past hfree hnot => exact .past hfree hnot
      · intro o' heq
        obtain rfl := Sight.flushed.inj heq
        exact .running (by simp) (hos o List.mem_cons_self)
    have hrest := ih hone fun o' ho' => hos o' (List.mem_cons_of_mem _ ho')
    simpa using hrest

theorem deed (h : Followed seen d due) (hc : d.closed = none) {events : List Event}
    (hd : Deed d events d') (components : List Component) :
    Followed (seen ++ events.flatMap (Event.sights components)) d' due := by
  cases hd with
  | quiet _ ho hs =>
    have hids : d'.ids.Sublist d.ids := by
      unfold Dialogue.ids
      rcases hs with hs | hs
      · rw [ho, hs]
      · rw [ho, hs, List.append_nil]
        exact (List.sublist_append_left _ _).map _
    simpa using h.mono (fun _ => hc) ho hids
  | hands o _ hfree ho hs =>
    have hids : d'.ids = d.ids ++ [o.id] := by
      unfold Dialogue.ids
      rw [ho, hs]
      simp
    have htracks := h.2 hc
    refine ⟨h.1.append fun o' span _ _ => ⟨trivial, .inr trivial⟩, fun _ => ?_⟩
    refine htracks.append ?_ htracks.dues ?_ (by simp)
    · rw [hids]
      simpa using htracks.ids.concat hfree
    · intro o' span hphase hne
      have hother : ∀ id ∈ d'.ids, id ∈ d.ids ∨ id = o.id := by
        intro id hid
        simpa [hids] using hid
      have hapart : o'.id ≠ o.id := fun heq => hne (by rw [heq])
      cases hphase with
      | running hopen hmem => exact .running (open_append hopen rfl) (by rwa [ho])
      | waiting hopen hmem hnone =>
        exact .waiting (open_append hopen rfl) hmem fun hin =>
          (hother _ hin).elim hnone hapart
      | past hnone hnot => exact .past (fun hin => (hother _ hin).elim hnone hapart) hnot
  | sends now _ ho hs =>
    have hids : d'.ids = d.ids := by
      unfold Dialogue.ids
      rw [ho, hs]
      simp [Function.comp_def]
    have hsame : Followed seen d' due := by
      refine ⟨h.1, fun _ => ?_⟩
      have htracks := h.2 hc
      refine ⟨hids ▸ htracks.ids, htracks.dues, fun o span hspan => ?_⟩
      refine (htracks.phase o span hspan).mono (fun hmem => ?_) fun id hid => hids ▸ hid
      rw [ho]
      exact List.mem_append_left _ hmem
    have hall := hsame.flushed (d.staged.map (Dialogue.started now)) fun o hmem => by
      rw [ho]
      exact List.mem_append_right _ hmem
    simpa [Event.sights] using hall
  | closes _ hclosed _ =>
    refine ⟨?_, fun hopen => absurd hopen hclosed⟩
    simpa using h.1

/-- The calls of a handler in one callback. -/
theorem calls {c : Codec} (h : Followed seen d due) (script : List Call)
    (components : List Component) :
    Followed (seen ++ (d.calls c script).2.flatMap (Event.sights components))
      (d.calls c script).1 due := by
  induction script generalizing seen d with
  | nil => simpa [Dialogue.calls] using h
  | cons call rest ih =>
    have hone : Followed (seen ++ (d.call c call).2.flatMap (Event.sights components))
        (d.call c call).1 due := by
      by_cases hc : d.closed = none
      · exact h.deed hc (Dialogue.call_deed hc call) components
      · obtain ⟨hevents, hclosed⟩ := Dialogue.call_closed (c := c) hc call
        refine ⟨?_, fun hopen => absurd (hclosed ▸ hopen) hc⟩
        simpa [hevents] using h.1
    have hrest := ih hone
    simpa [Dialogue.calls, List.append_assoc] using hrest

end Followed

/-! ## What the peer sends -/

/-- The invokes that keep their place when one is released. -/
theorem Tracks.release {seen : List Sight} {d : Dialogue} (h : Tracks seen d [])
    (id : InvokeId) :
    (d.release id).outstanding = d.outstanding.filter fun o => o.id ≠ id := by
  have hnodup : (d.outstanding.map Outstanding.id).Nodup := by
    have hids := h.ids
    rw [Dialogue.ids, List.map_append] at hids
    exact hids.of_append_left
  unfold Dialogue.release
  dsimp only
  generalize d.outstanding = os at hnodup
  induction os with
  | nil => rfl
  | cons o os ih =>
    rw [List.map_cons, List.nodup_cons] at hnodup
    by_cases ho : o.id = id
    · have hrest : os.filter (fun o => o.id ≠ id) = os := by
        rw [List.filter_eq_self]
        intro o' ho'
        have hne : o'.id ≠ id := fun heq => hnodup.1 (List.mem_map.mpr ⟨o', ho', heq.trans ho.symm⟩)
        simpa using hne
      rw [List.eraseP_cons_of_pos (by simpa using ho), List.filter_cons_of_neg (by simpa using ho),
        hrest]
    · simp [ho, ih hnodup.2]

theorem Reject.invokeId_of_names {r : Reject} {id : InvokeId} (h : r.names id = true) :
    r.invokeId = some id := by
  unfold Reject.names at h
  split at h
  · exact of_decide_eq_true h
  · exact of_decide_eq_true h
  · cases h

namespace Dialogue

theorem rejectHere_outstanding (d : Dialogue) (isEnd : Bool) (reject : Reject) :
    (d.rejectHere isEnd reject).2.outstanding = d.outstanding ∧
      (d.rejectHere isEnd reject).2.staged = d.staged := by
  unfold rejectHere
  dsimp only
  split_ifs <;> exact ⟨rfl, rfl⟩

/-- What the peer sends starts no invoke of ours. -/
theorem receiveComponent_sublist (d : Dialogue) (isEnd : Bool) (component : Component) :
    (d.receiveComponent isEnd component).2.outstanding.Sublist d.outstanding := by
  have hreject : ∀ (d' : Dialogue) (reject : Reject), d'.outstanding.Sublist d.outstanding →
      (d'.rejectHere isEnd reject).2.outstanding.Sublist d.outstanding := by
    intro d' reject h
    rw [(rejectHere_outstanding d' isEnd reject).1]
    exact h
  have hrelease : ∀ id, (d.release id).outstanding.Sublist d.outstanding :=
    fun id => List.eraseP_sublist
  have hresult : ∀ last r, (d.receiveResult isEnd last r).2.outstanding.Sublist d.outstanding := by
    intro last r
    unfold receiveResult
    split
    · exact hreject _ _ (List.Sublist.refl _)
    · split_ifs
      · exact hreject _ _ (hrelease _)
      · exact hrelease _
      · exact List.Sublist.refl _
  cases component with
  | invoke i =>
    unfold receiveComponent
    dsimp only
    split_ifs
    · exact hreject _ _ (List.Sublist.refl _)
    · exact List.Sublist.refl _
  | returnResultLast r => exact hresult true r
  | returnResultNotLast r => exact hresult false r
  | returnError e =>
    unfold receiveComponent receiveError
    dsimp only
    split
    · exact hreject _ _ (List.Sublist.refl _)
    · split_ifs
      · exact hreject _ _ (hrelease _)
      · exact hrelease _
  | reject r =>
    unfold receiveComponent receiveReject
    dsimp only
    split
    · exact List.filter_sublist
    · exact List.filter_sublist
    · exact List.Sublist.refl _

theorem receive_sublist (d : Dialogue) (isEnd : Bool) (components : List Component)
    (rejected : Option Rejected) :
    (d.receive isEnd components rejected).2.outstanding.Sublist d.outstanding := by
  have hread : (d.receiveComponents isEnd components).2.outstanding.Sublist d.outstanding := by
    induction components generalizing d with
    | nil => exact List.Sublist.refl _
    | cons component rest ih => exact (ih _).trans (d.receiveComponent_sublist isEnd component)
  unfold receive
  cases rejected with
  | none => exact hread
  | some r =>
    unfold stageRejected
    dsimp only
    split <;> exact hread

end Dialogue

/-- A result, whether it is the last one or not. -/
def Component.result (last : Bool) (r : ReturnResult) : Component :=
  if last then .returnResultLast r else .returnResultNotLast r

namespace Sight

variable {last : Bool} {r : ReturnResult} {shown : PeerComponent}

theorem fits_result {o : Outstanding} : (Sight.reads (.result last r) shown).Fits o ↔
    if r.invokeId = o.id then
      (o.opClass.reportsSuccess = true ∧ ∃ op parameter, shown = .result o.id op parameter) ∨
      (o.opClass.reportsSuccess = false ∧
        shown = .localReject (some o.id) (.returnResult .returnResultUnexpected)) ∨
      shown = .localReject (some o.id) (.returnResult .unrecognizedInvokeId)
    else shown.answers o.id = false := by
  cases last <;> rfl

theorem late_result {id : InvokeId} : (Sight.reads (.result last r) shown).Late id ↔
    if r.invokeId = id then shown = .localReject (some id) (.returnResult .unrecognizedInvokeId)
    else shown.answers id = false := by
  cases last <;> rfl

theorem ends_result {id : InvokeId} (h : (Sight.reads (.result last r) shown).ends id = true) :
    r.invokeId = id := by
  cases last <;> cases shown <;> simp_all [Component.result, ends]

theorem ends_not_last {id id' : InvokeId} {op : Option ℤ} {parameter : Option Bytes} :
    (Sight.reads (.result false r) (.result id' op parameter)).ends id = false := rfl

end Sight

namespace Followed

variable {seen : List Sight} {d d' : Dialogue}

/-- A component is read. At most the invoke `left` is no longer in progress after it. -/
theorem reads (h : Followed seen d []) (hc : d.closed = none) {component : Component}
    {shown : PeerComponent} (left : Option InvokeId) (hs : d'.staged = d.staged)
    (ho : d'.outstanding = d.outstanding.filter fun o => some o.id ≠ left)
    (hfits : ∀ o ∈ d.outstanding, (Sight.reads component shown).Fits o ∧
      ((Sight.reads component shown).ends o.id = true → left = some o.id))
    (hlate : ∀ o : Outstanding, o.id ∉ d.outstanding.map Outstanding.id →
      (Sight.reads component shown).Fits o ∧ (Sight.reads component shown).Late o.id) :
    Followed (seen ++ [.reads component shown]) d' [] := by
  have htracks := h.2 hc
  have hids : d'.ids.Sublist d.ids := by
    unfold Dialogue.ids
    rw [ho, hs]
    exact (List.filter_sublist.append_right _).map _
  have hfree : ∀ {o : Outstanding}, o.id ∉ d.ids → o.id ∉ d.outstanding.map Outstanding.id := by
    intro o hnone hin
    apply hnone
    rw [Dialogue.ids, List.map_append]
    exact List.mem_append_left _ hin
  refine ⟨h.1.append fun o span hspan _ => ?_, fun _ => ?_⟩
  · cases htracks.phase o span hspan with
    | running hopen hmem => exact ⟨(hfits o hmem).1, .inl hopen⟩
    | waiting _ hmem _ => cases hmem
    | past hnone _ =>
      obtain ⟨hfit, hlate⟩ := hlate o (hfree hnone)
      exact ⟨hfit, .inr hlate⟩
  · refine htracks.append (htracks.ids.sublist hids) htracks.dues ?_ (by simp)
    intro o span hphase _
    cases hphase with
    | running hopen hmem =>
      by_cases hleft : left = some o.id
      · refine .past (fun hin => ?_) (by simp)
        have hnodup := htracks.ids
        rw [Dialogue.ids, List.map_append, List.nodup_append] at hnodup
        rw [Dialogue.ids, List.map_append, List.mem_append, ho, hs] at hin
        rcases hin with hin | hin
        · obtain ⟨o', ho', heq⟩ := List.mem_map.mp hin
          have hne := (List.mem_filter.mp ho').2
          rw [heq, hleft] at hne
          simp at hne
        · exact hnodup.2.2 _ (List.mem_map.mpr ⟨o, hmem, rfl⟩) _ hin rfl
      · have hends : (Sight.reads component shown).ends o.id = false := by
          rw [← Bool.not_eq_true]
          exact fun hends => hleft ((hfits o hmem).2 hends)
        refine .running (open_append hopen hends) ?_
        have hne : some o.id ≠ left := fun heq => hleft heq.symm
        rw [ho, List.mem_filter]
        exact ⟨hmem, by simpa using hne⟩
    | waiting _ hmem _ => cases hmem
    | past hnone hnot => exact .past (fun hin => hnone (hids.subset hin)) hnot

/-- A result or an error of the invoke `id`. It fits the invoke of that id if there is one, and
otherwise is late. -/
theorem answer (h : Followed seen d []) (hc : d.closed = none) {component : Component}
    {shown : PeerComponent} {id : InvokeId} {left : Option InvokeId}
    (hs : d'.staged = d.staged)
    (ho : d'.outstanding = d.outstanding.filter fun o => some o.id ≠ left)
    (hother : ∀ o : Outstanding, id ≠ o.id → (Sight.reads component shown).Fits o ∧
      (Sight.reads component shown).Late o.id ∧ (Sight.reads component shown).ends o.id = false)
    (hown : ∀ o ∈ d.outstanding, o.id = id → (Sight.reads component shown).Fits o ∧
      ((Sight.reads component shown).ends o.id = true → left = some o.id))
    (hnone : (∀ o ∈ d.outstanding, o.id ≠ id) → ∀ o : Outstanding, o.id = id →
      (Sight.reads component shown).Fits o ∧ (Sight.reads component shown).Late o.id) :
    Followed (seen ++ [.reads component shown]) d' [] := by
  refine h.reads hc left hs ho ?_ ?_
  · intro o hmem
    by_cases hid : o.id = id
    · exact hown o hmem hid
    · obtain ⟨hfits, -, hends⟩ := hother o fun heq => hid heq.symm
      exact ⟨hfits, fun htrue => absurd htrue (by simp [hends])⟩
  · intro o hfree
    by_cases hid : o.id = id
    · refine hnone (fun o' ho' heq => hfree ?_) o hid
      exact List.mem_map.mpr ⟨o', ho', heq.trans hid.symm⟩
    · obtain ⟨hfits, hlate, -⟩ := hother o fun heq => hid heq.symm
      exact ⟨hfits, hlate⟩

/-- No invoke is released. -/
theorem filter_none (os : List Outstanding) : os = os.filter fun o => some o.id ≠ none := by
  simp

theorem release_outstanding (h : Followed seen d []) (hc : d.closed = none) (id : InvokeId) :
    (d.release id).outstanding = d.outstanding.filter fun o => some o.id ≠ some id := by
  rw [(h.2 hc).release]
  simp

/-- The invoke of an id, if it is in progress. -/
theorem find_outstanding (h : Followed seen d []) (hc : d.closed = none) (id : InvokeId) :
    ((d.outstanding.find? fun o => o.id = id) = none ∧ ∀ o ∈ d.outstanding, o.id ≠ id) ∨
    ∃ o, (d.outstanding.find? fun o => o.id = id) = some o ∧ o ∈ d.outstanding ∧ o.id = id ∧
      ∀ o' ∈ d.outstanding, o'.id = id → o' = o := by
  have hnodup := (h.2 hc).ids
  rw [Dialogue.ids, List.map_append] at hnodup
  cases hfind : d.outstanding.find? fun o => o.id = id with
  | none =>
    left
    refine ⟨rfl, fun o ho => ?_⟩
    simpa using List.find?_eq_none.mp hfind o ho
  | some o =>
    right
    have ho : o.id = id := by simpa using List.find?_some hfind
    have hmem := List.mem_of_find?_eq_some hfind
    refine ⟨o, rfl, hmem, ho, fun o' ho' hid => ?_⟩
    exact List.inj_on_of_nodup_map hnodup.of_append_left ho' hmem (hid.trans ho.symm)

theorem receiveResult (h : Followed seen d []) (hc : d.closed = none) (isEnd last : Bool)
    (r : ReturnResult) :
    Followed (seen ++ [.reads (.result last r) (d.receiveResult isEnd last r).1])
      (d.receiveResult isEnd last r).2 [] := by
  -- Where the id is another's, what is shown answers neither.
  have hother : ∀ shown : PeerComponent, (∀ id, shown.answers id = true → id = r.invokeId) →
      ∀ o : Outstanding, r.invokeId ≠ o.id → (Sight.reads (.result last r) shown).Fits o ∧
        (Sight.reads (.result last r) shown).Late o.id ∧
        (Sight.reads (.result last r) shown).ends o.id = false := by
    intro shown hshown o hne
    have hanswers : shown.answers o.id = false := by
      rw [← Bool.not_eq_true]
      exact fun heq => hne (hshown _ heq).symm
    have hends : (Sight.reads (.result last r) shown).ends o.id = false := by
      rw [← Bool.not_eq_true]
      exact fun hends => hne (Sight.ends_result hends)
    rw [Sight.fits_result, Sight.late_result, if_neg hne, if_neg hne]
    exact ⟨hanswers, hanswers, hends⟩
  have hreject : ∀ problem id, (PeerComponent.localReject (some r.invokeId) problem).answers id =
      true → id = r.invokeId := by
    intro problem id hid
    cases hid
  have hreleased := h.release_outstanding hc r.invokeId
  unfold Dialogue.receiveResult
  rcases h.find_outstanding hc r.invokeId with ⟨hfind, hnot⟩ | ⟨o, hfind, hmem, hid, hone⟩
  · rw [hfind]
    obtain ⟨ho, hs⟩ := Dialogue.rejectHere_outstanding d isEnd
      ⟨some r.invokeId, .returnResult .unrecognizedInvokeId⟩
    refine h.answer hc hs (ho.trans (filter_none _)) (hother _ (hreject _)) ?_ ?_
    · exact fun o ho hid => absurd hid (hnot o ho)
    · intro _ o hid
      rw [Sight.fits_result, Sight.late_result, if_pos hid.symm, if_pos hid.symm, hid]
      exact ⟨.inr (.inr rfl), rfl⟩
  · rw [hfind]
    have hpresent : ∀ P : Prop, (∀ o ∈ d.outstanding, o.id ≠ r.invokeId) → P :=
      fun P hnot => absurd hid (hnot o hmem)
    dsimp only
    split_ifs with hclass hlast
    · -- A result that the class does not have is rejected, and the invoke is released.
      obtain ⟨ho, hs⟩ := Dialogue.rejectHere_outstanding (d.release r.invokeId) isEnd
        ⟨some r.invokeId, .returnResult .returnResultUnexpected⟩
      refine h.answer hc hs (ho.trans hreleased) (hother _ (hreject _)) ?_ (hpresent _)
      intro o' ho' hid'
      rw [hone o' ho' hid', Sight.fits_result, if_pos hid.symm, hid]
      exact ⟨.inr (.inl ⟨by simpa using hclass, rfl⟩), fun _ => rfl⟩
    · refine h.answer hc rfl hreleased (hother _ fun id hid => ?_) ?_ (hpresent _)
      · simpa [PeerComponent.answers, eq_comm] using hid
      intro o' ho' hid'
      rw [hone o' ho' hid', Sight.fits_result, if_pos hid.symm, hid]
      exact ⟨.inl ⟨by simpa using hclass, _, _, rfl⟩, fun _ => rfl⟩
    · refine h.answer hc rfl (filter_none _) (hother _ fun id hid => ?_) ?_ (hpresent _)
      · simpa [PeerComponent.answers, eq_comm] using hid
      intro o' ho' hid'
      rw [hone o' ho' hid', Sight.fits_result, if_pos hid.symm, hid]
      refine ⟨.inl ⟨by simpa using hclass, _, _, rfl⟩, fun hends => ?_⟩
      rw [Bool.not_eq_true] at hlast
      rw [hlast, Sight.ends_not_last] at hends
      cases hends

theorem receiveError (h : Followed seen d []) (hc : d.closed = none) (isEnd : Bool)
    (e : ReturnError) :
    Followed (seen ++ [.reads (.returnError e) (d.receiveError isEnd e).1])
      (d.receiveError isEnd e).2 [] := by
  have hother : ∀ shown : PeerComponent, (∀ id, shown.answers id = true → id = e.invokeId) →
      ∀ o : Outstanding, e.invokeId ≠ o.id → (Sight.reads (.returnError e) shown).Fits o ∧
        (Sight.reads (.returnError e) shown).Late o.id ∧
        (Sight.reads (.returnError e) shown).ends o.id = false := by
    intro shown hshown o hne
    have hanswers : shown.answers o.id = false := by
      rw [← Bool.not_eq_true]
      exact fun heq => hne (hshown _ heq).symm
    simp [Sight.Fits, Sight.Late, Sight.ends, hne, hanswers]
  have hreject : ∀ problem id, (PeerComponent.localReject (some e.invokeId) problem).answers id =
      true → id = e.invokeId := by
    intro problem id hid
    cases hid
  have hreleased := h.release_outstanding hc e.invokeId
  unfold Dialogue.receiveError
  rcases h.find_outstanding hc e.invokeId with ⟨hfind, hnot⟩ | ⟨o, hfind, hmem, hid, hone⟩
  · rw [hfind]
    obtain ⟨ho, hs⟩ := Dialogue.rejectHere_outstanding d isEnd
      ⟨some e.invokeId, .returnError .unrecognizedInvokeId⟩
    refine h.answer hc hs (ho.trans (filter_none _)) (hother _ (hreject _)) ?_ ?_
    · exact fun o ho hid => absurd hid (hnot o ho)
    · intro _ o hid
      simp only [Sight.Fits, Sight.Late, hid, ↓reduceIte]
      exact ⟨.inr (.inr rfl), rfl⟩
  · rw [hfind]
    have hpresent : ∀ P : Prop, (∀ o ∈ d.outstanding, o.id ≠ e.invokeId) → P :=
      fun P hnot => absurd hid (hnot o hmem)
    dsimp only
    split_ifs with hclass
    · obtain ⟨ho, hs⟩ := Dialogue.rejectHere_outstanding (d.release e.invokeId) isEnd
        ⟨some e.invokeId, .returnError .returnErrorUnexpected⟩
      refine h.answer hc hs (ho.trans hreleased) (hother _ (hreject _)) ?_ (hpresent _)
      intro o' ho' hid'
      rw [hone o' ho' hid']
      simp only [Sight.Fits, hid, ↓reduceIte]
      exact ⟨.inr (.inl ⟨by simpa using hclass, rfl⟩), fun _ => trivial⟩
    · refine h.answer hc rfl hreleased (hother _ fun id hid => ?_) ?_ (hpresent _)
      · simpa [PeerComponent.answers, eq_comm] using hid
      intro o' ho' hid'
      rw [hone o' ho' hid']
      simp only [Sight.Fits, hid, ↓reduceIte]
      exact ⟨.inl ⟨by simpa using hclass, _, rfl⟩, fun _ => trivial⟩

/-- An invoke of the peer's changes nothing about ours. -/
theorem receiveInvoke (h : Followed seen d []) (hc : d.closed = none) (isEnd : Bool)
    (i : Invoke) :
    Followed (seen ++ [.reads (.invoke i) (d.receiveComponent isEnd (.invoke i)).1])
      (d.receiveComponent isEnd (.invoke i)).2 [] := by
  unfold Dialogue.receiveComponent
  dsimp only
  split_ifs
  · obtain ⟨ho, hs⟩ := Dialogue.rejectHere_outstanding d isEnd
      ⟨some i.invokeId, .invoke .unrecognizedLinkedId⟩
    refine h.reads hc none hs (ho.trans (filter_none _)) ?_ ?_
    · exact fun o _ => ⟨rfl, fun hends => by cases hends⟩
    · exact fun o _ => ⟨rfl, rfl⟩
  · refine h.reads hc none rfl (filter_none _) ?_ ?_
    · exact fun o _ => ⟨rfl, fun hends => by cases hends⟩
    · exact fun o _ => ⟨rfl, rfl⟩

/-- A Reject releases the invoke it names. -/
theorem receiveReject (h : Followed seen d []) (hc : d.closed = none) (r : Reject) :
    Followed (seen ++ [.reads (.reject r) (d.receiveReject r).1]) (d.receiveReject r).2 [] := by
  have hleft : ∀ left : Option InvokeId, (∀ id, r.names id = true → left = some id) →
      (∀ o ∈ d.outstanding, (Sight.reads (.reject r) (d.receiveReject r).1).Fits o ∧
        ((Sight.reads (.reject r) (d.receiveReject r).1).ends o.id = true → left = some o.id)) :=
    fun left hnames o _ => ⟨rfl, hnames o.id⟩
  have hlate : ∀ o : Outstanding, o.id ∉ d.outstanding.map Outstanding.id →
      (Sight.reads (.reject r) (d.receiveReject r).1).Fits o ∧
        (Sight.reads (.reject r) (d.receiveReject r).1).Late o.id := fun o _ => ⟨rfl, rfl⟩
  have hstaged : (d.receiveReject r).2.staged = d.staged := by
    unfold Dialogue.receiveReject
    dsimp only
    split <;> rfl
  by_cases hnames : ∃ id, r.names id = true
  · obtain ⟨id, hid⟩ := hnames
    have hrid := Reject.invokeId_of_names hid
    refine h.reads hc (some id) hstaged ?_ (hleft _ fun id' hid' => ?_) hlate
    · unfold Reject.names at hid
      unfold Dialogue.receiveReject
      cases hproblem : r.problem <;> rw [hproblem] at hid <;> simp_all
    · exact hrid.symm.trans (Reject.invokeId_of_names hid')
  · refine h.reads hc none hstaged ?_ (hleft _ fun id hid => absurd ⟨id, hid⟩ hnames) hlate
    unfold Reject.names at hnames
    unfold Dialogue.receiveReject
    cases hproblem : r.problem <;> cases hid : r.invokeId <;> simp_all

theorem receiveComponent (h : Followed seen d []) (hc : d.closed = none) (isEnd : Bool)
    (component : Component) :
    Followed (seen ++ [.reads component (d.receiveComponent isEnd component).1])
      (d.receiveComponent isEnd component).2 [] := by
  cases component with
  | invoke i => exact h.receiveInvoke hc isEnd i
  | returnResultLast r => exact h.receiveResult hc isEnd true r
  | returnResultNotLast r => exact h.receiveResult hc isEnd false r
  | returnError e => exact h.receiveError hc isEnd e
  | reject r => exact h.receiveReject hc r

theorem receiveComponents (h : Followed seen d []) (hc : d.closed = none) (isEnd : Bool)
    (components : List Component) :
    Followed (seen ++ List.zipWith .reads components (d.receiveComponents isEnd components).1)
      (d.receiveComponents isEnd components).2 [] := by
  induction components generalizing seen d with
  | nil => simpa [Dialogue.receiveComponents] using h
  | cons component rest ih =>
    have hone := h.receiveComponent hc isEnd component
    have hopen : (d.receiveComponent isEnd component).2.closed = none := by
      obtain ⟨_, _, heq⟩ := d.receiveComponent_only isEnd component
      rw [heq]
      exact hc
    have hrest := ih hone hopen
    simpa [Dialogue.receiveComponents] using hrest

/-- The components of a message, of which one may not have been read. -/
theorem receive (h : Followed seen d []) (hc : d.closed = none) (isEnd : Bool)
    (components : List Component) (rejected : Option Rejected) :
    Followed (seen ++ List.zipWith .reads components (d.receive isEnd components rejected).1)
      (d.receive isEnd components rejected).2 [] := by
  have hread := h.receiveComponents hc isEnd components
  have hlength : (d.receiveComponents isEnd components).1.length = components.length := by
    clear hread hc h
    induction components generalizing d with
    | nil => rfl
    | cons component rest ih => exact congrArg Nat.succ ih
  unfold Dialogue.receive
  cases rejected with
  | none => exact hread
  | some r =>
    dsimp only
    have hsights : List.zipWith Sight.reads components ((d.receiveComponents isEnd components).1 ++
        [((d.receiveComponents isEnd components).2.stageRejected isEnd r).1]) =
        List.zipWith Sight.reads components (d.receiveComponents isEnd components).1 := by
      have hsplit : List.zipWith Sight.reads (components ++ [])
          ((d.receiveComponents isEnd components).1 ++
            [((d.receiveComponents isEnd components).2.stageRejected isEnd r).1]) = _ :=
        List.zipWith_append hlength.symm
      simpa using hsplit
    rw [hsights]
    have hkeeps : ∀ d' : Dialogue, (d'.stageRejected isEnd r).2.closed = d'.closed ∧
        (d'.stageRejected isEnd r).2.outstanding = d'.outstanding ∧
        (d'.stageRejected isEnd r).2.ids = d'.ids := by
      intro d'
      unfold Dialogue.stageRejected
      dsimp only
      split <;> exact ⟨rfl, rfl, rfl⟩
    obtain ⟨hclosed, ho, hids⟩ := hkeeps (d.receiveComponents isEnd components).2
    exact hread.mono (fun hopen => hclosed ▸ hopen) ho (by rw [hids])

/-! ## Timers -/

/-- The expired invokes are taken from those in progress before anything is said of them. -/
theorem drain (h : Followed seen d []) (p : Outstanding → Bool) :
    Followed seen { d with outstanding := (d.outstanding.partition p).2 }
      (d.outstanding.partition p).1 := by
  refine ⟨h.1, fun hc => ?_⟩
  have htracks := h.2 hc
  rw [List.partition_eq_filter_filter]
  have hids : ({ d with outstanding := d.outstanding.filter (not ∘ p) } : Dialogue).ids.Sublist
      d.ids := (List.filter_sublist.append_right _).map _
  have hnodup := htracks.ids
  rw [Dialogue.ids, List.map_append, List.nodup_append] at hnodup
  obtain ⟨hout, -, hapart⟩ := hnodup
  refine ⟨htracks.ids.sublist hids, hout.sublist (List.filter_sublist.map _), ?_⟩
  intro o span hspan
  cases htracks.phase o span hspan with
  | running hopen hmem =>
    by_cases hp : p o = true
    · refine .waiting hopen (List.mem_filter.mpr ⟨hmem, hp⟩) fun hin => ?_
      rw [Dialogue.ids, List.map_append, List.mem_append] at hin
      rcases hin with hin | hin
      · obtain ⟨o', ho', hid⟩ := List.mem_map.mp hin
        obtain ⟨hmem', hp'⟩ := List.mem_filter.mp ho'
        rw [List.inj_on_of_nodup_map hout hmem' hmem hid] at hp'
        simp [hp] at hp'
      · exact hapart _ (List.mem_map.mpr ⟨o, hmem, rfl⟩) _ hin rfl
    · exact .running hopen (List.mem_filter.mpr ⟨hmem, by simpa using hp⟩)
  | waiting _ hmem _ => cases hmem
  | past hfree _ =>
    refine .past (fun hin => hfree (hids.subset hin)) fun hin => hfree ?_
    rw [Dialogue.ids, List.map_append]
    exact List.mem_append_left _ ((List.filter_sublist.map _).subset hin)

variable {due : List Outstanding} {o : Outstanding}

/-- Nobody is told of an operation of class 4. -/
theorem skip (h : Followed seen d (o :: due)) : Followed seen d due := by
  refine ⟨h.1, fun hc => ?_⟩
  have htracks := h.2 hc
  have hdues := List.nodup_cons.mp htracks.dues
  refine ⟨htracks.ids, hdues.2, fun o' span hspan => ?_⟩
  cases htracks.phase o' span hspan with
  | running hopen hmem => exact .running hopen hmem
  | waiting hopen hmem hfree =>
    rcases List.mem_cons.mp hmem with rfl | hmem
    · exact .past hfree hdues.1
    · exact .waiting hopen hmem hfree
  | past hfree hnot => exact .past hfree fun hin => hnot (List.mem_cons_of_mem _ hin)

/-- The handler is told of an expired invoke, while no other invoke of that id is in progress. -/
theorem notify (h : Followed seen d (o :: due)) (hc : d.closed = none) {now : ℕ}
    (hclass : o.opClass ≠ .four) (hexpired : o.expired now = true)
    (hclear : ∀ o' ∈ d.outstanding, o'.id ≠ o.id) :
    Followed (seen ++ [.timesOut ⟨o.id, o.op, o.opClass⟩ now]) d due := by
  have htracks := h.2 hc
  have hdues := List.nodup_cons.mp htracks.dues
  have hrest : Followed seen d due := h.skip
  -- The only invoke it concerns is the one that expired.
  have hsame : ∀ o' ∈ o :: due, o.id = o'.id → o' = o := fun o' hmem heq =>
    List.inj_on_of_nodup_map htracks.dues hmem List.mem_cons_self heq.symm
  refine ⟨h.1.append fun o' span hspan _ => ?_, fun _ => ?_⟩
  · cases htracks.phase o' span hspan with
    | running hopen hmem => exact ⟨fun heq => absurd heq.symm (hclear o' hmem), .inl hopen⟩
    | waiting hopen hmem hfree =>
      refine ⟨fun heq => ?_, .inl hopen⟩
      rw [hsame o' hmem heq]
      exact ⟨rfl, hclass, Outstanding.expired_iff.mp hexpired⟩
    | past hfree hnot =>
      have hne : o.id ≠ o'.id := fun heq => hnot (heq ▸ List.mem_cons_self)
      exact ⟨fun heq => absurd heq hne, .inr hne⟩
  · refine htracks.append htracks.ids hdues.2 ?_ (by simp)
    intro o' span hphase _
    have hends : o.id ≠ o'.id →
        (Sight.timesOut ⟨o.id, o.op, o.opClass⟩ now).ends o'.id = false := fun hne => by
      simpa [Sight.ends] using hne
    cases hphase with
    | running hopen hmem =>
      exact .running (open_append hopen (hends (hclear o' hmem).symm)) hmem
    | waiting hopen hmem hfree =>
      rcases List.mem_cons.mp hmem with rfl | hmem
      · exact .past hfree hdues.1
      · have hne : o.id ≠ o'.id := fun heq => hdues.1 (heq ▸ List.mem_map.mpr ⟨o', hmem, rfl⟩)
        exact .waiting (open_append hopen (hends hne)) hmem hfree
    | past hfree hnot => exact .past hfree fun hin => hnot (List.mem_cons_of_mem _ hin)

end Followed

end SiphonSigtran.Tcap
