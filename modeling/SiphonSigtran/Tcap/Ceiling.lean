import SiphonSigtran.Tcap.Closing

/-!
# The ceiling on open dialogues

A Begin of a peer is refused where the store is full. A dialogue that is begun here is
stored whether or not it is.
-/

namespace SiphonSigtran.Tcap

open Lib

variable {c : Codec}

namespace Engine

/-- The dialogue of a request, after the turn of its handler. -/
def started (c : Codec) (e : Engine) (req : OutgoingBegin) (script : List Call) : Dialogue :=
  ((Dialogue.new (e.allocated + 1) .initiator e.allocTid.1 [] req.applicationContext 0
    { outCalled := req.called
      outCalling := req.calling
      opc := req.opc
      dpc := req.dpc
      ni := req.ni
      sls := req.sls
      form := .udt } e.config).calls c script).1

/-- A dialogue is begun here where no more may be open, and its handler sends the Begin and
leaves it open. -/
def Overfills (c : Codec) (e : Engine) : Op → Prop
  | .begin req _ script _ =>
    e.config.maxDialogues ≤ e.openDialogues ∧ e.allocTid.1 ∉ e.dialogues ∧
      (e.started c req script).closed = none ∧ (e.started c req script).out ≠ []
  | _ => False

end Engine

/-! ## Moves in a bounded store -/

theorem Move.config {G : List Held → Engine → Prop} {R R' : List Held} {e e' : Engine}
    (h : Move G R e R' e') : e'.config = e.config := by
  cases h with
  | take tid r hr => rw [Engine.take, hr]; rfl
  | _ => rfl

theorem Engine.step_config (e : Engine) (op : Engine.Op) : (e.step c op).config = e.config :=
  (step_steps (G := fun _ _ => True) trivial op).invariant (I := fun _ e' => e'.config = e.config)
    (fun hm h => hm.config.trans h) rfl

/-- Dialogues in a turn have their place in the store. -/
theorem Move.fits {n : ℕ} {R R' : List Held} {e e' : Engine}
    (h : Move (fun R e => e.openDialogues + R.length < n) R e R' e')
    (hi : e.openDialogues + R.length ≤ n) : e'.openDialogues + R'.length ≤ n := by
  cases h with
  | alloc d hg hs ht => exact hg
  | discard d => exact le_trans (Nat.add_le_add_left (Nat.le_succ _) _) hi
  | give h d d' event events => exact hi
  | turn h d d' events => exact hi
  | take tid r hr =>
    have hsize : Store.size (e.dialogues.erase tid) + 1 = Store.size e.dialogues :=
      Store.size_erase (Store.mem_of_lookup hr)
    rw [Engine.take, hr]
    simp only [Engine.openDialogues, Engine.note, List.length_cons] at hi ⊢
    omega
  | store h d assoc activity hc =>
    have hsize := Store.size_insert_le d.ourTid e.dialogues ⟨h, d, assoc, activity, false⟩
    simp only [Engine.openDialogues, Engine.store, Engine.note, List.length_cons] at hi ⊢
    omega
  | close h d reason => exact le_trans (Nat.add_le_add_left (Nat.le_succ _) _) hi
  | claim dialogues hsize hl =>
    simp only [Engine.openDialogues] at hi ⊢
    omega
  | swap hR =>
    rw [← hR.length_eq]
    exact hi

theorem Steps.fits {n : ℕ} {e e' : Engine}
    (h : Steps (fun R e => e.openDialogues + R.length < n) [] e [] e') (hi : e.openDialogues ≤ n) :
    e'.openDialogues ≤ n :=
  h.invariant (I := fun R e => e.openDialogues + R.length ≤ n) Move.fits hi

/-! ## Operations -/

/-- What a request stores, and where. -/
theorem begin_dialogues (e : Engine) (req : OutgoingBegin) (handler : Handler)
    (script : List Call) (now : ℕ) :
    (e.begin c req handler script now).2.dialogues =
      if (e.started c req script).closed = none ∧ (e.started c req script).out ≠ [] then
        e.dialogues.insert e.allocTid.1
          ⟨handler, { e.started c req script with out := [] }, req.ingressAssoc, now, false⟩
      else e.dialogues := by
  have htid : (e.started c req script).ourTid = e.allocTid.1 :=
    (Dialogue.calls_kept _ script).ourTid
  unfold Engine.begin
  dsimp only
  generalize hturn : e.allocTid.2.callback c handler _ .starts script = turn
  have hstarted : turn.1 = e.started c req script := by
    rw [← hturn]
    rfl
  have hkept : turn.2.dialogues = e.dialogues := by
    rw [← hturn]
    rfl
  rw [← htid, ← hstarted]
  generalize turn.1 = d
  rw [← hkept]
  cases hclosed : d.closed with
  | some reason =>
    simp only [reduceCtorEq, false_and, ↓reduceIte]
    rfl
  | none =>
    cases hout : d.out with
    | nil =>
      simp only [List.isEmpty_nil, ↓reduceIte, ne_eq, not_true_eq_false, and_false]
      rfl
    | cons msu rest =>
      simp only [List.isEmpty_cons, Bool.false_eq_true, ↓reduceIte, ne_eq, reduceCtorEq,
        not_false_eq_true, and_self, Engine.store, Engine.note]

/-- Above the ceiling a request adds a dialogue, or nothing. -/
theorem begin_openDialogues {e : Engine} (req : OutgoingBegin) (handler : Handler)
    (script : List Call) (now : ℕ) (hfull : e.config.maxDialogues ≤ e.openDialogues) :
    (e.Overfills c (.begin req handler script now) →
      (e.begin c req handler script now).2.openDialogues = e.openDialogues + 1) ∧
    (¬ e.Overfills c (.begin req handler script now) →
      (e.begin c req handler script now).2.openDialogues = e.openDialogues) := by
  constructor
  · rintro ⟨-, hfresh, hopen⟩
    rw [Engine.openDialogues, begin_dialogues, if_pos hopen]
    exact Store.size_insert hfresh _
  · intro hnot
    rw [Engine.openDialogues, begin_dialogues]
    split_ifs with hopen
    · have hmem : e.allocTid.1 ∈ e.dialogues := by
        by_contra hfresh
        exact hnot ⟨hfull, hfresh, hopen⟩
      exact Store.size_insert_of_mem hmem _
    · rfl

/-- An operation keeps to the ceiling if and only if it does not begin a dialogue above it. -/
theorem step_openDialogues {e : Engine} (op : Engine.Op)
    (hi : e.openDialogues ≤ e.config.maxDialogues) :
    (e.step c op).openDialogues ≤ e.config.maxDialogues ↔ ¬ e.Overfills c op := by
  have hroom : e.openDialogues < e.config.maxDialogues →
      e.openDialogues + ([] : List Held).length < e.config.maxDialogues := id
  cases op with
  | begin req handler script now =>
    rcases Nat.lt_or_ge e.openDialogues e.config.maxDialogues with hlt | hfull
    · have hfits := (begin_steps (c := c) (hroom hlt) req handler script now).fits hi
      exact iff_of_true hfits fun hover => absurd hover.1 (Nat.not_le.mpr hlt)
    · obtain ⟨hmore, hsame⟩ := begin_openDialogues (c := c) req handler script now hfull
      constructor
      · intro hle hover
        have hstep : (e.step c (.begin req handler script now)).openDialogues = _ := hmore hover
        omega
      · intro hnot
        exact (hsame hnot).trans_le hi
  | deliver inbound assoc script now =>
    exact iff_of_true ((deliver_steps hroom inbound assoc script now).fits hi) id
  | sweep now order scripts clock =>
    exact iff_of_true
      ((expireAll_steps (claimExpired_steps [] now) now scripts clock _).fits hi) id
  | claimExpired now => exact iff_of_true ((claimExpired_steps [] now).fits hi) id
  | expire tid now scripts clock =>
    exact iff_of_true ((expire_steps tid now scripts clock).fits hi) id
  | releaseClaim tid => exact iff_of_true ((releaseClaim_steps [] tid).fits hi) id

/-- The open dialogues are at most as many as configured in every state of a run if and only
if no dialogue is begun here while so many are open. -/
theorem ceiling_holds (c : Codec) (config : Config)
    (handlers fallbackHandlers : ℕ × ℤ → Option Handler) (ops : List Engine.Op) :
    (∀ before, before <+: ops →
      (Machine.run (Engine.step c) (Engine.new config handlers fallbackHandlers)
        before).openDialogues ≤ config.maxDialogues) ↔
      Machine.Along (Engine.step c) (fun e op => ¬ e.Overfills c op)
        (Engine.new config handlers fallbackHandlers) ops := by
  have hrun : ∀ e : Engine, e.config = config → e.openDialogues ≤ config.maxDialogues →
      ((∀ before, before <+: ops →
        (Machine.run (Engine.step c) e before).openDialogues ≤ config.maxDialogues) ↔
        Machine.Along (Engine.step c) (fun e op => ¬ e.Overfills c op) e ops) := by
    induction ops with
    | nil =>
      intro e _ hi
      exact iff_of_true (fun before hbefore => by simpa [List.prefix_nil.mp hbefore]) trivial
    | cons op rest ih =>
      intro e hconfig hi
      subst hconfig
      have hstep := step_openDialogues (c := c) op hi
      have hnext := ih (e.step c op) (e.step_config op)
      constructor
      · intro hall
        have hle := hall [op] (List.prefix_append [op] rest)
        refine ⟨hstep.mp hle, (hnext hle).mp fun before hbefore => ?_⟩
        exact hall (op :: before) (List.cons_prefix_cons.mpr ⟨rfl, hbefore⟩)
      · rintro ⟨hover, hrest⟩ before hbefore
        cases before with
        | nil => exact hi
        | cons op' before =>
          obtain ⟨rfl, hrest'⟩ := List.cons_prefix_cons.mp hbefore
          exact (hnext (hstep.mpr hover)).mpr hrest before hrest'
  exact hrun _ rfl (Nat.zero_le _)

/-- Two dialogues begun here are open where one may be. -/
theorem two_begun_where_one_may_be :
    ¬ ∀ (c : Codec) (config : Config) (handlers fallbackHandlers : ℕ × ℤ → Option Handler)
      (ops : List Engine.Op),
      (Machine.run (Engine.step c) (Engine.new config handlers fallbackHandlers)
        ops).openDialogues ≤ config.maxDialogues := by
  intro hall
  have hceiling := hall shortCodec ⟨15000, 30000, 1⟩ (fun _ => none) (fun _ => none)
    [.begin shortRequest 7 [.send 0] 0, .begin shortRequest 7 [.send 0] 0]
  exact absurd hceiling (by decide +kernel)

end SiphonSigtran.Tcap
