import SiphonSigtran.Tcap.Answer
import SiphonSigtran.Tcap.FailedFlush

/-!
# The Rejects that are built here

A Reject that is built for a component of the peer leaves in one message, in the order built and
ahead of what the handler stages, unless the dialogue is aborted or the peer ends it first. The
End that answers a Begin with nothing to dispatch is sent only if it can be encoded, and then
the Rejects in it are gone with the dialogue.
-/

namespace SiphonSigtran.Tcap

open Lib

/-- The Reject that was built for a component, of which the handler is shown this. -/
def PeerComponent.built : PeerComponent → Option Reject
  | .localReject invokeId problem => some ⟨invokeId, problem⟩
  | _ => none

/-- A message that was sent, and what it took along: the Rejects built here, and what the handler
had staged. -/
structure Parcel where
  message : TcapMessage
  rejects : List Reject
  own : List Component
  deriving DecidableEq

/-- The Rejects are in the message ahead of the rest, and not in a Begin. -/
def Parcel.Packed (p : Parcel) : Prop :=
  p.rejects ≠ [] →
    p.message.components = p.rejects.map .reject ++ p.own ∧ ∀ b, p.message ≠ .begins b

/-- The Rejects that were built in a dialogue, in order, and what was sent in it. -/
structure Ledger where
  built : List Reject
  sent : List Parcel

namespace Dialogue

/-- The Rejects that an act builds, none of them for an End. -/
def builds (d : Dialogue) : Act → List Reject
  | .receive false components rejected =>
    (d.receiveComponents false components).1.filterMap PeerComponent.built ++
      (rejected.bind Rejected.reject).toList
  | _ => []

def parcel (c : Codec) (d : Dialogue) (closing : Bool) : Parcel :=
  ⟨d.leg c closing, d.rejects, d.pending⟩

/-- The Continue or End, or our Begin, that an act sends. -/
def parcels (c : Codec) (d : Dialogue) : Act → List Parcel
  | .call (.send now) =>
    match (d.send c now).1 with
    | .ok () => [d.parcel c false]
    | .error _ => []
  | .call .sendEnd =>
    match (d.sendEnd c).1 with
    | .ok () => [d.parcel c true]
    | .error _ => []
  | _ => []

/-- An act, and its entries in the ledger. -/
def enter (c : Codec) (p : Dialogue × Ledger) (a : Act) : Dialogue × Ledger :=
  (p.1.act c a, ⟨p.2.built ++ p.1.builds a, p.2.sent ++ p.1.parcels c a⟩)

variable {c : Codec} {config : Config} {d : Dialogue} {l : Ledger}

/-! ## Building -/

theorem rejectHere_rejects (d : Dialogue) (reject : Reject) :
    (d.rejectHere false reject).2.rejects =
      d.rejects ++ ((d.rejectHere false reject).1.built).toList := rfl

/-- A Reject is built for just those components that the handler is shown as rejected here. -/
theorem receiveComponent_rejects (d : Dialogue) (component : Component) :
    (d.receiveComponent false component).2.rejects =
      d.rejects ++ ((d.receiveComponent false component).1.built).toList := by
  have hresult : ∀ last r, (d.receiveResult false last r).2.rejects =
      d.rejects ++ ((d.receiveResult false last r).1.built).toList := by
    intro last r
    unfold receiveResult
    split
    · exact d.rejectHere_rejects _
    · split_ifs
      · exact rejectHere_rejects _ _
      · exact (List.append_nil _).symm
      · exact (List.append_nil _).symm
  cases component with
  | invoke i =>
    unfold receiveComponent
    dsimp only
    split_ifs
    · exact d.rejectHere_rejects _
    · exact (List.append_nil _).symm
  | returnResultLast r => exact hresult true r
  | returnResultNotLast r => exact hresult false r
  | returnError e =>
    unfold receiveComponent receiveError
    dsimp only
    split
    · exact d.rejectHere_rejects _
    · split_ifs
      · exact rejectHere_rejects _ _
      · exact (List.append_nil _).symm
  | reject r =>
    unfold receiveComponent receiveReject
    dsimp only
    split <;> exact (List.append_nil _).symm

/-- No Reject answers a Reject. -/
theorem receiveReject_rejects (d : Dialogue) (isEnd : Bool) (r : Reject) :
    (d.receiveComponent isEnd (.reject r)).2.rejects = d.rejects ∧
      (d.receiveComponent isEnd (.reject r)).1.built = none := by
  unfold receiveComponent receiveReject
  dsimp only
  split <;> exact ⟨rfl, rfl⟩

theorem receiveComponents_rejects (d : Dialogue) (components : List Component) :
    (d.receiveComponents false components).2.rejects =
      d.rejects ++ (d.receiveComponents false components).1.filterMap PeerComponent.built := by
  induction components generalizing d with
  | nil => exact (List.append_nil _).symm
  | cons component rest ih =>
    have hfirst := d.receiveComponent_rejects component
    have hrest := ih (d.receiveComponent false component).2
    unfold receiveComponents
    dsimp only
    rw [hrest, hfirst, List.append_assoc, List.filterMap_cons]
    cases (d.receiveComponent false component).1.built <;> rfl

theorem receive_rejects (d : Dialogue) (components : List Component)
    (rejected : Option Rejected) : (d.receive false components rejected).2.rejects =
      d.rejects ++ d.builds (.receive false components rejected) := by
  have hread := d.receiveComponents_rejects components
  unfold receive builds
  cases rejected with
  | none => simpa using hread
  | some r =>
    unfold stageRejected
    dsimp only
    cases hreject : r.reject with
    | none => simpa [hreject] using hread
    | some reject => simp [hreject, hread]

/-- No Reject is built for a component of an End. -/
theorem receive_end_rejects (d : Dialogue) (components : List Component)
    (rejected : Option Rejected) :
    (d.receive true components rejected).2.rejects = d.rejects := by
  have hreject : ∀ (d : Dialogue) reject, (d.rejectHere true reject).2.rejects = d.rejects :=
    fun _ _ => rfl
  have hresult : ∀ (d : Dialogue) last r, (d.receiveResult true last r).2.rejects = d.rejects := by
    intro d last r
    unfold receiveResult
    split
    · rfl
    · split_ifs <;> rfl
  have hone : ∀ (d : Dialogue) component,
      (d.receiveComponent true component).2.rejects = d.rejects := by
    intro d component
    cases component with
    | invoke i =>
      unfold receiveComponent
      dsimp only
      split_ifs <;> rfl
    | returnResultLast r => exact hresult d true r
    | returnResultNotLast r => exact hresult d false r
    | returnError e =>
      unfold receiveComponent receiveError
      dsimp only
      split
      · rfl
      · split_ifs <;> rfl
    | reject r => exact (d.receiveReject_rejects true r).1
  have hread : (d.receiveComponents true components).2.rejects = d.rejects := by
    induction components generalizing d with
    | nil => rfl
    | cons component rest ih => exact (ih _).trans (hone d component)
  unfold receive
  cases rejected with
  | none => exact hread
  | some r =>
    unfold stageRejected
    dsimp only
    split
    · rename_i hfalse
      cases hfalse
    · exact hread

/-! ## Sending -/

/-- What an act does with the Rejects built here: they stay, with those it builds, or they leave,
or they are dropped and the dialogue is closed without an End of ours. -/
inductive Handling (c : Codec) (d : Dialogue) (a : Act) (d' : Dialogue) : Prop
  | keeps (hclosed : d'.closed = d.closed ∨ d.closed ≠ none ∧ d'.closed ≠ none ∧
        d'.closed ≠ some .ended)
      (hrejects : d'.rejects = d.rejects ++ d.builds a) (hparcels : d.parcels c a = [])
  | passes (closing : Bool) (hopen : d.closed = none)
      (hclosed : d'.closed = if closing then some .ended else none) (hrejects : d'.rejects = [])
      (hbuilds : d.builds a = []) (hparcels : d.parcels c a = [d.parcel c closing])
  | drops (hopen : d.closed = none) (hclosed : d'.closed ≠ none ∧ d'.closed ≠ some .ended)
      (hrejects : d'.rejects = []) (hbuilds : d.builds a = []) (hparcels : d.parcels c a = [])

theorem act_handling {a : Act} (ha : d.allowed a = true) : Handling c d a (d.act c a) := by
  have hsame : ∀ d' : Dialogue, d'.closed = d.closed → d'.rejects = d.rejects →
      d.builds a = [] → d.parcels c a = [] → Handling c d a d' := by
    intro d' hclosed hrejects hbuilds hparcels
    exact .keeps (.inl hclosed) (by rw [hrejects, hbuilds, List.append_nil]) hparcels
  have habort : ∀ reason, reason ≠ .ended → d.builds a = [] → d.parcels c a = [] →
      Handling c d a (d.abortAs c reason).2 := by
    intro reason hreason hbuilds hparcels
    rcases abortAs_cases (c := c) d reason with ⟨-, heq⟩ | ⟨hopen, -, heq⟩ | ⟨hopen, -, heq⟩
    · rw [heq]
      exact hsame d rfl rfl hbuilds hparcels
    · rw [heq]
      exact .drops hopen ⟨by simp [dropped], by simpa [dropped] using hreason⟩ rfl hbuilds hparcels
    · rw [heq]
      unfold emit
      split <;> exact .drops hopen ⟨by simp [dropped, fail], by simpa [dropped, fail] using hreason⟩
        rfl hbuilds hparcels
  cases a with
  | call call =>
    cases call with
    | send now =>
      simp only [Dialogue.act, Dialogue.call]
      have hparcels : d.parcels c (.call (.send now)) = match (d.send c now).1 with
        | .ok () => [d.parcel c false]
        | .error _ => [] := rfl
      unfold send at hparcels ⊢
      rcases flush_cases (c := c) d false now with
        ⟨-, heq⟩ | ⟨-, -, -, heq⟩ | ⟨hopen, -, ⟨e, -, heq⟩ | ⟨msu, -, heq⟩⟩
      · rw [heq] at hparcels ⊢
        exact hsame _ rfl rfl rfl hparcels
      · rw [heq] at hparcels ⊢
        exact hsame _ rfl rfl rfl hparcels
      · rw [heq] at hparcels ⊢
        exact hsame _ rfl rfl rfl hparcels
      · rw [heq] at hparcels ⊢
        exact .passes false hopen rfl rfl rfl hparcels
    | sendEnd =>
      simp only [Dialogue.act, Dialogue.call]
      have hparcels : d.parcels c (.call .sendEnd) = match (d.sendEnd c).1 with
        | .ok () => [d.parcel c true]
        | .error _ => [] := rfl
      unfold sendEnd at hparcels ⊢
      rcases flush_cases (c := c) d true 0 with
        ⟨-, heq⟩ | ⟨-, -, -, heq⟩ | ⟨hopen, -, ⟨e, -, heq⟩ | ⟨msu, -, heq⟩⟩
      · rw [heq] at hparcels ⊢
        exact hsame _ rfl rfl rfl hparcels
      · rw [heq] at hparcels ⊢
        exact hsame _ rfl rfl rfl hparcels
      · rw [heq] at hparcels ⊢
        exact hsame _ rfl rfl rfl hparcels
      · rw [heq] at hparcels ⊢
        exact .passes true hopen rfl rfl rfl hparcels
    | abort => exact habort .aborted (by simp) rfl rfl
    | invokeWith op argument opClass timeout =>
      simp only [Dialogue.act, call_invokeWith]
      obtain ⟨_, _, _, heq⟩ := d.invokeWith_only op argument opClass timeout
      rw [heq]
      exact hsame _ rfl rfl rfl rfl
    | _ => exact hsame _ rfl rfl rfl rfl
  | receive isEnd components rejected =>
    obtain ⟨_, _, heq⟩ := d.receive_only isEnd components rejected
    have hclosed : (d.receive isEnd components rejected).2.closed = d.closed := by rw [heq]
    cases isEnd with
    | true => exact hsame _ hclosed (d.receive_end_rejects components rejected) rfl rfl
    | false => exact .keeps (.inl hclosed) (d.receive_rejects components rejected) rfl
  | abortAs reason =>
    refine habort reason ?_ rfl rfl
    rintro rfl
    simp [allowed] at ha
  | peerEnds =>
    simp only [allowed, Bool.and_eq_true, Option.isNone_iff_eq_none] at ha
    exact .drops ha.1 ⟨by simp [Dialogue.act], by simp [Dialogue.act]⟩ rfl rfl rfl
  | blame invokeId op =>
    simp only [Dialogue.act]
    split_ifs with hclosed
    · exact .keeps (.inr ⟨by simp [hclosed], by simp, by simp⟩) (List.append_nil _).symm rfl
    · exact hsame d rfl rfl rfl rfl
  | learn tid =>
    simp only [Dialogue.act]
    split_ifs <;> exact hsame _ rfl rfl rfl rfl
  | _ => exact hsame _ rfl rfl rfl rfl

/-- What the ledger says of a dialogue. While it is open, or once we have ended it, every Reject
built has left or is kept, and has left in the order built; closed otherwise, those at the end were
dropped. -/
structure Tallies (d : Dialogue) (l : Ledger) : Prop where
  settled : d.closed = none ∨ d.closed = some .ended →
    l.built = l.sent.flatMap Parcel.rejects ++ d.rejects
  dropped : ∃ dropped, l.built = l.sent.flatMap Parcel.rejects ++ dropped
  closed : d.closed ≠ none → d.rejects = []
  packed : ∀ p ∈ l.sent, p.Packed

namespace Tallies

theorem new (serial : ℕ) (role : Role) (ourTid peerTid : Tid) (ac : List ℕ)
    (replyInvokeId : InvokeId) (addressing : Addressing) :
    Tallies (Dialogue.new serial role ourTid peerTid ac replyInvokeId addressing config) ⟨[], []⟩ :=
  ⟨fun _ => rfl, ⟨[], rfl⟩, fun _ => rfl, by simp⟩

end Tallies

/-- Nothing is built on a closed dialogue, nor before our Begin. -/
theorem builds_nil {a : Act} (ha : d.allowed a = true) (h : d.closed ≠ none ∨ d.opening = true) :
    d.builds a = [] := by
  cases a with
  | receive isEnd components rejected =>
    simp only [allowed, Bool.and_eq_true, Option.isNone_iff_eq_none, Bool.not_eq_true'] at ha
    rcases h with h | h
    · exact absurd ha.1 h
    · rw [ha.2] at h
      cases h
  | _ => rfl

theorem parcel_packed (h : d.opening = true → d.rejects = []) (closing : Bool) :
    (d.parcel c closing).Packed := by
  intro hrejects
  have hopening : d.opening = false := by
    rw [← Bool.not_eq_true]
    exact fun hopening => hrejects (h hopening)
  have hsome : (d.rejects.map Component.reject ++ d.pending).isEmpty = false := by
    have hne : d.rejects ≠ [] := hrejects
    simp [hne]
  cases closing <;> simp [parcel, leg, hopening, hsome, TcapMessage.components]

/-- No Rejects are kept before our Begin. -/
def Unopened (d : Dialogue) : Prop := d.opening = true → d.rejects = []

theorem Unopened.act (h : Unopened d) {a : Act} (ha : d.allowed a = true) :
    Unopened (d.act c a) := by
  intro hopening'
  have hopening : d.opening = true := by
    by_contra hnot
    rw [opening_act (Bool.not_eq_true _ ▸ hnot) a] at hopening'
    cases hopening'
  cases act_handling (c := c) ha with
  | keeps hclosed hrejects hparcels =>
    rw [hrejects, h hopening, builds_nil ha (.inr hopening), List.append_nil]
  | passes closing hopen hclosed hrejects hbuilds hparcels => exact hrejects
  | drops hopen hclosed hrejects hbuilds hparcels => exact hrejects

theorem Tallies.act (h : Tallies d l) (hunopened : Unopened d) {a : Act}
    (ha : d.allowed a = true) : Tallies (enter c (d, l) a).1 (enter c (d, l) a).2 := by
  simp only [enter]
  cases act_handling (c := c) ha with
  | keeps hclosed hrejects hparcels =>
    rw [hparcels, List.append_nil]
    obtain ⟨dropped, hdropped⟩ := h.dropped
    refine ⟨fun hstate => ?_, ⟨dropped ++ d.builds a, ?_⟩, fun hnot => ?_, h.packed⟩
    · rcases hclosed with hclosed | ⟨-, hnone, hended⟩
      · rw [hclosed] at hstate
        rw [hrejects, h.settled hstate, List.append_assoc]
      · exact (hstate.elim hnone hended).elim
    · rw [hdropped, List.append_assoc]
    · have hwas : d.closed ≠ none := by
        rcases hclosed with hclosed | ⟨hwas, -, -⟩
        · rwa [hclosed] at hnot
        · exact hwas
      rw [hrejects, h.closed hwas, builds_nil ha (.inl hwas), List.append_nil]
  | passes closing hopen hclosed hrejects hbuilds hparcels =>
    have hall : l.built = (l.sent ++ [d.parcel c closing]).flatMap Parcel.rejects := by
      rw [h.settled (.inl hopen)]
      simp [parcel]
    rw [hbuilds, hparcels, List.append_nil]
    refine ⟨fun _ => ?_, ⟨[], ?_⟩, fun _ => hrejects, ?_⟩
    · rw [hrejects, List.append_nil]
      exact hall
    · rw [List.append_nil]
      exact hall
    · intro p hp
      rcases List.mem_append.mp hp with hp | hp
      · exact h.packed p hp
      · obtain rfl := List.mem_singleton.mp hp
        exact parcel_packed hunopened closing
  | drops hopen hclosed hrejects hbuilds hparcels =>
    rw [hbuilds, hparcels, List.append_nil, List.append_nil]
    refine ⟨fun hstate => ?_, h.dropped, fun _ => hrejects, h.packed⟩
    exact (hstate.elim hclosed.1 hclosed.2).elim

/-- The ledger of a run of acts. -/
theorem run_tallies (serial : ℕ) (role : Role) (ourTid peerTid : Tid) (ac : List ℕ)
    (replyInvokeId : InvokeId) (addressing : Addressing) {acts : List Act}
    (h : Machine.Along (enter c) (fun p a => p.1.allowed a = true)
      (new serial role ourTid peerTid ac replyInvokeId addressing config, ⟨[], []⟩) acts) :
    Tallies
      (Machine.run (enter c)
        (new serial role ourTid peerTid ac replyInvokeId addressing config, ⟨[], []⟩) acts).1
      (Machine.run (enter c)
        (new serial role ourTid peerTid ac replyInvokeId addressing config, ⟨[], []⟩) acts).2 := by
  have hboth := Machine.run_invariant
    (P := fun p : Dialogue × Ledger => Tallies p.1 p.2 ∧ Unopened p.1)
    (fun p a hp ha => ⟨hp.1.act hp.2 ha, hp.2.act ha⟩)
    ⟨Tallies.new serial role ourTid peerTid ac replyInvokeId addressing, fun _ => rfl⟩ h
  exact hboth.1

/-- What the ledger calls sent is encoded and on its way to the peer. -/
theorem parcels_sent {a : Act} {p : Parcel} (h : p ∈ d.parcels c a) :
    p.rejects = d.rejects ∧ p.own = d.pending ∧
      ∃ msu, wrapMsu c p.message d.addressing = .ok msu ∧ (d.act c a).out = d.out ++ [msu] := by
  cases a with
  | call call =>
    cases call with
    | send now =>
      simp only [parcels, Dialogue.act, Dialogue.call] at h ⊢
      unfold send at h ⊢
      rcases flush_cases (c := c) d false now with
        ⟨-, heq⟩ | ⟨-, -, -, heq⟩ | ⟨-, -, ⟨e, -, heq⟩ | ⟨msu, hwrap, heq⟩⟩
      · simp [heq] at h
      · simp [heq] at h
      · simp [heq] at h
      · rw [heq] at h ⊢
        obtain rfl := List.mem_singleton.mp h
        exact ⟨rfl, rfl, msu, hwrap, rfl⟩
    | sendEnd =>
      simp only [parcels, Dialogue.act, Dialogue.call] at h ⊢
      unfold sendEnd at h ⊢
      rcases flush_cases (c := c) d true 0 with
        ⟨-, heq⟩ | ⟨-, -, -, heq⟩ | ⟨-, -, ⟨e, -, heq⟩ | ⟨msu, hwrap, heq⟩⟩
      · simp [heq] at h
      · simp [heq] at h
      · simp [heq] at h
      · rw [heq] at h ⊢
        obtain rfl := List.mem_singleton.mp h
        exact ⟨rfl, rfl, msu, hwrap, rfl⟩
    | _ => simp [parcels] at h
  | _ => simp [parcels] at h

end Dialogue

/-! ## A Begin with nothing to dispatch -/

/-- A Begin that is let in, with nothing for a handler in it, for which Rejects are built. -/
structure Undispatched (c : Codec) (e : Engine) (b : Begin) (rejected : Option Rejected)
    (ac : Option (List ℕ)) (replyTo : Addressing) : Prop where
  room : e.openDialogues < e.config.maxDialogues
  offered : offeredContext c b = .ok ac
  nothing : ∀ shown ∈ (e.received b rejected (ac.getD []) replyTo).1, shown.dispatchable = false
  built : (e.received b rejected (ac.getD []) replyTo).2.rejects ≠ []

namespace Undispatched

variable {c : Codec} {e : Engine} {b : Begin} {rejected : Option Rejected}
  {ac : Option (List ℕ)} {a : Addressing}

/-- Its Rejects are put in an End, and its dialogue is not kept. -/
theorem onBegin (h : Undispatched c e b rejected ac a) (udt : UnitData) (assoc : String)
    (script : List Call) (now : ℕ) :
    e.onBegin c b rejected a udt assoc script now =
      (((e.received b rejected (ac.getD []) a).2.sendEnd c).2.out, e.allocTid.2) := by
  have hnone : (e.received b rejected (ac.getD []) a).1.findIdx? PeerComponent.dispatchable =
      none := by
    rw [List.findIdx?_eq_none_iff]
    exact h.nothing
  have hbuilt := h.built
  unfold Engine.onBegin
  rw [if_neg (Nat.not_le.mpr h.room), h.offered]
  dsimp only
  generalize hread : Dialogue.receive _ false (b.components.getD []) rejected = received
  have hsame : e.received b rejected (ac.getD []) a = received := hread
  rw [hsame] at hnone hbuilt ⊢
  rw [hnone]
  dsimp only
  rw [if_pos]
  simpa using hbuilt

/-- The End carries the Rejects, and it is sent just where it can be encoded. -/
theorem sent_iff (h : Undispatched c e b rejected ac a) (udt : UnitData) (assoc : String)
    (script : List Call) (now : ℕ) :
    (∃ msu ∈ (e.onBegin c b rejected a udt assoc script now).1, wrapMsu c
      ((e.received b rejected (ac.getD []) a).2.leg c true) a = .ok msu) ↔
    b.otid ≠ [] ∧ ∃ msu, wrapMsu c
      ((e.received b rejected (ac.getD []) a).2.leg c true) a = .ok msu := by
  rw [h.onBegin]
  generalize hd : (e.received b rejected (ac.getD []) a).2 = d
  have hsame : d.closed = none ∧ d.opening = false ∧ d.peerTid = b.otid ∧ d.addressing = a ∧
      d.out = [] := by
    obtain ⟨_, _, heq⟩ := (Dialogue.new (e.allocated + 1) .responder e.allocTid.1 b.otid
      (ac.getD []) 0 a e.config).receive_only false (b.components.getD []) rejected
    rw [← hd, Engine.received, heq]
    exact ⟨rfl, rfl, rfl, rfl, rfl⟩
  obtain ⟨hclosed, hopening, hpeer, haddressing, hnothing⟩ := hsame
  unfold Dialogue.sendEnd
  rcases d.flush_cases (c := c) true 0 with
    ⟨hsome, -⟩ | ⟨-, -, hempty, heq⟩ | ⟨-, hmay, ⟨text, hwrap, heq⟩ | ⟨msu, hwrap, heq⟩⟩
  · simp [hclosed] at hsome
  · rw [heq]
    constructor
    · rintro ⟨msu, hmsu, -⟩
      change msu ∈ d.out at hmsu
      simp [hnothing] at hmsu
    · rintro ⟨hne, -⟩
      exact absurd (hpeer.symm.trans hempty) hne
  · rw [haddressing] at hwrap
    rw [heq, hwrap]
    simp
  · have hne : b.otid ≠ [] := by
      rw [← hpeer]
      simpa [hopening] using hmay
    rw [haddressing] at hwrap
    rw [heq]
    constructor
    · exact fun _ => ⟨hne, msu, hwrap⟩
    · exact fun _ => ⟨msu, by simp, hwrap⟩

end Undispatched

/-- The results that several components without parameters are. -/
def decodeResults : Bytes → Option (List Component)
  | [] => some []
  | 0xA2 :: 0x03 :: 0x02 :: 0x01 :: id :: rest =>
    (decodeResults rest).map (.returnResultLast ⟨id.toNat, none⟩ :: ·)
  | _ => none

/-- The octets of a Begin with such results, without a dialogue portion, beside the messages with
Rejects. -/
def resultsCodec : Codec :=
  { boundedCodec with
    decodeDetailed := fun data =>
      match data with
      | 0x62 :: 0x81 :: _ :: 0x48 :: 0x04 :: a :: b :: c :: d :: 0x6C :: 0x81 :: _ :: results =>
        match decodeResults results with
        | some components => .complete (.begins ⟨[a, b, c, d], none, some components⟩)
        | none => .problem ⟨.transactionPortion (.other 2), none, none, none, none⟩
      | _ => .problem ⟨.transactionPortion (.other 2), none, none, none, none⟩ }

/-- A Begin with stray results. -/
def strayBegin (n : ℕ) : Msu :=
  shortMsu ([0x62, 0x81, .ofNat (9 + 5 * n), 0x48, 0x04, 0, 0, 0, 5, 0x6C, 0x81, .ofNat (5 * n)] ++
    (List.replicate n [0xA2, 0x03, 0x02, 0x01, 0x09]).flatten)

def strayEngine : Engine := Engine.new ⟨15000, 30000, 10⟩ (fun _ => none) fun _ => none

def strayAddressing : Addressing :=
  ⟨⟨true, some 6, none⟩, ⟨true, some 8, none⟩, 1, 2, 2, 0, .udt⟩

end SiphonSigtran.Tcap
