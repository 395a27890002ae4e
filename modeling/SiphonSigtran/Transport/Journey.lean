import SiphonSigtran.Transport.Transit

/-!
# Loops between nodes

In a network of these nodes a message may be led in a circle by their routing tables. The hop
counter ends that: a message that counts its hops is translated no more often than it had hops, and
its return no more often than a new one has, and is never returned itself. A message that counts no
hops has no such bound.
-/

namespace SiphonSigtran.Transport

open Lib Routing

/-! ## Journeys -/

/-- What a node does with a message that it sends on. -/
inductive Way
  | transferred
  | translated
  | returned
  deriving DecidableEq, Repr

/-- A message passes a node. -/
inductive Passes (sccp : SccpCrate) : Way → Msu → Msu → Prop
  | transferred (a b : Msu) (hsi : b.si = a.si) (hpayload : b.payload = a.payload) :
      Passes sccp .transferred a b
  | translated (a b : Msu) (x x' : SccpMessage) (ha : a.si = siSccp) (hb : b.si = siSccp)
      (hx : sccp.decode a.payload = .ok x) (hx' : sccp.decode b.payload = .ok x')
      (h : Translation x x') : Passes sccp .translated a b
  | returned (a b : Msu) (x x' : SccpMessage) (cause : UInt8) (ha : a.si = siSccp)
      (hb : b.si = siSccp) (hx : sccp.decode a.payload = .ok x) (hasked : x.returnOnError = true)
      (hx' : sccp.decode b.payload = .ok x')
      (h : x'.plain = (x.returned cause sccp.newHopCounter).plain) : Passes sccp .returned a b

/-- The way of a message from node to node. -/
inductive Journey (sccp : SccpCrate) (a : Msu) : List Way → Msu → Prop
  | here : Journey sccp a [] a
  | on (ways : List Way) (b : Msu) (way : Way) (c : Msu) (h : Journey sccp a ways b)
      (hpass : Passes sccp way b c) : Journey sccp a (ways ++ [way]) c

/-- How often a message can still be translated: while it has hops left, and while its return
has. -/
def budget (sccp : SccpCrate) (x : SccpMessage) : ℕ :=
  ((x.hopCounter.getD 0).toNat - 1) +
    if x.returnOnError then sccp.newHopCounter.toNat - 1 else 0

section

variable {sccp : SccpCrate} {a b : Msu} {x x' : SccpMessage} {ways : List Way}

theorem returnOnError_of_handling (h : x'.handling = x.handling) :
    x'.returnOnError = x.returnOnError := by
  unfold SccpMessage.returnOnError
  rw [h]

/-- A translation takes one from what is left. -/
theorem budget_translated (sccp : SccpCrate) (h : Translation x x') {hop : UInt8}
    (hhop : x.hopCounter = some hop) :
    (∃ hop', x'.hopCounter = some hop') ∧ budget sccp x' + 1 = budget sccp x := by
  obtain ⟨hop', hhop', hsub, hpos⟩ := h.hopCounter_lt hhop
  refine ⟨⟨hop', hhop'⟩, ?_⟩
  have hasked := returnOnError_of_handling h.keeps.2.1
  unfold budget
  rw [hhop, hhop', hasked, Option.getD_some, Option.getD_some]
  omega

/-- A return has the hops of a new message, and is not returned. -/
theorem budget_returned {cause : UInt8} (hasked : x.returnOnError = true)
    (h : x'.plain = (x.returned cause sccp.newHopCounter).plain) {hop : UInt8}
    (hhop : x.hopCounter = some hop) :
    x'.hopCounter = some sccp.newHopCounter ∧ x'.returnOnError = false ∧
      budget sccp x' ≤ budget sccp x := by
  have hkept : x'.hopCounter = some sccp.newHopCounter ∧ x'.handling = none := by
    rw [← x'.hopCounter_plain, ← x'.handling_plain, h]
    cases x with
    | xudt m => exact ⟨rfl, rfl⟩
    | ludt m => exact ⟨rfl, rfl⟩
    | udt m => cases hhop
    | udts m => cases hhop
    | xudts m => cases hasked
    | ludts m => cases hasked
  have hnot : x'.returnOnError = false := by
    unfold SccpMessage.returnOnError
    rw [hkept.2]
    rfl
  refine ⟨hkept.1, hnot, ?_⟩
  unfold budget
  rw [hkept.1, hnot, hasked]
  simp only [Option.getD_some, Bool.false_eq_true, ↓reduceIte]
  omega

/-- What a journey has used, and what is left of it. -/
structure Spent (sccp : SccpCrate) (x : SccpMessage) (ways : List Way) (b : Msu) : Prop where
  si : b.si = siSccp
  left : ∃ y hop, sccp.decode b.payload = .ok y ∧ y.hopCounter = some hop ∧
    ways.count .translated + budget sccp y ≤ budget sccp x ∧
    ways.count .returned + (if y.returnOnError then 1 else 0) ≤ if x.returnOnError then 1 else 0

theorem Spent.passes {c : Msu} {way : Way} (h : Spent sccp x ways b) (hpass : Passes sccp way b c) :
    Spent sccp x (ways ++ [way]) c := by
  obtain ⟨hsi, y, hop, hy, hhop, htranslated, hreturned⟩ := h
  cases hpass with
  | transferred _ _ hsame hpayload =>
    refine ⟨hsame.trans hsi, y, hop, hpayload ▸ hy, hhop, ?_, ?_⟩
    · simpa using htranslated
    · simpa using hreturned
  | translated _ _ z z' _ hc hz hz' htranslation =>
    obtain rfl := Except.ok.inj (hz.symm.trans hy)
    obtain ⟨⟨hop', hhop'⟩, hbudget⟩ := budget_translated sccp htranslation hhop
    refine ⟨hc, z', hop', hz', hhop', ?_, ?_⟩
    · rw [List.count_append, List.count_singleton_self]
      omega
    · rw [returnOnError_of_handling htranslation.keeps.2.1]
      simpa using hreturned
  | returned _ _ z z' cause _ hc hz hasked hz' hplain =>
    obtain rfl := Except.ok.inj (hz.symm.trans hy)
    obtain ⟨hnew, hnot, hbudget⟩ := budget_returned hasked hplain hhop
    refine ⟨hc, z', _, hz', hnew, ?_, ?_⟩
    · have hcount : (ways ++ [Way.returned]).count .translated = ways.count .translated := by simp
      omega
    · rw [hasked] at hreturned
      rw [hnot, List.count_append, List.count_singleton_self]
      simpa using hreturned

/-- A message that counts its hops ends its journey. -/
theorem Journey.bounded (h : Journey sccp a ways b) (hsi : a.si = siSccp)
    (hx : sccp.decode a.payload = .ok x) {hop : UInt8} (hhop : x.hopCounter = some hop) :
    Spent sccp x ways b := by
  induction h with
  | here => exact ⟨hsi, x, hop, hx, hhop, by simp, by simp⟩
  | on ways b way c _ hpass ih => exact ih.passes hpass

end

/-! ## A network -/

/-- Nodes, with the same codec. Between them the payload of a message is not changed. -/
structure Net (ι : Type) where
  sccp : SccpCrate
  stp : ι → Stp
  fits : Variant → ℕ → Bool
  network : ι → Network
  tenant : ι → String
  same : ∀ i, (stp i).sccp = sccp

/-- The nodes at some time, with the messages that came in from outside the network and those that
nodes have sent. -/
structure Traffic (ι : Type) where
  relay : ι → Relay
  outside : List Msu
  sent : List Msu

/-- A message comes in from outside, or a node takes a turn, in which a message may come in that one
of the nodes has sent. -/
inductive Event (ι : Type)
  | enters (i : ι) (origin : Origin) (msu : Msu)
  | turn (i : ι) (turn : Relay.Turn)

namespace Net

variable {ι : Type}

/-- The message that a node sends in a turn. -/
def departing (s : Relay) : Relay.Turn → List Msu
  | .send k => (s.busy[k]?.map fun going => going.msu.msu).toList
  | .reroute k => (s.onLinks[k]?.map fun p => p.2.msu).toList
  | _ => []

section

variable [DecidableEq ι]

/-- A node takes a turn. -/
def turn (net : Net ι) (t : Traffic ι) (i : ι) (turn : Relay.Turn) : Traffic ι :=
  let out := (net.stp i).step net.fits (net.network i) (net.tenant i) (t.relay i) turn
  { t with
    relay := Function.update t.relay i out.1
    sent := if out.2 = [] then t.sent else t.sent ++ departing (t.relay i) turn }

def step (net : Net ι) (t : Traffic ι) : Event ι → Traffic ι
  | .enters i origin msu =>
    net.turn { t with outside := t.outside ++ [msu] } i (.arrive origin msu)
  | .turn i turn =>
    match turn with
    | .arrive _ msu => if msu ∈ t.sent then net.turn t i turn else t
    | _ => net.turn t i turn

end

/-- A message came by a journey from outside. -/
def Came (net : Net ι) (outside : List Msu) (m : Msu) : Prop :=
  ∃ o ∈ outside, ∃ ways, Journey net.sccp o ways m

/-- All messages of a network came from outside. -/
structure FromOutside (net : Net ι) (t : Traffic ι) : Prop where
  held : ∀ i, Relay.Everywhere (fun m => net.Came t.outside m.msu) (t.relay i)
  sent : ∀ m ∈ t.sent, net.Came t.outside m

variable {net : Net ι} {t : Traffic ι} {outside : List Msu}

theorem Came.passes {a b : Msu} {way : Way} (h : net.Came outside a)
    (hpass : Passes net.sccp way a b) : net.Came outside b := by
  obtain ⟨o, ho, ways, hjourney⟩ := h
  exact ⟨o, ho, ways ++ [way], .on ways a way b hjourney hpass⟩

theorem Came.append {a : Msu} (h : net.Came outside a) (more : List Msu) :
    net.Came (outside ++ more) a := by
  obtain ⟨o, ho, ways, hjourney⟩ := h
  exact ⟨o, List.mem_append_left more ho, ways, hjourney⟩

/-- A message that a node carries, or answers with, passes it. -/
theorem came_of_carries {i : ι} {ourPc : Option ℕ} {a : Msu} {m : Handed}
    (ha : net.Came outside a) (h : (net.stp i).Carries (net.tenant i) ourPc a m) :
    net.Came outside m.msu := by
  rcases h.content with hsame | ⟨hsi, x, x', hx, hx', htranslation⟩
  · exact ha.passes (.transferred a m.msu (by rw [hsame]) (by rw [hsame]))
  · rw [net.same i] at hx hx'
    exact ha.passes (.translated a m.msu x x' hsi (by rw [h.label]; exact hsi) hx hx' htranslation)

theorem came_of_answers {i : ι} {ourPc : Option ℕ} {a : Msu} {m : Handed}
    (ha : net.Came outside a) (h : (net.stp i).Answers ourPc a m) : net.Came outside m.msu := by
  obtain ⟨x, x', cause, hx, hasked, hx', hplain⟩ := h.content
  rw [net.same i] at hx hx' hplain
  exact ha.passes (.returned a m.msu x x' cause h.sccp (by rw [h.label]; exact h.sccp) hx hasked
    hx' hplain)

/-- What departs is held. -/
theorem departing_of_everywhere {R : Handed → Prop} {R' : Msu → Prop} {s : Relay}
    (hR : ∀ m, R m → R' m.msu) (h : Relay.Everywhere R s) (turn : Relay.Turn) :
    ∀ m ∈ departing s turn, R' m := by
  intro m hm
  cases turn with
  | send k =>
    obtain ⟨going, hgoing, rfl⟩ := Option.map_eq_some_iff.mp (Option.mem_toList.mp hm)
    exact hR _ (h.busy going (List.mem_of_getElem? hgoing))
  | reroute k =>
    obtain ⟨p, hp, rfl⟩ := Option.map_eq_some_iff.mp (Option.mem_toList.mp hm)
    exact hR _ (h.onLinks p (List.mem_of_getElem? hp))
  | arrive | change | serverState | holdDestination | releaseDestination | releaseNext =>
    exact absurd hm List.not_mem_nil

variable [DecidableEq ι]

/-- A turn of a node keeps that all came from outside, if what comes in did. -/
theorem FromOutside.turn (hsound : net.sccp.Sound) (h : net.FromOutside t) (i : ι)
    (turn : Relay.Turn) (hturn : ∀ origin a, turn = .arrive origin a → net.Came t.outside a) :
    net.FromOutside (net.turn t i turn) := by
  have hsound : (net.stp i).sccp.Sound := net.same i ▸ hsound
  have hstep : Relay.Everywhere (fun m => net.Came t.outside m.msu)
      ((net.stp i).step net.fits (net.network i) (net.tenant i) (t.relay i) turn).1 := by
    unfold Stp.step
    by_cases harrive : ∃ origin a, turn = .arrive origin a
    · obtain ⟨origin, a, rfl⟩ := harrive
      have ha := hturn origin a rfl
      simp only [Relay.step]
      split_ifs
      · apply (h.held i).dispatch
        · intro d b hd hb
          exact came_of_carries ha (Stp.carries_of_leaves hsound rfl hd hb)
        · intro d src ret hd hret
          exact came_of_answers ha (Stp.answers_of_returnOf (k := (t.relay i).origins.length + 1)
            hsound (Stp.foreign_of_decision hd) hret)
      · exact h.held i
    · exact (h.held i).step fun origin a heq => harrive ⟨origin, a, heq⟩
  unfold Net.turn
  refine ⟨fun j => ?_, fun m hm => ?_⟩
  · by_cases hj : j = i
    · subst hj
      simpa using hstep
    · simpa [Function.update_of_ne hj] using h.held j
  · dsimp only at hm
    split_ifs at hm
    · exact h.sent m hm
    · rcases List.mem_append.mp hm with hm | hm
      · exact h.sent m hm
      · exact departing_of_everywhere (fun _ h => h) (h.held i) turn m hm

theorem FromOutside.step (hsound : net.sccp.Sound) (h : net.FromOutside t) (event : Event ι) :
    net.FromOutside (net.step t event) := by
  cases event with
  | enters i origin msu =>
    have hmore : net.FromOutside { t with outside := t.outside ++ [msu] } :=
      ⟨fun j => (h.held j).mono fun _ hm => hm.append [msu], fun m hm => (h.sent m hm).append [msu]⟩
    apply hmore.turn hsound
    rintro _ _ ⟨⟩
    exact ⟨msu, by simp, [], .here⟩
  | turn i turn =>
    simp only [Net.step]
    cases turn with
    | arrive origin msu =>
      dsimp only
      split_ifs with hsent
      · apply h.turn hsound
        rintro _ _ ⟨⟩
        exact h.sent msu hsent
      · exact h
    | send | change | serverState | holdDestination | releaseDestination | releaseNext | reroute =>
      exact h.turn hsound i _ fun origin a heq => by cases heq

/-- A message came by a journey from outside. If what came in counts its hops, it was translated at
most as often as it had hops to spare, and then, as its return, as a new message has; and it was
returned once at most, and only if it asked for it. -/
def Bounded (net : Net ι) (outside : List Msu) (m : Msu) : Prop :=
  ∃ o ∈ outside, ∃ ways, Journey net.sccp o ways m ∧
    ∀ x hop, o.si = siSccp → net.sccp.decode o.payload = .ok x → x.hopCounter = some hop →
      ways.count .translated ≤ (hop.toNat - 1) +
          (if x.returnOnError then net.sccp.newHopCounter.toNat - 1 else 0) ∧
        ways.count .returned ≤ if x.returnOnError then 1 else 0

omit [DecidableEq ι] in
theorem Came.bounded {m : Msu} (h : net.Came outside m) : net.Bounded outside m := by
  obtain ⟨o, ho, ways, hjourney⟩ := h
  refine ⟨o, ho, ways, hjourney, fun x hop hsi hx hhop => ?_⟩
  obtain ⟨-, y, hop', hy, hhop', htranslated, hreturned⟩ := hjourney.bounded hsi hx hhop
  have hbudget : budget net.sccp x = (hop.toNat - 1) +
      if x.returnOnError then net.sccp.newHopCounter.toNat - 1 else 0 := by
    unfold budget
    rw [hhop, Option.getD_some]
  rw [hbudget] at htranslated
  exact ⟨by omega, by omega⟩

/-- Two nodes with the same tables. -/
def pair : Net Bool where
  sccp := Stp.askingCrate
  stp := fun _ => Stp.relaying
  fits := Stp.fourteenBits
  network := fun _ => Relay.crossroadsNetwork
  tenant := fun _ => "default"
  same := fun _ => rfl

/-- A message that crosses the first node. -/
def crossing : Msu := ⟨7, 3000, 3, 2, 0, 5, Stp.askingOctets 15⟩

/-- What becomes of the nodes when a message comes in at one, is sent, and comes in at the other. -/
def acrossBoth : Traffic Bool :=
  Machine.run pair.step ⟨fun _ => Relay.new Stp.crossroadsRouter 10, [], []⟩
    [.turn false (.change (Relay.withLinksets ["west", "east"])),
      .turn true (.change (Relay.withLinksets ["west", "east"])),
      .enters false ⟨"a", some (.linkset "west")⟩ crossing, .turn false (.send 0),
      .turn true (.arrive ⟨"a", some (.linkset "west")⟩ crossing), .turn true (.send 0)]

end Net

end SiphonSigtran.Transport
