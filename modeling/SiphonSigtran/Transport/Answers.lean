import SiphonSigtran.Transport.Membership
import SiphonSigtran.Transport.Reflection
import SiphonSigtran.Transport.Ssnm

/-!
# The answers to a message

A message that comes in on an M3UA association may be answered: by a message return of SCCP, which
is sent to an Application Server, or by a dialogue, on the association itself with the Routing
Context of a server. Which server that is, is looked up by the association.
-/

namespace SiphonSigtran.Transport

open Routing (Destination RouteDecision)

namespace Network

variable (n : Network)

/-- The association of the configuration with a name. -/
def slot (assoc : String) : Option Association := n.associations.find? fun a => a.id = assoc

/-- The servers that an association is configured in, when it is one of M3UA. -/
def slotMemberships (assoc : String) : List Membership :=
  match n.slot assoc with
  | none => []
  | some a => if a.adaptation = .m3ua then memberships n.servers assoc else []

/-- Whether an association takes traffic that names this Routing Context, or none: by the servers in
which it is active. -/
def admits (active : ℕ → ℕ → Bool) (assoc : String) (context : Option ℕ) : Admission :=
  let taking := (n.slotMemberships assoc).filter fun m => active m.server m.position
  if taking = [] then .notActive
  else match context with
    | none => .active
    | some context =>
      if taking.any fun m => m.context = context then .active
      else if (n.slotMemberships assoc).any fun m => m.context = context then .notActive
      else .unconfigured

/-- The Routing Context and the traffic mode of the server that an association belongs to: the
first one that it is an ASP of. -/
def asMembership (assoc : String) : Option (ℕ × TrafficMode) :=
  (n.servers.find? fun a => assoc ∈ a.asps).map fun a => (a.routingContext, a.trafficMode)

end Network

/-! ## Answers -/

inductive Answer
  | sccpReturn (dest : Destination) (msu : Msu)
  | dialogueReply (on : String) (stamp : Option ℕ) (msu : Msu)
  | onLink (link : String) (msu : Msu)
  deriving DecidableEq, Repr

/-- What admission and the dialogues say of a message that ends at this node. A refusal may have
an abort. -/
structure Ending where
  refused : Msu → Option (Option Msu)
  replies : Msu → List Msu

section

variable (n : Network) (users : Users) (ending : Ending) (live : String → Bool)

/-- The message return that carrying out a decision asks for. -/
def returnOf (src : Option Destination) (msu : Handed) : RouteDecision → Option Msu
  | .route via =>
    if msu.msu.si = Relay.siIsup ∧ users.screened msu.msu then none
    else if Relay.isReflection src via then none
    else (users.refused msu).join
  | .routeTo _ _ (some via) _ =>
    if Relay.isReflection src via then none
    else match users.refused msu with
      | some refusal => refusal
      | none =>
        match users.hop msu.msu with
        | .error violation => violation
        | .ok _ => none
  | .local_ => none
  | .routeTo _ _ none _ | .crossTenant _ _ _ _ | .drop _ => users.returned msu.msu

/-- Send a reply of a dialogue on an association that has a sender. -/
def sendReply (assoc : String) (msu : Msu) : Option Answer :=
  match n.slot assoc with
  | none => none
  | some a =>
    if live assoc = false then none
    else match a.adaptation with
      | .m3ua => some (.dialogueReply assoc ((n.asMembership assoc).map Prod.fst) msu)
      | .m2pa => some (.onLink assoc msu)
      | .sua => some (.dialogueReply assoc (((n.asMembership assoc).map Prod.fst).getD 0) msu)

/-- The answers to a message that came in on an association, by the decision on it. -/
def answers (assoc : String) (msu : Handed) (decision : RouteDecision) : List Answer :=
  match decision with
  | .local_ =>
    match ending.refused msu.msu with
    | some abort => (abort.bind (sendReply n live assoc)).toList
    | none => (ending.replies msu.msu).filterMap (sendReply n live assoc)
  | decision =>
    match n.inboundDestination assoc with
    | none => []
    | some src =>
      ((returnOf users (some src) msu decision).map fun msu => .sccpReturn src msu).toList

end

/-- The Routing Context that an answer goes out with. -/
def Answer.context (n : Network) : Answer → Option ℕ
  | .sccpReturn dest _ =>
    match dest with
    | .applicationServer name => (n.server name).map ApplicationServer.routingContext
    | .linkset _ => none
  | .dialogueReply _ stamp _ => stamp
  | .onLink _ _ => none

/-- A message return is on its way to where the message came in. -/
theorem carryOut_returns (users : Users) (s : Relay) (src : Destination) (msu : Handed)
    (decision : RouteDecision) {ret : Msu}
    (h : returnOf users (some src) msu decision = some ret) :
    (s.carryOut users (some src) msu decision).busy =
      s.busy ++ [⟨src, ⟨s.origins.length, ret⟩, true⟩] := by
  have hanswer : (s.answer (some src) (some ret)).busy =
      s.busy ++ [⟨src, ⟨s.origins.length, ret⟩, true⟩] := rfl
  cases decision with
  | local_ => simp [returnOf] at h
  | drop reason | crossTenant tenant dpc ssn conversion =>
    have hret : users.returned msu.msu = some ret := h
    rw [Relay.carryOut, hret, hanswer]
  | route via =>
    simp only [returnOf] at h
    split_ifs at h with hscreened hreflection
    have hrefused := Option.join_eq_some_iff.mp h
    rw [Relay.carryOut, if_neg hscreened, if_neg hreflection, Relay.admission, hrefused]
    exact hanswer
  | routeTo dpc ssn via rewrite =>
    cases via with
    | none =>
      have hret : users.returned msu.msu = some ret := h
      rw [Relay.carryOut, hret, hanswer]
    | some via =>
      simp only [returnOf] at h
      split_ifs at h with hreflection
      rw [Relay.carryOut, if_neg hreflection, Relay.admission]
      cases hrefused : users.refused msu with
      | some refusal =>
        simp only [hrefused] at h
        rw [h]
        exact hanswer
      | none =>
        simp only [hrefused] at h
        cases hhop : users.hop msu.msu with
        | ok payload => simp [hhop] at h
        | error violation =>
          simp only [hhop] at h
          rw [h] at hhop
          rw [Relay.relayTo, hhop]
          exact hanswer

/-! ## The server of an answer -/

section

variable {n : Network} {active : ℕ → ℕ → Bool} {assoc : String}

/-- An association that takes traffic with a Routing Context is active in a server of it. -/
theorem member_of_admits {context : ℕ} (h : n.admits active assoc (some context) = .active) :
    ∃ m ∈ n.slotMemberships assoc, active m.server m.position = true ∧ m.context = context := by
  unfold Network.admits at h
  dsimp only at h
  split_ifs at h with hnone htaking
  obtain ⟨m, hm, hcontext⟩ := List.any_eq_true.mp htaking
  obtain ⟨hmember, hactive⟩ := List.mem_filter.mp hm
  exact ⟨m, hmember, hactive, of_decide_eq_true hcontext⟩

/-- An association with a membership is one of M3UA, and an ASP of a server. -/
theorem asp_of_membership {m : Membership} (h : m ∈ n.slotMemberships assoc) :
    (∃ a, n.slot assoc = some a ∧ a.adaptation = .m3ua) ∧ ∃ s ∈ n.servers, assoc ∈ s.asps := by
  unfold Network.slotMemberships at h
  cases hslot : n.slot assoc with
  | none => simp [hslot] at h
  | some a =>
    simp only [hslot] at h
    split_ifs at h with hadaptation
    · refine ⟨⟨a, rfl, hadaptation⟩, ?_⟩
      obtain ⟨⟨entry, server⟩, hentry, hposition⟩ := List.mem_filterMap.mp h
      obtain ⟨position, hfound, -⟩ := Option.map_eq_some_iff.mp hposition
      refine ⟨entry, (List.mem_zipIdx' hentry).2 ▸ List.getElem_mem _, ?_⟩
      obtain ⟨hlt, heq, -⟩ := List.findIdx?_eq_some_iff_getElem.mp hfound
      exact of_decide_eq_true heq ▸ List.getElem_mem hlt
    · simp at h

/-- Every answer goes out with the Routing Context of the first server that the association is an
ASP of. -/
theorem answer_context {users : Users} {ending : Ending} {live : String → Bool} {msu : Handed}
    {decision : RouteDecision} {a : Answer} {s : ApplicationServer} {slot : Association}
    (hfirst : n.servers.find? (fun s => assoc ∈ s.asps) = some s)
    (hslot : n.slot assoc = some slot) (hm3ua : slot.adaptation = .m3ua)
    (ha : a ∈ answers n users ending live assoc msu decision) :
    a.context n = some s.routingContext := by
  have hinbound : n.inboundDestination assoc = some (.applicationServer s.name) := by
    unfold Network.inboundDestination
    rw [hfirst]
  have hserver : n.server s.name = some s :=
    Relay.find_unique (List.nodup_append.mp n.names).1 (List.mem_of_find?_eq_some hfirst)
  have hreply : ∀ reply, sendReply n live assoc reply = some a →
      a.context n = some s.routingContext := by
    intro reply hreply
    unfold sendReply at hreply
    simp only [hslot, hm3ua] at hreply
    split_ifs at hreply
    obtain rfl := Option.some.inj hreply
    simp [Answer.context, Network.asMembership, hfirst]
  have hreturn : a ∈ ((returnOf users (some (.applicationServer s.name)) msu decision).map
      fun msu => Answer.sccpReturn (.applicationServer s.name) msu).toList →
      a.context n = some s.routingContext := by
    intro hreturn
    obtain ⟨ret, -, rfl⟩ := Option.map_eq_some_iff.mp (Option.mem_toList.mp hreturn)
    simp [Answer.context, hserver]
  unfold answers at ha
  cases decision with
  | local_ =>
    dsimp only at ha
    cases hrefused : ending.refused msu.msu with
    | some abort =>
      simp only [hrefused] at ha
      obtain ⟨reply, -, hsent⟩ := Option.bind_eq_some_iff.mp (Option.mem_toList.mp ha)
      exact hreply reply hsent
    | none =>
      simp only [hrefused] at ha
      obtain ⟨reply, -, hsent⟩ := List.mem_filterMap.mp ha
      exact hreply reply hsent
  | route | routeTo | crossTenant | drop =>
    simp only [hinbound] at ha
    exact hreturn ha

end

/-- An answer goes out in the server its question came in exactly if that is the first server which
the association is an ASP of. -/
theorem in_its_server_iff (n : Network) (users : Users) (ending : Ending)
    (active : ℕ → ℕ → Bool) (live : String → Bool) (assoc : String) (context : ℕ)
    (hadmits : n.admits active assoc (some context) = .active) (msu : Handed)
    (decision : RouteDecision) (a : Answer)
    (ha : a ∈ answers n users ending live assoc msu decision) :
    (a.context n = some context ∧ ∃ m ∈ n.slotMemberships assoc,
      active m.server m.position = true ∧ a.context n = some m.context) ↔
    (n.servers.find? fun s => assoc ∈ s.asps).map ApplicationServer.routingContext =
      some context := by
  obtain ⟨m, hm, hactive, hcontext⟩ := member_of_admits hadmits
  obtain ⟨⟨slot, hslot, hm3ua⟩, s, hs, hasp⟩ := asp_of_membership hm
  cases hfirst : n.servers.find? fun s => assoc ∈ s.asps with
  | none =>
    have hnone := List.find?_eq_none.mp hfirst s hs
    simp [hasp] at hnone
  | some first =>
    rw [answer_context hfirst hslot hm3ua ha, Option.map_some]
    constructor
    · exact And.left
    · intro heq
      exact ⟨heq, m, hm, hactive, by rw [heq, hcontext]⟩

/-- A gateway that is an ASP of the server "one", with Routing Context 100, and of "two", with
200. -/
def twoServers : Network where
  associations := [⟨"gw", .m3ua, .server⟩]
  servers := [⟨"one", .loadshare, 100, ["gw"], 2000, 1⟩, ⟨"two", .loadshare, 200, ["gw"], 2000, 1⟩]
  linksets := []
  pendingLimit := fun _ => 10
  resolver := .build .itu [] [] []
  names := by decide

/-- Users that return every message to its originator. -/
def returning : Users where
  called := fun _ => (none, none)
  view := fun _ => (none, false)
  screened := fun _ => false
  refused := fun _ => none
  hop := fun msu => .ok msu.payload
  rewritten := fun _ _ => none
  returned := fun msu => some { msu with opc := msu.dpc, dpc := msu.opc }
  translated := fun _ _ => true

def unanswered : Ending := ⟨fun _ => none, fun _ => []⟩

/-- A message for a title that nothing translates. -/
def untranslated : Handed := ⟨0, ⟨300, 1, 3, 2, 0, 0, []⟩⟩

theorem in_its_server_of_first :
    (Answer.sccpReturn (.applicationServer "one") ⟨1, 300, 3, 2, 0, 0, []⟩).context twoServers =
      some 100 := by
  have hadmits : twoServers.admits (fun server _ => server = 0) "gw" (some 100) = .active := by
    decide
  have hiff := in_its_server_iff twoServers returning unanswered (fun server _ => server = 0)
    (fun _ => true) "gw" 100 hadmits untranslated (.drop "no translation")
    (.sccpReturn (.applicationServer "one") ⟨1, 300, 3, 2, 0, 0, []⟩) (by decide)
  exact (hiff.mpr (by decide)).1

/-- A message that came in for the second server is returned to the first one, in which the
association is not active. -/
theorem returned_to_another_server :
    twoServers.admits (fun server _ => server = 1) "gw" (some 200) = .active ∧
    ¬ ∀ a ∈ answers twoServers returning unanswered (fun _ => true) "gw" untranslated
        (.drop "no translation"),
      a.context twoServers = some 200 ∧ ∃ m ∈ twoServers.slotMemberships "gw",
        decide (m.server = 1) = true ∧ a.context twoServers = some m.context := by
  refine ⟨by decide, fun h => ?_⟩
  have hreturned := (h (.sccpReturn (.applicationServer "one") ⟨1, 300, 3, 2, 0, 0, []⟩)
    (by decide)).1
  exact absurd hreturned (by decide)

end SiphonSigtran.Transport
