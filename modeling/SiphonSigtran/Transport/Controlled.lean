import Mathlib.Logic.Relation
import SiphonSigtran.Transport.Peer

/-!
# Congestion from node to node

A transfer-controlled that is routed to an Application Server goes to its ASPs in a message of
M3UA, and what is reported to a gateway so goes on as a transfer-controlled. However often that
happens, the destination, the level and the point that it is for stay.
-/

namespace SiphonSigtran.Transport.Peer

open Relation

/-! ## Management for a server -/

/-- What network management of MTP3 says that M3UA has a message for. -/
inductive ManagementMessage
  | tfc (destination status : ℕ)
  | upu (destination userPart cause : ℕ)
  | other
  deriving DecidableEq, Repr

inductive Translated
  | scon (context : Option ℕ) (dpcs : List ℕ) (concerned level : Option ℕ)
  | dupu (context : Option ℕ) (dpc cause user : ℕ)
  deriving DecidableEq, Repr

/-- An ASP that is active in a server, and whether its association is there. -/
structure ServerAsp where
  asp : ℕ
  adaptation : Adaptation
  role : Role
  hasSender : Bool

/-- The message of M3UA for an ASP, or for the gateway of this node. The Concerned Destination is
for a gateway only, and a DUPU for an ASP only. -/
def translated (message : Option ManagementMessage) (context : Option ℕ) (gateway : Bool)
    (dpc : ℕ) : Option Translated :=
  match message with
  | some (.tfc destination status) =>
    some (.scon context [destination] (if gateway then none else some dpc)
      (if status = 0 then none else some status))
  | some (.upu destination userPart cause) =>
    if gateway then some (.dupu context destination cause userPart) else none
  | _ => none

/-- What goes to which of the active ASPs of a server, and whether the message is dropped. -/
def managementForServer (decode : List UInt8 → Option ManagementMessage)
    (server : Option (ℕ × List ServerAsp)) (msu : Msu) : List (ℕ × Translated) × Bool :=
  let message := decode msu.payload
  let sent := ((server.map Prod.snd).getD []).filterMap fun slot =>
    if slot.adaptation = .m3ua ∧ slot.hasSender = true then
      (translated message (server.map Prod.fst) (slot.role = .server) msu.dpc).map fun translated =>
        (slot.asp, translated)
    else none
  (sent, sent = [])

/-- What the codec reads in it at the other end. -/
def Translated.read : Translated → M3uaMessage
  | .scon context dpcs concerned level =>
    ⟨.scon, context, context.map fun _ => 4, context.toList, some (4 * dpcs.length),
      dpcs.map fun dpc => (0, dpc), none, none, none, none, none, level, concerned,
      .error .missingParameter⟩
  | .dupu context dpc cause user =>
    ⟨.dupu, context, context.map fun _ => 4, context.toList, some 4, [(0, dpc)], none, none, none,
      none, some (cause, user), none, none, .error .missingParameter⟩

variable {crate : Crate} {decode : List UInt8 → Option ManagementMessage} {c : Conf}
  {sight : Sight} {raw : List UInt8} {server : Option (ℕ × List ServerAsp)} {who d status : ℕ}
  {msu msu' : Msu} {message : Translated}

/-- The level of a status: without one a SCON still says congested. -/
def levelOf (status : ℕ) : ℕ := max status 1

theorem levelOf_idem (status : ℕ) : levelOf (levelOf status) = levelOf status := by
  simp [levelOf]

theorem getD_level (status : ℕ) :
    (if status = 0 then none else some status).getD 1 = levelOf status := by
  split_ifs with hzero
  · simp [levelOf, hzero]
  · exact (Nat.max_eq_left (Nat.one_le_iff_ne_zero.mpr hzero)).symm

/-- A transfer-controlled goes to an ASP as a SCON. -/
theorem sent_scon (hsaid : decode msu.payload = some (.tfc d status))
    (h : (who, message) ∈ (managementForServer decode server msu).1) :
    ∃ context concerned, message = .scon context [d] concerned
        (if status = 0 then none else some status) ∧
      (concerned = none ∨ concerned = some msu.dpc) := by
  unfold managementForServer at h
  simp only [hsaid, translated] at h
  obtain ⟨slot, -, hsent⟩ := List.mem_filterMap.mp h
  by_cases hreached : slot.adaptation = .m3ua ∧ slot.hasSender = true
  · rw [if_pos hreached] at hsent
    obtain ⟨-, rfl⟩ := Prod.mk.inj (Option.some.inj hsent)
    refine ⟨_, _, rfl, ?_⟩
    by_cases hserver : slot.role = .server <;> simp [hserver]
  · rw [if_neg hreached] at hsent
    cases hsent

/-! ## Congestion at the other end -/

/-- A SCON of a peer whose traffic is taken, about a destination. -/
theorem networkManagement_scon (context concerned level : Option ℕ)
    (hactive : ssnmAdmission sight context.toList = .active) (hvalid : crate.valid d = true) :
    networkManagement crate c sight (Translated.scon context [d] concerned level).read raw =
      .apply (.congested d (level.getD 1)) ::
        controlled crate c sight (Translated.scon context [d] concerned level).read [(0, d)]
          (level.getD 1) := by
  unfold networkManagement
  simp [Translated.read, hactive, hvalid, congestion, range]

/-- What goes on of congestion is a transfer-controlled for the point that it concerns. -/
theorem sendVia_of_controlled {report : M3uaMessage} {level : ℕ} {via : Routing.Destination}
    (h : .sendVia via msu' ∈ controlled crate c sight report [(0, d)] level) :
    report.concernedDestination = some msu'.dpc ∧
      crate.tfc d (level % 4) = some msu'.payload := by
  unfold controlled at h
  split at h
  · rename_i point pc hconcerned hentry hgateway
    obtain rfl : d = pc := by simpa using hentry
    split_ifs at h
    · split at h
      · cases List.mem_singleton.mp h
      · rename_i payload hpayload
        split at h
        · obtain ⟨-, rfl⟩ := Act.sendVia.inj (List.mem_singleton.mp h)
          exact ⟨hconcerned, hpayload⟩
        · cases List.mem_singleton.mp h
    · exact absurd h List.not_mem_nil
  · exact absurd h List.not_mem_nil

theorem congested_not_mem_controlled {report : M3uaMessage} {affected : List (ℕ × ℕ)}
    {level d' level' : ℕ} :
    .apply (.congested d' level') ∉ controlled crate c sight report affected level := by
  unfold controlled
  split
  · split_ifs
    · split
      · simp
      · split <;> simp
    · simp
  · simp

/-- What a SCON has sent on is a transfer-controlled about its destination for the point that it
concerns. -/
theorem sendVia_of_scon {context concerned level : Option ℕ} {via : Routing.Destination}
    (h : .sendVia via msu' ∈
      networkManagement crate c sight (Translated.scon context [d] concerned level).read raw) :
    concerned = some msu'.dpc ∧ crate.tfc d (level.getD 1 % 4) = some msu'.payload := by
  cases hactive : ssnmAdmission sight context.toList with
  | notActive =>
    unfold networkManagement at h
    cases hgateway : c.gateway <;> simp [Translated.read, hactive, refuse, hgateway] at h
  | unconfigured =>
    unfold networkManagement at h
    simp [Translated.read, hactive, refuse] at h
  | active =>
    by_cases hvalid : crate.valid d = true
    · rw [networkManagement_scon context concerned level hactive hvalid] at h
      exact sendVia_of_controlled ((List.mem_cons.mp h).resolve_left fun heq => by cases heq)
    · unfold networkManagement at h
      simp [Translated.read, hactive, hvalid, refuse] at h

/-- A SCON says of its destination that it is congested, and of no other. -/
theorem congested_of_scon {context concerned : Option ℕ} {level : Option ℕ} {d' level' : ℕ}
    (hactive : ssnmAdmission sight context.toList = .active) (hvalid : crate.valid d = true) :
    .apply (.congested d' level') ∈
        networkManagement crate c sight (Translated.scon context [d] concerned level).read raw ↔
      d' = d ∧ level' = level.getD 1 := by
  rw [networkManagement_scon context concerned level hactive hvalid, List.mem_cons]
  constructor
  · rintro (heq | hmem)
    · simpa using heq
    · exact absurd hmem congested_not_mem_controlled
  · rintro ⟨rfl, rfl⟩
    exact .inl rfl

/-! ## From node to node -/

/-- What the codec of network management writes is what it reads, and a status has two bits. -/
structure Reads (crate : Crate) (decode : List UInt8 → Option ManagementMessage) : Prop where
  writes : ∀ d status payload, crate.tfc d status = some payload →
    decode payload = some (.tfc d status)
  bits : ∀ payload d status, decode payload = some (.tfc d status) → status < 4

/-- A node sends a message of network management for a server to a peer, and the peer sends another
on. -/
def Crosses (crate : Crate) (decode : List UInt8 → Option ManagementMessage) (msu msu' : Msu) :
    Prop :=
  ∃ server who message c sight raw via,
    (who, message) ∈ (managementForServer decode server msu).1 ∧
      .sendVia via msu' ∈ networkManagement crate c sight message.read raw

theorem Crosses.tfc (hreads : Reads crate decode)
    (hsaid : decode msu.payload = some (.tfc d status)) (h : Crosses crate decode msu msu') :
    msu'.dpc = msu.dpc ∧ decode msu'.payload = some (.tfc d (levelOf status)) := by
  obtain ⟨server, who, message, c, sight, raw, via, hsent, hmem⟩ := h
  obtain ⟨context, concerned, rfl, hconcerned⟩ := sent_scon hsaid hsent
  obtain ⟨hpoint, hpayload⟩ := sendVia_of_scon hmem
  have hbits := hreads.bits _ _ _ hsaid
  have hlevel : levelOf status < 4 := by
    unfold levelOf
    omega
  rw [getD_level, Nat.mod_eq_of_lt hlevel] at hpayload
  refine ⟨?_, hreads.writes _ _ _ hpayload⟩
  rcases hconcerned with hnone | hsome
  · cases hpoint.symm.trans hnone
  · exact Option.some.inj (hpoint.symm.trans hsome)

/-- However often a transfer-controlled goes from node to node over M3UA, it is for the same point
and says the same of the same destination, and congested where it said no level. Every active ASP of
a server that it comes to whose association is there is told, and it is dropped if there is none.
Whoever is told takes the destination, and no other, to be congested so. -/
theorem congestion_carried (hreads : Reads crate decode)
    (hsaid : decode msu.payload = some (.tfc d status))
    (h : ReflTransGen (Crosses crate decode) msu msu') :
    (msu'.dpc = msu.dpc ∧ (msu' = msu ∨ decode msu'.payload = some (.tfc d (levelOf status)))) ∧
    (∀ context asps,
      let told := managementForServer decode (some (context, asps)) msu'
      (∀ slot ∈ asps, slot.adaptation = .m3ua → slot.hasSender = true →
        ∃ message, (slot.asp, message) ∈ told.1) ∧
      (told.2 = true ↔ ∀ slot ∈ asps, ¬(slot.adaptation = .m3ua ∧ slot.hasSender = true))) ∧
    ∀ server who message, (who, message) ∈ (managementForServer decode server msu').1 →
      ∀ c sight raw, ssnmAdmission sight message.read.routingContexts = .active →
        crate.valid d = true → ∀ d' level,
          .apply (.congested d' level) ∈ networkManagement crate c sight message.read raw ↔
            d' = d ∧ level = levelOf status := by
  have hcarried : msu'.dpc = msu.dpc ∧
      (msu' = msu ∨ decode msu'.payload = some (.tfc d (levelOf status))) := by
    induction h with
    | refl => exact ⟨rfl, .inl rfl⟩
    | tail _ hcrosses ih =>
      obtain ⟨hpoint, rfl | hthere⟩ := ih
      · obtain ⟨hsame, hnext⟩ := hcrosses.tfc hreads hsaid
        exact ⟨hsame, .inr hnext⟩
      · obtain ⟨hsame, hnext⟩ := hcrosses.tfc hreads hthere
        rw [levelOf_idem] at hnext
        exact ⟨hsame.trans hpoint, .inr hnext⟩
  obtain ⟨status', hthere, hlevel⟩ : ∃ status', decode msu'.payload = some (.tfc d status') ∧
      levelOf status' = levelOf status := by
    rcases hcarried.2 with rfl | hnext
    · exact ⟨status, hsaid, rfl⟩
    · exact ⟨levelOf status, hnext, levelOf_idem status⟩
  refine ⟨hcarried, fun context asps => ⟨fun slot hslot hm3ua hsender => ?_, ?_⟩, ?_⟩
  · simp only [managementForServer, hthere, translated, Option.map_some, Option.getD_some]
    exact ⟨_, List.mem_filterMap.mpr ⟨slot, hslot, if_pos ⟨hm3ua, hsender⟩⟩⟩
  · simp only [managementForServer, hthere, translated, Option.map_some, Option.getD_some,
      decide_eq_true_eq, List.filterMap_eq_nil_iff]
    refine forall₂_congr fun slot _ => ?_
    split_ifs with hreached
    · simp [hreached]
    · simp [hreached]
  · intro server who message hsent c sight raw hactive hvalid d' level
    obtain ⟨context, concerned, rfl, -⟩ := sent_scon hthere hsent
    rw [congested_of_scon hactive hvalid, getD_level, hlevel]

/-- A codec of network management in two octets. -/
def twoOctets : Crate where
  decode _ := .error .tooShort
  declared _ := 0
  isClass _ := false
  valid _ := true
  tfc d status :=
    if d < 256 ∧ status < 4 then some [UInt8.ofNat d, UInt8.ofNat status] else none

def ofTwoOctets : List UInt8 → Option ManagementMessage
  | [d, status] => if status.toNat < 4 then some (.tfc d.toNat status.toNat) else none
  | _ => none

theorem reads_twoOctets : Reads twoOctets ofTwoOctets where
  writes d status payload h := by
    simp only [twoOctets] at h
    split_ifs at h with hsmall
    obtain rfl := Option.some.inj h
    have hd : d % 256 = d := Nat.mod_eq_of_lt hsmall.1
    have hstatus : status % 256 = status := Nat.mod_eq_of_lt (by omega)
    simp [ofTwoOctets, hd, hstatus, hsmall.2]
  bits payload d status h := by
    unfold ofTwoOctets at h
    split at h
    · split_ifs at h with hsmall
      obtain ⟨-, rfl⟩ := ManagementMessage.tfc.inj (Option.some.inj h)
      exact hsmall
    · cases h

/-- A gateway with a route to 7. -/
def onward : Sight where
  isSender := true
  admits _ := .active
  destinations := []
  egressFor dpc := if dpc = 7 then some (.applicationServer "as") else none
  isRestricted _ := false
  isRestarting := false
  nodePointCode := 9
  networkIndicator := 2

/-- A transfer-controlled for 7 about 5 that says no level goes to a gateway, which sends it on to
an ASP of its own. -/
theorem congestion_carried_onward :
    .apply (.congested 5 1) ∈ networkManagement twoOctets ⟨⟨0, [], 2000, none⟩, false, 0⟩ onward
      (Translated.scon (some 200) [5] none (some 1)).read [] := by
  have hcrosses : Crosses twoOctets ofTwoOctets ⟨1, 7, 0, 2, 0, 0, [5, 0]⟩
      ⟨9, 7, 0, 2, 0, 0, [5, 1]⟩ :=
    ⟨some (100, [⟨0, .m3ua, .client, true⟩]), 0, .scon (some 100) [5] (some 7) none,
      ⟨⟨0, [], 2000, none⟩, true, 0⟩, onward, [], .applicationServer "as", by decide, by decide⟩
  have hcarried := (congestion_carried (d := 5) reads_twoOctets rfl (.single hcrosses)).2.2
    (some (200, [⟨3, .m3ua, .server, true⟩])) 3 (.scon (some 200) [5] none (some 1)) (by decide)
  exact (hcarried _ onward [] (by decide) rfl 5 1).mpr ⟨rfl, by decide⟩

end SiphonSigtran.Transport.Peer
