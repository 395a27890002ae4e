import SiphonSigtran.Transport.Aspm
import SiphonSigtran.Transport.Dial

/-!
# The associations of a configuration

An association is opened by this node, or accepted on an endpoint where it listens. Those that
listen at the same addresses and port share an endpoint and are told apart by the addresses of their
peers. The text form of IP addresses is a parameter.
-/

namespace SiphonSigtran.Configuration

open Transport (Adaptation Role Dial.Block)

/-! ## Addresses -/

inductive IpAddr
  | v4 (bits : BitVec 32)
  | v6 (bits : BitVec 128)
  deriving DecidableEq, Repr

namespace IpAddr

/-- An IPv4-mapped IPv6 address as the IPv4 address it is. -/
def toCanonical : IpAddr → IpAddr
  | .v4 bits => .v4 bits
  | .v6 bits =>
    if bits.extractLsb' 32 96 = 0xFFFF#96 then .v4 (bits.extractLsb' 0 32) else .v6 bits

def isUnspecified : IpAddr → Bool
  | .v4 bits => bits = 0
  | .v6 bits => bits = 0

@[simp] theorem toCanonical_toCanonical (ip : IpAddr) :
    ip.toCanonical.toCanonical = ip.toCanonical := by
  cases ip with
  | v4 bits => rfl
  | v6 bits =>
    by_cases hmapped : bits.extractLsb' 32 96 = 0xFFFF#96
    · simp only [toCanonical, hmapped, ↓reduceIte]
    · simp only [toCanonical, hmapped, ↓reduceIte]

end IpAddr

/-- The text form of addresses. -/
structure IpText where
  parse : String → Option IpAddr
  display : IpAddr → String

/-! ## Associations -/

/-- The `m3ua:` block of an association, as validation reads it. -/
structure M3uaPeer where
  ackMs : ℕ
  deriving DecidableEq, Repr

/-- The `m2pa:` block of an association, as validation reads it. -/
structure M2paLink where
  t1Ms : ℕ
  t2Ms : ℕ
  t3Ms : ℕ
  t4nMs : ℕ
  t4eMs : ℕ
  t6Ms : ℕ
  t7Ms : ℕ
  provingIntervalMs : ℕ
  restartMs : ℕ
  txQueue : ℕ
  deriving DecidableEq, Repr

structure Association where
  id : String
  adaptation : Adaptation
  role : Role
  addrs : List String
  port : ℕ
  peerAddrs : List String
  peerPort : Option ℕ
  localAddrs : List String
  localPort : Option ℕ
  dial : Option Dial.Block
  adjacentPc : Option ℕ
  m2pa : Option M2paLink
  m3ua : Option M3uaPeer
  deriving DecidableEq, Repr

/-- A local address: compared as an address when it is one. -/
inductive LocalAddr
  | ip (address : IpAddr)
  | text (entry : String)
  deriving DecidableEq, Repr

def LocalAddr.isAny : LocalAddr → Bool
  | .ip address => address.isUnspecified
  | .text _ => false

/-- Parse the entries of a list of addresses. -/
def parseAll (text : IpText) (error : String → String) : List String → Except String (List IpAddr)
  | [] => .ok []
  | entry :: entries =>
    match text.parse entry with
    | none => .error (error entry)
    | some ip => (parseAll text error entries).map fun ips => ip :: ips

namespace Association

variable (text : IpText)

/-- The addresses of the peer. -/
def peerIps (a : Association) : Except String (List IpAddr) :=
  (parseAll text
    (fun entry => s!"association `{a.id}`: `peer_addrs` entry `{entry}` is not an IP address")
    a.peerAddrs).map fun ips => ips.map IpAddr.toCanonical

/-- The local addresses of one that is dialled. -/
def localIps (a : Association) : Except String (List IpAddr) :=
  parseAll text
    (fun entry => s!"association `{a.id}`: `local_addrs` entry `{entry}` is not an IP address")
    a.localAddrs

/-- An address that both list as their peer's, unless their ports tell them apart. -/
def peerInCommon (a other : Association) : Except String (Option IpAddr) :=
  match a.peerPort, other.peerPort with
  | some p, some q => if p ≠ q then .ok none else find
  | _, _ => find
where
  find : Except String (Option IpAddr) := do
    let theirs ← other.peerIps text
    let mine ← a.peerIps text
    return mine.find? fun ip => ip ∈ theirs

/-- The local addresses as written, parsed where they parse. -/
def local_ (a : Association) : List LocalAddr :=
  a.addrs.map fun entry =>
    match text.parse entry with
    | some ip => .ip ip.toCanonical
    | none => .text entry

end Association

/-! ## Endpoints -/

section

variable (text : IpText) (associations : List Association)

/-- The associations at the positions of a group. -/
def members (group : List ℕ) : List Association :=
  group.filterMap fun i => associations[i]?

/-- The check of an association against those of the endpoint it shares. -/
def checkGroup (a : Association) : List Association → Except String Unit
  | [] => .ok ()
  | other :: others =>
    if a.peerAddrs = [] ∨ other.peerAddrs = [] then
      .error (s!"associations `{other.id}` and `{a.id}` listen on the same address and port " ++
        s!"{a.port}: each needs `peer_addrs` to be told apart from the other")
    else match a.peerInCommon text other with
      | .error e => .error e
      | .ok (some ip) =>
        .error (s!"associations `{other.id}` and `{a.id}` listen on the same address and port " ++
          s!"{a.port} and both list the peer address {text.display ip}: a connection from it " ++
          "could be either's (a different `peer_port` on each tells them apart)")
      | .ok none => checkGroup a others

/-- Whether two lists of local addresses have one in common. -/
def touching (mine theirs : List LocalAddr) : Bool :=
  mine.any fun l => l.isAny || l ∈ theirs || theirs.any LocalAddr.isAny

/-- The group that an association belongs to, if it is not the first of its own. -/
def findHome (a : Association) : List (List ℕ) → ℕ → Except String (Option ℕ)
  | [], _ => .ok none
  | group :: groups, number =>
    match group.head?.bind fun i => associations[i]? with
    | none => findHome a groups (number + 1)
    | some first =>
      if a.port = 0 ∨ first.port ≠ a.port then findHome a groups (number + 1)
      else
        let mine := a.local_ text
        let theirs := first.local_ text
        if touching mine theirs = false then findHome a groups (number + 1)
        else if (mine.length = theirs.length && mine.all (· ∈ theirs)) = false then
          .error (s!"associations `{first.id}` and `{a.id}` listen on port {a.port} with " ++
            "address lists that overlap but differ: give both the same `addrs`, or addresses of " ++
            "their own")
        else (checkGroup text a (members associations group)).map fun _ => some number

/-- Group the next association, at a position. -/
def groupNext (groups : List (List ℕ)) (entry : Association × ℕ) :
    Except String (List (List ℕ)) :=
  let (a, index) := entry
  if a.role ≠ .server then .ok groups
  else (findHome text associations a groups 0).map fun home =>
    match home with
    | some number => groups.modify number fun group => group ++ [index]
    | none => groups ++ [[index]]

/-- Group the associations that listen, one after the other. -/
def groupAll : List (Association × ℕ) → List (List ℕ) → Except String (List (List ℕ))
  | [], groups => .ok groups
  | entry :: entries, groups =>
    match groupNext text associations groups entry with
    | .error e => .error e
    | .ok groups => groupAll entries groups

/-- The listening endpoints: the associations that listen, by position. -/
def listenGroups : Except String (List (List ℕ)) :=
  groupAll text associations associations.zipIdx []

end

/-! ## The associations of an endpoint are told apart -/

/-- Two associations of an endpoint, the second of which was added to the first. -/
structure ToldApart (text : IpText) (a b : Association) : Prop where
  first : a.peerAddrs ≠ []
  later : b.peerAddrs ≠ []
  common : b.peerInCommon text a = .ok none

theorem checkGroup_ok {text : IpText} {a : Association} {others : List Association}
    (h : checkGroup text a others = .ok ()) : ∀ other ∈ others, ToldApart text other a := by
  induction others with
  | nil => simp
  | cons other others ih =>
    unfold checkGroup at h
    split_ifs at h with hempty
    obtain ⟨hmine, htheirs⟩ := not_or.mp hempty
    cases hcommon : a.peerInCommon text other with
    | error e => simp [hcommon] at h
    | ok common =>
      cases common with
      | some ip => simp [hcommon] at h
      | none =>
        simp only [hcommon] at h
        exact List.forall_mem_cons.mpr ⟨⟨htheirs, hmine, hcommon⟩, ih h⟩

section

variable {text : IpText} {associations : List Association}

/-- The associations of every group are told apart. -/
def Grouped (text : IpText) (associations : List Association) (groups : List (List ℕ)) : Prop :=
  ∀ group ∈ groups, (members associations group).Pairwise (ToldApart text)

theorem findHome_some {a : Association} {groups : List (List ℕ)} {number home : ℕ}
    (h : findHome text associations a groups number = .ok (some home)) :
    number ≤ home ∧ ∃ group, groups[home - number]? = some group ∧
      checkGroup text a (members associations group) = .ok () := by
  induction groups generalizing number with
  | nil => simp [findHome] at h
  | cons group groups ih =>
    have hnext : findHome text associations a groups (number + 1) = .ok (some home) →
        number ≤ home ∧ ∃ g, (group :: groups)[home - number]? = some g ∧
          checkGroup text a (members associations g) = .ok () := by
      intro hrest
      obtain ⟨hle, g, hg, hcheck⟩ := ih hrest
      have hsub : home - number = home - (number + 1) + 1 := by omega
      exact ⟨by omega, g, by rw [hsub, List.getElem?_cons_succ, hg], hcheck⟩
    unfold findHome at h
    split at h
    · exact hnext h
    · simp only at h
      split_ifs at h with hport htouch hsame
      · exact hnext h
      · exact hnext h
      · cases hcheck : checkGroup text a (members associations group) with
        | error e => simp [hcheck, Except.map] at h
        | ok u =>
          simp only [hcheck, Except.map, Except.ok.injEq, Option.some.injEq] at h
          subst h
          exact ⟨le_rfl, group, by simp, hcheck⟩

theorem members_append (group group' : List ℕ) :
    members associations (group ++ group') =
      members associations group ++ members associations group' := List.filterMap_append

theorem Grouped.next {groups groups' : List (List ℕ)} (hgroups : Grouped text associations groups)
    {a : Association} {index : ℕ} (hindex : associations[index]? = some a)
    (h : groupNext text associations groups (a, index) = .ok groups') :
    Grouped text associations groups' := by
  have hone : members associations [index] = [a] := by simp [members, hindex]
  unfold groupNext at h
  dsimp only at h
  split_ifs at h with hrole
  · obtain rfl := Except.ok.inj h
    exact hgroups
  · cases hhome : findHome text associations a groups 0 with
    | error e => simp [hhome, Except.map] at h
    | ok home =>
      rw [hhome] at h
      obtain rfl := Except.ok.inj h
      cases home with
      | none =>
        intro group hgroup
        rcases List.mem_append.mp hgroup with hold | hnew
        · exact hgroups group hold
        · rw [List.mem_singleton.mp hnew, hone]
          exact List.pairwise_singleton _ _
      | some home =>
        obtain ⟨-, group, hgroup, hcheck⟩ := findHome_some hhome
        rw [Nat.sub_zero] at hgroup
        intro g hg
        obtain ⟨i, hi⟩ := List.mem_iff_getElem?.mp hg
        rw [List.getElem?_modify] at hi
        by_cases hhere : home = i
        · subst hhere
          obtain rfl : group ++ [index] = g := by simpa [hgroup] using hi
          rw [members_append, hone, List.pairwise_append]
          refine ⟨hgroups group (List.mem_of_getElem? hgroup), List.pairwise_singleton _ _, ?_⟩
          intro other hother b hb
          rw [List.mem_singleton.mp hb]
          exact checkGroup_ok hcheck other hother
        · have hsame : groups[i]? = some g := by simpa [hhere] using hi
          exact hgroups g (List.mem_of_getElem? hsame)

theorem Grouped.all {entries : List (Association × ℕ)} {groups groups' : List (List ℕ)}
    (hentries : ∀ e ∈ entries, associations[e.2]? = some e.1)
    (hgroups : Grouped text associations groups)
    (h : groupAll text associations entries groups = .ok groups') :
    Grouped text associations groups' := by
  induction entries generalizing groups with
  | nil =>
    obtain rfl := Except.ok.inj h
    exact hgroups
  | cons entry entries ih =>
    unfold groupAll at h
    cases hnext : groupNext text associations groups entry with
    | error e => simp [hnext] at h
    | ok next =>
      rw [hnext] at h
      have hentry := hentries entry List.mem_cons_self
      exact ih (fun e he => hentries e (List.mem_cons_of_mem _ he)) (hgroups.next hentry hnext) h

/-- The associations of an endpoint are told apart, whichever two of them. -/
theorem grouped_listenGroups {groups : List (List ℕ)}
    (h : listenGroups text associations = .ok groups) : Grouped text associations groups := by
  refine Grouped.all ?_ (by simp [Grouped]) h
  rintro ⟨a, i⟩ he
  simpa using List.mem_zipIdx_iff_getElem?.mp he

end

end SiphonSigtran.Configuration
