import SiphonSigtran.Configuration.Associations

/-!
# Who a listening endpoint accepts

An association that comes in on an endpoint is that of the first rule which takes its peer, by the
addresses that the peer presents and its port. The configuration sees to it that no two rules of an
endpoint take one peer.
-/

namespace SiphonSigtran.Transport

open SiphonSigtran.Configuration (IpAddr IpText ToldApart members listenGroups)

/-- An address and the port of a peer. -/
structure SocketAddr where
  ip : IpAddr
  port : ℕ
  deriving DecidableEq, Repr

/-- Whom one association of an endpoint accepts. -/
structure Rule where
  addrs : List IpAddr
  port : Option ℕ
  deriving DecidableEq, Repr

inductive Refusal
  | unknownPeer
  | unlistedAddress
  | peerPort
  | duplicate
  | closed
  deriving DecidableEq, Repr

def Rule.lists (rule : Rule) (ip : IpAddr) : Bool := ip.toCanonical ∈ rule.addrs

/-- The position of the first rule that takes a peer. -/
def admitFrom (peer : List SocketAddr) :
    List Rule → ℕ → (partly wrongPort : Bool) → Except Refusal ℕ
  | [], _, partly, wrongPort =>
    .error (if wrongPort then .peerPort else if partly then .unlistedAddress else .unknownPeer)
  | rule :: rules, position, partly, wrongPort =>
    if rule.addrs = [] then .ok position
    else
      let listed := peer.countP fun a => rule.lists a.ip
      if listed = 0 then admitFrom peer rules (position + 1) partly wrongPort
      else if listed < peer.length then admitFrom peer rules (position + 1) true wrongPort
      else if rule.port.any fun port => peer.any fun a => a.port ≠ port then
        admitFrom peer rules (position + 1) partly true
      else .ok position

/-- Decide whose peer presented these addresses. -/
def admitPeer (rules : List Rule) (peer : List SocketAddr) : Except Refusal ℕ :=
  if peer = [] then .error .closed else admitFrom peer rules 0 false false

/-- The rule of an association. -/
def ruleOf (text : IpText) (a : Configuration.Association) : Except String Rule :=
  (a.peerIps text).map fun addrs => ⟨addrs, a.peerPort⟩

/-- The rules of an endpoint. -/
def rulesOf (text : IpText) : List Configuration.Association → Except String (List Rule)
  | [] => .ok []
  | a :: rest =>
    match ruleOf text a with
    | .error e => .error e
    | .ok rule => (rulesOf text rest).map fun rules => rule :: rules

/-! ## What a rule makes of a peer -/

inductive Verdict
  | takes
  | partly
  | wrongPort
  | unknown
  deriving DecidableEq, Repr

/-- What a rule makes of a peer, by how many of its addresses are on the list. -/
def Rule.verdict (rule : Rule) (peer : List SocketAddr) : Verdict :=
  if rule.addrs = [] then .takes
  else if peer.countP (fun a => rule.lists a.ip) = 0 then .unknown
  else if peer.countP (fun a => rule.lists a.ip) < peer.length then .partly
  else if rule.port.any fun port => peer.any fun a => a.port ≠ port then .wrongPort
  else .takes

section

variable {rule : Rule} {peer peer' : List SocketAddr} {rules : List Rule}

/-- A rule with a list takes a peer all of whose addresses it lists, at its port. -/
theorem Rule.verdict_takes (h : rule.addrs ≠ []) (ht : rule.verdict peer = .takes) :
    (∀ a ∈ peer, a.ip.toCanonical ∈ rule.addrs) ∧
      ∀ port, rule.port = some port → ∀ a ∈ peer, a.port = port := by
  rw [Rule.verdict, if_neg h] at ht
  split_ifs at ht with hnone hpart hport
  have hall : peer.countP (fun a => rule.lists a.ip) = peer.length :=
    le_antisymm List.countP_le_length (not_lt.mp hpart)
  constructor
  · intro a ha
    exact of_decide_eq_true (List.countP_eq_length.mp hall a ha)
  · intro port hp a ha
    rw [hp] at hport
    by_contra hne
    exact hport (List.any_eq_true.mpr ⟨a, ha, decide_eq_true hne⟩)

/-- An address as it is compared, and the port. -/
def SocketAddr.canonical (a : SocketAddr) : SocketAddr := { a with ip := a.ip.toCanonical }

/-- The same peer, with its addresses in another order or in the other form. -/
def SamePeer (peer peer' : List SocketAddr) : Prop :=
  (peer.map SocketAddr.canonical).Perm (peer'.map SocketAddr.canonical)

theorem Rule.verdict_eq_canonical (rule : Rule) (peer : List SocketAddr) :
    rule.verdict (peer.map SocketAddr.canonical) = rule.verdict peer := by
  have hlists : ∀ a : SocketAddr, rule.lists a.canonical.ip = rule.lists a.ip := by
    intro a
    unfold Rule.lists SocketAddr.canonical
    rw [IpAddr.toCanonical_toCanonical]
  have hports : ∀ port, ((peer.map SocketAddr.canonical).any fun a => a.port ≠ port) =
      peer.any fun a => a.port ≠ port := by
    intro port
    rw [List.any_map]
    rfl
  have hcount : (peer.map SocketAddr.canonical).countP (fun a => rule.lists a.ip) =
      peer.countP fun a => rule.lists a.ip := by
    rw [List.countP_map]
    apply List.countP_congr
    intro a _
    rw [Function.comp_apply, hlists]
  unfold Rule.verdict
  simp only [hcount, List.length_map, hports]

theorem Rule.verdict_of_perm (h : peer.Perm peer') : rule.verdict peer = rule.verdict peer' := by
  unfold Rule.verdict
  rw [h.countP_eq, h.length_eq]
  simp only [h.any_eq]

theorem SamePeer.verdict (h : SamePeer peer peer') (rule : Rule) :
    rule.verdict peer = rule.verdict peer' := by
  rw [← rule.verdict_eq_canonical peer, ← rule.verdict_eq_canonical peer']
  exact Rule.verdict_of_perm h

theorem SamePeer.ne_nil (h : SamePeer peer peer') (hpeer : peer ≠ []) : peer' ≠ [] := by
  rintro rfl
  have hlen := h.length_eq
  simp [hpeer] at hlen

/-! ## The decision -/

theorem admitFrom_cons (rule : Rule) (rules : List Rule) (position : ℕ)
    (partly wrongPort : Bool) :
    admitFrom peer (rule :: rules) position partly wrongPort =
      match rule.verdict peer with
      | .takes => .ok position
      | .unknown => admitFrom peer rules (position + 1) partly wrongPort
      | .partly => admitFrom peer rules (position + 1) true wrongPort
      | .wrongPort => admitFrom peer rules (position + 1) partly true := by
  simp only [admitFrom, Rule.verdict]
  split_ifs <;> rfl

/-- Why a peer is refused, by what the rules make of it. -/
def refusalOf (partly wrongPort : Bool) : Refusal :=
  if wrongPort then .peerPort else if partly then .unlistedAddress else .unknownPeer

/-- The first rule that takes the peer decides, and without one the reasons of all of them do. -/
theorem admitFrom_eq (rules : List Rule) (position : ℕ) (partly wrongPort : Bool) :
    admitFrom peer rules position partly wrongPort =
      match rules.findIdx? fun rule => rule.verdict peer = .takes with
      | some i => .ok (position + i)
      | none => .error (refusalOf (partly || rules.any fun rule => rule.verdict peer = .partly)
          (wrongPort || rules.any fun rule => rule.verdict peer = .wrongPort)) := by
  induction rules generalizing position partly wrongPort with
  | nil => simp [admitFrom, refusalOf]
  | cons rule rules ih =>
    rw [admitFrom_cons, List.findIdx?_cons]
    cases hverdict : rule.verdict peer with
    | takes => simp
    | unknown | partly | wrongPort =>
      simp only [ih, reduceCtorEq, decide_false, List.any_cons, hverdict, Bool.false_or,
        decide_true, Bool.true_or, Bool.or_true, Bool.false_eq_true, ↓reduceIte]
      cases rules.findIdx? fun rule => rule.verdict peer = .takes with
      | none => simp
      | some i => simp [Nat.add_assoc, Nat.add_comm 1]

/-- The rule at a position takes the peer on its own. -/
theorem admit_alone (hpeer : peer ≠ []) :
    admitPeer [rule] peer = .ok 0 ↔ rule.verdict peer = .takes := by
  unfold admitPeer
  rw [if_neg hpeer, admitFrom_eq]
  by_cases htakes : rule.verdict peer = .takes
  · simp [htakes]
  · simp [htakes]

/-! ## One association for a peer -/

section

variable {text : IpText} {a b : Configuration.Association} {peer peer' : List SocketAddr}

theorem ruleOf_addrs {rule : Rule} (h : ruleOf text a = .ok rule) :
    a.peerIps text = .ok rule.addrs ∧ rule.port = a.peerPort := by
  unfold ruleOf at h
  cases hips : a.peerIps text with
  | error e => simp [hips, Except.map] at h
  | ok ips =>
    rw [hips] at h
    obtain rfl := Except.ok.inj h
    exact ⟨rfl, rfl⟩

theorem parseAll_length {error : String → String} {entries : List String} {ips : List IpAddr}
    (h : Configuration.parseAll text error entries = .ok ips) : ips.length = entries.length := by
  induction entries generalizing ips with
  | nil =>
    obtain rfl := Except.ok.inj h
    rfl
  | cons entry entries ih =>
    unfold Configuration.parseAll at h
    cases hparse : text.parse entry with
    | none => simp [hparse] at h
    | some ip =>
      cases hrest : Configuration.parseAll text error entries with
      | error e => simp [hparse, hrest, Except.map] at h
      | ok rest =>
        simp only [hparse, hrest] at h
        obtain rfl := Except.ok.inj h
        rw [List.length_cons, ih hrest, List.length_cons]

/-- An association has a list where its rule has one. -/
theorem addrs_eq_nil_iff {rule : Rule} (h : ruleOf text a = .ok rule) :
    rule.addrs = [] ↔ a.peerAddrs = [] := by
  have hips := (ruleOf_addrs h).1
  unfold Configuration.Association.peerIps at hips
  cases hparse : Configuration.parseAll text
    (fun entry => s!"association `{a.id}`: `peer_addrs` entry `{entry}` is not an IP address")
    a.peerAddrs with
  | error e => simp [hparse, Except.map] at hips
  | ok ips =>
    rw [hparse] at hips
    have hlen := parseAll_length hparse
    rw [← Except.ok.inj hips, List.map_eq_nil_iff, ← List.length_eq_zero_iff, hlen,
      List.length_eq_zero_iff]

/-- No peer is taken by two associations that are told apart. -/
theorem ToldApart.not_both (h : ToldApart text a b) {rule rule' : Rule}
    (ha : ruleOf text a = .ok rule) (hb : ruleOf text b = .ok rule') (hpeer : peer ≠ [])
    (ht : rule.verdict peer = .takes) : rule'.verdict peer ≠ .takes := by
  intro ht'
  obtain ⟨hips, hport⟩ := ruleOf_addrs ha
  obtain ⟨hips', hport'⟩ := ruleOf_addrs hb
  obtain ⟨hall, hat⟩ := Rule.verdict_takes (mt (addrs_eq_nil_iff ha).mp h.first) ht
  obtain ⟨hall', hat'⟩ := Rule.verdict_takes (mt (addrs_eq_nil_iff hb).mp h.later) ht'
  obtain ⟨addr, rest, rfl⟩ := List.exists_cons_of_ne_nil hpeer
  have haddr := hall addr List.mem_cons_self
  have haddr' := hall' addr List.mem_cons_self
  -- The first address of the peer is on both lists.
  have hfind : Configuration.Association.peerInCommon.find text b a ≠ .ok none := by
    unfold Configuration.Association.peerInCommon.find
    rw [hips, hips']
    intro hnone
    have hfound : rule'.addrs.find? (fun ip => ip ∈ rule.addrs) = none := Except.ok.inj hnone
    have hnot := List.find?_eq_none.mp hfound addr.ip.toCanonical haddr'
    simp [haddr] at hnot
  have hcommon := h.common
  unfold Configuration.Association.peerInCommon at hcommon
  split at hcommon
  · rename_i p q hp hq
    split_ifs at hcommon with hne
    · have hfirst := hat q (hport.trans hq) addr List.mem_cons_self
      have hlater := hat' p (hport'.trans hp) addr List.mem_cons_self
      exact hne (hlater.symm.trans hfirst)
    · exact hfind hcommon
  · exact hfind hcommon

/-! ## The answer of an endpoint -/

/-- What the rule of an association makes of a peer. -/
def verdictOf (text : IpText) (peer : List SocketAddr) (a : Configuration.Association) : Verdict :=
  match ruleOf text a with
  | .ok rule => rule.verdict peer
  | .error _ => .unknown

/-- The association that an endpoint gives a peer to. -/
def answer (associations : List Configuration.Association) (rules : List Rule)
    (peer : List SocketAddr) : Except Refusal (Option Configuration.Association) :=
  (admitPeer rules peer).map fun i => associations[i]?

theorem rulesOf_verdicts {associations : List Configuration.Association} {rules : List Rule}
    (h : rulesOf text associations = .ok rules) (peer : List SocketAddr) :
    rules.map (fun rule => rule.verdict peer) = associations.map (verdictOf text peer) := by
  induction associations generalizing rules with
  | nil =>
    obtain rfl := Except.ok.inj h
    rfl
  | cons a rest ih =>
    unfold rulesOf at h
    cases hrule : ruleOf text a with
    | error e => simp [hrule] at h
    | ok rule =>
      cases hrest : rulesOf text rest with
      | error e => simp [hrule, hrest, Except.map] at h
      | ok rules' =>
        simp only [hrule, hrest] at h
        obtain rfl := Except.ok.inj h
        simp only [List.map_cons, ih hrest, verdictOf, hrule]

theorem bind_findIdx? {α β : Type} (p : β → Bool) (f : α → β) (xs : List α) :
    ((xs.map f).findIdx? p).bind (fun i => xs[i]?) = xs.find? fun x => p (f x) := by
  induction xs with
  | nil => rfl
  | cons x xs ih =>
    rw [List.map_cons, List.findIdx?_cons, List.find?_cons]
    cases hx : p (f x) with
    | true => rfl
    | false =>
      rw [← ih]
      cases (xs.map f).findIdx? p <;> rfl

/-- The association that takes the peer gets it, and without one the reasons of all of them
decide. -/
theorem answer_eq {associations : List Configuration.Association} {rules : List Rule}
    (h : rulesOf text associations = .ok rules) (hpeer : peer ≠ []) :
    answer associations rules peer =
      match associations.find? fun a => verdictOf text peer a = .takes with
      | some a => .ok (some a)
      | none => .error (refusalOf (associations.any fun a => verdictOf text peer a = .partly)
          (associations.any fun a => verdictOf text peer a = .wrongPort)) := by
  have hverdicts := rulesOf_verdicts h peer
  have hany : ∀ v, (rules.any fun rule => rule.verdict peer = v) =
      associations.any fun a => verdictOf text peer a = v := by
    intro v
    have hmap := congrArg (fun l : List Verdict => l.any fun w => w = v) hverdicts
    simpa only [List.any_map, Function.comp_def] using hmap
  have hfirst : (rules.findIdx? fun rule => rule.verdict peer = .takes) =
      (associations.map (verdictOf text peer)).findIdx? fun v => v = .takes := by
    rw [← hverdicts, List.findIdx?_map]
    rfl
  have hfind := bind_findIdx? (fun v => decide (v = Verdict.takes)) (verdictOf text peer)
    associations
  unfold answer admitPeer
  rw [if_neg hpeer, admitFrom_eq, hfirst, ← hfind]
  cases hi : (associations.map (verdictOf text peer)).findIdx? fun v => v = .takes with
  | none => simp only [Option.bind_none, Except.map, hany, Bool.false_or]
  | some i =>
    have hlt : i < associations.length := by
      have hbound := List.findIdx?_eq_some_iff_getElem.mp hi
      simpa using hbound.choose
    simp [Except.map, List.getElem?_eq_getElem hlt]

theorem find?_of_perm {α : Type} {p : α → Bool} {xs ys : List α} (hperm : xs.Perm ys)
    (hone : ∀ x ∈ xs, ∀ y ∈ xs, p x = true → p y = true → x = y) : xs.find? p = ys.find? p := by
  cases hys : ys.find? p with
  | none =>
    apply List.find?_eq_none.mpr
    intro x hx
    exact List.find?_eq_none.mp hys x (hperm.mem_iff.mp hx)
  | some y =>
    have hpy := List.find?_some hys
    have hy := hperm.mem_iff.mpr (List.mem_of_find?_eq_some hys)
    cases hxs : xs.find? p with
    | none => exact absurd hpy (List.find?_eq_none.mp hxs y hy)
    | some x =>
      rw [hone x (List.mem_of_find?_eq_some hxs) y hy (List.find?_some hxs) hpy]

/-- At most one of the associations of an endpoint takes a peer. -/
theorem one_takes {associations : List Configuration.Association}
    (h : associations.Pairwise (ToldApart text)) (hpeer : peer ≠ []) {i j : ℕ}
    (hi : associations[i]? = some a) (hj : associations[j]? = some b)
    (ha : verdictOf text peer a = .takes) (hb : verdictOf text peer b = .takes) : i = j := by
  have htakes : ∀ {c}, verdictOf text peer c = .takes →
      ∃ rule, ruleOf text c = .ok rule ∧ rule.verdict peer = .takes := by
    intro c hc
    unfold verdictOf at hc
    cases hrule : ruleOf text c with
    | error e => simp [hrule] at hc
    | ok rule => exact ⟨rule, rfl, by simpa [hrule] using hc⟩
  have hapart : ∀ {k l : ℕ} {c d : Configuration.Association}, k < l →
      associations[k]? = some c → associations[l]? = some d → verdictOf text peer c = .takes →
      verdictOf text peer d ≠ .takes := by
    intro k l c d hkl hk hl hc hd
    obtain ⟨rule, hrule, htc⟩ := htakes hc
    obtain ⟨rule', hrule', htd⟩ := htakes hd
    obtain ⟨hk', rfl⟩ := List.getElem?_eq_some_iff.mp hk
    obtain ⟨hl', rfl⟩ := List.getElem?_eq_some_iff.mp hl
    exact ToldApart.not_both (List.pairwise_iff_getElem.mp h k l hk' hl' hkl) hrule hrule' hpeer
      htc htd
  rcases Nat.lt_trichotomy i j with hlt | heq | hgt
  · exact absurd hb (hapart hlt hi hj ha)
  · exact heq
  · exact absurd ha (hapart hgt hj hi hb)

end

end

/-- A peer is at most one association's, and that of the one which takes it. Neither the order of
the associations nor the order and the form in which the peer presents its addresses changes the
answer, and an association with a list gets a peer all of whose addresses are on it. -/
theorem peer_of_one (text : IpText) (associations : List Configuration.Association)
    (groups : List (List ℕ)) (h : listenGroups text associations = .ok groups) (group : List ℕ)
    (hgroup : group ∈ groups) (rules : List Rule)
    (hrules : rulesOf text (members associations group) = .ok rules) (peer : List SocketAddr)
    (hpeer : peer ≠ []) :
    (∀ (i j : ℕ) (rule rule' : Rule), rules[i]? = some rule → rules[j]? = some rule' →
      admitPeer [rule] peer = .ok 0 → admitPeer [rule'] peer = .ok 0 → i = j) ∧
    (∀ i : ℕ, admitPeer rules peer = .ok i ↔
      ∃ rule, rules[i]? = some rule ∧ admitPeer [rule] peer = .ok 0) ∧
    (∀ endpoint rules' peer', endpoint.Perm (members associations group) →
      rulesOf text endpoint = .ok rules' → SamePeer peer peer' →
      answer endpoint rules' peer' = answer (members associations group) rules peer) ∧
    ∀ (i : ℕ) (rule : Rule), admitPeer rules peer = .ok i → rules[i]? = some rule →
      rule.addrs ≠ [] → ∀ a ∈ peer, a.ip.toCanonical ∈ rule.addrs := by
  have hapart := Configuration.grouped_listenGroups h group hgroup
  have hverdict : ∀ {i : ℕ} {rule : Rule}, rules[i]? = some rule →
      ∃ a, (members associations group)[i]? = some a ∧
        verdictOf text peer a = rule.verdict peer := by
    intro i rule hi
    have hat := congrArg (fun l : List Verdict => l[i]?) (rulesOf_verdicts hrules peer)
    simp only [List.getElem?_map, hi, Option.map_some] at hat
    exact Option.map_eq_some_iff.mp hat.symm
  have hone : ∀ (i j : ℕ) (rule rule' : Rule), rules[i]? = some rule → rules[j]? = some rule' →
      rule.verdict peer = .takes → rule'.verdict peer = .takes → i = j := by
    intro i j rule rule' hi hj ht ht'
    obtain ⟨a, ha, hva⟩ := hverdict hi
    obtain ⟨b, hb, hvb⟩ := hverdict hj
    exact one_takes hapart hpeer ha hb (hva.trans ht) (hvb.trans ht')
  have htaken : ∀ i : ℕ, admitPeer rules peer = .ok i ↔
      ∃ rule, rules[i]? = some rule ∧ rule.verdict peer = .takes := by
    intro i
    unfold admitPeer
    rw [if_neg hpeer, admitFrom_eq]
    constructor
    · intro hok
      cases hi : rules.findIdx? fun rule => rule.verdict peer = .takes with
      | none => simp [hi] at hok
      | some k =>
        rw [hi] at hok
        obtain rfl : k = i := by simpa using hok
        obtain ⟨hlt, htakes, -⟩ := List.findIdx?_eq_some_iff_getElem.mp hi
        exact ⟨rules[k], List.getElem?_eq_getElem hlt, of_decide_eq_true htakes⟩
    · rintro ⟨rule, hi, ht⟩
      cases hk : rules.findIdx? fun rule => rule.verdict peer = .takes with
      | none =>
        have hnone := List.findIdx?_eq_none_iff.mp hk rule (List.mem_of_getElem? hi)
        simp [ht] at hnone
      | some k =>
        obtain ⟨hlt, htakes, -⟩ := List.findIdx?_eq_some_iff_getElem.mp hk
        have heq := hone k i _ _ (List.getElem?_eq_getElem hlt) hi (of_decide_eq_true htakes) ht
        simp [heq]
  refine ⟨?_, ?_, ?_, ?_⟩
  · intro i j rule rule' hi hj ht ht'
    exact hone i j rule rule' hi hj ((admit_alone hpeer).mp ht) ((admit_alone hpeer).mp ht')
  · intro i
    rw [htaken]
    simp only [admit_alone hpeer]
  · intro endpoint rules' peer' hperm hrules' hsame
    have hverdicts : verdictOf text peer' = verdictOf text peer := by
      funext a
      unfold verdictOf
      cases ruleOf text a with
      | error e => rfl
      | ok rule => exact (hsame.verdict rule).symm
    rw [answer_eq hrules' (hsame.ne_nil hpeer), answer_eq hrules hpeer, hverdicts]
    have hfind : (endpoint.find? fun a => verdictOf text peer a = .takes) =
        (members associations group).find? fun a => verdictOf text peer a = .takes := by
      apply (find?_of_perm hperm.symm _).symm
      intro a ha b hb hta htb
      obtain ⟨i, hi⟩ := List.mem_iff_getElem?.mp ha
      obtain ⟨j, hj⟩ := List.mem_iff_getElem?.mp hb
      have hij := one_takes hapart hpeer hi hj (of_decide_eq_true hta) (of_decide_eq_true htb)
      rw [hij, hj] at hi
      exact (Option.some.inj hi).symm
    rw [hfind, hperm.any_eq, hperm.any_eq]
  · intro i rule hok hi haddrs
    obtain ⟨rule', hi', ht⟩ := (htaken i).mp hok
    rw [hi, Option.some.injEq] at hi'
    rw [← hi'] at ht
    exact (Rule.verdict_takes haddrs ht).1


/-- A table of the addresses that the associations below are written with. -/
def tableText : IpText where
  parse
    | "192.0.2.1" => some (.v4 0xC0000201)
    | "198.51.100.1" => some (.v4 0xC6336401)
    | "192.0.2.9" => some (.v4 0xC0000209)
    | "0.0.0.0" => some (.v4 0)
    | _ => none
  display _ := ""

/-- An association that listens on port 2905 of every address. -/
def listening (id : String) (peerAddrs : List String) : Configuration.Association where
  id
  adaptation := .m3ua
  role := .server
  addrs := ["0.0.0.0"]
  port := 2905
  peerAddrs
  peerPort := none
  localAddrs := []
  localPort := none
  dial := none
  adjacentPc := none
  m2pa := none
  m3ua := none

/-- Two gateways that connect to one endpoint, the first of them multihomed. -/
def gateways : List Configuration.Association :=
  [listening "east" ["192.0.2.1", "198.51.100.1"], listening "west" ["192.0.2.9"]]

/-- The first of the gateways, one address of which is presented as IPv4-mapped. -/
def eastern : List SocketAddr := [⟨.v6 0xFFFFC6336401, 2905⟩, ⟨.v4 0xC0000201, 2905⟩]

theorem peer_of_one_gateway :
    listenGroups tableText gateways = .ok [[0, 1]] ∧
      admitPeer [⟨[.v4 0xC0000201, .v4 0xC6336401], none⟩, ⟨[.v4 0xC0000209], none⟩] eastern =
        .ok 0 ∧
      ∀ a ∈ eastern, a.ip.toCanonical ∈ [IpAddr.v4 0xC0000201, .v4 0xC6336401] := by
  have h : listenGroups tableText gateways = .ok [[0, 1]] := by decide
  have hrules : rulesOf tableText (members gateways [0, 1]) =
      .ok [⟨[.v4 0xC0000201, .v4 0xC6336401], none⟩, ⟨[.v4 0xC0000209], none⟩] := by rfl
  have hpeer := peer_of_one tableText gateways [[0, 1]] h [0, 1] List.mem_cons_self _ hrules eastern
    (by decide)
  have hfirst := (hpeer.2.1 0).mpr ⟨_, Eq.refl _, by rfl⟩
  exact ⟨h, hfirst, hpeer.2.2.2 0 _ hfirst (Eq.refl _) (by decide)⟩

end SiphonSigtran.Transport
