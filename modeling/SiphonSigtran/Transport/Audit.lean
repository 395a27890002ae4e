import Mathlib.Data.Nat.Bitwise
import SiphonSigtran.Transport.Peer

/-!
# The answer to an audit

A peer asks for the state of destinations, singly or by ranges, and believes what the answers say,
in their order. What it believes then is what the routing tables have, of every destination that it
asked for.
-/

namespace SiphonSigtran.Transport.Peer

variable {sight : Sight} {d n : ℕ}

/-- An entry of a message as it is read: a mask of one octet, and a point code of three. -/
def entryOf (n : ℕ) : ℕ × ℕ := (n / 2 ^ 24, n % 2 ^ 24)

/-- An entry stands for a destination. -/
def Covers (entry : ℕ × ℕ) (d : ℕ) : Prop :=
  if entry.1 = 0 then d = entry.2 else d >>> min entry.1 24 = entry.2 >>> min entry.1 24

instance (entry : ℕ × ℕ) (d : ℕ) : Decidable (Covers entry d) := by
  unfold Covers
  infer_instance

/-- What one message says of a destination, to a reader that believes something of it. -/
def Act.believed (d : ℕ) (belief : Told) : Act → Told
  | .send (.availability what _ dpcs) =>
    if ∃ n ∈ dpcs, Covers (entryOf n) d then what else belief
  | _ => belief

/-- What a reader believes of a destination after these messages. -/
def believes (d : ℕ) (belief : Told) (acts : List Act) : Told := acts.foldl (Act.believed d) belief

theorem believes_append (belief : Told) (acts acts' : List Act) :
    believes d belief (acts ++ acts') = believes d (believes d belief acts) acts' :=
  List.foldl_append

/-- Messages that say one thing. -/
theorem believes_one (belief what : Told) (context : Option ℕ) (groups : List (List ℕ)) :
    believes d belief (groups.map fun part => .send (.availability what context part)) =
      if ∃ part ∈ groups, ∃ n ∈ part, Covers (entryOf n) d then what else belief := by
  induction groups generalizing belief with
  | nil => simp [believes]
  | cons group groups ih =>
    have hcons : believes d belief
        ((group :: groups).map fun part => .send (.availability what context part)) =
        believes d (Act.believed d belief (.send (.availability what context group)))
          (groups.map fun part => .send (.availability what context part)) := rfl
    rw [hcons, ih]
    by_cases hgroup : ∃ n ∈ group, Covers (entryOf n) d
    · simp [Act.believed, hgroup]
    · simp only [Act.believed, hgroup, if_false, List.mem_cons, exists_eq_or_imp, false_or]

/-- The messages of one state. -/
theorem believes_parts (belief what : Told) (context : Option ℕ) (dpcs : List ℕ) :
    believes d belief
        ((parts dpcs.length dpcs).map fun part => .send (.availability what context part)) =
      if ∃ n ∈ dpcs, Covers (entryOf n) d then what else belief := by
  rw [believes_one]
  have hiff : (∃ part ∈ parts dpcs.length dpcs, ∃ n ∈ part, Covers (entryOf n) d) ↔
      ∃ n ∈ dpcs, Covers (entryOf n) d := by
    constructor
    · rintro ⟨part, hpart, n, hn, hcovers⟩
      exact ⟨n, (mem_parts (le_refl _)).mp ⟨part, hpart, hn⟩, hcovers⟩
    · rintro ⟨n, hn, hcovers⟩
      obtain ⟨part, hpart, hmem⟩ := (mem_parts (le_refl _)).mpr hn
      exact ⟨part, hpart, n, hmem, hcovers⟩
  simp only [hiff]

theorem parts_bounded {fuel : ℕ} {dpcs part : List ℕ} (h : part ∈ parts fuel dpcs) :
    part ≠ [] ∧ part.length ≤ affectedPerMessage := by
  induction fuel generalizing dpcs with
  | zero =>
    cases dpcs <;> simp [parts] at h
  | succ fuel ih =>
    cases dpcs with
    | nil => simp [parts] at h
    | cons dpc dpcs =>
      simp only [parts, List.mem_cons] at h
      rcases h with rfl | h
      · refine ⟨by simp [affectedPerMessage], ?_⟩
        rw [List.length_take]
        exact Nat.min_le_left _ _
      · exact ih h

/-! ## What is asked and what is said -/

/-- The entries of a DAUD as they are read, and the destinations of the routing table. -/
structure Plain (sight : Sight) (affected : List (ℕ × ℕ)) : Prop where
  entries : ∀ entry ∈ affected, entry.2 < 2 ^ 24
  destinations : ∀ dpc ∈ sight.destinations, dpc < 2 ^ 24

/-- A destination that is asked for and has a place in the routing tables. -/
def Asked (sight : Sight) (affected : List (ℕ × ℕ)) (d : ℕ) : Prop :=
  ∃ entry ∈ affected, d ∈ range sight entry.1 entry.2

/-- A destination of the peer in a range that is asked for, of which nothing is known here. -/
def Unknown (sight : Sight) (affected : List (ℕ × ℕ)) (d : ℕ) : Prop :=
  ∃ entry ∈ affected, range sight entry.1 entry.2 = [] ∧ Covers entry d

theorem entryOf_of_lt (h : n < 2 ^ 24) : entryOf n = (0, n) := by
  rw [entryOf, Nat.div_eq_of_lt h, Nat.mod_eq_of_lt h]

theorem entryOf_masked (mask : ℕ) {pc : ℕ} (h : pc < 2 ^ 24) :
    entryOf (mask <<< 24 ||| pc) = (mask, pc) := by
  rw [← Nat.shiftLeft_add_eq_or_of_lt h, Nat.shiftLeft_eq]
  have hpos : 0 < 2 ^ 24 := by decide
  simp only [entryOf, Prod.mk.injEq]
  constructor
  · rw [Nat.add_comm, Nat.add_mul_div_right _ _ hpos, Nat.div_eq_of_lt h, Nat.zero_add]
  · rw [Nat.add_comm, Nat.add_mul_mod_self_right, Nat.mod_eq_of_lt h]

theorem range_lt {entry : ℕ × ℕ} (hentry : entry.2 < 2 ^ 24)
    (hdestinations : ∀ dpc ∈ sight.destinations, dpc < 2 ^ 24)
    (h : d ∈ range sight entry.1 entry.2) : d < 2 ^ 24 := by
  unfold range at h
  split_ifs at h
  · rwa [List.mem_singleton.mp h]
  · exact hdestinations d (List.mem_filter.mp h).1

/-- The entries of the answer that say one thing. -/
def answered (sight : Sight) (affected : List (ℕ × ℕ)) (what : Told) : List ℕ :=
  ((affected.flatMap (audited sight)).filter fun a => a.2 = what).map Prod.fst

/-- The messages that say one thing. -/
def answer (sight : Sight) (context : Option ℕ) (affected : List (ℕ × ℕ)) (what : Told) :
    List Act :=
  (parts (answered sight affected what).length (answered sight affected what)).map fun part =>
    .send (.availability what context part)

theorem audit_eq (context : Option ℕ) (affected : List (ℕ × ℕ)) :
    audit sight context affected = answer sight context affected .unavailable ++
      answer sight context affected .restricted ++ answer sight context affected .available := by
  simp [audit, answer, answered]

theorem believes_answer (belief : Told) (context : Option ℕ) (affected : List (ℕ × ℕ))
    (what : Told) : believes d belief (answer sight context affected what) =
      if ∃ n ∈ answered sight affected what, Covers (entryOf n) d then what else belief :=
  believes_parts belief what context _

/-- What is said covers a destination by its point code, or by a range that nothing is known of. -/
theorem covered_iff {affected : List (ℕ × ℕ)} (hplain : Plain sight affected) (d : ℕ)
    (what : Told) :
    (∃ n ∈ answered sight affected what, Covers (entryOf n) d) ↔
      (Asked sight affected d ∧ destinationStatus sight d = what) ∨
        (what = .unavailable ∧ Unknown sight affected d) := by
  constructor
  · rintro ⟨n, hn, hcovers⟩
    obtain ⟨⟨n', status⟩, hmem, rfl⟩ := List.mem_map.mp hn
    obtain ⟨hin, hstatus⟩ := List.mem_filter.mp hmem
    obtain ⟨entry, hentry, hpair⟩ := List.mem_flatMap.mp hin
    have hwhat : status = what := of_decide_eq_true hstatus
    unfold audited at hpair
    split_ifs at hpair with hempty
    · obtain ⟨rfl, rfl⟩ := Prod.mk.inj (List.mem_singleton.mp hpair)
      rw [entryOf_masked _ (hplain.entries entry hentry)] at hcovers
      exact .inr ⟨hwhat.symm, entry, hentry, hempty, hcovers⟩
    · obtain ⟨dpc, hdpc, heq⟩ := List.mem_map.mp hpair
      obtain ⟨rfl, rfl⟩ := Prod.mk.inj heq
      have hlt : dpc < 2 ^ 24 :=
        range_lt (hplain.entries entry hentry) hplain.destinations hdpc
      rw [entryOf_of_lt hlt] at hcovers
      obtain rfl : d = dpc := by simpa [Covers] using hcovers
      exact .inl ⟨⟨entry, hentry, hdpc⟩, hwhat⟩
  · rintro (⟨⟨entry, hentry, hd⟩, hstatus⟩ | ⟨rfl, entry, hentry, hempty, hcovers⟩)
    · have hlt : d < 2 ^ 24 := range_lt (hplain.entries entry hentry) hplain.destinations hd
      have hsome : range sight entry.1 entry.2 ≠ [] := List.ne_nil_of_mem hd
      refine ⟨d, List.mem_map.mpr ⟨(d, destinationStatus sight d), List.mem_filter.mpr
        ⟨List.mem_flatMap.mpr ⟨entry, hentry, ?_⟩, by simpa using hstatus⟩, rfl⟩, ?_⟩
      · rw [audited, if_neg hsome]
        exact List.mem_map.mpr ⟨d, hd, rfl⟩
      · rw [entryOf_of_lt hlt]
        simp [Covers]
    · refine ⟨entry.1 <<< 24 ||| entry.2, List.mem_map.mpr ⟨(_, .unavailable),
        List.mem_filter.mpr ⟨List.mem_flatMap.mpr ⟨entry, hentry, ?_⟩, by simp⟩, rfl⟩, ?_⟩
      · rw [audited, if_pos hempty]
        exact List.mem_singleton.mpr rfl
      · rwa [entryOf_masked _ (hplain.entries entry hentry)]

/-- What a reader of the answer believes. -/
theorem believes_audit {affected : List (ℕ × ℕ)} (hplain : Plain sight affected)
    (context : Option ℕ) (d : ℕ) (belief : Told) :
    (Asked sight affected d →
      believes d belief (audit sight context affected) = destinationStatus sight d) ∧
    (¬Asked sight affected d → Unknown sight affected d →
      believes d belief (audit sight context affected) = .unavailable) ∧
    (¬Asked sight affected d → ¬Unknown sight affected d →
      believes d belief (audit sight context affected) = belief) := by
  have haudit : believes d belief (audit sight context affected) =
      if ∃ n ∈ answered sight affected .available, Covers (entryOf n) d then .available
      else if ∃ n ∈ answered sight affected .restricted, Covers (entryOf n) d then .restricted
      else if ∃ n ∈ answered sight affected .unavailable, Covers (entryOf n) d then .unavailable
      else belief := by
    rw [audit_eq, believes_append, believes_append, believes_answer, believes_answer,
      believes_answer]
  have hcovered := covered_iff hplain d
  refine ⟨fun hasked => ?_, fun hasked hunknown => ?_, fun hasked hunknown => ?_⟩
  · rw [haudit]
    cases hstatus : destinationStatus sight d with
    | available => rw [if_pos ((hcovered _).mpr (.inl ⟨hasked, hstatus⟩))]
    | restricted =>
      rw [if_neg, if_pos ((hcovered _).mpr (.inl ⟨hasked, hstatus⟩))]
      rw [hcovered, hstatus]
      simp
    | unavailable =>
      rw [if_neg, if_neg, if_pos ((hcovered _).mpr (.inl ⟨hasked, hstatus⟩))]
      · rw [hcovered, hstatus]
        simp
      · rw [hcovered, hstatus]
        simp
  · rw [haudit, if_neg, if_neg, if_pos ((hcovered _).mpr (.inr ⟨rfl, hunknown⟩))]
    · rw [hcovered]
      simp [hasked]
    · rw [hcovered]
      simp [hasked]
  · rw [haudit, if_neg, if_neg, if_neg]
    all_goals
      rw [hcovered]
      simp [hasked, hunknown]

/-- A DAUD is answered in messages of 128 entries at most. A peer that takes them in their order
believes of every destination that it asked for what the routing tables have, of a range that
nothing is known of that it is unavailable, and of any other destination what it did before. -/
theorem audit_answered (crate : Crate) (c : Conf) (sight : Sight) (raw : List UInt8)
    (message : M3uaMessage)
    (htype : message.messageType = .daud)
    (hactive : ssnmAdmission sight message.routingContexts = .active)
    (hsome : message.affectedDestinations ≠ [])
    (hvalid : ∀ entry ∈ message.affectedDestinations, crate.valid entry.2 = true)
    (hplain : Plain sight message.affectedDestinations) :
    (∀ act ∈ networkManagement crate c sight message raw, ∃ what part,
      act = .send (.availability what message.routingContext part) ∧
        part ≠ [] ∧ part.length ≤ affectedPerMessage) ∧
    ∀ d belief,
      (Asked sight message.affectedDestinations d →
        believes d belief (networkManagement crate c sight message raw) =
          destinationStatus sight d) ∧
      (¬Asked sight message.affectedDestinations d →
        Unknown sight message.affectedDestinations d →
        believes d belief (networkManagement crate c sight message raw) = .unavailable) ∧
      (¬Asked sight message.affectedDestinations d →
        ¬Unknown sight message.affectedDestinations d →
        believes d belief (networkManagement crate c sight message raw) = belief) := by
  have hanswer : networkManagement crate c sight message raw =
      audit sight message.routingContext message.affectedDestinations := by
    have hall : message.affectedDestinations.any (fun entry => !crate.valid entry.2) = false := by
      simpa using hvalid
    unfold networkManagement
    dsimp only
    rw [hactive]
    cases haffected : message.affectedDestinations with
    | nil => exact absurd haffected hsome
    | cons first rest =>
      rw [haffected] at hall
      simp only [hall, htype, Bool.false_eq_true, if_false]
  rw [hanswer]
  refine ⟨fun act hact => ?_, fun d belief => believes_audit hplain _ d belief⟩
  obtain ⟨what, -, hact⟩ := List.mem_flatMap.mp hact
  obtain ⟨part, hpart, rfl⟩ := List.mem_map.mp hact
  exact ⟨what, part, rfl, parts_bounded hpart⟩

/-- A gateway with a route to 5 and none to 6. -/
def twoDestinations : Sight where
  isSender := true
  admits _ := .active
  destinations := [5, 6]
  egressFor dpc := if dpc = 5 then some (.applicationServer "as") else none
  isRestricted _ := false
  isRestarting := false
  nodePointCode := 1
  networkIndicator := 0

def anyCode : Crate :=
  ⟨fun _ => .error .tooShort, fun _ => 0, fun _ => false, fun _ => true, fun _ _ => none⟩

/-- An audit of 4 to 7, and of a range of 2^16 point codes that nothing is known of. -/
def auditing : M3uaMessage :=
  ⟨.daud, none, none, [], some 8, [(2, 4), (16, 65536)], none, none, none, none, none, none, none,
    .error .missingParameter⟩

theorem audit_answered_of_two :
    believes 5 .unavailable (networkManagement anyCode ⟨⟨0, [], 2000, none⟩, true, 0⟩
      twoDestinations auditing []) = .available :=
  ((audit_answered anyCode ⟨⟨0, [], 2000, none⟩, true, 0⟩ twoDestinations [] auditing rfl rfl
    (by simp [auditing]) (fun _ _ => rfl)
    ⟨by decide, by decide⟩).2 5 .unavailable).1 ⟨(2, 4), by decide, by decide⟩

end SiphonSigtran.Transport.Peer
