import Mathlib.Data.List.TakeWhile
import Mathlib.Tactic.SplitIfs
import SiphonSigtran.Lib.Machine

/-!
# What the M3UA layer tells the ASPs

An ASP that becomes active takes every destination to be available, and is told
of those that are not. From then on it hears what changes, with all the others.
The layer keeps one record of what it told them; an ASP is briefed from what it
is to believe instead. The two are the same as long as this node does not
restart.
-/

namespace SiphonSigtran.Transport

open Lib

/-- What the ASPs have been told about a destination. -/
inductive Told
  | unavailable
  | available
  | restricted
  deriving DecidableEq, Repr

/-- What management announces of a destination. -/
inductive DestinationChange
  | accessible (dpc : ℕ)
  | inaccessible (dpc : ℕ)
  | restricted (dpc : ℕ)
  | congested (dpc status : ℕ)
  deriving DecidableEq, Repr

/-- The destination of a change, and what is so of it; a congestion says neither. -/
def DestinationChange.known : DestinationChange → Option (ℕ × Told)
  | .accessible dpc => some (dpc, .available)
  | .inaccessible dpc => some (dpc, .unavailable)
  | .restricted dpc => some (dpc, .restricted)
  | .congested _ _ => none

/-- The Application Servers by position, with their Routing Contexts, and the destinations of
the routing table, with the servers that are a route to each. -/
structure Served where
  contexts : List ℕ
  destinations : List (ℕ × List ℕ)

/-- The server is no route to the destination. -/
def Served.aside (r : Served) (server dpc : ℕ) : Bool :=
  match r.destinations.lookup dpc with
  | none => true
  | some servers => !servers.contains server

def Served.dpcs (r : Served) : List ℕ := r.destinations.map Prod.fst

/-- A DUNA, DAVA or DRST to one ASP of a server. -/
structure Advice where
  asp : ℕ
  server : ℕ
  what : Told
  context : ℕ
  affected : List ℕ
  deriving DecidableEq, Repr

/-- The layer, with the ASPs of this gateway that are active in each server. -/
structure Layer where
  known : ℕ → Told
  told : ℕ → Told
  restarting : Bool
  active : ℕ → List ℕ

/-- What the layer takes up. -/
inductive Notice
  | changed (changes : List DestinationChange)
  | resync (status : ℕ → Told)
  | restart (on : Bool)
  | activated (asp server : ℕ)
  | deactivated (asp server : ℕ)

/-- Affected point codes in one message. -/
def affectedPerMessage : ℕ := 128

/-- The changes that are told together: those that follow one another and say the same. -/
def together : ℕ → List (Told × ℕ) → List (Told × List ℕ)
  | _, [] => []
  | 0, _ => []
  | fuel + 1, (what, dpc) :: rest =>
    let run := (((what, dpc) :: rest).take affectedPerMessage).takeWhile fun c => c.1 = what
    (what, run.map Prod.snd) :: together fuel (((what, dpc) :: rest).drop run.length)

/-- A list in parts of a message each. -/
def parts : ℕ → List ℕ → List (List ℕ)
  | _, [] => []
  | 0, _ => []
  | fuel + 1, dpc :: rest =>
    (dpc :: rest).take affectedPerMessage :: parts fuel ((dpc :: rest).drop affectedPerMessage)

namespace Layer

def new : Layer := ⟨fun _ => .unavailable, fun _ => .unavailable, false, fun _ => []⟩

section

variable (r : Served) (byServer : ℕ → Bool)

/-- What the ASPs are to believe about a destination. While the MTP restart runs one that is
not reached through an Application Server is unavailable to them. -/
def wanted (l : Layer) (dpc : ℕ) : Told :=
  if l.restarting ∧ l.known dpc ≠ .unavailable ∧ byServer dpc = false then .unavailable
  else l.known dpc

/-- Tell every active ASP, except those of a server that is itself a route to the
destination. -/
def tell (l : Layer) (what : Told) (dpcs : List ℕ) : List Advice :=
  (List.range r.contexts.length).flatMap fun server =>
    let concerned := dpcs.filter fun dpc => r.aside server dpc
    if concerned = [] then []
    else (l.active server).map fun asp =>
      ⟨asp, server, what, r.contexts.getD server 0, concerned⟩

/-- One destination of `settle`. -/
def settleOne (s : Layer × List (Told × ℕ)) (dpc : ℕ) : Layer × List (Told × ℕ) :=
  let wanted := s.1.wanted byServer dpc
  ({ s.1 with told := fun d => if d = dpc then wanted else s.1.told d },
    if s.1.told dpc ≠ wanted then s.2 ++ [(wanted, dpc)] else s.2)

/-- Bring what the ASPs were told about these destinations in line with what is. -/
def settle (l : Layer) (dpcs : List ℕ) : Layer × List Advice :=
  let (l, changes) := dpcs.foldl (settleOne byServer) (l, [])
  (l, (together changes.length changes).flatMap fun run => l.tell r run.1 run.2)

/-- What an ASP that became active is told. -/
def brief (l : Layer) (asp server : ℕ) : List Advice :=
  if server < r.contexts.length then
    [Told.unavailable, .restricted].flatMap fun what =>
      let dpcs := r.dpcs.filter fun dpc => r.aside server dpc && l.wanted byServer dpc = what
      (parts dpcs.length dpcs).map fun part => ⟨asp, server, what, r.contexts.getD server 0, part⟩
  else []

/-- One of the changes that arrived together. -/
def change (s : Layer × List ℕ × List Advice) (c : DestinationChange) :
    Layer × List ℕ × List Advice :=
  match c.known with
  | none =>
    let (l, sent) := s.1.settle r byServer s.2.1
    (l, [], s.2.2 ++ sent)
  | some (dpc, known) =>
    ({ s.1 with known := fun d => if d = dpc then known else s.1.known d }, s.2.1 ++ [dpc], s.2.2)

/-- Changes that arrived together. -/
def changed (l : Layer) (changes : List DestinationChange) : Layer × List Advice :=
  let (l, dpcs, sent) := changes.foldl (change r byServer) (l, [], [])
  let (l, sent') := l.settle r byServer dpcs
  (l, sent ++ sent')

/-- Changes were missed: the state of every destination is taken from the routing tables. -/
def resync (l : Layer) (status : ℕ → Told) : Layer × List Advice :=
  { l with known := fun d => if d ∈ r.dpcs then status d else l.known d }.settle r byServer r.dpcs

/-- This node's MTP restart began or ended. -/
def restart (l : Layer) (on : Bool) : Layer × List Advice :=
  if l.restarting = on then (l, [])
  else { l with restarting := on }.settle r byServer r.dpcs

def step (l : Layer) : Notice → Layer × List Advice
  | .changed changes => l.changed r byServer changes
  | .resync status => l.resync r byServer status
  | .restart on => l.restart r byServer on
  | .activated asp server =>
    let l := { l with active := fun s =>
      if s = server ∧ asp ∉ l.active s then l.active s ++ [asp] else l.active s }
    (l, l.brief r byServer asp server)
  | .deactivated asp server =>
    ({ l with active := fun s =>
        if s = server then (l.active s).filter (· ≠ asp) else l.active s }, [])

end

end Layer

/-! ## What an ASP hears -/

/-- What each ASP of each server believes of each destination. -/
abbrev View := ℕ → ℕ → ℕ → Told

def Advice.about (m : Advice) (asp server dpc : ℕ) : Bool :=
  m.asp = asp && m.server = server && decide (dpc ∈ m.affected)

def hear (view : View) (m : Advice) : View := fun asp server dpc =>
  if m.about asp server dpc then m.what else view asp server dpc

def heard (view : View) (sent : List Advice) : View := sent.foldl hear view

@[simp] theorem heard_append (view : View) (xs ys : List Advice) :
    heard view (xs ++ ys) = heard (heard view xs) ys := List.foldl_append

/-- Where all that is said of a destination is the same, that is what is believed. -/
theorem heard_eq {sent : List Advice} {asp server dpc : ℕ} (what : Told)
    (h : ∀ m ∈ sent, m.about asp server dpc = true → m.what = what) (view : View) :
    heard view sent asp server dpc =
      if sent.any (fun m => m.about asp server dpc) then what else view asp server dpc := by
  induction sent generalizing view with
  | nil => rfl
  | cons m sent ih =>
    have hsent := ih (fun m' hm' => h m' (by simp [hm'])) (hear view m)
    have hcons : heard view (m :: sent) = heard (hear view m) sent := rfl
    rw [hcons, hsent]
    by_cases hm : m.about asp server dpc = true
    · simp [hear, hm, h m (by simp) hm]
    · simp [hear, hm]

/-! ## Messages -/

theorem mem_run (what : Told) (changes : List (Told × ℕ)) {dpc : ℕ}
    (h : dpc ∈ ((changes.take affectedPerMessage).takeWhile fun c => c.1 = what).map Prod.snd) :
    (what, dpc) ∈ changes := by
  obtain ⟨⟨w, d⟩, hc, rfl⟩ := List.mem_map.mp h
  have hw : w = what := by simpa using List.mem_takeWhile_imp hc
  subst hw
  exact List.mem_of_mem_take (List.takeWhile_subset _ hc)

theorem run_prefix (what : Told) (changes : List (Told × ℕ)) :
    (changes.take affectedPerMessage).takeWhile (fun c => c.1 = what) <+: changes :=
  (List.takeWhile_prefix _).trans (List.take_prefix _ _)

/-- What is told together are the changes. -/
theorem mem_together {fuel : ℕ} {changes : List (Told × ℕ)} (hf : changes.length ≤ fuel)
    {what : Told} {dpc : ℕ} :
    (∃ run ∈ together fuel changes, run.1 = what ∧ dpc ∈ run.2) ↔ (what, dpc) ∈ changes := by
  induction fuel generalizing changes with
  | zero =>
    have hnil : changes = [] := List.length_eq_zero_iff.mp (Nat.le_zero.mp hf)
    subst hnil
    simp [together]
  | succ fuel ih =>
    cases changes with
    | nil => simp [together]
    | cons c rest =>
      obtain ⟨w, d⟩ := c
      simp only [together, List.mem_cons, exists_eq_or_imp]
      set run := (((w, d) :: rest).take affectedPerMessage).takeWhile fun c => c.1 = w with hrun
      have hsplit : (w, d) :: rest = run ++ ((w, d) :: rest).drop run.length := by
        obtain ⟨tail, htail⟩ := run_prefix w ((w, d) :: rest)
        rw [← hrun] at htail
        rw [← htail, List.drop_left]
      have hpos : 0 < run.length := by
        rw [hrun, affectedPerMessage, List.take_succ_cons, List.takeWhile_cons]
        simp
      have hshort : (((w, d) :: rest).drop run.length).length ≤ fuel := by
        simp only [List.length_drop, List.length_cons] at hf ⊢
        omega
      rw [ih hshort]
      constructor
      · rintro (⟨rfl, hmem⟩ | hmem)
        · have hin := mem_run w ((w, d) :: rest) (hrun ▸ hmem)
          simpa using hin
        · have hin := List.mem_of_mem_drop hmem
          simpa using hin
      · intro hmem
        have hin : (what, dpc) ∈ run ++ ((w, d) :: rest).drop run.length := by
          rw [← hsplit]
          simpa using hmem
        rcases List.mem_append.mp hin with hin | hin
        · have hw : what = w := by
            have hall := List.mem_takeWhile_imp (hrun ▸ hin)
            simpa using hall
          exact .inl ⟨hw.symm, List.mem_map.mpr ⟨_, hin, rfl⟩⟩
        · exact .inr hin

theorem mem_parts {fuel : ℕ} {dpcs : List ℕ} (hf : dpcs.length ≤ fuel) {dpc : ℕ} :
    (∃ part ∈ parts fuel dpcs, dpc ∈ part) ↔ dpc ∈ dpcs := by
  induction fuel generalizing dpcs with
  | zero =>
    have hnil : dpcs = [] := List.length_eq_zero_iff.mp (Nat.le_zero.mp hf)
    subst hnil
    simp [parts]
  | succ fuel ih =>
    cases dpcs with
    | nil => simp [parts]
    | cons d rest =>
      have hshort : ((d :: rest).drop affectedPerMessage).length ≤ fuel := by
        simp only [List.length_drop, List.length_cons, affectedPerMessage] at hf ⊢
        omega
      simp only [parts, List.mem_cons, exists_eq_or_imp]
      rw [ih hshort, ← List.mem_append, List.take_append_drop]
      simp

namespace Layer

variable {r : Served} {byServer : ℕ → Bool}

theorem mem_tell {l : Layer} {what : Told} {dpcs : List ℕ} {m : Advice} {asp server dpc : ℕ}
    (h : m ∈ l.tell r what dpcs) (ha : m.about asp server dpc = true) :
    m.what = what ∧ dpc ∈ dpcs := by
  obtain ⟨s, -, hm⟩ := List.mem_flatMap.mp h
  dsimp only at hm
  split_ifs at hm
  · simp at hm
  · obtain ⟨a, -, rfl⟩ := List.mem_map.mp hm
    refine ⟨rfl, ?_⟩
    simp only [Advice.about, Bool.and_eq_true, decide_eq_true_eq, List.mem_filter] at ha
    exact ha.2.1

theorem tell_mem {l : Layer} (what : Told) {dpcs : List ℕ} {asp server dpc : ℕ}
    (hs : server < r.contexts.length) (ha : asp ∈ l.active server)
    (hd : dpc ∈ dpcs) (haside : r.aside server dpc = true) :
    ∃ m ∈ l.tell r what dpcs, m.about asp server dpc = true := by
  have hmem : dpc ∈ dpcs.filter fun dpc => r.aside server dpc := List.mem_filter.mpr ⟨hd, haside⟩
  refine ⟨⟨asp, server, what, r.contexts.getD server 0, dpcs.filter fun d => r.aside server d⟩,
    List.mem_flatMap.mpr ⟨server, List.mem_range.mpr hs, ?_⟩, ?_⟩
  · dsimp only
    rw [if_neg (List.ne_nil_of_mem hmem)]
    exact List.mem_map.mpr ⟨asp, ha, rfl⟩
  · simp [Advice.about, hd, haside]

/-! ## What is settled -/

/-- What is settled of the destinations: they were told what is wanted, and the changes are
those that were told otherwise. -/
theorem settle_foldl (byServer : ℕ → Bool) (l : Layer) (dpcs : List ℕ)
    (changes : List (Told × ℕ)) :
    let s := dpcs.foldl (settleOne byServer) (l, changes)
    (∀ d, s.1.told d = if d ∈ dpcs then l.wanted byServer d else l.told d) ∧
    s.1.known = l.known ∧ s.1.restarting = l.restarting ∧ s.1.active = l.active ∧
    ∀ what d, (what, d) ∈ s.2 ↔ (what, d) ∈ changes ∨
      (d ∈ dpcs ∧ what = l.wanted byServer d ∧ l.told d ≠ what) := by
  induction dpcs generalizing l changes with
  | nil => simp
  | cons dpc dpcs ih =>
    obtain ⟨htold, hknown, hrestarting, hactive, hchanges⟩ :=
      ih (settleOne byServer (l, changes) dpc).1 (settleOne byServer (l, changes) dpc).2
    have hwanted : ∀ d, (settleOne byServer (l, changes) dpc).1.wanted byServer d =
        l.wanted byServer d := fun _ => rfl
    have hone : ∀ d, (settleOne byServer (l, changes) dpc).1.told d =
        if d = dpc then l.wanted byServer dpc else l.told d := fun _ => rfl
    refine ⟨fun d => ?_, hknown, hrestarting, hactive, fun what d => ?_⟩
    · rw [List.foldl_cons, htold, hwanted, hone]
      by_cases hd : d = dpc
      · subst hd
        simp
      · simp [hd]
    · rw [List.foldl_cons, hchanges, hwanted, hone]
      by_cases hd : d = dpc
      · subst hd
        by_cases hsame : l.told d = l.wanted byServer d
        · simp [settleOne, hsame]
          grind
        · simp [settleOne, hsame]
          grind
      · have hkept : (what, d) ∈ (settleOne byServer (l, changes) dpc).2 ↔
            (what, d) ∈ changes := by
          simp only [settleOne]
          split_ifs <;> simp [hd]
        rw [hkept]
        simp [hd]

theorem settle_told (l : Layer) (dpcs : List ℕ) (d : ℕ) :
    (l.settle r byServer dpcs).1.told d =
      if d ∈ dpcs then l.wanted byServer d else l.told d :=
  (settle_foldl _ l dpcs []).1 d

theorem settle_known (l : Layer) (dpcs : List ℕ) :
    (l.settle r byServer dpcs).1.known = l.known := (settle_foldl _ l dpcs []).2.1

theorem settle_restarting (l : Layer) (dpcs : List ℕ) :
    (l.settle r byServer dpcs).1.restarting = l.restarting := (settle_foldl _ l dpcs []).2.2.1

theorem settle_active (l : Layer) (dpcs : List ℕ) :
    (l.settle r byServer dpcs).1.active = l.active := (settle_foldl _ l dpcs []).2.2.2.1

theorem settle_wanted (l : Layer) (dpcs : List ℕ) (d : ℕ) :
    (l.settle r byServer dpcs).1.wanted byServer d = l.wanted byServer d := by
  simp only [wanted, settle_known, settle_restarting]

theorem settle_all_told (l : Layer) {dpcs : List ℕ} {d : ℕ} (hd : d ∈ dpcs) :
    (l.settle r byServer dpcs).1.told d = (l.settle r byServer dpcs).1.wanted byServer d := by
  rw [settle_told, settle_wanted, if_pos hd]

/-- What an ASP hears of a destination that is settled. -/
theorem heard_settle (l : Layer) (dpcs : List ℕ) (view : View) {asp server d : ℕ}
    (hs : server < r.contexts.length) (ha : asp ∈ l.active server)
    (haside : r.aside server d = true) :
    heard view (l.settle r byServer dpcs).2 asp server d =
      if d ∈ dpcs ∧ l.told d ≠ l.wanted byServer d then l.wanted byServer d
      else view asp server d := by
  obtain ⟨-, -, -, hactive, hchanges⟩ := settle_foldl byServer l dpcs []
  unfold settle
  generalize dpcs.foldl (settleOne byServer) (l, []) = p at hactive hchanges
  obtain ⟨l', changes⟩ := p
  simp only [List.not_mem_nil, false_or] at hchanges hactive ⊢
  have hwhat : ∀ m ∈ (together changes.length changes).flatMap fun run =>
      l'.tell r run.1 run.2, m.about asp server d = true →
        m.what = l.wanted byServer d ∧ d ∈ dpcs ∧ l.told d ≠ l.wanted byServer d := by
    intro m hm habout
    obtain ⟨run, hrun, hm⟩ := List.mem_flatMap.mp hm
    obtain ⟨hwhat, hd⟩ := mem_tell hm habout
    have hchange := (mem_together (le_refl changes.length)).mp ⟨run, hrun, rfl, hd⟩
    obtain ⟨hmem, hwanted, hne⟩ := (hchanges _ _).mp hchange
    exact ⟨hwhat.trans hwanted, hmem, hwanted ▸ hne⟩
  rw [heard_eq _ fun m hm habout => (hwhat m hm habout).1]
  by_cases hd : d ∈ dpcs ∧ l.told d ≠ l.wanted byServer d
  · have hchange := (hchanges (l.wanted byServer d) d).mpr ⟨hd.1, rfl, hd.2⟩
    obtain ⟨run, hrun, -, hmem⟩ := (mem_together (le_refl changes.length)).mpr hchange
    obtain ⟨m, hm, habout⟩ := tell_mem run.1 hs (hactive ▸ ha) hmem haside
    rw [if_pos hd, if_pos]
    exact List.any_eq_true.mpr ⟨m, List.mem_flatMap.mpr ⟨run, hrun, hm⟩, habout⟩
  · rw [if_neg hd, if_neg]
    intro hany
    obtain ⟨m, hm, habout⟩ := List.any_eq_true.mp hany
    exact hd (hwhat m hm habout).2

/-- What an ASP hears when it is briefed. -/
theorem heard_brief (l : Layer) (view : View) {asp server d : ℕ}
    (hs : server < r.contexts.length) (hd : d ∈ r.dpcs) (haside : r.aside server d = true)
    (hv : view asp server d = .available) :
    heard view (l.brief r byServer asp server) asp server d = l.wanted byServer d := by
  have hwhat : ∀ m ∈ l.brief r byServer asp server, m.about asp server d = true →
      m.what = l.wanted byServer d := by
    intro m hm habout
    unfold brief at hm
    rw [if_pos hs] at hm
    obtain ⟨what, -, hm⟩ := List.mem_flatMap.mp hm
    obtain ⟨part, hpart, rfl⟩ := List.mem_map.mp hm
    simp only [Advice.about, Bool.and_eq_true, decide_eq_true_eq] at habout
    have hin := (mem_parts (le_refl _)).mp ⟨part, hpart, habout.2⟩
    simp only [List.mem_filter, Bool.and_eq_true, decide_eq_true_eq] at hin
    exact hin.2.2.symm
  rw [heard_eq _ hwhat]
  by_cases hw : l.wanted byServer d = .available
  · rw [hv, hw]
    exact ite_self _
  · rw [if_pos]
    have hmem : l.wanted byServer d ∈ [Told.unavailable, .restricted] := by
      cases h : l.wanted byServer d <;> simp_all
    have hin : d ∈ r.dpcs.filter fun dpc =>
        r.aside server dpc && l.wanted byServer dpc = l.wanted byServer d := by
      simp [hd, haside]
    obtain ⟨part, hpart, hdpart⟩ := (mem_parts (le_refl _)).mpr hin
    refine List.any_eq_true.mpr
      ⟨⟨asp, server, l.wanted byServer d, r.contexts.getD server 0, part⟩, ?_, ?_⟩
    · unfold brief
      rw [if_pos hs]
      exact List.mem_flatMap.mpr ⟨_, hmem, List.mem_map.mpr ⟨part, hpart, rfl⟩⟩
    · simp [Advice.about, hdpart]

theorem heard_brief_elsewhere (l : Layer) (view : View) {asp server asp' server' : ℕ}
    (h : ¬(asp' = asp ∧ server' = server)) (d : ℕ) :
    heard view (l.brief r byServer asp server) asp' server' d = view asp' server' d := by
  have hnone : ∀ m ∈ l.brief r byServer asp server, m.about asp' server' d = false := by
    intro m hm
    unfold brief at hm
    split_ifs at hm
    · obtain ⟨what, -, hm⟩ := List.mem_flatMap.mp hm
      obtain ⟨part, -, rfl⟩ := List.mem_map.mp hm
      simp only [Advice.about, Bool.and_eq_false_iff, decide_eq_false_iff_not]
      by_cases ha : asp = asp'
      · exact .inl (.inr fun hs => h ⟨ha.symm, hs.symm⟩)
      · exact .inl (.inl ha)
    · simp at hm
  rw [heard_eq .available fun m hm ha => by simp [hnone m hm] at ha]
  rw [if_neg]
  intro hany
  obtain ⟨m, hm, ha⟩ := List.any_eq_true.mp hany
  simp [hnone m hm] at ha

/-! ## What holds between two notices -/

/-- Every active ASP believes what the layer told, of each destination that its server is no
route to. -/
def Believes (r : Served) (l : Layer) (view : View) : Prop :=
  ∀ server < r.contexts.length, ∀ asp ∈ l.active server, ∀ d ∈ r.dpcs,
    r.aside server d = true → view asp server d = l.told d

/-- What was told is what is so, as long as this node does not restart. -/
def Even (r : Served) (l : Layer) : Prop :=
  l.restarting = false → ∀ d ∈ r.dpcs, l.told d = l.known d

theorem wanted_of_not_restarting {l : Layer} (h : l.restarting = false) (d : ℕ) :
    l.wanted byServer d = l.known d := by
  simp [wanted, h]

theorem Believes.settle {l : Layer} {view : View} (h : Believes r l view) (dpcs : List ℕ) :
    Believes r (l.settle r byServer dpcs).1 (heard view (l.settle r byServer dpcs).2) := by
  intro server hs asp ha d hd haside
  rw [settle_active] at ha
  rw [heard_settle l dpcs view hs ha haside, settle_told, h server hs asp ha d hd haside]
  by_cases hmem : d ∈ dpcs
  · by_cases hsame : l.told d = l.wanted byServer d <;> simp [hmem, hsame]
  · simp [hmem]

theorem Even.settle_all {l : Layer} (dpcs : List ℕ)
    (h : l.restarting = false → ∀ d ∈ r.dpcs, d ∈ dpcs ∨ l.told d = l.known d) :
    Even r (l.settle r byServer dpcs).1 := by
  intro hr d hd
  rw [settle_restarting] at hr
  rw [settle_told, settle_known]
  split_ifs with hmem
  · exact wanted_of_not_restarting hr d
  · exact (h hr d hd).resolve_left hmem

/-- What holds while changes that arrived together are taken up: those seen so far are still
to be settled, or are. -/
structure Taking (r : Served) (byServer : ℕ → Bool) (start : Layer) (view : View)
    (seen : List DestinationChange) (s : Layer × List ℕ × List Advice) : Prop where
  believes : Believes r s.1 (heard view s.2.2)
  even : s.1.restarting = false → ∀ d ∈ r.dpcs, d ∈ s.2.1 ∨ s.1.told d = s.1.known d
  settled : ∀ c ∈ seen, ∀ d k, c.known = some (d, k) →
    d ∈ s.2.1 ∨ s.1.told d = s.1.wanted byServer d
  active : s.1.active = start.active
  restarting : s.1.restarting = start.restarting

theorem Taking.change {start : Layer} {view : View} {seen : List DestinationChange}
    {s : Layer × List ℕ × List Advice} (h : Taking r byServer start view seen s)
    (c : DestinationChange) :
    Taking r byServer start view (seen ++ [c]) (change r byServer s c) := by
  obtain ⟨l, dpcs, sent⟩ := s
  unfold Layer.change
  cases hc : c.known with
  | none =>
    refine ⟨?_, fun hr d hd => .inr ?_, ?_, ?_, ?_⟩
    · simpa only [heard_append] using h.believes.settle dpcs
    · exact Even.settle_all dpcs h.even hr d hd
    · intro c' hc' d k hk
      have hseen : c' ∈ seen := by
        rcases List.mem_append.mp hc' with hc' | hc'
        · exact hc'
        · rw [List.mem_singleton.mp hc', hc] at hk
          cases hk
      right
      rw [settle_told, settle_wanted]
      rcases h.settled c' hseen d k hk with hmem | htold
      · rw [if_pos hmem]
      · rw [htold, ite_self]
    · exact (settle_active (r := r) l dpcs).trans h.active
    · exact (settle_restarting (r := r) l dpcs).trans h.restarting
  | some p =>
    obtain ⟨e, known⟩ := p
    refine ⟨h.believes, fun hr d hd => ?_, ?_, h.active, h.restarting⟩
    · rcases h.even hr d hd with hmem | htold
      · exact .inl (List.mem_append_left _ hmem)
      · by_cases he : d = e
        · exact .inl (by simp [he])
        · right
          simp only [he, ↓reduceIte]
          exact htold
    · intro c' hc' d k hk
      by_cases he : d = e
      · exact .inl (by simp [he])
      · have hseen : c' ∈ seen := by
          rcases List.mem_append.mp hc' with hc' | hc'
          · exact hc'
          · rw [List.mem_singleton.mp hc', hc] at hk
            exact absurd (Prod.mk.inj (Option.some.inj hk)).1.symm he
        rcases h.settled c' hseen d k hk with hmem | htold
        · exact .inl (List.mem_append_left _ hmem)
        · right
          rw [htold]
          simp [wanted, he]

theorem Taking.foldl {start : Layer} {view : View} {seen : List DestinationChange}
    {s : Layer × List ℕ × List Advice} (h : Taking r byServer start view seen s)
    (changes : List DestinationChange) :
    Taking r byServer start view (seen ++ changes)
      (changes.foldl (Layer.change r byServer) s) := by
  induction changes generalizing seen s with
  | nil => simpa using h
  | cons c changes ih =>
    rw [List.foldl_cons, List.append_cons]
    exact ih (h.change c)

theorem changed_spec (byServer : ℕ → Bool) {l : Layer} {view : View} (h : Believes r l view)
    (he : Even r l) (changes : List DestinationChange) :
    Believes r (l.changed r byServer changes).1 (heard view (l.changed r byServer changes).2) ∧
    Even r (l.changed r byServer changes).1 ∧
    ∀ c ∈ changes, ∀ d k, c.known = some (d, k) →
      (l.changed r byServer changes).1.told d =
        (l.changed r byServer changes).1.wanted byServer d := by
  have hstart : Taking r byServer l view [] (l, [], []) :=
    ⟨h, fun hr d hd => .inr (he hr d hd), fun _ hc => absurd hc List.not_mem_nil, rfl, rfl⟩
  have htaken := hstart.foldl changes
  unfold changed
  generalize changes.foldl (Layer.change r byServer) (l, [], []) = s at htaken ⊢
  obtain ⟨l', dpcs, sent⟩ := s
  refine ⟨?_, ?_, fun c hc d k hk => ?_⟩
  · simpa only [heard_append] using htaken.believes.settle dpcs
  · exact Even.settle_all dpcs htaken.even
  · rw [settle_told, settle_wanted]
    rcases htaken.settled c (by simpa using hc) d k hk with hmem | htold
    · exact if_pos hmem
    · exact (congrArg _ htold).trans (ite_self _)

/-! ## Every run -/

/-- A notice, and which destinations are reached through an Application Server when it is
taken up. -/
structure Turn where
  byServer : ℕ → Bool
  notice : Notice

/-- An ASP takes every destination to be available when it becomes active. -/
def opened (view : View) : Notice → View
  | .activated asp server => fun a s d =>
    if a = asp ∧ s = server then .available else view a s d
  | _ => view

/-- The layer and what the ASPs believe. -/
def watching (r : Served) : Layer × View → Turn → Layer × View :=
  Machine.watch (fun l turn => l.step r turn.byServer turn.notice) fun view _ turn out =>
    heard (opened view turn.notice) out.2

/-- An ASP that becomes active while this node restarts is to believe of each destination what
the others were told. -/
def Level (r : Served) (s : Layer × View) (turn : Turn) : Prop :=
  match turn.notice with
  | .activated _ server => s.1.restarting = true → ∀ d ∈ r.dpcs, r.aside server d = true →
      s.1.wanted turn.byServer d = s.1.told d
  | _ => True

/-- The notice is about the destination, or begins or ends this node's restart. -/
def Turn.concerns (turn : Turn) (l : Layer) (d : ℕ) : Prop :=
  match turn.notice with
  | .changed changes => ∃ c ∈ changes, ∃ k, c.known = some (d, k)
  | .resync _ => True
  | .restart on => l.restarting ≠ on
  | _ => False

structure Sound (r : Served) (s : Layer × View) : Prop where
  believes : Believes r s.1 s.2
  even : Even r s.1

theorem Sound.step {s : Layer × View} (h : Sound r s) {turn : Turn} (hl : Level r s turn) :
    Sound r (watching r s turn) ∧ ∀ d ∈ r.dpcs, turn.concerns s.1 d →
      (watching r s turn).1.told d = (watching r s turn).1.wanted turn.byServer d := by
  obtain ⟨l, view⟩ := s
  obtain ⟨byServer, notice⟩ := turn
  cases notice with
  | changed changes =>
    obtain ⟨hbelieves, heven, hsettled⟩ := changed_spec byServer h.believes h.even
      changes
    exact ⟨⟨hbelieves, heven⟩, fun d _ ⟨c, hc, k, hk⟩ => hsettled c hc d k hk⟩
  | resync status =>
    have hbelieves : Believes r { l with
        known := fun d => if d ∈ r.dpcs then status d else l.known d } view := h.believes
    exact ⟨⟨hbelieves.settle r.dpcs, Even.settle_all r.dpcs fun _ d hd => .inl hd⟩,
      fun d hd _ => settle_all_told (r := r) _ hd⟩
  | restart on =>
    by_cases hon : l.restarting = on
    · have hsame : l.step r byServer (.restart on) = (l, []) := if_pos hon
      have hafter : watching r (l, view) ⟨byServer, .restart on⟩ = (l, view) := by
        simp [watching, Machine.watch, hsame, opened, heard]
      rw [hafter]
      exact ⟨h, fun d _ hc => absurd hon hc⟩
    · have hsettle : l.step r byServer (.restart on) =
          { l with restarting := on }.settle r byServer r.dpcs := if_neg hon
      have hafter : watching r (l, view) ⟨byServer, .restart on⟩ =
          (({ l with restarting := on }.settle r byServer r.dpcs).1,
            heard view ({ l with restarting := on }.settle r byServer r.dpcs).2) := by
        simp only [watching, Machine.watch, hsettle, opened]
      have hbelieves : Believes r { l with restarting := on } view := h.believes
      rw [hafter]
      exact ⟨⟨hbelieves.settle r.dpcs, Even.settle_all r.dpcs fun _ d hd => .inl hd⟩,
        fun d hd _ => settle_all_told (r := r) _ hd⟩
  | activated asp server =>
    refine ⟨⟨?_, h.even⟩, fun d _ hc => absurd hc id⟩
    intro server' hs asp' ha d hd haside
    have htold : (watching r (l, view) ⟨byServer, .activated asp server⟩).1.told d = l.told d :=
      rfl
    rw [htold]
    by_cases hsame : asp' = asp ∧ server' = server
    · obtain ⟨rfl, rfl⟩ := hsame
      have hlevel : l.wanted byServer d = l.told d := by
        cases hr : l.restarting with
        | true => exact hl hr d hd haside
        | false => rw [wanted_of_not_restarting hr, h.even hr d hd]
      rw [← hlevel]
      exact heard_brief _ (opened view (.activated asp' server')) hs hd haside (by simp [opened])
    · have hactive : asp' ∈ l.active server' := by
        simp only [watching, Machine.watch, Layer.step] at ha
        split_ifs at ha with hnew
        · rcases List.mem_append.mp ha with ha | ha
          · exact ha
          · exact absurd ⟨List.mem_singleton.mp ha, hnew.1⟩ hsame
        · exact ha
      have hheard : (watching r (l, view) ⟨byServer, .activated asp server⟩).2 asp' server' d =
          opened view (.activated asp server) asp' server' d :=
        heard_brief_elsewhere _ _ hsame d
      rw [hheard]
      simp only [opened, hsame, ↓reduceIte]
      exact h.believes server' hs asp' hactive d hd haside
  | deactivated asp server =>
    refine ⟨⟨?_, h.even⟩, fun d _ hc => absurd hc id⟩
    intro server' hs asp' ha d hd haside
    refine h.believes server' hs asp' ?_ d hd haside
    simp only [watching, Machine.watch, Layer.step] at ha
    split_ifs at ha
    · exact List.mem_of_mem_filter ha
    · exact ha

theorem sound_new (r : Served) : Sound r (new, fun _ _ _ => .available) :=
  ⟨fun _ _ _ ha => absurd ha List.not_mem_nil, fun _ _ _ => rfl⟩

/-- Where no ASP is briefed otherwise than the others were told, every active ASP believes what
it is to believe, after each notice about a destination and each beginning or end of this node's
restart, and all believe the same. -/
theorem believed_as_wanted (r : Served) (turns : List Turn) (turn : Turn)
    (h : Machine.Along (watching r) (Level r) (new, fun _ _ _ => .available) (turns ++ [turn])) :
    let before := Machine.run (watching r) (new, fun _ _ _ => .available) turns
    let s := watching r before turn
    (∀ d ∈ r.dpcs, turn.concerns before.1 d → ∀ server < r.contexts.length,
      r.aside server d = true → ∀ asp ∈ s.1.active server,
        s.2 asp server d = s.1.wanted turn.byServer d) ∧
    ∀ d ∈ r.dpcs, ∀ server < r.contexts.length, ∀ server' < r.contexts.length,
      r.aside server d = true → r.aside server' d = true → ∀ asp ∈ s.1.active server,
        ∀ asp' ∈ s.1.active server', s.2 asp server d = s.2 asp' server' d := by
  intro before s
  obtain ⟨hturns, hturn⟩ := (Machine.along_append _ _ _).mp h
  have hbefore : Sound r before :=
    Machine.run_invariant (P := Sound r) (fun _ _ hs hl => (hs.step hl).1) (sound_new r) hturns
  obtain ⟨hs, hconcerns⟩ := hbefore.step hturn.1
  constructor
  · intro d hd hc server hserver haside asp ha
    rw [hs.believes server hserver asp ha d hd haside]
    exact hconcerns d hd hc
  · intro d hd server hserver server' hserver' haside haside' asp ha asp' ha'
    rw [hs.believes server hserver asp ha d hd haside,
      hs.believes server' hserver' asp' ha' d hd haside']

/-- Two servers, of which the second is a route to a point. -/
def twoServers : Served := ⟨[10, 20], [(300, [1])]⟩

/-- An ASP that comes when the point is restricted believes it. -/
theorem believed_as_wanted_of_restricted :
    let turns : List Turn := [⟨fun _ => false, .changed [.accessible 300, .restricted 300]⟩,
      ⟨fun _ => false, .activated 7 0⟩]
    let s := watching twoServers (Machine.run (watching twoServers)
      (new, fun _ _ _ => .available) turns) ⟨fun _ => false, .resync fun _ => .restricted⟩
    s.2 7 0 300 = .restricted := by
  intro turns s
  have hbelieved := (believed_as_wanted twoServers turns
    ⟨fun _ => false, .resync fun _ => .restricted⟩ (by
      refine ⟨trivial, ?_, trivial, trivial⟩
      intro hr
      exact absurd hr (by decide))).1 300 (by decide) trivial 0 (by decide) (by decide) 7
        (by decide)
  exact hbelieved.trans (by decide)

/-- The server that a point is behind fails while this node restarts, and an ASP that becomes
active then is told that the point is unavailable; nobody tells it otherwise. -/
theorem briefed_during_restart :
    ¬ ∀ (r : Served) (turns : List Turn) (turn : Turn),
      let before := Machine.run (watching r) (new, fun _ _ _ => .available) turns
      let s := watching r before turn
      ∀ d ∈ r.dpcs, turn.concerns before.1 d → ∀ server < r.contexts.length,
        r.aside server d = true → ∀ asp ∈ s.1.active server,
          s.2 asp server d = s.1.wanted turn.byServer d := by
  intro h
  have hbelieved := h twoServers [⟨fun _ => true, .changed [.accessible 300]⟩,
    ⟨fun _ => true, .restart true⟩, ⟨fun _ => false, .activated 7 0⟩]
    ⟨fun _ => false, .restart false⟩ 300 (by decide) (by simp [Turn.concerns]; decide) 0
    (by decide) (by decide) 7 (by decide)
  exact absurd hbelieved (by decide)

end Layer

end SiphonSigtran.Transport
