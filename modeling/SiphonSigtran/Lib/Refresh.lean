import SiphonSigtran.Lib.Machine
import Mathlib.Logic.Function.Basic

/-!
# A table that tasks keep up to date

Tasks change cells, and a table is computed from the cells by refreshes. A task that changed a cell
owes a refresh. Refreshes exclude each other but not the changes: one reads the cells one by one,
and cells may change between its reads. Still, once no refresh is owed and none runs, every entry of
the table is what the cells make it, because the last refresh began after the last change. What an
entry became is told whenever it changes.
-/

namespace Lib.Refresh

variable {κ α ι β : Type*}

/-- How the entries of a table are computed: the cells that one reads, in this order, and its value
by what was read. -/
structure Recipe (κ α ι β : Type*) where
  entries : List ι
  reads : ι → List κ
  value : ι → List α → β

/-- A refresh that runs: the entries it has not written, and what it read for the first of them. -/
structure Pass (ι α : Type*) where
  todo : List ι
  seen : List α

structure Shared (κ α ι β : Type*) where
  cells : κ → α
  table : ι → β
  owed : ℕ
  pass : Option (Pass ι α)

inductive Turn (κ α : Type*)
  | change (cell : κ) (value : α)
  | begins
  | goes

section

variable [DecidableEq κ] [DecidableEq ι] [DecidableEq β] (r : Recipe κ α ι β)

/-- The refresh reads the next cell for its first entry, or writes the entry if all are read. -/
def go (s : Shared κ α ι β) (p : Pass ι α) : Shared κ α ι β × List (ι × β) :=
  match p.todo with
  | [] => ({ s with pass := none }, [])
  | i :: rest =>
    match (r.reads i)[p.seen.length]? with
    | some cell => ({ s with pass := some ⟨i :: rest, p.seen ++ [s.cells cell]⟩ }, [])
    | none =>
      let b := r.value i p.seen
      ({ s with table := Function.update s.table i b, pass := some ⟨rest, []⟩ },
        if s.table i = b then [] else [(i, b)])

def step (s : Shared κ α ι β) : Turn κ α → Shared κ α ι β × List (ι × β)
  | .change cell value =>
    ({ s with cells := Function.update s.cells cell value, owed := s.owed + 1 }, [])
  | .begins =>
    if s.pass.isSome ∨ s.owed = 0 then (s, [])
    else ({ s with owed := s.owed - 1, pass := some ⟨r.entries, []⟩ }, [])
  | .goes => match s.pass with
    | none => (s, [])
    | some p => go r s p

/-- What the cells make of an entry. -/
def now (s : Shared κ α ι β) (i : ι) : β := r.value i ((r.reads i).map s.cells)

/-- Unless a refresh is owed, the entries are what the cells make them, except those that the
refresh under way has still to write, and what it has read is what is in the cells. -/
structure Fresh (s : Shared κ α ι β) : Prop where
  idle : s.owed = 0 → s.pass = none → ∀ i ∈ r.entries, s.table i = now r s i
  written : s.owed = 0 → ∀ p, s.pass = some p →
    ∀ i ∈ r.entries, i ∉ p.todo → s.table i = now r s i
  read : s.owed = 0 → ∀ p i rest, s.pass = some p → p.todo = i :: rest →
    p.seen = ((r.reads i).map s.cells).take p.seen.length

variable {r} {s : Shared κ α ι β}

theorem Fresh.change (cell : κ) (value : α) : Fresh r (step r s (.change cell value)).1 := by
  have howed : (step r s (.change cell value)).1.owed ≠ 0 := Nat.succ_ne_zero s.owed
  exact ⟨fun h => absurd h howed, fun h => absurd h howed, fun h => absurd h howed⟩

theorem Fresh.begins (h : Fresh r s) : Fresh r (step r s .begins).1 := by
  unfold step
  split_ifs
  · exact h
  · refine ⟨(fun _ hpass => by cases hpass), ?_, ?_⟩
    · rintro - p hp i hi hnot
      obtain rfl := Option.some.inj hp
      exact absurd hi hnot
    · rintro - p i rest hp -
      obtain rfl := Option.some.inj hp
      rfl

omit [DecidableEq κ] [DecidableEq ι] [DecidableEq β] in
/-- The refresh reads on. -/
theorem Fresh.reads (h : Fresh r s) {p : Pass ι α} (hp : s.pass = some p) {i : ι} {rest : List ι}
    (htodo : p.todo = i :: rest) {cell : κ} (hcell : (r.reads i)[p.seen.length]? = some cell) :
    Fresh r { s with pass := some ⟨i :: rest, p.seen ++ [s.cells cell]⟩ } := by
  refine ⟨(fun _ hpass => by cases hpass), ?_, ?_⟩
  · rintro howed p' hp' j hj hnot
    obtain rfl := Option.some.inj hp'
    exact h.written howed p hp j hj (by rw [htodo]; exact hnot)
  · rintro howed p' j rest' hp' htodo'
    obtain rfl := Option.some.inj hp'
    obtain ⟨rfl, rfl⟩ := List.cons.inj htodo'
    have hseen := h.read howed p i rest hp htodo
    have hnext : ((r.reads i).map s.cells)[p.seen.length]? = some (s.cells cell) := by
      rw [List.getElem?_map, hcell]
      rfl
    rw [List.length_append, List.length_singleton, List.take_add_one, hnext, ← hseen]
    rfl

omit [DecidableEq κ] [DecidableEq β] in
/-- The refresh writes an entry. -/
theorem Fresh.writes (h : Fresh r s) {p : Pass ι α} (hp : s.pass = some p) {i : ι} {rest : List ι}
    (htodo : p.todo = i :: rest) (hdone : (r.reads i)[p.seen.length]? = none) :
    Fresh r { s with
      table := Function.update s.table i (r.value i p.seen), pass := some ⟨rest, []⟩ } := by
  refine ⟨(fun _ hpass => by cases hpass), ?_, ?_⟩
  · rintro howed p' hp' j hj hnot
    obtain rfl := Option.some.inj hp'
    have hall : p.seen = (r.reads i).map s.cells := by
      have hseen := h.read howed p i rest hp htodo
      have hlength := List.getElem?_eq_none_iff.mp hdone
      rwa [List.take_of_length_le (by rw [List.length_map]; exact hlength)] at hseen
    by_cases hji : j = i
    · subst hji
      change Function.update s.table j (r.value j p.seen) j = r.value j ((r.reads j).map s.cells)
      rw [Function.update_self, hall]
    · change Function.update s.table i (r.value i p.seen) j = now r s j
      rw [Function.update_of_ne hji]
      apply h.written howed p hp j hj
      rw [htodo, List.mem_cons, not_or]
      exact ⟨hji, hnot⟩
  · rintro - p' j rest' hp' -
    obtain rfl := Option.some.inj hp'
    rfl

omit [DecidableEq κ] in
theorem Fresh.go (h : Fresh r s) {p : Pass ι α} (hp : s.pass = some p) :
    Fresh r (go r s p).1 := by
  unfold Refresh.go
  cases htodo : p.todo with
  | nil =>
    refine ⟨fun howed _ i hi => ?_, (fun _ p' hp' => by cases hp'),
      (fun _ p' _ _ hp' => by cases hp')⟩
    exact h.written howed p hp i hi (by rw [htodo]; exact List.not_mem_nil)
  | cons i rest =>
    dsimp only
    cases hcell : (r.reads i)[p.seen.length]? with
    | some cell => exact h.reads hp htodo hcell
    | none => exact h.writes hp htodo hcell

theorem Fresh.step (h : Fresh r s) (turn : Turn κ α) : Fresh r (step r s turn).1 := by
  cases turn with
  | change cell value => exact .change cell value
  | begins => exact h.begins
  | goes =>
    unfold Refresh.step
    cases hp : s.pass with
    | none => exact h
    | some p => exact h.go hp

/-! ## What is told -/

/-- What was last told of an entry, if before it was as in `table`. -/
def lastTold (table : ι → β) (told : List (ι × β)) : ι → β :=
  told.foldl (fun table entry => Function.update table entry.1 entry.2) table

/-- What is told is never what was told before. -/
def OnlyChanges : (ι → β) → List (ι × β) → Prop
  | _, [] => True
  | table, entry :: told =>
    table entry.1 ≠ entry.2 ∧ OnlyChanges (Function.update table entry.1 entry.2) told

variable {table : ι → β} {told : List (ι × β)}

omit [DecidableEq β] in
theorem lastTold_concat (i : ι) (b : β) :
    lastTold table (told ++ [(i, b)]) = Function.update (lastTold table told) i b :=
  List.foldl_append

omit [DecidableEq β] in
theorem OnlyChanges.concat (h : OnlyChanges table told) {i : ι} {b : β}
    (hb : lastTold table told i ≠ b) : OnlyChanges table (told ++ [(i, b)]) := by
  induction told generalizing table with
  | nil => exact ⟨hb, trivial⟩
  | cons entry told ih => exact ⟨h.1, ih h.2 hb⟩

/-- A turn tells what it changes in the table, and only that. -/
theorem told_step (hlast : lastTold table told = s.table) (honly : OnlyChanges table told)
    (turn : Turn κ α) :
    lastTold table (told ++ (step r s turn).2) = (step r s turn).1.table ∧
      OnlyChanges table (told ++ (step r s turn).2) := by
  have hquiet : ∀ s' : Shared κ α ι β, s'.table = s.table → lastTold table (told ++ []) = s'.table ∧
      OnlyChanges table (told ++ []) := by
    intro s' hs'
    rw [List.append_nil, hs']
    exact ⟨hlast, honly⟩
  cases turn with
  | change cell value => exact hquiet _ rfl
  | begins =>
    unfold step
    split_ifs
    · exact hquiet s rfl
    · exact hquiet { s with owed := s.owed - 1, pass := some ⟨r.entries, []⟩ } rfl
  | goes =>
    unfold step
    cases hp : s.pass with
    | none => exact hquiet s rfl
    | some p =>
      dsimp only
      unfold go
      cases htodo : p.todo with
      | nil => exact hquiet { s with pass := none } rfl
      | cons i rest =>
        dsimp only
        cases hcell : (r.reads i)[p.seen.length]? with
        | some cell =>
          exact hquiet { s with pass := some ⟨i :: rest, p.seen ++ [s.cells cell]⟩ } rfl
        | none =>
          dsimp only
          split_ifs with hsame
          · apply hquiet { s with
              table := Function.update s.table i (r.value i p.seen), pass := some ⟨rest, []⟩ }
            rw [← hsame, Function.update_eq_self]
          · constructor
            · rw [lastTold_concat, hlast]
            · apply honly.concat
              rw [hlast]
              exact hsame

variable (r) in
/-- The machine, with what it told. -/
def watching : Shared κ α ι β × List (ι × β) → Turn κ α → Shared κ α ι β × List (ι × β) :=
  Machine.watch (step r) fun told _ _ out => told ++ out.2

/-- In every run from a table that is what the cells make it, once no refresh is owed and none runs
the table is that again, and what was last told of an entry is what it is. What was told was a
change each time. -/
theorem settled (hpass : s.pass = none)
    (hstart : ∀ i ∈ r.entries, s.table i = now r s i) (turns : List (Turn κ α)) :
    let p := Machine.run (watching r) (s, []) turns
    (p.1.owed = 0 → p.1.pass = none → ∀ i ∈ r.entries, p.1.table i = now r p.1 i) ∧
      lastTold s.table p.2 = p.1.table ∧ OnlyChanges s.table p.2 := by
  intro p
  have hrun : Fresh r p.1 ∧ lastTold s.table p.2 = p.1.table ∧ OnlyChanges s.table p.2 := by
    apply Machine.run_invariant (P := fun p : Shared κ α ι β × List (ι × β) =>
      Fresh r p.1 ∧ lastTold s.table p.2 = p.1.table ∧ OnlyChanges s.table p.2)
      (Q := fun _ _ => True)
    · rintro p turn ⟨hfresh, hlast, honly⟩ -
      exact ⟨hfresh.step turn, told_step hlast honly turn⟩
    · refine ⟨⟨fun _ _ => hstart, fun _ p hp => ?_, fun _ p _ _ hp => ?_⟩, rfl, trivial⟩
      · rw [hpass] at hp
        cases hp
      · rw [hpass] at hp
        cases hp
    · exact Machine.along_trivial _ turns
  exact ⟨hrun.1.idle, hrun.2⟩

end

end Lib.Refresh
