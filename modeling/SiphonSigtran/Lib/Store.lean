import Mathlib.Data.List.AList

/-!
# Stores

A finite map, as an association list without duplicate keys. Its size is that of its
list of keys.
-/

namespace Lib

universe u v

abbrev Store (κ : Type u) (α : Type v) := AList fun _ : κ => α

namespace Store

variable {κ : Type u} {α : Type v} {β : Type v}

def size (s : Store κ α) : ℕ := s.keys.length

/-- Every value becomes another, under the same key. -/
def mapValues (f : κ → α → α) (s : Store κ α) : Store κ α where
  entries := s.entries.map fun p => ⟨p.1, f p.1 p.2⟩
  nodupKeys := by
    have hkeys : (s.entries.map fun p => (⟨p.1, f p.1 p.2⟩ : Sigma fun _ : κ => α)).keys =
        s.entries.keys := by
      simp [List.keys, Function.comp_def]
    rw [List.NodupKeys, hkeys]
    exact s.nodupKeys

/-- Every value becomes one of another type, under the same key. -/
def mapTo (f : κ → α → β) (s : Store κ α) : Store κ β where
  entries := s.entries.map fun p => ⟨p.1, f p.1 p.2⟩
  nodupKeys := by
    have hkeys : (s.entries.map fun p => (⟨p.1, f p.1 p.2⟩ : Sigma fun _ : κ => β)).keys =
        s.entries.keys := by
      simp [List.keys, Function.comp_def]
    rw [List.NodupKeys, hkeys]
    exact s.nodupKeys

@[simp] theorem keys_mapValues (f : κ → α → α) (s : Store κ α) :
    (s.mapValues f).keys = s.keys := by
  simp [mapValues, AList.keys, List.keys, Function.comp_def]

@[simp] theorem size_mapValues (f : κ → α → α) (s : Store κ α) :
    size (s.mapValues f) = size s := by
  rw [size, keys_mapValues, size]

@[simp] theorem size_empty : size (∅ : Store κ α) = 0 := rfl

variable [DecidableEq κ]

/-- The value under one key becomes another, if there is one. -/
def modify (k : κ) (f : α → α) (s : Store κ α) : Store κ α :=
  s.mapValues fun j a => if j = k then f a else a

@[simp] theorem lookup_mapTo (f : κ → α → β) (s : Store κ α) (k : κ) :
    (s.mapTo f).lookup k = (s.lookup k).map (f k) := by
  obtain ⟨entries, hkeys⟩ := s
  simp only [mapTo, AList.lookup]
  clear hkeys
  induction entries with
  | nil => rfl
  | cons p entries ih =>
    obtain ⟨j, a⟩ := p
    rw [List.map_cons]
    by_cases hj : j = k
    · subst hj
      simp
    · rw [List.dlookup_cons_ne _ _ fun h => hj h.symm, List.dlookup_cons_ne _ _ fun h => hj h.symm]
      exact ih

@[simp] theorem lookup_mapValues (f : κ → α → α) (s : Store κ α) (k : κ) :
    (s.mapValues f).lookup k = (s.lookup k).map (f k) := lookup_mapTo f s k

@[simp] theorem size_modify (k : κ) (f : α → α) (s : Store κ α) :
    size (modify k f s) = size s := size_mapValues _ s

theorem lookup_modify (k : κ) (f : α → α) (s : Store κ α) (j : κ) :
    (modify k f s).lookup j = (s.lookup j).map fun a => if j = k then f a else a :=
  lookup_mapValues _ s j

theorem size_insert {k : κ} {s : Store κ α} (h : k ∉ s) (a : α) :
    size (s.insert k a) = size s + 1 := by
  rw [size, AList.keys_insert, List.erase_of_not_mem (fun hk => h (AList.mem_keys.mpr hk)),
    List.length_cons, size]

theorem size_insert_of_mem {k : κ} {s : Store κ α} (h : k ∈ s) (a : α) :
    size (s.insert k a) = size s := by
  rw [size, AList.keys_insert, List.length_cons, List.length_erase_add_one (AList.mem_keys.mp h),
    size]

theorem size_insert_le (k : κ) (s : Store κ α) (a : α) : size (s.insert k a) ≤ size s + 1 := by
  by_cases h : k ∈ s
  · rw [size_insert_of_mem h]
    exact Nat.le_succ _
  · exact Nat.le_of_eq (size_insert h a)

theorem size_erase {k : κ} {s : Store κ α} (h : k ∈ s) : size (s.erase k) + 1 = size s := by
  rw [size, AList.keys_erase, size]
  exact List.length_erase_add_one (AList.mem_keys.mp h)

theorem mem_of_lookup {k : κ} {s : Store κ α} {a : α} (h : s.lookup k = some a) : k ∈ s :=
  AList.lookup_isSome.mp (by rw [h]; rfl)

/-- The store of a list of keys and values; of several values of one key it has the last. -/
def ofList (xs : List (κ × α)) : Store κ α := xs.foldl (fun s x => s.insert x.1 x.2) ∅

theorem lookup_foldl_insert {xs : List (κ × α)} {k : κ} (h : k ∉ xs.map Prod.fst)
    (s : Store κ α) : (xs.foldl (fun s x => s.insert x.1 x.2) s).lookup k = s.lookup k := by
  induction xs generalizing s with
  | nil => rfl
  | cons x xs ih =>
    rw [List.map_cons, List.mem_cons, not_or] at h
    rw [List.foldl_cons, ih h.2, AList.lookup_insert_ne h.1]

/-- What each element of a list may add is there after the list if it was before, or one adds
it. -/
theorem foldl_iff {σ ι : Type*} {f : σ → ι → σ} {p : σ → Prop} {adds : ι → Prop}
    (hf : ∀ s x, p (f s x) ↔ p s ∨ adds x) (xs : List ι) (s : σ) :
    p (xs.foldl f s) ↔ p s ∨ ∃ x ∈ xs, adds x := by
  induction xs generalizing s with
  | nil => simp
  | cons x xs ih => rw [List.foldl_cons, ih, hf, List.exists_mem_cons_iff, or_assoc]

theorem mem_of_lookup_foldl {xs : List (κ × α)} {s : Store κ α} {k : κ} {a : α}
    (h : (xs.foldl (fun s x => s.insert x.1 x.2) s).lookup k = some a) :
    (k, a) ∈ xs ∨ s.lookup k = some a := by
  induction xs generalizing s with
  | nil => exact .inr h
  | cons x xs ih =>
    rcases ih h with hrest | hinsert
    · exact .inl (List.mem_cons_of_mem _ hrest)
    · by_cases hk : k = x.1
      · subst hk
        rw [AList.lookup_insert, Option.some.injEq] at hinsert
        subst hinsert
        exact .inl List.mem_cons_self
      · rw [AList.lookup_insert_ne hk] at hinsert
        exact .inr hinsert

theorem mem_of_lookup_ofList {xs : List (κ × α)} {k : κ} {a : α}
    (h : (ofList xs).lookup k = some a) : (k, a) ∈ xs := by
  rcases mem_of_lookup_foldl h with hmem | hempty
  · exact hmem
  · simp at hempty

theorem lookup_ofList {xs : List (κ × α)} (hxs : (xs.map Prod.fst).Nodup) {k : κ} {a : α}
    (h : (k, a) ∈ xs) : (ofList xs).lookup k = some a := by
  obtain ⟨before, after, rfl⟩ := List.append_of_mem h
  have hafter : k ∉ after.map Prod.fst := by
    rw [List.map_append, List.map_cons, List.nodup_append] at hxs
    exact (List.nodup_cons.mp hxs.2.1).1
  rw [ofList, List.foldl_append, List.foldl_cons, lookup_foldl_insert hafter, AList.lookup_insert]

end Store

end Lib
