import Mathlib.Algebra.BigOperators.Group.Finset.Basic
import Mathlib.Data.List.AList

/-!
# Tables

A finite map as an association list with distinct keys, Mathlib's `AList` with
values of one type. Beyond its `lookup`, `insert` and `erase`:

* `Table.values`: the values, in the order of the list;
* `Table.mapValues`: changing every value;
* `Table.retain`: the entries that meet a condition.

`values_insert` and `values_perm` count values: writing a key replaces its
value by another, and leaves the other values as they are. `countP_values` counts
them key by key. `Table.Inverse` says that two tables are inverse to each other;
both are then injective.
-/

/-- A finite map from `K` to `V`. -/
abbrev Table (K V : Type*) := AList fun _ : K => V

namespace Table

variable {K V : Type*}

/-- The values of a table. -/
def values (t : Table K V) : List V := t.entries.map Sigma.snd

/-- The table with every value changed by `f`. -/
def mapValues (f : K → V → V) (t : Table K V) : Table K V where
  entries := t.entries.map fun e => ⟨e.1, f e.1 e.2⟩
  nodupKeys := by
    have h := t.nodupKeys
    rw [List.NodupKeys] at h ⊢
    rwa [List.keys, List.map_map]

/-- The entries that meet the condition `p`. -/
def retain (p : K → V → Bool) (t : Table K V) : Table K V where
  entries := t.entries.filter fun e => p e.1 e.2
  nodupKeys := t.nodupKeys.sublist List.filter_sublist

variable [DecidableEq K]

/-- The lookup of one key after another was written. -/
theorem lookup_insert_eq (t : Table K V) (k k' : K) (v : V) :
    (t.insert k v).lookup k' = if k' = k then some v else t.lookup k' := by
  by_cases h : k' = k
  · subst h
    rw [AList.lookup_insert, if_pos rfl]
  · rw [AList.lookup_insert_ne h, if_neg h]

/-- The lookup of one key after another was removed. -/
theorem lookup_erase_eq (t : Table K V) (k k' : K) :
    (t.erase k).lookup k' = if k' = k then none else t.lookup k' := by
  by_cases h : k' = k
  · subst h
    rw [AList.lookup_erase, if_pos rfl]
  · rw [AList.lookup_erase_ne h, if_neg h]

/-- What is found after a key was written: its value, or what another key has. -/
theorem lookup_insert_some {t : Table K V} {k k' : K} {v w : V} :
    (t.insert k v).lookup k' = some w ↔
      (k' = k ∧ w = v) ∨ (k' ≠ k ∧ t.lookup k' = some w) := by
  rw [lookup_insert_eq]
  split <;> rename_i h
  · simp [h, eq_comm]
  · simp [h]

/-- What is found in a table with one key. -/
theorem lookup_singleton {k k' : K} {v w : V} :
    (AList.insert k v ∅ : Table K V).lookup k' = some w ↔ k' = k ∧ w = v := by
  rw [lookup_insert_some]
  simp

/-- What is found after a key was removed: what another key has. -/
theorem lookup_erase_some {t : Table K V} {k k' : K} {w : V} :
    (t.erase k).lookup k' = some w ↔ k' ≠ k ∧ t.lookup k' = some w := by
  rw [lookup_erase_eq]
  split <;> rename_i h
  · simp [h]
  · simp [h]

/-- An entry of the list is what the lookup of its key finds. -/
theorem mem_entries {t : Table K V} {k : K} {v : V} :
    (⟨k, v⟩ : Sigma fun _ : K => V) ∈ t.entries ↔ t.lookup k = some v :=
  AList.mem_lookup_iff.symm

/-- The values of a table are what its lookups find. -/
theorem mem_values {t : Table K V} {v : V} : v ∈ t.values ↔ ∃ k, t.lookup k = some v := by
  simp only [values, List.mem_map]
  constructor
  · rintro ⟨⟨k, v⟩, he, rfl⟩
    exact ⟨k, mem_entries.1 he⟩
  · rintro ⟨k, hk⟩
    exact ⟨⟨k, v⟩, mem_entries.2 hk, rfl⟩

/-- The lookup of a table whose values were all changed. -/
theorem lookup_mapValues (f : K → V → V) (t : Table K V) (k : K) :
    (mapValues f t).lookup k = (t.lookup k).map (f k) := by
  cases hk : t.lookup k with
  | none =>
    rw [Option.map_none, AList.lookup_eq_none, AList.mem_keys]
    rw [AList.lookup_eq_none, AList.mem_keys] at hk
    simpa [mapValues, AList.keys, List.keys] using hk
  | some v =>
    rw [Option.map_some, ← mem_entries]
    exact List.mem_map.2 ⟨⟨k, v⟩, mem_entries.2 hk, rfl⟩

/-- The lookup of a table from which entries were dropped. -/
theorem lookup_retain {p : K → V → Bool} {t : Table K V} {k : K} {v : V} :
    (retain p t).lookup k = some v ↔ t.lookup k = some v ∧ p k v = true := by
  rw [← mem_entries, ← mem_entries]
  exact List.mem_filter

/-- If all entries meet the condition, none is dropped. -/
theorem retain_eq_self {p : K → V → Bool} {t : Table K V}
    (h : ∀ k v, t.lookup k = some v → p k v = true) : retain p t = t :=
  AList.ext (List.filter_eq_self.2 fun e he => h e.1 e.2 (mem_entries.1 he))

/-- Writing a key puts its value in front of those of the other keys. -/
theorem values_insert (t : Table K V) (k : K) (v : V) :
    values (t.insert k v) = v :: values (t.erase k) := by
  simp only [values, AList.entries_insert, List.map_cons]
  rfl

/-- Removing a key that is absent changes nothing. -/
theorem erase_of_lookup_none {t : Table K V} {k : K} (h : t.lookup k = none) :
    t.erase k = t :=
  AList.ext (List.kerase_of_notMem_keys (AList.lookup_eq_none.1 h))

/-- The values of a table are that of one key and those of the other keys. -/
theorem values_perm {t : Table K V} {k : K} {v : V} (h : t.lookup k = some v) :
    t.values.Perm (v :: values (t.erase k)) := by
  have hk : k ∈ t.entries.keys := AList.lookup_isSome.1 (by rw [h]; rfl)
  obtain ⟨w, l₁, l₂, _, he, hr⟩ := List.exists_of_kerase hk
  -- The entry that is split off is the one the lookup finds.
  have hw : t.lookup k = some w := mem_entries.1 (he ▸ List.mem_append_right _ List.mem_cons_self)
  obtain rfl : v = w := Option.some.inj (h.symm.trans hw)
  have hperm : t.entries.Perm (⟨k, v⟩ :: (t.erase k).entries) := by
    rw [he, show (t.erase k).entries = l₁ ++ l₂ from hr]
    exact List.perm_middle
  exact hperm.map Sigma.snd

/-- The values that meet a condition are counted key by key, over any keys that
    include those of the table. -/
theorem countP_values (t : Table K V) (p : V → Bool) {keys : Finset K}
    (hkeys : ∀ k, (t.lookup k).isSome → k ∈ keys) :
    t.values.countP p = ∑ k ∈ keys, if (t.lookup k).any p then 1 else 0 := by
  have hlist : t.values.countP p = (t.entries.map fun e => if p e.2 then 1 else 0).sum := by
    rw [values]
    induction t.entries with
    | nil => rfl
    | cons e l ih => simp only [List.map_cons, List.countP_cons, List.sum_cons, ih, Nat.add_comm]
  have hlookup : t.entries.map (fun e => if p e.2 then 1 else 0) =
      t.keys.map fun k => if (t.lookup k).any p then 1 else 0 := by
    rw [AList.keys, List.keys, List.map_map]
    refine List.map_congr_left fun e he => ?_
    simp only [Function.comp_apply, mem_entries.1 he, Option.any_some]
  have hnodup : t.keys.Nodup := t.nodupKeys
  rw [hlist, hlookup, ← List.sum_toFinset _ hnodup]
  refine Finset.sum_subset (fun k hk => ?_) fun k _ hk => ?_
  · exact hkeys k (AList.lookup_isSome.2 (AList.mem_keys.2 (List.mem_toFinset.1 hk)))
  · have hnone : t.lookup k = none :=
      AList.lookup_eq_none.2 fun hmem => hk (List.mem_toFinset.2 (AList.mem_keys.1 hmem))
    rw [hnone]
    rfl

/-! ## Inverse tables -/

/-- The tables `t` and `u` are inverse to each other. -/
def Inverse [DecidableEq V] (t : Table K V) (u : Table V K) : Prop :=
  ∀ k v, t.lookup k = some v ↔ u.lookup v = some k

variable [DecidableEq V] {t : Table K V} {u : Table V K}

/-- A table with an inverse is injective. -/
theorem Inverse.injective (h : Inverse t u) {k k' : K} {v : V} (hk : t.lookup k = some v)
    (hk' : t.lookup k' = some v) : k = k' :=
  Option.some.inj (((h k v).1 hk).symm.trans ((h k' v).1 hk'))

/-- Two tables stay inverse when a new key is bound to a new value. -/
theorem Inverse.insert (h : Inverse t u) {k : K} {v : V} (hk : t.lookup k = none)
    (hv : u.lookup v = none) : Inverse (t.insert k v) (u.insert v k) := by
  intro k' v'
  rw [lookup_insert_eq, lookup_insert_eq]
  split <;> split <;> rename_i h₁ h₂
  · rw [h₁, h₂]
    simp
  · rw [h₁, ← h k v', hk]
    simpa using Ne.symm h₂
  · rw [h₂, h k' v, hv]
    simpa using Ne.symm h₁
  · exact h k' v'

end Table
