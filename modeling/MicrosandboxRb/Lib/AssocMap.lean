import Mathlib.Data.List.AList

/-!
# Association lists with one value type

`AList` with a constant family of values, together with the list of values and the map that
changes every value. An update at a key splits the list of values into the value at the key and
the others.
-/

/-- A finite map from `κ` to `ν`. -/
abbrev AssocMap (κ ν : Type) := AList fun _ : κ => ν

namespace AList

variable {κ ν μ : Type}

/-- The values of a map, in the order of its entries. -/
def vals (m : AssocMap κ ν) : List ν := m.entries.map Sigma.snd

/-- Apply `f` to every value. -/
def mapVals (f : ν → μ) (m : AssocMap κ ν) : AssocMap κ μ where
  entries := m.entries.map (Sigma.map id fun _ => f)
  nodupKeys := List.NodupKeys.map₂ (fun _ => f) m.entries m.nodupKeys

@[simp] theorem vals_empty : vals (∅ : AssocMap κ ν) = [] := rfl

/-- There is one value for each key. -/
theorem length_vals (m : AssocMap κ ν) : m.vals.length = m.keys.length := by
  simp [vals, AList.keys, List.keys]

@[simp] theorem keys_mapVals (f : ν → μ) (m : AssocMap κ ν) : (mapVals f m).keys = m.keys :=
  List.map₂_keys (fun _ => f) m.entries

@[simp] theorem vals_mapVals (f : ν → μ) (m : AssocMap κ ν) :
    (mapVals f m).vals = m.vals.map f := by
  rw [vals, vals, mapVals, List.map_map, List.map_map]
  rfl

/-- Only the empty map has no key. -/
theorem keys_eq_nil_iff {m : AssocMap κ ν} : m.keys = [] ↔ m = ∅ := by
  constructor
  · intro h
    exact AList.ext (List.map_eq_nil_iff.mp h)
  · rintro rfl
    rfl

section Lookup

variable [DecidableEq κ]

/-- A lookup after a map over the values. -/
@[simp] theorem lookup_mapVals (f : ν → μ) (m : AssocMap κ ν) (k : κ) :
    (mapVals f m).lookup k = (m.lookup k).map f :=
  List.dlookup_map₂ (f := fun _ => f) k

/-- A map with one key. -/
theorem lookup_singleton (k k' : κ) (v : ν) :
    (AList.singleton k v : AssocMap κ ν).lookup k' = if k' = k then some v else none := by
  by_cases hk : k' = k
  · rw [hk, if_pos rfl, ← AList.insert_empty, AList.lookup_insert]
  · rw [if_neg hk, ← AList.insert_empty, AList.lookup_insert_ne hk, AList.lookup_empty]

/-- A map with one key holds nothing under another. -/
theorem lookup_eq_none_of_keys_eq {m : AssocMap κ ν} {k₀ k : κ} (h : m.keys = [k₀])
    (hk : k ≠ k₀) : m.lookup k = none := by
  rw [AList.lookup_eq_none, AList.mem_keys, h, List.mem_singleton]
  exact hk

/-- The values are those that a lookup finds. -/
theorem mem_vals_iff {m : AssocMap κ ν} {v : ν} : v ∈ m.vals ↔ ∃ k, m.lookup k = some v := by
  constructor
  · intro h
    obtain ⟨⟨k, w⟩, hmem, rfl⟩ := List.mem_map.mp h
    exact ⟨k, List.mem_dlookup m.nodupKeys hmem⟩
  · rintro ⟨k, h⟩
    exact List.mem_map.mpr ⟨⟨k, v⟩, List.of_mem_dlookup h, rfl⟩

/-- The values before a removal are the removed value and the values after it. -/
theorem vals_perm_of_lookup {m : AssocMap κ ν} {k : κ} {v : ν} (h : m.lookup k = some v) :
    m.vals.Perm (v :: (m.erase k).vals) := by
  obtain ⟨entries, hnodup⟩ := m
  change List.dlookup k entries = some v at h
  change (entries.map Sigma.snd).Perm (v :: (List.kerase k entries).map Sigma.snd)
  induction entries with
  | nil => simp at h
  | cons e es ih =>
    obtain ⟨k', w⟩ := e
    by_cases hk : k = k'
    · subst hk
      rw [List.dlookup_cons_eq] at h
      obtain rfl := Option.some.inj h
      simp [List.kerase]
    · have h' : List.dlookup k es = some v := by rwa [List.dlookup_cons_ne _ _ hk] at h
      have hperm := ih (List.nodupKeys_of_nodupKeys_cons hnodup) h'
      simp only [List.kerase, List.eraseP_cons, hk, decide_false, cond_false, List.map_cons]
      exact (hperm.cons w).trans (List.Perm.swap _ _ _)

/-! ### Keys that have been set -/

/-- `m'` holds what has been added for a key, and else what `m` holds. -/
def Adds (added : κ → Option ν) (m m' : AssocMap κ ν) : Prop :=
  ∀ k, m'.lookup k = (added k).or (m.lookup k)

/-- One key. -/
def atKey (k : κ) (v : Option ν) (k' : κ) : Option ν := if k' = k then v else none

/-- Nothing has been added. -/
theorem adds_nothing (m : AssocMap κ ν) : Adds (fun _ => none) m m := by
  intro k
  rw [Option.none_or]

/-- An insertion adds one key. -/
theorem adds_insert (m : AssocMap κ ν) (k : κ) (v : ν) : Adds (atKey k (some v)) m (m.insert k v) := by
  intro k'
  by_cases hk : k' = k
  · subst hk
    rw [AList.lookup_insert, atKey, if_pos rfl, Option.some_or]
  · rw [AList.lookup_insert_ne hk, atKey, if_neg hk, Option.none_or]

/-- What is added later prevails. -/
theorem Adds.trans {f g : κ → Option ν} {m m' m'' : AssocMap κ ν} (h : Adds f m m')
    (h' : Adds g m' m'') : Adds (fun k => (g k).or (f k)) m m'' := by
  intro k
  rw [h' k, h k, Option.or_assoc]

end Lookup

end AList
