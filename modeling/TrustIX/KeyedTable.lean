/-
# Tables with keys

Finite maps as association lists with one entry for each key, with their size, with an update
of all entries that may drop some of them, and with lists of entries written one after the other.

* `lookup_update`, `size_update_le` : what an update does;
* `lookup_write`, `mem_write` : what a list of writes leaves;
* `mem_of_size_le` : a table that has all the keys of one that is not smaller has no others.
-/
import Mathlib

/-- A table: at most one value for each key. -/
abbrev Table (K V : Type) := AList fun _ : K => V

namespace Table

variable {K V : Type} [DecidableEq K] {t u : Table K V} {k k' : K} {v : V}

/-- The number of entries. -/
def size (t : Table K V) : ℕ := t.keys.length

omit [DecidableEq K] in
@[simp] theorem size_empty : size (∅ : Table K V) = 0 := rfl

theorem lookup_insert_eq (k' : K) (v : V) (t : Table K V) (k : K) :
    (AList.insert k' v t).lookup k = if k = k' then some v else t.lookup k := by
  split_ifs with h
  · subst h
    exact AList.lookup_insert t
  · exact AList.lookup_insert_ne h

theorem lookup_erase_eq (k' : K) (t : Table K V) (k : K) :
    (AList.erase k' t).lookup k = if k = k' then none else t.lookup k := by
  split_ifs with h
  · subst h
    exact AList.lookup_erase k t
  · exact AList.lookup_erase_ne h

theorem mem_of_lookup (h : t.lookup k = some v) : k ∈ t := AList.lookup_isSome.mp (by rw [h]; rfl)

theorem exists_of_mem (h : k ∈ t) : ∃ v, t.lookup k = some v :=
  Option.isSome_iff_exists.mp (AList.lookup_isSome.mpr h)

theorem size_insert_of_mem (h : k ∈ t) : size (AList.insert k v t) = size t := by
  have hpos := List.length_pos_of_mem (AList.mem_keys.mp h)
  rw [size, AList.keys_insert, List.length_cons, List.length_erase_of_mem (AList.mem_keys.mp h), size]
  omega

theorem size_insert_of_not_mem (h : k ∉ t) : size (AList.insert k v t) = size t + 1 := by
  rw [size, AList.keys_insert, List.length_cons, List.erase_of_not_mem (mt AList.mem_keys.mpr h),
    size]

theorem size_insert_le : size (AList.insert k v t) ≤ size t + 1 := by
  by_cases h : k ∈ t
  · rw [size_insert_of_mem h]
    omega
  · rw [size_insert_of_not_mem h]

theorem size_erase_of_mem (h : k ∈ t) : size (AList.erase k t) = size t - 1 := by
  rw [size, AList.keys_erase, List.length_erase_of_mem (AList.mem_keys.mp h), size]

omit [DecidableEq K] in
theorem keys_subperm (h : ∀ k ∈ t, k ∈ u) : t.keys.Subperm u.keys :=
  List.subperm_of_subset (AList.keys_nodup t) fun k hk => AList.mem_keys.mp (h k (AList.mem_keys.mpr hk))

omit [DecidableEq K] in
theorem size_le_of_subset (h : ∀ k ∈ t, k ∈ u) : size t ≤ size u := (keys_subperm h).length_le

omit [DecidableEq K] in
theorem size_congr (h : ∀ k, k ∈ t ↔ k ∈ u) : size t = size u :=
  le_antisymm (size_le_of_subset fun k => (h k).mp) (size_le_of_subset fun k => (h k).mpr)

omit [DecidableEq K] in
/-- **A table that is not larger than a part of it** has no other keys. -/
theorem mem_of_size_le (h : ∀ k ∈ t, k ∈ u) (hsize : size u ≤ size t) : ∀ k ∈ u, k ∈ t := by
  intro k hk
  have hperm := (keys_subperm h).perm_of_length_le hsize
  exact AList.mem_keys.mpr (hperm.mem_iff.mpr (AList.mem_keys.mp hk))

/-! ## Updates -/

/-- The entry after an update, if it is kept. -/
def updateEntry (f : K → V → Option V) (e : (_ : K) × V) : Option ((_ : K) × V) :=
  (f e.1 e.2).map fun v => ⟨e.1, v⟩

omit [DecidableEq K] in
theorem keys_filterMap_sublist (f : K → V → Option V) (entries : List ((_ : K) × V)) :
    (entries.filterMap (updateEntry f)).keys.Sublist entries.keys := by
  induction entries with
  | nil => exact .slnil
  | cons e rest ih =>
    rw [List.filterMap_cons, updateEntry]
    cases f e.1 e.2 with
    | none => exact ih.cons _
    | some v => exact ih.cons_cons _

/-- Every entry is replaced or dropped. -/
def update (f : K → V → Option V) (t : Table K V) : Table K V :=
  ⟨t.entries.filterMap (updateEntry f), (keys_filterMap_sublist f t.entries).nodup t.nodupKeys⟩

theorem lookup_update (f : K → V → Option V) (t : Table K V) (k : K) :
    (t.update f).lookup k = (t.lookup k).bind (f k) := by
  ext v
  rw [← Option.mem_def, AList.mem_lookup_iff, ← Option.mem_def, Option.mem_def,
    Option.bind_eq_some_iff]
  show _ ∈ t.entries.filterMap _ ↔ _
  rw [List.mem_filterMap]
  constructor
  · rintro ⟨⟨k', old⟩, hmem, hmap⟩
    obtain ⟨new, hnew, heq⟩ := Option.map_eq_some_iff.mp hmap
    cases heq
    exact ⟨old, AList.mem_lookup_iff.mpr hmem, hnew⟩
  · rintro ⟨old, hold, hnew⟩
    exact ⟨⟨k, old⟩, AList.mem_lookup_iff.mp hold, by simp [updateEntry, hnew]⟩

omit [DecidableEq K] in
theorem size_update_le (f : K → V → Option V) (t : Table K V) : size (t.update f) ≤ size t := by
  have hkeys : ∀ s : Table K V, size s = s.entries.length := fun s => List.length_map _
  rw [hkeys, hkeys]
  exact List.length_filterMap_le _ _

/-! ## Lists of writes -/

/-- The entries written one after the other. -/
def write (t : Table K V) (entries : List (K × V)) : Table K V :=
  entries.foldl (fun t e => AList.insert e.1 e.2 t) t

@[simp] theorem write_nil (t : Table K V) : t.write [] = t := rfl

@[simp] theorem write_cons (t : Table K V) (e : K × V) (entries : List (K × V)) :
    t.write (e :: entries) = write (AList.insert e.1 e.2 t) entries := rfl

/-- A key has the last value that was written for it, or the one that it had. -/
theorem lookup_write (t : Table K V) (entries : List (K × V)) (k : K) :
    (t.write entries).lookup k = ((write ∅ entries).lookup k).or (t.lookup k) := by
  induction entries generalizing t with
  | nil => simp
  | cons e entries ih =>
    rw [write_cons, write_cons, ih, ih (AList.insert e.1 e.2 ∅), Option.or_assoc]
    congr 1
    rw [lookup_insert_eq, lookup_insert_eq, AList.lookup_empty]
    split_ifs <;> rfl

theorem mem_write {entries : List (K × V)} :
    k ∈ t.write entries ↔ k ∈ t ∨ k ∈ entries.map Prod.fst := by
  induction entries generalizing t with
  | nil => simp
  | cons e entries ih =>
    rw [write_cons, ih, AList.mem_insert, List.map_cons, List.mem_cons]
    tauto

/-- The writes decide about all keys if they cover what was there. -/
theorem lookup_write_eq_iff {entries : List (K × V)} :
    (∀ k, (t.write entries).lookup k = (write ∅ entries).lookup k) ↔
      ∀ k ∈ t, k ∈ entries.map Prod.fst := by
  constructor
  · intro h k hk
    have hmem : k ∈ write ∅ entries := by
      rw [← AList.lookup_isSome, ← h k, AList.lookup_isSome]
      exact mem_write.mpr (.inl hk)
    exact (mem_write.mp hmem).resolve_left (AList.notMem_empty k)
  · intro h k
    rw [lookup_write]
    by_cases hk : k ∈ entries.map Prod.fst
    · obtain ⟨v, hv⟩ := exists_of_mem (mem_write.mpr (.inr hk))
      rw [hv]
      rfl
    · rw [AList.lookup_eq_none.mpr (mt (h k) hk), Option.or_none]

theorem size_le_write (t : Table K V) (entries : List (K × V)) : size t ≤ size (t.write entries) :=
  size_le_of_subset fun _ hk => mem_write.mpr (.inl hk)

theorem size_write_empty (entries : List (K × V)) :
    size (write ∅ entries) = (entries.map Prod.fst).dedup.length := by
  apply List.Perm.length_eq
  rw [List.perm_ext_iff_of_nodup (AList.keys_nodup _) (List.nodup_dedup _)]
  intro k
  rw [← AList.mem_keys, mem_write, List.mem_dedup]
  simp

end Table
