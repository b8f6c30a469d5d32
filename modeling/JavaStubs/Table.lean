/-!
# Tables

A table holds values under distinct keys, in the order in which the keys were first used. Putting a
value under a key that is taken replaces the old value in its place. All that is said of a table is
said through `get?`: `get?_put` and `get?_erase` describe the two operations completely.
-/
namespace JavaStubs

universe u v

/-- Values under distinct keys. -/
structure Table (κ : Type u) (ν : Type v) where
  entries : List (κ × ν)
  distinct : (entries.map Prod.fst).Nodup

namespace Table

variable {κ : Type u} {ν : Type v} [DecidableEq κ]

/-- The table without keys. -/
def empty : Table κ ν := ⟨[], by simp⟩

instance : Inhabited (Table κ ν) := ⟨empty⟩

/-- The value under a key. -/
def get? (table : Table κ ν) (key : κ) : Option ν :=
  table.entries.lookup key

/-- The keys, in the order of their first use. -/
def keys (table : Table κ ν) : List κ := table.entries.map Prod.fst

/-- The number of keys. -/
def size (table : Table κ ν) : Nat := table.entries.length

/-- Entries with the value under the key replaced, or with the pair at their end. -/
def putEntry (key : κ) (value : ν) : List (κ × ν) → List (κ × ν)
  | [] => [(key, value)]
  | entry :: rest =>
    if entry.1 = key then (key, value) :: rest else entry :: putEntry key value rest

theorem mem_keys_putEntry {key : κ} {value : ν} {entries : List (κ × ν)} {other : κ} :
    other ∈ (putEntry key value entries).map Prod.fst ↔
      other = key ∨ other ∈ entries.map Prod.fst := by
  induction entries with
  | nil => simp [putEntry]
  | cons entry rest ih =>
    by_cases h : entry.1 = key
    · subst h
      simp [putEntry]
    · simp only [putEntry, if_neg h, List.map_cons, List.mem_cons, ih]
      constructor
      · rintro (h | h | h) <;> simp [h]
      · rintro (h | h | h) <;> simp [h]

theorem distinct_putEntry (key : κ) (value : ν) {entries : List (κ × ν)}
    (h : (entries.map Prod.fst).Nodup) : ((putEntry key value entries).map Prod.fst).Nodup := by
  induction entries with
  | nil => simp [putEntry]
  | cons entry rest ih =>
    rw [List.map_cons, List.nodup_cons] at h
    by_cases hk : entry.1 = key
    · subst hk
      simp only [putEntry, if_pos, List.map_cons, List.nodup_cons]
      exact h
    · simp only [putEntry, if_neg hk, List.map_cons, List.nodup_cons]
      refine ⟨fun hm => ?_, ih h.2⟩
      rcases mem_keys_putEntry.mp hm with h' | h'
      · exact hk h'
      · exact h.1 h'

/-- Puts a value under a key. -/
def put (table : Table κ ν) (key : κ) (value : ν) : Table κ ν :=
  ⟨putEntry key value table.entries, distinct_putEntry key value table.distinct⟩

/-- Takes a key out of the table. -/
def erase (table : Table κ ν) (key : κ) : Table κ ν :=
  ⟨table.entries.filter fun entry => entry.1 ≠ key,
    List.Nodup.sublist (List.Sublist.map Prod.fst List.filter_sublist) table.distinct⟩

@[simp] theorem get?_empty (key : κ) : (empty : Table κ ν).get? key = none := rfl

theorem lookup_putEntry (key : κ) (value : ν) (entries : List (κ × ν)) (other : κ) :
    (putEntry key value entries).lookup other =
      if other = key then some value else entries.lookup other := by
  induction entries with
  | nil =>
    by_cases h : other = key
    · simp [putEntry, h]
    · simp [putEntry, List.lookup_cons, beq_eq_false_iff_ne.mpr h, h]
  | cons entry rest ih =>
    obtain ⟨first, known⟩ := entry
    by_cases he : first = key
    · subst he
      by_cases hk : other = first
      · subst hk
        simp [putEntry]
      · simp [putEntry, List.lookup_cons, beq_eq_false_iff_ne.mpr hk, hk]
    · by_cases hk : other = first
      · subst hk
        simp [putEntry, he]
      · simp only [putEntry, if_neg he, List.lookup_cons, beq_eq_false_iff_ne.mpr hk, ih]

theorem get?_put (table : Table κ ν) (key : κ) (value : ν) (other : κ) :
    (table.put key value).get? other = if other = key then some value else table.get? other :=
  lookup_putEntry key value table.entries other

theorem lookup_filter_ne (key other : κ) (entries : List (κ × ν)) :
    (entries.filter fun entry => entry.1 ≠ key).lookup other =
      if other = key then none else entries.lookup other := by
  induction entries with
  | nil => simp
  | cons entry rest ih =>
    obtain ⟨first, known⟩ := entry
    by_cases he : first = key
    · subst he
      by_cases hk : other = first
      · subst hk
        simpa using ih
      · simp_all [List.lookup_cons, beq_eq_false_iff_ne.mpr hk]
    · by_cases hk : other = first
      · subst hk
        simp [he]
      · simp_all [List.lookup_cons, beq_eq_false_iff_ne.mpr hk]

theorem get?_erase (table : Table κ ν) (key other : κ) :
    (table.erase key).get? other = if other = key then none else table.get? other :=
  lookup_filter_ne key other table.entries

theorem putEntry_putEntry (key : κ) (first second : ν) (entries : List (κ × ν)) :
    putEntry key second (putEntry key first entries) = putEntry key second entries := by
  induction entries with
  | nil => simp [putEntry]
  | cons entry rest ih =>
    by_cases h : entry.1 = key
    · simp [putEntry, h]
    · simp [putEntry, h, ih]

theorem put_put (table : Table κ ν) (key : κ) (first second : ν) :
    (table.put key first).put key second = table.put key second := by
  simp [put, putEntry_putEntry]

theorem mem_keys_iff {table : Table κ ν} {key : κ} :
    key ∈ table.keys ↔ (table.get? key).isSome = true := by
  simp only [keys, get?, List.lookup_isSome_iff, List.mem_map, beq_iff_eq, @eq_comm _ key]

end Table

end JavaStubs
