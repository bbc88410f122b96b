/-!
# Finite maps that remember the order of their keys

An `OrderedMap κ α` is a list of entries with pairwise distinct keys.  The order
of the entries is the order in which the keys were first inserted: inserting a
value under a key that is already present replaces the value and leaves the
entry where it is.

That order is part of what this library answers (the fields of a printed type,
the members of a class), so it is part of the type.  Everything else is the
theory of partial functions: `get?_insert` says that an insertion changes the
value of one key, and `keys_insert` says what it does to the order.
-/

namespace ShapeFlow

universe u v w

/-- A finite map from `κ` to `α` whose entries stand in the order in which their
keys were first inserted. -/
structure OrderedMap (κ : Type u) (α : Type v) where
  /-- The entries, oldest key first. -/
  entries : List (κ × α)
  /-- No key has two entries. -/
  nodup_keys : (entries.map Prod.fst).Nodup

namespace OrderedMap

variable {κ : Type u} {α : Type v} {β : Type w}

instance [DecidableEq κ] [DecidableEq α] : DecidableEq (OrderedMap κ α) := fun left right =>
  decidable_of_iff (left.entries = right.entries) (by cases left; cases right; simp)

/-- The map without entries. -/
def empty : OrderedMap κ α where
  entries := []
  nodup_keys := List.nodup_nil

instance : EmptyCollection (OrderedMap κ α) := ⟨empty⟩

instance : Inhabited (OrderedMap κ α) := ⟨empty⟩

/-- The keys, in the order in which they were first inserted. -/
def keys (map : OrderedMap κ α) : List κ := map.entries.map Prod.fst

/-- The values, in the order of their keys. -/
def values (map : OrderedMap κ α) : List α := map.entries.map Prod.snd

/-- The number of entries. -/
def size (map : OrderedMap κ α) : Nat := map.entries.length

/-- Whether there is no entry at all. -/
def isEmpty (map : OrderedMap κ α) : Bool := map.entries.isEmpty

/-! ## Look-up -/

section Lookup

variable [DecidableEq κ]

/-- The value under `key` in a list of entries. -/
def valueAt (key : κ) : List (κ × α) → Option α
  | [] => none
  | entry :: rest => if entry.1 = key then some entry.2 else valueAt key rest

/-- The value under `key`, if the key is present. -/
def get? (map : OrderedMap κ α) (key : κ) : Option α := valueAt key map.entries

/-- Whether `key` is present. -/
def contains (map : OrderedMap κ α) (key : κ) : Bool := (map.get? key).isSome

/-- A look-up in a list of entries fails exactly when the key is not among them. -/
theorem valueAt_eq_none_iff (key : κ) (entries : List (κ × α)) :
    valueAt key entries = none ↔ key ∉ entries.map Prod.fst := by
  induction entries with
  | nil => simp [valueAt]
  | cons entry rest ih =>
    by_cases hkey : entry.1 = key
    · simp [valueAt, hkey]
    · have hkey' : ¬ key = entry.1 := fun h => hkey h.symm
      rw [valueAt, if_neg hkey, ih]
      simp [hkey']

/-- A key is absent exactly when it is not listed. -/
theorem get?_eq_none_iff (map : OrderedMap κ α) (key : κ) :
    map.get? key = none ↔ key ∉ map.keys :=
  valueAt_eq_none_iff key map.entries

/-- A key is present exactly when it is listed. -/
theorem contains_iff_mem_keys (map : OrderedMap κ α) (key : κ) :
    map.contains key = true ↔ key ∈ map.keys := by
  rw [contains, Option.isSome_iff_ne_none, ne_eq, get?_eq_none_iff, Decidable.not_not]

@[simp] theorem get?_empty (key : κ) : (empty : OrderedMap κ α).get? key = none := rfl

end Lookup

/-! ## Insertion -/

section Insertion

variable [DecidableEq κ]

/-- Put `value` under `key` in a list of entries: in place when the key is there,
at the end when it is not. -/
def insertEntry (key : κ) (value : α) : List (κ × α) → List (κ × α)
  | [] => [(key, value)]
  | entry :: rest =>
    if entry.1 = key then (key, value) :: rest else entry :: insertEntry key value rest

/-- An insertion lists the key once more only when it was not listed. -/
theorem map_fst_insertEntry (key : κ) (value : α) (entries : List (κ × α)) :
    (insertEntry key value entries).map Prod.fst =
      if key ∈ entries.map Prod.fst then entries.map Prod.fst
      else entries.map Prod.fst ++ [key] := by
  induction entries with
  | nil => simp [insertEntry]
  | cons entry rest ih =>
    obtain ⟨first, old⟩ := entry
    by_cases hkey : first = key
    · simp [insertEntry, hkey]
    · have hkey' : ¬ key = first := fun h => hkey h.symm
      by_cases hmem : key ∈ rest.map Prod.fst
      · rw [if_pos hmem] at ih
        rw [if_pos (by simpa using Or.inr (by simpa using hmem))]
        simp [insertEntry, hkey, ih]
      · rw [if_neg hmem] at ih
        rw [if_neg (by simpa [hkey'] using hmem)]
        simp [insertEntry, hkey, ih]

/-- After an insertion the key has the new value and every other key its old one. -/
theorem valueAt_insertEntry (key : κ) (value : α) (entries : List (κ × α)) (other : κ) :
    valueAt other (insertEntry key value entries) =
      if other = key then some value else valueAt other entries := by
  induction entries with
  | nil => simp [insertEntry, valueAt, eq_comm]
  | cons entry rest ih =>
    obtain ⟨first, old⟩ := entry
    by_cases hkey : first = key
    · subst hkey
      by_cases hother : first = other
      · simp [insertEntry, valueAt, hother]
      · have hother' : ¬ other = first := fun h => hother h.symm
        simp [insertEntry, valueAt, hother, hother']
    · by_cases hfirst : first = other
      · have hother : ¬ other = key := fun h => hkey (hfirst.trans h)
        simp [insertEntry, valueAt, hfirst, hother]
      · simp [insertEntry, valueAt, hkey, hfirst, ih]

/-- Bind `key` to `value`.  A key that is present keeps its place. -/
def insert (map : OrderedMap κ α) (key : κ) (value : α) : OrderedMap κ α where
  entries := insertEntry key value map.entries
  nodup_keys := by
    rw [map_fst_insertEntry]
    split
    · exact map.nodup_keys
    · rename_i hmem
      rw [List.nodup_append]
      refine ⟨map.nodup_keys, by simp, fun first hfirst second hsecond => ?_⟩
      rintro rfl
      exact hmem (by simpa [List.mem_singleton.mp hsecond] using hfirst)

/-- An insertion changes the value of its key and of no other. -/
@[simp] theorem get?_insert (map : OrderedMap κ α) (key : κ) (value : α) (other : κ) :
    (map.insert key value).get? other = if other = key then some value else map.get? other :=
  valueAt_insertEntry key value map.entries other

/-- An insertion keeps the listed keys in their order and lists a new key last. -/
theorem keys_insert (map : OrderedMap κ α) (key : κ) (value : α) :
    (map.insert key value).keys = if key ∈ map.keys then map.keys else map.keys ++ [key] :=
  map_fst_insertEntry key value map.entries

/-- Insert the given entries one after the other. -/
def insertAll (map : OrderedMap κ α) (entries : List (κ × α)) : OrderedMap κ α :=
  entries.foldl (fun result entry => result.insert entry.1 entry.2) map

/-- The map that results from inserting the given entries in order.  Of several
entries with one key the first gives the place and the last gives the value. -/
def ofList (entries : List (κ × α)) : OrderedMap κ α := empty.insertAll entries

end Insertion

/-! ## Mapping the values -/

/-- Replace every value by its image; the keys and their order stay. -/
def mapValues (f : α → β) (map : OrderedMap κ α) : OrderedMap κ β where
  entries := map.entries.map fun entry => (entry.1, f entry.2)
  nodup_keys := by
    have hkeys : (map.entries.map fun entry => (entry.1, f entry.2)).map Prod.fst =
        map.entries.map Prod.fst := by simp [Function.comp_def]
    rw [hkeys]
    exact map.nodup_keys

@[simp] theorem keys_mapValues (f : α → β) (map : OrderedMap κ α) :
    (map.mapValues f).keys = map.keys := by
  simp [keys, mapValues, Function.comp_def]

/-- Looking up in the image is the image of the look-up. -/
@[simp] theorem get?_mapValues [DecidableEq κ] (f : α → β) (map : OrderedMap κ α) (key : κ) :
    (map.mapValues f).get? key = (map.get? key).map f := by
  obtain ⟨entries, hnodup⟩ := map
  simp only [get?, mapValues]
  clear hnodup
  induction entries with
  | nil => rfl
  | cons entry rest ih =>
    by_cases hkey : entry.1 = key
    · simp [valueAt, hkey]
    · simp [valueAt, hkey, ih]

end OrderedMap

end ShapeFlow
