/-! Maps from strings that remember the order in which their keys were first inserted. -/

namespace ModuleLoader

/-- A map from strings, with its entries in the order in which their keys were first inserted. -/
@[ext]
structure OrderedMap (α : Type) where
  entries : List (String × α)
  distinct : (entries.map Prod.fst).Nodup

namespace OrderedMap

variable {α β : Type}

def empty : OrderedMap α := ⟨[], .nil⟩

instance : Inhabited (OrderedMap α) := ⟨empty⟩

def keys (m : OrderedMap α) : List String := m.entries.map Prod.fst

theorem nodup_keys (m : OrderedMap α) : m.keys.Nodup := m.distinct

/-- The values in the order of their keys. -/
def values (m : OrderedMap α) : List α := m.entries.map Prod.snd

def size (m : OrderedMap α) : Nat := m.entries.length

def get? (m : OrderedMap α) (key : String) : Option α := m.entries.lookup key

def contains (m : OrderedMap α) (key : String) : Bool := (m.get? key).isSome

/-- The entries with the value of `key` replaced, or with `key` at the end. -/
def insertEntry (key : String) (value : α) : List (String × α) → List (String × α)
  | [] => [(key, value)]
  | (k, v) :: rest =>
    if k = key then (k, value) :: rest else (k, v) :: insertEntry key value rest

theorem map_fst_insertEntry (entries : List (String × α)) (key : String) (value : α) :
    (insertEntry key value entries).map Prod.fst =
      if key ∈ entries.map Prod.fst then entries.map Prod.fst
      else entries.map Prod.fst ++ [key] := by
  induction entries with
  | nil => simp [insertEntry]
  | cons entry rest ih =>
    obtain ⟨k, v⟩ := entry
    by_cases hk : k = key
    · simp [insertEntry, hk]
    · by_cases hm : key ∈ rest.map Prod.fst <;> simp_all [insertEntry, Ne.symm hk]

theorem nodup_insertEntry {entries : List (String × α)} (h : (entries.map Prod.fst).Nodup)
    (key : String) (value : α) : ((insertEntry key value entries).map Prod.fst).Nodup := by
  rw [map_fst_insertEntry]
  split
  · exact h
  · next hm => exact List.nodup_append.2 ⟨h, by simp, by intro a ha b hb; simp at hb; grind⟩

/-- The map with `value` at `key`: an old key keeps its place, a new one comes last. -/
def insert (m : OrderedMap α) (key : String) (value : α) : OrderedMap α :=
  ⟨insertEntry key value m.entries, nodup_insertEntry m.distinct key value⟩

/-- The entries of the second list inserted one after another. -/
def insertAll (m : OrderedMap α) (entries : List (String × α)) : OrderedMap α :=
  entries.foldl (fun m entry => m.insert entry.1 entry.2) m

/-- The map of a list of entries: a repeated key keeps its first place and takes its last value. -/
def ofList (entries : List (String × α)) : OrderedMap α := empty.insertAll entries

@[simp] theorem keys_empty : (empty : OrderedMap α).keys = [] := rfl

@[simp] theorem get?_empty (key : String) : (empty : OrderedMap α).get? key = none := rfl

theorem lookup_insertEntry (entries : List (String × α)) (key other : String) (value : α) :
    (insertEntry key value entries).lookup other =
      if other = key then some value else entries.lookup other := by
  induction entries with
  | nil => by_cases h : other = key <;> simp [insertEntry, List.lookup_cons, h, beq_false_of_ne]
  | cons entry rest ih =>
    obtain ⟨k, v⟩ := entry
    by_cases hk : k = key
    · by_cases h : other = key <;> simp_all [insertEntry, List.lookup_cons, beq_false_of_ne]
    · by_cases h : other = k <;> simp_all [insertEntry, List.lookup_cons, beq_false_of_ne]

/-- The inserted key has the inserted value and every other key keeps its own. -/
theorem get?_insert (m : OrderedMap α) (key other : String) (value : α) :
    (m.insert key value).get? other = if other = key then some value else m.get? other :=
  lookup_insertEntry m.entries key other value

/-- An old key keeps its place and a new one comes last. -/
theorem keys_insert (m : OrderedMap α) (key : String) (value : α) :
    (m.insert key value).keys = if key ∈ m.keys then m.keys else m.keys ++ [key] :=
  map_fst_insertEntry m.entries key value

end OrderedMap

end ModuleLoader
