import ModuleLoader.OrderedMap
import Mathlib.Data.List.Forall2

/-! Ordered maps of lists of entries: their keys are the distinct keys of the list in the order of
their first occurrence. -/

namespace ModuleLoader.OrderedMap

variable {α : Type}

theorem keys_insertAll (m : OrderedMap α) (entries : List (String × α)) :
    (m.insertAll entries).keys =
      m.keys ++ ((entries.map Prod.fst).filter (· ∉ m.keys)).eraseDups := by
  induction entries generalizing m with
  | nil => simp [insertAll]
  | cons entry rest ih =>
    have hStep : m.insertAll (entry :: rest) = (m.insert entry.1 entry.2).insertAll rest := rfl
    rw [hStep, ih, keys_insert, List.map_cons]
    by_cases hKey : entry.1 ∈ m.keys
    · simp [hKey]
    · simp only [hKey, if_false, not_false_eq_true, decide_true, List.filter_cons_of_pos,
        List.eraseDups_cons, List.filter_filter, List.append_assoc, List.singleton_append]
      congr 4
      funext key
      by_cases h : key = entry.1 <;> simp [h, List.mem_append]

theorem keys_insertAll_of_subset {m : OrderedMap α} {entries : List (String × α)}
    (h : ∀ entry ∈ entries, entry.1 ∈ m.keys) : (m.insertAll entries).keys = m.keys := by
  have hNone : (entries.map Prod.fst).filter (· ∉ m.keys) = [] := by simpa using h
  rw [keys_insertAll, hNone, List.eraseDups_nil, List.append_nil]

theorem keys_ofList (entries : List (String × α)) :
    (ofList entries).keys = (entries.map Prod.fst).eraseDups := by
  rw [ofList, keys_insertAll, keys_empty, List.nil_append, List.filter_eq_self.2]
  simp

theorem insertEntry_of_not_mem {key : String} {entries : List (String × α)}
    (h : key ∉ entries.map Prod.fst) (value : α) :
    insertEntry key value entries = entries ++ [(key, value)] := by
  induction entries with
  | nil => rfl
  | cons entry rest ih =>
    rw [List.map_cons, List.mem_cons, not_or] at h
    rw [insertEntry, if_neg (Ne.symm h.1), ih h.2, List.cons_append]

theorem entries_insertAll {m : OrderedMap α} {entries : List (String × α)}
    (h : (m.keys ++ entries.map Prod.fst).Nodup) :
    (m.insertAll entries).entries = m.entries ++ entries := by
  induction entries generalizing m with
  | nil => simp [insertAll]
  | cons entry rest ih =>
    have hStep : m.insertAll (entry :: rest) = (m.insert entry.1 entry.2).insertAll rest := rfl
    have hKey : entry.1 ∉ m.keys := by
      intro hKey
      exact (List.nodup_append.1 h).2.2 _ hKey entry.1 (by simp) rfl
    have hInsert : (m.insert entry.1 entry.2).entries = m.entries ++ [entry] :=
      insertEntry_of_not_mem hKey entry.2
    rw [hStep, ih, hInsert, List.append_assoc, List.singleton_append]
    rw [keys_insert, if_neg hKey]
    simpa using h

theorem entries_ofList {entries : List (String × α)} (h : (entries.map Prod.fst).Nodup) :
    (ofList entries).entries = entries :=
  entries_insertAll (by simpa using h)

/-- The entries of a map give the map back. -/
@[simp] theorem ofList_entries (m : OrderedMap α) : ofList m.entries = m :=
  OrderedMap.ext (entries_ofList m.distinct)

theorem map_fst_eq {β : Type} {R : String × α → String × β → Prop} {entries : List (String × α)}
    {given : List (String × β)}
    (h : List.Forall₂ (fun entry given => given.1 = entry.1 ∧ R entry given) entries given) :
    given.map Prod.fst = entries.map Prod.fst := by
  induction h with
  | nil => rfl
  | cons hHead _ ih => rw [List.map_cons, List.map_cons, hHead.1, ih]

/-- What is given for each entry of a table is in the order of the table. -/
theorem entries_ofList_of_forall₂ {β : Type} {R : String × α → String × β → Prop}
    {table : OrderedMap α} {given : List (String × β)}
    (h : List.Forall₂ (fun entry given => given.1 = entry.1 ∧ R entry given) table.entries given) :
    (ofList given).entries = given :=
  entries_ofList ((map_fst_eq h).symm ▸ table.distinct)

theorem contains_eq (m : OrderedMap α) (key : String) : m.contains key = decide (key ∈ m.keys) := by
  unfold contains get? keys
  induction m.entries with
  | nil => rfl
  | cons entry rest ih =>
    obtain ⟨k, v⟩ := entry
    by_cases h : key = k
    · simp [h]
    · simp [List.lookup_cons, h, beq_false_of_ne h, ih]

/-- The last value that is inserted at a key counts. -/
theorem get?_insertAll (m : OrderedMap α) (entries : List (String × α)) (key : String) :
    (m.insertAll entries).get? key = (entries.reverse.lookup key).or (m.get? key) := by
  induction entries generalizing m with
  | nil => rfl
  | cons entry rest ih =>
    obtain ⟨k, v⟩ := entry
    have hStep : m.insertAll ((k, v) :: rest) = (m.insert k v).insertAll rest := rfl
    rw [hStep, ih, get?_insert, List.reverse_cons, List.lookup_append, Option.or_assoc]
    by_cases h : key = k
    · simp [h]
    · simp [List.lookup_cons, h, beq_false_of_ne h]

theorem lookup_of_mem {entries : List (String × α)} (h : (entries.map Prod.fst).Nodup)
    {key : String} {value : α} (hMem : (key, value) ∈ entries) :
    entries.lookup key = some value := by
  induction entries with
  | nil => cases hMem
  | cons entry rest ih =>
    obtain ⟨k, v⟩ := entry
    rw [List.map_cons, List.nodup_cons] at h
    rcases List.mem_cons.1 hMem with hHead | hRest
    · cases hHead
      simp
    · have hNe : key ≠ k := by
        rintro rfl
        exact h.1 (List.mem_map.2 ⟨_, hRest, rfl⟩)
      simpa [List.lookup_cons, beq_false_of_ne hNe] using ih h.2 hRest

theorem mem_of_lookup {entries : List (String × α)} {key : String} {value : α}
    (h : entries.lookup key = some value) : (key, value) ∈ entries := by
  obtain ⟨before, behind, rfl, -⟩ := List.lookup_eq_some_iff.1 h
  simp

theorem lookup_eq_none {entries : List (String × α)} {key : String}
    (h : key ∉ entries.map Prod.fst) : entries.lookup key = none := by
  refine List.lookup_eq_none_iff.2 fun entry hEntry => ?_
  have hNe : key ≠ entry.1 := fun hKey => h (hKey ▸ List.mem_map_of_mem hEntry)
  simpa using hNe

/-- Entries with distinct keys may be searched from the end. -/
theorem lookup_reverse {entries : List (String × α)} (h : (entries.map Prod.fst).Nodup)
    (key : String) : entries.reverse.lookup key = entries.lookup key := by
  have hReverse : (entries.reverse.map Prod.fst).Nodup := 
    ((List.reverse_perm entries).map Prod.fst).nodup_iff.2 h
  ext value
  constructor
  · intro hValue
    exact lookup_of_mem h (List.mem_reverse.1 (mem_of_lookup hValue))
  · intro hValue
    exact lookup_of_mem hReverse (List.mem_reverse.2 (mem_of_lookup hValue))

theorem lookup_map {β : Type} (f : String → α → β) (entries : List (String × α)) (key : String) :
    (entries.map fun entry => (entry.1, f entry.1 entry.2)).lookup key =
      (entries.lookup key).map (f key) := by
  induction entries with
  | nil => rfl
  | cons entry rest ih =>
    obtain ⟨k, v⟩ := entry
    by_cases hKey : key = k
    · simp [hKey]
    · simp [List.lookup_cons, beq_false_of_ne hKey, ih]

theorem lookup_filter {p : String → Bool} {key : String} (h : p key)
    (entries : List (String × α)) :
    (entries.filter fun entry => p entry.1).lookup key = entries.lookup key := by
  induction entries with
  | nil => rfl
  | cons entry rest ih =>
    obtain ⟨k, v⟩ := entry
    by_cases hKey : key = k
    · subst hKey
      simp [h]
    · by_cases hp : p k <;> simp [hp, List.lookup_cons, beq_false_of_ne hKey, ih]

/-- A map is given by its keys and the values at them. -/
theorem entries_eq_filterMap (m : OrderedMap α) :
    m.entries = m.keys.filterMap fun key => (m.get? key).map (key, ·) := by
  have hEntry : ∀ entry ∈ m.entries, (m.get? entry.1).map (entry.1, ·) = some entry := by
    intro entry hEntry
    rw [get?, lookup_of_mem m.distinct hEntry]
    rfl
  rw [keys, List.filterMap_map]
  exact ((List.filterMap_congr hEntry).trans List.filterMap_some).symm

theorem entries_eq_map {m : OrderedMap α} {value : String → α}
    (hValue : ∀ key ∈ m.keys, m.get? key = some (value key)) :
    m.entries = m.keys.map fun key => (key, value key) := by
  rw [entries_eq_filterMap, ← List.filterMap_eq_map]
  exact List.filterMap_congr fun key hKey => by rw [hValue key hKey]; rfl

theorem ext_of_get? {m m' : OrderedMap α} (hKeys : m.keys = m'.keys)
    (hGet : ∀ key ∈ m.keys, m.get? key = m'.get? key) : m = m' := by
  ext1
  rw [entries_eq_filterMap, entries_eq_filterMap, ← hKeys]
  exact List.filterMap_congr fun key hKey => by rw [hGet key hKey]

theorem contains_ofList {entries : List (String × α)} {key : String}
    (h : key ∈ entries.map Prod.fst) : (ofList entries).contains key := by
  rw [contains_eq, keys_ofList]
  simpa [List.mem_eraseDups] using h

theorem mem_entries_insertEntry {key : String} {value : α} {entries : List (String × α)}
    {entry : String × α} (h : entry ∈ insertEntry key value entries) :
    entry = (key, value) ∨ entry ∈ entries := by
  induction entries with
  | nil => exact .inl (by simpa [insertEntry] using h)
  | cons first rest ih =>
    obtain ⟨k, v⟩ := first
    unfold insertEntry at h
    split at h
    · next hk =>
      subst hk
      rcases List.mem_cons.1 h with rfl | hRest
      · exact .inl rfl
      · exact .inr (List.mem_cons_of_mem _ hRest)
    · rcases List.mem_cons.1 h with rfl | hRest
      · exact .inr List.mem_cons_self
      · exact (ih hRest).imp_right (List.mem_cons_of_mem _)

theorem mem_entries_insertAll {m : OrderedMap α} {entries : List (String × α)}
    {entry : String × α} (h : entry ∈ (m.insertAll entries).entries) :
    entry ∈ m.entries ∨ entry ∈ entries := by
  induction entries generalizing m with
  | nil => exact .inl h
  | cons first rest ih =>
    rcases ih (m := m.insert first.1 first.2) h with hInsert | hRest
    · rcases mem_entries_insertEntry hInsert with rfl | hOld
      · exact .inr List.mem_cons_self
      · exact .inl hOld
    · exact .inr (List.mem_cons_of_mem _ hRest)

theorem mem_of_mem_entries_ofList {entries : List (String × α)} {entry : String × α}
    (h : entry ∈ (ofList entries).entries) : entry ∈ entries :=
  (mem_entries_insertAll h).resolve_left (by simp [empty])

end ModuleLoader.OrderedMap
