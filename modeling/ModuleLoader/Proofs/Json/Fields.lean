import Mathlib.Data.String.Basic
import ModuleLoader.Json.Read
import ModuleLoader.Proofs.OrderedMap

/-! The objects that are read from documents have their fields in the order of the keys, and each
key once.  Fields that are sorted stay as they are, and those with distinct keys keep their
values. -/

namespace ModuleLoader.Json

variable {fields sorted : List (String × Json)} {key other : String} {value : Json}

/-- The fields are in the order of their keys, which are distinct. -/
def IsSorted (fields : List (String × Json)) : Prop := fields.Pairwise (·.1 < ·.1)

theorem mem_of_mem_insertField {field : String × Json} (h : field ∈ insertField key value fields) :
    field = (key, value) ∨ field ∈ fields := by
  induction fields with
  | nil => exact .inl (by simpa [insertField] using h)
  | cons first rest ih =>
    obtain ⟨k, v⟩ := first
    unfold insertField at h
    split at h
    · exact (List.mem_cons.1 h).imp_right (List.mem_cons_of_mem _)
    · split at h
      · exact List.mem_cons.1 h
      · rcases List.mem_cons.1 h with rfl | hRest
        · exact .inr List.mem_cons_self
        · exact (ih hRest).imp_right (List.mem_cons_of_mem _)

theorem IsSorted.insertField (h : IsSorted fields) (key : String) (value : Json) :
    IsSorted (insertField key value fields) := by
  induction fields with
  | nil => exact List.pairwise_singleton _ _
  | cons first rest ih =>
    obtain ⟨k, v⟩ := first
    obtain ⟨hFirst, hRest⟩ := List.pairwise_cons.1 h
    unfold Json.insertField
    split
    · next hKey =>
      subst hKey
      exact List.pairwise_cons.2 ⟨hFirst, hRest⟩
    · next hNe =>
      split
      · next hLess =>
        refine List.pairwise_cons.2 ⟨fun field hField => ?_, h⟩
        rcases List.mem_cons.1 hField with rfl | hField
        · exact hLess
        · exact hLess.trans (hFirst field hField)
      · next hNotLess =>
        refine List.pairwise_cons.2 ⟨fun field hField => ?_, ih hRest⟩
        rcases mem_of_mem_insertField hField with rfl | hField
        · exact lt_of_le_of_ne (not_lt.1 hNotLess) hNe
        · exact hFirst field hField

theorem isSorted_of_ofFields (h : ofFields fields = .object sorted) : IsSorted sorted := by
  cases h
  exact List.foldlRecOn fields _ List.Pairwise.nil
    fun _ hSorted field _ => hSorted.insertField field.1 field.2

theorem isSorted_of_ofDocument? {document : Document}
    (h : ofDocument? document = some (.object fields)) : IsSorted fields := by
  cases document with
  | object members =>
    rw [ofDocument?, Option.map_eq_some_iff] at h
    obtain ⟨read, -, hObject⟩ := h
    exact isSorted_of_ofFields hObject
  | _ => simp [ofDocument?] at h

theorem IsSorted.nodup_keys (h : IsSorted fields) : (fields.map Prod.fst).Nodup :=
  List.pairwise_map.2 (h.imp fun hLess => hLess.ne)

theorem mem_of_mem_ofFields (h : ofFields fields = .object sorted) {field : String × Json}
    (hField : field ∈ sorted) : field ∈ fields := by
  cases h
  revert hField
  refine List.foldlRecOn fields _ (motive := fun sorted => field ∈ sorted → field ∈ fields) nofun ?_
  intro sorted hSorted other hOther hField
  rcases mem_of_mem_insertField hField with rfl | hOld
  · exact hOther
  · exact hSorted hOld

theorem insertField_append_of_lt (h : ∀ field ∈ fields, field.1 < key) :
    insertField key value fields = fields ++ [(key, value)] := by
  induction fields with
  | nil => rfl
  | cons field rest ih =>
    obtain ⟨hLess, hRest⟩ := List.forall_mem_cons.1 h
    simp [insertField, hLess.ne, hLess.asymm, ih hRest]

theorem ofFields_of_isSorted (h : IsSorted fields) : ofFields fields = .object fields := by
  have hFold : ∀ sorted, IsSorted (sorted ++ fields) →
      fields.foldl (fun sorted field => insertField field.1 field.2 sorted) sorted =
        sorted ++ fields := by
    clear h
    induction fields with
    | nil => simp
    | cons field rest ih =>
      intro sorted hSorted
      have hInsert : insertField field.1 field.2 sorted = sorted ++ [field] :=
        insertField_append_of_lt fun other hOther =>
          (List.pairwise_append.1 hSorted).2.2 other hOther field List.mem_cons_self
      rw [List.foldl_cons, hInsert, ih, List.append_assoc, List.singleton_append]
      rwa [List.append_assoc]
  rw [ofFields, hFold [] h, List.nil_append]

theorem lookup_insertField_self (fields : List (String × Json)) (key : String) (value : Json) :
    (insertField key value fields).lookup key = some value := by
  induction fields with
  | nil => exact List.lookup_cons_self
  | cons field rest ih =>
    unfold insertField
    split
    · exact List.lookup_cons_self
    · next hNe =>
      split
      · exact List.lookup_cons_self
      · rw [List.lookup_cons, beq_false_of_ne (Ne.symm hNe)]
        exact ih

theorem lookup_insertField_of_ne (h : other ≠ key) (fields : List (String × Json)) (value : Json) :
    (insertField key value fields).lookup other = fields.lookup other := by
  have hSkip : ∀ rest : List (String × Json),
      ((key, value) :: rest).lookup other = rest.lookup other :=
    fun rest => by rw [List.lookup_cons, beq_false_of_ne h]
  induction fields with
  | nil => exact hSkip []
  | cons field rest ih =>
    unfold insertField
    split
    · next hKey =>
      subst hKey
      rw [hSkip, List.lookup_cons, beq_false_of_ne h]
    · split
      · exact hSkip _
      · rw [List.lookup_cons, List.lookup_cons, ih]

theorem lookup_foldl_insertField (hKeys : (fields.map Prod.fst).Nodup)
    (sorted : List (String × Json)) (key : String) :
    (fields.foldl (fun sorted field => insertField field.1 field.2 sorted) sorted).lookup key =
      (fields.lookup key).or (sorted.lookup key) := by
  induction fields generalizing sorted with
  | nil => rfl
  | cons field rest ih =>
    obtain ⟨hFirst, hRest⟩ := List.nodup_cons.1 hKeys
    rw [List.foldl_cons, ih hRest]
    by_cases hKey : key = field.1
    · subst hKey
      rw [OrderedMap.lookup_eq_none hFirst, lookup_insertField_self]
      exact (congrArg (Option.or · _) List.lookup_cons_self).symm
    · rw [lookup_insertField_of_ne hKey, List.lookup_cons, beq_false_of_ne hKey]

/-- Where no key is repeated, every key keeps its value. -/
theorem lookup_of_ofFields (h : ofFields fields = .object sorted)
    (hKeys : (fields.map Prod.fst).Nodup) (key : String) :
    sorted.lookup key = fields.lookup key := by
  cases h
  rw [lookup_foldl_insertField hKeys, List.lookup_nil, Option.or_none]

theorem filter_insertField {p : String → Bool} (h : p key = false) (value : Json)
    (fields : List (String × Json)) :
    (insertField key value fields).filter (p ·.1) = fields.filter (p ·.1) := by
  induction fields with
  | nil => simp [insertField, h]
  | cons field rest ih =>
    unfold insertField
    split
    · next hKey =>
      subst hKey
      simp [h]
    · split
      · simp [h]
      · simp only [List.filter_cons, ih]

/-- Fields with other keys that come behind sorted ones leave these as they are. -/
theorem filter_of_ofFields_append {front rest : List (String × Json)}
    (h : ofFields (front ++ rest) = .object sorted) (hFront : IsSorted front) {p : String → Bool}
    (hKept : ∀ field ∈ front, p field.1 = true) (hOther : ∀ field ∈ rest, p field.1 = false) :
    sorted.filter (p ·.1) = front := by
  have hFold : front.foldl (fun sorted field => insertField field.1 field.2 sorted) [] = front :=
    Json.object.inj (ofFields_of_isSorted hFront)
  cases h
  rw [List.foldl_append, hFold]
  refine List.foldlRecOn rest _ (motive := fun sorted => List.filter (p ·.1) sorted = front)
    (List.filter_eq_self.2 hKept) fun sorted hSorted field hField => ?_
  rwa [filter_insertField (hOther field hField)]

end ModuleLoader.Json
