import ModuleLoader.Cache

/-! A cache as a map from URLs: what the slot of a URL holds is what the map has at that URL. -/

namespace ModuleLoader.ModuleCache

variable {ρ : Type}

/-- The slot is the one of the URL. -/
def IsSlot (c : ModuleCache ρ) (url : String) (id : SlotId) : Prop :=
  c.slots.findIdx? (fun entry => entry.1 == url) = some id

/-- The first entry of a URL is at the head, or behind a head of another URL. -/
theorem findIdx?_cons_eq_some_iff {key url : String} {record : Option ρ}
    {rest : List (String × Option ρ)} {id : Nat} :
    ((key, record) :: rest).findIdx? (fun entry => entry.1 == url) = some id ↔
      key = url ∧ id = 0 ∨
        key ≠ url ∧ ∃ i, rest.findIdx? (fun entry => entry.1 == url) = some i ∧ id = i + 1 := by
  rw [List.findIdx?_cons]
  by_cases hUrl : key = url
  · simp [hUrl, @eq_comm Nat 0]
  · simp [hUrl, @eq_comm Nat id]

theorem join_lookup_eq {entries : List (String × Option ρ)} {url : String} {id : Nat}
    (h : entries.findIdx? (fun entry => entry.1 == url) = some id) :
    (entries.lookup url).join = (entries[id]?).bind Prod.snd := by
  induction entries generalizing id with
  | nil => simp at h
  | cons entry rest ih =>
    obtain ⟨key, record⟩ := entry
    obtain ⟨hUrl, rfl⟩ | ⟨hUrl, i, hi, rfl⟩ := findIdx?_cons_eq_some_iff.1 h
    · simp [hUrl]
    · simpa [List.lookup_cons, beq_eq_false_iff_ne.2 (Ne.symm hUrl)] using ih hi

theorem record?_of_isSlot {c : ModuleCache ρ} {url : String} {id : SlotId} (h : c.IsSlot url id) :
    c.record? id = c.get? url :=
  (join_lookup_eq h).symm

theorem get?_of_record?_none {c : ModuleCache ρ} {url : String} {id : SlotId} (h : c.IsSlot url id)
    (hNone : c.record? id = none) : c.get? url = none :=
  (record?_of_isSlot h).symm.trans hNone

theorem isSlot_slot (c : ModuleCache ρ) (url : String) :
    (c.slot url).2.IsSlot url (c.slot url).1 := by
  unfold slot
  split
  · next id h => exact h
  · next h => simp [IsSlot, h]

@[simp] theorem get?_slot (c : ModuleCache ρ) (url other : String) :
    (c.slot url).2.get? other = c.get? other := by
  unfold slot
  split
  · rfl
  · next h =>
    simp only [get?, List.lookup_append]
    cases hOther : c.slots.lookup other with
    | some entry => rfl
    | none => cases hUrl : other == url <;> simp [List.lookup_cons, hUrl]

/-- A URL that has a record has a slot. -/
theorem slot_of_get? {c : ModuleCache ρ} {url : String} {record : ρ}
    (h : c.get? url = some record) : (c.slot url).2 = c := by
  unfold slot
  split
  · rfl
  · next hNone =>
    have hLookup : c.slots.lookup url = none := by
      rw [List.lookup_eq_none_iff]
      intro entry hEntry
      have hUrl := List.findIdx?_eq_none_iff.1 hNone entry hEntry
      exact bne_iff_ne.2 (Ne.symm (beq_eq_false_iff_ne.1 hUrl))
    simp [get?, hLookup] at h

theorem join_lookup_modify {entries : List (String × Option ρ)} {url : String} {id : Nat}
    (h : entries.findIdx? (fun entry => entry.1 == url) = some id) (f : Option ρ → Option ρ)
    (other : String) :
    ((entries.modify id fun entry => (entry.1, f entry.2)).lookup other).join =
      if other = url then f (entries.lookup url).join else (entries.lookup other).join := by
  induction entries generalizing id with
  | nil => simp at h
  | cons entry rest ih =>
    obtain ⟨key, record⟩ := entry
    obtain ⟨hUrl, rfl⟩ | ⟨hUrl, i, hi, rfl⟩ := findIdx?_cons_eq_some_iff.1 h
    · by_cases hOther : other = url
      · simp [hUrl, hOther]
      · simp [List.lookup_cons, hUrl, hOther, beq_eq_false_iff_ne.2 hOther]
    · have hLookup : List.lookup url ((key, record) :: rest) = rest.lookup url := by
        simp [List.lookup_cons, beq_eq_false_iff_ne.2 (Ne.symm hUrl)]
      rw [hLookup, List.modify_succ_cons]
      by_cases hOther : other = key
      · subst hOther
        simp [hUrl]
      · simp only [List.lookup_cons, beq_eq_false_iff_ne.2 hOther]
        exact ih hi

theorem get?_fill {c : ModuleCache ρ} {url : String} {id : SlotId} (h : c.IsSlot url id)
    (record : ρ) (other : String) :
    (c.fill id record).get? other =
      if other = url then some ((c.get? url).getD record) else c.get? other :=
  join_lookup_modify h (fun entry => some (entry.getD record)) other

theorem findIdx?_modify (entries : List (String × Option ρ)) (id : Nat)
    (f : Option ρ → Option ρ) (url : String) :
    (entries.modify id fun entry => (entry.1, f entry.2)).findIdx? (fun entry => entry.1 == url) =
      entries.findIdx? fun entry => entry.1 == url := by
  induction entries generalizing id with
  | nil => cases id <;> rfl
  | cons entry rest ih =>
    cases id with
    | zero => simp [List.findIdx?_cons]
    | succ id => rw [List.modify_succ_cons, List.findIdx?_cons, List.findIdx?_cons, ih]

theorem isSlot_fill {c : ModuleCache ρ} {url : String} {slot : SlotId} (h : c.IsSlot url slot)
    (id : SlotId) (record : ρ) : (c.fill id record).IsSlot url slot :=
  (findIdx?_modify c.slots id (fun old => some (old.getD record)) url).trans h

theorem isSlot_slot_of_isSlot {c : ModuleCache ρ} {url : String} {slot : SlotId}
    (h : c.IsSlot url slot) (other : String) : (c.slot other).2.IsSlot url slot := by
  have h' : c.slots.findIdx? (fun entry => entry.1 == url) = some slot := h
  unfold ModuleCache.slot
  split
  · exact h
  · simp [IsSlot, List.findIdx?_append, h']

theorem record?_slot (c : ModuleCache ρ) (url : String) (slot : SlotId) :
    (c.slot url).2.record? slot = c.record? slot := by
  unfold ModuleCache.slot
  split
  · rfl
  · unfold record?
    rcases Nat.lt_or_ge slot c.slots.length with hLt | hGe
    · rw [List.getElem?_append_left hLt]
    · rw [List.getElem?_append_right hGe, List.getElem?_eq_none hGe]
      cases slot - c.slots.length <;> rfl

/-- Two URLs have two slots. -/
theorem eq_of_isSlot {c : ModuleCache ρ} {url other : String} {slot : SlotId}
    (h : c.IsSlot url slot) (h' : c.IsSlot other slot) : url = other := by
  have hUrl := (List.findIdx?_eq_some_iff_getElem.1 h)
  have hOther := (List.findIdx?_eq_some_iff_getElem.1 h')
  obtain ⟨_, hUrl, -⟩ := hUrl
  obtain ⟨_, hOther, -⟩ := hOther
  exact (beq_iff_eq.1 hUrl).symm.trans (beq_iff_eq.1 hOther)

/-! ### The URLs of a cache -/

variable {c : ModuleCache ρ}

/-- Every URL has at most one slot. -/
def IsTidy (c : ModuleCache ρ) : Prop := (c.slots.map Prod.fst).Nodup

theorem IsTidy.slot (h : c.IsTidy) (url : String) : (c.slot url).2.IsTidy := by
  unfold ModuleCache.slot
  split
  · exact h
  · next hNone =>
    have hFresh : ∀ entry ∈ c.slots, entry.1 ≠ url := fun entry hEntry =>
      beq_eq_false_iff_ne.1 (List.findIdx?_eq_none_iff.1 hNone entry hEntry)
    rw [IsTidy, List.map_append, List.nodup_append]
    refine ⟨h, by simp, fun key hKey other hOther => ?_⟩
    obtain ⟨entry, hEntry, rfl⟩ := List.mem_map.1 hKey
    obtain rfl : other = url := by simpa using hOther
    exact hFresh entry hEntry

theorem IsTidy.fill (h : c.IsTidy) (id : SlotId) (record : ρ) : (c.fill id record).IsTidy := by
  have hKeys : (c.fill id record).slots.map Prod.fst = c.slots.map Prod.fst := by
    apply List.ext_getElem?
    intro i
    simp only [ModuleCache.fill, List.getElem?_map, List.getElem?_modify]
    cases c.slots[i]? with
    | none => simp
    | some entry => by_cases hi : id = i <;> simp [hi]
  rw [IsTidy, hKeys]
  exact h

theorem length_urls (c : ModuleCache ρ) : c.urls.length = c.size := List.length_map _

theorem IsTidy.nodup_urls (h : c.IsTidy) : c.urls.Nodup :=
  h.sublist (List.filter_sublist.map _)

theorem IsTidy.mem_urls (h : c.IsTidy) (url : String) :
    url ∈ c.urls ↔ ∃ record, c.get? url = some record := by
  obtain ⟨slots⟩ := c
  simp only [ModuleCache.urls, get?, IsTidy] at h ⊢
  induction slots with
  | nil => simp
  | cons entry rest ih =>
    obtain ⟨key, record⟩ := entry
    rw [List.map_cons, List.nodup_cons] at h
    by_cases hKey : url = key
    · subst hKey
      have hNot : url ∉ (rest.filter fun entry => entry.2.isSome).map Prod.fst := fun hMem =>
        h.1 (List.filter_sublist.map _ |>.subset hMem)
      cases record with
      | none => simpa using hNot
      | some record => simp
    · rw [List.lookup_cons, beq_eq_false_iff_ne.2 hKey]
      cases record with
      | none => simpa using ih h.2
      | some record => simpa [hKey] using ih h.2

end ModuleLoader.ModuleCache
