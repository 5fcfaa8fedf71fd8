import ModuleLoader.Proofs.Session.Change

/-! The depth-first walk over the modules that are not evaluated yet.  It visits imports in the order
of their declaration, and calls each module after its imports.  A walk is determined by where it
starts, and calls exactly the modules to which pending modules lead, each once. -/

namespace ModuleLoader.Session

variable {σ : Type} {s : Session σ} {chain seen ids : List ModuleId} {id j : ModuleId}

def IsPending (s : Session σ) (id : ModuleId) : Prop :=
  ∃ m, s.static? id = some m ∧ m.status ≠ .evaluated

/-- A module that a walk calls, and the modules on the way from the root to it, the nearest first. -/
structure Call where
  id : ModuleId
  chain : List ModuleId

/-- A walk visits `ids` below `chain` when the modules in `seen` have been entered, and makes
calls. -/
inductive Walk (s : Session σ) :
    (chain seen ids : List ModuleId) → (calls : List Call) → Prop
  | nil {chain seen : List ModuleId} : Walk s chain seen [] []
  | skip {chain seen : List ModuleId} {id : ModuleId} {rest : List ModuleId} {calls : List Call}
      (hSkip : id ∈ seen ∨ ¬s.IsPending id) (hRest : Walk s chain seen rest calls) :
      Walk s chain seen (id :: rest) calls
  | visit {chain seen : List ModuleId} {id : ModuleId} {rest : List ModuleId} {m : StaticModule}
      {table : OrderedMap ModuleId} {inner outer : List Call} (hFresh : id ∉ seen)
      (hm : s.static? id = some m) (hPending : m.status ≠ .evaluated)
      (hTable : m.imports = some table)
      (hInner : Walk s (id :: chain) (id :: seen) table.values inner)
      (hRest : Walk s chain ((inner ++ [Call.mk id chain]).map Call.id ++ seen) rest outer) :
      Walk s chain seen (id :: rest) (inner ++ ⟨id, chain⟩ :: outer)

/-- The pending module imports the pending module. -/
def PendingImport (s : Session σ) (id j : ModuleId) : Prop :=
  s.IsPending id ∧ s.Imports id j ∧ s.IsPending j

namespace Walk

theorem cons {rest : List ModuleId} {first last : List Call} (h : Walk s chain seen [id] first)
    (hRest : Walk s chain (first.map Call.id ++ seen) rest last) :
    Walk s chain seen (id :: rest) (first ++ last) := by
  cases h with
  | skip hSkip hNil =>
    cases hNil
    exact .skip hSkip hRest
  | visit hFresh hm hPending hTable hInner hNil =>
    cases hNil
    rw [List.append_assoc]
    exact .visit hFresh hm hPending hTable hInner hRest

theorem unique {calls calls' : List Call} (h : Walk s chain seen ids calls)
    (h' : Walk s chain seen ids calls') : calls = calls' := by
  induction h generalizing calls' with
  | nil =>
    cases h'
    rfl
  | skip hSkip _ ih =>
    cases h' with
    | skip _ hRest => exact ih hRest
    | visit hFresh hm hPending =>
      rcases hSkip with hSeen | hNot
      · exact absurd hSeen hFresh
      · exact absurd ⟨_, hm, hPending⟩ hNot
  | visit hFresh hm hPending hTable _ _ ihInner ihRest =>
    cases h' with
    | skip hSkip =>
      rcases hSkip with hSeen | hNot
      · exact absurd hSeen hFresh
      · exact absurd ⟨_, hm, hPending⟩ hNot
    | visit _ hm' _ hTable' hInner' hRest' =>
      rw [hm] at hm'
      cases hm'
      rw [hTable] at hTable'
      cases hTable'
      cases ihInner hInner'
      rw [ihRest hRest']

theorem nodup {calls : List Call} (h : Walk s chain seen ids calls) (hSeen : seen.Nodup) :
    (calls.map Call.id ++ seen).Nodup := by
  induction h with
  | nil => exact hSeen
  | skip _ _ ih => exact ih hSeen
  | @visit chain seen id rest m table inner outer hFresh hm hPending hTable hInner hRest ihInner
      ihRest =>
    have hInner' := ihInner (List.nodup_cons.2 ⟨hFresh, hSeen⟩)
    have hOuter := ihRest (by simpa using hInner')
    have hPerm : (outer.map Call.id ++ ((inner ++ [Call.mk id chain]).map Call.id ++ seen)).Perm
        ((inner ++ ⟨id, chain⟩ :: outer).map Call.id ++ seen) := by
      simpa using List.perm_append_comm_assoc (outer.map Call.id)
        ((inner ++ [Call.mk id chain]).map Call.id) seen
    exact hPerm.nodup_iff.1 hOuter

theorem reached {calls : List Call} (h : Walk s chain seen ids calls) :
    ∀ call ∈ calls, ∃ id ∈ ids, s.IsPending id ∧
      Relation.ReflTransGen s.PendingImport id call.id := by
  induction h with
  | nil => simp
  | skip _ _ ih =>
    intro call hCall
    obtain ⟨id, hid, hReached⟩ := ih call hCall
    exact ⟨id, List.mem_cons_of_mem _ hid, hReached⟩
  | @visit chain seen id rest m table inner outer _ hm hPending hTable _ _ ihInner ihRest =>
    intro call hCall
    rw [List.mem_append, List.mem_cons] at hCall
    rcases hCall with hCall | rfl | hCall
    · obtain ⟨j, hj, hPending', hReached⟩ := ihInner call hCall
      have hImport : s.PendingImport id j :=
        ⟨⟨m, hm, hPending⟩, ⟨m, table, hm, hTable, hj⟩, hPending'⟩
      exact ⟨id, List.mem_cons_self, ⟨m, hm, hPending⟩, hReached.head hImport⟩
    · exact ⟨id, List.mem_cons_self, ⟨m, hm, hPending⟩, .refl⟩
    · obtain ⟨j, hj, hReached⟩ := ihRest call hCall
      exact ⟨j, List.mem_cons_of_mem _ hj, hReached⟩

/-- A walk enters all pending modules that are imported by what it enters. -/
theorem closed {calls : List Call} (h : Walk s chain seen ids calls) :
    (∀ id ∈ ids, s.IsPending id → id ∈ calls.map Call.id ++ seen) ∧
      ∀ call ∈ calls, ∀ j, s.PendingImport call.id j → j ∈ calls.map Call.id ++ seen := by
  induction h with
  | nil => simp
  | @skip chain seen id rest calls hSkip _ ih =>
    refine ⟨fun j hj hPending => ?_, ih.2⟩
    rcases List.mem_cons.1 hj with rfl | hj
    · exact List.mem_append_right _ (hSkip.resolve_right (not_not_intro hPending))
    · exact ih.1 j hj hPending
  | @visit chain seen id rest m table inner outer _ hm _ hTable _ _ ihInner ihRest =>
    have hInner : ∀ j, j ∈ inner.map Call.id ++ id :: seen →
        j ∈ (inner ++ ⟨id, chain⟩ :: outer).map Call.id ++ seen := by
      intro j hj
      simp only [List.map_append, List.map_cons, List.mem_append, List.mem_cons] at hj ⊢
      tauto
    have hOuter : ∀ j, j ∈ outer.map Call.id ++ ((inner ++ [Call.mk id chain]).map Call.id ++ seen) →
        j ∈ (inner ++ ⟨id, chain⟩ :: outer).map Call.id ++ seen := by
      intro j hj
      simp only [List.map_append, List.map_cons, List.map_nil, List.mem_append, List.mem_cons,
        List.not_mem_nil, or_false] at hj ⊢
      tauto
    refine ⟨fun j hj hPending => ?_, fun call hCall j hImport => ?_⟩
    · rcases List.mem_cons.1 hj with rfl | hj
      · simp
      · exact hOuter j (ihRest.1 j hj hPending)
    · rw [List.mem_append, List.mem_cons] at hCall
      rcases hCall with hCall | rfl | hCall
      · exact hInner j (ihInner.2 call hCall j hImport)
      · obtain ⟨-, hImports, hPending⟩ := hImport
        exact hInner j (ihInner.1 j (hImports.mem_values hm hTable) hPending)
      · exact hOuter j (ihRest.2 call hCall j hImport)

/-- A walk from a root calls exactly the modules to which pending modules lead from there. -/
theorem mem_iff {root : ModuleId} {calls : List Call} (h : Walk s [] [] [root] calls)
    (id : ModuleId) : id ∈ calls.map Call.id ↔
      s.IsPending root ∧ Relation.ReflTransGen s.PendingImport root id := by
  constructor
  · intro hid
    obtain ⟨call, hCall, rfl⟩ := List.mem_map.1 hid
    obtain ⟨root', hRoot, hReached⟩ := h.reached call hCall
    rw [List.mem_singleton.1 hRoot] at hReached
    exact hReached
  · rintro ⟨hPending, hReached⟩
    induction hReached with
    | refl => simpa using h.closed.1 root (by simp) hPending
    | tail _ hImport ih =>
      obtain ⟨call, hCall, rfl⟩ := List.mem_map.1 ih
      simpa using h.closed.2 call hCall _ hImport

end Walk

end ModuleLoader.Session
