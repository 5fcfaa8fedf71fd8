import ModuleLoader.Linking
import ModuleLoader.Proofs.Cache

/-! What the operations on the state of a session do to the modules that are looked up in it. -/

namespace ModuleLoader

@[simp] theorem StaticModule.finishLinking_finishLinking (m : StaticModule) :
    m.finishLinking.finishLinking = m.finishLinking := by
  unfold StaticModule.finishLinking
  split <;> simp_all

namespace Session

variable {σ : Type} {s : Session σ} {id j : ModuleId} {m : StaticModule}

theorem static?_eq_some_iff : s.static? id = some m ↔ s.module? id = some (.static m) := by
  unfold static?
  cases s.module? id with
  | none => simp
  | some n => cases n <;> simp [Module.static?]

@[simp] theorem module?_updateStatic (s : Session σ) (id j : ModuleId)
    (f : StaticModule → StaticModule) :
    (s.updateStatic id f).module? j =
      if id = j then (s.module? j).map (.mapStatic f) else s.module? j := by
  simp only [module?, updateStatic, List.getElem?_modify]
  split
  · rfl
  · simp

theorem static?_map_mapStatic (n : Option Module) (f : StaticModule → StaticModule) :
    (n.map (.mapStatic f)).bind Module.static? = (n.bind Module.static?).map f := by
  cases n with
  | none => rfl
  | some n => cases n <;> rfl

theorem static?_updateStatic (s : Session σ) (id j : ModuleId) (f : StaticModule → StaticModule) :
    (s.updateStatic id f).static? j = if id = j then (s.static? j).map f else s.static? j := by
  unfold static?
  rw [module?_updateStatic]
  split
  · exact static?_map_mapStatic _ f
  · rfl

theorem static?_updateStatic_self (h : s.static? id = some m) (f : StaticModule → StaticModule) :
    (s.updateStatic id f).static? id = some (f m) := by
  simp [static?_updateStatic, h]

theorem static?_updateStatic_of_ne (h : j ≠ id) (f : StaticModule → StaticModule) :
    (s.updateStatic id f).static? j = s.static? j := by
  simp [static?_updateStatic, Ne.symm h]

@[simp] theorem cache_updateStatic (s : Session σ) (id : ModuleId)
    (f : StaticModule → StaticModule) : (s.updateStatic id f).cache = s.cache := rfl

/-- A change that fixes the static module, if the ID is that of one, changes nothing. -/
theorem updateStatic_of_fixed {f : StaticModule → StaticModule}
    (hf : ∀ m, s.static? id = some m → f m = m) : s.updateStatic id f = s := by
  have hFixed : ∀ n, s.modules[id]? = some n → n.mapStatic f = n := by
    intro n hn
    cases n with
    | static m => rw [Module.mapStatic, hf m (static?_eq_some_iff.2 hn)]
    | synthetic m => rfl
  have hModules : s.modules.modify id (.mapStatic f) = s.modules := by
    apply List.ext_getElem?
    intro i
    rw [List.getElem?_modify]
    split
    · next hi =>
      subst hi
      cases hModule : s.modules[id]? with
      | none => rfl
      | some n => exact congrArg some (hFixed n hModule)
    · simp
  rw [updateStatic, hModules]

@[simp] theorem cache_finishLinking (s : Session σ) (visited : List ModuleId) :
    (s.finishLinking visited).cache = s.cache := by
  unfold finishLinking
  induction visited generalizing s with
  | nil => rfl
  | cons id rest ih => exact ih _

theorem module?_finishLinking (s : Session σ) (visited : List ModuleId) (j : ModuleId) :
    (s.finishLinking visited).module? j =
      if j ∈ visited then (s.module? j).map (.mapStatic .finishLinking) else s.module? j := by
  unfold finishLinking
  induction visited generalizing s with
  | nil => simp
  | cons id rest ih =>
    rw [List.foldl_cons, ih, module?_updateStatic]
    by_cases hj : j = id
    · subst hj
      cases s.module? j with
      | none => simp
      | some n => cases n <;> simp [Module.mapStatic]
    · simp [hj, Ne.symm hj]

theorem static?_finishLinking (s : Session σ) (visited : List ModuleId) (j : ModuleId) :
    (s.finishLinking visited).static? j =
      if j ∈ visited then (s.static? j).map .finishLinking else s.static? j := by
  unfold static?
  rw [module?_finishLinking]
  split
  · exact static?_map_mapStatic _ _
  · rfl

theorem module?_withModule (s : Session σ) (slot : SlotId) (m : Module) (j : ModuleId) :
    (s.withModule slot m).module? j =
      if j = s.modules.length then some m else s.module? j := by
  simp only [module?, withModule]
  by_cases hj : j = s.modules.length
  · simp [hj]
  · rw [if_neg hj]
    rcases Nat.lt_or_gt_of_ne hj with h | h
    · exact List.getElem?_append_left h
    · rw [List.getElem?_eq_none (by rw [List.length_append, List.length_singleton]; omega),
        List.getElem?_eq_none (by omega)]

theorem module?_withModule_of_some {n : Module} (slot : SlotId) (m : Module)
    (h : s.module? j = some n) : (s.withModule slot m).module? j = some n := by
  have hj : j < s.modules.length := (List.getElem?_eq_some_iff.1 h).1
  rw [module?_withModule, if_neg (Nat.ne_of_lt hj), h]

theorem get?_withModule {slot : SlotId} {url : String} (hSlot : s.cache.IsSlot url slot)
    (hNone : s.cache.get? url = none) (m : Module) (other : String) :
    (s.withModule slot m).cache.get? other =
      if other = url then some s.modules.length else s.cache.get? other := by
  simp [withModule, ModuleCache.get?_fill hSlot, hNone]

theorem module?_withSynthetic {old : Module} (h : s.module? id = some old) (m : SyntheticModule)
    (j : ModuleId) :
    (s.withSynthetic id m).module? j = if j = id then some (.synthetic m) else s.module? j := by
  have hid : id < s.modules.length := (List.getElem?_eq_some_iff.1 h).1
  simp only [module?, withSynthetic, List.getElem?_set]
  by_cases hj : j = id
  · simp [hj, hid]
  · simp [hj, Ne.symm hj]

theorem module?_of_withSynthetic {t : Session σ} {old : Module} {m : SyntheticModule}
    (h : s.module? id = some old) (hModules : t.modules = (s.withSynthetic id m).modules)
    (j : ModuleId) : t.module? j = if j = id then some (.synthetic m) else s.module? j := by
  rw [← module?_withSynthetic h, module?, hModules, module?]

theorem static?_withSynthetic {old : SyntheticModule} (h : s.module? id = some (.synthetic old))
    (m : SyntheticModule) (j : ModuleId) : (s.withSynthetic id m).static? j = s.static? j := by
  simp only [static?, module?_withSynthetic h]
  split
  · next hj => rw [hj, h]; rfl
  · rfl

end Session

end ModuleLoader
