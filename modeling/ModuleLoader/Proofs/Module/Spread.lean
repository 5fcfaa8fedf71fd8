import ModuleLoader.Proofs.Module.Synthetic
import ModuleLoader.Proofs.Text.Split

/-! Modules around namespaces of the host.  The properties of a default export that is an object are
spread under the others, which counts for all exports at once, and the module gives what comes of
it. -/

namespace ModuleLoader

/-- The properties of the default export, if that is an object. -/
def defaultProperties (exports : Properties) : Option Properties :=
  (exports.get? "default").bind Value.properties?

variable {exports p : Properties}

/-- An object that was made of a map has the properties of the map. -/
theorem defaultProperties_of_object {id : ObjectId}
    (h : exports.get? "default" = some (.object id p.listed)) :
    defaultProperties exports = some p := by
  rw [defaultProperties, h]
  exact congrArg some p.ofList_entries

theorem spreadDefault_of_properties (h : defaultProperties exports = some p) :
    spreadDefault exports = p.insertAll exports.entries := by
  obtain ⟨default, hGet, hProperties⟩ := Option.bind_eq_some_iff.1 h
  cases default with
  | object id properties =>
    cases hProperties
    simp [spreadDefault, hGet, Value.truthy, Value.properties?]
  | _ => cases hProperties

/-- A default export that is no object changes nothing, be it true or false. -/
theorem spreadDefault_of_none (h : defaultProperties exports = none) :
    spreadDefault exports = exports := by
  have hAll : OrderedMap.empty.insertAll exports.entries = exports := exports.ofList_entries
  unfold spreadDefault
  cases hGet : exports.get? "default" with
  | none => rfl
  | some default =>
    have hNone : default.properties? = none := by simpa [defaultProperties, hGet] using h
    simp [hNone, hAll]

theorem get?_spreadDefault (key : String) :
    (spreadDefault exports).get? key =
      (exports.get? key).or ((defaultProperties exports).bind (·.get? key)) := by
  cases h : defaultProperties exports with
  | none => simp [spreadDefault_of_none h]
  | some p =>
    rw [spreadDefault_of_properties h, OrderedMap.get?_insertAll,
      OrderedMap.lookup_reverse exports.distinct]
    rfl

theorem keys_spreadDefault (h : defaultProperties exports = some p) :
    (spreadDefault exports).keys = p.keys ++ exports.keys.filter (· ∉ p.keys) := by
  rw [spreadDefault_of_properties h, OrderedMap.keys_insertAll]
  exact congrArg (p.keys ++ ·) (Text.eraseDups_of_nodup (exports.nodup_keys.filter _))

/-- The properties of the default export come first, those that are exports as well with the value
of the export.  The other exports follow. -/
theorem entries_spreadDefault (h : defaultProperties exports = some p) :
    (spreadDefault exports).entries =
      p.entries.map (fun entry => (entry.1, (exports.get? entry.1).getD entry.2)) ++
        exports.entries.filter (·.1 ∉ p.keys) := by
  have hKeys : (p.entries.map (fun entry => (entry.1, (exports.get? entry.1).getD entry.2)) ++
      exports.entries.filter (·.1 ∉ p.keys)).map Prod.fst = (spreadDefault exports).keys := by
    rw [keys_spreadDefault h]
    simp [OrderedMap.keys, List.filter_map, Function.comp_def]
  let spread : Properties :=
    ⟨p.entries.map (fun entry => (entry.1, (exports.get? entry.1).getD entry.2)) ++
      exports.entries.filter (·.1 ∉ p.keys), hKeys ▸ (spreadDefault exports).nodup_keys⟩
  have hSame : (spreadDefault exports).keys = spread.keys := hKeys.symm
  refine congrArg OrderedMap.entries (OrderedMap.ext_of_get? hSame fun key _ => ?_)
  have hFirst : spread.get? key = ((p.get? key).map (exports.get? key).getD).or
      ((exports.entries.filter (·.1 ∉ p.keys)).lookup key) := by
    rw [OrderedMap.get?, List.lookup_append,
      OrderedMap.lookup_map fun name value => (exports.get? name).getD value]
    rfl
  rw [get?_spreadDefault, h, hFirst]
  cases hValue : p.get? key with
  | some value => cases hKey : exports.get? key <;> simp [hValue]
  | none =>
    have hNot : key ∉ p.keys := by simpa [OrderedMap.contains, hValue] using p.contains_eq key
    rw [OrderedMap.lookup_filter (p := (· ∉ p.keys)) (by simpa using hNot)]
    simp only [Option.bind_some, hValue, Option.or_none, Option.map_none, Option.none_or]
    rfl

theorem defaultProperties_spreadDefault :
    defaultProperties (spreadDefault exports) = defaultProperties exports := by
  unfold defaultProperties
  rw [get?_spreadDefault]
  cases hGet : exports.get? "default" with
  | none => simp [defaultProperties, hGet]
  | some default => rfl

/-- What is spread already is spread to no effect. -/
theorem spreadDefault_spreadDefault :
    spreadDefault (spreadDefault exports) = spreadDefault exports := by
  have hSame : defaultProperties (spreadDefault exports) = defaultProperties exports :=
    defaultProperties_spreadDefault
  cases h : defaultProperties exports with
  | none => rw [spreadDefault_of_none (hSame.trans h)]
  | some p =>
    refine OrderedMap.ext_of_get? ?_ fun key _ => ?_
    · rw [keys_spreadDefault (hSame.trans h), keys_spreadDefault h]
      simp
    · rw [get?_spreadDefault, hSame, get?_spreadDefault, Option.or_assoc, Option.or_self]

/-! ### The module of a namespace -/

/-- The script that sets all entries of a map leaves the map behind. -/
theorem ExportScript.leaves_setAll (url : String) (exports : Properties) :
    (setAll exports.entries).leaves url exports.keys = exports := by
  have hTrace : (setAll exports.entries).trace url exports.keys = (exports.entries, .ok ()) :=
    trace_setAll url fun entry hEntry => List.mem_map_of_mem hEntry
  ext1
  change (exports.keys.eraseDups.map fun key => (key, (((setAll exports.entries).trace url
    exports.keys).1.reverse.lookup key).getD .undefined)) = exports.entries
  rw [hTrace, Text.eraseDups_of_nodup exports.nodup_keys]
  refine (OrderedMap.entries_eq_map fun key hKey => ?_).symm
  obtain ⟨value, hValue⟩ : ∃ value, exports.get? key = some value := by
    refine Option.isSome_iff_exists.1 (?_ : exports.contains key = true)
    rw [exports.contains_eq]
    exact decide_eq_true hKey
  have hLookup : exports.entries.lookup key = some value := hValue
  rw [hValue, OrderedMap.lookup_reverse exports.distinct, hLookup, Option.getD_some]

namespace SyntheticModule

theorem evaluateAll_ofNamespace (url : String) (exports : Properties) (id : ObjectId)
    (ids : List ObjectId) :
    ((ofNamespace url exports).evaluateAll (id :: ids)).1 =
      List.replicate (ids.length + 1) (.ok ⟨id, spreadDefault exports⟩) := by
  have hRun := congrArg Prod.snd (traceOf_ofNamespace url exports 0)
  have hExports : (ofNamespace url exports).namespaceOf 0 id = ⟨id, spreadDefault exports⟩ :=
    congrArg (Namespace.mk id) (ExportScript.leaves_setAll url _)
  have hFirst : (ofNamespace url exports).evaluate id =
      (.ok ⟨id, spreadDefault exports⟩, (ofNamespace url exports).afterSuccess [] id) := by
    rw [← hExports]
    exact evaluate_of_ok rfl hRun id
  have hLater := evaluateAll_of_exports (m := (ofNamespace url exports).afterSuccess [] id)
    (congrArg some hExports) ids
  rw [evaluateAll, hFirst]
  simp [hLater, List.replicate_succ]

/-- The module of a namespace declares the keys that the namespace has after its default export is
spread.  Its evaluations succeed with one and the same namespace, which is this one. -/
theorem exports_ofNamespace (url : String) (exports : Properties) :
    (ofNamespace url exports).exportNames = (spreadDefault exports).keys ∧
    (∀ id ids, ((ofNamespace url exports).evaluateAll (id :: ids)).1 =
      List.replicate (ids.length + 1) (.ok ⟨id, spreadDefault exports⟩)) ∧
    (∀ key, (spreadDefault exports).get? key =
      (exports.get? key).or ((defaultProperties exports).bind (·.get? key))) ∧
    (∀ id p, exports.get? "default" = some (.object id (OrderedMap.listed p)) →
      defaultProperties exports = some p) ∧
    (∀ p, defaultProperties exports = some p →
      (spreadDefault exports).entries =
        p.entries.map (fun entry => (entry.1, (exports.get? entry.1).getD entry.2)) ++
          exports.entries.filter (·.1 ∉ p.keys)) ∧
    (defaultProperties exports = none → spreadDefault exports = exports) ∧
    spreadDefault (spreadDefault exports) = spreadDefault exports :=
  ⟨rfl, evaluateAll_ofNamespace url exports, get?_spreadDefault,
    fun _ _ => defaultProperties_of_object, fun _ => entries_spreadDefault, spreadDefault_of_none,
    spreadDefault_spreadDefault⟩

end SyntheticModule

namespace Sample

/-- Exports that share the keys `x` and `default` with their default export. -/
def sharedExports : Properties :=
  .ofList [("y", .null), ("default", .object 3 (.ofList [("x", .undefined), ("z", .null),
    ("default", .null)])), ("x", .boolean true)]

end Sample

namespace SyntheticModule

theorem exports_ofNamespace_shared :
    (∀ id ids, ((ofNamespace "m" Sample.sharedExports).evaluateAll (id :: ids)).1 =
      List.replicate (ids.length + 1) (.ok ⟨id, spreadDefault Sample.sharedExports⟩)) ∧
    (spreadDefault Sample.sharedExports).keys = ["x", "z", "default", "y"] ∧
    spreadDefault (spreadDefault Sample.sharedExports) = spreadDefault Sample.sharedExports := by
  obtain ⟨-, hAll, -, -, -, -, hAgain⟩ := exports_ofNamespace "m" Sample.sharedExports
  exact ⟨hAll, rfl, hAgain⟩

end SyntheticModule

end ModuleLoader
