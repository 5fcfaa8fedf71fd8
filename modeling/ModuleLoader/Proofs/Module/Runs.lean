import ModuleLoader.Module.Synthetic
import ModuleLoader.Proofs.OrderedMap
import ModuleLoader.Proofs.Text.Split

/-! The evaluations of a module whose exports are declared.  Its script may do what it likes, and
something else each time that it runs: a run begins with all declared exports undefined, and the
first one that succeeds gives the namespace, which holds what this run has set and nothing else. -/

namespace ModuleLoader

namespace ExportScript

variable {url : String} {names : List String} {slots : Properties}

/-- What a script tries to set, in order, and how it ends, where `names` are declared.  It is told
that any other name is unknown. -/
def trace (url : String) (names : List String) :
    ExportScript → List (String × Value) × Except LoadError Unit
  | .finish outcome => ([], outcome)
  | .set name value next =>
    let answer := if name ∈ names then .ok () else .error (.unknownExport url name)
    let (later, outcome) := (next answer).trace url names
    ((name, value) :: later, outcome)

/-- The exports that a script leaves behind if it succeeds: the declared ones, each with the last
value that the script has set. -/
def leaves (url : String) (names : List String) (script : ExportScript) : Properties where
  entries := names.eraseDups.map fun name =>
    (name, ((script.trace url names).1.reverse.lookup name).getD .undefined)
  distinct := by simpa [Function.comp_def] using Text.nodup_eraseDups names

theorem keys_insert_of_mem (h : slots.keys = names.eraseDups) {name : String} (hName : name ∈ names)
    (value : Value) : (slots.insert name value).keys = names.eraseDups := by
  rw [OrderedMap.keys_insert, h, if_pos (List.mem_eraseDups.2 hName)]

theorem setExport_eq (h : slots.keys = names.eraseDups) (name : String) (value : Value) :
    setExport url slots name value =
      if name ∈ names then .ok (slots.insert name value)
      else .error (.unknownExport url name) := by
  simp [setExport, OrderedMap.contains_eq, h, List.mem_eraseDups]

/-- A name that is not declared cannot be set, and the script goes on with the slots as they are. -/
theorem run_set_of_not_mem (h : slots.keys = names.eraseDups) {name : String} (hName : name ∉ names)
    (value : Value) (next : Except LoadError Unit → ExportScript) :
    (ExportScript.set name value next).run url slots =
      (next (.error (.unknownExport url name))).run url slots := by
  rw [run, setExport_eq h, if_neg hName]

/-- A run sets the declared names among those that the script tries. -/
theorem run_eq (script : ExportScript) (h : slots.keys = names.eraseDups) :
    script.run url slots = (script.trace url names).2.map fun _ =>
      slots.insertAll ((script.trace url names).1.filter (·.1 ∈ names)) := by
  induction script generalizing slots with
  | finish outcome => cases outcome <;> rfl
  | set name value next ih =>
    by_cases hName : name ∈ names
    · have hRun : (ExportScript.set name value next).run url slots =
          (next (.ok ())).run url (slots.insert name value) := by
        rw [run, setExport_eq h, if_pos hName]
      rw [hRun, ih _ (keys_insert_of_mem h hName value)]
      simp [trace, hName, OrderedMap.insertAll]
    · rw [run_set_of_not_mem h hName, ih _ h]
      simp [trace, hName]

theorem trace_setAll (url : String) {entries : List (String × Value)}
    (h : ∀ entry ∈ entries, entry.1 ∈ names) :
    (setAll entries).trace url names = (entries, .ok ()) := by
  induction entries with
  | nil => rfl
  | cons entry rest ih =>
    have hName : entry.1 ∈ names := h _ List.mem_cons_self
    have hRest := ih fun other hOther => h other (List.mem_cons_of_mem _ hOther)
    simp [setAll, trace, hName, hRest]

end ExportScript

namespace SyntheticModule

theorem keys_slots (m : SyntheticModule) : m.slots.keys = m.exportNames.eraseDups := by
  rw [slots, OrderedMap.keys_ofList, List.map_map]
  exact congrArg List.eraseDups (List.map_id _)

/-- A run begins with each declared name once, and undefined. -/
theorem entries_slots (m : SyntheticModule) :
    m.slots.entries = m.exportNames.eraseDups.map fun name => (name, .undefined) := by
  have hUndefined : ∀ entry ∈ m.slots.entries, entry = (entry.1, .undefined) := by
    intro entry hEntry
    obtain ⟨name, -, rfl⟩ := List.mem_map.1 (OrderedMap.mem_of_mem_entries_ofList hEntry)
    rfl
  calc m.slots.entries = m.slots.entries.map fun entry => (entry.1, .undefined) :=
        (List.map_id _).symm.trans (List.map_congr_left hUndefined)
    _ = m.slots.keys.map fun name => (name, .undefined) := by
        rw [OrderedMap.keys, List.map_map]
        rfl
    _ = m.exportNames.eraseDups.map fun name => (name, .undefined) := by rw [keys_slots]

theorem get?_slots {m : SyntheticModule} {name : String} (h : name ∈ m.slots.keys) :
    m.slots.get? name = some .undefined := by
  have hEntry : (name, .undefined) ∈ m.slots.entries := by
    rw [entries_slots, ← keys_slots]
    exact List.mem_map.2 ⟨name, h, rfl⟩
  exact OrderedMap.lookup_of_mem m.slots.distinct hEntry

theorem entries_insertAll_slots (m : SyntheticModule) (calls : List (String × Value)) :
    (m.slots.insertAll (calls.filter (·.1 ∈ m.exportNames))).entries =
      m.exportNames.eraseDups.map fun name =>
        (name, (calls.reverse.lookup name).getD .undefined) := by
  have hKeys : (m.slots.insertAll (calls.filter (·.1 ∈ m.exportNames))).keys =
      m.exportNames.eraseDups := by
    rw [OrderedMap.keys_insertAll_of_subset, keys_slots]
    intro entry hEntry
    rw [keys_slots, List.mem_eraseDups]
    simpa using (List.mem_filter.1 hEntry).2
  rw [← hKeys]
  refine OrderedMap.entries_eq_map fun name hName => ?_
  rw [hKeys] at hName
  rw [OrderedMap.get?_insertAll, get?_slots (by rwa [keys_slots]), ← List.filter_reverse,
    OrderedMap.lookup_filter (p := (· ∈ m.exportNames)) (by simpa using hName)]
  cases calls.reverse.lookup name <;> rfl

/-- What a run leaves behind depends on the script of this run only. -/
theorem run_slots (m : SyntheticModule) (script : ExportScript) :
    script.run m.url m.slots =
      (script.trace m.url m.exportNames).2.map fun _ => script.leaves m.url m.exportNames := by
  have hLeaves : m.slots.insertAll ((script.trace m.url m.exportNames).1.filter
      (·.1 ∈ m.exportNames)) = script.leaves m.url m.exportNames :=
    OrderedMap.ext (entries_insertAll_slots m _)
  rw [script.run_eq m.keys_slots, hLeaves]

/-! ### Evaluations one after another -/

/-- The outcomes of evaluations one after another, and the module after them.  Each evaluation has
an identity at hand for a new namespace. -/
def evaluateAll (m : SyntheticModule) :
    List ObjectId → List (Except LoadError Namespace) × SyntheticModule
  | [] => ([], m)
  | fresh :: rest =>
    let (outcome, next) := m.evaluate fresh
    let (outcomes, last) := next.evaluateAll rest
    (outcome :: outcomes, last)

/-- What the script of the module does when it is run after `runs` others. -/
def traceOf (m : SyntheticModule) (runs : Nat) : List (String × Value) × Except LoadError Unit :=
  (m.script runs).trace m.url m.exportNames

/-- The namespace that a run of the script leaves behind, after `runs` others. -/
def namespaceOf (m : SyntheticModule) (runs : Nat) (id : ObjectId) : Namespace :=
  ⟨id, (m.script runs).leaves m.url m.exportNames⟩

/-- The module after evaluations that all failed. -/
def afterErrors (m : SyntheticModule) (errors : List LoadError) : SyntheticModule :=
  { m with
    runs := m.runs + errors.length
    status := if errors.isEmpty then m.status else .errored }

/-- The module after evaluations of which first some failed and then one succeeded. -/
def afterSuccess (m : SyntheticModule) (errors : List LoadError) (fresh : ObjectId) :
    SyntheticModule :=
  { m with
    runs := m.runs + errors.length + 1
    status := .evaluated
    exports := some (m.namespaceOf (m.runs + errors.length) fresh) }

variable {m : SyntheticModule} {e : LoadError} {ns : Namespace}

theorem evaluate_of_exports {m : SyntheticModule} {exports : Namespace}
    (h : m.exports = some exports) (fresh : ObjectId) : m.evaluate fresh = (.ok exports, m) := by
  simp [evaluate, h]

theorem evaluate_of_error (hNone : m.exports = none) (hRun : (m.traceOf m.runs).2 = .error e)
    (fresh : ObjectId) : m.evaluate fresh = (.error e, m.afterErrors [e]) := by
  rw [evaluate, hNone]
  simp only [run_slots]
  rw [traceOf] at hRun
  simp [hRun, Except.map, afterErrors, hNone]

theorem evaluate_of_ok (hNone : m.exports = none) (hRun : (m.traceOf m.runs).2 = .ok ())
    (fresh : ObjectId) :
    m.evaluate fresh = (.ok (m.namespaceOf m.runs fresh), m.afterSuccess [] fresh) := by
  rw [evaluate, hNone]
  simp only [run_slots]
  rw [traceOf] at hRun
  rw [hRun]
  rfl

theorem evaluateAll_of_exports (h : m.exports = some ns) (ids : List ObjectId) :
    m.evaluateAll ids = (List.replicate ids.length (.ok ns), m) := by
  induction ids with
  | nil => rfl
  | cons fresh rest ih => simp [evaluateAll, evaluate_of_exports h, ih, List.replicate_succ]

theorem runs_afterErrors_singleton (m : SyntheticModule) (e : LoadError) (count : Nat) :
    (m.afterErrors [e]).runs + count = m.runs + (count + 1) := by
  simp only [afterErrors, List.length_singleton]
  omega

theorem traceOf_afterErrors (m : SyntheticModule) (errors : List LoadError) :
    (m.afterErrors errors).traceOf = m.traceOf := rfl

theorem namespaceOf_afterErrors (m : SyntheticModule) (errors : List LoadError) :
    (m.afterErrors errors).namespaceOf = m.namespaceOf := rfl

theorem afterErrors_afterErrors (m : SyntheticModule) (e : LoadError) (errors : List LoadError) :
    (m.afterErrors [e]).afterErrors errors = m.afterErrors (e :: errors) := by
  rw [afterErrors, runs_afterErrors_singleton]
  simp [afterErrors]

theorem afterSuccess_afterErrors (m : SyntheticModule) (e : LoadError) (errors : List LoadError)
    (fresh : ObjectId) :
    (m.afterErrors [e]).afterSuccess errors fresh = m.afterSuccess (e :: errors) fresh := by
  rw [afterSuccess, runs_afterErrors_singleton]
  rfl

/-- Evaluations one after another fail as the script does, until it succeeds.  The namespace of
this run is the outcome from then on, and the script is not run again. -/
theorem exists_evaluateAll (hNone : m.exports = none) (ids : List ObjectId) :
    ∃ errors : List LoadError,
      (∀ i e, errors[i]? = some e → (m.traceOf (m.runs + i)).2 = .error e) ∧
      ((errors.length = ids.length ∧
          m.evaluateAll ids = (errors.map .error, m.afterErrors errors)) ∨
        ∃ fresh, ids[errors.length]? = some fresh ∧
          (m.traceOf (m.runs + errors.length)).2 = .ok () ∧
          m.evaluateAll ids =
            (errors.map .error ++ List.replicate (ids.length - errors.length)
              (.ok (m.namespaceOf (m.runs + errors.length) fresh)),
              m.afterSuccess errors fresh)) := by
  induction ids generalizing m with
  | nil => exact ⟨[], nofun, .inl ⟨rfl, rfl⟩⟩
  | cons fresh rest ih =>
    cases hRun : (m.traceOf m.runs).2 with
    | ok =>
      refine ⟨[], nofun, .inr ⟨fresh, rfl, hRun, ?_⟩⟩
      have hRest : (m.afterSuccess [] fresh).evaluateAll rest =
          (List.replicate rest.length (.ok (m.namespaceOf m.runs fresh)), _) :=
        evaluateAll_of_exports rfl rest
      rw [evaluateAll, evaluate_of_ok hNone hRun]
      simp [hRest, List.replicate_succ]
    | error e =>
      obtain ⟨errors, hErrors, hRest⟩ := ih (m := m.afterErrors [e]) hNone
      simp only [traceOf_afterErrors, namespaceOf_afterErrors, runs_afterErrors_singleton,
        afterErrors_afterErrors, afterSuccess_afterErrors] at hErrors hRest
      refine ⟨e :: errors, fun i e' hi => ?_, ?_⟩
      · cases i with
        | zero =>
          cases hi
          exact hRun
        | succ i => exact hErrors i e' hi
      · rw [evaluateAll, evaluate_of_error hNone hRun]
        rcases hRest with ⟨hLength, hRest⟩ | ⟨id, hId, hOk, hRest⟩
        · exact .inl ⟨by simp [hLength], by simp [hRest]⟩
        · exact .inr ⟨id, hId, hOk, by simp [hRest]⟩

/-- Whatever the script does, and something else each time that it runs: a run begins with each
declared name once and undefined, and can set the declared names only.  Evaluations one after
another fail as the runs of the script do, until one succeeds.  The namespace of this one has the
declared names in their order, each with the last value that its own run has set or undefined, and
is the outcome from then on, with no further run. -/
theorem evaluations_of_script (url : String) (names : List String) (script : Nat → ExportScript)
    (ids : List ObjectId) :
    let m : SyntheticModule := { url, exportNames := names, script }
    (m.evaluateAll ids).2.slots.entries = names.eraseDups.map (fun name => (name, .undefined)) ∧
    (∀ slots : Properties, slots.keys = names.eraseDups → ∀ name value,
      (name ∈ names → ∃ next, ExportScript.setExport url slots name value = .ok next ∧
        next.keys = names.eraseDups ∧
        ∀ other, next.get? other = if other = name then some value else slots.get? other) ∧
      (name ∉ names →
        ExportScript.setExport url slots name value = .error (.unknownExport url name) ∧
        ∀ next, (ExportScript.set name value next).run url slots =
          (next (.error (.unknownExport url name))).run url slots)) ∧
    ∃ errors : List LoadError,
      (∀ i e, errors[i]? = some e → ((script i).trace url names).2 = .error e) ∧
      ((errors.length = ids.length ∧
          m.evaluateAll ids = (errors.map .error,
            { m with
              runs := errors.length
              status := if errors.isEmpty then .instantiated else .errored })) ∨
        ∃ fresh, ids[errors.length]? = some fresh ∧
          ((script errors.length).trace url names).2 = .ok () ∧
          let exports : Namespace := ⟨fresh, (script errors.length).leaves url names⟩
          m.evaluateAll ids =
            (errors.map .error ++ List.replicate (ids.length - errors.length) (.ok exports),
              { m with
                runs := errors.length + 1
                status := .evaluated
                exports := some exports })) := by
  intro m
  obtain ⟨errors, hErrors, hCases⟩ := exists_evaluateAll (m := m) rfl ids
  have hNames : (m.evaluateAll ids).2.exportNames = names := by
    rcases hCases with ⟨-, h⟩ | ⟨fresh, -, -, h⟩ <;> rw [h] <;> rfl
  refine ⟨?_, fun slots hSlots name value => ⟨fun hName => ?_, fun hName => ?_⟩, errors, ?_, ?_⟩
  · rw [entries_slots, hNames]
  · rw [ExportScript.setExport_eq hSlots, if_pos hName]
    exact ⟨_, rfl, ExportScript.keys_insert_of_mem hSlots hName value,
      fun other => OrderedMap.get?_insert slots name other value⟩
  · rw [ExportScript.setExport_eq hSlots, if_neg hName]
    exact ⟨rfl, ExportScript.run_set_of_not_mem hSlots hName value⟩
  · intro i e hi
    simpa [m, traceOf] using hErrors i e hi
  · simpa [m, traceOf, namespaceOf, afterErrors, afterSuccess] using hCases

end SyntheticModule

namespace Sample

/-- A script that sets `a` and fails when it runs first.  Later it tries to set `c`, and sets `b`
twice. -/
def retried : Nat → ExportScript
  | 0 => .set "a" .null fun _ => .finish (.error (.host "busy"))
  | _ => .set "c" .null fun _ => .setAll [("b", .null), ("b", .boolean true)]

end Sample

namespace SyntheticModule

/-- The failed run leaves nothing in the namespace of the next one. -/
theorem evaluations_of_script_retry :
    let m : SyntheticModule :=
      { url := "m", exportNames := ["b", "a", "b"], script := Sample.retried }
    (m.evaluateAll [7, 8, 9]).1 = [.error (.host "busy"),
      .ok ⟨8, .ofList [("b", .boolean true), ("a", .undefined)]⟩,
      .ok ⟨8, .ofList [("b", .boolean true), ("a", .undefined)]⟩] ∧
    m.slots.keys = ["b", "a"] ∧
    ExportScript.setExport "m" m.slots "c" .null = .error (.unknownExport "m" "c") := by
  intro m
  obtain ⟨-, hSet, -⟩ := evaluations_of_script "m" ["b", "a", "b"] Sample.retried [7, 8, 9]
  have hKeys : m.slots.keys = ["b", "a", "b"].eraseDups := rfl
  exact ⟨rfl, hKeys, ((hSet m.slots hKeys "c" .null).2 (by decide)).1⟩

end SyntheticModule

end ModuleLoader
