import ModuleLoader.Error
import ModuleLoader.Module.Status
import ModuleLoader.Text.Quoted
import ModuleLoader.Value

/-! Modules around values that the host has at hand.  Their exports are declared beforehand, and a
script sets them when the module is evaluated. -/

namespace ModuleLoader

/-- A script that sets exports, one after another, and learns each time whether it may. -/
inductive ExportScript where
  | finish (outcome : Except LoadError Unit)
  | set (name : String) (value : Value) (next : Except LoadError Unit → ExportScript)

namespace ExportScript

/-- The exports after one is set; only a declared one can be. -/
def setExport (url : String) (slots : Properties) (name : String) (value : Value) :
    Except LoadError Properties :=
  if slots.contains name then .ok (slots.insert name value)
  else .error (.unknownExport url name)

/-- The exports that a script leaves behind. -/
def run (url : String) (slots : Properties) : ExportScript → Except LoadError Properties
  | .finish (.ok ()) => .ok slots
  | .finish (.error e) => .error e
  | .set name value next =>
    match setExport url slots name value with
    | .ok slots => (next (.ok ())).run url slots
    | .error e => (next (.error e)).run url slots

/-- The script that sets exports in order and stops where it may not. -/
def setAll : List (String × Value) → ExportScript
  | [] => .finish (.ok ())
  | (name, value) :: rest =>
    .set name value fun
      | .ok () => setAll rest
      | .error e => .finish (.error e)

end ExportScript

/-- A module with a fixed list of exports. -/
structure SyntheticModule where
  url : String
  exportNames : List String
  /-- The script of each run, by the number of runs before it. -/
  script : Nat → ExportScript
  runs : Nat := 0
  status : EvaluationStatus := .instantiated
  exports : Option Namespace := none

/-- A namespace with the properties of its default export spread under its own, if the default
export is an object. -/
def spreadDefault (exports : Properties) : Properties :=
  match exports.get? "default" with
  | none => exports
  | some default =>
    if default.truthy then (default.properties?.getD .empty).insertAll exports.entries
    else exports

namespace SyntheticModule

/-- The module of a namespace that the host imported. -/
def ofNamespace (url : String) (exports : Properties) : SyntheticModule where
  url := url
  exportNames := (spreadDefault exports).keys
  script := fun _ => .setAll (spreadDefault exports).entries

/-- The exports before the script runs: all are undefined. -/
def slots (m : SyntheticModule) : Properties :=
  .ofList (m.exportNames.map fun name => (name, .undefined))

/-- Runs the script unless it has succeeded before.  The namespace of the first success, whose
identity is `fresh`, is the one of all later evaluations. -/
def evaluate (m : SyntheticModule) (fresh : ObjectId) :
    Except LoadError Namespace × SyntheticModule :=
  match m.exports with
  | some exports => (.ok exports, m)
  | none =>
    match (m.script m.runs).run m.url m.slots with
    | .ok slots =>
      let exports : Namespace := ⟨fresh, slots⟩
      (.ok exports, { m with runs := m.runs + 1, status := .evaluated, exports := some exports })
    | .error e => (.error e, { m with runs := m.runs + 1, status := .errored })

def describe (m : SyntheticModule) : String :=
  Text.record "SyntheticModule"
    [("url", Text.quoted m.url), ("export_names", Text.quotedList m.exportNames),
      ("status", m.status.name)]

end SyntheticModule

end ModuleLoader
