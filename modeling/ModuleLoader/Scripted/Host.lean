import ModuleLoader.Scripted.World
import ModuleLoader.Session
import ModuleLoader.Text.Blank

/-! A host whose modules are written in a language of lines, one statement a line.  It knows which
native modules there are from a table. -/

namespace ModuleLoader.Scripted

/-- A statement of a module. -/
inductive Statement where
  /-- Exports the number that a text denotes. -/
  | number (name text : String)
  | word (name text : String)
  /-- Exports what a module exports that is imported statically. -/
  | copy (name path : String)
  /-- Exports what a module exports that is imported while the statement runs. -/
  | load (name path : String)
  /-- Does the same, and exports the text of the failure if there is one. -/
  | attempt (name path : String)
  /-- Exports all that a statically imported module exports, as one object. -/
  | whole (name specifier : String)
  /-- Exports what the module can learn about itself. -/
  | about (name : String)
  /-- Exports the URL that dynamic imports start from. -/
  | referrer (name : String)
  | size (name : String)
  /-- Exports the description of all that the module sees. -/
  | scope (name : String)
  | fail (message : String)

/-- The statement of the words of a line; lines of any other form mean nothing. -/
def Statement.ofWords? : List String → Option Statement
  | ["export", name, "=", text] => some (.number name text)
  | ["str", name, text] => some (.word name text)
  | ["copy", name, "from", path] => some (.copy name path)
  | ["dynamic", name, "from", path] => some (.load name path)
  | ["try", name, "from", path] => some (.attempt name path)
  | ["all", name, "from", specifier] => some (.whole name specifier)
  | ["meta", name] => some (.about name)
  | ["referrer", name] => some (.referrer name)
  | ["count", name] => some (.size name)
  | ["scope", name] => some (.scope name)
  | ["throw", message] => some (.fail message)
  | _ => none

def statements (code : String) : List Statement :=
  (Text.lines code.toList).filterMap fun line =>
    Statement.ofWords? ((Text.words line).map String.ofList)

def failure {α : Type} (message : String) : Except LoadError α := .error (.host message)

/-- A path as a specifier and the name of an export: what stands before its last dot and what stands
behind. -/
def splitPath (path : String) : Except LoadError (String × String) :=
  match Text.splitLast? '.' path.toList with
  | some (specifier, key) => .ok (String.ofList specifier, String.ofList key)
  | none => failure "bad path"

def importedNamespace (scope : EvaluationScope) (specifier : String) :
    Except LoadError Namespace :=
  match scope.imports.get? specifier with
  | some exports => .ok exports
  | none => failure s!"no import {specifier}"

/-- An export of a namespace, undefined if there is none. -/
def exportOf (exports : Namespace) (key : String) : Value :=
  (exports.exports.get? key).getD .undefined

/-- The export of a static import that a path names. -/
def copied (scope : EvaluationScope) (path : String) : Except LoadError Value := do
  let (specifier, key) ← splitPath path
  return exportOf (← importedNamespace scope specifier) key

/-- The value of an outcome, or the text of its failure. -/
def valueOrMessage (key : String) : Except LoadError Namespace → Except LoadError Value
  | .ok exports => .ok (exportOf exports key)
  | .error e => .ok (.string e.message)

def numberOf (text : String) : Except LoadError Value :=
  match Decimal.read? text with
  | some x => .ok (.number x)
  | none => failure s!"bad number {text}"

/-- The program that goes on with the exports after one more, or ends with a failure. -/
def proceed (exports : Properties) (name : String) (next : Properties → Script World) :
    Except LoadError Value → Script World
  | .ok value => next (exports.insert name value)
  | .error e => .finish (.error e)

/-- The program of statements, where `exports` holds what was exported before. -/
def run (scope : EvaluationScope) : List Statement → Properties → Script World
  | [], exports => .finish (.ok exports)
  | statement :: rest, exports =>
    match statement with
    | .number name text => proceed exports name (run scope rest) (numberOf text)
    | .word name text => proceed exports name (run scope rest) (.ok (.string text))
    | .copy name path => proceed exports name (run scope rest) (copied scope path)
    | .load name path =>
      match splitPath path with
      | .error e => .finish (.error e)
      | .ok (specifier, key) =>
        .importModule specifier fun outcome =>
          proceed exports name (run scope rest) (outcome.map fun found => exportOf found key)
    | .attempt name path =>
      match splitPath path with
      | .error e => .finish (.error e)
      | .ok (specifier, key) =>
        .importModule specifier fun outcome =>
          proceed exports name (run scope rest) (valueOrMessage key outcome)
    | .whole name specifier =>
      proceed exports name (run scope rest)
        ((importedNamespace scope specifier).map Value.ofNamespace)
    | .about name =>
      .allocate fun id =>
        proceed exports name (run scope rest) (.ok (scope.importMeta.toValue id))
    | .referrer name => proceed exports name (run scope rest) (.ok (.string scope.referrer))
    | .size name =>
      proceed exports name (run scope rest) (.ok (.number (Float.ofNat scope.imports.size)))
    | .scope name => proceed exports name (run scope rest) (.ok (.string scope.describe))
    | .fail message => .finish (failure message)

/-- The evaluation of a module: it is recorded first. -/
def evaluate (m : StaticModule) (scope : EvaluationScope) : Script World :=
  .update (fun world => { world with evaluated := world.evaluated ++ [m.url] })
    (run scope (statements m.code) .empty)

/-- A native module: its exports, or the reason for which it cannot be imported. -/
inductive Native where
  | exports (properties : Properties)
  | failing (reason : String)

/-- The import of a native module, which is recorded first, from a table whose row `*` is for all
URLs that have none. -/
def importNative (natives : OrderedMap Native) (url : String) :
    StateM World (Except LoadError Properties) := do
  modify fun world => { world with imported := count world.imported url }
  match natives.get? url <|> natives.get? "*" with
  | some (.exports properties) => return .ok properties
  | some (.failing reason) => return .error (.nativeImport url reason)
  | none => return .error (.nativeImport url "Cannot find module")

end ModuleLoader.Scripted
