import ModuleLoader.Decimal.Text
import ModuleLoader.OrderedMap

/-! Values that pass between the loader and the runtime that hosts it.  Objects have an identity
besides their properties: two objects are equal only if they are one object. -/

namespace ModuleLoader

abbrev ObjectId := Nat

/-- An object that belongs to the host, known to the loader by its name or number only. -/
inductive Handle where
  | named (name : String)
  | numbered (number : Nat)
  deriving DecidableEq

/-- Properties as an object lists them.  Who reads them takes them for those of a map. -/
structure PropertyList (α : Type) where
  entries : List (String × α)

/-- The list of the properties of a map. -/
def OrderedMap.listed {α : Type} (m : OrderedMap α) : PropertyList α := ⟨m.entries⟩

def PropertyList.ofList {α : Type} (entries : List (String × α)) : PropertyList α :=
  (OrderedMap.ofList entries).listed

/-- A value of the host. -/
inductive Value where
  | undefined
  | null
  | boolean (b : Bool)
  | number (x : Float)
  | string (s : String)
  | object (id : ObjectId) (properties : PropertyList Value)
  | handle (h : Handle)

instance : Inhabited Value := ⟨.undefined⟩

/-- The properties of an object in the order of their insertion. -/
abbrev Properties := OrderedMap Value

/-- The exports of an evaluated module, as one object. -/
structure Namespace where
  id : ObjectId
  exports : Properties

instance : Inhabited Namespace := ⟨0, .empty⟩

namespace Value

def ofNamespace (ns : Namespace) : Value := .object ns.id ns.exports.listed

/-- Two values are equal: numbers as doubles, so that no number equals the one that is none, and
objects and handles by identity. -/
def equals : Value → Value → Bool
  | .undefined, .undefined => true
  | .null, .null => true
  | .boolean a, .boolean b => a == b
  | .number a, .number b => a == b
  | .string a, .string b => a == b
  | .object a _, .object b _ => a == b
  | .handle a, .handle b => a == b
  | _, _ => false

def isUndefined : Value → Bool
  | .undefined => true
  | _ => false

/-- The truth value of a value: false for undefined, null, zero, the number that is none, and the
empty string. -/
def truthy : Value → Bool
  | .undefined | .null => false
  | .boolean b => b
  | .number x => !x.isNaN && x != 0
  | .string s => !s.isEmpty
  | .object .. | .handle _ => true

def properties? : Value → Option Properties
  | .object _ properties => some (.ofList properties.entries)
  | _ => none

/-- The name of the type of a value. -/
def typeName : Value → String
  | .undefined => "undefined"
  | .null | .object .. | .handle _ => "object"
  | .boolean _ => "boolean"
  | .number _ => "number"
  | .string _ => "string"

def text : Value → String
  | .undefined => "undefined"
  | .null => "null"
  | .boolean b => if b then "true" else "false"
  | .number x => Decimal.positional x
  | .string s => s
  | .object .. => "[object Object]"
  | .handle _ => "[object HostObject]"

end Value

end ModuleLoader
