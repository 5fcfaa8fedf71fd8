/-! What a program says about names: where it binds and where it uses them, and in which scopes. -/

namespace ModuleLoader.TypeScript

/-- How a name is bound. -/
inductive BindingKind where
  | hoisted
  | parameter
  /-- What a handler of errors calls the error. -/
  | caught
  | lexical
  | function
  /-- A class, which is a value and a type. -/
  | classValue
  | enumeration
  | constantEnumeration
  /-- A member of an enumeration, within it. -/
  | member
  | namespace
  | typeNamespace
  | imported
  | importedType
  | alias
  | interface
  | typeParameter
  deriving DecidableEq

namespace BindingKind

def isVariable (k : BindingKind) : Bool := k == .hoisted || k == .parameter || k == .caught

/-- The name stands for a value that the program makes itself. -/
def isOwnValue : BindingKind → Bool
  | .hoisted | .parameter | .caught | .lexical | .function | .classValue | .enumeration
  | .constantEnumeration | .member | .namespace => true
  | _ => false

def isValue (k : BindingKind) : Bool := k.isOwnValue || k == .imported

/-- The name stands for a type that is not a namespace. -/
def isOwnType : BindingKind → Bool
  | .classValue | .enumeration | .constantEnumeration | .member | .alias | .interface
  | .typeParameter => true
  | _ => false

/-- The name can be used as a type. -/
def isType (k : BindingKind) : Bool := k.isOwnType || k == .imported || k == .importedType

end BindingKind

/-- A binding of a name. -/
structure Binding where
  name : String
  kind : BindingKind
  isAmbient : Bool := false
  deriving DecidableEq

/-- What is known about a type when the program runs. -/
inductive TypeShape where
  /-- A type by the first of its names. -/
  | named (root : String)
  /-- A named type that is also a value of the program. -/
  | value
  /-- A type that a value of the language stands for. -/
  | constant (name : String)
  | any
  | unknown
  | never
  /-- The type of what is not there. -/
  | nothing
  | combined (isIntersection : Bool) (parts : List TypeShape)

namespace TypeShape

def object : TypeShape := .constant "Object"

def array : TypeShape := .constant "Array"

def isArray : TypeShape → Bool
  | .constant name => name == "Array"
  | _ => false

end TypeShape

/-- What a scope belongs to. -/
inductive ScopeKind where
  | program
  /-- A scope that keeps the variables of its blocks. -/
  | function
  | block
  deriving DecidableEq

/-- Something that a program says about names. -/
inductive Mention where
  /-- The value of the name is used. -/
  | use (name : String)
  /-- The name is bound to what the first of other names leads to.  That name is empty where a whole
  module is meant. -/
  | link (name root : String)
  /-- The type goes into what decorators learn. -/
  | learned (type : TypeShape)
  | binding (b : Binding)
  /-- What was used in the scope so far does not see what is bound in it from here on. -/
  | settled
  | scope (kind : ScopeKind) (inner : List Mention)

end ModuleLoader.TypeScript
