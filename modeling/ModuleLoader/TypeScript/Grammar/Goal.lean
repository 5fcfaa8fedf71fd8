import ModuleLoader.TypeScript.Reader

/-! What the rules of the grammar are for, and what they tell about what they read. -/

namespace ModuleLoader.TypeScript

/-- What an expression means as a target of an assignment. -/
structure Target where
  /-- The places of the properties in it that have a value by default. -/
  finished : List Nat := []
  /-- The number of commas behind the last target of a list that takes all the rest. -/
  trailing : Nat := 0

/-- The form of an expression, as far as that matters for what stands around it. -/
inductive Shape where
  | name (name : String)
  | member
  /-- An array or an object, which may have a meaning as a target. -/
  | literal (target : Option Target)
  | assignment
  | parenthesized (inner : Shape)
  /-- An expression with a type that is asserted, behind it or before it. -/
  | asserted (before : Bool) (inner : Shape)
  | instantiated (inner : Shape)
  | signed
  /-- Operands of a logical operator, which may be the one that asks for presence only. -/
  | logical (isCoalescing : Bool)
  | importCall
  /-- A private name that is looked for in a value. -/
  | privateIn
  | other

namespace Shape

/-- The expression without parentheses and types around it. -/
def core : Shape → Shape
  | .parenthesized inner | .asserted _ inner | .instantiated inner => inner.core
  | shape => shape

/-- The expression is a variable or a member, which can be assigned to. -/
def isPlace : Shape → Bool
  | .name _ | .member => true
  | _ => false

/-- The expression can be the target of any assignment. -/
def isSimpleTarget : Shape → Bool
  | .name _ | .member => true
  | .parenthesized inner => inner.isSimpleTarget
  | .asserted _ inner => inner.core.isPlace
  | _ => false

/-- The meaning of an expression as the target of an assignment of a plain value. -/
def target? : Shape → Option Target
  | .literal target => target
  | shape => if shape.isSimpleTarget then some {} else none

/-- The expression must stand between parentheses to be raised to a power. -/
def isSigned : Shape → Bool
  | .signed | .asserted true _ => true
  | _ => false

/-- The expression is made of operands of one of the logical operators that do not go with the one
that asks for presence only. -/
def isPlainLogical : Shape → Bool
  | .logical false => true
  | _ => false

/-- The meaning of an expression as a part of a target, where it may have a value by default. -/
def part? : Shape → Option Target
  | .assignment => some {}
  | shape => shape.target?

end Shape

/-- A statement of which nothing is left. -/
structure Erased where
  isExport : Bool := false
  /-- A namespace in which the statement stands is left. -/
  holds : Bool := false
  /-- A namespace in which the statement stands has values. -/
  isValue : Bool := false
  deriving DecidableEq

/-- A name that an import binds. -/
structure ImportedName where
  /-- The name in the other module, as it is written. -/
  imported : String
  name : String
  isType : Bool := false
  deriving DecidableEq

/-- What an import binds. -/
structure ImportClause where
  default : Option String := none
  whole : Option String := none
  named : Option (List ImportedName) := none
  deriving DecidableEq

/-- The module that a statement names, and the attributes behind its specifier. -/
structure ModuleName where
  specifier : String
  attributes : String := ""
  deriving DecidableEq

/-- A name that a list of exports mentions. -/
structure ExportedName where
  /-- The name in this module, or in the module that the list is from, as it is written. -/
  name : String
  exported : String
  isType : Bool := false
  deriving DecidableEq

/-- A statement. -/
inductive Item where
  /-- An import; a bare one has no clause.  The phase is a word before the clause. -/
  | importFrom (isType : Bool) (phase : String) (clause : Option ImportClause) (source : ModuleName)
  /-- A name for what another name leads to, with the text of the statement. -/
  | link (name : String) (text : List Char)
  | exportNames (isType : Bool) (names : List ExportedName) (source : Option ModuleName)
  /-- The export of all that another module exports, perhaps as one object. -/
  | exportAll (isType : Bool) (name : Option String) (source : ModuleName)
  | code (isExport : Bool) (text : List Char)
  | erased (e : Erased)
  deriving DecidableEq

namespace Item

/-- A namespace in which the statement stands is left. -/
def holds : Item → Bool
  | .erased e => e.holds
  | _ => true

/-- A namespace in which the statement stands has values. -/
def isValue : Item → Bool
  | .erased e => e.isValue
  | .importFrom .. | .link .. => false
  | .exportNames isType .. | .exportAll isType .. => !isType
  | .code .. => true

end Item

/-- What becomes of a statement that was read. -/
inductive Outcome where
  | stays (isExport : Bool)
  | erased (e : Erased)
  | parts (item : Item)
  deriving DecidableEq

/-- Where a statement stands. -/
inductive Place where
  | list
  /-- The statement is a part of another one, which is no block. -/
  | single
  deriving DecidableEq

/-- What a grammar has rules for. -/
inductive Goal where
  | type
  /-- An expression, which may be a list of expressions. -/
  | expression
  /-- An expression without commas at its top; the result of a function in it may have a type if
  `annotated`. -/
  | assignment (annotated : Bool)
  /-- Operands with operators that bind more strongly than the given number says. -/
  | binary (above : Nat)
  /-- An operand with the signs before it. -/
  | unary
  /-- An operand with the accesses behind it. -/
  | leftHand
  | pattern (kind : BindingKind)
  | statement (place : Place)
  /-- An element or a fragment of JSX, without its last angle bracket. -/
  | markup

/-- What a rule tells about what it read. -/
abbrev Goal.Result : Goal → Type
  | .type => TypeShape
  | .expression | .assignment _ | .binary _ | .unary | .leftHand => Shape
  | .pattern _ | .markup => Unit
  | .statement _ => Item

/-- The readers of the parts that a rule is made of. -/
abbrev Grammar := (goal : Goal) → Reader goal.Result

namespace Grammar

variable (g : Grammar)

def type : Reader TypeShape := g .type

def anyType : Reader Unit := do
  let _ ← g.type

def expression : Reader Unit := do
  let _ ← g .expression

/-- Reads an expression without commas at its top, whatever it is. -/
def assignment : Reader Unit := do
  let _ ← g (.assignment true)

/-- Reads an expression between signs, where nothing around them restricts it. -/
def enclosedAssignment : Reader Unit := Reader.enclosed g.assignment

def pattern (kind : BindingKind) : Reader Unit := g (.pattern kind)

/-- Reads a statement, whatever is left of it. -/
def statement (place : Place) : Reader Unit := do
  let _ ← g (.statement place)

end Grammar

end ModuleLoader.TypeScript
