import ModuleLoader.TypeScript.Mention

/-! The scopes of a program: which names it uses without binding them in an inner scope, and which
names it binds more often than it may. -/

namespace ModuleLoader.TypeScript

namespace BindingKind

/-- A binding contradicts an earlier one of the same name in the same scope, in a program with
types. -/
def clashes (new old : BindingKind) : Bool :=
  match new with
  | .hoisted | .caught => old.isOwnValue && !old.isVariable && old != .function
  | .parameter => old.isOwnValue && old != .function
  | .lexical => old.isOwnValue
  | .function =>
    old.isOwnValue && old != .function && old != .classValue && old != .namespace
  | .classValue =>
    (old.isOwnValue || old.isOwnType) && old != .function && old != .namespace && old != .interface
  | .enumeration =>
    (old.isOwnValue || old.isOwnType) && old != .enumeration && old != .namespace
  | .constantEnumeration => (old.isOwnValue || old.isOwnType) && old != .constantEnumeration
  | .member => old == .member
  | .namespace =>
    old.isOwnValue &&
      !([BindingKind.function, .classValue, .enumeration, .namespace].contains old)
  | .typeNamespace => false
  | .imported | .importedType => old == .imported || old == .importedType
  | .alias => old.isOwnType
  | .interface => old.isOwnType && old != .interface && old != .classValue
  | .typeParameter => old.isOwnType && old != .typeParameter

/-- A binding contradicts an earlier one of the same name in the same scope, in a program without
types.  Only functions within functions can be bound again. -/
def clashesPlainly (scope : ScopeKind) (new old : BindingKind) : Bool :=
  if new == .imported then old.isValue
  else if old == .imported then new.isValue
  else if new == .function || old == .function then
    if scope == .function then
      new == .lexical || new == .classValue || old == .lexical || old == .classValue
    else new.isOwnValue && old.isOwnValue
  else new.clashes old

end BindingKind

/-- A use of a name that no scope so far binds. -/
inductive Pending where
  | use (name : String)
  | link (name root : String)
  | learned (type : TypeShape)

/-- A scope while the program goes through it. -/
structure Frame where
  kind : ScopeKind
  bindings : List Binding := []
  /-- The names that blocks in the scope bind for the function around it. -/
  passing : List String := []
  pending : List Pending := []

namespace Frame

/-- The kinds of the bindings of a name. -/
def kindsOf (f : Frame) (name : String) : List BindingKind :=
  (f.bindings.filter fun b => b.name == name).map Binding.kind

/-- The scope binds the name to a value. -/
def bindsValue (f : Frame) (name : String) : Bool := (f.kindsOf name).any BindingKind.isValue

def withBinding (f : Frame) (b : Binding) : Frame := { f with bindings := f.bindings ++ [b] }

def contradicts (typed : Bool) (f : Frame) (b : Binding) : Bool :=
  let clash (old : BindingKind) : Bool :=
    if typed then b.kind.clashes old else b.kind.clashesPlainly f.kind old
  (f.kindsOf b.name).any clash || (f.passing.contains b.name && clash .hoisted)

mutual

/-- What the scope says about the names in a type. -/
def settleType (f : Frame) : TypeShape → TypeShape
  | .named root =>
    let kinds := (f.kindsOf root)
    if kinds.any BindingKind.isType then
      if kinds.any BindingKind.isValue then .value else .object
    else .named root
  | .combined isIntersection parts => .combined isIntersection (f.settleTypes parts)
  | type => type

/-- What the scope says about the names in types. -/
def settleTypes (f : Frame) : List TypeShape → List TypeShape
  | [] => []
  | type :: rest => f.settleType type :: f.settleTypes rest

end

/-- What is left of a use behind the scope. -/
def settle (f : Frame) : Pending → Option Pending
  | .use name => if f.bindsValue name then none else some (.use name)
  | .link _ root => if f.bindsValue root then none else some (.use root)
  | .learned type => some (.learned (f.settleType type))

/-- The uses that the scope leaves to the one around it, backwards. -/
def left (f : Frame) : List Pending := f.pending.filterMap f.settle

def withPending (f : Frame) (uses : List Pending) : Frame := { f with pending := uses ++ f.pending }

end Frame

/-- The scopes around a place in a program, the innermost one first. -/
structure Scopes where
  typed : Bool
  inner : Frame
  outer : List Frame := []
  /-- The names that are bound too often, backwards. -/
  clashes : List String := []

namespace Scopes

def bindHere (s : Scopes) (b : Binding) : Scopes :=
  { s with
    inner := s.inner.withBinding b
    clashes := if s.inner.contradicts s.typed b then b.name :: s.clashes else s.clashes }

/-- Binds a variable in the first of the scopes that keeps variables.  The scopes on the way there
know of it, and one of them that already binds the name takes it over. -/
def hoist (typed : Bool) (b : Binding) : (taken : Bool) → List Frame → List Frame × Bool
  | _, [] => ([], false)
  | taken, f :: rest =>
    let clash := !taken && f.contradicts typed b
    if f.kind == .block then
      let known := !(f.kindsOf b.name).isEmpty || f.passing.contains b.name
      let (rest, others) := hoist typed b (taken || known) rest
      ({ f with passing := b.name :: f.passing } :: rest, clash || others)
    else if taken && !(f.kindsOf b.name).isEmpty then (f :: rest, false)
    else (f.withBinding b :: rest, clash)

def bind (s : Scopes) (b : Binding) : Scopes :=
  if b.kind == .hoisted then
    match hoist s.typed b false (s.inner :: s.outer) with
    | (inner :: outer, clash) =>
      { s with inner, outer, clashes := if clash then b.name :: s.clashes else s.clashes }
    | ([], _) => s
  else s.bindHere b

def enter (s : Scopes) (kind : ScopeKind) : Scopes :=
  { s with inner := { kind }, outer := s.inner :: s.outer }

def leave (s : Scopes) : Scopes :=
  match s.outer with
  | [] => s
  | f :: rest => { s with inner := f.withPending s.inner.left, outer := rest }

/-- Leaves the uses so far to the scope around. -/
def settle (s : Scopes) : Scopes :=
  match s.outer with
  | [] => s
  | f :: rest =>
    { s with inner := { s.inner with pending := [] }, outer := f.withPending s.inner.left :: rest }

mutual

/-- The scopes behind something that the program says. -/
def after (s : Scopes) : Mention → Scopes
  | .use name => { s with inner := s.inner.withPending [.use name] }
  | .link name root => { s with inner := s.inner.withPending [.link name root] }
  | .learned type => { s with inner := s.inner.withPending [.learned type] }
  | .binding b => s.bind b
  | .settled => s.settle
  | .scope kind inner => ((s.enter kind).afterAll inner).leave

/-- The scopes behind several things that the program says. -/
def afterAll (s : Scopes) : List Mention → Scopes
  | [] => s
  | m :: rest => (s.after m).afterAll rest

end

def ofProgram (typed : Bool) (mentions : List Mention) : Scopes :=
  afterAll { typed, inner := { kind := .program } } mentions

end Scopes

namespace TypeShape

/-- What decorators learn of a type. -/
inductive Learned where
  | object
  /-- The value that a named type is. -/
  | named
  | constant (name : String)
  deriving DecidableEq

mutual

/-- What decorators learn of a type, and the names that are looked up for it.  A name that stands
for a type only tells nothing. -/
def learn (isOnlyType : String → Bool) : TypeShape → Learned × List String
  | .named root => if isOnlyType root then (.object, []) else (.named, [root])
  | .value => (.named, [])
  | .constant name => (if name = "Object" then .object else .constant name, [])
  | .any | .unknown => (.object, [])
  | .never | .nothing => (.constant "undefined", [])
  | .combined isIntersection parts => learnAll isOnlyType isIntersection none parts

/-- What decorators learn of the parts of a type, where `seen` is what they learned so far.  They go
on while the parts agree. -/
def learnAll (isOnlyType : String → Bool) (isIntersection : Bool) (seen : Option Learned) :
    List TypeShape → Learned × List String
  | [] => (seen.getD (.constant "undefined"), [])
  | part :: rest =>
    match part with
    | .any => (.object, [])
    | .nothing => learnAll isOnlyType isIntersection seen rest
    | .never =>
      if isIntersection then (.constant "undefined", [])
      else learnAll isOnlyType isIntersection seen rest
    | .unknown =>
      if isIntersection then learnAll isOnlyType isIntersection seen rest else (.object, [])
    | part =>
      let (learned, names) := learn isOnlyType part
      if learned == .object || seen.any (· != learned) || (seen.isSome && learned == .named) then
        (.object, names)
      else
        let (last, others) := learnAll isOnlyType isIntersection (some learned) rest
        (last, names ++ others)

end

end TypeShape

end ModuleLoader.TypeScript
