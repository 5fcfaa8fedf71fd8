import ModuleLoader.TypeScript.Grammar.Functions

/-! The rules for classes. -/

namespace ModuleLoader.TypeScript

/-- What decorators do with a member of a class. -/
structure MemberFacts where
  isDecorated : Bool := false
  hasDecoratedParameter : Bool := false
  isConstructor : Bool := false

/-- What stands before the name of a member. -/
structure MemberHead where
  isDecorated : Bool
  modifiers : List String
  /-- The member reads or writes a property: whether it reads it. -/
  access : Option Bool := none
  isGenerator : Bool := false

namespace MemberHead

def isStatic (h : MemberHead) : Bool := h.modifiers.contains "static"

def isAsync (h : MemberHead) : Bool := h.modifiers.contains "async"

def isDeclared (h : MemberHead) : Bool :=
  h.modifiers.contains "declare" || h.modifiers.contains "abstract"

end MemberHead

namespace Classes

open Reader Words Parts

variable (g : Grammar)

def memberModifiers : List String :=
  ["public", "private", "protected", "static", "abstract", "override", "readonly", "declare",
    "async", "accessor"]

/-- Reads what stands before the name of a member. -/
def memberHead : Reader MemberHead := do
  let isDecorated ← decorators g
  let words ← modifiers true
  checkModifiers memberModifiers words
  let isReader ← atWord "get"
  let access ← Types.accessWord
  mistakeIf (access && words.contains "async") "'async' modifier cannot be used here"
  return {
    isDecorated, modifiers := words, access := if access then some isReader else none,
    isGenerator := ← acceptMark "*" }

/-- Notes the mistakes in the name of a member. -/
def checkName (h : MemberHead) (name : PropertyName) : Reader Unit := do
  match name with
  | .hidden hidden => do
    mistakeIf (hidden == "constructor") "Classes can't have an element named '#constructor'"
    mistakeIf (h.modifiers.any isAccess)
      "An accessibility modifier cannot be used with a private identifier"
  | name =>
    mistakeIf (h.isStatic && name.isText "prototype")
      "Classes may not have a static property named prototype"

/-- The types that decorators learn of a method. -/
def methodTypes (h : MemberHead) (f : FunctionHead) : List TypeShape :=
  let first := (f.parameters.types.head?).toList
  match h.access with
  | some true => f.result.toList
  | some false => first
  | none => f.parameters.types ++ if h.isAsync then [] else f.result.toList

/-- The types that decorators learn of a function.  They learn some if it is decorated itself, or a
parameter is. -/
def learnedTypes (isLearned isDecorated : Bool) (types : FunctionHead → List TypeShape)
    (f : FunctionHead) : List TypeShape :=
  if isLearned && (isDecorated || f.parameters.areDecorated) then types f else []

/-- The next token names a constructor.  As a text it does so before parameters only. -/
def startsConstructor (h : MemberHead) : Reader Bool := do
  if h.isStatic || h.access.isSome || h.isGenerator then return false
  match ← peek with
  | .word name => return name == "constructor"
  | .string text => return text == "constructor" && (← peekSecond) == .mark "("
  | _ => return false

/-- Reads a constructor from its name on, and tells whether it is only declared.  Only the first
one of a class tells decorators anything. -/
def constructorMember (h : MemberHead) (isLearned classDecorated : Bool) :
    Reader (Bool × MemberFacts) := do
  skip
  mistakeIf h.isAsync "Class constructor may not be async"
  if (← hasTypes) && (← atLeftAngle) then
    mistake "Type parameters cannot appear on a constructor declaration"
  let f ← Functions.learnedFunction g h.isAsync false
    (learnedTypes isLearned classDecorated fun f => f.parameters.types)
  mistakeIf f.parameters.hasThis "A constructor cannot have a 'this' parameter"
  return (!f.isWhole,
    { isConstructor := true, hasDecoratedParameter := f.parameters.areDecorated })

/-- Reads a method from its parameters on, and tells whether it is only declared. -/
def methodRest (h : MemberHead) (isLearned : Bool) : Reader (Bool × MemberFacts) := do
  let f ← Functions.learnedFunction g h.isAsync h.isGenerator fun f =>
    learnedTypes (isLearned && f.isWhole) h.isDecorated (methodTypes h) f
  match h.access with
  | some isReader => Functions.checkAccess isReader f.parameters
  | none => pure ()
  if f.isWhole then
    return (h.isDeclared,
      { isDecorated := h.isDecorated, hasDecoratedParameter := f.parameters.areDecorated })
  else return (true, {})

/-- Reads a property from its type on, and tells whether it is only declared. -/
def propertyRest (h : MemberHead) (isLearned : Bool) : Reader (Bool × MemberFacts) := do
  if h.access.isSome || h.isGenerator then failure
  mistakeIf h.isAsync "'async' modifier cannot be used here"
  let type ← annotation g
  if isLearned && h.isDecorated && !h.isDeclared then
    mention (.learned (type.getD .object))
  let _ ← within (Functions.inFunction false false) (initializer g)
  endStatement
  return (h.isDeclared, { isDecorated := h.isDecorated && !h.isDeclared })

/-- Reads a member that is no constructor from its name on, and tells whether it is only
declared. -/
def namedMember (h : MemberHead) (isLearned : Bool) : Reader (Bool × MemberFacts) := do
  let name ← propertyName g
  checkName h name
  let isConstructor := !h.isStatic && name.isText "constructor"
  let isOptional ← atMark "?"
  eraseIf (pure isOptional) skip
  if (← atMark "(") || (← atLeftAngle) then
    mistakeIf isConstructor "Class constructor may not be an accessor or a generator"
    methodRest g h isLearned
  else
    let isDefinite := (← atMark "!") && !(← newlineAhead)
    eraseIf (pure isDefinite) skip
    mistakeIf (isOptional && (isDefinite || h.modifiers.contains "accessor"))
      "The property cannot be optional"
    mistakeIf (name.isText "constructor") "Classes can't have a field named 'constructor'"
    propertyRest g h isLearned

/-- Reads code that runs when the class is made. -/
def staticBlock : Reader Unit := do
  skip
  mark "\x7b"
  scope .function <|
    within (fun c => { Functions.inFunction true false c with returns := false })
      (untilBrace (g.statement .list))

/-- Reads a member of a class, and notes what decorators do with it. -/
def member (isLearned classDecorated : Bool) : Reader MemberFacts := do
  if (← atWord "static") && (← peekSecond) == .mark "\x7b" then
    staticBlock g
    return {}
  let kept := (← get).kept
  let h ← memberHead g
  let (isErased, facts) ←
    if ← Types.startsIndexSignature then
      typed (Types.indexSignature g)
      Types.endMember
      pure (true, {})
    else if ← startsConstructor h then constructorMember g h isLearned classDecorated
    else namedMember g h isLearned
  if isErased then modify fun s => { s with kept }
  return facts

/-- Reads the members of a class between braces. -/
def members (isLearned classDecorated : Bool) : Reader (List MemberFacts) := do
  mark "\x7b"
  let facts ← gatherMembers
  mark "\x7d"
  return facts
where
  /-- Reads members, of which only the first constructor tells decorators its types. -/
  gatherMembers : Reader (List MemberFacts) := do membersFrom true (← get).rounds
  /-- Reads members, at most `fuel` of them. -/
  membersFrom (isFirst : Bool) : (fuel : Nat) → Reader (List MemberFacts)
    | 0 => failure
    | fuel + 1 => do
      if ← acceptMark ";" then membersFrom isFirst fuel
      else if ← atMark "\x7d" then return []
      else
        let facts ← member g isLearned (classDecorated && isFirst)
        return facts :: (← membersFrom (isFirst && !facts.isConstructor) fuel)

/-- Notes what the decorators of a class and its members need. -/
def noteDecorators (isDecorated : Bool) (facts : List MemberFacts) : Reader Unit := do
  let constructors := facts.filter MemberFacts.isConstructor
  let others := facts.filter fun f =>
    !f.isConstructor && (f.isDecorated || f.hasDecoratedParameter)
  let parameters := constructors.any MemberFacts.hasDecoratedParameter
  let isDecorated := isDecorated || parameters
  needIf (!others.isEmpty || (isDecorated && !constructors.isEmpty)) .learnedType
  for f in others do
    needIf f.hasDecoratedParameter .decoratedParameter
    need .decorator
  needIf parameters .decoratedParameter
  needIf isDecorated .decorator

def extendsClause : Reader Unit := do
  let found ← gatherBases
  mistakeIf (1 < found.length) "Classes can only extend a single class"
where
  gatherBases : Reader (List Unit) := do
    let first ← base
    let others ← gather do
      if ← acceptMark "," then some <$> base else return none
    return first :: others
  base : Reader Unit := do
    let _ ← g .leftHand
    eraseIf atLeftAngle (typeArguments g)

def implementsClause : Reader Unit :=
  typed <| erase do
    skip
    let _ ← Types.reference g
    repeatWhile do
      if ← acceptMark "," then
        let _ ← Types.reference g
        return true
      else return false

/-- Reads what a class says about other classes and about interfaces, where some of it `extended`
or `implemented` something before; at most `fuel` times. -/
def heritage (extended implemented : Bool) : (fuel : Nat) → Reader Unit
  | 0 => failure
  | fuel + 1 => do
    if ← acceptWord "extends" then
      mistakeIf extended "'extends' clause already seen"
      mistakeIf (!extended && implemented) "'extends' clause must precede 'implements' clause"
      extendsClause g
      heritage true implemented fuel
    else if ← atWord "implements" then
      mistakeIf implemented "'implements' clause already seen"
      implementsClause g
      heritage extended true fuel

/-- The token is the name of a class, if it stands behind `class`. -/
def isClassName (token : Token) : Bool := isName token && token != .word "implements"

/-- Reads a class from its type parameters on. -/
def classRest (isLearned isDecorated : Bool) : Reader Unit := do
  typeParameters g
  heritage g false false (← get).rounds
  let facts ← members g isLearned isDecorated
  if isLearned then noteDecorators isDecorated facts

/-- Reads a class expression, with the decorators before it. -/
def expression : Reader Unit := do
  let _ ← decorators g
  word "class"
  scope .block do
    if isClassName (← peek) then
      let _ ← boundName .classValue
    classRest g false false

/-- Reads a class that is declared, from the word for it on.  What is decorated is put together by
calls unless the class exists elsewhere. -/
def declaration (isDecorated : Bool) : Reader Unit := do
  word "class"
  if isClassName (← peek) then
    let _ ← boundName .classValue
  scope .block (classRest g (!(← get).context.isAmbient) isDecorated)

end Classes

end ModuleLoader.TypeScript
