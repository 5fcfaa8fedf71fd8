import ModuleLoader.Json.Token

/-! JSON documents as trees over their tokens.  A machine with a stack of open containers reads a
tree off its tokens, one token a step. -/

namespace ModuleLoader.Json

/-- The tree of a JSON text; strings and numbers are spelt as in the text. -/
inductive Document where
  | null
  | boolean (b : Bool)
  | number (spelling : List Char)
  | string (spelling : List Char)
  | array (items : List Document)
  | object (members : List (List Char × Document))

namespace Document

mutual

def tokens : Document → List Token
  | .null => [.null]
  | .boolean b => [.boolean b]
  | .number spelling => [.number spelling]
  | .string spelling => [.string spelling]
  | .array items => .openBracket :: itemsTokens items ++ [.closeBracket]
  | .object members => .openBrace :: membersTokens members ++ [.closeBrace]

def itemsTokens : List Document → List Token
  | [] => []
  | [item] => item.tokens
  | item :: rest => item.tokens ++ .comma :: itemsTokens rest

def membersTokens : List (List Char × Document) → List Token
  | [] => []
  | [(key, value)] => .string key :: .colon :: value.tokens
  | (key, value) :: rest => .string key :: .colon :: value.tokens ++ .comma :: membersTokens rest

end

mutual

/-- The number of containers that a document nests. -/
def depth : Document → Nat
  | .array items => itemsDepth items + 1
  | .object members => membersDepth members + 1
  | _ => 0

def itemsDepth : List Document → Nat
  | [] => 0
  | item :: rest => max item.depth (itemsDepth rest)

/-- The greatest depth of the values of members. -/
def membersDepth : List (List Char × Document) → Nat
  | [] => 0
  | (_, value) :: rest => max value.depth (membersDepth rest)

end

/-- A container that is not closed yet, its parts last first. -/
inductive Frame where
  | items (read : List Document)
  | members (read : List (List Char × Document))
  | member (read : List (List Char × Document)) (key : List Char)

/-- What the reader stands before, inside the open containers. -/
inductive Reading where
  | value (stack : List Frame)
  | firstItem (stack : List Frame)
  | separator (stack : List Frame)
  | firstKey (stack : List Frame)
  | key (stack : List Frame)
  | colon (key : List Char) (stack : List Frame)
  | finished (document : Document)

def complete (document : Document) : List Frame → Option Reading
  | [] => some (.finished document)
  | .items read :: stack => some (.separator (.items (document :: read) :: stack))
  | .member read key :: stack => some (.separator (.members ((key, document) :: read) :: stack))
  | .members _ :: _ => none

/-- The reading after the first token of a value. -/
def begin (stack : List Frame) : Token → Option Reading
  | .null => complete .null stack
  | .boolean b => complete (.boolean b) stack
  | .number spelling => complete (.number spelling) stack
  | .string spelling => complete (.string spelling) stack
  | .openBracket => some (.firstItem (.items [] :: stack))
  | .openBrace => some (.firstKey (.members [] :: stack))
  | _ => none

def Reading.step : Reading → Token → Option Reading
  | .value stack, token => begin stack token
  | .firstItem (.items read :: stack), .closeBracket => complete (.array read.reverse) stack
  | .firstItem stack, token => begin stack token
  | .separator (.items read :: stack), .comma => some (.value (.items read :: stack))
  | .separator (.items read :: stack), .closeBracket => complete (.array read.reverse) stack
  | .separator (.members read :: stack), .comma => some (.key (.members read :: stack))
  | .separator (.members read :: stack), .closeBrace => complete (.object read.reverse) stack
  | .firstKey (.members read :: stack), .closeBrace => complete (.object read.reverse) stack
  | .firstKey stack, .string name => some (.colon name stack)
  | .key stack, .string name => some (.colon name stack)
  | .colon name (.members read :: stack), .colon => some (.value (.member read name :: stack))
  | _, _ => none

def Reading.run (reading : Reading) : List Token → Option Reading
  | [] => some reading
  | token :: rest => (reading.step token).bind (run · rest)

def ofTokens? (tokens : List Token) : Option Document :=
  match (Reading.value []).run tokens with
  | some (.finished document) => some document
  | _ => none

def ofText? (text : List Char) : Option Document := (tokens? text).bind ofTokens?

end Document

end ModuleLoader.Json
