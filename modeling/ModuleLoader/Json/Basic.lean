import ModuleLoader.Decimal.Text

/-! JSON values.  Objects keep their fields in the order of their keys, one field a key. -/

namespace ModuleLoader

/-- A number of a JSON text: an integer that fits in 64 bits, or a double. -/
inductive JsonNumber where
  | natural (n : Nat)
  | negative (n : Nat)
  | double (x : Float)

/-- A JSON value. -/
inductive Json where
  | null
  | boolean (b : Bool)
  | number (n : JsonNumber)
  | string (s : String)
  | array (items : List Json)
  | object (fields : List (String × Json))

instance : Inhabited Json := ⟨.null⟩

namespace Json

/-- Fields with the value of `key` replaced or put in its place by the order of keys. -/
def insertField (key : String) (value : Json) : List (String × Json) → List (String × Json)
  | [] => [(key, value)]
  | (k, v) :: rest =>
    if k = key then (key, value) :: rest
    else if key < k then (key, value) :: (k, v) :: rest
    else (k, v) :: insertField key value rest

/-- The object of fields in any order; a repeated key takes its last value. -/
def ofFields (fields : List (String × Json)) : Json :=
  .object (fields.foldl (fun sorted field => insertField field.1 field.2 sorted) [])

/-- The value of a key of an object. -/
def field? (value : Json) (key : String) : Option Json :=
  match value with
  | .object fields => fields.lookup key
  | _ => none

def escaped (c : Char) : List Char :=
  if c = '"' then ['\\', '"']
  else if c = '\\' then ['\\', '\\']
  else if c = '\n' then ['\\', 'n']
  else if c = '\r' then ['\\', 'r']
  else if c = '\t' then ['\\', 't']
  else if c = '\x08' then ['\\', 'b']
  else if c = '\x0C' then ['\\', 'f']
  else if c.toNat < 0x20 then
    ['\\', 'u', '0', '0', Nat.digitChar (c.toNat / 16), Nat.digitChar (c.toNat % 16)]
  else [c]

def stringText (s : String) : List Char := '"' :: s.toList.flatMap escaped ++ ['"']

end Json

def JsonNumber.text : JsonNumber → String
  | .natural n => toString n
  | .negative n => "-" ++ toString (n + 1)
  | .double x => Decimal.scientific x

namespace Json

mutual

def textChars : Json → List Char
  | .null => "null".toList
  | .boolean b => (if b then "true" else "false").toList
  | .number n => n.text.toList
  | .string s => stringText s
  | .array items => '[' :: itemsText items ++ [']']
  | .object fields => '\x7b' :: fieldsText fields ++ ['\x7d']

def itemsText : List Json → List Char
  | [] => []
  | [item] => textChars item
  | item :: rest => textChars item ++ ',' :: itemsText rest

def fieldsText : List (String × Json) → List Char
  | [] => []
  | [(key, value)] => stringText key ++ ':' :: textChars value
  | (key, value) :: rest => stringText key ++ ':' :: textChars value ++ ',' :: fieldsText rest

end

def text (value : Json) : String := String.ofList value.textChars

end Json

end ModuleLoader
