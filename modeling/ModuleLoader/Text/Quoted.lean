import ModuleLoader.Text.Hidden

/-! Quoted text: double quotes around a text in which quotes, backslashes and hidden characters are
escaped. -/

namespace ModuleLoader.Text

def hexDigits (n : Nat) : List Char := Nat.toDigits 16 n

def escaped (c : Char) : List Char :=
  if c = '\x00' then ['\\', '0']
  else if c = '\t' then ['\\', 't']
  else if c = '\r' then ['\\', 'r']
  else if c = '\n' then ['\\', 'n']
  else if c = '\\' then ['\\', '\\']
  else if c = '"' then ['\\', '"']
  else if isHidden c then ['\\', 'u', '\x7b'] ++ hexDigits c.toNat ++ ['\x7d']
  else [c]

def quoted (text : String) : String :=
  String.ofList ('"' :: text.toList.flatMap escaped ++ ['"'])

def quotedList (texts : List String) : String :=
  "[" ++ ", ".intercalate (texts.map quoted) ++ "]"

/-- A record as its name and its fields, each with its text. -/
def record (name : String) (fields : List (String × String)) : String :=
  let written := fields.map fun (key, text) => key ++ ": " ++ text
  name ++ " \x7b " ++ ", ".intercalate written ++ " \x7d"

/-- A record that keeps some of its fields to itself. -/
def openRecord (name : String) (fields : List (String × String)) : String :=
  name ++ " \x7b " ++ String.join (fields.map fun (key, text) => key ++ ": " ++ text ++ ", ") ++
    ".. \x7d"

end ModuleLoader.Text
