import ModuleLoader.Text.Split

/-! The arguments of the command line. -/

namespace ModuleLoader.Command

/-- A subcommand. -/
inductive Subcommand where
  | resolve
  | transpile
  | graph
  deriving DecidableEq

namespace Subcommand

def all : List Subcommand := [.resolve, .transpile, .graph]

def name : Subcommand → String
  | .resolve => "resolve"
  | .transpile => "transpile"
  | .graph => "graph"

def ofName? (name : String) : Option Subcommand := all.find? fun command => command.name == name

/-- The operand of the subcommand is the path of a file. -/
def takesPath (command : Subcommand) : Bool := command == .transpile

/-- The subcommand has an option for the importing module. -/
def takesParent (command : Subcommand) : Bool := command == .resolve

end Subcommand

/-- What a help text is about. -/
inductive Topic where
  | program
  | subcommand (command : Subcommand)
  | help
  deriving DecidableEq

/-- What the arguments ask for. -/
inductive Request where
  | help (topic : Topic)
  | version
  | resolve (specifier : String) (parent : Option String)
  | transpile (file : String)
  | graph (entry : String)
  | misuse
  deriving DecidableEq

/-- An argument by its form. -/
inductive Argument where
  /-- Two hyphens: what follows has no other form than a plain one. -/
  | stop
  /-- Two hyphens and a name, perhaps with a value behind an equals sign. -/
  | long (name : String) (value : Option String)
  | short (letters : List Char)
  | plain (text : String)

def Argument.ofText (text : String) : Argument :=
  match text.toList with
  | ['-', '-'] => .stop
  | '-' :: '-' :: rest =>
    let name := rest.takeWhile (· != '=')
    .long (String.ofList name)
      (if name.length < rest.length then some (String.ofList (rest.drop (name.length + 1)))
        else none)
  | '-' :: c :: rest => .short (c :: rest)
  | _ => .plain text

/-- What was read of the arguments of a subcommand. -/
structure Reading where
  verbose : Bool := false
  parent : Option String := none
  operand : Option String := none

/-- The request of a subcommand whose arguments are all read. -/
def Reading.request (r : Reading) (command : Subcommand) : Request :=
  match command, r.operand with
  | _, none => .misuse
  | .resolve, some specifier => .resolve specifier r.parent
  | .transpile, some file => .transpile file
  | .graph, some entry => .graph entry

/-- The reading with one more operand; there can be only one, and no path is empty. -/
def Reading.addOperand? (command : Subcommand) (r : Reading) (text : String) : Option Reading :=
  if r.operand.isSome || (command.takesPath && text.isEmpty) then none
  else some { r with operand := some text }

/-- The reading with the importing module; it can be given only once. -/
def Reading.addParent? (r : Reading) (url : String) : Option Reading :=
  if r.parent.isSome then none else some { r with parent := some url }

def plainArguments (command : Subcommand) (r : Reading) (arguments : List String) : Request :=
  match arguments.foldlM (Reading.addOperand? command) r with
  | some r => r.request command
  | none => .misuse

/-- An argument that can be the value of an option before it. -/
def isValue (text : String) : Bool :=
  match Argument.ofText text with
  | .plain _ => true
  | _ => false

/-- The request of the arguments of a subcommand. -/
def subcommandRequest (command : Subcommand) : Reading → List String → Request
  | r, [] => r.request command
  | r, text :: rest =>
    match Argument.ofText text with
    | .stop => plainArguments command r rest
    | .plain text =>
      match r.addOperand? command text with
      | some r => subcommandRequest command r rest
      | none => .misuse
    | .long "help" none => .help (.subcommand command)
    | .long "verbose" none =>
      if r.verbose then .misuse else subcommandRequest command { r with verbose := true } rest
    | .long "parent" (some value) =>
      match if command.takesParent then r.addParent? value else none with
      | some r => subcommandRequest command r rest
      | none => .misuse
    | .long "parent" none => parentBehind r rest
    | .long _ _ => .misuse
    | .short ('h' :: _) => .help (.subcommand command)
    | .short ['p'] => parentBehind r rest
    | .short ('p' :: value) =>
      let value := if value.head? = some '=' then value.drop 1 else value
      match if command.takesParent then r.addParent? (String.ofList value) else none with
      | some r => subcommandRequest command r rest
      | none => .misuse
    | .short _ => .misuse
where
  /-- The request when the importing module is the next argument. -/
  parentBehind (r : Reading) : List String → Request
    | [] => .misuse
    | value :: rest =>
      match if command.takesParent && isValue value then r.addParent? value else none with
      | some r => subcommandRequest command r rest
      | none => .misuse

/-- The topic of the arguments of the subcommand for help. -/
def helpRequest : List String → Request
  | [] => .help .program
  | [name] =>
    if name = "help" then .help .help
    else
      match Subcommand.ofName? name with
      | some command => .help (.subcommand command)
      | none => .misuse
  | _ => .misuse

/-- The request of arguments before the subcommand, where `verbose` tells whether that option was
given before. -/
def requestFrom (verbose : Bool) : List String → Request
  | [] => .misuse
  | text :: rest =>
    match Argument.ofText text with
    | .stop => .misuse
    | .long "help" none => .help .program
    | .long "version" none => .version
    | .long "verbose" none => if verbose then .misuse else requestFrom true rest
    | .long _ _ => .misuse
    | .short ('h' :: _) => .help .program
    | .short ('V' :: _) => .version
    | .short _ => .misuse
    | .plain name =>
      if name = "help" then helpRequest rest
      else
        match Subcommand.ofName? name with
        | some command => subcommandRequest command {} rest
        | none => .misuse

/-- The request of the arguments of the program. -/
def request (arguments : List String) : Request := requestFrom false arguments

end ModuleLoader.Command
