import ModuleLoader.Command.Arguments

/-! The help texts of the command line. -/

namespace ModuleLoader.Command

def programName : String := "spacey-ts"

def version : String := "0.1.0"

/-- Rows of two columns, the second one aligned. -/
def table (rows : List (String × String)) : List String :=
  let width := rows.foldl (fun width row => max width row.1.length) 0
  rows.map fun (left, right) =>
    "  " ++ left ++ String.ofList (List.replicate (width - left.length) ' ') ++ "  " ++ right

def Subcommand.about : Subcommand → String
  | .resolve => "Resolve a specifier and print `\x7burl, format\x7d` as JSON"
  | .transpile => "Transpile a TypeScript file and print the output"
  | .graph => "Link an entry point and print its module graph"

/-- The operand of a subcommand, and what it is. -/
def Subcommand.operand : Subcommand → String × String
  | .resolve => ("<SPECIFIER>", "Import specifier")
  | .transpile => ("<FILE>", "TypeScript file")
  | .graph => ("<ENTRY>", "Entry file or URL")

def aboutHelp : String := "Print this message or the help of the given subcommand(s)"

def commonOptions : List (String × String) :=
  [("    --verbose", "Enable verbose logging"), ("-h, --help", "Print help")]

def Subcommand.options (command : Subcommand) : List (String × String) :=
  (if command.takesParent then
    [("-p, --parent <PARENT>",
      "URL of the importing module (defaults to the current directory)")]
  else []) ++ commonOptions

def helpLines : Topic → List String
  | .program =>
    ["TypeScript module loader for the Spacey runtime", "",
      s!"Usage: {programName} [OPTIONS] <COMMAND>", "", "Commands:"] ++
    table ((Subcommand.all.map fun command => (command.name, command.about)) ++
      [("help", aboutHelp)]) ++
    ["", "Options:"] ++ table (commonOptions ++ [("-V, --version", "Print version")])
  | .subcommand command =>
    [command.about, "", s!"Usage: {programName} {command.name} [OPTIONS] {command.operand.1}", "",
      "Arguments:"] ++
    table [command.operand] ++ ["", "Options:"] ++ table command.options
  | .help =>
    [aboutHelp, "", s!"Usage: {programName} help [COMMAND]...", "", "Arguments:"] ++
    table [("[COMMAND]...", "Print help for the subcommand(s)")]

def help (topic : Topic) : String := String.join ((helpLines topic).map (· ++ "\n"))

end ModuleLoader.Command
