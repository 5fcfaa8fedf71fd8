import ModuleLoader.Scripted.World
import ModuleLoader.Text.Blank
import ModuleLoader.Transpile

/-! An engine that works line by line.  Lines that start with a command report a diagnostic or
dependencies, and all other lines are output as they are. -/

namespace ModuleLoader.Scripted

open Tsconfig

/-- What a line means to the engine. -/
inductive Line where
  | diagnostic (d : Diagnostic)
  | dependencies (specifiers : List String)
  | code (text : List Char)

/-- What follows a command at the start of a line. -/
def argument? (command : String) (line : List Char) : Option (List Char) :=
  Text.after? command.toList line

/-- The meaning of a line of a file. -/
def Line.ofText (file : FilePath) (line : List Char) : Line :=
  let trimmed := Text.trim line
  let report (severity : Severity) (file : Option FilePath) (message : List Char) : Line :=
    .diagnostic ⟨String.ofList message, file, severity⟩
  let meanings : List (Option Line) :=
    [ (argument? "@error " trimmed).map (report .error (some file)),
      (argument? "@warn " trimmed).map (report .warning (some file)),
      (argument? "@note " trimmed).map (report .error none),
      (argument? "@deps" trimmed).map fun rest =>
        .dependencies ((Text.words rest).map String.ofList) ]
  (meanings.findSome? id).getD (.code line)

/-- An output with one more line taken into account. -/
def addLine (output : TranspileOutput) : Line → TranspileOutput
  | .diagnostic d => { output with diagnostics := output.diagnostics ++ [d] }
  | .dependencies specifiers =>
    { output with dependencies := some (output.dependencies.getD [] ++ specifiers) }
  | .code text => { output with code := output.code ++ String.ofList text }

def outputOf (source : String) (file : FilePath) : TranspileOutput :=
  ((Text.lines source.toList).map (Line.ofText file)).foldl addLine ⟨"", [], none⟩

def engine : Engine World := fun source file options world =>
  (outputOf source file,
    { world with
      transpiled := count world.transpiled file.text
      options := world.options.insert file.text options })

end ModuleLoader.Scripted
