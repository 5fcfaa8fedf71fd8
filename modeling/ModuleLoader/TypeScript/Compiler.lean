import ModuleLoader.Tsconfig.Options
import ModuleLoader.Transpile
import ModuleLoader.TypeScript.Output

/-! The engine that ships with the loader.  It cuts types out of programs and knows what is imported
then.  Elements of JSX, decorators, enumerations and namespaces stay as they are written, for the
host to deal with; what their code would import is imported. -/

namespace ModuleLoader.TypeScript

open Tsconfig

/-- The kind of a source text, by the name of its file. -/
structure SourceKind where
  dialect : Dialect
  /-- The text only says what exists elsewhere. -/
  definitions : Bool
  deriving DecidableEq

namespace SourceKind

def dotted (text : String) : List String := (Text.splitOn '.' text.toList).map String.ofList

/-- The kind of the file with a name and an extension. -/
def ofName (stem : String) (extension : String) : SourceKind :=
  let pieces := (dotted stem).reverse
  match extension with
  | "js" | "mjs" | "cjs" => ⟨⟨false, false⟩, false⟩
  | "jsx" => ⟨⟨false, true⟩, false⟩
  | "tsx" => ⟨⟨true, true⟩, false⟩
  | "ts" => ⟨⟨true, false⟩, (pieces.take 2).contains "d"⟩
  | "mts" | "cts" => ⟨⟨true, false⟩, 1 < pieces.length && pieces.head? == some "d"⟩
  | _ => ⟨⟨true, false⟩, false⟩

/-- The kind of a file.  What is not known to be something else is TypeScript. -/
def ofPath (path : FilePath) : SourceKind :=
  match path.stem?, path.extension? with
  | some stem, some extension =>
    ofName (FilePath.text ⟨stem⟩) (FilePath.text ⟨extension⟩)
  | _, _ => ofName "" ""

end SourceKind

/-- What the options of a project and the comments of a file say about the making of elements. -/
structure MarkupSettings where
  keeps : Bool := false
  /-- Elements are made by functions that are imported for them. -/
  automatic : Bool := true
  development : Bool := false
  element : Option String := none
  fragment : Option String := none
  source : Option String := none

namespace MarkupSettings

/-- The settings by the options of a project. -/
def ofOptions (o : CompilerOptions) : MarkupSettings :=
  match o.jsx with
  | some .preserve | some .reactNative => { keeps := true }
  | some .react =>
    { automatic := false, element := o.jsxFactory, fragment := o.jsxFragmentFactory }
  | none | some .reactJsx => { source := o.jsxImportSource }
  | some .reactJsxDev => { development := true, source := o.jsxImportSource }

def withPragmas (s : MarkupSettings) (p : Pragmas) : MarkupSettings :=
  { s with
    automatic := p.automatic.getD s.automatic
    element := p.element.or s.element
    fragment := p.fragment.or s.fragment
    source := p.source.or s.source }

def mode (s : MarkupSettings) : MarkupMode :=
  if s.keeps then .keep
  else if s.automatic then
    match s.source with
    | none | some "" => .importFrom "react" s.development
    | some source => .importFrom source s.development
  else .call s.element s.fragment

def mistakes (s : MarkupSettings) : List String :=
  if s.keeps then []
  else if s.automatic then
    (if s.element.isSome || s.fragment.isSome then
      ["pragma and pragmaFrag cannot be set when runtime is automatic"] else []) ++
      if s.source == some "" then ["importSource cannot be an empty string"] else []
  else
    (if s.source.isSome then ["importSource cannot be set when runtime is classic"] else []) ++
      if s.element == some "" || s.fragment == some "" then
        ["pragma and pragmaFrag cannot be empty strings"] else []

end MarkupSettings

namespace Compiler

/-- What the options of a project mean for the output of a program of the given kind. -/
def outputOptions (kind : SourceKind) (o : CompilerOptions) (s : MarkupSettings) :
    OutputOptions where
  types := kind.dialect.types
  verbatim := o.verbatimModuleSyntax
  elementName := rootName (s.element.getD defaultFactory)
  fragmentName := rootName (s.fragment.getD defaultFactory)
  markup := s.mode
  callDecorators := o.experimentalDecorators
  passTypes := o.emitDecoratorMetadata

def errorIn (file : FilePath) (message : String) : Diagnostic := ⟨message, some file, .error⟩

/-- The JavaScript of a program from a file. -/
def outputOf (p : Program) (kind : SourceKind) (file : FilePath) (o : CompilerOptions) :
    TranspileOutput :=
  let settings := (MarkupSettings.ofOptions o).withPragmas (Pragmas.ofComments p.comments)
  let output := outputOptions kind o settings
  let shown := if kind.definitions then p.hollow else p
  let mistakes := p.mistakes ++ shown.outputMistakes output ++ settings.mistakes
  ⟨Program.textOf (shown.outputLines output), mistakes.map (errorIn file),
    some (shown.specifiers output)⟩

/-- The JavaScript of a source text from a file.  A text that is no program has no output and
imports nothing. -/
def compile (source : String) (file : FilePath) (o : CompilerOptions) : TranspileOutput :=
  let kind := SourceKind.ofPath file
  match Program.ofText? kind.dialect source with
  | none => ⟨"", [errorIn file "Unexpected token"], some []⟩
  | some program => outputOf program kind file o

def engine {σ : Type} : Engine σ := fun source file options => pure (compile source file options)

end Compiler

end ModuleLoader.TypeScript
