import ModuleLoader.TypeScript.Pragma
import ModuleLoader.TypeScript.Program

/-! The module that is left of a program without its types: imports of which no value is used are
gone, and those that the output needs of its own are added behind the last import. -/

namespace ModuleLoader.TypeScript

/-- How elements are made. -/
inductive MarkupMode where
  | keep
  /-- By calls of functions, given by paths with dots. -/
  | call (element fragment : Option String)
  /-- By functions that are imported from a module. -/
  | importFrom (source : String) (development : Bool)
  deriving DecidableEq

/-- What a program is turned into JavaScript with. -/
structure OutputOptions where
  /-- The program is in TypeScript; in JavaScript every statement stays. -/
  types : Bool
  /-- Only imports that are marked as imports of types go. -/
  verbatim : Bool
  /-- The names of imports that stay if there are elements or fragments. -/
  elementName : String
  fragmentName : String
  markup : MarkupMode
  /-- Decorators become calls of functions that are imported. -/
  callDecorators : Bool
  /-- The types of what is decorated are passed to these calls. -/
  passTypes : Bool

/-- The function that makes elements unless another one is named. -/
def defaultFactory : String := "React"

/-- The first name of a path with dots. -/
def rootName (path : String) : String :=
  String.ofList (path.toList.takeWhile (· != '.'))

namespace Program

variable (p : Program) (o : OutputOptions)

def hasElement : Bool := p.needs.contains .element || p.needs.contains .lateKey

def hasFragment : Bool := p.needs.contains .fragment

/-- The names that the calls for elements and fragments use. -/
def markupUses : List String :=
  match o.markup with
  | .call element fragment =>
    let root (path : Option String) : String :=
      match path with
      | none | some "" => defaultFactory
      | some path => rootName path
    (if p.hasElement || p.hasFragment then [root element] else []) ++
      if p.hasFragment then [root fragment] else []
  | _ => []

/-- The kinds of the bindings of a name in the module. -/
def kindsOf (name : String) : List BindingKind := p.scopes.inner.kindsOf name

/-- The name stands for nothing but types in the module. -/
def isOnlyType (name : String) : Bool :=
  let kinds := p.kindsOf name
  !kinds.isEmpty && !kinds.any BindingKind.isValue

def uses : List Pending := p.scopes.inner.pending.reverse

/-- The names whose values the module uses, without those that only other names lead to. -/
def plainUses : List String :=
  let used : Pending → List String
    | .use name => [name]
    | .link .. => []
    | .learned type =>
      if o.callDecorators && o.passTypes then (type.learn p.isOnlyType).2 else []
  p.uses.flatMap used ++ p.markupUses o

/-- The names that are bound to what other names lead to, with the first of these.  The first name
is empty where a whole module is meant. -/
def links : List (String × String) :=
  p.uses.filterMap fun
    | .link name root => some (name, root)
    | _ => none

/-- What is left of links, one after the other, where some names are used otherwise.  The links
that went before no longer use their names. -/
def keptLinks (used : List String) : List (String × String) → List (String × String)
  | [] => []
  | (name, root) :: rest =>
    if used.contains name || rest.any (·.2 == name) then
      (name, root) :: keptLinks (root :: used) rest
    else keptLinks used rest

def leftLinks : List (String × String) :=
  if o.verbatim then p.links else keptLinks (p.plainUses o) p.links

def usedNames : List String := p.plainUses o ++ (p.leftLinks o).map Prod.snd

/-- The name stands for a function that the markup of the module needs. -/
def isMarkupName (name : String) : Bool :=
  (p.hasElement && name == o.elementName) || (p.hasFragment && name == o.fragmentName)

def keepsImport (name : String) : Bool :=
  !(p.kindsOf name).any BindingKind.isOwnValue &&
    ((p.usedNames o).contains name || p.isMarkupName o name)

/-- The name is a value that the module has. -/
def isExportable (name : String) : Bool :=
  let bindings := p.scopes.inner.bindings.filter fun b => b.name == name
  bindings.isEmpty || bindings.any fun b => b.kind.isValue && !b.isAmbient

/-- What is left of the clause of an import: none if the whole import goes. -/
def keptClause (c : ImportClause) : Option ImportClause :=
  let whole := c.whole.filter (p.keepsImport o)
  let default := c.default.filter (p.keepsImport o)
  let named := c.named.map fun names =>
    names.filter fun entry => !entry.isType && p.keepsImport o entry.name
  let isEmpty := whole.isNone && default.isNone && (named.getD []).isEmpty
  let wasEmpty := c.whole.isNone && c.default.isNone && (c.named.getD []).isEmpty
  if isEmpty && !wasEmpty then none else some { whole, default, named }

/-- The clause without what is marked as a type. -/
def valueClause (c : ImportClause) : ImportClause :=
  { c with named := c.named.map fun names => names.filter fun entry => !entry.isType }

/-- What is left of a statement of a program with types; nothing if it goes. -/
def keptItem : Item → Option Item
  | .importFrom isType phase clause source =>
    if isType then none
    else if o.verbatim then some (.importFrom false phase (clause.map valueClause) source)
    else
      match clause with
      | none => some (.importFrom false phase none source)
      | some clause =>
        (p.keptClause o clause).map fun kept => .importFrom false phase (some kept) source
  | .link name text => if (p.leftLinks o).any (·.1 == name) then some (.link name text) else none
  | .exportNames isType names source =>
    if isType then none
    else if names.isEmpty then some (.exportNames false [] source)
    else
      let kept := names.filter fun entry =>
        !entry.isType && (source.isSome || p.isExportable entry.name)
      if kept.isEmpty then none else some (.exportNames false kept source)
  | .exportAll isType name source => if isType then none else some (.exportAll false name source)
  | .code isExport text => some (.code isExport text)
  | .erased _ => none

/-- The statement is an import or an export. -/
def isModuleItem : Item → Bool
  | .code isExport _ => isExport
  | .erased e => e.isExport
  | .link .. => false
  | _ => true

def isImport : Item → Bool
  | .importFrom .. => true
  | _ => false

def bareImport (specifier : String) : Item := .importFrom false "" none { specifier }

/-- A module that the output calls for its own purposes. -/
def helper (name : String) : String := "@oxc-project/runtime/helpers/" ++ name

/-- The module that makes an element or a fragment. -/
def markupModule (isLate : Bool) : Option String :=
  match o.markup with
  | .importFrom source development =>
    if isLate then some source
    else some (source ++ if development then "/jsx-dev-runtime" else "/jsx-runtime")
  | _ => none

/-- The module that something in the program needs. -/
def neededModule : Need → Option String
  | .element | .fragment => markupModule o false
  | .lateKey => markupModule o true
  | .learnedType =>
    if o.callDecorators && o.passTypes then some (helper "decorateMetadata") else none
  | .decoratedParameter => if o.callDecorators then some (helper "decorateParam") else none
  | .decorator => if o.callDecorators then some (helper "decorate") else none
  | .resource => some (helper "usingCtx")
  | .qualifiedTag | .spreadChild | .bareKey | .developerProperty => none

/-- The modules that the output needs for its own purposes, in the order of the first need. -/
def ownImports : List String := Text.distinct (p.needs.filterMap (neededModule o))

/-- The statements without the types.  A module of which no import and no export is left gets an
empty list of exports, so that it stays a module. -/
def plainItems : List Item :=
  if o.types then
    let kept := p.items.filterMap (p.keptItem o)
    let lost := p.items.any fun item => isModuleItem item && (p.keptItem o item).isNone
    if lost && !kept.any isModuleItem then kept ++ [.exportNames false [] none] else kept
  else p.items

def outputItems : List Item :=
  let plain := p.plainItems o
  let behind := (plain.reverse.takeWhile (!isImport ·)).length
  let front := plain.take (plain.length - behind)
  front ++ (p.ownImports o).map bareImport ++ plain.drop front.length

/-- The mistakes of a program in the use of JSX. -/
def markupMistake (development : Bool) : Need → Option String
  | .qualifiedTag => some "Namespace tags are not supported by default"
  | .spreadChild => some "Spread children are not supported"
  | .bareKey => some "Please provide an explicit key value"
  | .developerProperty =>
    if development then some "Duplicate __self or __source prop found" else none
  | _ => none

/-- The mistakes that show when the output is made. -/
def outputMistakes : List String :=
  match o.markup with
  | .keep => []
  | .call .. => p.needs.filterMap (markupMistake false)
  | .importFrom _ development => p.needs.filterMap (markupMistake development)

end Program

namespace Item

/-- An entry of a list as it is written. -/
def entryText (name other : String) : String := if name = other then name else s!"{name} as {other}"

def listText (entries : List String) : String :=
  if entries.isEmpty then "\x7b\x7d" else "\x7b " ++ ", ".intercalate entries ++ " \x7d"

/-- What an import binds, as it is written; without anything to bind it is written as a bare one. -/
def clauseText (c : ImportClause) : Option String :=
  let named := (c.named.filter fun names => !names.isEmpty).map fun names =>
    listText (names.map fun entry => entryText entry.imported entry.name)
  let parts := c.default.toList ++ (c.whole.map ("* as " ++ ·)).toList ++ named.toList
  if parts.isEmpty then none else some (", ".intercalate parts)

/-- The name of a module as it is written. -/
def sourceText (source : ModuleName) : String :=
  Modules.quoted source.specifier ++ source.attributes

def text : Item → String
  | .importFrom _ phase clause source =>
    let bound := match clause.bind clauseText with
      | some bound => (if phase.isEmpty then "" else phase ++ " ") ++ bound ++ " from "
      | none => ""
    s!"import {bound}{sourceText source};"
  | .link _ text => String.ofList text
  | .exportNames _ names source =>
    let list := listText (names.map fun entry => entryText entry.name entry.exported)
    let behind := match source with
      | some source => s!" from {sourceText source}"
      | none => ""
    s!"export {list}{behind};"
  | .exportAll _ name source =>
    let name := match name with
      | some name => s!" as {name}"
      | none => ""
    s!"export *{name} from {sourceText source};"
  | .code _ text => String.ofList (Text.trim text)
  | .erased _ => ""

def specifier? : Item → Option String
  | .importFrom isType _ _ source | .exportAll isType _ source =>
    if isType then none else some source.specifier
  | .exportNames isType _ source => if isType then none else source.map ModuleName.specifier
  | .link .. | .code .. | .erased _ => none

end Item

namespace Comment

/-- The comment says something about a call or a function, and stays or goes with it. -/
def marksPure (c : Comment) : Bool :=
  match c.text.dropWhile Char.isWhitespace with
  | sign :: rest => (sign == '@' || sign == '#') &&
    ("__PURE__".toList.isPrefixOf rest || "__NO_SIDE_EFFECTS__".toList.isPrefixOf rest)
  | [] => false

def written (c : Comment) : String :=
  if c.isLine then "//" ++ String.ofList c.text else "/*" ++ String.ofList c.text ++ "*/"

end Comment

namespace Program

/-- The lines of the output: what names an interpreter, the statements, and the comments at the
end. -/
def outputLines (p : Program) (o : OutputOptions) : List String :=
  (p.interpreter.map String.ofList).toList ++ (p.outputItems o).map Item.text ++
    (p.lastComments.filter (!·.marksPure)).map Comment.written

def textOf (lines : List String) : String := String.join (lines.map (· ++ "\n"))

/-- The specifiers that the output imports from, in order and without repetition. -/
def specifiers (p : Program) (o : OutputOptions) : List String :=
  Text.distinct ((p.outputItems o).filterMap Item.specifier?)

end Program

end ModuleLoader.TypeScript
