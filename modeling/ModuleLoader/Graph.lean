import ModuleLoader.Session

/-! The graph of a linked program as an indented list: each module stands below the module that
imports it, and what it imports itself is listed where it stands first. -/

namespace ModuleLoader

/-- A line of the graph. -/
structure GraphLine where
  depth : Nat
  /-- The specifier of the import; the entry has none. -/
  specifier : Option String
  url : String
  kind : String
  deriving DecidableEq

namespace GraphLine

/-- A text in the style of an escape code, up to the code that ends it. -/
def styled (start stop : Nat) (text : String) : String :=
  s!"\x1b[{start}m{text}\x1b[{stop}m"

def yellow (text : String) : String := styled 33 39 text

def text (line : GraphLine) : String :=
  let label := match line.specifier with
    | some specifier => styled 36 39 specifier ++ " -> "
    | none => ""
  let kind := styled 2 0 ("[" ++ line.kind ++ "]")
  String.join (List.replicate line.depth "  ") ++ label ++ styled 32 39 line.url ++ " " ++ kind

end GraphLine

namespace Graph

/-- Lines, and the URLs of all modules that stand in them. -/
structure Listing where
  lines : List GraphLine := []
  seen : List String := []

/-- The listing with an import of a module and with all that the module leads to, at most `fuel`
levels deep. -/
def visit (modules : List Module) :
    (fuel : Nat) → (depth : Nat) → Listing → Option String × ModuleId → Listing
  | 0, _, listing, _ => listing
  | fuel + 1, depth, listing, (specifier, id) =>
    match modules[id]? with
    | none => listing
    | some m =>
      let line : GraphLine := ⟨depth, specifier, m.url, m.kind⟩
      if m.url ∈ listing.seen then { listing with lines := listing.lines ++ [line] }
      else
        let imports := ((m.static?.bind (·.imports)).map (·.entries)).getD []
        (imports.map fun (specifier, id) => (some specifier, id)).foldl
          (visit modules fuel (depth + 1)) ⟨listing.lines ++ [line], listing.seen ++ [m.url]⟩

/-- The listing of all that a module leads to.  No chain of imports is longer than the number of
modules before it comes to a module that it has passed. -/
def listing (modules : List Module) (root : ModuleId) : Listing :=
  visit modules (modules.length + 1) 0 {} (none, root)

/-- The graph of a session from a module on, and the number of modules in the cache. -/
def text {σ : Type} (s : Session σ) (root : ModuleId) : String :=
  String.join ((listing s.modules root).lines.map fun line => line.text ++ "\n") ++
    "\n" ++ GraphLine.yellow (toString s.cache.size) ++ " modules linked\n"

end Graph

end ModuleLoader
