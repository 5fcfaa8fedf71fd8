import ModuleLoader.Action
import ModuleLoader.Cache
import ModuleLoader.Event
import ModuleLoader.ImportScan
import ModuleLoader.Transpile

/-! A session: what one run of a program shares.  Its environment stays the same, and its state
holds the world of the host, the cache and the modules. -/

namespace ModuleLoader

open File Tsconfig

/-- What a session gets from outside and never changes: a host with a world `σ` of its own, and
the parts that the host chooses. -/
structure Environment (σ : Type) where
  /-- The URL that specifiers outside any module start from. -/
  baseUrl : Url
  /-- The names of the modules that the host provides itself. -/
  builtins : List String := Resolution.nodeBuiltins
  files : σ → FileSystem
  /-- The resolver for the names of packages. -/
  packages : Option (PackageResolver σ) := none
  /-- The engine for TypeScript; without one no TypeScript module can be loaded. -/
  engine : Option (Engine σ) := none
  /-- The specifiers that code imports, where the engine does not know them. -/
  dependencies : String → List String := ImportScan.staticImports
  /-- The host's own import of what the loader does not transpile. -/
  importNative : String → StateM σ (Except LoadError Properties)
  /-- The host's evaluation of a module. -/
  evaluate : StaticModule → EvaluationScope → Script σ
  /-- Who comes first at the next turn of tasks that go on together, and what becomes of the world in
  the meantime. -/
  turn : StateM σ Nat := pure 0

/-- The URL of the working directory. -/
def Environment.workingUrl (fs : FileSystem) : Except LoadError Url :=
  match Url.ofDirectoryPath? fs.working with
  | some u => .ok u
  | none => .error (.notAFileUrl fs.working.text)

/-- The state of a session. -/
structure Session (σ : Type) where
  world : σ
  cache : ModuleCache ModuleId := {}
  modules : List Module := []
  /-- The root and the compiler options of the session. -/
  config : SessionConfig := {}
  /-- The identity of the next new object. -/
  nextObject : ObjectId := 0

/-- An action of a session. -/
abbrev Load (σ α : Type) := Action (Session σ) LoadError Event α

/-- An action that can only touch the world. -/
def Load.ofWorld {σ α : Type} (action : StateM σ (Except LoadError α)) : Load σ α := do
  let outcome ← modifyGet fun s =>
    let (outcome, world) := action s.world
    (outcome, { s with world })
  .ofExcept outcome

namespace Session

variable {σ : Type}

/-- The module with an identity. -/
def module? (s : Session σ) (id : ModuleId) : Option Module := s.modules[id]?

/-- The static module with an identity. -/
def static? (s : Session σ) (id : ModuleId) : Option StaticModule :=
  (s.module? id).bind Module.static?

/-- The state with the module of an identity changed, if it is static. -/
def updateStatic (s : Session σ) (id : ModuleId) (f : StaticModule → StaticModule) : Session σ :=
  { s with modules := s.modules.modify id (.mapStatic f) }

def changeStatic (id : ModuleId) (f : StaticModule → StaticModule) : Load σ Unit :=
  modify fun s => s.updateStatic id f

/-- The state with one more module, which has an identity of its own and is in a slot of the
cache. -/
def withModule (s : Session σ) (slot : SlotId) (m : Module) : Session σ :=
  { s with modules := s.modules ++ [m], cache := s.cache.fill slot s.modules.length }

/-- Adds a module and returns its identity. -/
def keepModule (slot : SlotId) (m : Module) : Load σ ModuleId :=
  modifyGet fun s => (s.modules.length, s.withModule slot m)

/-- The state with the record of a synthetic module replaced. -/
def withSynthetic (s : Session σ) (id : ModuleId) (m : SyntheticModule) : Session σ :=
  { s with modules := s.modules.set id (.synthetic m) }

/-- Takes the identity of a new object. -/
def newObject : Load σ ObjectId :=
  modifyGet fun s => (s.nextObject, { s with nextObject := s.nextObject + 1 })

/-- The module that a specifier means in the module at `parent`, or at the base of the session.
The resolver for packages that is given here takes the place of the session's own. -/
@[irreducible]
def resolve (env : Environment σ) (specifier : String) (parent : Option String := none)
    (packages : Option (PackageResolver σ) := none) : Load σ ResolvedModule :=
  .reporting (.resolved specifier parent) do
    let parent ← match parent with
      | none => pure env.baseUrl
      | some text =>
        match Url.parse text with
        | .ok u => pure u
        | .error reason => throw (.invalidUrl text reason.message)
    Load.ofWorld fun world =>
      Resolution.resolve env.builtins (packages <|> env.packages) (env.files world) specifier
        parent world

/-- Transpiles the module at a URL. -/
@[irreducible]
def transpile (env : Environment σ) (url : String) : Load σ TranspiledModule := do
  match env.engine with
  | none => throw (.noTranspiler url)
  | some engine => do
    let outcome ← modifyGet fun s =>
      let (outcome, config, world) :=
        Transpile.transpile engine (env.files s.world) url (s.config, s.world)
      (outcome, { s with config, world })
    .ofExcept outcome

/-- A description for people of a session without an engine. -/
def describe (env : Environment σ) (s : Session σ) : String :=
  Text.openRecord "LoaderSession"
    [("base_url", Text.quoted env.baseUrl.text), ("transpiler", "None"),
      ("modules", toString s.cache.size)]

end Session

end ModuleLoader
