import ModuleLoader.Creation
import ModuleLoader.Task

/-! Tasks of a session that find modules and bind imports.  What takes a lock is one step, and two
tasks meet at the slots of the cache and at the tables of imports, each of which one task at a time
makes. -/

namespace ModuleLoader

/-- The slot of a URL, if the URL was asked for. -/
def ModuleCache.slot? {ρ : Type} (c : ModuleCache ρ) (url : String) : Option SlotId :=
  c.slots.findIdx? fun entry => entry.1 == url

/-- Where the tasks of a session meet. -/
inductive Place where
  /-- The module for a slot is made. -/
  | making (slot : SlotId)
  /-- The imports of a module are bound. -/
  | binding (id : ModuleId)
  /-- A module is evaluated. -/
  | running (id : ModuleId)
  deriving DecidableEq

/-- A task of a session. -/
abbrev Work (σ α : Type) := Task (Session σ) LoadError Event Place α

namespace Session.Shared

variable {σ : Type}

def changeStatic (id : ModuleId) (f : StaticModule → StaticModule) : Work σ Unit :=
  modify fun s => s.updateStatic id f

/-- The module is made once, in its slot.  What fails to be made leaves the slot empty. -/
def making (slot : SlotId) : Section (Session σ) LoadError Place Module ModuleId where
  place := .making slot
  skip s := (s.cache.record? slot).map .ok
  close
    | .ok m, s => (.ok s.modules.length, s.withModule slot m)
    | .error e, s => (.error e, s)

/-- The slot of a URL, which is made if there is none. -/
def slotOf (url : String) : Work σ SlotId := do
  match (← get).cache.slot? url with
  | some slot => pure slot
  | none => modifyGet fun s =>
    let (slot, cache) := s.cache.slot url
    (slot, { s with cache })

/-- The module in the cache, which is made when its URL is first asked for. -/
def cachedModule (env : Environment σ) (resolved : ResolvedModule) (main : Bool) :
    Work σ ModuleId := do
  let slot ← slotOf resolved.url
  match (← get).cache.record? slot with
  | some id => pure id
  | none => .within (making slot) (.ofAction (createModule env resolved main))

/-- The module that resolution found. -/
def moduleAt (env : Environment σ) (resolved : ResolvedModule) : Work σ ModuleId :=
  cachedModule env resolved false

/-- The module that a specifier means in the module at `referrer`. -/
def moduleFor (env : Environment σ) (specifier referrer : String) : Work σ ModuleId := do
  moduleAt env (← .ofAction (resolve env specifier (some referrer)))

/-- The modules that the specifiers of a module mean, found together. -/
def importTable (env : Environment σ) (m : StaticModule) : Work σ (OrderedMap ModuleId) := do
  let ids ← Task.forAll m.dependencies fun specifier => moduleFor env specifier m.url
  return .ofList (m.dependencies.zip ids)

/-- The imports of a module are bound once.  What fails leaves them unbound. -/
def binding (id : ModuleId) :
    Section (Session σ) LoadError Place (OrderedMap ModuleId) (OrderedMap ModuleId) where
  place := .binding id
  skip s := ((s.static? id).bind StaticModule.imports).map .ok
  close
    | .ok table, s => (.ok table, s.updateStatic id (·.bindImports table))
    | .error e, s => (.error e, s)

/-- Binds the imports of a module, unless they are bound, and returns what they are bound to. -/
def bindImportsOf (env : Environment σ) (id : ModuleId) : Work σ (List ModuleId) := do
  changeStatic id .beginLinking
  match (← get).static? id with
  | none => pure []
  | some m => do
    Task.tell (.asked id)
    let table ← (Task.within (binding id) (importTable env m)).onFailure fun e =>
      changeStatic id (·.failLinking e)
    pure table.values

end Session.Shared

end ModuleLoader
