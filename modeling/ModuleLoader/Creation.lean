import ModuleLoader.Session

/-! How modules come into a session: each is made when its URL is first asked for, and kept in the
cache. -/

namespace ModuleLoader.Session

variable {σ : Type}

/-- Makes the module that resolution found.  TypeScript is transpiled, and the host imports
everything else. -/
def createModule (env : Environment σ) (resolved : ResolvedModule) (main : Bool) :
    Load σ Module :=
  .reporting (.created resolved) do
    if resolved.format.needsTranspile then
      let unit ← transpile env resolved.url
      let dependencies := unit.dependencies.getD (env.dependencies unit.code)
      return .static (.create unit.url unit.code dependencies main)
    else
      let exports ← Load.ofWorld (env.importNative resolved.url)
      return .synthetic (.ofNamespace resolved.url exports)

/-- The module in the cache, which is made when its URL is first asked for. -/
def cachedModule (env : Environment σ) (resolved : ResolvedModule) (main : Bool) :
    Load σ ModuleId := do
  let slot ← modifyGet fun s =>
    let (slot, cache) := s.cache.slot resolved.url
    (slot, { s with cache })
  match (← get).cache.record? slot with
  | some id => pure id
  | none => do
    let m ← createModule env resolved main
    keepModule slot m

/-- The module that resolution found. -/
def moduleAt (env : Environment σ) (resolved : ResolvedModule) : Load σ ModuleId :=
  cachedModule env resolved false

/-- The module that a specifier means in the module at `referrer`. -/
def moduleFor (env : Environment σ) (specifier referrer : String) : Load σ ModuleId := do
  moduleAt env (← resolve env specifier (some referrer))

end ModuleLoader.Session
