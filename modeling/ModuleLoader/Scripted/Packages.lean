import ModuleLoader.OrderedMap
import ModuleLoader.Resolution
import ModuleLoader.Text.Split

/-! Resolvers for the names of packages that are given by a table. -/

namespace ModuleLoader.Scripted

/-- A row of a table: a module whose URL may mention the specifier as `%s` and the importing module
as `%p`, or a reason to reject the specifier. -/
inductive PackageRow where
  | found (url format : String)
  | rejected (reason : String)

def PackageRow.resolve (specifier parent : String) : PackageRow → Except LoadError ResolvedModule
  | .rejected reason => .error (.resolution specifier reason)
  | .found url format => do
    let format ← Format.ofName format
    return ⟨Text.replace "%p" parent (Text.replace "%s" specifier url), format⟩

/-- The resolver of a table, whose row `*` is for all specifiers that have none. -/
def packageResolver {σ : Type} (rows : OrderedMap PackageRow) : PackageResolver σ :=
  fun specifier parent =>
    match rows.get? specifier <|> rows.get? "*" with
    | some row => pure (row.resolve specifier parent)
    | none => pure (.error (.resolution specifier s!"not found from {parent}"))

end ModuleLoader.Scripted
