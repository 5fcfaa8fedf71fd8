import ModuleLoader.Proofs.Session.Requests

/-! The modules that a host provides itself.  A declared name means such a module, with the scheme
of built-in modules in front of it and without, and nothing else is asked.  A declared name that has
the scheme itself needs a second one, unless the rest of it is declared as well. -/

namespace ModuleLoader

open File

namespace Resolution

variable {builtins : List String} {name rest specifier : String}

theorem builtinName_scheme (name : String) : builtinName ("node:" ++ name) = name := by
  have hAfter : Text.after? "node:".toList ("node:" ++ name).toList = some name.toList :=
    Text.after?_eq_some_iff.2 String.toList_append
  simp only [builtinName, hAfter, String.ofList_toList]

theorem builtinName_of_no_scheme (h : ∀ rest, name ≠ "node:" ++ rest) :
    builtinName name = name := by
  cases hAfter : Text.after? "node:".toList name.toList with
  | none => simp only [builtinName, hAfter]
  | some rest =>
    have hText : name.toList = "node:".toList ++ rest := Text.after?_eq_some_iff.1 hAfter
    exact absurd (String.toList_inj.1 (by simp [hText])) (h (String.ofList rest))

theorem isBuiltin_scheme (h : name ∈ builtins) : isBuiltin builtins ("node:" ++ name) = true := by
  rwa [isBuiltin, builtinName_scheme, List.contains_iff_mem]

/-- A declared name is known as such, unless it has the scheme and the rest of it is not declared. -/
theorem isBuiltin_of_declared (h : name ∈ builtins)
    (hRest : ∀ rest, name = "node:" ++ rest → rest ∈ builtins) :
    isBuiltin builtins name = true := by
  by_cases hScheme : ∃ rest, name = "node:" ++ rest
  · obtain ⟨rest, rfl⟩ := hScheme
    exact isBuiltin_scheme (hRest rest rfl)
  · rwa [isBuiltin, builtinName_of_no_scheme (not_exists.1 hScheme), List.contains_iff_mem]

/-- Built-in modules come first. -/
theorem resolve_of_isBuiltin {σ : Type} (h : isBuiltin builtins specifier = true)
    (packages : Option (PackageResolver σ)) (fs : FileSystem) (parent : Url) :
    resolve builtins packages fs specifier parent = pure (.ok ⟨specifier, .builtin⟩) := by
  simp [resolve, h]

end Resolution

namespace Session

variable {σ : Type} {env : Environment σ} {name specifier : String} {parent : Option String}
  {p : Url}

/-- A name that the host declares means a module of the host, from every module and whatever else
there is: neither the files nor a resolver for packages are asked, and the world stays as it is.
With the scheme of built-in modules in front of it this holds of every declared name, and without it
of those that do not have the scheme themselves, or whose rest is declared as well. -/
theorem builtin_of_declared (h : name ∈ env.builtins) (hParent : startUrl? env parent = some p)
    (hSpecifier : specifier = "node:" ++ name ∨
      specifier = name ∧ ∀ rest, name = "node:" ++ rest → rest ∈ env.builtins) :
    (∀ {τ : Type} (resolver : Option (PackageResolver τ)) (fs : FileSystem) (q : Url),
      Resolution.resolve env.builtins resolver fs specifier q =
        pure (.ok ⟨specifier, .builtin⟩)) ∧
    ∀ (packages : Option (PackageResolver σ)) (x : Instant σ),
      (resolve env specifier parent packages).runFrom x =
        some (.ok ⟨specifier, .builtin⟩,
          x.hear (.resolved specifier parent (.ok ⟨specifier, .builtin⟩))) := by
  have hBuiltin : Resolution.isBuiltin env.builtins specifier = true := by
    rcases hSpecifier with rfl | ⟨rfl, hRest⟩
    · exact Resolution.isBuiltin_scheme h
    · exact Resolution.isBuiltin_of_declared h hRest
  refine ⟨fun resolver fs q => Resolution.resolve_of_isBuiltin hBuiltin resolver fs q, ?_⟩
  intro packages x
  exact runFrom_resolve hParent (Resolution.resolve_of_isBuiltin hBuiltin _ _ p)

end Session

namespace Sample

/-- A host with a module that is named like a path and one whose name has the scheme, and with a
resolver for packages that counts the questions. -/
def counted : Environment Nat where
  baseUrl := { scheme := "file", authority := some {}, path := .segments [""] }
  builtins := ["./fs", "node:test"]
  files := fun _ => {}
  packages := some fun specifier _ => fun asked => (.ok ⟨specifier, .module⟩, asked + 1)
  importNative := fun _ => pure (.ok .empty)
  evaluate := fun _ _ => .finish (.ok .empty)

end Sample

namespace Session

open Sample

/-- A name like a path without the scheme, and a name with the scheme behind a second one. -/
theorem builtin_of_declared_counted :
    (∃ x, (resolve counted "./fs" none none).runFrom (.fresh 0) =
      some (.ok ⟨"./fs", .builtin⟩, x) ∧ x.state.world = 0) ∧
    ∃ x, (resolve counted "node:node:test" none none).runFrom (.fresh 0) =
      some (.ok ⟨"node:node:test", .builtin⟩, x) ∧ x.state.world = 0 := by
  have hScheme : ∀ rest, "./fs" ≠ "node:" ++ rest := fun rest hRest =>
    absurd (congrArg String.toList hRest) (by simp)
  have hPath : "./fs" ∈ counted.builtins := by decide
  have hTest : "node:test" ∈ counted.builtins := by decide
  have hParent : startUrl? counted none = some counted.baseUrl := rfl
  obtain ⟨-, hPath⟩ := builtin_of_declared hPath hParent
    (.inr ⟨rfl, fun rest hRest => absurd hRest (hScheme rest)⟩)
  obtain ⟨-, hTest⟩ := builtin_of_declared hTest hParent (.inl rfl)
  exact ⟨⟨_, hPath none (.fresh 0), rfl⟩, ⟨_, hTest none (.fresh 0), rfl⟩⟩

/-- A name that is declared with the scheme is not known by it: the resolver for packages is asked
for the module of the host. -/
theorem declared_left_to_packages : "node:test" ∈ counted.builtins ∧
    ∃ x, (resolve counted "node:test" none none).runFrom (.fresh 0) =
      some (.ok ⟨"node:test", .module⟩, x) ∧ x.state.world = 1 := by
  have hRun : Action.endsWith ((resolve counted "node:test" none none).runFrom (.fresh 0))
      (fun found x => decide (found = ⟨"node:test", .module⟩ ∧ x.state.world = 1)) = true := by
    decide +kernel
  obtain ⟨found, x, hEnd, hFound⟩ := Action.exists_of_endsWith hRun
  obtain ⟨rfl, hWorld⟩ := of_decide_eq_true hFound
  exact ⟨by decide, x, hEnd, hWorld⟩

end Session

end ModuleLoader
