import ModuleLoader.Proofs.Session.Requests

/-! What a linked module can rely on: all that it imports is bound, in the cache and linked. -/

namespace ModuleLoader

variable {σ : Type} {x : Instant σ}

theorem StaticModule.evaluation_of_error {m : StaticModule} {e : LoadError}
    (hLinking : m.linking = .linked) (h : m.evaluationStep = .error e) :
    ∃ text, e = .evaluation m.url text := by
  simp only [evaluationStep, hLinking] at h
  cases hStatus : m.status <;> simp [hStatus] at h
  exact ⟨_, h.symm⟩

theorem Moment.Binds.keys_eq {m : StaticModule} {table : OrderedMap ModuleId}
    (h : x.Binds m table) : table.keys = m.dependencies.eraseDups := by
  obtain ⟨ids, hIds, rfl⟩ := h
  rw [OrderedMap.keys_ofList, List.map_fst_zip (Nat.le_of_eq hIds.length_eq)]

/-- All that a linked module leads to is linked. -/
theorem Moment.Lawful.linked_of_leads (hx : x.Lawful) {m n : StaticModule} {id j : ModuleId}
    (hm : x.state.static? id = some m) (hLinked : m.linking = .linked)
    (hLeads : x.state.Leads id j) (hn : x.state.static? j = some n) : n.linking = .linked := by
  induction hLeads generalizing n with
  | refl =>
    rw [hm, Option.some.injEq] at hn
    exact hn ▸ hLinked
  | tail _ hImports ih =>
    obtain ⟨k, table, hk, hTable, hj⟩ := hImports
    exact hx.closed _ k table _ n hk (ih hk) hTable hj hn

namespace Session

/-- At every moment of a run, a linked module has a table with a key for each specifier that it
declares.  Each entry is the module that the cache binds to its URL.  A static one is linked, so
that its evaluation fails only if it has failed before. -/
theorem imports_of_linked (env : Environment σ) (world : σ)
    (requests : List (Nat × Request σ)) {x : Instant σ} {id : ModuleId} {m : StaticModule}
    (hx : x ∈ (serve env requests).moments (.fresh world)) (hm : x.state.static? id = some m)
    (hLinked : m.linking = .linked) :
    ∃ table, m.imports = some table ∧ table.keys = m.dependencies.eraseDups ∧
      ∀ j ∈ table.values,
        (∃ n, x.state.module? j = some n ∧ x.state.cache.get? n.url = some j) ∧
        ∀ n, x.state.static? j = some n → n.linking = .linked ∧
          ∀ e, n.evaluationStep = .error e → ∃ text, e = .evaluation n.url text := by
  have hLawful := lawful_of_mem_serve hx
  obtain ⟨table, hTable⟩ := Option.isSome_iff_exists.1 ((hLawful.static id m hm).imports hLinked)
  refine ⟨table, hTable, (hLawful.bound id m table hm hTable).keys_eq, fun j hj => ⟨?_, ?_⟩⟩
  · obtain ⟨n, hn⟩ := hLawful.module_of_import hm hTable hj
    exact ⟨n, hn, hLawful.cached j n hn⟩
  · intro n hn
    have hLinked' := hLawful.closed id m table j n hm hLinked hTable hj hn
    exact ⟨hLinked', fun e => StaticModule.evaluation_of_error hLinked'⟩

end Session

namespace Sample

open File

/-- Files without content. -/
def files : FileSystem where
  root := .directory (["a", "b", "c", "d", "e"].map fun name => (Text.Utf8.ofString name, .file []))

/-- The specifiers that the modules import: `a` and `b` import each other, and the import of a
module that is not there spoils `d`, which `e` imports. -/
def dependencies (path : String) : List String :=
  match path with
  | "/a" => ["b", "c"]
  | "/b" => ["a", "c", "a"]
  | "/d" => ["a", "missing"]
  | "/e" => ["b", "d"]
  | _ => []

/-- An environment in which a specifier is the name of a file. -/
def environment : Environment Unit where
  baseUrl := { scheme := "file", authority := some {}, path := .segments [""] }
  files := fun _ => files
  packages := some fun specifier _ =>
    if specifier = "missing" then pure (.error (.resolution specifier "not found"))
    else pure (.ok ⟨"file:///" ++ specifier, .dynamic⟩)
  engine := some fun _ path _ =>
    pure { code := "", dependencies := some (dependencies path.text) }
  importNative := fun _ => pure (.ok .empty)
  evaluate := fun _ _ => .finish (.ok .empty)

/-- The modules that are bound at the same time take turns. -/
def together : Environment Unit := { environment with turn := pure 4 }

/-- Requests for a link that fails on its way, and for one of a module that it gives up. -/
def givenUp : List (Nat × Session.Request Unit) :=
  [(9, .moduleAt ⟨"file:///e", .dynamic⟩), (9, .link 0), (9, .link 1)]

end Sample

namespace Session

/-- The link of `e` fails because of `d`, and gives up `b`, which is bound at the same time.  Linked
after all, `b` keeps the first of two equal specifiers. -/
theorem imports_of_linked_cycle :
    (∃ w ∈ (serve Sample.together (Sample.givenUp.take 2)).moments (.fresh ()), ∃ e m,
      w.state.static? 0 = some e ∧ e.linking = .errored ∧
        w.state.static? 1 = some m ∧ m.linking = .linking ∧ m.imports = none) ∧
    ∃ x ∈ (serve Sample.together Sample.givenUp).moments (.fresh ()), ∃ m table,
      x.state.static? 1 = some m ∧ m.linking = .linked ∧ m.dependencies = ["a", "c", "a"] ∧
        m.imports = some table ∧ table.keys = ["a", "c"] := by
  constructor
  · have hRun : ((serve Sample.together (Sample.givenUp.take 2)).moments (.fresh ())).any (fun w =>
        (w.state.static? 0).any (·.linking = .errored) &&
          (w.state.static? 1).any fun m => m.linking = .linking ∧ m.imports.isNone) = true := by
      decide +kernel
    simp only [List.any_eq_true, Bool.and_eq_true, Option.any_eq_true, decide_eq_true_eq,
      Option.isNone_iff_eq_none] at hRun
    obtain ⟨w, hw, ⟨e, he, hErrored⟩, m, hm, hLinking, hNone⟩ := hRun
    exact ⟨w, hw, e, m, he, hErrored, hm, hLinking, hNone⟩
  · have hRun : ((serve Sample.together Sample.givenUp).moments (.fresh ())).any (fun x =>
        (x.state.static? 1).any fun m =>
          m.linking = .linked ∧ m.dependencies = ["a", "c", "a"]) = true := by decide +kernel
    obtain ⟨x, hx, hModule⟩ := List.any_eq_true.1 hRun
    obtain ⟨m, hm, hDecide⟩ := (Option.any_eq_true _ _).1 hModule
    obtain ⟨hLinked, hDependencies⟩ := of_decide_eq_true hDecide
    obtain ⟨table, hTable, hKeys, -⟩ := imports_of_linked Sample.together () _ hx hm hLinked
    refine ⟨x, hx, m, table, hm, hLinked, hDependencies, hTable, ?_⟩
    rw [hKeys, hDependencies]
    decide

end Session

end ModuleLoader
