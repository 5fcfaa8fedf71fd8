import Mathlib.Data.List.Dedup
import ModuleLoader.Command
import ModuleLoader.Proofs.Graph.Listing
import ModuleLoader.Proofs.Session.Closure
import ModuleLoader.Proofs.Session.Gains
import ModuleLoader.Proofs.Session.Upholding
import ModuleLoader.Proofs.Text.Split

/-! The graph of a program that was loaded into a fresh session.  Its modules are those of the
session, so that the listing shows each URL of the cache, and each import of each module once. -/

namespace ModuleLoader

variable {σ : Type} {x : Instant σ} {s : Session σ} {id j root : ModuleId} {m : StaticModule}
  {table : OrderedMap ModuleId}

/-- The number of imports in the table of a static module that is linked. -/
def Session.tableSize (s : Session σ) (id : ModuleId) : Nat :=
  (((s.static? id).bind (·.imports)).map (·.size)).getD 0

namespace Graph

theorem importsOf_eq (hm : s.static? id = some m) (hTable : m.imports = some table) :
    importsOf s.modules id = table.entries.map fun (specifier, j) => (some specifier, j) := by
  have hStatic : (s.modules[id]?).bind Module.static? = some m := hm
  simp [importsOf, hStatic, hTable]

theorem exists_of_mem_importsOf {entry : Option String × ModuleId}
    (h : entry ∈ importsOf s.modules id) : ∃ m table, s.static? id = some m ∧
      m.imports = some table ∧ entry.2 ∈ table.values := by
  cases hm : s.static? id with
  | none =>
    have hStatic : (s.modules[id]?).bind Module.static? = none := hm
    simp [importsOf, hStatic] at h
  | some m =>
    cases hTable : m.imports with
    | none =>
      have hStatic : (s.modules[id]?).bind Module.static? = some m := hm
      simp [importsOf, hStatic, hTable] at h
    | some table =>
      rw [importsOf_eq hm hTable] at h
      obtain ⟨⟨specifier, j⟩, hEntry, rfl⟩ := List.mem_map.1 h
      exact ⟨m, table, rfl, hTable, List.mem_map.2 ⟨_, hEntry, rfl⟩⟩

theorem isImport_iff : IsImport s.modules id j ↔ s.Imports id j := by
  constructor
  · rintro ⟨entry, hEntry, rfl⟩
    exact exists_of_mem_importsOf hEntry
  · rintro ⟨m, table, hm, hTable, hj⟩
    obtain ⟨⟨specifier, j'⟩, hEntry, rfl⟩ := List.mem_map.1 hj
    refine ⟨(some specifier, j'), ?_, rfl⟩
    rw [importsOf_eq hm hTable]
    exact List.mem_map.2 ⟨_, hEntry, rfl⟩

theorem reflTransGen_isImport_iff :
    Relation.ReflTransGen (IsImport s.modules) root id ↔ s.Leads root id := by
  have hSame : IsImport s.modules = s.Imports := by
    funext id j
    exact propext isImport_iff
  rw [hSame, Session.Leads]

theorem length_importsOf (s : Session σ) (id : ModuleId) :
    (importsOf s.modules id).length = s.tableSize id := by
  rw [importsOf, List.length_map, Session.tableSize, Session.static?, Session.module?]
  cases ((s.modules[id]?).bind Module.static?).bind (·.imports) <;> rfl

theorem tableSize_of_none (h : s.static? id = none) : s.tableSize id = 0 := by
  simp [Session.tableSize, h]

theorem isSound_of_lawful (h : x.Lawful) : IsSound x.state.modules := by
  constructor
  · refine List.nodup_iff_injective_get.2 fun i j hUrl => Fin.ext ?_
    have hi : i.val < x.state.modules.length := by simpa using i.isLt
    have hj : j.val < x.state.modules.length := by simpa using j.isLt
    refine h.eq_of_url (List.getElem?_eq_getElem hi) (List.getElem?_eq_getElem hj) ?_
    simpa using hUrl
  · intro id entry hEntry
    obtain ⟨m, table, hm, hTable, hj⟩ := exists_of_mem_importsOf hEntry
    obtain ⟨n, hn⟩ := h.module_of_import hm hTable hj
    exact (List.getElem?_eq_some_iff.1 hn).1

theorem sum_tableSize (s : Session σ) (ids : List ModuleId) :
    (ids.map s.tableSize).sum =
      ((ids.filter fun id => (s.static? id).isSome).map s.tableSize).sum := by
  induction ids with
  | nil => rfl
  | cons id rest ih =>
    cases hm : s.static? id with
    | none => simp [hm, ih, tableSize_of_none hm]
    | some m => simp [hm, ih]

end Graph

theorem nodup_staticImports (source : String) : (ImportScan.staticImports source).Nodup :=
  (Text.nodup_distinct _).map fun _ _ hSame => String.ofList_injective hSame

theorem nodup_of_compile {source : String} {path : FilePath} {o : Tsconfig.CompilerOptions}
    {specifiers : List String}
    (h : (TypeScript.Compiler.compile source path o).dependencies = some specifiers) :
    specifiers.Nodup := by
  simp only [TypeScript.Compiler.compile] at h
  split at h
  · cases h
    exact List.nodup_nil
  · cases h
    exact Text.nodup_distinct _

/-- The engine that ships with the loader names no specifier twice, and neither does the scanner. -/
theorem namesOnce_detached (baseUrl : Url) : (Command.detached baseUrl).NamesOnce := by
  refine ⟨fun engine hEngine source path options world specifiers hSpecifiers => ?_,
    nodup_staticImports⟩
  cases hEngine
  exact nodup_of_compile hSpecifiers

namespace Session

/-- The lines show all that the root leads to. -/
structure Shows (s : Session σ) (root : ModuleId) (lines : List GraphLine) : Prop where
  /-- The root has a line, and so has each import of each static module that it leads to. -/
  count : ∃ ids : List ModuleId, ids.Nodup ∧
    (∀ id, id ∈ ids ↔ s.Leads root id ∧ ∃ m, s.static? id = some m) ∧
    lines.length = 1 + (ids.map s.tableSize).sum
  /-- The line of the root stands alone at its depth. -/
  root : ∃ m, s.module? root = some m ∧
    lines.filter (·.depth = 0) = [⟨0, none, m.url, m.kind⟩]
  /-- A line whose URL stands nowhere before it heads the imports of its module. -/
  heads : ∀ front line back, lines = front ++ line :: back →
    Graph.Heads s.modules (front.map GraphLine.url) line back
  /-- The URLs are those of the cache. -/
  urls : ∀ url, url ∈ lines.map GraphLine.url ↔ url ∈ s.cache.urls

/-- What a listing from the root shows, if all modules of a lawful session are linked and within
reach of it. -/
theorem shows_of_listed (hx : x.Lawful) (hTidy : x.state.cache.IsTidy) (hRooted : x.Rooted root)
    {lines : List GraphLine} {opened : List ModuleId}
    (h : Graph.Listed x.state.modules 0 [] [(none, root)] lines opened) :
    x.state.Shows root lines := by
  have hSound := Graph.isSound_of_lawful hx
  have hNone : Graph.IsOpened x.state.modules [] := ⟨List.nodup_nil, by simp⟩
  have hOpened : Graph.IsOpened x.state.modules opened := by simpa using h.isOpened hNone
  constructor
  case count =>
    refine ⟨opened.filter fun id => (x.state.static? id).isSome, hOpened.nodup.filter _, ?_, ?_⟩
    · intro id
      rw [List.mem_filter, h.mem_iff, Graph.reflTransGen_isImport_iff, Option.isSome_iff_exists]
    · rw [h.length_lines, List.length_singleton, ← Graph.sum_tableSize]
      simp only [Graph.length_importsOf]
  case root =>
    rw [h.filter_depth]
    cases h with
    | again _ hSeen => simp at hSeen
    | first hLine =>
      obtain ⟨m, hm, rfl⟩ := Option.map_eq_some_iff.1 hLine
      exact ⟨m, hm, by rw [List.filterMap_cons, hLine]; rfl⟩
  case heads =>
    intro front line back hLines
    simpa using h.heads hSound hNone hLines
  case urls =>
    intro url
    have hLines := h.mem_urls url
    simp only [List.nil_append, List.map_nil, List.not_mem_nil, false_or] at hLines
    rw [← hLines, hTidy.mem_urls, List.mem_map]
    constructor
    · rintro ⟨id, hid, rfl⟩
      have hm := List.getElem?_eq_getElem (hOpened.lt id hid)
      exact ⟨id, by simpa [Graph.urlOf, hm] using hx.cached id _ hm⟩
    · rintro ⟨id, hGet⟩
      obtain ⟨m, hm, rfl⟩ := hx.stored url id hGet
      have hModule : x.state.modules[id]? = some m := hm
      refine ⟨id, ?_, by simp [Graph.urlOf, hModule]⟩
      rw [h.mem_iff, Graph.reflTransGen_isImport_iff]
      exact hRooted.leads id m hm

theorem Shows.size_eq {lines : List GraphLine} (h : s.Shows root lines) (hTidy : s.cache.IsTidy) :
    s.cache.size = (lines.map GraphLine.url).dedup.length := by
  rw [← ModuleCache.length_urls]
  refine ((List.perm_ext_iff_of_nodup hTidy.nodup_urls (List.nodup_dedup _)).2
    fun url => ?_).length_eq
  rw [List.mem_dedup, h.urls]

theorem run_eq_some {α : Type} {action : Load σ α} {world : σ} {a : α}
    (h : action.run { world } = some (.ok a, s)) :
    ∃ y : Instant σ, action.runFrom (.fresh world) = some (.ok a, y) ∧ y.state = s := by
  obtain ⟨⟨outcome, y⟩, hRun, hEnd⟩ := Option.map_eq_some_iff.1 h
  cases hEnd
  exact ⟨y, hRun, rfl⟩

/-- What the command line shows of a program that was loaded into a fresh session.  The listing ends
whatever fuel it gets beyond the number of modules, and the number below it is that of the URLs in
it. -/
theorem graph_of_instantiate :
    (∀ baseUrl, (Command.detached baseUrl).NamesOnce) ∧
    ∀ {σ : Type} (env : Environment σ) (fuel : Nat) (entry : String) (world : σ)
      (program : Instance) (s : Session σ), env.NamesOnce →
      (instantiate env fuel entry).run { world } = some (.ok program, s) →
      ∃ lines, s.Shows program.root lines ∧
        (∀ more, s.modules.length < more →
          (Graph.visit s.modules more 0 {} (none, program.root)).lines = lines) ∧
        (∀ id m, s.Leads program.root id → s.static? id = some m →
          ∃ table, m.imports = some table ∧ table.keys = m.dependencies) ∧
        Graph.text s program.root =
          String.join (lines.map fun line => line.text ++ "\n") ++ "\n" ++
            GraphLine.yellow (toString (lines.map GraphLine.url).dedup.length) ++
            " modules linked\n" := by
  refine ⟨namesOnce_detached, fun {σ} env fuel entry world program s hOnce hRun => ?_⟩
  obtain ⟨y, hRunFrom, rfl⟩ := run_eq_some hRun
  have hRooted := (rooted_instantiate hOnce fuel entry world).done_of_runFrom hRunFrom
  obtain ⟨hy, -, m, -, hm, -, hLinked⟩ :=
    (loaded_instantiate env fuel entry (Moment.lawful_fresh world)).done_of_runFrom hRunFrom
  have hTidy : y.state.cache.IsTidy :=
    (((lasting_isTidy env).upholds_instantiate fuel entry (.fresh world)
      List.nodup_nil).of_runFrom hRunFrom).1 _ rfl
  have hSound := Graph.isSound_of_lawful hy
  have hLt : program.root < y.state.modules.length :=
    (List.getElem?_eq_some_iff.1 (static?_eq_some_iff.1 hm)).1
  have hEntries : ∀ entry ∈ [((none : Option String), program.root)],
      entry.2 < y.state.modules.length := by
    simpa using hLt
  obtain ⟨lines, opened, hListed, -⟩ := Graph.foldl_visit hSound (y.state.modules.length + 1)
    (by simp) ⟨List.nodup_nil, by simp⟩ hEntries []
  have hShows := shows_of_listed hy hTidy hRooted hListed
  have hVisit : ∀ more, y.state.modules.length < more →
      (Graph.visit y.state.modules more 0 {} (none, program.root)).lines = lines :=
    fun more hMore => by rw [Graph.lines_visit hListed hSound hMore]
  refine ⟨lines, hShows, hVisit, fun id n hLeads hn => ?_, ?_⟩
  · have hLinked' := hy.linked_of_leads hm hLinked hLeads hn
    obtain ⟨table, hTable⟩ := Option.isSome_iff_exists.1 ((hy.static id n hn).imports hLinked')
    refine ⟨table, hTable, ?_⟩
    rw [(hy.bound id n table hn hTable).keys_eq,
      Text.eraseDups_of_nodup (hRooted.once.static hn)]
  · rw [Graph.text, Graph.listing, hVisit _ (Nat.lt_succ_self _), hShows.size_eq hTidy]

end Session

namespace Sample

/-- The specifiers that the modules of a program name: `a` and `b` are in a cycle, `b` imports
itself and knows `c` as `copy`, and all lead to the host's `fs`. -/
def programDependencies (path : String) : List String :=
  match path with
  | "/a" => ["b", "c", "fs"]
  | "/b" => ["a", "copy", "b"]
  | "/c" => ["fs"]
  | _ => []

/-- An environment in which a specifier is the name of a file, or of a copy. -/
def program : Environment Unit :=
  { environment with
    packages := some fun specifier _ =>
      pure (.ok ⟨"file:///" ++ if specifier = "copy" then "c" else specifier, .dynamic⟩)
    engine := some fun _ path _ =>
      pure { code := "", dependencies := some (programDependencies path.text) } }

theorem nodup_programDependencies (path : String) : (programDependencies path).Nodup := by
  unfold programDependencies
  split <;> decide

theorem namesOnce_program : program.NamesOnce := by
  refine ⟨fun engine hEngine source path options world specifiers hSpecifiers => ?_,
    nodup_staticImports⟩
  cases hEngine
  cases hSpecifiers
  exact nodup_programDependencies path.text

end Sample

namespace Session

/-- Each module is opened where it stands first. -/
theorem graph_of_instantiate_cycle : ∃ program s lines,
    (instantiate Sample.program 9 "file:///a").run { world := () } = some (.ok program, s) ∧
      s.Shows program.root lines ∧ lines.map (fun line => (line.depth, line.url)) =
        [(0, "file:///a"), (1, "file:///b"), (2, "file:///a"), (2, "file:///c"), (3, "fs"),
          (2, "file:///b"), (1, "file:///c"), (1, "fs")] := by
  have hRun : Action.endsWith ((instantiate Sample.program 9 "file:///a").run { world := () })
      (fun program s => decide (s.modules.length < 9) &&
        (Graph.visit s.modules 9 0 {} (none, program.root)).lines.map
            (fun line => (line.depth, line.url)) ==
          [(0, "file:///a"), (1, "file:///b"), (2, "file:///a"), (2, "file:///c"), (3, "fs"),
            (2, "file:///b"), (1, "file:///c"), (1, "fs")]) = true := by decide +kernel
  obtain ⟨program, s, hEnd, hChecked⟩ := Action.exists_of_endsWith hRun
  obtain ⟨lines, hShows, hLines, -⟩ := graph_of_instantiate.2 Sample.program 9 "file:///a" ()
    program s Sample.namesOnce_program hEnd
  rw [Bool.and_eq_true, decide_eq_true_eq, beq_iff_eq] at hChecked
  refine ⟨program, s, lines, hEnd, hShows, ?_⟩
  rw [← hLines 9 hChecked.1]
  exact hChecked.2

end Session

end ModuleLoader
