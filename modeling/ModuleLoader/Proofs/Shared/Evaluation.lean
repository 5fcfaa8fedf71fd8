import ModuleLoader.Proofs.Shared.Linking

/-! Evaluation in a shared session.  Each module that is run gets for every import what the import
exports, or a namespace without exports if the import was running while the module was. -/

namespace ModuleLoader

variable {σ : Type} {own : Place → Prop} {h k : Course σ} {id importer : ModuleId}

open Session

theorem Given.later {exports : Namespace} {n : Module} (hGiven : Given h importer id exports)
    (hk : h.Precedes k) (hn : h.now.state.module? id = some n) : Given k importer id exports := by
  intro m' hm'
  obtain ⟨m, hm, hKeeps⟩ := hk.keeps.static?_of_module hn hm'
  rcases hGiven m hm with hExports | ⟨hEmpty, x, hx, hRunning⟩
  · exact .inl (hKeeps.exports exports hExports)
  · exact .inr ⟨hEmpty, x, hk.past x hx, hRunning⟩

/-- The namespace that the evaluation of a module has come to, for each module that has been running
since `h`. -/
structure Comes (h : Course σ) (own : Place → Prop) (id : ModuleId) (exports : Namespace)
    (k : Course σ) : Prop where
  module : ∃ n, k.now.state.module? id = some n
  given : ∀ importer, own (.running importer) → Kept (.running importer) h.now.state →
    Given k importer id exports

theorem Comes.later {exports : Namespace} {j : Course σ} (hComes : Comes h own id exports k)
    (hj : k.Precedes j) : Comes h own id exports j := by
  obtain ⟨⟨n, hn⟩, hGiven⟩ := hComes
  obtain ⟨n', hn', -⟩ := hj.keeps.module id n hn
  exact ⟨⟨n', hn'⟩, fun i hOwn hKept => (hGiven i hOwn hKept).later hj hn⟩

namespace Session.Shared

open ModuleLoader.Task Course

variable {env : Environment σ}

theorem meets_newObject {f : ObjectId → Work σ β} {done : β → Course σ → Prop}
    (hNext : ∀ object k, rules.Passes own h k → Meets own done (f object) k) :
    Meets own done (newObject >>= f) h := by
  refine meets_modifyGet fun k hk => ?_
  have hAct : rules.Act none k (k.now.move { k.now.state with
      nextObject := k.now.state.nextObject + 1 }) := Rules.Finds.world rfl rfl
  exact ⟨hAct, hNext _ _ (hk.next hAct (by simp))⟩

theorem meets_namespaceOrEmpty {done : Namespace → Course σ → Prop} {exports? : Option Namespace}
    (hStable : ∀ exports k j, done exports k → rules.Passes own k j → done exports j)
    (hDone : ∀ exports : Namespace,
      exports? = some exports ∨ exports? = none ∧ exports.exports = .empty → done exports h) :
    Meets own done (namespaceOrEmpty exports?) h := by
  cases exports? with
  | some exports => exact meets_pure fun k hk => hStable _ _ _ (hDone exports (.inl rfl)) hk
  | none =>
    refine meets_newObject fun object k hk => meets_pure fun j hj => ?_
    exact hStable _ _ _ (hDone ⟨object, .empty⟩ (.inr ⟨rfl, rfl⟩)) (hk.trans hj)

theorem meets_evaluateSynthetic (id : ModuleId) :
    Meets own (fun _ _ => True) (evaluateSynthetic id) h := by
  refine meets_modifyGet fun k _ => ?_
  split
  · next m hm =>
    exact ⟨Act.evaluateSynthetic hm rfl rfl, meets_ofExcept fun _ _ _ _ => trivial⟩
  · exact ⟨Act.now k, meets_ofExcept fun _ _ _ _ => trivial⟩

/-- What a host does is no more than what its `import()` expressions do. -/
theorem meets_runScript {load : String → Work σ Namespace} (script : Script σ)
    (hh : h.now.state.Consistent)
    (hLoad : ∀ specifier k, k.now.state.Consistent → Meets own (fun _ _ => True) (load specifier) k) :
    Meets own (fun _ _ => True) (runScript load script) h := by
  induction script generalizing h with
  | finish outcome => exact meets_ofExcept fun _ _ _ _ => trivial
  | update change next ih =>
    refine meets_modify fun k hk => ?_
    have hAct : rules.Act none k (k.now.move { k.now.state with
        world := change k.now.state.world }) := Rules.Finds.world rfl rfl
    exact ⟨hAct, ih (rules.valid_next (hk.valid (R := rules) hh) (.inl hAct))⟩
  | inspect next ih => exact meets_get fun k hk => ih _ (hk.valid (R := rules) hh)
  | allocate next ih => exact meets_newObject fun object k hk => ih object (hk.valid (R := rules) hh)
  | importModule specifier next ih =>
    refine meets_bind (meets_attempt ((hLoad specifier h hh).reach_mono fun exports k hk _ => ?_)
      fun e k hk => ?_)
    · exact ih _ (hk.valid (R := rules) hh)
    · exact ih _ (hk.valid (R := rules) hh)

/-- Each import of a module that is running comes to what the module may use of it. -/
theorem meets_importedNamespaces {run : ModuleId → Work σ Namespace}
    (entries : List (String × ModuleId)) (hh : h.now.state.Consistent)
    (hOwn : own (.running importer)) (hKept : Kept (.running importer) h.now.state)
    (hRun : ∀ id k, k.now.state.Consistent →
      Meets own (fun exports j => Comes k own id exports j) (run id) k) :
    Meets own (fun given k => List.Forall₂ (fun entry given => given.1 = entry.1 ∧
        (∃ n, k.now.state.module? entry.2 = some n) ∧ Given k importer entry.2 given.2)
      entries given) (importedNamespaces run entries) h := by
  induction entries generalizing h with
  | nil => exact meets_pure fun _ _ => .nil
  | cons entry rest ih =>
    refine meets_bind ((hRun entry.2 h hh).reach_mono fun exports k hk hComes => ?_)
    have hValid : k.now.state.Consistent := hk.valid (R := rules) hh
    refine meets_bind ((ih hValid (hk.kept (R := rules) hh hOwn hKept)).reach_mono ?_)
    intro given j hj hGiven
    refine meets_pure fun i hi => .cons ⟨rfl, ?_⟩ (hGiven.imp ?_)
    · have hLater := hComes.later (precedes_of_passes (hj.trans hi))
      exact ⟨hLater.module, hLater.given importer hOwn hKept⟩
    · rintro entry given ⟨hKey, ⟨n, hn⟩, hGiven⟩
      obtain ⟨n', hn', -⟩ := (precedes_of_passes hi).keeps.module _ n hn
      exact ⟨hKey, ⟨n', hn'⟩, hGiven.later (precedes_of_passes hi) hn⟩

/-- A module is run with what its imports have come to. -/
theorem meets_runModule {run : ModuleId → Work σ Namespace}
    {load : String → String → Work σ Namespace} (hh : h.now.state.Consistent)
    (hOwn : own (.running id)) (hKept : Kept (.running id) h.now.state)
    (hImports : ∃ imports, h.now.state.HasImports id imports)
    (hRun : ∀ id k, k.now.state.Consistent →
      Meets own (fun exports j => Comes k own id exports j) (run id) k)
    (hLoad : ∀ specifier referrer k, k.now.state.Consistent →
      Meets own (fun _ _ => True) (load specifier referrer) k) :
    Meets own (fun _ _ => True) (runModule env run load id) h := by
  refine meets_get fun k hk => ?_
  have hValid : k.now.state.Consistent := hk.valid (R := rules) hh
  have hKept' : Kept (.running id) k.now.state := hk.kept (R := rules) hh hOwn hKept
  obtain ⟨imports, hImports⟩ := hImports
  obtain ⟨m, table, hm, hTable, -⟩ := (precedes_of_passes hk).keeps.hasImports hImports
  simp only [hm, hTable, Option.map_some, Option.getD_some]
  refine meets_bind ((meets_importedNamespaces table.entries hValid hOwn hKept' hRun).reach_mono ?_)
  intro given j hj hGiven
  refine meets_tell fun i hi => ?_
  have hServed : Served i m ⟨.ofList given, m.importMeta, m.url⟩ := by
    have hLater := precedes_of_passes hi
    obtain ⟨n, hn, hKeeps⟩ := (precedes_of_passes (hj.trans hi)).keeps.static id m hm
    have hScope : (OrderedMap.ofList given).entries = given :=
      OrderedMap.entries_ofList_of_forall₂ hGiven
    refine ⟨id, n, table, hn, hKeeps.url, hTable, hKeeps.imports table hTable, ?_⟩
    simp only [hScope]
    refine hGiven.imp ?_
    rintro entry given ⟨hKey, ⟨n', hn'⟩, hGiven⟩
    exact ⟨hKey, hGiven.later hLater hn'⟩
  have hAct : rules.Act none i (i.now.hear (.evaluated m ⟨.ofList given, m.importMeta, m.url⟩)) :=
    Act.hear hServed
  refine ⟨hAct, ?_⟩
  have hValid' := rules.valid_next (Rules.Passes.valid (hj.trans hi) hValid) (.inl hAct)
  refine meets_bind ((meets_runScript _ hValid' fun specifier => hLoad specifier m.url).mono ?_)
  exact fun properties _ _ => meets_newObject fun object _ _ => meets_pure fun _ _ => trivial

theorem run_of_skip {s : Session σ} (hSkip : (running id).skip s = none) :
    ∃ m, s.static? id = some m ∧ m.evaluationStep = .ok .run := by
  simp only [running] at hSkip
  split at hSkip
  · cases hSkip
  · next m hm =>
    split at hSkip
    · cases hSkip
    · cases hSkip
    · next hStep => exact ⟨m, hm, hStep⟩

theorem reuse_of_skip {s : Session σ} {exports? : Option Namespace}
    (hSkip : (running id).skip s = some (.ok exports?)) :
    ∃ m, s.static? id = some m ∧ m.evaluationStep = .ok (.reuse exports?) := by
  simp only [running] at hSkip
  split at hSkip
  · cases hSkip
  · next m hm =>
    split at hSkip
    · cases hSkip
    · next hStep =>
      cases hSkip
      exact ⟨m, hm, hStep⟩
    · cases hSkip

/-- A module that is to be run has its imports bound. -/
theorem exists_imports_of_run {s : Session σ} {m : StaticModule} (hs : s.Consistent)
    (hm : s.static? id = some m) (hStep : m.evaluationStep = .ok .run) :
    ∃ table, m.imports = some table := by
  have hLinked := (StaticModule.linked_of_run hStep).1
  exact Option.isSome_iff_exists.1 (hs.linked id m hm hLinked id .refl m hm)

/-- An edit that is no step of a link leaves alone what links have done. -/
theorem act_evaluation {l : Option Place} {m : StaticModule} {f : StaticModule → StaticModule}
    (hm : h.now.state.static? id = some m) (hEdit : m.Edit id l f)
    (hLinking : (f m).linking = m.linking) (hImports : (f m).imports = m.imports) :
    rules.Act l h (h.now.move (h.now.state.updateStatic id f)) :=
  Act.update hm hEdit (fun _ hTable => .inl (hImports.symm.trans hTable)) fun hLinked =>
    .inl (hLinking.symm.trans hLinked)

/-- A module is run by one task, and it has its exports when that task has finished. -/
theorem meets_running {body : Work σ Namespace} (hh : h.now.state.Consistent)
    (hBody : ∀ k, k.now.state.Consistent → Kept (.running id) k.now.state →
      (∃ imports, k.now.state.HasImports id imports) →
      Meets (fun place => place = .running id ∨ own place) (fun _ _ => True) body k) :
    Meets own (fun exports? k => ∀ exports : Namespace,
        exports? = some exports ∨ exports? = none ∧ exports.exports = .empty →
        Comes h own id exports k) (within (running id) body) h := by
  refine meets_within ?_ ?_ ?_ ?_
  · exact fun exports? k j hComes hj exports hExports =>
      (hComes exports hExports).later (precedes_of_passes hj)
  · intro k exports? hk hSkip exports hExports
    have hValid : k.now.state.Consistent := hk.valid (R := rules) hh
    obtain ⟨m, hm, hStep⟩ := reuse_of_skip hSkip
    obtain ⟨hSame, hCase⟩ := (hValid.static id m hm).reuse_cases hStep
    refine ⟨⟨_, static?_eq_some_iff.1 hm⟩, fun importer hOwn hKept n hn => ?_⟩
    rw [hm] at hn
    cases hn
    rcases hExports with rfl | ⟨rfl, hEmpty⟩
    · exact .inl hSame
    · -- The module is running somewhere, and so is the one that imports it.
      obtain ⟨n, hn, hRunning⟩ := hk.kept (R := rules) hh hOwn hKept
      have hEvaluating : m.status = .evaluating := by simpa using hCase
      exact .inr ⟨hEmpty, k.now, List.mem_cons_self, ⟨m, hm, hEvaluating⟩, n, hn, hRunning⟩
  · rintro k hk hSkip - ⟨m, hm, hRunning⟩
    obtain ⟨n, hn, hStep⟩ := run_of_skip hSkip
    rw [hm] at hn
    cases hn
    exact StaticModule.not_run_of_isRunning hRunning hStep
  · intro k hk hSkip
    have hValid : k.now.state.Consistent := hk.valid (R := rules) hh
    obtain ⟨m, hm, hStep⟩ := run_of_skip hSkip
    have hAct : rules.Act none k (k.now.move ((running id).start k.now.state)) :=
      act_evaluation hm (.beginEvaluation hStep) rfl rfl
    have hBegun : ((running id).start k.now.state).static? id = some m.beginEvaluation :=
      static?_updateStatic_self hm _
    have hRunning := StaticModule.isRunning_beginEvaluation (hValid.static id m hm) hStep
    have hImports : ∃ imports, ((running id).start k.now.state).HasImports id imports := by
      obtain ⟨table, hTable⟩ := exists_imports_of_run hValid hm hStep
      exact ⟨table.values, _, table, hBegun, hTable, rfl⟩
    refine ⟨hAct, ⟨_, hBegun, hRunning⟩, ?_, fun e j hj hKept => ?_⟩
    · refine (hBody _ (rules.valid_next hValid (.inl hAct)) ⟨_, hBegun, hRunning⟩ hImports).mono ?_
      intro exports j _ hKept
      obtain ⟨n, hn, hRunning⟩ := hKept
      have hEnd := static?_updateStatic_self hn (·.finishEvaluation exports)
      refine ⟨act_evaluation hn (.finishEvaluation hRunning) rfl rfl, ?_⟩
      rintro exports? hOk exports' hExports
      cases hOk
      refine ⟨⟨_, static?_eq_some_iff.1 hEnd⟩, fun importer _ _ m' hm' => .inl ?_⟩
      have hSame : some (n.finishEvaluation exports) = some m' := hEnd.symm.trans hm'
      cases hSame
      simpa [StaticModule.finishEvaluation] using hExports
    · obtain ⟨n, hn, hRunning⟩ := hKept
      exact ⟨act_evaluation hn (.failEvaluation hRunning) rfl rfl, by simp [running]⟩

theorem meets_importBy {run : ModuleId → Work σ Namespace} (fuel : Nat) (specifier referrer : String)
    (hh : h.now.state.Consistent) (hRun : ∀ id k, k.now.state.Consistent →
      Meets own (fun exports j => Comes k own id exports j) (run id) k) :
    Meets own (fun _ _ => True) (importBy env fuel run specifier referrer) h := by
  refine meets_bind ((meets_moduleFor specifier referrer hh).reach_mono fun id k hk hMeans => ?_)
  have hValid : k.now.state.Consistent := hk.valid (R := rules) hh
  obtain ⟨r, -, hGet⟩ := hMeans
  obtain ⟨n, hn, -⟩ := hValid.stored r.url id hGet
  refine meets_bind ((meets_link hValid ⟨n, hn⟩).reach_mono fun _ j hj _ => ?_)
  exact (hRun id j (hj.valid (R := rules) hValid)).mono fun _ _ _ => trivial

/-- Whatever the fuel, an evaluation comes to the exports of the module, or to none while the module is
running. -/
theorem meets_evaluate (env : Environment σ) (fuel : Nat) (id : ModuleId)
    (hh : h.now.state.Consistent) :
    Meets own (fun exports k => Comes h own id exports k) (evaluate env fuel id) h := by
  -- The modules that are running further up are among the places of the task.  What is promised to
  -- each of them goes through the induction with `own`.
  induction fuel generalizing own id h with
  | zero => trivial
  | succ fuel ih =>
    rw [evaluate]
    refine meets_get fun k hk => ?_
    have hValid : k.now.state.Consistent := hk.valid (R := rules) hh
    have hBack : ∀ {exports : Namespace} {j : Course σ}, Comes k own id exports j →
        Comes h own id exports j := fun hComes =>
      ⟨hComes.module, fun i hOwn hKept => hComes.given i hOwn (hk.kept (R := rules) hh hOwn hKept)⟩
    cases hModule : k.now.state.module? id with
    | none => exact meets_throw
    | some n =>
      cases n with
      | synthetic m =>
        refine (meets_evaluateSynthetic id).reach_mono fun exports j hj _ => ?_
        obtain ⟨n, hn, -, hKind⟩ := (precedes_of_passes hj).keeps.module id _ hModule
        refine ⟨⟨n, hn⟩, fun _ _ _ m' hm' => ?_⟩
        rw [static?_eq_some_iff.1 hm'] at hn
        cases hn
        simp [Module.static?] at hKind
      | static m =>
        refine meets_bind ((meets_running hValid fun j hj hKept hImports => ?_).mono ?_)
        · exact meets_runModule hj (.inl rfl) hKept hImports (fun i _ hi => ih i hi)
            fun specifier referrer _ hi => meets_importBy fuel specifier referrer hi
              fun i' _ hi' => ih i' hi'
        · intro exports? j hComes
          refine meets_namespaceOrEmpty ?_ fun exports hExports => hBack (hComes exports hExports)
          exact fun exports j i hComes hi => hComes.later (precedes_of_passes hi)

theorem meets_importExpression (fuel : Nat) (specifier referrer : String)
    (hh : h.now.state.Consistent) :
    Meets own (fun _ _ => True) (importExpression env fuel specifier referrer) h :=
  meets_importBy fuel specifier referrer hh fun id _ hk => meets_evaluate env fuel id hk

end Session.Shared

end ModuleLoader
