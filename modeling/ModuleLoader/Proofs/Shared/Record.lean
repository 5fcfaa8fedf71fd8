import ModuleLoader.Proofs.Module.Lifecycle
import ModuleLoader.Shared.Linking

/-! The record of a static module in a shared session.  A link may fail after another one has linked
the module, even while the module is running, so that a record can come to more stages than in a
session with one task.  What a record gains is still never lost. -/

namespace ModuleLoader.StaticModule

variable {m n k : StaticModule}

/-- The module is running, or was when a link of it failed. -/
structure IsRunning (m : StaticModule) : Prop where
  exports : m.exports = none
  stage : m.linking = .linked ∧ m.status = .evaluating ∨ m.linking = .errored

/-- What holds of every record in a shared session. -/
structure Consistent (m : StaticModule) : Prop where
  stage : IsStage m.stage ∨ m.stage = (.errored, .evaluated)
  imports : m.imports.isSome → m.linking ≠ .unlinked
  exports : m.exports.isSome → m.status = .evaluated ∨ m.linking = .errored
  evaluated : m.status = .evaluated → m.exports.isSome

/-- The second record has all that the first one has. -/
structure Keeps (m n : StaticModule) : Prop where
  url : n.url = m.url
  dependencies : n.dependencies = m.dependencies
  imports : ∀ table, m.imports = some table → n.imports = some table
  exports : ∀ exports, m.exports = some exports → n.exports = some exports
  begun : m.linking ≠ .unlinked → n.linking ≠ .unlinked
  settled : m.linking = .linked ∨ m.linking = .errored → n.linking = .linked ∨ n.linking = .errored

theorem Keeps.refl (m : StaticModule) : m.Keeps m :=
  ⟨rfl, rfl, fun _ h => h, fun _ h => h, fun h => h, fun h => h⟩

theorem Keeps.trans (h : m.Keeps n) (h' : n.Keeps k) : m.Keeps k :=
  ⟨h'.url.trans h.url, h'.dependencies.trans h.dependencies,
    fun t ht => h'.imports t (h.imports t ht), fun e he => h'.exports e (h.exports e he),
    fun hm => h'.begun (h.begun hm), fun hm => h'.settled (h.settled hm)⟩

theorem consistent_create (url code : String) (dependencies : List String) (main : Bool) :
    (create url code dependencies main).Consistent :=
  ⟨.inl (.inl rfl), by simp [create], by simp [create], by simp [create]⟩

/-- What may become of a record, with the place of the section that this closes. -/
inductive Edit (id : ModuleId) (m : StaticModule) :
    Option Place → (StaticModule → StaticModule) → Prop
  | beginLinking : Edit id m none .beginLinking
  | bindImports {table : OrderedMap ModuleId} (hImports : m.imports = none)
      (hBegun : m.linking ≠ .unlinked) :
      Edit id m (some (.binding id)) (·.bindImports table)
  | finishLinking : Edit id m none .finishLinking
  | failLinking {e : LoadError} : Edit id m none (·.failLinking e)
  | beginEvaluation (hStep : m.evaluationStep = .ok .run) : Edit id m none .beginEvaluation
  | finishEvaluation {exports : Namespace} (hRunning : m.IsRunning) :
      Edit id m (some (.running id)) (·.finishEvaluation exports)
  | failEvaluation {e : LoadError} (hRunning : m.IsRunning) :
      Edit id m (some (.running id)) (·.failEvaluation e)

theorem Consistent.stage_cases (h : m.Consistent) :
    m.linking = .unlinked ∧ m.status = .uninstantiated ∨
      m.linking = .linking ∧ m.status = .instantiating ∨
      m.linking = .linked ∧ (m.status = .instantiated ∨ m.status = .evaluating ∨
        m.status = .evaluated ∨ m.status = .errored) ∨
      m.linking = .errored ∧ (m.status = .errored ∨ m.status = .evaluated) := by
  have hStage := h.stage
  simp only [IsStage, StaticModule.stage, Prod.mk.injEq] at hStage
  tauto

theorem Consistent.exports_eq_none (h : m.Consistent) (hLinking : m.linking ≠ .errored)
    (hStatus : m.status ≠ .evaluated) : m.exports = none := by
  rw [← Option.not_isSome_iff_eq_none]
  exact fun hSome => (h.exports hSome).elim hStatus hLinking

theorem linked_of_run (h : m.evaluationStep = .ok .run) :
    m.linking = .linked ∧ m.status ≠ .evaluating ∧ m.status ≠ .evaluated ∧ m.status ≠ .errored := by
  unfold evaluationStep at h
  split at h
  · split at h <;> cases h
  · next hLinking =>
    refine ⟨by simpa using hLinking, ?_⟩
    cases hStatus : m.status <;> simp [hStatus] at h ⊢

/-- A module that is not run again has its exports, or is running without any. -/
theorem Consistent.reuse_cases (h : m.Consistent) {exports : Option Namespace}
    (hStep : m.evaluationStep = .ok (.reuse exports)) :
    m.exports = exports ∧ (exports.isSome ∨ exports = none ∧ m.status = .evaluating) := by
  unfold evaluationStep at hStep
  split at hStep
  · split at hStep <;> cases hStep
  · next hLinking =>
    rw [not_not] at hLinking
    cases hStatus : m.status with
    | evaluated =>
      simp only [hStatus, Except.ok.injEq, EvaluationStep.reuse.injEq] at hStep
      exact ⟨hStep, .inl (hStep ▸ h.evaluated hStatus)⟩
    | evaluating =>
      simp only [hStatus, Except.ok.injEq, EvaluationStep.reuse.injEq] at hStep
      have hNone := h.exports_eq_none (by simp [hLinking]) (by simp [hStatus])
      exact ⟨hStep, .inr ⟨hStep ▸ hNone, rfl⟩⟩
    | uninstantiated | instantiating | instantiated | errored => simp [hStatus] at hStep

theorem not_run_of_isRunning (h : m.IsRunning) : m.evaluationStep ≠ .ok .run := by
  intro hRun
  obtain ⟨hLinking, hStatus, -⟩ := linked_of_run hRun
  rcases h.stage with ⟨-, hEvaluating⟩ | hErrored
  · exact hStatus hEvaluating
  · cases hLinking.symm.trans hErrored

theorem isRunning_beginEvaluation (h : m.Consistent) (hStep : m.evaluationStep = .ok .run) :
    m.beginEvaluation.IsRunning := by
  obtain ⟨hLinking, -, hStatus, -⟩ := linked_of_run hStep
  exact ⟨h.exports_eq_none (by simp [hLinking]) hStatus, .inl ⟨hLinking, rfl⟩⟩

namespace Edit

variable {id : ModuleId} {l : Option Place} {f : StaticModule → StaticModule}

theorem consistent (h : Edit id m l f) (hm : m.Consistent) : (f m).Consistent := by
  cases h with
  | beginLinking =>
    by_cases hLinking : m.linking = .unlinked
    · have hStatus : m.status = .uninstantiated := by
        rcases hm.stage_cases with h | h | h | h <;> simp_all
      have hExports := hm.exports_eq_none (by simp [hLinking]) (by simp [hStatus])
      have hSame : m.beginLinking = { m with linking := .linking, status := .instantiating } := by
        simp [StaticModule.beginLinking, hLinking]
      rw [hSame]
      exact ⟨.inl (.inr (.inl rfl)), by simp, by simp [hExports], by simp⟩
    · rw [StaticModule.beginLinking, if_neg hLinking]
      exact hm
  | bindImports hImports hBegun => exact ⟨hm.stage, fun _ => hBegun, hm.exports, hm.evaluated⟩
  | finishLinking =>
    by_cases hOpen : m.linking = .linking ∨ m.linking = .unlinked
    · have hStatus : m.status = .instantiating ∨ m.status = .uninstantiated := by
        rcases hm.stage_cases with h | h | h | h <;> simp_all
      have hExports := hm.exports_eq_none (by rcases hOpen with h | h <;> simp [h])
        (by rcases hStatus with h | h <;> simp [h])
      have hSame : m.finishLinking = { m with linking := .linked, status := .instantiated } := by
        simp [StaticModule.finishLinking, hOpen, hStatus]
      rw [hSame]
      exact ⟨.inl (by simp [IsStage, StaticModule.stage]), by simp, by simp [hExports], by simp⟩
    · rw [StaticModule.finishLinking, if_neg hOpen]
      exact hm
  | failLinking =>
    refine ⟨.inl (by simp [IsStage, StaticModule.stage, StaticModule.failLinking]), ?_, ?_, ?_⟩ <;>
      simp [StaticModule.failLinking]
  | beginEvaluation hStep =>
    obtain ⟨hLinking, -, hStatus, -⟩ := linked_of_run hStep
    have hExports := hm.exports_eq_none (by simp [hLinking]) hStatus
    refine ⟨.inl (by simp [IsStage, StaticModule.stage, StaticModule.beginEvaluation, hLinking]),
      hm.imports, ?_, ?_⟩ <;> simp [StaticModule.beginEvaluation, hExports]
  | finishEvaluation hRunning =>
    refine ⟨?_, hm.imports, ?_, ?_⟩
    · rcases hRunning.stage with ⟨hLinking, -⟩ | hLinking <;>
        simp [IsStage, StaticModule.stage, StaticModule.finishEvaluation, hLinking]
    · simp [StaticModule.finishEvaluation]
    · simp [StaticModule.finishEvaluation]
  | failEvaluation hRunning =>
    refine ⟨.inl ?_, hm.imports, ?_, ?_⟩
    · rcases hRunning.stage with ⟨hLinking, -⟩ | hLinking <;>
        simp [IsStage, StaticModule.stage, StaticModule.failEvaluation, hLinking]
    · simp [StaticModule.failEvaluation, hRunning.exports]
    · simp [StaticModule.failEvaluation]

theorem keeps (h : Edit id m l f) : m.Keeps (f m) := by
  cases h with
  | beginLinking =>
    unfold StaticModule.beginLinking
    split
    · next hLinking => constructor <;> simp_all
    · exact .refl m
  | bindImports hImports => constructor <;> simp_all [StaticModule.bindImports]
  | finishLinking =>
    unfold StaticModule.finishLinking
    split
    · constructor <;> simp_all
    · exact .refl m
  | failLinking => constructor <;> simp_all [StaticModule.failLinking]
  | beginEvaluation => constructor <;> simp_all [StaticModule.beginEvaluation]
  | finishEvaluation hRunning =>
    have hExports := hRunning.exports
    constructor <;> simp_all [StaticModule.finishEvaluation]
  | failEvaluation => constructor <;> simp_all [StaticModule.failEvaluation]

/-- Only the task that runs a module ends its evaluation. -/
theorem isRunning (h : Edit id m l f) (hOther : l ≠ some (.running id)) (hm : m.IsRunning) :
    (f m).IsRunning := by
  obtain ⟨hExports, hStage⟩ := hm
  cases h with
  | beginLinking =>
    have hSame : m.beginLinking = m := by
      rcases hStage with ⟨hLinking, -⟩ | hLinking <;>
        simp [StaticModule.beginLinking, hLinking]
    rw [hSame]
    exact ⟨hExports, hStage⟩
  | bindImports => exact ⟨hExports, hStage⟩
  | finishLinking =>
    have hSame : m.finishLinking = m := by
      rcases hStage with ⟨hLinking, -⟩ | hLinking <;>
        simp [StaticModule.finishLinking, hLinking]
    rw [hSame]
    exact ⟨hExports, hStage⟩
  | failLinking => exact ⟨hExports, .inr rfl⟩
  | beginEvaluation hStep => exact (not_run_of_isRunning ⟨hExports, hStage⟩ hStep).elim
  | finishEvaluation | failEvaluation => exact (hOther rfl).elim

/-- Only the task that binds the imports of a module makes them bound. -/
theorem imports_eq (h : Edit id m l f) (hOther : l ≠ some (.binding id)) :
    (f m).imports = m.imports := by
  cases h with
  | bindImports => exact (hOther rfl).elim
  | beginLinking =>
    unfold StaticModule.beginLinking
    split <;> rfl
  | finishLinking =>
    unfold StaticModule.finishLinking
    split <;> rfl
  | failLinking | beginEvaluation | finishEvaluation | failEvaluation => rfl

end Edit

end ModuleLoader.StaticModule
