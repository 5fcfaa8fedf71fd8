import ModuleLoader.Proofs.Session.Change

/-! The life of a module.  A static module moves along `Advances` from a fresh record to an evaluated
or a failed one, a record that came this way is `Lawful`, and nothing that it has gained is lost, as
`Grows` says.  A synthetic module of the host can always be evaluated. -/

namespace ModuleLoader

abbrev Stage := LinkingStatus × EvaluationStatus

/-- The moves of a static module. -/
inductive Advances : Stage → Stage → Prop
  | beginLinking : Advances (.unlinked, .uninstantiated) (.linking, .instantiating)
  | finishLinking : Advances (.linking, .instantiating) (.linked, .instantiated)
  | failLinking : Advances (.linking, .instantiating) (.errored, .errored)
  | beginEvaluation : Advances (.linked, .instantiated) (.linked, .evaluating)
  | finishEvaluation : Advances (.linked, .evaluating) (.linked, .evaluated)
  | failEvaluation : Advances (.linked, .evaluating) (.linked, .errored)

namespace StaticModule

variable {σ : Type} {x y : Instant σ} {id : ModuleId} {m m' m'' : StaticModule}

def stage (m : StaticModule) : Stage := (m.linking, m.status)

/-- The stages at which a static module can be. -/
def IsStage (stage : Stage) : Prop :=
  stage = (.unlinked, .uninstantiated) ∨ stage = (.linking, .instantiating) ∨
    stage = (.errored, .errored) ∨ stage = (.linked, .instantiated) ∨
    stage = (.linked, .evaluating) ∨ stage = (.linked, .evaluated) ∨ stage = (.linked, .errored)

/-- The record of a module has what it has to have at its stage, and no more. -/
structure Lawful (m : StaticModule) : Prop where
  stage : IsStage m.stage
  imports : m.linking = .linked → m.imports.isSome
  exports : m.exports.isSome ↔ m.status = .evaluated
  failure : m.failure.isSome ↔ m.status = .errored

def Started (m : StaticModule) : Prop := m.linking = .linked ∧ m.status ≠ .instantiated

/-- The second record is the first one with more known. -/
structure Grows (m m' : StaticModule) : Prop where
  url : m'.url = m.url
  code : m'.code = m.code
  dependencies : m'.dependencies = m.dependencies
  importMeta : m'.importMeta = m.importMeta
  imports : ∀ table, m.imports = some table → m'.imports = some table
  linked : m.linking = .linked → m'.linking = .linked
  errored : m.linking = .errored → m'.linking = .errored
  started : m.Started → m'.Started
  exports : ∀ exports, m.exports = some exports → m'.exports = some exports
  failure : ∀ text, m.failure = some text → m'.failure = some text

theorem Grows.refl (m : StaticModule) : m.Grows m :=
  ⟨rfl, rfl, rfl, rfl, fun _ h => h, fun h => h, fun h => h, fun h => h, fun _ h => h,
    fun _ h => h⟩

theorem Grows.trans (h : m.Grows m') (h' : m'.Grows m'') : m.Grows m'' :=
  ⟨h'.url.trans h.url, h'.code.trans h.code, h'.dependencies.trans h.dependencies,
    h'.importMeta.trans h.importMeta, fun t ht => h'.imports t (h.imports t ht),
    fun hm => h'.linked (h.linked hm), fun hm => h'.errored (h.errored hm),
    fun hm => h'.started (h.started hm), fun e he => h'.exports e (h.exports e he),
    fun t ht => h'.failure t (h.failure t ht)⟩

theorem lawful_create (url code : String) (dependencies : List String) (main : Bool) :
    (create url code dependencies main).Lawful :=
  ⟨.inl rfl, nofun, by simp [create], by simp [create]⟩

theorem Lawful.exports_eq_none (h : m.Lawful) (hStatus : m.status ≠ .evaluated) :
    m.exports = none := by
  rw [← Option.not_isSome_iff_eq_none, h.exports]
  exact hStatus

theorem Lawful.failure_eq_none (h : m.Lawful) (hStatus : m.status ≠ .errored) :
    m.failure = none := by
  rw [← Option.not_isSome_iff_eq_none, h.failure]
  exact hStatus

theorem Lawful.status_of_unlinked (h : m.Lawful) (hLinking : m.linking = .unlinked) :
    m.status = .uninstantiated := by
  simpa [IsStage, StaticModule.stage, hLinking] using h.stage

theorem Lawful.status_of_linking (h : m.Lawful) (hLinking : m.linking = .linking) :
    m.status = .instantiating := by
  simpa [IsStage, StaticModule.stage, hLinking] using h.stage

theorem Lawful.status_of_errored (h : m.Lawful) (hLinking : m.linking = .errored) :
    m.status = .errored := by
  simpa [IsStage, StaticModule.stage, hLinking] using h.stage

theorem Lawful.linked_of_status (h : m.Lawful)
    (hStatus : m.status = .instantiated ∨ m.status = .evaluating ∨ m.status = .evaluated) :
    m.linking = .linked := by
  have hStage := h.stage
  rcases hStatus with hStatus | hStatus | hStatus <;>
    simpa [IsStage, StaticModule.stage, hStatus] using hStage

theorem error_of_not_linked (h : m.linking ≠ .linked) : ∃ e, m.evaluationStep = .error e := by
  unfold evaluationStep
  rw [if_pos h]
  split <;> exact ⟨_, rfl⟩

theorem evaluationStep_of_errored {text : String} (hLinking : m.linking = .linked)
    (hStatus : m.status = .errored) (hFailure : m.failure = some text) :
    m.evaluationStep = .error (.evaluation m.url text) := by
  simp [evaluationStep, hLinking, hStatus, hFailure]

theorem evaluationStep_of_instantiated (hLinking : m.linking = .linked)
    (hStatus : m.status = .instantiated) : m.evaluationStep = .ok .run := by
  simp [evaluationStep, hLinking, hStatus]

theorem evaluationStep_of_begun (hLinking : m.linking = .linked)
    (hStatus : m.status = .evaluating ∨ m.status = .evaluated) :
    m.evaluationStep = .ok (.reuse m.exports) := by
  rcases hStatus with hStatus | hStatus <;> simp [evaluationStep, hLinking, hStatus]

theorem Lawful.status_of_linked (h : m.Lawful) (hLinking : m.linking = .linked) :
    m.status = .instantiated ∨ (m.status = .evaluating ∨ m.status = .evaluated) ∨
      m.status = .errored := by
  have hStage := h.stage
  simp only [IsStage, StaticModule.stage, hLinking, Prod.mk.injEq, reduceCtorEq, false_and, true_and,
    false_or] at hStage
  rcases hStage with hStatus | hStatus | hStatus | hStatus <;> simp [hStatus]

/-- Evaluation runs a lawful module, takes what it has so far, or refuses it.  A linked module is
refused only if it has failed. -/
theorem Lawful.evaluationStep_cases (h : m.Lawful) :
    (m.linking = .linked ∧ m.status = .instantiated ∧ m.evaluationStep = .ok .run) ∨
    (m.linking = .linked ∧ (m.status = .evaluating ∨ m.status = .evaluated) ∧
      m.evaluationStep = .ok (.reuse m.exports)) ∨
    ((m.linking = .linked → m.status = .errored) ∧ ∃ e, m.evaluationStep = .error e) := by
  by_cases hLinking : m.linking = .linked
  · rcases h.status_of_linked hLinking with hStatus | hStatus | hStatus
    · exact .inl ⟨hLinking, hStatus, evaluationStep_of_instantiated hLinking hStatus⟩
    · exact .inr (.inl ⟨hLinking, hStatus, evaluationStep_of_begun hLinking hStatus⟩)
    · obtain ⟨text, hText⟩ := Option.isSome_iff_exists.1 (h.failure.2 hStatus)
      exact .inr (.inr ⟨fun _ => hStatus, _, evaluationStep_of_errored hLinking hStatus hText⟩)
  · exact .inr (.inr ⟨fun hLinked => absurd hLinked hLinking, error_of_not_linked hLinking⟩)

end StaticModule

namespace Transition

variable {σ : Type} {x y : Instant σ} {id : ModuleId} {m m' : StaticModule}

theorem advances (h : Transition x y id m m') (hm : m.Lawful) :
    m'.stage = m.stage ∨ Advances m.stage m'.stage := by
  cases h with
  | beginLinking hLinking =>
    have hStatus := hm.status_of_unlinked hLinking
    right
    simp [StaticModule.stage, StaticModule.beginLinking, hLinking, hStatus, Advances.beginLinking]
  | bindImports => exact .inl rfl
  | finishLinking hLinking =>
    have hStatus := hm.status_of_linking hLinking
    right
    simp [StaticModule.stage, StaticModule.finishLinking, hLinking, hStatus,
      Advances.finishLinking]
  | failLinking hLinking =>
    have hStatus := hm.status_of_linking hLinking
    right
    simp [StaticModule.stage, StaticModule.failLinking, hLinking, hStatus, Advances.failLinking]
  | beginEvaluation hLinking hStatus =>
    right
    simp [StaticModule.stage, StaticModule.beginEvaluation, hLinking, hStatus,
      Advances.beginEvaluation]
  | finishEvaluation hStatus =>
    have hLinking := hm.linked_of_status (.inr (.inl hStatus))
    right
    simp [StaticModule.stage, StaticModule.finishEvaluation, hLinking, hStatus,
      Advances.finishEvaluation]
  | failEvaluation hStatus =>
    have hLinking := hm.linked_of_status (.inr (.inl hStatus))
    right
    simp [StaticModule.stage, StaticModule.failEvaluation, hLinking, hStatus,
      Advances.failEvaluation]

theorem lawful (h : Transition x y id m m') (hm : m.Lawful) : m'.Lawful := by
  have hStage : StaticModule.IsStage m'.stage := by
    rcases h.advances hm with hSame | hMove
    · exact hSame ▸ hm.stage
    · generalize m.stage = before at hMove
      generalize m'.stage = after at hMove
      cases hMove <;> simp [StaticModule.IsStage]
  cases h with
  | beginLinking hLinking =>
    have hStatus := hm.status_of_unlinked hLinking
    have hExports := hm.exports_eq_none (by simp [hStatus])
    have hFailure := hm.failure_eq_none (by simp [hStatus])
    refine ⟨hStage, ?_, ?_, ?_⟩ <;>
      simp [StaticModule.beginLinking, hLinking, hExports, hFailure]
  | bindImports hLinking =>
    exact ⟨hStage, fun _ => rfl, hm.exports, hm.failure⟩
  | finishLinking hLinking hImports =>
    have hStatus := hm.status_of_linking hLinking
    have hExports := hm.exports_eq_none (by simp [hStatus])
    have hFailure := hm.failure_eq_none (by simp [hStatus])
    refine ⟨hStage, ?_, ?_, ?_⟩ <;>
      simp [StaticModule.finishLinking, hLinking, hStatus, hExports, hFailure, hImports]
  | failLinking hLinking =>
    have hStatus := hm.status_of_linking hLinking
    have hExports := hm.exports_eq_none (by simp [hStatus])
    refine ⟨hStage, ?_, ?_, ?_⟩ <;> simp [StaticModule.failLinking, hExports]
  | beginEvaluation hLinking hStatus =>
    have hExports := hm.exports_eq_none (by simp [hStatus])
    have hFailure := hm.failure_eq_none (by simp [hStatus])
    refine ⟨hStage, hm.imports, ?_, ?_⟩ <;>
      simp [StaticModule.beginEvaluation, hExports, hFailure]
  | finishEvaluation hStatus =>
    have hFailure := hm.failure_eq_none (by simp [hStatus])
    refine ⟨hStage, hm.imports, ?_, ?_⟩ <;> simp [StaticModule.finishEvaluation, hFailure]
  | failEvaluation hStatus =>
    have hExports := hm.exports_eq_none (by simp [hStatus])
    refine ⟨hStage, hm.imports, ?_, ?_⟩ <;> simp [StaticModule.failEvaluation, hExports]

theorem grows (h : Transition x y id m m') (hm : m.Lawful) : m.Grows m' := by
  cases h with
  | beginLinking hLinking =>
    constructor <;> simp_all [StaticModule.beginLinking, StaticModule.Started]
  | bindImports hLinking hImports =>
    constructor <;> simp_all [StaticModule.bindImports, StaticModule.Started]
  | finishLinking hLinking =>
    constructor <;> simp_all [StaticModule.finishLinking, StaticModule.Started]
  | failLinking hLinking =>
    have hStatus := hm.status_of_linking hLinking
    have hFailure := hm.failure_eq_none (by simp [hStatus])
    constructor <;> simp_all [StaticModule.failLinking, StaticModule.Started]
  | beginEvaluation =>
    constructor <;> simp_all [StaticModule.beginEvaluation, StaticModule.Started]
  | finishEvaluation hStatus =>
    have hExports := hm.exports_eq_none (by simp [hStatus])
    constructor <;> simp_all [StaticModule.finishEvaluation, StaticModule.Started]
  | failEvaluation hStatus =>
    have hFailure := hm.failure_eq_none (by simp [hStatus])
    constructor <;> simp_all [StaticModule.failEvaluation, StaticModule.Started]

end Transition

end ModuleLoader
