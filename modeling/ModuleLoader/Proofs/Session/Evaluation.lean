import ModuleLoader.Proofs.Session.Linking

/-! Evaluation.  A module that is running stays as it is while others are evaluated, and is not left
to the host again, whatever the host does meanwhile.  An evaluation that succeeds leaves its
namespace with the module, and one that fails leaves its text. -/

namespace ModuleLoader

variable {σ : Type} {x y z : Instant σ}

def Session.HasExports (s : Session σ) (id : ModuleId) (exports : Namespace) : Prop :=
  ∃ m, s.module? id = some m ∧ m.exports = some exports

def Session.IsRunning (s : Session σ) (id : ModuleId) : Prop :=
  ∃ m, s.static? id = some m ∧ m.status = .evaluating

theorem Session.not_isRunning {s : Session σ} {id : ModuleId} {m : StaticModule}
    (hm : s.static? id = some m) (hStatus : m.status ≠ .evaluating) : ¬s.IsRunning id := by
  rintro ⟨n, hn, hRunning⟩
  rw [hm] at hn
  cases hn
  exact hStatus hRunning

/-- The second moment comes after the first one, and no module that was running has changed or been
left to the host. -/
structure Moment.Spares (x y : Instant σ) : Prop where
  lawful : y.Lawful
  later : x.Later y
  running : ∀ id m, x.state.static? id = some m → m.status = .evaluating →
    y.state.static? id = some m
  silent : ∀ id m, x.state.static? id = some m → m.status = .evaluating →
    m.url ∈ y.evaluatedUrls → m.url ∈ x.evaluatedUrls

theorem Moment.Later.hasExports (h : x.Later y) {id : ModuleId} {exports : Namespace}
    (hid : x.state.HasExports id exports) : y.state.HasExports id exports := by
  obtain ⟨m, hm, hExports⟩ := hid
  cases m with
  | static m =>
    obtain ⟨n, hn, hGrows⟩ := h.static id m (Session.static?_eq_some_iff.2 hm)
    exact ⟨.static n, Session.static?_eq_some_iff.1 hn, hGrows.exports exports hExports⟩
  | synthetic m =>
    obtain ⟨n, hn, -, hKept⟩ := h.synthetic id m hm
    exact ⟨.synthetic n, hn, hKept exports hExports⟩

theorem Moment.Lawful.not_mem_evaluatedUrls (hx : x.Lawful) {id : ModuleId} {m : StaticModule}
    (hm : x.state.static? id = some m) (hStatus : m.status = .instantiated) :
    m.url ∉ x.evaluatedUrls := by
  intro hUrl
  obtain ⟨j, n, hn, hEq, hStarted⟩ := hx.begun m.url hUrl
  rw [hx.eq_of_static_url hn hm hEq, hm] at hn
  cases hn
  exact hStarted.2 hStatus

namespace Moment.Spares

theorem refl (hx : x.Lawful) : x.Spares x :=
  ⟨hx, .refl x, fun _ _ h _ => h, fun _ _ _ _ h => h⟩

theorem trans (h : x.Spares y) (h' : y.Spares z) : x.Spares z where
  lawful := h'.lawful
  later := h.later.trans h'.later
  running id m hm hStatus := h'.running id m (h.running id m hm hStatus) hStatus
  silent id m hm hStatus hUrl :=
    h.silent id m hm hStatus (h'.silent id m (h.running id m hm hStatus) hStatus hUrl)

theorem of_extends (h : x.Extends x.state.NotLinked y) (hx : x.Lawful) : x.Spares y := by
  refine ⟨h.lawful, h.later, fun id m hm hStatus => h.static? (fun hNot => ?_) hm,
    fun id m _ _ hUrl => ?_⟩
  · exact hNot m hm ((hx.static id m hm).linked_of_status (.inr (.inl hStatus)))
  · unfold Moment.evaluatedUrls at hUrl ⊢
    rwa [h.evaluations] at hUrl

/-- A step that touches one module that was not running, and leaves at most that module to the host,
spares what was running. -/
theorem touch {id : ModuleId} {m : StaticModule} (h : x.Spares y) (hNot : ¬x.state.IsRunning id)
    (hm : y.state.static? id = some m) (hChange : Change y z)
    (hSame : ∀ j n, j ≠ id → y.state.static? j = some n → z.state.static? j = some n)
    (hUrls : ∀ url ∈ z.evaluatedUrls, url ∈ y.evaluatedUrls ∨ url = m.url) : x.Spares z := by
  have hOther : ∀ j n, x.state.static? j = some n → n.status = .evaluating → j ≠ id := by
    rintro j n hn hStatus rfl
    exact hNot ⟨n, hn, hStatus⟩
  refine ⟨hChange.lawful h.lawful, h.later.trans (hChange.later h.lawful),
    fun j n hn hStatus => ?_, fun j n hn hStatus hUrl => ?_⟩
  · exact hSame j n (hOther j n hn hStatus) (h.running j n hn hStatus)
  · rcases hUrls n.url hUrl with hOld | hEq
    · exact h.silent j n hn hStatus hOld
    · exact absurd (h.lawful.eq_of_static_url (h.running j n hn hStatus) hm hEq)
        (hOther j n hn hStatus)

theorem update {id : ModuleId} {m : StaticModule} {f : StaticModule → StaticModule}
    (h : x.Spares y) (hNot : ¬x.state.IsRunning id) (hm : y.state.static? id = some m)
    (hChange : Change y (y.move (y.state.updateStatic id f))) :
    x.Spares (y.move (y.state.updateStatic id f)) := by
  refine h.touch hNot hm hChange (fun j n hj hn => ?_) fun _ hUrl => .inl hUrl
  rw [Moment.state_move, Session.static?_updateStatic_of_ne hj, hn]

theorem of_still (h : x.Still y) (hChange : Change x y) (hx : x.Lawful) : x.Spares y :=
  of_extends ⟨h.frame _, hChange.lawful hx, hChange.later hx⟩ hx

theorem newObject (hx : x.Lawful) :
    x.Spares (x.move { x.state with nextObject := x.state.nextObject + 1 }) :=
  of_still ⟨rfl, rfl, rfl⟩ (.newObject x) hx

end Moment.Spares

namespace Session

abbrev Spares {α : Type} (action : Load σ α) (x : Instant σ) : Prop :=
  action.Meets Change (fun _ => True) (fun _ y => x.Spares y) (fun _ y => x.Spares y) x

theorem spares_newObject (hx : x.Lawful) : Session.Spares newObject x :=
  ⟨.newObject x, .newObject hx⟩

theorem spares_bind {α β : Type} {action : Load σ α} {f : α → Load σ β}
    (h : Session.Spares action x) (hNext : ∀ a y, y.Lawful → Session.Spares (f a) y) :
    Session.Spares (action >>= f) x := by
  rw [Session.Spares, Action.meets_bind]
  refine h.ends (fun _ _ hy => hy) fun a y hy => ?_
  exact (hNext a y hy.lawful).ends (fun _ _ hz => hy.trans hz) fun _ _ hz => hy.trans hz

theorem spares_moduleFor (env : Environment σ) (specifier referrer : String) (hx : x.Lawful) :
    Session.Spares (moduleFor env specifier referrer) x :=
  (meets_moduleFor env specifier referrer x.state.NotLinked hx).ends
    (fun _ _ hy => .of_extends hy.1 hx) fun _ _ hy => .of_extends hy.1 hx

theorem spares_link (env : Environment σ) (fuel : Nat) (root : ModuleId) (hx : x.Lawful) :
    Session.Spares (link env fuel root) x :=
  (meets_link env fuel root hx).mono (fun _ _ h => h) (fun _ _ => trivial)
    (fun _ _ hy => .of_extends hy.1 hx) fun _ _ hy => .of_extends hy.1 hx

theorem spares_importBy (env : Environment σ) (fuel : Nat) {run : ModuleId → Load σ Namespace}
    (hRun : ∀ id y, y.Lawful → Session.Spares (run id) y) (specifier referrer : String)
    (hx : x.Lawful) : Session.Spares (importBy env fuel run specifier referrer) x :=
  spares_bind (spares_moduleFor env specifier referrer hx) fun id _ hy =>
    spares_bind (spares_link env fuel id hy) fun _ _ hz => hRun id _ hz

theorem spares_runScript {load : String → Load σ Namespace}
    (hLoad : ∀ specifier y, y.Lawful → Session.Spares (load specifier) y) (script : Script σ)
    (hx : x.Lawful) : Session.Spares (runScript load script) x := by
  induction script generalizing x with
  | finish outcome => cases outcome <;> exact .refl hx
  | update change next ih =>
    have hStep := Change.world x change
    exact spares_bind ⟨hStep, .of_still ⟨rfl, rfl, rfl⟩ hStep hx⟩ fun _ _ hy => ih hy
  | inspect next ih => exact spares_bind ⟨.refl x, .refl hx⟩ fun s _ hy => ih s.world hy
  | allocate next ih => exact spares_bind (spares_newObject hx) fun id _ hy => ih id hy
  | importModule specifier next ih =>
    refine spares_bind ?_ fun outcome _ hy => ih outcome hy
    rw [Session.Spares, Action.meets_attempt]
    exact hLoad specifier x hx

theorem spares_importedNamespaces {run : ModuleId → Load σ Namespace}
    (hRun : ∀ id y, y.Lawful → Session.Spares (run id) y) (entries : List (String × ModuleId))
    (hx : x.Lawful) : Session.Spares (importedNamespaces run entries) x := by
  induction entries generalizing x with
  | nil => exact .refl hx
  | cons entry rest ih =>
    exact spares_bind (hRun entry.2 x hx) fun _ _ hy =>
      spares_bind (ih hy) fun _ _ hz => .refl hz

/-- The program of a running module, which has not been left to the host, spares what was running
before the module was. -/
theorem meets_runModule (env : Environment σ) {run : ModuleId → Load σ Namespace}
    {load : String → Load σ Namespace} (hRun : ∀ id y, y.Lawful → Session.Spares (run id) y)
    (hLoad : ∀ specifier y, y.Lawful → Session.Spares (load specifier) y) {id : ModuleId}
    {m : StaticModule} (hy : x.Spares y) (hNot : ¬x.state.IsRunning id)
    (hm : y.state.static? id = some m) (hStatus : m.status = .evaluating)
    (hOnce : m.url ∉ y.evaluatedUrls) :
    (runModule env run load m).Meets Change (fun _ => True)
      (fun _ z => x.Spares z ∧ z.state.static? id = some m)
      (fun _ z => x.Spares z ∧ z.state.static? id = some m) y := by
  simp only [runModule, Action.meets_bind, Action.meets_tell]
  refine (spares_importedNamespaces hRun _ hy.lawful).ends ?_ ?_
  · intro e z hz
    exact ⟨hy.trans hz, hz.running id m hm hStatus⟩
  · intro imports z hz
    have hmz := hz.running id m hm hStatus
    have hOnce' : m.url ∉ z.evaluatedUrls := fun h => hOnce (hz.silent id m hm hStatus h)
    generalize (⟨.ofList imports, m.importMeta, m.url⟩ : EvaluationScope) = scope
    have hTell : Change z (z.hear (.evaluated m scope)) := .evaluate hmz rfl hStatus hOnce'
    have hTold : x.Spares (z.hear (.evaluated m scope)) := by
      refine (hy.trans hz).touch hNot hmz hTell (fun _ _ _ hn => hn) fun url hUrl => ?_
      simpa [Moment.evaluatedUrls, Moment.evaluations, Event.evaluation?, or_comm] using hUrl
    refine ⟨hTell, (spares_runScript hLoad _ hTold.lawful).ends ?_ ?_⟩
    · exact fun _ w hw => ⟨hTold.trans hw, hw.running id m hmz hStatus⟩
    · exact fun _ w hw => ⟨hTold.trans hw, hw.running id m hmz hStatus⟩

/-- A linked module has failed with the text. -/
def HasFailure (s : Session σ) (id : ModuleId) (text : String) : Prop :=
  ∃ m, s.static? id = some m ∧ m.linking = .linked ∧ m.failure = some text

theorem meets_evaluateSynthetic {id : ModuleId} {m : SyntheticModule}
    {stuck : Instant σ → Prop} (hx : x.Lawful) (hm : x.state.module? id = some (.synthetic m)) :
    (evaluateSynthetic id m).Meets Change stuck (fun _ _ => False)
      (fun exports y => x.Extends (· = id) y ∧ y.state.HasExports id exports) x := by
  obtain ⟨exports, hOk, hKept⟩ := hx.synthetic id m hm x.state.nextObject
  simp only [evaluateSynthetic, newObject, Action.meets_bind, Action.meets_modifyGet,
    Action.meets_modify, hOk, Action.meets_ofExcept_ok]
  have hTake := Change.newObject x
  refine ⟨hTake, ?_⟩
  have hTaken := hTake.lawful hx
  have hLater := hTake.later hx
  generalize hy : x.move { x.state with nextObject := x.state.nextObject + 1 } = y at hTaken hLater ⊢
  have hSame : ∀ j, y.state.module? j = x.state.module? j := fun j => hy ▸ rfl
  have hmy := (hSame id).trans hm
  have hSet : Change y (y.move (y.state.withSynthetic id (m.evaluate x.state.nextObject).2)) :=
    .evaluateSynthetic hmy
  refine ⟨hSet, ⟨⟨fun j n hj hn => ?_, hy ▸ rfl⟩, hSet.lawful hTaken,
    hLater.trans (hSet.later hTaken)⟩, .synthetic _, ?_, hKept⟩
  · rw [Moment.state_move, module?_withSynthetic hmy, if_neg hj, hSame, hn]
  · rw [Moment.state_move, module?_withSynthetic hmy, if_pos rfl]

theorem meets_namespaceOrEmpty (exports : Option Namespace) {stuck : Instant σ → Prop}
    (hx : x.Lawful) :
    (namespaceOrEmpty exports).Meets Change stuck (fun _ _ => False)
      (fun found y => x.Extends (fun _ => False) y ∧ (∀ known, exports = some known → found = known) ∧
        (exports = none → found.exports = .empty)) x := by
  cases exports with
  | some known => exact ⟨.refl hx, fun _ h => Option.some.inj h, nofun⟩
  | none =>
    have hTake := Change.newObject x
    exact ⟨hTake, ⟨⟨fun _ _ _ hm => hm, rfl⟩, hTake.lawful hx, hTake.later hx⟩, nofun, fun _ => rfl⟩

/-- A module that is ready is run, and its namespace or the text of its failure is left with it. -/
theorem meets_runOnce (env : Environment σ) {run : ModuleId → Load σ Namespace}
    {load : String → Load σ Namespace} (hRun : ∀ id y, y.Lawful → Session.Spares (run id) y)
    (hLoad : ∀ specifier y, y.Lawful → Session.Spares (load specifier) y) {id : ModuleId}
    {m : StaticModule} (hx : x.Lawful) (hm : x.state.static? id = some m)
    (hLinking : m.linking = .linked) (hStatus : m.status = .instantiated) :
    (runOnce env run load id m).Meets Change (fun _ => True)
      (fun e y => x.Spares y ∧ y.state.HasFailure id e.message)
      (fun exports y => x.Spares y ∧ y.state.HasExports id exports) x := by
  simp only [runOnce, Action.meets_bind, Action.meets_onFailure, changeStatic, newObject,
    Action.meets_modify, Action.meets_modifyGet, Action.meets_pure]
  have hNot : ¬x.state.IsRunning id := not_isRunning hm (by simp [hStatus])
  have hOnce := hx.not_mem_evaluatedUrls hm hStatus
  have hBegin := Change.update hm (.beginEvaluation hLinking hStatus)
  have hBegun := (Moment.Spares.refl hx).update hNot hm hBegin
  refine ⟨hBegin, (meets_runModule env hRun hLoad hBegun hNot (static?_updateStatic_self hm _) rfl
    hOnce).ends ?_ ?_⟩
  · rintro e y ⟨hy, hmy⟩
    have hFail : Change y (y.move (y.state.updateStatic id (·.failEvaluation e))) :=
      .update hmy (.failEvaluation rfl)
    exact ⟨hFail, hy.update hNot hmy hFail, _, static?_updateStatic_self hmy _, hLinking, rfl⟩
  · rintro properties y ⟨hy, hmy⟩
    refine ⟨.newObject y, ?_⟩
    have hTaken := hy.trans (.newObject hy.lawful)
    generalize (⟨y.state.nextObject, properties⟩ : Namespace) = exports
    generalize hz : y.move { y.state with nextObject := y.state.nextObject + 1 } = z at hTaken ⊢
    have hmz : z.state.static? id = some m.beginEvaluation := hz ▸ hmy
    have hFinish : Change z (z.move (z.state.updateStatic id (·.finishEvaluation exports))) :=
      .update hmz (.finishEvaluation rfl)
    exact ⟨hFinish, hTaken.update hNot hmz hFinish, .static (m.beginEvaluation.finishEvaluation exports),
      static?_eq_some_iff.1 (static?_updateStatic_self hmz _), rfl⟩

/-- An evaluation spares what is running.  It leaves its namespace or the text of its failure with
the module. -/
theorem meets_evaluate (env : Environment σ) (fuel : Nat) (id : ModuleId) (hx : x.Lawful) :
    (evaluate env fuel id).Meets Change (fun _ => True)
      (fun e y => x.Spares y ∧ ∀ m, x.state.static? id = some m → m.linking = .linked →
        m.status ≠ .errored → y.state.HasFailure id e.message)
      (fun exports y => x.Spares y ∧ (¬x.state.IsRunning id → y.state.HasExports id exports)) x := by
  induction fuel generalizing x id with
  | zero => trivial
  | succ fuel ih =>
    have hRun : ∀ j y, y.Lawful → Session.Spares (evaluate env fuel j) y :=
      fun j y hy => (ih j hy).ends (fun _ _ h => h.1) fun _ _ h => h.1
    simp only [evaluate, Action.meets_bind, Action.meets_get]
    refine ⟨.refl x, ?_⟩
    rcases hModule : x.state.module? id with _ | (m | m)
    · refine ⟨.refl hx, fun m hm => ?_⟩
      rw [static?_eq_some_iff, hModule] at hm
      cases hm
    · have hm := static?_eq_some_iff.2 hModule
      have hLawful := hx.static id m hm
      simp only [Action.meets_bind]
      rcases hLawful.evaluationStep_cases with
        ⟨hLinking, hStatus, hStep⟩ | ⟨-, hStatus, hStep⟩ | ⟨hRefused, e, hStep⟩
      · rw [hStep, Action.meets_ofExcept_ok]
        refine (meets_runOnce env hRun (fun specifier y hy =>
          spares_importBy env fuel hRun specifier m.url hy) hx hm hLinking hStatus).ends ?_ ?_
        · exact fun e y hy => ⟨hy.1, fun _ _ _ _ => hy.2⟩
        · exact fun exports y hy => ⟨hy.1, fun _ => hy.2⟩
      · rw [hStep, Action.meets_ofExcept_ok]
        refine (meets_namespaceOrEmpty m.exports hx).ends (fun _ _ => False.elim) ?_
        rintro exports y ⟨hy, hExports, -⟩
        refine ⟨.of_extends (hy.mono fun _ => False.elim) hx, fun hNot => ?_⟩
        have hEvaluated := hStatus.resolve_left fun h => hNot ⟨m, hm, h⟩
        obtain ⟨known, hKnown⟩ := Option.isSome_iff_exists.1 (hLawful.exports.2 hEvaluated)
        rw [hExports known hKnown]
        exact hy.later.hasExports ⟨.static m, hModule, hKnown⟩
      · rw [hStep, Action.meets_ofExcept_error]
        refine ⟨.refl hx, fun n hn hLinked hNot => absurd ?_ hNot⟩
        rw [hm, Option.some.injEq] at hn
        subst hn
        exact hRefused hLinked
    · refine (meets_evaluateSynthetic hx hModule).ends (fun _ _ => False.elim) ?_
      rintro exports y ⟨hy, hExports⟩
      refine ⟨.of_extends (hy.mono ?_) hx, fun _ => hExports⟩
      rintro j rfl n hn
      rw [static?_eq_some_iff, hModule] at hn
      cases hn

end Session

end ModuleLoader
