import ModuleLoader.Proofs.Session.PostOrder
import ModuleLoader.Proofs.Session.History
import ModuleLoader.Proofs.Session.Repose

/-! What an `import()` expression gives.  Its module is in the cache and, if the host runs its code,
linked with all that it leads to.  The namespace is empty below the module itself and otherwise the
one that the module keeps, which every later import of that URL gives again without asking anyone. -/

namespace ModuleLoader

variable {σ : Type} {x y z : Instant σ} {env : Environment σ} {id : ModuleId}

/-- The second moment comes after the first one in some run. -/
def Moment.Precedes (x y : Instant σ) : Prop := Relation.ReflTransGen Change x y

/-- From the first moment to the second one at most identities of objects have been taken. -/
def Moment.Quiet (x y : Instant σ) : Prop :=
  ∃ nextObject, y = x.move { x.state with nextObject }

theorem Moment.Quiet.refl (x : Instant σ) : x.Quiet x := ⟨x.state.nextObject, rfl⟩

theorem Moment.Precedes.later (h : x.Precedes y) (hx : x.Lawful) : y.Lawful ∧ x.Later y := by
  induction h with
  | refl => exact ⟨hx, .refl x⟩
  | tail _ hStep ih => exact ⟨hStep.lawful ih.1, ih.2.trans (hStep.later ih.1)⟩

theorem Action.Meets.precedes {α : Type} {action : Load σ α} {stuck : Instant σ → Prop}
    {failed : LoadError → Instant σ → Prop} {done : α → Instant σ → Prop}
    (h : action.Meets Change stuck failed done x) (hy : y ∈ action.moments x) : x.Precedes y :=
  h.forall_moments x.Precedes .refl (fun _ _ hStep h => h.tail hStep) y hy

/-- A synthetic module that has its namespace is evaluated. -/
def SyntheticModule.Settled (m : SyntheticModule) : Prop := m.exports.isSome → m.status = .evaluated

theorem SyntheticModule.Settled.evaluate {m : SyntheticModule} (h : m.Settled) (fresh : ObjectId) :
    (m.evaluate fresh).2.Settled := by
  unfold SyntheticModule.evaluate
  split
  · exact h
  · next hNone =>
    split
    · exact fun _ => rfl
    · intro hSome
      simp [hNone] at hSome

/-- All synthetic modules are settled. -/
def Moment.Settled (x : Instant σ) : Prop :=
  ∀ id m, x.state.module? id = some (.synthetic m) → m.Settled

theorem Change.settled (h : Change x y) (hx : x.Settled) : y.Settled :=
  h.forall_synthetic (fun _ _ => nofun) (fun _ fresh hm => hm.evaluate fresh) hx

theorem Moment.Precedes.settled (h : x.Precedes y) (hx : x.Settled) : y.Settled := by
  induction h with
  | refl => exact hx
  | tail _ hStep ih => exact hStep.settled ih

theorem Moment.Spares.module_of_running (h : x.Spares y) (hRunning : x.state.IsRunning id)
    {k : Module} (hk : y.state.module? id = some k) :
    ∃ m, k = .static m ∧ m.status = .evaluating := by
  obtain ⟨m, hm, hStatus⟩ := hRunning
  have hSame := Session.static?_eq_some_iff.1 (h.running id m hm hStatus)
  rw [hk, Option.some.injEq] at hSame
  exact ⟨m, hSame, hStatus⟩

namespace Session

/-- Below itself, a module is empty. -/
theorem exports_of_running {fuel : Nat} {exports : Namespace} (hx : x.Lawful)
    (h : x.state.IsRunning id) (hRun : (evaluate env fuel id).runFrom x = some (.ok exports, y)) :
    exports.exports = .empty := by
  obtain ⟨m, hm, hStatus⟩ := h
  have hLawful := hx.static id m hm
  have hMeets : (evaluate env fuel id).Meets (fun _ _ => True) (fun _ => True) (fun _ _ => False)
      (fun exports _ => exports.exports = .empty) x := by
    cases fuel with
    | zero => trivial
    | succ fuel =>
      have hLinking := hLawful.linked_of_status (.inr (.inl hStatus))
      simp only [evaluate, Action.meets_bind, Action.meets_get, static?_eq_some_iff.1 hm,
        StaticModule.evaluationStep_of_begun hLinking (.inl hStatus), Action.meets_ofExcept_ok,
        hLawful.exports_eq_none (by simp [hStatus])]
      exact ⟨trivial, trivial, rfl⟩
  exact (hMeets.of_runFrom hRun).1 exports rfl

/-- A module that has its namespace gives it, and nothing else happens. -/
theorem evaluate_of_hasExports {exports : Namespace} (env : Environment σ) (fuel : Nat)
    (hx : x.Lawful) (h : x.state.HasExports id exports) :
    ∃ y, (evaluate env (fuel + 1) id).runFrom x = some (.ok exports, y) ∧ x.Quiet y := by
  obtain ⟨k, hk, hExports⟩ := h
  cases k with
  | static m =>
    exact ⟨x, evaluate_of_exports fuel hx (static?_eq_some_iff.2 hk) hExports, .refl x⟩
  | synthetic m =>
    have hSame : x.state.modules.set id (.synthetic m) = x.state.modules := by
      obtain ⟨hLt, hEq⟩ := List.getElem?_eq_some_iff.1 hk
      rw [← hEq, List.set_getElem_self hLt]
    generalize hTaken : x.move { x.state with nextObject := x.state.nextObject + 1 } = y
    have hMeets : (evaluate env (fuel + 1) id).Meets (fun _ _ => True) (fun _ => False)
        (fun _ _ => False) (fun found z => found = exports ∧ z = y) x := by
      simp only [evaluate, evaluateSynthetic, newObject, Action.meets_bind, Action.meets_get, hk,
        Action.meets_modifyGet, Action.meets_modify, SyntheticModule.evaluate_of_exports hExports,
        Action.meets_ofExcept_ok]
      refine ⟨trivial, trivial, trivial, trivial, ?_⟩
      simp [← hTaken, Moment.move, withSynthetic, hSame]
    exact ⟨y, hMeets.runFrom_eq_ok, x.state.nextObject + 1, hTaken.symm⟩

/-- An import of a module that has its namespace gives it, and nothing else happens after the
specifier is resolved. -/
theorem importExpression_of_hasExports {r : ResolvedModule} {exports : Namespace}
    {specifier referrer : String} (fuel : Nat)
    (hRun : (resolve env specifier (some referrer)).runFrom x = some (.ok r, y))
    (hGet : y.state.cache.get? r.url = some id) (hExports : y.state.HasExports id exports)
    (hy : y.Lawful) :
    ∃ z, (importExpression env (fuel + 1) specifier referrer).runFrom x = some (.ok exports, z) ∧
      y.Quiet z := by
  obtain ⟨z, hEvaluate, hQuiet⟩ := evaluate_of_hasExports env fuel hy hExports
  have hModule : (moduleFor env specifier referrer).runFrom x = some (.ok id, y) :=
    (Action.runFrom_bind_of_ok hRun).trans (cachedModule_of_get? env false hGet)
  have hLink : (link env (fuel + 1) id).runFrom y = some (.ok (), y) := by
    refine link_of_linked env _ fun m hm => ?_
    obtain ⟨hStatus, -⟩ := evaluated_of_hasExports hy hm hExports
    exact (hy.static id m hm).linked_of_status (.inr (.inr hStatus))
  refine ⟨z, ?_, hQuiet⟩
  rw [importExpression, importBy, Action.runFrom_bind_of_ok hModule,
    Action.runFrom_bind_of_ok hLink, hEvaluate]

theorem later_of_resolve {r : ResolvedModule} {specifier referrer : String} (hx : x.Lawful)
    (hRun : (resolve env specifier (some referrer)).runFrom x = some (.ok r, y)) :
    y.Lawful ∧ x.Later y := by
  have hSpares : Session.Spares (resolve env specifier (some referrer)) x :=
    spares_of_still ((meets_resolve env specifier _ none).ends (fun _ _ hy => hy.1)
      fun _ _ hy => hy.1) hx
  have hy := (hSpares.of_runFrom hRun).1 r rfl
  exact ⟨hy.lawful, hy.later⟩

/-- On its way to the evaluation, an `import()` expression resolves the specifier, finds or makes the
module and links it.  Nothing comes to run meanwhile. -/
theorem evaluation_of_import {fuel : Nat} {specifier referrer : String} {exports : Namespace}
    (hx : x.Lawful)
    (hRun : (importExpression env fuel specifier referrer).runFrom x = some (.ok exports, y)) :
    ∃ r w id u, (resolve env specifier (some referrer)).runFrom x = some (.ok r, w) ∧
      u.Lawful ∧ u.state.cache.get? r.url = some id ∧
      (∀ m, u.state.static? id = some m → m.linking = .linked) ∧
      (u.state.IsRunning id → x.state.IsRunning id) ∧
      (evaluate env fuel id).runFrom u = some (.ok exports, y) := by
  obtain ⟨id, v, hModule, hRest⟩ := Action.exists_of_runFrom_bind hRun
  obtain ⟨r, w, hResolve, hFind⟩ := Action.exists_of_runFrom_bind hModule
  obtain ⟨_, u, hLink, hEvaluate⟩ := Action.exists_of_runFrom_bind hRest
  obtain ⟨hw, -⟩ := later_of_resolve hx hResolve
  have hCached : (moduleAt env r).Meets Change (fun _ => True) _ _ w :=
    meets_cachedModule env r false (fun _ => False) hw
  obtain ⟨hv, hGet⟩ := (hCached.of_runFrom hFind).1 id rfl
  obtain ⟨hu, hLinked⟩ := ((meets_link env fuel id hv.lawful).of_runFrom hLink).1 _ rfl
  refine ⟨r, w, id, u, hResolve, hu.lawful, hu.later.cache _ _ hGet, hLinked, ?_, hEvaluate⟩
  rintro ⟨m, hm, hStatus⟩
  have hFound := ((resting_moduleFor env specifier referrer).of_runFrom hModule).1 id rfl
  have hLinks := ((resting_link env fuel id).of_runFrom hLink).1 _ rfl
  exact hFound.trans hLinks id m hm hStatus

/-- An `import()` expression that succeeds, at whatever moment of a run, leaves its module in the
cache.  A module whose code the host runs is linked with all that it leads to, and is still running
with an empty namespace, or evaluated.  A module that is evaluated keeps the namespace: at every
later moment, its evaluation and every import that is resolved to its URL give the same namespace,
and nothing else happens. -/
theorem namespace_of_import (env : Environment σ) (world : σ) (requests : List (Nat × Request σ))
    (hx : x ∈ (serve env requests).moments (.fresh world)) {fuel : Nat}
    {specifier referrer : String} {exports : Namespace}
    (hRun : (importExpression env fuel specifier referrer).runFrom x = some (.ok exports, y)) :
    ∃ r w id k, (resolve env specifier (some referrer)).runFrom x = some (.ok r, w) ∧
      y.state.cache.get? r.url = some id ∧ y.state.module? id = some k ∧ k.url = r.url ∧
      (∀ m, k = .static m →
        (∀ j n, y.state.Leads id j → y.state.static? j = some n → n.linking = .linked) ∧
        (x.state.IsRunning id ∧ exports.exports = .empty ∨
          m.status = .evaluated ∧ m.exports = some exports)) ∧
      (∀ m, k = .synthetic m → m.status = .evaluated ∧ m.exports = some exports) ∧
      (k.status = .evaluated → ∀ z, y.Precedes z → ∀ fuel',
        (∃ z', (evaluate env (fuel' + 1) id).runFrom z = some (.ok exports, z') ∧ z.Quiet z') ∧
        ∀ specifier' referrer' r' w',
          (resolve env specifier' (some referrer')).runFrom z = some (.ok r', w') →
          r'.url = r.url → ∃ z',
            (importExpression env (fuel' + 1) specifier' referrer').runFrom z =
              some (.ok exports, z') ∧ w'.Quiet z') := by
  have hServe := spares_serve env requests (Moment.lawful_fresh world)
  have hSettled : x.Settled := (hServe.precedes hx).settled (by
    intro id m hm
    cases hm)
  have hx := lawful_of_mem_serve hx
  have hImport := spares_importBy env fuel (fun id _ hy => spares_evaluate env fuel id hy)
    specifier referrer hx
  have hy : x.Precedes y := hImport.precedes (Action.mem_moments_of_runFrom hRun)
  obtain ⟨r, w, id, u, hResolve, hu, hGet, hLinked, hRunning, hEvaluate⟩ :=
    evaluation_of_import hx hRun
  obtain ⟨hSpares, hExports⟩ := ((meets_evaluate env fuel id hu).of_runFrom hEvaluate).1 _ rfl
  obtain ⟨k', hk', -⟩ := hu.stored _ _ hGet
  have hGet' := hSpares.later.cache _ _ hGet
  obtain ⟨k, hk, hUrl⟩ := hSpares.lawful.stored _ _ hGet'
  refine ⟨r, w, id, k, hResolve, hGet', hk, hUrl, ?_, ?_, ?_⟩
  · rintro m rfl
    have hm := static?_eq_some_iff.2 hk
    obtain ⟨n, hn, hGrows⟩ := hSpares.later.static?_of_module hk' hm
    refine ⟨fun j l hLeads hl =>
      hSpares.lawful.linked_of_leads hm (hGrows.linked (hLinked n hn)) hLeads hl, ?_⟩
    by_cases hBelow : u.state.IsRunning id
    · exact .inl ⟨hRunning hBelow, exports_of_running hu hBelow hEvaluate⟩
    · exact .inr (evaluated_of_hasExports hSpares.lawful hm (hExports hBelow))
  · rintro m rfl
    have hBelow : ¬u.state.IsRunning id := by
      intro hBelow
      obtain ⟨n, hn, -⟩ := hSpares.module_of_running hBelow hk
      cases hn
    obtain ⟨k'', hk'', hKept⟩ := hExports hBelow
    rw [hk, Option.some.injEq] at hk''
    subst hk''
    exact ⟨hy.settled hSettled id m hk (by rw [show m.exports = _ from hKept]; rfl), hKept⟩
  · intro hStatus z hz fuel'
    obtain ⟨hLawful, hLater⟩ := hz.later hSpares.lawful
    have hBelow : ¬u.state.IsRunning id := by
      intro hBelow
      obtain ⟨n, rfl, hEvaluating⟩ := hSpares.module_of_running hBelow hk
      cases hEvaluating.symm.trans hStatus
    have hKept := hLater.hasExports (hExports hBelow)
    refine ⟨evaluate_of_hasExports env fuel' hLawful hKept, ?_⟩
    intro specifier' referrer' r' w' hResolve' hSame
    obtain ⟨hw', hLater'⟩ := later_of_resolve hLawful hResolve'
    refine importExpression_of_hasExports fuel' hResolve' ?_ (hLater'.hasExports hKept) hw'
    rw [hSame]
    exact hLater'.cache _ _ (hLater.cache _ _ hGet')

/-- A link that fails gives up the sample's `b`.  While `b` is running after all, an import of `a`,
which has been evaluated for `b`, gives a namespace, and an import in another module gives it
again. -/
theorem namespace_of_import_running :
    ∃ x ∈ (serve Sample.together (Sample.givenUp ++ [(9, .evaluate 1)])).moments (.fresh ()),
      x.state.IsRunning 1 ∧ ∃ exports y z,
        (importExpression Sample.together 9 "a" "file:///b").runFrom x = some (.ok exports, y) ∧
        (importExpression Sample.together 9 "a" "file:///c").runFrom y =
          some (.ok exports, z) := by
  have hRun : ((serve Sample.together (Sample.givenUp ++ [(9, .evaluate 1)])).moments
      (.fresh ())).any (fun x =>
      (x.state.static? 1).any (fun m => m.status = .evaluating) ∧
      ((resolve Sample.together "a" (some "file:///b")).runFrom x).any (fun
        | (.ok r, _) => r.url = "file:///a"
        | (.error _, _) => false) ∧
      ((importExpression Sample.together 9 "a" "file:///b").runFrom x).any fun
        | (.ok _, y) => ((y.state.cache.get? "file:///a").bind y.state.module?).any
            (fun k => k.status = .evaluated) ∧
          ((resolve Sample.together "a" (some "file:///c")).runFrom y).any (fun
            | (.ok r, _) => r.url = "file:///a"
            | (.error _, _) => false)
        | (.error _, _) => false) = true := by decide +kernel
  obtain ⟨x, hx, hDecide⟩ := List.any_eq_true.1 hRun
  obtain ⟨hRunning, hResolve, hImport⟩ := of_decide_eq_true hDecide
  obtain ⟨m, hm, hStatus⟩ := (Option.any_eq_true _ _).1 hRunning
  obtain ⟨⟨outcome, w⟩, hResolve, hUrl⟩ := (Option.any_eq_true _ _).1 hResolve
  obtain ⟨⟨outcome', y⟩, hImport, hDecide⟩ := (Option.any_eq_true _ _).1 hImport
  cases outcome with
  | error e => cases hUrl
  | ok r =>
    cases outcome' with
    | error e => cases hDecide
    | ok exports =>
      obtain ⟨hThere, hResolve'⟩ := of_decide_eq_true hDecide
      obtain ⟨k, hk, hEvaluated⟩ := (Option.any_eq_true _ _).1 hThere
      obtain ⟨⟨outcome', w'⟩, hResolve', hUrl'⟩ := (Option.any_eq_true _ _).1 hResolve'
      cases outcome' with
      | error e => cases hUrl'
      | ok r' =>
        have hUrl : r.url = "file:///a" := of_decide_eq_true hUrl
        have hUrl' : r'.url = "file:///a" := of_decide_eq_true hUrl'
        obtain ⟨found, _, id, l, hFound, hGet, hl, -, -, -, hAgain⟩ :=
          namespace_of_import Sample.together () _ hx hImport
        rw [hResolve] at hFound
        cases hFound
        rw [← hUrl, hGet, Option.bind_some, hl, Option.some.injEq] at hk
        subst hk
        obtain ⟨-, hImports⟩ := hAgain (of_decide_eq_true hEvaluated) y .refl 8
        obtain ⟨z, hSame, -⟩ := hImports "a" "file:///c" r' w' hResolve' (hUrl'.trans hUrl.symm)
        exact ⟨x, hx, ⟨m, hm, of_decide_eq_true hStatus⟩, exports, y, z, hImport, hSame⟩

end Session

end ModuleLoader
