import ModuleLoader.Proofs.Session.History

/-! How often the scripts of synthetic modules run.  A script that fails is run again by the next
evaluation, so it runs at most once exactly if nothing is asked for behind a failure.  In a session
no such script fails, and the modules that can fail keep their failures. -/

namespace ModuleLoader

variable {σ : Type} {x y : Instant σ} {id : ModuleId}

namespace SyntheticModule

variable {m : SyntheticModule} {ids : List ObjectId}

/-- Behind a failure there are only failures. -/
def StaysFailed (outcomes : List (Except LoadError Namespace)) : Prop :=
  outcomes.Pairwise fun first later => (∃ e, first = .error e) → ∃ e, later = .error e

theorem staysFailed_errors (errors : List LoadError) : StaysFailed (errors.map .error) :=
  List.pairwise_map.2 (List.pairwise_of_forall fun _ later _ => ⟨later, rfl⟩)

theorem staysFailed_successes (count : Nat) (exports : Namespace) :
    StaysFailed (List.replicate count (.ok exports)) := by
  refine List.pairwise_replicate.2 (.inr ?_)
  rintro ⟨e, he⟩
  cases he

/-- First there are failures and then successes.  The script runs for each failure, and for the
first success. -/
theorem exists_outcomes (hNone : m.exports = none) (ids : List ObjectId) :
    ∃ (errors : List LoadError) (count : Nat) (exports : Namespace),
      (m.evaluateAll ids).1 = errors.map .error ++ List.replicate count (.ok exports) ∧
      errors.length + count = ids.length ∧
      (m.evaluateAll ids).2.runs = m.runs + errors.length + min count 1 ∧
      (∀ i e, errors[i]? = some e → (m.traceOf (m.runs + i)).2 = .error e) ∧
      (0 < count → (m.traceOf (m.runs + errors.length)).2 = .ok ()) := by
  obtain ⟨errors, hErrors, ⟨hLength, hAll⟩ | ⟨fresh, hFresh, hOk, hAll⟩⟩ :=
    exists_evaluateAll hNone ids
  · exact ⟨errors, 0, ⟨0, .empty⟩, by simp [hAll], hLength, by simp [hAll, afterErrors], hErrors,
      nofun⟩
  · obtain ⟨hLt, -⟩ := List.getElem?_eq_some_iff.1 hFresh
    refine ⟨errors, ids.length - errors.length, _, by rw [hAll], by omega, ?_, hErrors,
      fun _ => hOk⟩
    simp only [hAll, afterSuccess]
    omega

/-- The script runs for each evaluation that fails, and for one that does not. -/
theorem runs_evaluateAll (hNone : m.exports = none) (hRuns : m.runs = 0) (ids : List ObjectId) :
    (m.evaluateAll ids).2.runs = (m.evaluateAll ids).1.countP (!·.isOk) +
      min ((m.evaluateAll ids).1.countP (·.isOk)) 1 := by
  obtain ⟨errors, count, exports, hOutcomes, -, hCount, -⟩ := exists_outcomes hNone ids
  have hFailed : ((errors.map .error : List (Except LoadError Namespace)).countP (·.isOk)) = 0 :=
    List.countP_eq_zero.2 (List.forall_mem_map.2 fun _ _ => by simp [Except.isOk, Except.toBool])
  have hFailed' : ((errors.map .error : List (Except LoadError Namespace)).countP (!·.isOk)) =
      errors.length := by
    rw [List.countP_eq_length.2 (List.forall_mem_map.2 fun _ _ => rfl), List.length_map]
  rw [hCount, hOutcomes, hRuns, List.countP_append, List.countP_append, hFailed, hFailed']
  simp [List.countP_replicate, Except.isOk, Except.toBool]

/-- The script runs at most once, and failures stay, exactly if the first run succeeds or nothing is
asked for behind it. -/
theorem runs_le_one_iff (hNone : m.exports = none) (hRuns : m.runs = 0) (ids : List ObjectId) :
    ((m.evaluateAll ids).2.runs ≤ 1 ∧ StaysFailed (m.evaluateAll ids).1) ↔
      ids.length ≤ 1 ∨ (m.traceOf 0).2 = .ok () := by
  obtain ⟨errors, count, exports, hOutcomes, hLength, hCount, hErrors, hOk⟩ :=
    exists_outcomes hNone ids
  rw [hRuns] at hCount hOk
  simp only [hRuns, Nat.zero_add] at hCount hErrors hOk
  rw [hCount, hOutcomes, ← hLength]
  cases errors with
  | nil =>
    refine ⟨fun _ => ?_, fun _ => ⟨?_, ?_⟩⟩
    · rcases Nat.eq_zero_or_pos count with rfl | hPos
      · exact .inl (Nat.zero_le 1)
      · exact .inr (hOk hPos)
    · rw [List.length_nil, Nat.zero_add]
      exact Nat.min_le_right count 1
    · exact staysFailed_successes count exports
  | cons e errors =>
    have hFirst : (m.traceOf 0).2 = .error e := hErrors 0 e rfl
    simp only [hFirst, List.length_cons, reduceCtorEq, or_false]
    refine ⟨fun h => ?_, fun h => ⟨?_, ?_⟩⟩
    · omega
    · omega
    · obtain ⟨rfl, rfl⟩ : errors = [] ∧ count = 0 := by
        rw [← List.length_eq_zero_iff]
        omega
      exact staysFailed_errors [e]

/-- The script has not run and will succeed, or it ran once and left its exports. -/
def RunsOnce (m : SyntheticModule) : Prop :=
  (m.runs = 0 ∧ m.exports = none ∧ (m.traceOf 0).2 = .ok ()) ∨ (m.runs = 1 ∧ m.exports.isSome)

theorem RunsOnce.le_one (h : m.RunsOnce) : m.runs ≤ 1 := by
  rcases h with ⟨hRuns, -⟩ | ⟨hRuns, -⟩ <;> omega

theorem runsOnce_ofNamespace (url : String) (exports : Properties) :
    (ofNamespace url exports).RunsOnce :=
  .inl ⟨rfl, rfl, congrArg Prod.snd (traceOf_ofNamespace url exports 0)⟩

theorem RunsOnce.evaluate (h : m.RunsOnce) (fresh : ObjectId) : (m.evaluate fresh).2.RunsOnce := by
  rcases h with ⟨hRuns, hNone, hOk⟩ | ⟨hRuns, hSome⟩
  · rw [evaluate_of_ok hNone (hRuns ▸ hOk)]
    exact .inr ⟨by simp [afterSuccess, hRuns], rfl⟩
  · obtain ⟨exports, hExports⟩ := Option.isSome_iff_exists.1 hSome
    rw [evaluate_of_exports hExports]
    exact .inr ⟨hRuns, hSome⟩

end SyntheticModule

theorem Change.runsOnce (h : Change x y)
    (hx : ∀ id m, x.state.module? id = some (.synthetic m) → m.RunsOnce) :
    ∀ id m, y.state.module? id = some (.synthetic m) → m.RunsOnce :=
  h.forall_synthetic SyntheticModule.runsOnce_ofNamespace (fun _ fresh hm => hm.evaluate fresh) hx

namespace Session

/-- In a session an evaluation of a synthetic module succeeds. -/
theorem evaluate_synthetic {m : SyntheticModule} (env : Environment σ) (fuel : Nat) (hx : x.Lawful)
    (hm : x.state.module? id = some (.synthetic m)) :
    ∃ exports y, (evaluate env (fuel + 1) id).runFrom x = some (.ok exports, y) := by
  have hMeets : (evaluate env (fuel + 1) id).Meets Change (fun _ => False) (fun _ _ => False)
      (fun _ _ => True) x := by
    simp only [evaluate, Action.meets_bind, Action.meets_get, hm]
    exact ⟨.refl x, (meets_evaluateSynthetic hx hm).ends (fun _ _ h => h) fun _ _ _ => trivial⟩
  obtain ⟨outcome, y, hRun, -, hError⟩ := hMeets.exists_runFrom
  cases outcome with
  | ok exports => exact ⟨exports, y, hRun⟩
  | error e => exact (hError e rfl).elim

/-- A synthetic module runs its script for every evaluation that fails, and for one that does not.
So the script runs at most once, and failures stay, exactly if the first run succeeds or nothing is
asked for behind it.  In a session the script of every synthetic module runs at most once and no
evaluation of it fails, and a module that the host runs keeps its failure. -/
theorem scripts_run_once (env : Environment σ) (world : σ) (requests : List (Nat × Request σ)) :
    (∀ url names (script : Nat → ExportScript) ids,
      let m : SyntheticModule := { url, exportNames := names, script }
      let (outcomes, last) := m.evaluateAll ids
      last.runs = outcomes.countP (!·.isOk) + min (outcomes.countP (·.isOk)) 1 ∧
      (last.runs ≤ 1 ∧ SyntheticModule.StaysFailed outcomes ↔
        ids.length ≤ 1 ∨ ((script 0).trace url names).2 = .ok ())) ∧
    ∀ x ∈ (serve env requests).moments (.fresh world), ∀ id fuel,
      (∀ m, x.state.module? id = some (.synthetic m) → m.runs ≤ 1 ∧
        ∃ exports y, (evaluate env (fuel + 1) id).runFrom x = some (.ok exports, y)) ∧
      ∀ m text, x.state.static? id = some m → m.linking = .linked → m.failure = some text →
        (evaluate env (fuel + 1) id).runFrom x = some (.error (.evaluation m.url text), x) := by
  refine ⟨fun url names script ids => ?_, fun x hx id fuel => ?_⟩
  · exact ⟨SyntheticModule.runs_evaluateAll rfl rfl ids, SyntheticModule.runs_le_one_iff rfl rfl ids⟩
  · have hLawful : x.Lawful := lawful_of_mem_serve hx
    have hOnce : ∀ id m, x.state.module? id = some (.synthetic m) → m.RunsOnce :=
      (spares_serve env requests (Moment.lawful_fresh world)).forall_moments
        (fun y => ∀ id m, y.state.module? id = some (.synthetic m) → m.RunsOnce)
        (by simp [Moment.fresh, Session.module?]) (fun _ _ hStep hy => hStep.runsOnce hy) x hx
    exact ⟨fun m hm => ⟨(hOnce id m hm).le_one, evaluate_synthetic env fuel hLawful hm⟩,
      fun m text hm hLinking hFailure => evaluate_of_failure fuel hLawful hm hLinking hFailure⟩

end Session

namespace Sample

/-- The sample's environment, where every program fails. -/
def failing : Environment Unit :=
  { Sample.environment with evaluate := fun _ _ => .finish (.error (.host "broken")) }

/-- Requests for two evaluations of a module of the host, and for one of `c`. -/
def twice : List (Nat × Session.Request Unit) :=
  [(9, .moduleAt ⟨"fs", .builtin⟩), (9, .evaluate 0), (9, .evaluate 0),
    (9, .moduleAt ⟨"file:///c", .dynamic⟩), (9, .link 1), (9, .evaluate 1)]

end Sample

namespace Session

/-- A script that succeeds at once runs once in three evaluations.  In the session, one module is
evaluated and the other one has failed. -/
theorem scripts_run_once_twice :
    (let m : SyntheticModule :=
      { url := "m", exportNames := ["a"], script := fun _ => .setAll [("a", .null)] }
    (m.evaluateAll [7, 8, 9]).2.runs ≤ 1 ∧
      SyntheticModule.StaysFailed (m.evaluateAll [7, 8, 9]).1) ∧
    ∃ x ∈ (serve Sample.failing Sample.twice).moments (.fresh ()), ∃ m n text exports y,
      x.state.module? 0 = some (.synthetic m) ∧ m.status = .evaluated ∧ m.runs ≤ 1 ∧
      (evaluate Sample.failing 1 0).runFrom x = some (.ok exports, y) ∧
      x.state.static? 1 = some n ∧ n.linking = .linked ∧ n.failure = some text ∧
      (evaluate Sample.failing 1 1).runFrom x = some (.error (.evaluation n.url text), x) := by
  obtain ⟨hScripts, hModules⟩ := scripts_run_once Sample.failing () Sample.twice
  have hScript := (hScripts "m" ["a"] (fun _ => .setAll [("a", .null)]) [7, 8, 9]).2
  refine ⟨hScript.2 (.inr rfl), ?_⟩
  have hRun : ((serve Sample.failing Sample.twice).moments (.fresh ())).any (fun x =>
      (x.state.module? 0).any (fun m => m.static?.isNone ∧ m.status = .evaluated) ∧
      (x.state.static? 1).any fun n => n.linking = .linked ∧ n.failure.isSome) = true := by
    decide +kernel
  obtain ⟨x, hx, hDecide⟩ := List.any_eq_true.1 hRun
  obtain ⟨hFirst, hSecond⟩ := of_decide_eq_true hDecide
  obtain ⟨k, hk, hDecide⟩ := (Option.any_eq_true _ _).1 hFirst
  obtain ⟨n, hn, hDecide'⟩ := (Option.any_eq_true _ _).1 hSecond
  obtain ⟨hKind, hStatus⟩ := of_decide_eq_true hDecide
  obtain ⟨hLinking, hFailure⟩ := of_decide_eq_true hDecide'
  obtain ⟨text, hText⟩ := Option.isSome_iff_exists.1 hFailure
  cases k with
  | static => cases hKind
  | synthetic m =>
    obtain ⟨hRuns, exports, y, hOk⟩ := (hModules x hx 0 0).1 m hk
    exact ⟨x, hx, m, n, text, exports, y, hk, hStatus, hRuns, hOk, hn, hLinking, hText,
      (hModules x hx 1 0).2 n text hn hLinking hText⟩

/-- A script that fails at first runs again at the next evaluation, which succeeds. -/
theorem run_again_after_failure :
    let m : SyntheticModule :=
      { url := "m", exportNames := ["a", "b"], script := Sample.retried }
    (m.evaluateAll [7, 8]).1 = [.error (.host "busy"),
      .ok ⟨8, .ofList [("a", .undefined), ("b", .boolean true)]⟩] ∧
    (m.evaluateAll [7, 8]).2.runs = 2 ∧
    ¬SyntheticModule.StaysFailed (m.evaluateAll [7, 8]).1 := by
  intro m
  have hOutcomes : (m.evaluateAll [7, 8]).1 = [.error (.host "busy"),
      .ok ⟨8, .ofList [("a", .undefined), ("b", .boolean true)]⟩] := rfl
  refine ⟨hOutcomes, rfl, fun hStays => ?_⟩
  rw [hOutcomes] at hStays
  obtain ⟨e, he⟩ := (List.pairwise_cons.1 hStays).1 _ (List.mem_singleton_self _) ⟨_, rfl⟩
  cases he

end Session

end ModuleLoader
