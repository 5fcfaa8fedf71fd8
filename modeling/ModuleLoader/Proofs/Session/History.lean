import ModuleLoader.Proofs.Session.Closure

/-! What happens to a module over a run.  Its stage only moves forward, it is left to the host once,
and the outcome of its evaluation never changes. -/

namespace ModuleLoader

variable {σ : Type} {x y : Instant σ} {id : ModuleId}

theorem Change.stage_cases (h : Change x y) (hx : x.Lawful) {n : StaticModule}
    (hn : y.state.static? id = some n) :
    (x.state.module? id = none ∧ n.stage = (.unlinked, .uninstantiated)) ∨
      ∃ m, x.state.static? id = some m ∧ (n.stage = m.stage ∨ Advances m.stage n.stage) := by
  rcases h.static_cases hn with ⟨m, hm, rfl | hStep⟩ | ⟨hNone, _, _, _, _, rfl⟩
  · exact .inr ⟨n, hm, .inl rfl⟩
  · exact .inr ⟨m, hm, hStep.advances (hx.static id m hm)⟩
  · exact .inl ⟨hNone, rfl⟩

namespace Session

variable {env : Environment σ} {m : StaticModule}

theorem evaluate_of_exports {exports : Namespace} (fuel : Nat) (hx : x.Lawful)
    (hm : x.state.static? id = some m) (hExports : m.exports = some exports) :
    (evaluate env (fuel + 1) id).runFrom x = some (.ok exports, x) := by
  have hStatus : m.status = .evaluated := by
    rw [← (hx.static id m hm).exports, hExports]
    rfl
  have hLinking := (hx.static id m hm).linked_of_status (.inr (.inr hStatus))
  have hMeets : (evaluate env (fuel + 1) id).Meets (fun _ _ => True) (fun _ => False)
      (fun _ _ => False) (fun found y => found = exports ∧ y = x) x := by
    simp [evaluate, static?_eq_some_iff.1 hm, namespaceOrEmpty, hExports,
      StaticModule.evaluationStep_of_begun hLinking (.inr hStatus)]
  exact hMeets.runFrom_eq_ok

theorem evaluate_of_failure {text : String} (fuel : Nat) (hx : x.Lawful)
    (hm : x.state.static? id = some m) (hLinking : m.linking = .linked)
    (hFailure : m.failure = some text) :
    (evaluate env (fuel + 1) id).runFrom x = some (.error (.evaluation m.url text), x) := by
  have hStatus : m.status = .errored := by
    rw [← (hx.static id m hm).failure, hFailure]
    rfl
  have hMeets : (evaluate env (fuel + 1) id).Meets (fun _ _ => True) (fun _ => False)
      (fun e y => e = .evaluation m.url text ∧ y = x) (fun _ _ => False) x := by
    simp [evaluate, static?_eq_some_iff.1 hm,
      StaticModule.evaluationStep_of_errored hLinking hStatus hFailure]
  exact hMeets.runFrom_eq_error

/-- The outcome of an evaluation that runs a module is what every later one comes to at once. -/
theorem evaluate_again {fuel : Nat} {outcome : Except LoadError Namespace} (hx : x.Lawful)
    (hm : x.state.static? id = some m) (hLinking : m.linking = .linked)
    (hStatus : m.status = .instantiated)
    (hRun : (evaluate env fuel id).runFrom x = some (outcome, y)) (later : List (Nat × Request σ))
    {z : Instant σ} (hz : z ∈ (serve env later).moments y) (fuel' : Nat) :
    (evaluate env (fuel' + 1) id).runFrom z =
      some (outcome.mapError fun e => .evaluation m.url e.message, z) := by
  obtain ⟨hOk, hError⟩ := ((meets_evaluate env fuel id hx).lawful hx).of_runFrom hRun
  have hServe : y.Lawful → z.Lawful ∧ y.Later z := fun hy =>
    (spares_serve env later hy).later_of_mem hy hz
  cases outcome with
  | ok exports =>
    obtain ⟨⟨-, hExports⟩, hy, hLater⟩ := hOk exports rfl
    have hNot : ¬x.state.IsRunning id := not_isRunning hm (by simp [hStatus])
    obtain ⟨hLawful, hLater'⟩ := hServe hy
    obtain ⟨k, hk, hKept⟩ := hLater'.hasExports (hExports hNot)
    obtain ⟨n, hn, -⟩ := (hLater.trans hLater').static id m hm
    rw [static?_eq_some_iff.1 hn] at hk
    cases hk
    exact evaluate_of_exports fuel' hLawful hn hKept
  | error e =>
    obtain ⟨⟨-, hFailed⟩, hy, hLater⟩ := hError e rfl
    obtain ⟨k, hk, hLinked, hText⟩ := hFailed m hm hLinking (by simp [hStatus])
    obtain ⟨k', hk', hGrows⟩ := hLater.static id m hm
    rw [hk] at hk'
    cases hk'
    obtain ⟨hLawful, hLater'⟩ := hServe hy
    obtain ⟨n, hn, hGrows'⟩ := hLater'.static id k hk
    rw [Except.mapError, ← hGrows.url, ← hGrows'.url]
    exact evaluate_of_failure fuel' hLawful hn (hGrows'.linked hLinked) (hGrows'.failure _ hText)

/-- Over every run, the stage of a module only moves forward.  Its exports are there exactly when it
is evaluated and its failure exactly when it has failed, and neither is ever replaced.  So a module
is left to the host at most once, and the outcome of that evaluation is the outcome of every later
one, at which nothing happens. -/
theorem history_of_modules (env : Environment σ) (world : σ) (requests : List (Nat × Request σ)) :
    ((serve env requests).moments (.fresh world)).IsChain (fun x y =>
      (∀ id m, x.state.static? id = some m → ∃ n, y.state.static? id = some n) ∧
      ∀ id n, y.state.static? id = some n →
        (x.state.module? id = none ∧ n.stage = (.unlinked, .uninstantiated)) ∨
          ∃ m, x.state.static? id = some m ∧ (n.stage = m.stage ∨ Advances m.stage n.stage)) ∧
    ((serve env requests).moments (.fresh world)).Pairwise (fun x y =>
      ∀ id m, x.state.static? id = some m → ∃ n, y.state.static? id = some n ∧
        (∀ exports, m.exports = some exports → n.exports = some exports) ∧
        ∀ text, m.failure = some text → n.failure = some text) ∧
    ∀ x ∈ (serve env requests).moments (.fresh world), x.evaluatedUrls.Nodup ∧
      ∀ id m, x.state.static? id = some m →
        (m.exports.isSome ↔ m.status = .evaluated) ∧ (m.failure.isSome ↔ m.status = .errored) ∧
        ∀ fuel,
          (∀ exports, m.exports = some exports →
            (evaluate env (fuel + 1) id).runFrom x = some (.ok exports, x)) ∧
          (m.linking = .linked → ∀ text, m.failure = some text →
            (evaluate env (fuel + 1) id).runFrom x = some (.error (.evaluation m.url text), x)) ∧
          (m.linking = .linked → m.status = .instantiated → ∀ outcome y,
            (evaluate env fuel id).runFrom x = some (outcome, y) →
            ∀ later, ∀ z ∈ (serve env later).moments y, ∀ fuel',
              (evaluate env (fuel' + 1) id).runFrom z =
                some (outcome.mapError fun e => .evaluation m.url e.message, z)) := by
  have hFresh := Moment.lawful_fresh world
  have hServe := spares_serve env requests hFresh
  have hLawful : ∀ x ∈ (serve env requests).moments (.fresh world), x.Lawful :=
    fun x hx => lawful_of_mem_serve hx
  refine ⟨?_, ?_, ?_⟩
  · refine hServe.isChain.1.imp_of_mem_imp fun x y hx _ hStep => ⟨?_, ?_⟩
    · intro id m hm
      obtain ⟨n, hn, -⟩ := (hStep.later (hLawful x hx)).static id m hm
      exact ⟨n, hn⟩
    · exact fun id n hn => hStep.stage_cases (hLawful x hx) hn
  · refine (hServe.pairwise_later hFresh).imp fun hLater id m hm => ?_
    obtain ⟨n, hn, hGrows⟩ := hLater.static id m hm
    exact ⟨n, hn, hGrows.exports, hGrows.failure⟩
  · intro x hx
    have hx := hLawful x hx
    refine ⟨hx.once, fun id m hm => ⟨(hx.static id m hm).exports, (hx.static id m hm).failure,
      fun fuel => ⟨?_, ?_, ?_⟩⟩⟩
    · exact fun exports hExports => evaluate_of_exports fuel hx hm hExports
    · exact fun hLinking text hText => evaluate_of_failure fuel hx hm hLinking hText
    · intro hLinking hStatus outcome y hRun later z hz fuel'
      exact evaluate_again hx hm hLinking hStatus hRun later hz fuel'

end Session

end ModuleLoader
