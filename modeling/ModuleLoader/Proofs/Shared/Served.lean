import ModuleLoader.Proofs.Shared.Linked

/-! What a module gets when it is left to the host, in a shared session.  For each of its imports that
is the import's own namespace, unless the import was running when the module came to it: then nobody
waits, and the module gets a namespace without exports. -/

namespace ModuleLoader

variable {σ : Type}

namespace Session.Shared

/-- Whenever a module is left to the host, its scope has an entry for each of its imports, in order.  A
static import has been evaluated and the entry is its namespace; or the entry is empty, and the import
was running at a moment at which the module was running too. -/
theorem served_of_evaluated (env : Environment σ) (requests : List (Nat × Request σ)) (world : σ)
    (schedule : List Turn) (turn : Turn) {m : StaticModule} {scope : EvaluationScope}
    (hEvent : .evaluated m scope ∈ (serve env requests world schedule).newEvents turn) :
    ∃ id n table, (serve env requests world schedule).now.state.static? id = some n ∧
      n.url = m.url ∧ m.imports = some table ∧ n.imports = some table ∧
      List.Forall₂ (fun entry given => given.1 = entry.1 ∧
        ∀ d, (serve env requests world schedule).now.state.static? entry.2 = some d →
          d.exports = some given.2 ∧ (d.status = .evaluated ∨ d.linking = .errored) ∨
          given.2.exports = .empty ∧
            ∃ x ∈ (serve env requests world schedule).now :: (serve env requests world schedule).past,
              (∃ k, x.state.static? entry.2 = some k ∧ k.status = .evaluating) ∧
                ∃ k, x.state.static? id = some k ∧ k.IsRunning)
        table.entries scope.imports.entries := by
  have hSound := sound_serve env requests world schedule
  have hValid : (serve env requests world schedule).now.state.Consistent := hSound.valid
  obtain ⟨id, n, table, hn, hUrl, hTable, hTable', hGiven⟩ := allows_of_mem_newEvents hSound hEvent
  refine ⟨id, n, table, hn, hUrl, hTable, hTable', hGiven.imp ?_⟩
  rintro entry given ⟨hKey, hGiven⟩
  refine ⟨hKey, fun d hd => ?_⟩
  rcases hGiven d hd with hExports | hEmpty
  · exact .inl ⟨hExports, (hValid.static _ d hd).exports (by simp [hExports])⟩
  · exact .inr hEmpty

end Session.Shared

namespace Sample

/-- A program that allocates objects before it goes on. -/
def busy (script : Script Unit) : Nat → Script Unit
  | 0 => script
  | count + 1 => .allocate fun _ => busy script count

/-- An environment in which `a` and `b` import `c`, and `c` takes its time. -/
def slow : Environment Unit where
  baseUrl := { scheme := "file", authority := some {}, path := .segments [""] }
  files := fun _ => files
  packages := some fun specifier _ => pure (.ok ⟨"file:///" ++ specifier, .dynamic⟩)
  engine := some fun _ path _ =>
    pure { code := "", dependencies := some (if path.text = "/c" then [] else ["c"]) }
  importNative := fun _ => pure (.ok .empty)
  evaluate := fun m _ =>
    if m.url = "file:///c" then busy (.finish (.ok (.ofList [("k", .boolean true)]))) 9
    else .finish (.ok .empty)

/-- Requests for `a` and for `b`, each evaluated. -/
def imports : List (Nat × Session.Request Unit) :=
  [(9, .importExpression "a" "file:///main"), (9, .importExpression "b" "file:///main")]

/-- While `c` is run for `a`, the other task comes to the evaluation of `b`. -/
def meeting : List Turn := turns 0 26 ++ turns 1 14 ++ [.run 1 [], .run 1 []]

end Sample

namespace Session.Shared

/-- The module `b` imports `c` and is left to the host while `c` is running. -/
theorem meeting_ends :
    ∃ b scope table c, .evaluated b scope ∈
        (serve Sample.slow Sample.imports () Sample.meeting).newEvents (.run 1 []) ∧
      b.url = "file:///b" ∧ b.imports = some table ∧ table.values = [1] ∧
      scope.imports.entries.map (fun given => (given.1, given.2.exports.keys)) = [("c", [])] ∧
      (serve Sample.slow Sample.imports () Sample.meeting).now.state.static? 1 = some c ∧
      c.dependencies = [] ∧ c.status = .evaluating ∧ c.exports = none := by
  have hTurn : ((serve Sample.slow Sample.imports () Sample.meeting).newEvents (.run 1 [])).any
      (fun event => event.evaluation?.any fun served =>
        served.1.url = "file:///b" ∧ served.1.imports.any (·.values = [1]) ∧
          served.2.imports.entries.map (fun given => (given.1, given.2.exports.keys)) =
            [("c", [])]) = true := by decide +kernel
  have hNow : ((serve Sample.slow Sample.imports () Sample.meeting).now.state.static? 1).any (fun c =>
      c.dependencies = [] ∧ c.status = .evaluating ∧ c.exports.isNone) = true := by decide +kernel
  obtain ⟨event, hEvent, hAny⟩ := List.any_eq_true.1 hTurn
  obtain ⟨⟨b, scope⟩, hServed, hServes⟩ := (Option.any_eq_true _ _).1 hAny
  obtain ⟨hUrl, hImports, hScope⟩ := of_decide_eq_true hServes
  obtain ⟨table, hTable, hValues⟩ := (Option.any_eq_true _ _).1 hImports
  obtain ⟨c, hc, hWaits⟩ := (Option.any_eq_true _ _).1 hNow
  obtain ⟨hDependencies, hStatus, hExports⟩ := of_decide_eq_true hWaits
  cases event with
  | evaluated =>
    cases hServed
    exact ⟨b, scope, table, c, hEvent, hUrl, hTable, of_decide_eq_true hValues, hScope, hc,
      hDependencies, hStatus, Option.isNone_iff_eq_none.1 hExports⟩
  | resolved | created | asked => cases hServed

/-- There is a moment at which `b` and `c` are both running. -/
theorem served_of_evaluated_meeting :
    ∃ b scope id, .evaluated b scope ∈
        (serve Sample.slow Sample.imports () Sample.meeting).newEvents (.run 1 []) ∧
      ∃ x ∈ (serve Sample.slow Sample.imports () Sample.meeting).now ::
          (serve Sample.slow Sample.imports () Sample.meeting).past,
        (∃ c, x.state.static? 1 = some c ∧ c.status = .evaluating) ∧
          ∃ n, x.state.static? id = some n ∧ n.IsRunning := by
  obtain ⟨b, scope, table, c, hEvent, -, hTable, hValues, hScope, hc, -, -, hExports⟩ :=
    meeting_ends
  obtain ⟨id, n, table', -, -, hTable', -, hGiven⟩ := served_of_evaluated Sample.slow Sample.imports ()
    Sample.meeting (.run 1 []) hEvent
  rw [hTable] at hTable'
  cases hTable'
  obtain ⟨⟨specifier, j⟩, hEntries, hSame⟩ := List.map_eq_singleton_iff.1 hValues
  cases hSame
  obtain ⟨given, hServed, -⟩ := List.map_eq_singleton_iff.1 hScope
  rw [hEntries, hServed] at hGiven
  obtain ⟨⟨-, hGiven⟩, -⟩ := List.forall₂_cons.1 hGiven
  rcases hGiven c hc with ⟨hSome, -⟩ | ⟨-, hMoment⟩
  · rw [hExports] at hSome
    cases hSome
  · exact ⟨b, scope, id, hEvent, hMoment⟩

/-- The module `b` is left to the host with nothing for `c`, which is running for `a`.  But `c` does
not wait for `b`: its own task ends it, while `b` is still running. -/
theorem evaluated_before_import :
    ∃ b scope table c d e,
      .evaluated b scope ∈
        (serve Sample.slow Sample.imports () Sample.meeting).newEvents (.run 1 []) ∧
      b.url = "file:///b" ∧ b.imports = some table ∧ table.values = [1] ∧
      scope.imports.entries.map (fun given => (given.1, given.2.exports.keys)) = [("c", [])] ∧
      (serve Sample.slow Sample.imports () Sample.meeting).now.state.static? 1 = some c ∧
      c.dependencies = [] ∧ c.status = .evaluating ∧
      (serve Sample.slow Sample.imports ()
        (Sample.meeting ++ .run 1 [] :: Sample.turns 0 3)).now.state.static? 1 = some d ∧
      d.status = .evaluated ∧ d.exports.map (·.exports.keys) = some ["k"] ∧
      (serve Sample.slow Sample.imports ()
        (Sample.meeting ++ .run 1 [] :: Sample.turns 0 3)).now.state.static? 2 = some e ∧
      e.status = .evaluating := by
  obtain ⟨b, scope, table, c, hEvent, hUrl, hTable, hValues, hScope, hc, hDependencies, hStatus, -⟩ :=
    meeting_ends
  have hEnds : ((serve Sample.slow Sample.imports ()
      (Sample.meeting ++ .run 1 [] :: Sample.turns 0 3)).now.state.static? 1).any (fun d =>
        d.status = .evaluated ∧ d.exports.map (·.exports.keys) = some ["k"]) = true := by
    decide +kernel
  have hRuns : ((serve Sample.slow Sample.imports ()
      (Sample.meeting ++ .run 1 [] :: Sample.turns 0 3)).now.state.static? 2).any
        (·.status = .evaluating) = true := by decide +kernel
  obtain ⟨d, hd, hEvaluated⟩ := (Option.any_eq_true _ _).1 hEnds
  obtain ⟨hEvaluated, hKeys⟩ := of_decide_eq_true hEvaluated
  obtain ⟨e, he, hEvaluating⟩ := (Option.any_eq_true _ _).1 hRuns
  exact ⟨b, scope, table, c, d, e, hEvent, hUrl, hTable, hValues, hScope, hc, hDependencies,
    hStatus, hd, hEvaluated, hKeys, he, of_decide_eq_true hEvaluating⟩

end Session.Shared

end ModuleLoader
