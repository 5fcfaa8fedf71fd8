import ModuleLoader.Proofs.Shared.Making

/-! What a link that ends well has done in a shared session.  The imports of all modules that its root
leads to are bound.  They need not be linked: a module whose imports were bound in a second attempt
stays failed. -/

namespace ModuleLoader

variable {σ : Type}

namespace Session.Shared

/-- When a link has ended well, its root is linked, unless another link of it has failed, and all
modules that the root leads to have begun to be linked and have their imports bound to modules. -/
theorem bound_of_linked (env : Environment σ) (requests : List (Nat × Request σ)) (world : σ)
    (schedule : List Turn) {i fuel : Nat} {root : ModuleId}
    (hRequest : requests[i]? = some (fuel, .link root))
    (hReply : (serve env requests world schedule).outcome? i = some (.ok .linked)) :
    (serve env requests world schedule).now.state.Settled root ∧
      ∀ j n, (serve env requests world schedule).now.state.Leads root j →
        (serve env requests world schedule).now.state.static? j = some n →
        n.linking ≠ .unlinked ∧ ∃ table, n.imports = some table ∧
          (serve env requests world schedule).now.state.IsTable table := by
  have hSound := sound_serve env requests world schedule
  have hValid : (serve env requests world schedule).now.state.Consistent := hSound.valid
  have hDone : _ ∧ _ := hSound.done_of_outcome hReply fuel _ hRequest rfl
  refine ⟨hDone.2, fun j n hLeads hn => ?_⟩
  have hBound := hDone.1.bound j hLeads n hn
  obtain ⟨table, hTable⟩ := Option.isSome_iff_exists.1 hBound
  exact ⟨(hValid.static j n hn).imports hBound, table, hTable, hValid.tables j n table hn hTable⟩

end Session.Shared

namespace Sample

/-- Requests for `a` and `b`, for links of both, and for an evaluation of `b`. -/
def links : List (Nat × Session.Request Nat) :=
  [(9, .moduleAt ⟨"file:///a", .dynamic⟩), (9, .moduleAt ⟨"file:///b", .dynamic⟩), (9, .link 0),
    (9, .link 1), (9, .evaluate 1)]

/-- While the link of `a` binds the imports of `c`, that of `b` comes to wait there.  The former fails,
and the latter binds them. -/
def overlap : List Turn :=
  turns 0 3 ++ turns 1 3 ++ turns 2 18 ++ turns 3 22 ++ turns 2 12 ++ turns 3 12

end Sample

namespace Session.Shared

theorem overlap_ends :
    ∃ m n table, (serve Sample.flaky Sample.links 0 Sample.overlap).outcome? 3 = some (.ok .linked) ∧
      (serve Sample.flaky Sample.links 0 Sample.overlap).now.state.static? 1 = some m ∧
      m.imports = some table ∧ table.values = [2] ∧
      (serve Sample.flaky Sample.links 0 Sample.overlap).now.state.static? 2 = some n ∧
      n.linking = .errored := by
  have hOutcome : ((serve Sample.flaky Sample.links 0 Sample.overlap).outcome? 3).map
      (·.map Reply.isLinked) = some (.ok true) := by decide +kernel
  have hTable : ((serve Sample.flaky Sample.links 0 Sample.overlap).now.state.static? 1).any
      (fun m => m.imports.any (·.values = [2])) = true := by decide +kernel
  have hStatus : ((serve Sample.flaky Sample.links 0 Sample.overlap).now.state.static? 2).any
      (·.linking = .errored) = true := by decide +kernel
  obtain ⟨outcome, hReply, hLinked⟩ := Option.map_eq_some_iff.1 hOutcome
  obtain ⟨m, hm, hImports⟩ := (Option.any_eq_true _ _).1 hTable
  obtain ⟨table, hTable, hValues⟩ := (Option.any_eq_true _ _).1 hImports
  obtain ⟨n, hn, hErrored⟩ := (Option.any_eq_true _ _).1 hStatus
  cases outcome with
  | error => cases hLinked
  | ok reply =>
    cases reply with
    | linked =>
      exact ⟨m, n, table, hReply, hm, hTable, of_decide_eq_true hValues, hn,
        of_decide_eq_true hErrored⟩
    | nothing | module | program | exports => cases hLinked

theorem bound_of_linked_overlap :
    ∃ n table, (serve Sample.flaky Sample.links 0 Sample.overlap).now.state.static? 2 = some n ∧
      n.linking ≠ .unlinked ∧ n.imports = some table := by
  obtain ⟨m, n, table, hReply, hm, hTable, hValues, hn, -⟩ := overlap_ends
  have hLeads : (serve Sample.flaky Sample.links 0 Sample.overlap).now.state.Leads 1 2 :=
    .single ⟨m, table, hm, hTable, by simp [hValues]⟩
  obtain ⟨hBegun, table, hTable, -⟩ := (bound_of_linked Sample.flaky Sample.links 0 Sample.overlap
    (by rfl) hReply).2 2 n hLeads hn
  exact ⟨n, table, hn, hBegun, hTable⟩

/-- The link of `b` has ended well.  But `c`, which `b` imports, is not linked, so that the evaluation
of `b` fails. -/
theorem link_ok_without_import :
    ∃ m n table failure,
      (serve Sample.flaky Sample.links 0 Sample.overlap).outcome? 3 = some (.ok .linked) ∧
      (serve Sample.flaky Sample.links 0 Sample.overlap).now.state.static? 1 = some m ∧
      m.imports = some table ∧ table.values = [2] ∧
      (serve Sample.flaky Sample.links 0 Sample.overlap).now.state.static? 2 = some n ∧
      n.linking = .errored ∧
      (serve Sample.flaky Sample.links 0 (Sample.overlap ++ Sample.turns 4 8)).outcome? 4 =
        some (.error (.link "file:///c" failure)) := by
  obtain ⟨m, n, table, hReply, hm, hTable, hValues, hn, hErrored⟩ := overlap_ends
  have hOutcome : ((serve Sample.flaky Sample.links 0
      (Sample.overlap ++ Sample.turns 4 8)).outcome? 4).map (·.map fun _ => ()) =
        some (.error (.link "file:///c" "Cannot import 'file:///host': not yet")) := by
    decide +kernel
  obtain ⟨outcome, hEvaluated, hFails⟩ := Option.map_eq_some_iff.1 hOutcome
  cases outcome with
  | ok => cases hFails
  | error e =>
    cases hFails
    exact ⟨m, n, table, _, hReply, hm, hTable, hValues, hn, hErrored, hEvaluated⟩

end Session.Shared

end ModuleLoader
