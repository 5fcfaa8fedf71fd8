import ModuleLoader.Proofs.Module.Runs

/-! Synthetic modules around namespaces of the host: they can be evaluated, and keep the namespace
of their first evaluation. -/

namespace ModuleLoader

namespace SyntheticModule

/-- Every evaluation of the module succeeds, and its record holds the namespace afterwards. -/
def Native (m : SyntheticModule) : Prop :=
  ∀ fresh, ∃ exports, (m.evaluate fresh).1 = .ok exports ∧
    (m.evaluate fresh).2.exports = some exports

@[simp] theorem url_evaluate (m : SyntheticModule) (fresh : ObjectId) :
    (m.evaluate fresh).2.url = m.url := by
  unfold evaluate
  split
  · rfl
  · split <;> rfl

theorem Native.evaluate {m : SyntheticModule} (h : m.Native) (fresh : ObjectId) :
    (m.evaluate fresh).2.Native := by
  intro again
  obtain ⟨exports, -, hExports⟩ := h fresh
  rw [evaluate_of_exports hExports]
  exact ⟨exports, rfl, hExports⟩

theorem traceOf_ofNamespace (url : String) (exports : Properties) (runs : Nat) :
    (ofNamespace url exports).traceOf runs = ((spreadDefault exports).entries, .ok ()) :=
  ExportScript.trace_setAll url fun _ hEntry => List.mem_map_of_mem hEntry

theorem native_ofNamespace (url : String) (exports : Properties) :
    (ofNamespace url exports).Native := by
  intro fresh
  have hRun := congrArg Prod.snd (traceOf_ofNamespace url exports 0)
  exact ⟨_, by rw [evaluate_of_ok rfl hRun], by rw [evaluate_of_ok rfl hRun]; rfl⟩

end SyntheticModule

end ModuleLoader
