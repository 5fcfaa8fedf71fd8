import ModuleLoader.Proofs.Session.PostOrder
import ModuleLoader.Proofs.Session.Repose
import ModuleLoader.Proofs.Session.Sweep

/-! What an evaluation leaves behind that fails.  With a host that makes no `import()`, the modules
whose records have changed are those that the evaluation has started.  Those on the chain down to the
failure have failed with its text, and the others are evaluated. -/

namespace ModuleLoader

variable {σ : Type} {x y z : Instant σ} {env : Environment σ} {id : ModuleId} {m : StaticModule}

/-- The program has no `import()` expressions. -/
def Script.NoImports : Script σ → Prop
  | .finish _ => True
  | .update _ next => next.NoImports
  | .inspect next => ∀ world, (next world).NoImports
  | .allocate next => ∀ object, (next object).NoImports
  | .importModule _ _ => False

/-- The first record becomes the second one with what the module's program ends with. -/
def Environment.Finishes (env : Environment σ) (m n : StaticModule) : Prop :=
  ∃ scope exports, (env.evaluate m.beginEvaluation scope).MayEnd (.ok exports.exports) ∧
    n = m.finishEvaluation exports

/-- A module that was ready has got another record. -/
def Moment.Turns (x y : Instant σ) (turn : StaticModule → StaticModule → Prop) (id : ModuleId) :
    Prop :=
  ∃ m n, x.state.static? id = some m ∧ m.IsRunnable ∧ y.state.static? id = some n ∧ turn m n

/-- An evaluation that began at `x` has left modules running, finished or failed, and all others as
they were. -/
structure Moment.Leaves (env : Environment σ) (x : Instant σ) (running finished failed : List ModuleId)
    (e : LoadError) (y : Instant σ) : Prop where
  begun : ∀ id ∈ running, x.Turns y (fun m n => n = m.beginEvaluation) id
  ended : ∀ id ∈ finished, x.Turns y env.Finishes id
  lost : ∀ id ∈ failed, x.Turns y (fun m n => n = m.failEvaluation e) id
  untouched : ∀ id, id ∉ running → id ∉ finished → id ∉ failed →
    y.state.static? id = x.state.static? id

/-- An evaluation that began at `x` is under way, and nothing has failed. -/
abbrev Moment.Amid (env : Environment σ) (x : Instant σ) (running finished : List ModuleId)
    (y : Instant σ) : Prop :=
  ∀ e, x.Leaves env running finished [] e y

namespace Moment

variable {turn : StaticModule → StaticModule → Prop} {j : ModuleId} {n : StaticModule}
  {running finished failed : List ModuleId} {e : LoadError}

theorem Turns.status {status : EvaluationStatus} (h : x.Turns y turn id)
    (hm : y.state.static? id = some m) (hTurn : ∀ k n, turn k n → n.status = status) :
    m.status = status := by
  obtain ⟨k, n, -, -, hn, hkn⟩ := h
  rw [Option.some.inj (hm.symm.trans hn)]
  exact hTurn k n hkn

theorem Turns.update (h : x.Turns y turn j) (hj : j ≠ id) (f : StaticModule → StaticModule) :
    x.Turns (y.move (y.state.updateStatic id f)) turn j := by
  obtain ⟨m, n, hm, hReady, hn, hTurn⟩ := h
  refine ⟨m, n, hm, hReady, ?_, hTurn⟩
  rw [state_move, Session.static?_updateStatic_of_ne hj, hn]

theorem Turns.self (hm : x.state.static? id = some m) (hReady : m.IsRunnable)
    (hn : y.state.static? id = some n) {f : StaticModule → StaticModule} (hTurn : turn m (f n)) :
    x.Turns (y.move (y.state.updateStatic id f)) turn id :=
  ⟨m, f n, hm, hReady, Session.static?_updateStatic_self hn f, hTurn⟩

theorem amid_nil (env : Environment σ) (x : Instant σ) : x.Amid env [] [] x :=
  fun _ => ⟨nofun, nofun, nofun, fun _ _ _ _ => rfl⟩

namespace Leaves

theorem of_static (h : x.Leaves env running finished failed e y)
    (hSame : ∀ id, z.state.static? id = y.state.static? id) :
    x.Leaves env running finished failed e z := by
  have hTurns : ∀ {turn id}, x.Turns y turn id → x.Turns z turn id := by
    rintro turn id ⟨m, n, hm, hReady, hn, hTurn⟩
    exact ⟨m, n, hm, hReady, (hSame id).trans hn, hTurn⟩
  exact ⟨fun id hid => hTurns (h.begun id hid), fun id hid => hTurns (h.ended id hid),
    fun id hid => hTurns (h.lost id hid),
    fun id hRunning hFinished hFailed => (hSame id).trans (h.untouched id hRunning hFinished hFailed)⟩

/-! A status tells which of the lists a module may be in. -/

theorem status_of_begun (h : x.Leaves env running finished failed e y) (hid : id ∈ running)
    (hm : y.state.static? id = some m) : m.status = .evaluating := by
  refine (h.begun id hid).status hm ?_
  rintro k _ rfl
  rfl

theorem status_of_ended (h : x.Leaves env running finished failed e y) (hid : id ∈ finished)
    (hm : y.state.static? id = some m) : m.status = .evaluated := by
  refine (h.ended id hid).status hm ?_
  rintro k _ ⟨_, _, -, rfl⟩
  rfl

theorem status_of_lost (h : x.Leaves env running finished failed e y) (hid : id ∈ failed)
    (hm : y.state.static? id = some m) : m.status = .errored := by
  refine (h.lost id hid).status hm ?_
  rintro k _ rfl
  rfl

/-- A module that is in none of the lists has the record that it had. -/
theorem same_of_status (h : x.Leaves env running finished [] e y)
    (hm : y.state.static? id = some m) (hRunning : m.status ≠ .evaluating)
    (hFinished : m.status ≠ .evaluated) : x.state.static? id = some m := by
  have hNotRunning : id ∉ running := fun hid => hRunning (h.status_of_begun hid hm)
  have hNotFinished : id ∉ finished := fun hid => hFinished (h.status_of_ended hid hm)
  rw [← h.untouched id hNotRunning hNotFinished List.not_mem_nil, hm]

theorem begin (h : x.Leaves env running finished [] e y) (hm : y.state.static? id = some m)
    (hReady : m.IsRunnable) :
    x.Leaves env (id :: running) finished [] e
      (y.move (y.state.updateStatic id .beginEvaluation)) := by
  have hStatus := hReady.2
  have hmx := h.same_of_status hm (by simp [hStatus]) (by simp [hStatus])
  have hNotRunning : id ∉ running := fun hid => by
    cases hStatus.symm.trans (h.status_of_begun hid hm)
  have hNotFinished : id ∉ finished := fun hid => by
    cases hStatus.symm.trans (h.status_of_ended hid hm)
  constructor
  case begun =>
    intro j hj
    rcases List.mem_cons.1 hj with rfl | hj
    · exact .self hmx hReady hm rfl
    · exact (h.begun j hj).update (ne_of_mem_of_not_mem hj hNotRunning) _
  case ended =>
    intro j hj
    exact (h.ended j hj).update (ne_of_mem_of_not_mem hj hNotFinished) _
  case lost => nofun
  case untouched =>
    intro j hj hFinished hFailed
    rw [List.mem_cons, not_or] at hj
    rw [state_move, Session.static?_updateStatic_of_ne hj.1]
    exact h.untouched j hj.2 hFinished hFailed

theorem finish (h : x.Leaves env (id :: running) finished [] e y) (hid : id ∉ running)
    (hm : x.state.static? id = some m) {scope : EvaluationScope} {exports : Namespace}
    (hEnd : (env.evaluate m.beginEvaluation scope).MayEnd (.ok exports.exports)) :
    x.Leaves env running (id :: finished) [] e
      (y.move (y.state.updateStatic id (·.finishEvaluation exports))) := by
  obtain ⟨k, n, hk, hReady, hn, rfl⟩ := h.begun id List.mem_cons_self
  rw [hm, Option.some.injEq] at hk
  subst hk
  have hNotFinished : id ∉ finished := fun hid => by cases h.status_of_ended hid hn
  constructor
  case begun =>
    intro j hj
    exact (h.begun j (List.mem_cons_of_mem _ hj)).update (ne_of_mem_of_not_mem hj hid) _
  case ended =>
    intro j hj
    rcases List.mem_cons.1 hj with rfl | hj
    · exact .self hm hReady hn ⟨scope, exports, hEnd, rfl⟩
    · exact (h.ended j hj).update (ne_of_mem_of_not_mem hj hNotFinished) _
  case lost => nofun
  case untouched =>
    intro j hRunning hj hFailed
    rw [List.mem_cons, not_or] at hj
    rw [state_move, Session.static?_updateStatic_of_ne hj.1]
    exact h.untouched j (by simp [hj.1, hRunning]) hj.2 hFailed

theorem fail (h : x.Leaves env (id :: running) finished failed e y) (hid : id ∉ running) :
    x.Leaves env running finished (id :: failed) e
      (y.move (y.state.updateStatic id (·.failEvaluation e))) := by
  obtain ⟨m, n, hm, hReady, hn, rfl⟩ := h.begun id List.mem_cons_self
  have hNotFinished : id ∉ finished := fun hid => by cases h.status_of_ended hid hn
  have hNotFailed : id ∉ failed := fun hid => by cases h.status_of_lost hid hn
  constructor
  case begun =>
    intro j hj
    exact (h.begun j (List.mem_cons_of_mem _ hj)).update (ne_of_mem_of_not_mem hj hid) _
  case ended =>
    intro j hj
    exact (h.ended j hj).update (ne_of_mem_of_not_mem hj hNotFinished) _
  case lost =>
    intro j hj
    rcases List.mem_cons.1 hj with rfl | hj
    · exact .self hm hReady hn rfl
    · exact (h.lost j hj).update (ne_of_mem_of_not_mem hj hNotFailed) _
  case untouched =>
    intro j hRunning hFinished hj
    rw [List.mem_cons, not_or] at hj
    rw [state_move, Session.static?_updateStatic_of_ne hj.1]
    exact h.untouched j (by simp [hj.1, hRunning]) hFinished hj.2

theorem not_mem_failed (h : x.Leaves env running finished failed e y) (hid : id ∈ running) :
    id ∉ failed := by
  intro hFailed
  obtain ⟨m, n, -, -, hn, rfl⟩ := h.begun id hid
  cases h.status_of_lost hFailed hn

end Leaves

end Moment

namespace Session

variable {running finished : List ModuleId}

/-- The action ends or fails as given, whatever its steps are. -/
abbrev Ends {α : Type} (failed : LoadError → Instant σ → Prop) (done : α → Instant σ → Prop)
    (action : Load σ α) (y : Instant σ) : Prop :=
  action.Meets (fun _ _ => True) (fun _ => True) failed done y

/-- An evaluation of modules has swept what they lead to. -/
def Swept (env : Environment σ) (x : Instant σ) (running finished ids : List ModuleId)
    (z : Instant σ) : Prop :=
  ∃ swept, x.Amid env running (swept ++ finished) z ∧
    Sweep x.state ids (finished ++ running) swept

/-- An evaluation of `id` has failed after one of the modules in `past`. -/
def Halted (env : Environment σ) (x : Instant σ) (running finished past : List ModuleId)
    (id : ModuleId) (e : LoadError) (z : Instant σ) : Prop :=
  ∃ chain swept, Descends env x.state e id chain ∧ (chain.map Begun.id).Nodup ∧
    x.Leaves env running (swept ++ finished) (chain.map Begun.id) e z ∧
    Sweep x.state (past ++ chain.flatMap Begun.past) (finished ++ running ++ chain.map Begun.id)
      swept

theorem Swept.append {swept ids rest : List ModuleId}
    (hSweep : Sweep x.state ids (finished ++ running) swept)
    (h : Swept env x running (swept ++ finished) rest z) :
    Swept env x running finished (ids ++ rest) z := by
  obtain ⟨more, hAmid, hMore⟩ := h
  rw [List.append_assoc] at hMore
  exact ⟨more ++ swept, by simpa only [List.append_assoc] using hAmid, hSweep.append hMore⟩

theorem Halted.append {swept ids past : List ModuleId} {e : LoadError}
    (hSweep : Sweep x.state ids (finished ++ running) swept)
    (h : Halted env x running (swept ++ finished) past id e z) :
    Halted env x running finished (ids ++ past) id e z := by
  obtain ⟨chain, more, hDescends, hNodup, hLeaves, hMore⟩ := h
  refine ⟨chain, more ++ swept, hDescends, hNodup, ?_, ?_⟩
  · simpa only [List.append_assoc] using hLeaves
  rw [List.append_assoc ids]
  refine (hSweep.mono (List.subset_append_left _ _)).append (hMore.mono ?_)
  simp only [List.append_assoc]
  exact fun _ h => h

theorem meets_runScript_of_noImports {load : String → Load σ Namespace} {script : Script σ}
    (h : script.NoImports) :
    Ends (fun e y => x.Still y ∧ script.MayEnd (.error e))
      (fun properties y => x.Still y ∧ script.MayEnd (.ok properties)) (runScript load script) x := by
  induction script generalizing x with
  | finish outcome =>
    cases outcome with
    | ok properties => exact ⟨⟨rfl, rfl, rfl⟩, .finish _⟩
    | error e => exact ⟨⟨rfl, rfl, rfl⟩, .finish _⟩
  | update change next ih =>
    rw [runScript, Ends, Action.meets_bind, Action.meets_modify]
    refine ⟨trivial, (ih h).ends ?_ ?_⟩
    · exact fun _ _ hy => ⟨⟨hy.1.modules, hy.1.cache, hy.1.evaluations⟩, .update hy.2⟩
    · exact fun _ _ hy => ⟨⟨hy.1.modules, hy.1.cache, hy.1.evaluations⟩, .update hy.2⟩
  | inspect next ih =>
    rw [runScript, Ends, Action.meets_bind, Action.meets_get]
    refine ⟨trivial, (ih _ (h _)).ends ?_ ?_⟩
    · exact fun _ _ hy => ⟨hy.1, .inspect hy.2⟩
    · exact fun _ _ hy => ⟨hy.1, .inspect hy.2⟩
  | allocate next ih =>
    rw [runScript, newObject, Ends, Action.meets_bind, Action.meets_modifyGet]
    refine ⟨trivial, (ih _ (h _)).ends ?_ ?_⟩
    · exact fun _ _ hy => ⟨⟨hy.1.modules, hy.1.cache, hy.1.evaluations⟩, .allocate hy.2⟩
    · exact fun _ _ hy => ⟨⟨hy.1.modules, hy.1.cache, hy.1.evaluations⟩, .allocate hy.2⟩
  | importModule => exact h.elim

theorem ends_evaluateSynthetic {k : SyntheticModule} (hx : x.Lawful)
    (hk : x.state.module? id = some (.synthetic k)) :
    Ends (fun _ _ => False) (fun _ y => ∀ j, y.state.static? j = x.state.static? j)
      (evaluateSynthetic id k) x := by
  obtain ⟨exports, hOk, -⟩ := hx.synthetic id k hk x.state.nextObject
  simp only [Ends, evaluateSynthetic, newObject, Action.meets_bind, Action.meets_modifyGet,
    Action.meets_modify, hOk, Action.meets_ofExcept_ok]
  exact ⟨trivial, trivial, fun j => static?_withSynthetic hk _ j⟩

theorem ends_namespaceOrEmpty (exports : Option Namespace) :
    Ends (fun _ _ => False) (fun _ y => ∀ j, y.state.static? j = x.state.static? j)
      (namespaceOrEmpty exports : Load σ Namespace) x := by
  cases exports with
  | some known => exact fun _ => rfl
  | none => exact ⟨trivial, fun _ => rfl⟩

/-- Evaluation with some fuel sweeps what a module leads to, or fails below it. -/
def Sweeper (env : Environment σ) (x : Instant σ) (fuel : Nat) : Prop :=
  ∀ {running finished : List ModuleId} {id : ModuleId} {y : Instant σ}, y.Lawful →
    x.Amid env running finished y → (∃ k, y.state.module? id = some k) →
    Ends (fun e z => Halted env x running finished [] id e z)
      (fun _ z => Swept env x running finished [id] z) (evaluate env fuel id) y

theorem sweeps_importedNamespaces {fuel : Nat} (hRun : Sweeper env x fuel)
    (entries : List (String × ModuleId)) (hy : y.Lawful) (h : x.Amid env running finished y)
    (hThere : ∀ entry ∈ entries, ∃ k, y.state.module? entry.2 = some k) :
    Ends (fun e z => ∃ past j left, entries.map Prod.snd = past ++ j :: left ∧
        Halted env x running finished past j e z)
      (fun _ z => Swept env x running finished (entries.map Prod.snd) z)
      (importedNamespaces (evaluate env fuel) entries) y := by
  induction entries generalizing finished y with
  | nil => exact ⟨[], h, .nil _⟩
  | cons entry rest ih =>
    obtain ⟨hThere, hThere'⟩ := List.forall_mem_cons.1 hThere
    simp only [Ends, importedNamespaces, Action.meets_bind, Action.meets_pure]
    refine ((hRun hy h hThere).and (spares_evaluate env fuel entry.2 hy)).mono
      (fun _ _ hStep => hStep) (fun _ _ => trivial) ?_ ?_
    · exact fun e z hz => ⟨[], entry.2, rest.map Prod.snd, rfl, hz.1⟩
    · rintro exports z ⟨⟨swept, hAmid, hSweep⟩, hSpare⟩
      have hThere'' : ∀ entry ∈ rest, ∃ k, z.state.module? entry.2 = some k := by
        intro entry hEntry
        obtain ⟨k, hk⟩ := hThere' entry hEntry
        obtain ⟨k', hk', -⟩ := hSpare.later.module hk
        exact ⟨k', hk'⟩
      refine (ih hSpare.lawful hAmid hThere'').ends ?_ ?_
      · rintro e w ⟨past, j, left, hSplit, hHalted⟩
        exact ⟨entry.2 :: past, j, left, by simp [hSplit], hHalted.append hSweep⟩
      · exact fun _ w hw => hw.append hSweep

/-- A module that fails is the first one of the chain below it. -/
theorem Halted.of_begun {swept past : List ModuleId} {chain : List Begun} {e : LoadError}
    (hid : id ∉ running) (hDescends : Descends env x.state e id (⟨id, past⟩ :: chain))
    (hNodup : (chain.map Begun.id).Nodup)
    (hLeaves : x.Leaves env (id :: running) (swept ++ finished) (chain.map Begun.id) e z)
    (hSweep : Sweep x.state (past ++ chain.flatMap Begun.past)
      (finished ++ id :: running ++ chain.map Begun.id) swept) :
    Halted env x running finished [] id e
      (z.move (z.state.updateStatic id (·.failEvaluation e))) := by
  refine ⟨⟨id, past⟩ :: chain, swept, hDescends, ?_, hLeaves.fail hid, hSweep.mono ?_⟩
  · exact List.nodup_cons.2 ⟨hLeaves.not_mem_failed List.mem_cons_self, hNodup⟩
  · intro j hj
    simp only [List.map_cons, List.mem_append, List.mem_cons] at hj ⊢
    tauto

theorem sweeps_runOnce {fuel : Nat} (hRun : Sweeper env x fuel)
    (hHost : ∀ m scope, (env.evaluate m scope).NoImports) {load : String → Load σ Namespace}
    (hy : y.Lawful) (h : x.Amid env running finished y) (hm : y.state.static? id = some m)
    (hReady : m.IsRunnable) :
    Ends (fun e z => Halted env x running finished [] id e z)
      (fun _ z => Swept env x running finished [id] z)
      (runOnce env (evaluate env fuel) load id m) y := by
  obtain ⟨table, hTable⟩ := Option.isSome_iff_exists.1 ((hy.static id m hm).imports hReady.1)
  have hStatus := hReady.2
  have hmx := (h (.notLinked "")).same_of_status hm (by simp [hStatus]) (by simp [hStatus])
  have hid : id ∉ running := fun hid => by
    cases hStatus.symm.trans ((h (.notLinked "")).status_of_begun hid hm)
  have hBegin := Change.update hm (.beginEvaluation hReady.1 hReady.2)
  have hBegun := fun e => (h e).begin hm hReady
  have hEntries : (m.beginEvaluation.imports.map (·.entries)).getD [] = table.entries := by
    simp [StaticModule.beginEvaluation, hTable]
  have hThere : ∀ entry ∈ table.entries,
      ∃ k, (y.move (y.state.updateStatic id .beginEvaluation)).state.module? entry.2 = some k := by
    intro entry hEntry
    refine (hBegin.lawful hy).module_of_import (static?_updateStatic_self hm _) ?_
      (List.mem_map_of_mem hEntry)
    exact hTable
  simp only [Ends, runOnce, runModule, hEntries, Action.meets_bind, Action.meets_onFailure,
    changeStatic, newObject, Action.meets_tell, Action.meets_modify, Action.meets_modifyGet,
    Action.meets_pure]
  refine ⟨trivial, (sweeps_importedNamespaces hRun table.entries (hBegin.lawful hy) hBegun
    hThere).ends ?_ ?_⟩
  · rintro e z ⟨past, j, left, hSplit, chain, swept, hDescends, hNodup, hLeaves, hSweep⟩
    exact ⟨trivial, .of_begun hid (.onward hmx hReady hTable hSplit hDescends) hNodup hLeaves hSweep⟩
  · rintro imports z ⟨swept, hAmid, hSweep⟩
    refine ⟨trivial, (meets_runScript_of_noImports (hHost _ _)).ends ?_ ?_⟩
    · rintro e w ⟨hStill, hEnd⟩
      refine ⟨trivial, .of_begun hid (.program hmx hReady hTable hEnd) .nil
        ((hAmid e).of_static fun j => ?_) ?_⟩
      · simp [static?, module?, hStill.modules]
      · simpa [OrderedMap.values] using hSweep
    · rintro properties w ⟨hStill, hEnd⟩
      refine ⟨trivial, trivial, id :: swept, fun e => ?_, .enter hmx hTable (hSweep.mono ?_)⟩
      · refine Moment.Leaves.finish ((hAmid e).of_static fun j => ?_) hid hmx hEnd
        simp [static?, module?, hStill.modules]
      · intro j hj
        simp only [List.mem_append, List.mem_cons] at hj ⊢
        tauto

/-- With a host that makes no imports, evaluation sweeps the modules to which its root leads, and a
failure halts it at the end of a chain. -/
theorem sweeper (hHost : ∀ m scope, (env.evaluate m scope).NoImports)
    (fuel : Nat) : Sweeper env x fuel := by
  induction fuel with
  | zero => exact fun _ _ _ => trivial
  | succ fuel ih =>
    intro running finished id y hy h hThere
    obtain ⟨k, hk⟩ := hThere
    have hSame := h (.notLinked "")
    simp only [Ends, evaluate, Action.meets_bind, Action.meets_get]
    refine ⟨trivial, ?_⟩
    -- A module that is not run stays as it is, and was not ready unless it has been met before.
    have hSkip : ∀ {w : Instant σ}, (∀ j, w.state.static? j = y.state.static? j) →
        ¬y.state.IsRunnable id → Swept env x running finished [id] w := by
      intro w hKept hNot
      refine ⟨[], fun e => (h e).of_static hKept, .skip fun hReady => ?_⟩
      by_contra hMem
      rw [List.mem_append, not_or] at hMem
      obtain ⟨m, hm, hReady⟩ := hReady
      exact hNot ⟨m, (hSame.untouched id hMem.2 hMem.1 List.not_mem_nil).trans hm, hReady⟩
    cases k with
    | synthetic k =>
      simp only [hk]
      refine (ends_evaluateSynthetic hy hk).ends (fun _ _ => False.elim) fun _ w hw => hSkip hw ?_
      rintro ⟨m, hm, -⟩
      rw [static?_eq_some_iff, hk] at hm
      cases hm
    | static m =>
      have hm := static?_eq_some_iff.2 hk
      have hLawful := hy.static id m hm
      have hNotReady : m.status ≠ .instantiated → ¬y.state.IsRunnable id := by
        rintro hNot ⟨n, hn, hReady⟩
        rw [hm, Option.some.injEq] at hn
        exact hNot (hn ▸ hReady.2)
      simp only [hk, Action.meets_bind]
      rcases hLawful.evaluationStep_cases with
        ⟨hLinking, hStatus, hStep⟩ | ⟨-, hStatus, hStep⟩ | ⟨hRefused, e, hStep⟩
      · rw [hStep, Action.meets_ofExcept_ok]
        exact sweeps_runOnce ih hHost hy h hm ⟨hLinking, hStatus⟩
      · rw [hStep, Action.meets_ofExcept_ok]
        refine (ends_namespaceOrEmpty m.exports).ends (fun _ _ => False.elim) fun _ w hw =>
          hSkip hw (hNotReady ?_)
        rcases hStatus with hStatus | hStatus <;> simp [hStatus]
      · rw [hStep, Action.meets_ofExcept_error]
        have hFailed : m.status = .evaluating ∨ m.status = .evaluated → m.status = .errored :=
          fun hStatus => hRefused (hLawful.linked_of_status (.inr hStatus))
        have hRunning : m.status ≠ .evaluating := fun hStatus => by
          cases hStatus.symm.trans (hFailed (.inl hStatus))
        have hFinished : m.status ≠ .evaluated := fun hStatus => by
          cases hStatus.symm.trans (hFailed (.inr hStatus))
        exact ⟨[], [], .refused (hSame.same_of_status hm hRunning hFinished) hStep, .nil, h e,
          .nil _⟩

/-- A module that is ready stays so until it is run. -/
theorem ready_of_change (h : Change x y) (hReady : x.state.IsRunnable id)
    (hNot : ¬y.state.IsRunning id) : y.state.IsRunnable id := by
  obtain ⟨m, hm, hLinked, hStatus⟩ := hReady
  obtain ⟨n, hn, rfl | hStep⟩ := h.of_static? hm
  · exact ⟨n, hn, hLinked, hStatus⟩
  · cases hStep with
    | beginEvaluation => exact (hNot ⟨_, hn, rfl⟩).elim
    | beginLinking hLinking | bindImports hLinking | finishLinking hLinking
    | failLinking hLinking => cases hLinking.symm.trans hLinked
    | finishEvaluation hRunning | failEvaluation hRunning => cases hRunning.symm.trans hStatus

/-- The action starts the module: it comes to run, and was not running before. -/
def Starts {α : Type} (action : Load σ α) (x : Instant σ) (id : ModuleId) : Prop :=
  ¬x.state.IsRunning id ∧ ∃ z ∈ action.moments x, z.state.IsRunning id

section Starts

variable {α : Type} {action : Load σ α} {stuck : Instant σ → Prop}
  {failed : LoadError → Instant σ → Prop} {done : α → Instant σ → Prop}
  {outcome : Except LoadError α}

/-- A module that was ready, and is not any more, has come to run. -/
theorem starts_of_turns {turn : StaticModule → StaticModule → Prop}
    (h : action.Meets Change stuck failed done x) (hRun : action.runFrom x = some (outcome, y))
    (hid : x.Turns y turn id) (hTurn : ∀ m n, turn m n → n.status ≠ .instantiated) :
    Starts action x id := by
  obtain ⟨m, n, hm, hReady, hn, hTurned⟩ := hid
  refine ⟨?_, ?_⟩
  · rintro ⟨k, hk, hRunning⟩
    rw [hm, Option.some.injEq] at hk
    cases (hk ▸ hReady.2).symm.trans hRunning
  · by_contra hNever
    have hChain : (action.moments x).IsChain fun z w => Change z w ∧ ¬w.state.IsRunning id :=
      h.isChain.1.imp_of_mem_imp fun z w _ hw hStep => ⟨hStep, fun hRunning =>
        hNever ⟨w, hw, hRunning⟩⟩
    have hEnd := hChain.induction (fun z => z.state.IsRunnable id) _
      (fun z w hStep hReady => ready_of_change hStep.1 hReady hStep.2) (fun hNonempty => by
        have hHead := h.isChain.2
        rw [List.head?_eq_some_head hNonempty, Option.some.injEq] at hHead
        rw [hHead]
        exact ⟨m, hm, hReady⟩) y (Action.mem_moments_of_runFrom hRun)
    obtain ⟨k, hk, hReady⟩ := hEnd
    rw [hn, Option.some.injEq] at hk
    exact hTurn m n hTurned (hk ▸ hReady.2)

/-- A module that has come to run does not end with the record that it had. -/
theorem changes_of_starts (h : action.Meets Change stuck failed done x) (hx : x.Lawful)
    (hRun : action.runFrom x = some (outcome, y)) (hStarts : Starts action x id) :
    y.state.static? id ≠ x.state.static? id := by
  obtain ⟨hNot, z, hz, n, hn, hRunning⟩ := hStarts
  obtain ⟨hLawful, hLater⟩ := h.later_of_mem hx hz
  obtain ⟨k, hk, hGrows⟩ := (h.later_of_runFrom hx hRun hz).static id n hn
  intro hSame
  rw [hk] at hSame
  obtain ⟨n', hn', hGrows'⟩ := hLater.static id k hSame.symm
  rw [hn, Option.some.injEq] at hn'
  subst hn'
  have hStarted : k.Started := hGrows.started
    ⟨(hLawful.static id n hn).linked_of_status (.inr (.inl hRunning)), by simp [hRunning]⟩
  have hkLawful := hx.static id k hSame.symm
  rcases hkLawful.status_of_linked hStarted.1 with hStatus | (hStatus | hStatus) | hStatus
  · exact hStarted.2 hStatus
  · exact hNot ⟨k, hSame.symm, hStatus⟩
  · obtain ⟨exports, hExports⟩ := Option.isSome_iff_exists.1 (hkLawful.exports.2 hStatus)
    have hEvaluated := (hLawful.static id n hn).exports.1
      (by rw [hGrows'.exports exports hExports]; rfl)
    cases hRunning.symm.trans hEvaluated
  · obtain ⟨text, hText⟩ := Option.isSome_iff_exists.1 (hkLawful.failure.2 hStatus)
    have hErrored := (hLawful.static id n hn).failure.1
      (by rw [hGrows'.failure text hText]; rfl)
    cases hRunning.symm.trans hErrored

end Starts

/-- No module is running between requests.  When an evaluation fails with `e` under a host that makes
no imports, the modules whose records have changed are those that it has started.  They are the
chain of imports down to where the failure arose, which has failed with the text of `e`, and what the
imports before that chain lead to beside it, which is evaluated.  So an import that a module on the
chain declares later is as it was, unless a module on the chain or an import before it led there. -/
theorem changed_of_interrupted (past env : Environment σ) (world : σ)
    (requests : List (Nat × Request σ)) :
    (∀ outcome y, (serve past requests).runFrom (.fresh world) = some (outcome, y) →
      ∀ id m, y.state.static? id = some m → m.status ≠ .evaluating) ∧
    ∀ x ∈ (serve past requests).moments (.fresh world),
      (∀ m scope, (env.evaluate m scope).NoImports) →
      ∀ fuel root k e y, x.state.module? root = some k →
        (evaluate env fuel root).runFrom x = some (.error e, y) →
        ∃ chain, Descends env x.state e root chain ∧ (chain.map Begun.id).Nodup ∧ ∀ id,
          (y.state.static? id ≠ x.state.static? id ↔ Starts (evaluate env fuel root) x id) ∧
          (Starts (evaluate env fuel root) x id ↔
            id ∈ chain.map Begun.id ∨ x.state.Passes chain id) ∧
          (id ∈ chain.map Begun.id → x.Turns y (fun m n => n = m.failEvaluation e) id) ∧
          (x.state.Passes chain id → x.Turns y env.Finishes id) := by
  refine ⟨fun outcome y hServed id m hm => status_of_served hServed hm, ?_⟩
  intro x hx hHost fuel root k e y hk hRun
  have hx := lawful_of_mem_serve hx
  obtain ⟨chain, swept, hDescends, hNodup, hLeaves, hSweep⟩ :=
    ((sweeper hHost fuel hx (x.amid_nil env) ⟨k, hk⟩).of_runFrom hRun).2 e rfl
  rw [List.append_nil] at hLeaves
  have hAside : ∀ j ∈ swept, x.state.Aside chain j := by
    intro j hj
    obtain ⟨m, n, hm, hReady, hn, scope, exports, -, rfl⟩ := hLeaves.ended j hj
    exact ⟨⟨m, hm, hReady⟩, fun hChain => by cases hLeaves.status_of_lost hChain hn⟩
  have hPasses : ∀ {id}, id ∈ swept ↔ x.state.Passes chain id := hSweep.mem_iff hAside
  have hMeets := spares_evaluate env fuel root hx
  refine ⟨chain, hDescends, hNodup, fun id => ?_⟩
  have hChanged : y.state.static? id ≠ x.state.static? id →
      id ∈ chain.map Begun.id ∨ x.state.Passes chain id := by
    intro hNe
    by_contra hNot
    rw [not_or, ← hPasses] at hNot
    exact hNe (hLeaves.untouched id List.not_mem_nil hNot.2 hNot.1)
  have hStarted : id ∈ chain.map Begun.id ∨ x.state.Passes chain id →
      Starts (evaluate env fuel root) x id := by
    rw [← hPasses]
    rintro (hid | hid)
    · exact starts_of_turns hMeets hRun (hLeaves.lost id hid) (by rintro m n rfl; exact nofun)
    · exact starts_of_turns hMeets hRun (hLeaves.ended id hid) (by rintro m n ⟨_, _, -, rfl⟩; exact nofun)
  have hDiffers := fun hStarts : Starts (evaluate env fuel root) x id =>
    changes_of_starts hMeets hx hRun hStarts
  exact ⟨⟨fun hNe => hStarted (hChanged hNe), hDiffers⟩,
    ⟨fun hStarts => hChanged (hDiffers hStarts), hStarted⟩, hLeaves.lost id,
    fun hid => hLeaves.ended id (hPasses.2 hid)⟩

end Session

/-- The sample's environment, where the program of `b` fails. -/
def Sample.breaking : Environment Unit :=
  { Sample.environment with
    evaluate := fun m _ =>
      .finish (if m.url = "file:///b" then .error (.host "broken") else .ok .empty) }

namespace Session

/-- The module `a` imports `b`, whose program fails. -/
theorem changed_of_interrupted_cycle :
    (∀ outcome y, (serve Sample.environment Sample.cycle).runFrom (.fresh ()) = some (outcome, y) →
      ∀ id m, y.state.static? id = some m → m.status ≠ .evaluating) ∧
    ∃ x ∈ (serve Sample.environment Sample.cycle).moments (.fresh ()), ∃ e y chain,
      (evaluate Sample.breaking 9 0).runFrom x = some (.error e, y) ∧
      Descends Sample.breaking x.state e 0 chain ∧ ∀ id,
        (y.state.static? id ≠ x.state.static? id ↔
          id ∈ chain.map Begun.id ∨ x.state.Passes chain id) ∧
        (id ∈ chain.map Begun.id → x.Turns y (fun m n => n = m.failEvaluation e) id) := by
  have hRun : ((serve Sample.environment Sample.cycle).moments (.fresh ())).any (fun x =>
      (x.state.static? 0).any fun m => m.status = .instantiated ∧
        ((evaluate Sample.breaking 9 0).runFrom x).any fun (outcome, _) =>
          !outcome.toBool) = true := by decide +kernel
  obtain ⟨x, hx, hModule⟩ := List.any_eq_true.1 hRun
  obtain ⟨m, hm, hDecide⟩ := (Option.any_eq_true _ _).1 hModule
  obtain ⟨-, hRuns⟩ := of_decide_eq_true hDecide
  obtain ⟨⟨outcome, y⟩, hRuns, hFails⟩ := (Option.any_eq_true _ _).1 hRuns
  obtain ⟨hRest, hChanged⟩ :=
    changed_of_interrupted Sample.environment Sample.breaking () Sample.cycle
  cases outcome with
  | ok => cases hFails
  | error e =>
    obtain ⟨chain, hDescends, -, hAll⟩ :=
      hChanged x hx (fun _ _ => trivial) 9 0 _ e y (static?_eq_some_iff.1 hm) hRuns
    refine ⟨hRest, x, hx, e, y, chain, hRuns, hDescends, fun id => ?_⟩
    obtain ⟨hStarts, hChain, hFailed, -⟩ := hAll id
    exact ⟨hStarts.trans hChain, hFailed⟩

/-- The module `c` is evaluated, although `a` declares it after `b`, which fails: `b` imports it
too. -/
theorem evaluated_after_failing_import :
    ∃ x ∈ (serve Sample.environment Sample.cycle).moments (.fresh ()), ∃ table b c e y n k,
      (x.state.static? 0).bind (·.imports) = some table ∧ table.values = [1, 2] ∧
      x.state.static? 1 = some b ∧ b.IsRunnable ∧ x.state.static? 2 = some c ∧ c.IsRunnable ∧
      (evaluate Sample.breaking 9 0).runFrom x = some (.error e, y) ∧
      y.state.static? 1 = some n ∧ n.failure = some e.message ∧
      y.state.static? 2 = some k ∧ k.status = .evaluated := by
  have hRun : ((serve Sample.environment Sample.cycle).moments (.fresh ())).any (fun x =>
      ((x.state.static? 0).bind (·.imports)).any (fun table => table.values = [1, 2]) ∧
      (x.state.static? 1).any (fun b => b.IsRunnable) ∧
      (x.state.static? 2).any (fun c => c.IsRunnable) ∧
      ((evaluate Sample.breaking 9 0).runFrom x).any fun
        | (.ok _, _) => false
        | (.error e, y) => (y.state.static? 1).any (fun n => n.failure = some e.message) ∧
          (y.state.static? 2).any fun k => k.status = .evaluated) = true := by
    decide +kernel
  obtain ⟨x, hx, hDecide⟩ := List.any_eq_true.1 hRun
  obtain ⟨hRoot, hFirst, hSecond, hRuns⟩ := of_decide_eq_true hDecide
  obtain ⟨table, hTable, hValues⟩ := (Option.any_eq_true _ _).1 hRoot
  obtain ⟨b, hb, hReady⟩ := (Option.any_eq_true _ _).1 hFirst
  obtain ⟨c, hc, hReady'⟩ := (Option.any_eq_true _ _).1 hSecond
  obtain ⟨⟨outcome, y⟩, hRuns, hEnd⟩ := (Option.any_eq_true _ _).1 hRuns
  cases outcome with
  | ok => cases hEnd
  | error e =>
    obtain ⟨hFailed, hEvaluated⟩ := of_decide_eq_true hEnd
    obtain ⟨n, hn, hFailure⟩ := (Option.any_eq_true _ _).1 hFailed
    obtain ⟨k, hk, hStatus⟩ := (Option.any_eq_true _ _).1 hEvaluated
    exact ⟨x, hx, table, b, c, e, y, n, k, hTable, of_decide_eq_true hValues, hb,
      of_decide_eq_true hReady, hc, of_decide_eq_true hReady', hRuns, hn,
      of_decide_eq_true hFailure, hk, of_decide_eq_true hStatus⟩

end Session

end ModuleLoader
