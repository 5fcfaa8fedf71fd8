import Mathlib.Data.List.Perm.Subperm
import ModuleLoader.Proofs.Session.Closure
import ModuleLoader.Proofs.Session.Walk

/-! The order of evaluation.  With a host that evaluates modules without a failure and without
`import()`, an evaluation follows the depth-first walk from its root: it leaves to the host the
modules that the walk calls, in that order, each with the namespaces of its imports. -/

namespace ModuleLoader

variable {σ : Type} {x y z : Instant σ} {chain seen : List ModuleId} {id : ModuleId}
  {m : StaticModule}

/-- The program succeeds and has no `import()` expressions. -/
def Script.IsPlain : Script σ → Prop
  | .finish outcome => ∃ exports, outcome = .ok exports
  | .update _ next => next.IsPlain
  | .inspect next => ∀ world, (next world).IsPlain
  | .allocate next => ∀ object, (next object).IsPlain
  | .importModule _ _ => False

namespace Session

/-- The namespace is what an import of the module gives: an empty one below the module itself, and
otherwise the one that the module keeps. -/
def Gives (x : Instant σ) (chain : List ModuleId) (id : ModuleId) (exports : Namespace) : Prop :=
  if id ∈ chain then exports.exports = .empty else x.state.HasExports id exports

/-- A module is left to the host with a namespace for each entry of its table. -/
def Fulfils (s : Session σ) (x : Instant σ) (call : Call)
    (evaluation : StaticModule × EvaluationScope) : Prop :=
  ∃ m table, s.static? call.id = some m ∧ m.imports = some table ∧
    evaluation.1 = m.beginEvaluation ∧
    List.Forall₂ (fun entry given => given.1 = entry.1 ∧
        Gives x (call.id :: call.chain) entry.2 given.2)
      table.entries evaluation.2.imports.entries

/-- From the second moment to the third one, the calls have been fulfilled. -/
def Made (x y z : Instant σ) (calls : List Call) : Prop :=
  ∃ made, z.evaluations = y.evaluations ++ made ∧
    List.Forall₂ (Fulfils x.state z) calls made

/-- An evaluation that began at `x` has entered the modules in `seen`, and those on the chain are
running. -/
structure Underway (x : Instant σ) (chain seen : List ModuleId) (y : Instant σ) : Prop where
  running : ∀ id ∈ chain, ∀ m, x.state.static? id = some m →
    y.state.static? id = some m.beginEvaluation
  finished : ∀ id ∈ seen, id ∉ chain → ∃ exports, y.state.HasExports id exports
  fresh : ∀ id m, id ∉ seen → x.state.static? id = some m → y.state.static? id = some m
  entered : ∀ id ∈ chain, id ∈ seen
  nodup : seen.Nodup
  static : ∀ id ∈ seen, ∃ m, x.state.static? id = some m

theorem Gives.later {exports : Namespace} (h : Gives y chain id exports) (hLater : y.Later z) :
    Gives z chain id exports := by
  unfold Gives at h ⊢
  split
  · next hChain => rwa [if_pos hChain] at h
  · next hChain =>
    rw [if_neg hChain] at h
    exact hLater.hasExports h

theorem Fulfils.later {s : Session σ} {call : Call} {evaluation : StaticModule × EvaluationScope}
    (h : Fulfils s y call evaluation) (hLater : y.Later z) : Fulfils s z call evaluation := by
  obtain ⟨m, table, hm, hTable, hEvaluation, hGiven⟩ := h
  exact ⟨m, table, hm, hTable, hEvaluation, hGiven.imp fun _ _ h => ⟨h.1, h.2.later hLater⟩⟩

theorem Made.trans {first last : List Call} {w : Instant σ} (h : Made x y z first)
    (h' : Made x z w last) (hLater : z.Later w) : Made x y w (first ++ last) := by
  obtain ⟨made, hMade, hFulfils⟩ := h
  obtain ⟨made', hMade', hFulfils'⟩ := h'
  refine ⟨made ++ made', ?_, ?_⟩
  · rw [hMade', hMade, List.append_assoc]
  · exact List.rel_append (hFulfils.imp fun _ _ h => h.later hLater) hFulfils'

namespace Underway

theorem length_le (h : Underway x chain seen y) : seen.length ≤ x.state.modules.length := by
  have hSubset : seen ⊆ List.range x.state.modules.length := by
    intro id hid
    obtain ⟨m, hm⟩ := h.static id hid
    exact List.mem_range.2 (List.getElem?_eq_some_iff.1 (static?_eq_some_iff.1 hm)).1
  simpa using (List.subperm_of_subset h.nodup hSubset).length_le

theorem perm {seen' : List ModuleId} (h : Underway x chain seen y) (hPerm : seen.Perm seen') :
    Underway x chain seen' y where
  running := h.running
  finished id hid := h.finished id (hPerm.mem_iff.2 hid)
  fresh id m hid := h.fresh id m fun hMem => hid (hPerm.mem_iff.1 hMem)
  entered id hid := hPerm.mem_iff.1 (h.entered id hid)
  nodup := hPerm.nodup_iff.1 h.nodup
  static id hid := h.static id (hPerm.mem_iff.2 hid)

theorem of_same (h : Underway x chain seen y) (hLater : y.Later z)
    (hSame : ∀ id m, y.state.static? id = some m → z.state.static? id = some m) :
    Underway x chain seen z where
  running id hid m hm := hSame id _ (h.running id hid m hm)
  finished id hid hNot := by
    obtain ⟨exports, hExports⟩ := h.finished id hid hNot
    exact ⟨exports, hLater.hasExports hExports⟩
  fresh id m hNot hm := hSame id m (h.fresh id m hNot hm)
  entered := h.entered
  nodup := h.nodup
  static := h.static

theorem begin (h : Underway x chain seen y) (hid : id ∉ seen) (hm : x.state.static? id = some m)
    (hLater : y.Later (y.move (y.state.updateStatic id .beginEvaluation))) :
    Underway x (id :: chain) (id :: seen)
      (y.move (y.state.updateStatic id .beginEvaluation)) := by
  have hNe : ∀ j ∈ seen, j ≠ id := fun j hj hEq => hid (hEq ▸ hj)
  constructor
  · intro j hj n hn
    rcases List.mem_cons.1 hj with rfl | hj
    · rw [hm] at hn
      cases hn
      exact static?_updateStatic_self (h.fresh j m hid hm) _
    · rw [Moment.state_move, static?_updateStatic_of_ne (hNe j (h.entered j hj))]
      exact h.running j hj n hn
  · intro j hj hNot
    rw [List.mem_cons, not_or] at hNot
    obtain ⟨exports, hExports⟩ := h.finished j ((List.mem_cons.1 hj).resolve_left hNot.1) hNot.2
    exact ⟨exports, hLater.hasExports hExports⟩
  · intro j n hj hn
    rw [List.mem_cons, not_or] at hj
    rw [Moment.state_move, static?_updateStatic_of_ne hj.1]
    exact h.fresh j n hj.2 hn
  · intro j hj
    rcases List.mem_cons.1 hj with rfl | hj
    · exact List.mem_cons_self
    · exact List.mem_cons_of_mem _ (h.entered j hj)
  · exact List.nodup_cons.2 ⟨hid, h.nodup⟩
  · intro j hj
    rcases List.mem_cons.1 hj with rfl | hj
    · exact ⟨m, hm⟩
    · exact h.static j hj

theorem finish (h : Underway x (id :: chain) seen y) (hid : id ∉ chain)
    (hm : x.state.static? id = some m) (exports : Namespace)
    (hLater : y.Later (y.move (y.state.updateStatic id (·.finishEvaluation exports)))) :
    Underway x chain seen (y.move (y.state.updateStatic id (·.finishEvaluation exports))) := by
  have hRunning := h.running id List.mem_cons_self m hm
  constructor
  · intro j hj n hn
    have hNe : j ≠ id := fun hEq => hid (hEq ▸ hj)
    rw [Moment.state_move, static?_updateStatic_of_ne hNe]
    exact h.running j (List.mem_cons_of_mem _ hj) n hn
  · intro j hj hNot
    by_cases hEq : j = id
    · subst hEq
      exact ⟨exports, .static (m.beginEvaluation.finishEvaluation exports),
        static?_eq_some_iff.1 (static?_updateStatic_self hRunning _), rfl⟩
    · obtain ⟨known, hKnown⟩ := h.finished j hj fun hMem => (List.mem_cons.1 hMem).elim hEq hNot
      exact ⟨known, hLater.hasExports hKnown⟩
  · intro j n hj hn
    have hNe : j ≠ id := fun hEq => hj (hEq ▸ h.entered id List.mem_cons_self)
    rw [Moment.state_move, static?_updateStatic_of_ne hNe]
    exact h.fresh j n hj hn
  · exact fun j hj => h.entered j (List.mem_cons_of_mem _ hj)
  · exact h.nodup
  · exact h.static

end Underway

theorem meets_runScript_of_isPlain {load : String → Load σ Namespace} {script : Script σ}
    (h : script.IsPlain) :
    (runScript load script).Meets Change (fun _ => False) (fun _ _ => False)
      (fun _ y => x.Still y) x := by
  induction script generalizing x with
  | finish outcome =>
    obtain ⟨exports, rfl⟩ := h
    exact ⟨rfl, rfl, rfl⟩
  | update change next ih =>
    rw [runScript, Action.meets_bind, Action.meets_modify]
    exact ⟨.world x change, (ih h).ends (fun _ _ h => h) fun _ _ hy =>
      ⟨hy.modules, hy.cache, hy.evaluations⟩⟩
  | inspect next ih =>
    rw [runScript, Action.meets_bind, Action.meets_get]
    exact ⟨.refl x, ih _ (h _)⟩
  | allocate next ih =>
    rw [runScript, newObject, Action.meets_bind, Action.meets_modifyGet]
    exact ⟨.newObject x, (ih _ (h _)).ends (fun _ _ h => h) fun _ _ hy =>
      ⟨hy.modules, hy.cache, hy.evaluations⟩⟩
  | importModule => exact h.elim

/-- An action visits modules as a walk does: it cannot be stuck or fail, and it makes the calls of
the walk. -/
def Visits {α : Type} (x : Instant σ) (chain seen ids : List ModuleId)
    (given : α → Instant σ → Prop) (action : Load σ α) (y : Instant σ) : Prop :=
  action.Meets Change (fun _ => False) (fun _ _ => False)
    (fun a z => ∃ calls, Walk x.state chain seen ids calls ∧
      Underway x chain (calls.map Call.id ++ seen) z ∧ Made x y z calls ∧ given a z) y

/-- Evaluation with some fuel visits every module of which all that it leads to is ready or
evaluated. -/
def Visitor (env : Environment σ) (x : Instant σ) (fuel : Nat) : Prop :=
  ∀ {chain seen : List ModuleId} {id : ModuleId} {y : Instant σ}, y.Lawful → x.Later y →
    Underway x chain seen y → x.state.modules.length < seen.length + fuel →
    (∃ k, x.state.module? id = some k) →
    (∀ j n, x.state.Leads id j → x.state.static? j = some n →
      n.status = .instantiated ∨ n.status = .evaluated) →
    Visits x chain seen [id] (fun exports z => Gives z chain id exports) (evaluate env fuel id) y

theorem visits_importedNamespaces {env : Environment σ} {fuel : Nat} (hRun : Visitor env x fuel)
    (entries : List (String × ModuleId)) (hy : y.Lawful) (hLater : x.Later y)
    (h : Underway x chain seen y) (hFuel : x.state.modules.length < seen.length + fuel)
    (hThere : ∀ entry ∈ entries, ∃ k, x.state.module? entry.2 = some k)
    (hReady : ∀ entry ∈ entries, ∀ j n, x.state.Leads entry.2 j → x.state.static? j = some n →
      n.status = .instantiated ∨ n.status = .evaluated) :
    Visits x chain seen (entries.map Prod.snd)
      (fun given z => List.Forall₂ (fun entry given => given.1 = entry.1 ∧
        Gives z chain entry.2 given.2) entries given)
      (importedNamespaces (evaluate env fuel) entries) y := by
  induction entries generalizing seen y with
  | nil => exact ⟨[], .nil, h, ⟨[], by simp, .nil⟩, .nil⟩
  | cons entry rest ih =>
    obtain ⟨hThere, hThere'⟩ := List.forall_mem_cons.1 hThere
    obtain ⟨hReady, hReady'⟩ := List.forall_mem_cons.1 hReady
    simp only [Visits, importedNamespaces, Action.meets_bind, Action.meets_pure]
    refine ((hRun hy hLater h hFuel hThere hReady).lawful hy).mono (fun _ _ hStep => hStep)
      (fun _ hz => hz.1) (fun _ _ hz => hz.1) ?_
    rintro exports z ⟨⟨first, hWalk, hUnder, hMade, hGives⟩, hz, hLater'⟩
    have hFuel' : x.state.modules.length < (first.map Call.id ++ seen).length + fuel := by
      rw [List.length_append]
      omega
    refine ((ih hz (hLater.trans hLater') hUnder hFuel' hThere' hReady').lawful hz).mono
      (fun _ _ hStep => hStep) (fun _ hw => hw.1) (fun _ _ hw => hw.1) ?_
    rintro given w ⟨⟨last, hWalk', hUnder', hMade', hGiven⟩, hw, hLater''⟩
    refine ⟨first ++ last, hWalk.cons hWalk', ?_, hMade.trans hMade' hLater'',
      .cons ⟨rfl, hGives.later hLater''⟩ hGiven⟩
    refine hUnder'.perm ?_
    simpa using List.perm_append_comm_assoc (last.map Call.id) (first.map Call.id) seen

/-- A call is fulfilled when the module at the head of the chain is over.  Since its imports were
evaluated, the module has been left to the host and nothing else has happened to modules. -/
theorem Underway.conclude {table : OrderedMap ModuleId} {scope : EvaluationScope}
    (h : Underway x (id :: chain) seen y) (hChain : id ∉ chain) (hm : x.state.static? id = some m)
    (hTable : m.imports = some table) (hz : z.Lawful) (hLater : y.Later z)
    (hModules : z.state.modules = y.state.modules)
    (hEvents : z.evaluations = y.evaluations ++ [(m.beginEvaluation, scope)])
    (hGiven : List.Forall₂ (fun entry given => given.1 = entry.1 ∧
      Gives y (id :: chain) entry.2 given.2) table.entries scope.imports.entries)
    (exports : Namespace) :
    Change z (z.move (z.state.updateStatic id (·.finishEvaluation exports))) ∧
      Underway x chain seen (z.move (z.state.updateStatic id (·.finishEvaluation exports))) ∧
      Made x y (z.move (z.state.updateStatic id (·.finishEvaluation exports))) [⟨id, chain⟩] ∧
      Gives (z.move (z.state.updateStatic id (·.finishEvaluation exports))) chain id exports := by
  have hSame : ∀ j n, y.state.static? j = some n → z.state.static? j = some n := by
    intro j n hn
    simpa [static?, module?, hModules] using hn
  have hRunning := hSame id _ (h.running id List.mem_cons_self m hm)
  have hFinish : Change z (z.move (z.state.updateStatic id (·.finishEvaluation exports))) :=
    .update hRunning (.finishEvaluation rfl)
  have hLast := hFinish.later hz
  refine ⟨hFinish, (h.of_same hLater hSame).finish hChain hm exports hLast, ?_, ?_⟩
  · refine ⟨[(m.beginEvaluation, scope)], hEvents, .cons ⟨m, table, hm, hTable, rfl, ?_⟩ .nil⟩
    exact hGiven.imp fun _ _ h => ⟨h.1, h.2.later (hLater.trans hLast)⟩
  · rw [Gives, if_neg hChain]
    exact ⟨.static (m.beginEvaluation.finishEvaluation exports),
      static?_eq_some_iff.1 (static?_updateStatic_self hRunning _), rfl⟩

theorem visits_runOnce {env : Environment σ} {fuel : Nat} (hRun : Visitor env x fuel)
    (hPlain : ∀ m scope, (env.evaluate m scope).IsPlain) {load : String → Load σ Namespace}
    (hx : x.Lawful) (hy : y.Lawful) (hLater : x.Later y) (h : Underway x chain seen y)
    (hFuel : x.state.modules.length < seen.length + (fuel + 1)) (hid : id ∉ seen)
    (hm : x.state.static? id = some m) (hStatus : m.status = .instantiated)
    (hReady : ∀ j n, x.state.Leads id j → x.state.static? j = some n →
      n.status = .instantiated ∨ n.status = .evaluated) :
    Visits x chain seen [id] (fun exports z => Gives z chain id exports)
      (runOnce env (evaluate env fuel) load id m) y := by
  have hLinking := (hx.static id m hm).linked_of_status (.inl hStatus)
  obtain ⟨table, hTable⟩ := Option.isSome_iff_exists.1 ((hx.static id m hm).imports hLinking)
  have hmy := h.fresh id m hid hm
  have hChain : id ∉ chain := fun hMem => hid (h.entered id hMem)
  have hBegin := Change.update hmy (.beginEvaluation hLinking hStatus)
  have hBegun := hBegin.lawful hy
  have hEntries : ((m.beginEvaluation.imports.map (·.entries)).getD []) = table.entries := by
    simp [StaticModule.beginEvaluation, hTable]
  simp only [Visits, runOnce, runModule, hEntries, Action.meets_bind, Action.meets_onFailure,
    changeStatic, newObject, Action.meets_tell, Action.meets_modify, Action.meets_modifyGet,
    Action.meets_pure]
  refine ⟨hBegin, ?_⟩
  have hThere : ∀ entry ∈ table.entries, ∃ k, x.state.module? entry.2 = some k :=
    fun entry hEntry => hx.module_of_import hm hTable (List.mem_map_of_mem hEntry)
  have hReady' : ∀ entry ∈ table.entries, ∀ j n, x.state.Leads entry.2 j →
      x.state.static? j = some n → n.status = .instantiated ∨ n.status = .evaluated :=
    fun entry hEntry j n hLeads =>
      hReady j n (.head ⟨m, table, hm, hTable, List.mem_map_of_mem hEntry⟩ hLeads)
  -- The module counts as entered from now on, which makes up for the step of fuel that it takes.
  have hFuel' : x.state.modules.length < (id :: seen).length + fuel := by
    rw [List.length_cons]
    omega
  have hImports := visits_importedNamespaces hRun table.entries hBegun
    (hLater.trans (hBegin.later hy)) (h.begin hid hm (hBegin.later hy)) hFuel' hThere hReady'
  have hSpares := spares_importedNamespaces
    (fun j _ hj => spares_evaluate env fuel j hj) table.entries hBegun
  refine (hImports.and hSpares).mono (fun _ _ hStep => hStep) (fun _ hz => hz.1)
    (fun _ _ hz => hz.1.elim) ?_
  rintro given z ⟨⟨inner, hWalk, hUnder, hMade, hGiven⟩, hSpare⟩
  have hmz := hUnder.running id List.mem_cons_self m hm
  have hOnce : m.url ∉ z.evaluatedUrls := fun hUrl => hy.not_mem_evaluatedUrls hmy hStatus
    (hSpare.silent id m.beginEvaluation (static?_updateStatic_self hmy _) rfl hUrl)
  have hScope : (OrderedMap.ofList given).entries = given :=
    OrderedMap.entries_ofList_of_forall₂ hGiven
  generalize hScopeEq : (⟨.ofList given, m.beginEvaluation.importMeta, m.beginEvaluation.url⟩ :
    EvaluationScope) = scope
  have hTell : Change z (z.hear (.evaluated m.beginEvaluation scope)) :=
    .evaluate hmz rfl rfl hOnce
  have hTold := hTell.lawful hSpare.lawful
  refine ⟨hTell, ((meets_runScript_of_isPlain (hPlain _ _)).lawful hTold).mono
    (fun _ _ hStep => hStep) (fun _ hw => hw.1) (fun _ _ hw => hw.1.elim) ?_⟩
  rintro properties w ⟨hStill, hw, hLater'⟩
  have hTake := Change.newObject w
  refine ⟨hTake, ?_⟩
  have hEvents : (w.move { w.state with nextObject := w.state.nextObject + 1 }).evaluations =
      z.evaluations ++ [(m.beginEvaluation, scope)] := by
    rw [Moment.evaluations_move, hStill.evaluations]
    simp [Moment.evaluations, Event.evaluation?]
  obtain ⟨hFinish, hUnder', hEnd, hGives⟩ := hUnder.conclude hChain hm hTable (hTake.lawful hw)
    ((hTell.later hSpare.lawful).trans (hLater'.trans (hTake.later hw))) hStill.modules hEvents
    (by rwa [← hScopeEq, hScope]) ⟨w.state.nextObject, properties⟩
  refine ⟨hFinish, inner ++ [⟨id, chain⟩], ?_, ?_, ?_, hGives⟩
  · exact .visit hid hm (by simp [hStatus]) hTable hWalk .nil
  · simpa using hUnder'
  · exact hMade.trans hEnd ((hTell.later hSpare.lawful).trans
      (hLater'.trans ((hTake.later hw).trans (hFinish.later (hTake.lawful hw)))))

theorem visits_of_skip {may : ModuleId → Prop} {exports : Namespace} (hz : y.Extends may z)
    (hMay : ∀ j, may j → ∀ n, y.state.static? j ≠ some n) (h : Underway x chain seen y)
    (hSkip : id ∈ seen ∨ ¬x.state.IsPending id) (hGives : Gives z chain id exports) :
    ∃ calls, Walk x.state chain seen [id] calls ∧
      Underway x chain (calls.map Call.id ++ seen) z ∧ Made x y z calls ∧
      Gives z chain id exports := by
  refine ⟨[], .skip hSkip .nil, h.of_same hz.later fun j n hn => ?_,
    ⟨[], by simpa using hz.evaluations, .nil⟩, hGives⟩
  exact hz.static? (fun hj => hMay j hj n hn) hn

theorem visits_known {exports : Namespace} (hy : y.Lawful) (h : Underway x chain seen y)
    (hSkip : id ∈ seen ∨ ¬x.state.IsPending id) (hChain : id ∉ chain)
    (hExports : y.state.HasExports id exports) :
    Visits x chain seen [id] (fun exports z => Gives z chain id exports)
      (namespaceOrEmpty (some exports)) y := by
  refine (meets_namespaceOrEmpty _ hy).ends (fun _ _ hz => hz) ?_
  rintro found z ⟨hz, hFound, -⟩
  rw [hFound exports rfl]
  refine visits_of_skip hz (fun _ => False.elim) h hSkip ?_
  rw [Gives, if_neg hChain]
  exact hz.later.hasExports hExports

theorem visits_running (hy : y.Lawful) (h : Underway x chain seen y) (hChain : id ∈ chain) :
    Visits x chain seen [id] (fun exports z => Gives z chain id exports)
      (namespaceOrEmpty none) y := by
  refine (meets_namespaceOrEmpty _ hy).ends (fun _ _ hz => hz) ?_
  rintro found z ⟨hz, -, hEmpty⟩
  refine visits_of_skip hz (fun _ => False.elim) h (.inl (h.entered id hChain)) ?_
  rw [Gives, if_pos hChain]
  exact hEmpty rfl

theorem evaluated_of_hasExports {exports : Namespace} (hy : y.Lawful)
    (hm : y.state.static? id = some m) (h : y.state.HasExports id exports) :
    m.status = .evaluated ∧ m.exports = some exports := by
  obtain ⟨k, hk, hExports⟩ := h
  rw [static?_eq_some_iff.1 hm] at hk
  cases hk
  have hSome : m.exports = some exports := hExports
  exact ⟨(hy.static id m hm).exports.1 (by rw [hSome]; rfl), hSome⟩

theorem visits_evaluateSynthetic {n : SyntheticModule} (hy : y.Lawful)
    (h : Underway x chain seen y) (hNot : ∀ k, x.state.static? id ≠ some k)
    (hn : y.state.module? id = some (.synthetic n)) :
    Visits x chain seen [id] (fun exports z => Gives z chain id exports)
      (evaluateSynthetic id n) y := by
  refine (meets_evaluateSynthetic hy hn).ends (fun _ _ hz => hz) ?_
  rintro exports z ⟨hz, hExports⟩
  have hChain : id ∉ chain := by
    intro hMem
    obtain ⟨k, hk⟩ := h.static id (h.entered id hMem)
    exact hNot k hk
  refine visits_of_skip hz ?_ h (.inr ?_) ?_
  · rintro j rfl k hk
    rw [static?_eq_some_iff, hn] at hk
    cases hk
  · rintro ⟨k, hk, -⟩
    exact hNot k hk
  · rwa [Gives, if_neg hChain]

/-- With a plain host, evaluation visits modules as a walk does. -/
theorem visitor {env : Environment σ} (hPlain : ∀ m scope, (env.evaluate m scope).IsPlain)
    (hx : x.Lawful) (fuel : Nat) : Visitor env x fuel := by
  induction fuel with
  | zero =>
    -- Every module that is entered costs one step of fuel, and none is entered twice.
    intro chain seen id y _ _ h hFuel
    exact absurd h.length_le (by omega)
  | succ fuel ih =>
    intro chain seen id y hy hLater h hFuel hThere hReady
    obtain ⟨k, hk⟩ := hThere
    simp only [Visits, evaluate, Action.meets_bind, Action.meets_get]
    refine ⟨.refl y, ?_⟩
    cases k with
    | synthetic m =>
      obtain ⟨n, hn, -⟩ := hLater.synthetic id m hk
      simp only [hn]
      refine visits_evaluateSynthetic hy h (fun k hk' => ?_) hn
      rw [static?_eq_some_iff, hk] at hk'
      cases hk'
    | static m =>
      have hm := static?_eq_some_iff.2 hk
      have hStatus := hReady id m .refl hm
      have hLinking := (hx.static id m hm).linked_of_status
        (hStatus.elim .inl fun hEvaluated => .inr (.inr hEvaluated))
      obtain ⟨n, hn, hGrows⟩ := hLater.static id m hm
      simp only [static?_eq_some_iff.1 hn]
      have hLinked := hGrows.linked hLinking
      have hLawful := hy.static id n hn
      rw [Action.meets_bind]
      -- On the chain the module is running; entered before, it is over; otherwise it is as it was.
      by_cases hSeen : id ∈ seen
      · by_cases hChain : id ∈ chain
        · have hRunning := h.running id hChain m hm
          rw [hn] at hRunning
          cases hRunning
          rw [StaticModule.evaluationStep_of_begun hLinked (.inl rfl), Action.meets_ofExcept_ok,
            hLawful.exports_eq_none (by simp [StaticModule.beginEvaluation])]
          exact visits_running hy h hChain
        · obtain ⟨exports, hExports⟩ := h.finished id hSeen hChain
          obtain ⟨hEvaluated, hKnown⟩ := evaluated_of_hasExports hy hn hExports
          rw [StaticModule.evaluationStep_of_begun hLinked (.inr hEvaluated),
            Action.meets_ofExcept_ok, hKnown]
          exact visits_known hy h (.inl hSeen) hChain hExports
      · have hChain : id ∉ chain := fun hMem => hSeen (h.entered id hMem)
        have hFresh := h.fresh id m hSeen hm
        rw [hn] at hFresh
        cases hFresh
        rcases hStatus with hReadyNow | hEvaluated
        · rw [StaticModule.evaluationStep_of_instantiated hLinked hReadyNow,
            Action.meets_ofExcept_ok]
          exact visits_runOnce ih hPlain hx hy hLater h hFuel hSeen hm hReadyNow hReady
        · obtain ⟨exports, hExports⟩ := Option.isSome_iff_exists.1 (hLawful.exports.2 hEvaluated)
          have hNot : ¬x.state.IsPending id := by
            rintro ⟨k, hk', hPending⟩
            rw [hm] at hk'
            cases hk'
            exact hPending hEvaluated
          rw [StaticModule.evaluationStep_of_begun hLinked (.inr hEvaluated),
            Action.meets_ofExcept_ok, hExports]
          exact visits_known hy h (.inr hNot) hChain ⟨_, static?_eq_some_iff.1 hn, hExports⟩

theorem underway_nil (x : Instant σ) : Underway x [] [] x :=
  ⟨nofun, nofun, fun _ _ _ hm => hm, nofun, .nil, nofun⟩

/-- With a plain host, and with more fuel than there are modules, the evaluation of a module of which
all that it leads to is ready or evaluated ends with its namespace.  It leaves to the host exactly
the modules to which pending modules lead, each once, in the order of the walk from the root, and
each with the namespaces of its imports. -/
theorem evaluate_postOrder (past env : Environment σ) (world : σ)
    (requests : List (Nat × Request σ)) {x : Instant σ} {root : ModuleId} {m : StaticModule}
    (hx : x ∈ (serve past requests).moments (.fresh world)) (hm : x.state.static? root = some m)
    (hReady : ∀ j n, x.state.Leads root j → x.state.static? j = some n →
      n.status = .instantiated ∨ n.status = .evaluated)
    (hPlain : ∀ m scope, (env.evaluate m scope).IsPlain) :
    ∃ calls, Walk x.state [] [] [root] calls ∧ (calls.map Call.id).Nodup ∧
      (∀ id, id ∈ calls.map Call.id ↔
        x.state.IsPending root ∧ Relation.ReflTransGen x.state.PendingImport root id) ∧
      ∀ fuel, x.state.modules.length < fuel → ∃ exports y made,
        (evaluate env fuel root).runFrom x = some (.ok exports, y) ∧
        y.state.HasExports root exports ∧ y.evaluations = x.evaluations ++ made ∧
        List.Forall₂ (Fulfils x.state y) calls made := by
  have hLawful := lawful_of_mem_serve hx
  have hRuns : ∀ fuel, x.state.modules.length < fuel → ∃ calls exports y made,
      Walk x.state [] [] [root] calls ∧ (evaluate env fuel root).runFrom x = some (.ok exports, y) ∧
      y.state.HasExports root exports ∧ y.evaluations = x.evaluations ++ made ∧
      List.Forall₂ (Fulfils x.state y) calls made := by
    intro fuel hFuel
    have hVisits := visitor hPlain hLawful fuel hLawful (.refl x) (underway_nil x)
      (by simpa using hFuel) ⟨_, static?_eq_some_iff.1 hm⟩ hReady
    obtain ⟨outcome, y, hRun, hOk, hError⟩ := hVisits.exists_runFrom
    cases outcome with
    | error e => exact (hError e rfl).elim
    | ok exports =>
      obtain ⟨calls, hWalk, -, ⟨made, hMade, hFulfils⟩, hGives⟩ := hOk exports rfl
      rw [Gives, if_neg List.not_mem_nil] at hGives
      exact ⟨calls, exports, y, made, hWalk, hRun, hGives, hMade, hFulfils⟩
  obtain ⟨calls, -, -, -, hWalk, -⟩ := hRuns _ (Nat.lt_succ_self _)
  have hNodup := hWalk.nodup .nil
  rw [List.append_nil] at hNodup
  refine ⟨calls, hWalk, hNodup, hWalk.mem_iff, fun fuel hFuel => ?_⟩
  obtain ⟨calls', exports, y, made, hWalk', hRest⟩ := hRuns fuel hFuel
  rw [hWalk.unique hWalk']
  exact ⟨exports, y, made, hRest⟩

end Session

/-- Requests for a link of the modules `a`, `b` and `c`, of which the first two import each other. -/
def Sample.cycle : List (Nat × Session.Request Unit) :=
  [(9, .moduleAt ⟨"file:///a", .dynamic⟩), (9, .link 0)]

def Sample.cycleImports : List (ModuleId × List ModuleId) := [(0, [1, 2]), (1, [0, 2]), (2, [])]

namespace Session

/-- A module without imports is run first, then the cycle from the module that was entered last. -/
theorem evaluate_postOrder_cycle :
    ∃ x ∈ (serve Sample.environment Sample.cycle).moments (.fresh ()), ∃ exports y made,
      (evaluate Sample.environment 9 0).runFrom x = some (.ok exports, y) ∧
        y.evaluations = x.evaluations ++ made ∧
        List.Forall₂ (Fulfils x.state y) [⟨2, [1, 0]⟩, ⟨1, [0]⟩, ⟨0, []⟩] made := by
  have hRun : ((serve Sample.environment Sample.cycle).moments (.fresh ())).any (fun x =>
      x.state.modules.length = 3 ∧ Sample.cycleImports.all fun entry =>
        (x.state.static? entry.1).any fun m =>
          m.status = .instantiated ∧ m.imports.map (·.values) = some entry.2) = true := by
    decide +kernel
  obtain ⟨x, hx, hDecide⟩ := List.any_eq_true.1 hRun
  obtain ⟨hLength, hAll⟩ := of_decide_eq_true hDecide
  have hModule : ∀ id ids, (id, ids) ∈ Sample.cycleImports → ∃ m table,
      x.state.static? id = some m ∧ m.status = .instantiated ∧ m.imports = some table ∧
        table.values = ids := by
    intro id ids hid
    obtain ⟨m, hm, hHolds⟩ := (Option.any_eq_true _ _).1 (List.all_eq_true.1 hAll _ hid)
    obtain ⟨hStatus, hImports⟩ := of_decide_eq_true hHolds
    obtain ⟨table, hTable, hValues⟩ := Option.map_eq_some_iff.1 hImports
    exact ⟨m, table, hm, hStatus, hTable, hValues⟩
  obtain ⟨a, tableA, ha, hReadyA, hTableA, hValuesA⟩ := hModule 0 [1, 2] (by decide)
  obtain ⟨b, tableB, hb, hReadyB, hTableB, hValuesB⟩ := hModule 1 [0, 2] (by decide)
  obtain ⟨c, tableC, hc, hReadyC, hTableC, hValuesC⟩ := hModule 2 [] (by decide)
  have hReady : ∀ j n, x.state.Leads 0 j → x.state.static? j = some n →
      n.status = .instantiated ∨ n.status = .evaluated := by
    intro j n _ hn
    have hj : j < 3 := hLength ▸ (List.getElem?_eq_some_iff.1 (static?_eq_some_iff.1 hn)).1
    have hStatus : ∃ m, x.state.static? j = some m ∧ m.status = .instantiated := by
      match j, hj with
      | 0, _ => exact ⟨a, ha, hReadyA⟩
      | 1, _ => exact ⟨b, hb, hReadyB⟩
      | 2, _ => exact ⟨c, hc, hReadyC⟩
    obtain ⟨m, hm, hStatus⟩ := hStatus
    rw [hn] at hm
    cases hm
    exact .inl hStatus
  obtain ⟨calls, hWalk, -, -, hRuns⟩ := evaluate_postOrder Sample.environment Sample.environment ()
    Sample.cycle hx ha hReady fun _ _ => ⟨.empty, rfl⟩
  have hCalls : Walk x.state [] [] [0] [⟨2, [1, 0]⟩, ⟨1, [0]⟩, ⟨0, []⟩] := by
    have hBelowC : Walk x.state [2, 1, 0] [2, 1, 0] tableC.values [] := by
      rw [hValuesC]
      exact .nil
    have hBelowB : Walk x.state [1, 0] [1, 0] tableB.values [⟨2, [1, 0]⟩] := by
      rw [hValuesB]
      exact .skip (.inl (by decide))
        (.visit (by decide) hc (by simp [hReadyC]) hTableC hBelowC .nil)
    have hBelowA : Walk x.state [0] [0] tableA.values [⟨2, [1, 0]⟩, ⟨1, [0]⟩] := by
      rw [hValuesA]
      exact .visit (by decide) hb (by simp [hReadyB]) hTableB hBelowB
        (.skip (.inl (by decide)) .nil)
    exact .visit (by decide) ha (by simp [hReadyA]) hTableA hBelowA .nil
  obtain ⟨exports, y, made, hRuns, -, hMade⟩ := hRuns 9 (by omega)
  rw [hWalk.unique hCalls] at hMade
  exact ⟨x, hx, exports, y, made, hRuns, hMade⟩

end Session

end ModuleLoader
