import ModuleLoader.Proofs.Session.Store
import ModuleLoader.Proofs.Task.Alone
import ModuleLoader.Shared.Entry

/-! The tasks of a session that are alone do what the actions of a session do: they come to the same
outcome, and leave the same moment behind. -/

namespace ModuleLoader

theorem ModuleCache.slot_of_slot? {ρ : Type} {c : ModuleCache ρ} {url : String} {slot : SlotId}
    (h : c.slot? url = some slot) : c.slot url = (slot, c) := by
  unfold slot? at h
  simp [ModuleCache.slot, h]

namespace Session.Shared

open ModuleLoader.Action

variable {σ : Type} {env : Environment σ}

/-- The action of a task of a session that no other task disturbs. -/
abbrev alone {α : Type} (env : Environment σ) (task : Work σ α) : Load σ α :=
  task.alone (nextTurn env)

theorem alone_slotOf (url : String) :
    Agrees (alone env (slotOf url : Work σ SlotId)) (modifyGet fun s =>
      let (slot, cache) := s.cache.slot url
      (slot, { s with cache })) := by
  intro x
  simp only [slotOf, Task.alone_bind, Task.alone_get, runFrom_bind, runFrom_get, Option.bind_some]
  cases hSlot : x.state.cache.slot? url with
  | some slot =>
    simp only [Task.alone_pure, runFrom_pure, runFrom_modifyGet]
    rw [ModuleCache.slot_of_slot? hSlot]
    rfl
  | none => rfl

theorem alone_cachedModule (resolved : ResolvedModule) (main : Bool) :
    Agrees (alone env (cachedModule env resolved main)) (Session.cachedModule env resolved main) := by
  simp only [cachedModule, Session.cachedModule, Task.alone_bind, Task.alone_get]
  refine (alone_slotOf resolved.url).bind fun slot => ?_
  intro x
  simp only [runFrom_bind, runFrom_get, Option.bind_some]
  cases hRecord : x.state.cache.record? slot with
  | some id => rfl
  | none =>
    simp only [Task.runFrom_alone_within, making, hRecord, Option.map_none, Task.alone_ofAction,
      runFrom_bind]
    change ((createModule env resolved main).runFrom x).map _ = _
    cases (createModule env resolved main).runFrom x with
    | none => rfl
    | some result =>
      obtain ⟨_ | m, y⟩ := result <;> rfl

theorem alone_moduleFor (specifier referrer : String) :
    Agrees (alone env (moduleFor env specifier referrer))
      (Session.moduleFor env specifier referrer) := by
  simp only [moduleFor, Session.moduleFor, Task.alone_bind, Task.alone_ofAction]
  exact (Agrees.refl _).bind fun r => alone_cachedModule r false

theorem runFrom_alone_meet (f : Frontier) (id : ModuleId) (x : Moment (Session σ) Event) :
    (alone env (meet f id : Work σ Frontier)).runFrom x = some (f.add x.state id, x) := by
  simp only [meet, Task.alone_bind, Task.alone_get, runFrom_bind, runFrom_get, Option.bind_some]
  cases hAdd : f.add x.state id with
  | ok g => rfl
  | error e =>
    -- The reason is read once more, and it is the same.
    have hError : ((x.state.static? id).elim e StaticModule.linkError) = e := by
      unfold Frontier.add at hAdd
      split at hAdd
      · cases hAdd
      · next m hm =>
        split at hAdd
        · cases hAdd
        · cases hAdd
          simp [hm]
        · split at hAdd <;> cases hAdd
        · split at hAdd <;> cases hAdd
    simp only [failAgain, Task.alone_bind, Task.alone_get, Task.alone_throw, runFrom_bind,
      runFrom_get, Option.bind_some, runFrom_throw, hError]

theorem runFrom_alone_foldlM_meet (imports : List ModuleId) (f : Frontier)
    (x : Moment (Session σ) Event) :
    (alone env (imports.foldlM meet f : Work σ Frontier)).runFrom x =
      some (imports.foldlM (Frontier.add x.state) f, x) := by
  induction imports generalizing f with
  | nil => rfl
  | cons id rest ih =>
    simp only [List.foldlM_cons, Task.alone_bind, runFrom_bind, runFrom_alone_meet,
      Option.bind_some]
    cases f.add x.state id with
    | error e => rfl
    | ok g => exact ih g

theorem alone_linkRounds (fuel : Nat) (f : Frontier) :
    Agrees (alone env (linkRounds env fuel f)) (Session.linkRounds env fuel f) := by
  induction fuel generalizing f with
  | zero => exact .refl _
  | succ fuel ih =>
    unfold linkRounds Session.linkRounds
    split
    · exact .refl _
    · simp only [Task.alone_bind, Task.alone_forAll]
      refine (Agrees.refl (inTurns env _)).bind fun imports => ?_
      intro x
      simp only [runFrom_bind, runFrom_alone_foldlM_meet, runFrom_get, Option.bind_some]
      change _ = Option.bind (some (f.next x.state imports.flatten, x)) _
      unfold Frontier.next
      cases List.foldlM (Frontier.add x.state) ⟨f.seen, []⟩ imports.flatten with
      | error e => rfl
      | ok next =>
        have hRest := ((ih next).bind fun rest => .refl (pure (f.modules ++ rest))) x
        rw [runFrom_bind, runFrom_bind] at hRest
        exact hRest

theorem runFrom_alone_finish (visited : List ModuleId) (x : Moment (Session σ) Event) :
    (alone env (visited.forM fun id => changeStatic id .finishLinking : Work σ PUnit)).runFrom x =
      some (.ok ⟨⟩, x.move (x.state.finishLinking visited)) := by
  induction visited generalizing x with
  | nil => rfl
  | cons id rest ih =>
    simp only [List.forM_eq_forM, List.forM_cons, changeStatic, Task.alone_bind, Task.alone_modify,
      runFrom_bind, runFrom_modify, Option.bind_some]
    exact ih _

theorem alone_link (fuel : Nat) (root : ModuleId) :
    Agrees (alone env (link env fuel root)) (Session.link env fuel root) := by
  intro x
  simp only [link, Session.link, Task.alone_bind, Task.alone_get, runFrom_bind, runFrom_get,
    Option.bind_some]
  cases hm : x.state.static? root with
  | none => rfl
  | some m =>
    have hRounds : (alone env ((linkRounds env fuel ⟨[m.url], [root]⟩).onFailure fun e =>
        changeStatic root (·.failLinking e))).Agrees
          ((Session.linkRounds env fuel ⟨[m.url], [root]⟩).onFailure fun e =>
            Session.changeStatic root (·.failLinking e)) := by
      simp only [Task.alone_onFailure]
      exact (alone_linkRounds fuel _).onFailure _
    have hFinish : ∀ visited : List ModuleId,
        (alone env (visited.forM fun id => changeStatic id .finishLinking : Work σ PUnit)).Agrees
          (modify fun s => s.finishLinking visited) :=
      fun visited y => runFrom_alone_finish visited y
    cases hLinking : m.linking with
    | linked =>
      simp only [hLinking]
      rfl
    | errored =>
      simp only [hLinking, failAgain, Task.alone_bind, Task.alone_get, Task.alone_throw,
        runFrom_bind, runFrom_get, runFrom_throw, Option.bind_some, hm, Option.elim_some]
    | unlinked | linking =>
      simp only [hLinking, Task.alone_bind]
      exact hRounds.bind hFinish x

theorem alone_evaluateSynthetic {id : ModuleId} {m : SyntheticModule} {x : Moment (Session σ) Event}
    (hm : x.state.module? id = some (.synthetic m)) :
    (alone env (evaluateSynthetic id : Work σ Namespace)).runFrom x =
      (Session.evaluateSynthetic id m).runFrom x := by
  simp only [evaluateSynthetic, Session.evaluateSynthetic, Session.newObject, Task.alone_bind,
    Task.alone_modifyGet, Task.alone_ofExcept, runFrom_bind, runFrom_modifyGet, hm,
    Option.bind_some]
  rfl

section Scripts

variable {run : ModuleId → Work σ Namespace} {run' : ModuleId → Load σ Namespace}

theorem alone_runScript {load : String → Work σ Namespace} {load' : String → Load σ Namespace}
    (hLoad : ∀ specifier, Agrees (alone env (load specifier)) (load' specifier)) (script : Script σ) :
    Agrees (alone env (runScript load script)) (Session.runScript load' script) := by
  induction script with
  | finish outcome => exact .refl _
  | update change next ih => exact (Agrees.refl (modify _)).bind fun _ => ih
  | inspect next ih => exact (Agrees.refl get).bind fun s => ih s.world
  | allocate next ih => exact (Agrees.refl (modifyGet _)).bind fun id => ih id
  | importModule specifier next ih =>
    simp only [runScript, Session.runScript, Task.alone_bind, Task.alone_attempt]
    exact (hLoad specifier).attempt.bind fun outcome => ih outcome

theorem alone_importedNamespaces (hRun : ∀ id, Agrees (alone env (run id)) (run' id))
    (entries : List (String × ModuleId)) :
    Agrees (alone env (importedNamespaces run entries)) (Session.importedNamespaces run' entries) := by
  induction entries with
  | nil => exact .refl _
  | cons entry rest ih =>
    simp only [importedNamespaces, Session.importedNamespaces, Task.alone_bind]
    exact (hRun entry.2).bind fun exports => ih.bind fun _ => .refl _

theorem alone_importBy (fuel : Nat) (hRun : ∀ id, Agrees (alone env (run id)) (run' id))
    (specifier referrer : String) :
    Agrees (alone env (importBy env fuel run specifier referrer))
      (Session.importBy env fuel run' specifier referrer) := by
  simp only [importBy, Session.importBy, Task.alone_bind]
  exact (alone_moduleFor specifier referrer).bind fun id =>
    (alone_link fuel id).bind fun _ => hRun id

end Scripts

theorem alone_namespaceOrEmpty (exports : Option Namespace) :
    (alone env (namespaceOrEmpty exports : Work σ Namespace)) = Session.namespaceOrEmpty exports := by
  cases exports <;> rfl

theorem runFrom_alone_runModule {run : ModuleId → Work σ Namespace}
    {run' : ModuleId → Load σ Namespace} {load : String → String → Work σ Namespace}
    {load' : String → Load σ Namespace} {id : ModuleId} {m : StaticModule}
    {x : Moment (Session σ) Event} (hRun : ∀ id, Agrees (alone env (run id)) (run' id))
    (hLoad : ∀ specifier, Agrees (alone env (load specifier m.url)) (load' specifier))
    (hm : x.state.static? id = some m) :
    (alone env (runModule env run load id)).runFrom x = (do
      let properties ← Session.runModule env run' load' m
      return ⟨← Session.newObject, properties⟩ : Load σ Namespace).runFrom x := by
  have hBody : Agrees
      (alone env (do
        let imports ← importedNamespaces run ((m.imports.map (·.entries)).getD [])
        let scope : EvaluationScope := ⟨.ofList imports, m.importMeta, m.url⟩
        Task.tell (.evaluated m scope)
        let properties ← runScript (fun specifier => load specifier m.url) (env.evaluate m scope)
        return ⟨← newObject, properties⟩ : Work σ Namespace))
      (do
        let properties ← Session.runModule env run' load' m
        return ⟨← Session.newObject, properties⟩ : Load σ Namespace) := by
    simp only [Session.runModule, Task.alone_bind, bind_assoc]
    exact (alone_importedNamespaces hRun _).bind fun imports => (Agrees.refl _).bind fun _ =>
      (alone_runScript hLoad _).bind fun properties => .refl _
  unfold runModule
  change (Task.alone (nextTurn env) (get >>= _)).runFrom x = _
  rw [Task.alone_bind, Task.alone_get, runFrom_bind, runFrom_get, Option.bind_some]
  dsimp only
  rw [hm]
  exact hBody x

/-- A module that is ready to run does so in its section. -/
theorem runFrom_alone_running {run : ModuleId → Work σ Namespace}
    {run' : ModuleId → Load σ Namespace} {load : String → String → Work σ Namespace}
    {load' : String → Load σ Namespace} {id : ModuleId} {m : StaticModule}
    {x : Moment (Session σ) Event} (hRun : ∀ id, Agrees (alone env (run id)) (run' id))
    (hLoad : ∀ specifier, Agrees (alone env (load specifier m.url)) (load' specifier))
    (hm : x.state.static? id = some m) (hStep : m.evaluationStep = .ok .run) :
    (alone env (Task.within (running id) (runModule env run load id))).runFrom x =
      ((runOnce env run' load' id m).runFrom x).map fun (outcome, y) =>
        (outcome.map some, y) := by
  have hStart : (x.move (x.state.updateStatic id .beginEvaluation)).state.static? id =
      some m.beginEvaluation := static?_updateStatic_self hm _
  have hSkip : (running id).skip x.state = none := by simp [running, hm, hStep]
  rw [Task.runFrom_alone_within, hSkip]
  simp only [runOnce, Session.changeStatic, runFrom_bind, runFrom_modify, Option.bind_some]
  have hBody : (alone env (runModule env run load id)).runFrom _ = _ :=
    runFrom_alone_runModule (m := m.beginEvaluation) hRun hLoad hStart
  simp only [running, runFrom_bind, runFrom_onFailure] at hBody ⊢
  rw [hBody]
  cases (Session.runModule env run' load' m.beginEvaluation).runFrom
      (x.move (x.state.updateStatic id .beginEvaluation)) with
  | none => rfl
  | some result => obtain ⟨_ | properties, y⟩ := result <;> rfl

theorem alone_evaluate (fuel : Nat) (id : ModuleId) :
    Agrees (alone env (evaluate env fuel id)) (Session.evaluate env fuel id) := by
  induction fuel generalizing id with
  | zero => exact .refl _
  | succ fuel ih =>
    intro x
    simp only [evaluate, Session.evaluate, Task.alone_bind, Task.alone_get, runFrom_bind,
      runFrom_get, Option.bind_some]
    cases hModule : x.state.module? id with
    | none => rfl
    | some m =>
      cases m with
      | synthetic m => exact alone_evaluateSynthetic hModule
      | static m =>
        have hm := static?_eq_some_iff.2 hModule
        simp only [Task.alone_bind, alone_namespaceOrEmpty, runFrom_bind]
        cases hStep : m.evaluationStep with
        | error e =>
          rw [Task.runFrom_alone_within]
          simp [running, hm, hStep, Action.ofExcept]
        | ok step =>
          cases step with
          | reuse exports =>
            rw [Task.runFrom_alone_within]
            simp [running, hm, hStep, Action.ofExcept]
          | run =>
            rw [runFrom_alone_running ih
              (fun specifier => alone_importBy fuel ih specifier m.url) hm hStep]
            change _ = (runOnce env _ _ id m).runFrom x
            cases (runOnce env (Session.evaluate env fuel)
                (fun specifier => Session.importBy env fuel (Session.evaluate env fuel) specifier
                  m.url) id m).runFrom x with
            | none => rfl
            | some result => obtain ⟨_ | exports, y⟩ := result <;> rfl

/-- A dynamic import that is alone does what it does in a session with one task. -/
theorem alone_importExpression (fuel : Nat) (specifier referrer : String) :
    Agrees (alone env (importExpression env fuel specifier referrer))
      (Session.importExpression env fuel specifier referrer) :=
  alone_importBy fuel (alone_evaluate fuel) specifier referrer

theorem alone_instantiate (fuel : Nat) (entry : String) :
    Agrees (alone env (instantiate env fuel entry)) (Session.instantiate env fuel entry) := by
  simp only [instantiate, Session.instantiate, Task.alone_bind, Task.alone_ofExcept, Task.alone_get]
  refine (Agrees.refl _).bind fun url => (alone_cachedModule ⟨url.text, .dynamic⟩ true).bind
    fun root => (Agrees.refl _).bind fun s => ?_
  cases s.static? root with
  | none => exact .refl _
  | some m =>
    simp only [Task.alone_bind]
    exact (alone_link fuel root).bind fun _ => .refl _

end Session.Shared

end ModuleLoader
