import ModuleLoader.Proofs.Session.Change

/-! How far an evaluation that fails has come in a graph.  It has begun a chain of modules, from its
root down to where the failure arose, and it has swept what the imports before that chain lead to
along modules that were ready. -/

namespace ModuleLoader

variable {σ : Type}

def StaticModule.IsRunnable (m : StaticModule) : Prop :=
  m.linking = .linked ∧ m.status = .instantiated

instance (m : StaticModule) : Decidable m.IsRunnable :=
  inferInstanceAs (Decidable (m.linking = .linked ∧ m.status = .instantiated))

/-- The program may end with the outcome, if it comes to no `import()` expression. -/
inductive Script.MayEnd : Script σ → Except LoadError Properties → Prop
  | finish (outcome : Except LoadError Properties) : MayEnd (.finish outcome) outcome
  | update {change : σ → σ} {next : Script σ} {outcome : Except LoadError Properties}
      (h : next.MayEnd outcome) : MayEnd (.update change next) outcome
  | inspect {next : σ → Script σ} {world : σ} {outcome : Except LoadError Properties}
      (h : (next world).MayEnd outcome) : MayEnd (.inspect next) outcome
  | allocate {next : ObjectId → Script σ} {object : ObjectId}
      {outcome : Except LoadError Properties} (h : (next object).MayEnd outcome) :
      MayEnd (.allocate next) outcome

namespace Session

variable {s : Session σ} {id j : ModuleId}

def IsRunnable (s : Session σ) (id : ModuleId) : Prop := ∃ m, s.static? id = some m ∧ m.IsRunnable

/-- A module that is begun, and those of its imports that come before the one at which it stopped. -/
structure Begun where
  id : ModuleId
  past : List ModuleId

/-- An evaluation of a module fails with `e` after it has begun the modules of a chain, each of
which the one before it imports. -/
inductive Descends (env : Environment σ) (s : Session σ) (e : LoadError) :
    ModuleId → List Begun → Prop
  /-- The module fails at once: it is not linked or has failed before. -/
  | refused {id : ModuleId} {m : StaticModule} (hm : s.static? id = some m)
      (hStep : m.evaluationStep = .error e) : Descends env s e id []
  /-- All imports of the module are past, and its own program fails. -/
  | program {id : ModuleId} {m : StaticModule} {table : OrderedMap ModuleId}
      {scope : EvaluationScope} (hm : s.static? id = some m) (hReady : m.IsRunnable)
      (hTable : m.imports = some table)
      (hEnd : (env.evaluate m.beginEvaluation scope).MayEnd (.error e)) :
      Descends env s e id [⟨id, table.values⟩]
  | onward {id j : ModuleId} {m : StaticModule} {table : OrderedMap ModuleId}
      {past left : List ModuleId} {chain : List Begun} (hm : s.static? id = some m)
      (hReady : m.IsRunnable) (hTable : m.imports = some table)
      (hSplit : table.values = past ++ j :: left) (hRest : Descends env s e j chain) :
      Descends env s e id (⟨id, past⟩ :: chain)

/-- The module was ready and is not on the chain. -/
def Aside (s : Session σ) (chain : List Begun) (id : ModuleId) : Prop :=
  s.IsRunnable id ∧ id ∉ chain.map Begun.id

/-- A past import of a module on the chain leads to the module, along modules beside the chain. -/
def Passes (s : Session σ) (chain : List Begun) (id : ModuleId) : Prop :=
  ∃ c ∈ chain, ∃ j ∈ c.past, s.Aside chain j ∧
    Relation.ReflTransGen (fun a b => s.Imports a b ∧ s.Aside chain b) j id

/-- An evaluation of the sources, for which `stops` are running or over, has swept modules. -/
structure Sweep (s : Session σ) (sources stops swept : List ModuleId) : Prop where
  covers : ∀ j ∈ sources, s.IsRunnable j → j ∈ swept ∨ j ∈ stops
  closed : ∀ id ∈ swept, ∀ j, s.Imports id j → s.IsRunnable j → j ∈ swept ∨ j ∈ stops
  reached : ∀ id ∈ swept, ∃ j ∈ sources, j ∈ swept ∧
    Relation.ReflTransGen (fun a b => s.Imports a b ∧ b ∈ swept) j id

namespace Sweep

variable {sources others stops stops' swept more : List ModuleId}

theorem nil (stops : List ModuleId) : Sweep s [] stops [] := ⟨nofun, nofun, nofun⟩

theorem mono (h : Sweep s sources stops swept) (hStops : stops ⊆ stops') :
    Sweep s sources stops' swept :=
  ⟨fun j hj hReady => (h.covers j hj hReady).imp_right fun hj => hStops hj,
    fun id hid j hImports hReady =>
      (h.closed id hid j hImports hReady).imp_right fun hj => hStops hj,
    h.reached⟩

/-- A source that is not ready, or is running or over, is not entered. -/
theorem skip (hSkip : s.IsRunnable id → id ∈ stops) : Sweep s [id] stops [] := by
  refine ⟨fun j hj hReady => ?_, nofun, nofun⟩
  rw [List.mem_singleton] at hj
  exact .inr (hj ▸ hSkip (hj ▸ hReady))

theorem append (h : Sweep s sources stops swept) (h' : Sweep s others (swept ++ stops) more) :
    Sweep s (sources ++ others) stops (more ++ swept) := by
  constructor
  case covers =>
    intro j hj hReady
    rcases List.mem_append.1 hj with hj | hj
    · have := h.covers j hj hReady
      grind
    · have := h'.covers j hj hReady
      grind
  case closed =>
    intro id hid j hImports hReady
    rcases List.mem_append.1 hid with hid | hid
    · have := h'.closed id hid j hImports hReady
      grind
    · have := h.closed id hid j hImports hReady
      grind
  case reached =>
    intro id hid
    rcases List.mem_append.1 hid with hid | hid
    · obtain ⟨j, hj, hSwept, hPath⟩ := h'.reached id hid
      exact ⟨j, List.mem_append_right _ hj, List.mem_append_left _ hSwept,
        Relation.ReflTransGen.mono (fun _ b h => ⟨h.1, List.mem_append_left _ h.2⟩) _ _ hPath⟩
    · obtain ⟨j, hj, hSwept, hPath⟩ := h.reached id hid
      exact ⟨j, List.mem_append_left _ hj, List.mem_append_right _ hSwept,
        Relation.ReflTransGen.mono (fun _ b h => ⟨h.1, List.mem_append_right _ h.2⟩) _ _ hPath⟩

/-- A module is over after what its imports lead to. -/
theorem enter {m : StaticModule} {table : OrderedMap ModuleId} (hm : s.static? id = some m)
    (hTable : m.imports = some table) (h : Sweep s table.values (id :: stops) swept) :
    Sweep s [id] stops (id :: swept) := by
  constructor
  case covers => exact fun j hj _ => .inl (by simp [List.mem_singleton.1 hj])
  case closed =>
    intro k hk j hImports hReady
    rcases List.mem_cons.1 hk with rfl | hk
    · have := h.covers j (hImports.mem_values hm hTable) hReady
      grind
    · have := h.closed k hk j hImports hReady
      grind
  case reached =>
    intro k hk
    refine ⟨id, List.mem_singleton_self id, List.mem_cons_self, ?_⟩
    rcases List.mem_cons.1 hk with rfl | hk
    · exact .refl
    · obtain ⟨j, hj, hSwept, hPath⟩ := h.reached k hk
      refine .head ⟨⟨m, table, hm, hTable, hj⟩, List.mem_cons_of_mem _ hSwept⟩ ?_
      exact Relation.ReflTransGen.mono (fun _ b h => ⟨h.1, List.mem_cons_of_mem _ h.2⟩) _ _ hPath

/-- What an evaluation has swept when it fails is what it passes. -/
theorem mem_iff {chain : List Begun}
    (h : Sweep s (chain.flatMap Begun.past) (chain.map Begun.id) swept)
    (hAside : ∀ j ∈ swept, s.Aside chain j) : id ∈ swept ↔ s.Passes chain id := by
  constructor
  · intro hid
    obtain ⟨j, hj, hSwept, hPath⟩ := h.reached id hid
    obtain ⟨c, hc, hj⟩ := List.mem_flatMap.1 hj
    exact ⟨c, hc, j, hj, hAside j hSwept,
      Relation.ReflTransGen.mono (fun _ b h => ⟨h.1, hAside b h.2⟩) _ _ hPath⟩
  · rintro ⟨c, hc, j, hj, hFirst, hPath⟩
    induction hPath with
    | refl =>
      exact (h.covers j (List.mem_flatMap.2 ⟨c, hc, hj⟩) hFirst.1).resolve_right hFirst.2
    | tail _ hStep ih =>
      exact (h.closed _ ih _ hStep.1 hStep.2.1).resolve_right hStep.2.2

end Sweep

end Session

end ModuleLoader
