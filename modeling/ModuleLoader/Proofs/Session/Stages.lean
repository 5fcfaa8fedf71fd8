import ModuleLoader.Proofs.Session.Failure
import ModuleLoader.Proofs.Session.Soundness
import ModuleLoader.Proofs.Session.Tables

/-! The stages to which a link brings modules.  A link ends unless it comes to more and more URLs.
One that succeeds moves exactly the modules on its frontiers to another stage: those to which its
root leads along modules that were not linked before. -/

namespace ModuleLoader

variable {σ : Type} {x y z : Instant σ} {env : Environment σ} {id root : ModuleId}
  {ids ids' : List ModuleId}

namespace Session

/-- The stage of a module.  A module that is not made yet is at the stage of a fresh one. -/
def stageOf (s : Session σ) (id : ModuleId) : Stage :=
  ((s.static? id).map (·.stage)).getD (.unlinked, .uninstantiated)

theorem stageOf_updateStatic_of_ne (s : Session σ) (h : id ≠ root)
    (f : StaticModule → StaticModule) : (s.updateStatic root f).stageOf id = s.stageOf id := by
  rw [stageOf, static?_updateStatic_of_ne h, stageOf]

/-- A module that is new is at the stage at which it was before. -/
theorem stageOf_withModule (s : Session σ) (slot : SlotId) {url : String} {k : Module}
    (hNew : k.IsNew url) (id : ModuleId) : (s.withModule slot k).stageOf id = s.stageOf id := by
  unfold stageOf static?
  rw [module?_withModule]
  split
  · next hid =>
    have hNone : s.module? id = none := by simp [module?, hid]
    rw [hNone]
    rcases hNew with ⟨code, dependencies, main, rfl⟩ | ⟨exports, rfl⟩ <;> rfl
  · rfl

end Session

open Session

/-- From the first moment to the second one at most the given modules have come to another stage. -/
def Moment.Moves (x y : Instant σ) (ids : List ModuleId) : Prop :=
  ∀ id ∉ ids, y.state.stageOf id = x.state.stageOf id

namespace Moment.Moves

theorem of_modules (h : y.state.modules = x.state.modules) : x.Moves y ids := by
  intro id _
  simp [stageOf, static?, module?, h]

theorem trans (h : x.Moves y ids) (h' : y.Moves z ids) : x.Moves z ids :=
  fun id hid => (h' id hid).trans (h id hid)

theorem mono (h : x.Moves y ids) (hSubset : ids ⊆ ids') : x.Moves y ids' :=
  fun id hid => h id fun hMem => hid (hSubset hMem)

theorem updateStatic (x : Instant σ) (id : ModuleId) (f : StaticModule → StaticModule) :
    x.Moves (x.move (x.state.updateStatic id f)) [id] :=
  fun _ hj => stageOf_updateStatic_of_ne _ (List.ne_of_not_mem_cons hj) f

end Moment.Moves

namespace Session

/-- A step of a round moves at most the modules on the frontier. -/
theorem moves_of_roundStep {start : Instant σ} {l : Option Place}
    (hStep : RoundStep env start (.all start ids) l x y) : x.Moves y ids := by
  cases hStep with
  | outside hModules => exact .of_modules hModules
  | slot | close | resolved | created | asked => exact .of_modules rfl
  | @create _ r slot m _ _ _ hMade => exact fun id _ => stageOf_withModule _ _ hMade.isNew id
  | @update _ _ id m f hMine =>
    exact (Moment.Moves.updateStatic x id f).mono (List.cons_subset.2 ⟨hMine, List.nil_subset _⟩)

theorem moves_round {f : Frontier} (hf : f.Ready x.state) :
    Yields (round env f) (fun g y => x.Moves y f.modules ∧ g.Ready y.state) x := by
  have hRound := (meets_steps_round env hf).invariant (x.Moves · f.modules) (.of_modules rfl)
    fun y z ⟨_, _, hStep⟩ hy => hy.trans (moves_of_roundStep hStep)
  refine hRound.mono (fun _ _ _ => trivial) (fun _ _ => trivial) (fun _ _ _ => trivial) ?_
  rintro g y ⟨⟨imports, -, hNext⟩, hy⟩
  exact ⟨hy, (Frontier.next_follows hNext).ready⟩

/-- The rounds of a link move at most the modules on their frontiers. -/
theorem moves_linkRounds (fuel : Nat) {f : Frontier} (hf : f.Ready x.state) :
    Yields (linkRounds env fuel f) (fun ids y => x.Moves y ids) x := by
  induction fuel generalizing x f with
  | zero => trivial
  | succ fuel ih =>
    rw [linkRounds_succ]
    split
    · exact Moment.Moves.of_modules rfl
    · refine Yields.bind (moves_round hf) fun g y ⟨hRound, hg⟩ => ?_
      refine Yields.bind (ih hg) fun ids z hRest => ?_
      exact (hRound.mono (List.subset_append_left _ _)).trans
        (hRest.mono (List.subset_append_right _ _))

/-! ### What a link that succeeds has visited -/

theorem imports_of_finishLinking (m : StaticModule) : m.finishLinking.imports = m.imports := by
  unfold StaticModule.finishLinking
  split <;> rfl

theorem imports_finishLinking (s : Session σ) (visited : List ModuleId) (id j : ModuleId) :
    (s.finishLinking visited).Imports id j ↔ s.Imports id j := by
  simp only [Imports, static?_finishLinking]
  split
  · simp [Option.map_eq_some_iff, imports_of_finishLinking]
  · rfl

/-- At `y` the first module imports the second one, which was not linked at `x`. -/
def OpenImport (x y : Instant σ) (id j : ModuleId) : Prop :=
  y.state.Imports id j ∧ x.state.NotLinked j

/-- The second module was reached from the first one along imports of modules none of which was
linked at `x`. -/
def OpenlyLeads (x y : Instant σ) (id j : ModuleId) : Prop :=
  x.state.NotLinked id ∧ Relation.ReflTransGen (OpenImport x y) id j

/-- Whoever imports a module that is not linked is not linked either. -/
theorem notLinked_of_imports (hx : x.Lawful) {id j : ModuleId} {n : StaticModule}
    (hImports : x.state.Imports id j) (hn : x.state.static? j = some n)
    (hNot : x.state.NotLinked j) : x.state.NotLinked id := by
  obtain ⟨m, table, hm, hTable, hj⟩ := hImports
  intro m' hm' hLinked
  rw [hm] at hm'
  cases hm'
  exact hNot n hn (hx.closed id m table j n hm hLinked hTable hj hn)

/-- When no module is left on the frontier, a link has visited exactly the modules to which its root
leads along modules that were not linked before. -/
theorem Exploring.mem_iff {visited : List ModuleId} {g : Frontier} {j : ModuleId} {n : StaticModule}
    (h : Exploring root visited g z) (hEmpty : g.modules = []) (hz : z.Lawful) (hLater : x.Later z)
    (hNone : x.Withholds z) (hn : z.state.static? j = some n) :
    j ∈ visited ↔ OpenlyLeads x z root j := by
  have hRoot : root ∈ visited := by simpa [hEmpty] using h.root_mem
  have hOpen : ∀ k ∈ visited, z.state.NotLinked k := fun k hk =>
    (h.isOpen_of_mem (List.mem_append_left _ hk)).notLinked
  constructor
  · intro hj
    refine ⟨hLater.notLinked (hOpen root hRoot), ?_⟩
    have hLeads : z.state.Leads root j := h.reached j (List.mem_append_left _ hj)
    have hNot : z.state.NotLinked j := hOpen j hj
    -- A linked module leads to linked ones only, so that the whole way to `j` is open.
    clear hj
    induction hLeads generalizing n with
    | refl => exact .refl
    | @tail k j _ hImports ih =>
      have hk := notLinked_of_imports hz hImports hn hNot
      obtain ⟨m, -, hm, -⟩ := id hImports
      exact (ih hm hk).tail ⟨hImports, hLater.notLinked hNot⟩
  · rintro ⟨-, hLeads⟩
    induction hLeads generalizing n with
    | refl => exact hRoot
    | @tail k j _ hImport ih =>
      obtain ⟨hImports, hNot⟩ := hImport
      obtain ⟨m, -, hm, -⟩ := id hImports
      obtain ⟨imports, ⟨m', table, hm', -, hTable, rfl⟩, hClosed⟩ := h.bound k (ih hm)
      rcases hClosed j (hImports.mem_values hm' hTable) n hn with hLinked | hMem
      · exact absurd hLinked (hNone j hNot n hn)
      · simpa [hEmpty] using hMem

theorem stage_finishLinking {m : StaticModule} (h : m.Lawful) (hLinking : m.linking = .linking) :
    m.finishLinking.stage = (.linked, .instantiated) := by
  simp [StaticModule.stage, StaticModule.finishLinking, hLinking, h.status_of_linking hLinking]

theorem stageOf_eq {s : Session σ} {m : StaticModule} (hm : s.static? id = some m) :
    s.stageOf id = m.stage := by
  simp [stageOf, hm]

theorem NotLinked.stageOf_ne {s : Session σ} (h : s.NotLinked id) (status : EvaluationStatus) :
    s.stageOf id ≠ (.linked, status) := by
  unfold stageOf
  cases hm : s.static? id with
  | none => simp
  | some m =>
    intro hStage
    exact h m hm (congrArg Prod.fst hStage)

/-- When no module is left on the frontier, a link moves the modules that it has visited. -/
theorem Exploring.moved {visited : List ModuleId} {g : Frontier} {j : ModuleId} {n : StaticModule}
    (h : Exploring root visited g z) (hEmpty : g.modules = [])
    (hz : x.Extends x.state.NotLinked z) (hNone : x.Withholds z) (hMoves : x.Moves z visited)
    (hn : (z.state.finishLinking visited).static? j = some n) :
    ((z.state.finishLinking visited).stageOf j ≠ x.state.stageOf j ↔ j ∈ visited) ∧
    (j ∈ visited ↔ OpenlyLeads x (z.move (z.state.finishLinking visited)) root j) ∧
    (j ∈ visited → n.stage = (.linked, .instantiated) ∧ n.imports.isSome) := by
  obtain ⟨k, hk⟩ : ∃ k, z.state.static? j = some k := by
    rw [static?_finishLinking] at hn
    split at hn
    · obtain ⟨k, hk, -⟩ := Option.map_eq_some_iff.1 hn
      exact ⟨k, hk⟩
    · exact ⟨n, hn⟩
  have hVisited : j ∈ visited → n.stage = (.linked, .instantiated) ∧ n.imports.isSome := by
    intro hj
    obtain ⟨imports, ⟨k', table, hk', hBound, hTable, -⟩, -⟩ := h.bound j hj
    rw [static?_finishLinking, if_pos hj, hk'] at hn
    cases hn
    exact ⟨stage_finishLinking (hz.lawful.static j k' hk') hBound,
      by rw [imports_of_finishLinking, hTable]; rfl⟩
  refine ⟨⟨fun hMoved => ?_, fun hj => ?_⟩, ?_, hVisited⟩
  · by_contra hNot
    refine hMoved ?_
    rw [← hMoves j hNot]
    simp only [stageOf, static?_finishLinking, if_neg hNot]
  · rw [stageOf_eq hn, (hVisited hj).1]
    have hNotLinked : x.state.NotLinked j :=
      hz.later.notLinked (h.isOpen_of_mem (List.mem_append_left _ hj)).notLinked
    exact (hNotLinked.stageOf_ne _).symm
  · have hSame : OpenImport x (z.move (z.state.finishLinking visited)) = OpenImport x z := by
      funext i k
      simp only [OpenImport, Moment.state_move, imports_finishLinking]
    rw [OpenlyLeads, hSame]
    exact h.mem_iff hEmpty hz.lawful hz.later hNone hk

/-- A link that succeeds moves the modules that were on its frontiers, which are those to which its
root leads along modules that were not linked before. -/
theorem moved_of_link {fuel : Nat} {m n : StaticModule} {j : ModuleId} (hx : x.Lawful)
    (hm : x.state.static? root = some m) (hRun : (link env fuel root).runFrom x = some (.ok (), y))
    (hn : y.state.static? j = some n) :
    (y.state.stageOf j ≠ x.state.stageOf j ↔ j ∈ frontierModules env fuel root x) ∧
    (j ∈ frontierModules env fuel root x ↔ OpenlyLeads x y root j) ∧
    (j ∈ frontierModules env fuel root x →
      n.stage = (.linked, .instantiated) ∧ n.imports.isSome) := by
  cases hLinking : m.linking with
  | linked =>
    have hNone : frontierModules env fuel root x = [] := by
      simp [frontierModules, rounds, hm, hLinking]
    rw [link_of_linked_static env fuel hm hLinking] at hRun
    cases hRun
    have hNot : ¬OpenlyLeads x x root j := fun h => h.1 m hm hLinking
    simp [hNone, hNot]
  | errored =>
    obtain ⟨text, hText⟩ := Option.isSome_iff_exists.1
      ((hx.static root m hm).failure.2 ((hx.static root m hm).status_of_errored hLinking))
    rw [link_of_errored fuel hm hLinking hText] at hRun
    cases hRun
  | unlinked | linking =>
    have hOpen : x.state.IsOpen root := ⟨m, hm, by simp [hLinking]⟩
    obtain ⟨z, hRounds, rfl⟩ := exists_of_link hm (by simp [hLinking]) hRun
    obtain ⟨hz, g, hEmpty, hDone⟩ :=
      ((meets_linkRounds env fuel hx (.start hm hOpen)).of_runFrom hRounds).1 _ rfl
    have hReady : Frontier.Ready ⟨[m.url], [root]⟩ x.state := Frontier.ready_singleton hOpen
    have hNone := ((withholding_linkRounds env fuel hReady).of_runFrom hRounds).1 _ rfl
    have hMoves := (moves_linkRounds fuel hReady).done_of_runFrom hRounds
    rw [List.nil_append] at hDone
    exact hDone.moved hEmpty hz hNone hMoves hn

/-- Whatever happened before, no module comes to two frontiers of a link, and only the tables of
imports of the modules there are asked for, each of them once.  The link ends if its root leads to
finitely many URLs only.  One that succeeds has asked for the tables of all modules on its frontiers.
It moves exactly the modules to which its root leads along modules that were not linked before, all
of them to the same stage; they are those on its frontiers, and there are none if the root was
linked. -/
theorem stages_of_link (env : Environment σ) (world : σ) (requests : List (Nat × Request σ))
    {x : Instant σ} {root : ModuleId} {m : StaticModule}
    (hx : x ∈ (serve env requests).moments (.fresh world)) (hm : x.state.static? root = some m) :
    (∀ fuel, (frontierModules env fuel root x).Nodup ∧ ∀ y ∈ (link env fuel root).moments x,
      (y.askedSince x).Nodup ∧ y.askedSince x ⊆ frontierModules env fuel root x) ∧
    (∀ (urls : List String) (fuel : Nat), urls.length < fuel →
      (∀ y ∈ (link env fuel root).moments x, ∀ j n, y.state.Leads root j →
        y.state.static? j = some n → n.url ∈ urls) →
      ∃ outcome y, ∀ fuel', fuel ≤ fuel' →
        (link env fuel' root).runFrom x = some (outcome, y)) ∧
    (∀ fuel y, (link env fuel root).runFrom x = some (.ok (), y) →
      (m.linking = .linked → y = x) ∧ (y.askedSince x).Perm (frontierModules env fuel root x) ∧
      ∀ j n, y.state.static? j = some n →
        (y.state.stageOf j ≠ x.state.stageOf j ↔ OpenlyLeads x y root j) ∧
        (y.state.stageOf j ≠ x.state.stageOf j ↔ j ∈ frontierModules env fuel root x) ∧
        (y.state.stageOf j ≠ x.state.stageOf j →
          n.stage = (.linked, .instantiated) ∧ n.imports.isSome)) := by
  have hLawful := lawful_of_mem_serve hx
  refine ⟨fun fuel => ?_, fun urls fuel hFuel hUrls => ?_,
    fun fuel y hRun => ⟨fun hLinked => ?_, (asks_link fuel hLawful hm).2 y hRun, fun j n hn => ?_⟩⟩
  · refine ⟨nodup_frontierModules env fuel root hLawful, fun y hy => ?_⟩
    have hAsks := (asks_link fuel hLawful hm).1 y hy
    exact ⟨hAsks.nodup, hAsks.subset⟩
  · have hLink := meets_link env fuel root hLawful
    cases hRun : (link env fuel root).runFrom x with
    | some result => exact ⟨result.1, result.2, fun fuel' hLe => link_of_le hRun hLe⟩
    | none =>
      obtain ⟨y, hy, hReaches⟩ := hLink.stuck_of_runFrom hRun
      have hBound := (hLink.later_of_mem hLawful hy).1.le_of_reaches hReaches (hUrls y hy)
      omega
  · rw [link_of_linked_static env fuel hm hLinked] at hRun
    cases hRun
    rfl
  · obtain ⟨hMoved, hLeads, hStage⟩ := moved_of_link hLawful hm hRun hn
    exact ⟨hMoved.trans hLeads, hMoved, fun h => hStage (hMoved.1 h)⟩

/-- The link of `b`, which was given up when `e` failed, ends with any fuel from 6 on, since there are
five URLs.  It moves `c`, to which `b` leads, and leaves `e` as it is. -/
theorem stages_of_link_cycle :
    ∃ x ∈ (serve Sample.together (Sample.givenUp.take 2)).moments (.fresh ()), ∃ m y,
      x.state.static? 1 = some m ∧ m.linking = .linking ∧ m.imports = none ∧
      (∀ fuel, 6 ≤ fuel → (link Sample.together fuel 1).runFrom x = some (.ok (), y)) ∧
      (frontierModules Sample.together 6 1 x).Nodup ∧
      frontierModules Sample.together 6 1 x = [1, 3, 4] ∧ (y.askedSince x).Perm [1, 3, 4] ∧
      OpenlyLeads x y 1 4 ∧ ¬OpenlyLeads x y 1 0 := by
  have hRun : ((serve Sample.together (Sample.givenUp.take 2)).moments (.fresh ())).any
      (fun x => (x.state.static? 1).any (fun m => m.linking = .linking ∧ m.imports.isNone) &&
        decide (frontierModules Sample.together 6 1 x = [1, 3, 4]) &&
        (((link Sample.together 6 1).moments x).all fun y => y.state.modules.all fun k =>
          ["file:///a", "file:///b", "file:///c", "file:///d", "file:///e"].contains k.url) &&
        ((link Sample.together 6 1).runFrom x).any fun result => result.1.isOk &&
          (result.2.state.static? 4).isSome && (result.2.state.static? 0).isSome &&
          decide (result.2.state.stageOf 4 ≠ x.state.stageOf 4) &&
          decide (result.2.state.stageOf 0 = x.state.stageOf 0)) = true := by decide +kernel
  obtain ⟨x, hx, hAll⟩ := List.any_eq_true.1 hRun
  simp only [Bool.and_eq_true, Option.any_eq_true, List.all_eq_true, decide_eq_true_eq,
    Option.isSome_iff_exists, Option.isNone_iff_eq_none, List.contains_iff_mem] at hAll
  obtain ⟨⟨⟨⟨m, hm, hLinking, hNone⟩, hModules⟩, hUrls⟩, ⟨outcome, y⟩, hLink, hStages⟩ := hAll
  obtain ⟨⟨⟨⟨hOk, c, hc⟩, d, hd⟩, hMoved⟩, hSame⟩ := hStages
  obtain ⟨hNodup, hEnds, hStages⟩ := stages_of_link Sample.together () _ hx hm
  have hLeft : ∀ z ∈ (link Sample.together 6 1).moments x, ∀ j n, z.state.Leads 1 j →
      z.state.static? j = some n →
      n.url ∈ ["file:///a", "file:///b", "file:///c", "file:///d", "file:///e"] := by
    intro z hz j n _ hn
    exact hUrls z hz _ (List.mem_of_getElem? (static?_eq_some_iff.1 hn))
  obtain ⟨outcome', y', hEnd⟩ := hEnds _ 6 (by decide) hLeft
  cases (hEnd 6 le_rfl).symm.trans hLink
  cases outcome with
  | error e => cases hOk
  | ok =>
    obtain ⟨-, hAsked, hStage⟩ := hStages 6 y hLink
    exact ⟨x, hx, m, y, hm, hLinking, hNone, hEnd, (hNodup 6).1, hModules, hModules ▸ hAsked,
      (hStage 4 c hc).1.1 hMoved, fun hLeads => (hStage 0 d hd).1.2 hLeads hSame⟩

end Session

end ModuleLoader
