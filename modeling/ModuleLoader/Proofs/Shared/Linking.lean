import ModuleLoader.Proofs.Session.Linking
import ModuleLoader.Proofs.Shared.Creation

/-! Linking in a shared session.  When a link ends, the imports of all modules to which its root leads
are bound, whatever other tasks did in the meantime, and the root is linked unless a link of it has
failed. -/

namespace ModuleLoader

variable {σ : Type} {own : Place → Prop} {h k : Course σ}

namespace Session

variable {s t : Session σ} {id j : ModuleId} {m : StaticModule}

/-- The imports of a module are bound to the modules of the list. -/
def HasImports (s : Session σ) (id : ModuleId) (imports : List ModuleId) : Prop :=
  ∃ m table, s.static? id = some m ∧ m.imports = some table ∧ imports = table.values

/-- A module is linked, or a link of it has failed. -/
def Settled (s : Session σ) (id : ModuleId) : Prop :=
  ∃ m, s.static? id = some m ∧ (m.linking = .linked ∨ m.linking = .errored)

theorem Keeps.hasImports {imports : List ModuleId} (h : s.Keeps t) (hid : s.HasImports id imports) :
    t.HasImports id imports := by
  obtain ⟨m, table, hm, hTable, rfl⟩ := hid
  obtain ⟨n, hn, hKeeps⟩ := h.static id m hm
  exact ⟨n, table, hn, hKeeps.imports table hTable, rfl⟩

theorem Keeps.settled (h : s.Keeps t) (hid : s.Settled id) : t.Settled id := by
  obtain ⟨m, hm, hSettled⟩ := hid
  obtain ⟨n, hn, hKeeps⟩ := h.static id m hm
  exact ⟨n, hn, hKeeps.settled hSettled⟩

/-- What is no static module leads to no other module. -/
theorem bound_of_not_static (hid : s.static? id = none) : s.Bound id := by
  intro j hLeads m hm
  rcases Relation.ReflTransGen.cases_head hLeads with rfl | ⟨i, ⟨n, _, hn, -⟩, -⟩
  · rw [hid] at hm
    cases hm
  · rw [hid] at hn
    cases hn

/-- The module is in the session, and its imports are bound or it is among the found ones. -/
def Covered (s : Session σ) (found : List ModuleId) (id : ModuleId) : Prop :=
  (∃ n, s.module? id = some n) ∧ (s.Bound id ∨ id ∈ found)

/-- The imports of some of the found modules are bound, and cover what they are bound to. -/
def Closes (s : Session σ) (ids found : List ModuleId) : Prop :=
  ∀ id ∈ ids, ∃ imports, s.HasImports id imports ∧ ∀ j ∈ imports, s.Covered found j

/-- A link in its search: the modules that it has found are static, and they are all that were seen. -/
structure Searching (s : Session σ) (found : List ModuleId) (f : Frontier) : Prop where
  static : ∀ id ∈ found ++ f.modules, ∃ m, s.static? id = some m
  seen : ∀ url ∈ f.seen, ∃ id ∈ found ++ f.modules, s.cache.get? url = some id

/-- The module is static, and all is bound that it needs to be linked. -/
def IsReady (s : Session σ) (id : ModuleId) : Prop :=
  (∃ m, s.static? id = some m) ∧ s.Bound id

/-- What a link leaves behind at its root. -/
structure IsDone (s : Session σ) (root : ModuleId) : Prop where
  module : ∃ n, s.module? root = some n
  bound : s.Bound root
  settled : ∀ m, s.static? root = some m → s.Settled root

theorem HasImports.module {imports : List ModuleId} (h : s.HasImports id imports)
    (hs : s.Consistent) (hj : j ∈ imports) : ∃ n, s.module? j = some n := by
  obtain ⟨m, table, hm, hTable, rfl⟩ := h
  exact hs.tables id m table hm hTable j hj

theorem Covered.mono {found found' : List ModuleId} (h : s.Covered found id) (hSub : found ⊆ found') :
    s.Covered found' id :=
  ⟨h.1, h.2.imp_right fun hid => hSub hid⟩

theorem Keeps.covered {found : List ModuleId} (h : s.Keeps t) (hs : s.Consistent)
    (hid : s.Covered found id) : t.Covered found id := by
  obtain ⟨⟨n, hn⟩, hCase⟩ := hid
  obtain ⟨n', hn', -⟩ := h.module id n hn
  exact ⟨⟨n', hn'⟩, hCase.imp_left (h.bound hs hn)⟩

theorem IsReady.later (hid : s.IsReady id) (h : s.Keeps t) (hs : s.Consistent) : t.IsReady id := by
  obtain ⟨⟨m, hm⟩, hBound⟩ := hid
  obtain ⟨n, hn, -⟩ := h.static id m hm
  exact ⟨⟨n, hn⟩, h.bound hs (static?_eq_some_iff.1 hm) hBound⟩

theorem IsDone.later (hid : s.IsDone id) (h : s.Keeps t) (hs : s.Consistent) : t.IsDone id := by
  obtain ⟨⟨k, hk⟩, hBound, hSettled⟩ := hid
  obtain ⟨k', hk', -⟩ := h.module id k hk
  refine ⟨⟨k', hk'⟩, h.bound hs hk hBound, fun n hn => h.settled ?_⟩
  obtain ⟨m, hm, -⟩ := h.static?_of_module hk hn
  exact hSettled m hm

/-- Where nothing is left to search, the found modules lead to bound ones. -/
theorem Closes.bound_or_mem {found : List ModuleId} (h : s.Closes found found) (hid : id ∈ found)
    (hLeads : s.Leads id j) : s.Bound j ∨ j ∈ found := by
  induction hLeads with
  | refl => exact .inr hid
  | @tail i j _ hImports ih =>
    rcases ih with hBound | hi
    · exact .inl fun k hk => hBound k (.head hImports hk)
    · obtain ⟨_, ⟨m, table, hm, hTable, rfl⟩, hCovered⟩ := h i hi
      exact (hCovered j (hImports.mem_values hm hTable)).2

theorem Closes.isReady {found : List ModuleId} (h : s.Closes found found) (hid : id ∈ found) :
    s.IsReady id := by
  obtain ⟨_, ⟨m, _, hm, -⟩, -⟩ := h id hid
  refine ⟨⟨m, hm⟩, fun j hLeads n hn => ?_⟩
  rcases h.bound_or_mem hid hLeads with hBound | hj
  · exact hBound j .refl n hn
  · obtain ⟨_, ⟨n', table, hn', hTable, -⟩, -⟩ := h j hj
    rw [hn] at hn'
    cases hn'
    simp [hTable]

namespace Searching

variable {found : List ModuleId} {f g : Frontier}

theorem later (h : s.Searching found f) (hKeeps : s.Keeps t) : t.Searching found f := by
  refine ⟨fun i hi => ?_, fun url hUrl => ?_⟩
  · obtain ⟨m, hm⟩ := h.static i hi
    obtain ⟨n, hn, -⟩ := hKeeps.static i m hm
    exact ⟨n, hn⟩
  · obtain ⟨i, hi, hGet⟩ := h.seen url hUrl
    exact ⟨i, hi, hKeeps.cache url i hGet⟩

/-- Each module that is met is covered, or joins the frontier. -/
theorem add (h : s.Searching found f) (hs : s.Consistent) {n : Module}
    (hn : s.module? id = some n) (hAdd : f.add s id = .ok g) :
    s.Searching found g ∧ s.Covered (found ++ g.modules) id := by
  rcases Frontier.add_cases hAdd with ⟨rfl, hSkip⟩ | ⟨m, hm, -, -, rfl⟩
  · refine ⟨h, ⟨n, hn⟩, ?_⟩
    cases hm : s.static? id with
    | none => exact .inl (bound_of_not_static hm)
    | some m =>
      rcases hSkip m hm with hLinked | hSeen
      · exact .inl (hs.linked id m hm hLinked)
      · -- The module that was seen under this URL is this module.
        obtain ⟨i, hi, hGet⟩ := h.seen m.url hSeen
        have hSame : s.cache.get? m.url = some id := hs.cached id _ (static?_eq_some_iff.1 hm)
        rw [hGet] at hSame
        cases hSame
        exact .inr hi
  · have hMem : id ∈ found ++ (f.modules ++ [id]) := by simp
    refine ⟨⟨fun i hi => ?_, fun url hUrl => ?_⟩, ⟨n, hn⟩, .inr hMem⟩
    · rw [← List.append_assoc, List.mem_append, List.mem_singleton] at hi
      rcases hi with hi | rfl
      · exact h.static i hi
      · exact ⟨m, hm⟩
    · rcases List.mem_append.1 hUrl with hUrl | hUrl
      · obtain ⟨i, hi, hGet⟩ := h.seen url hUrl
        rw [← List.append_assoc]
        exact ⟨i, List.mem_append_left _ hi, hGet⟩
      · rw [List.mem_singleton.1 hUrl]
        exact ⟨id, hMem, hs.cached id _ (static?_eq_some_iff.1 hm)⟩

end Searching

theorem Frontier.prefix_of_add {s : Session σ} {f g : Frontier} {id : ModuleId}
    (h : f.add s id = .ok g) : f.modules <+: g.modules := by
  rcases Frontier.add_cases h with ⟨rfl, -⟩ | ⟨m, -, -, -, rfl⟩
  · exact List.prefix_refl _
  · exact List.prefix_append _ _

end Session

theorem StaticModule.settled_finishLinking (m : StaticModule) :
    m.finishLinking.linking = .linked ∨ m.finishLinking.linking = .errored := by
  cases hLinking : m.linking <;> simp [finishLinking, hLinking]

open Session

namespace Session.Shared

open ModuleLoader.Task Course

variable {env : Environment σ} {id root : ModuleId}

theorem act_changeStatic {f : StaticModule → StaticModule}
    (hEdit : ∀ m, h.now.state.static? id = some m → m.Edit id none f)
    (hLinked : ∀ m, h.now.state.static? id = some m → (f m).linking = .linked →
      m.linking = .linked ∨ h.now.state.Bound id) :
    rules.Act none h (h.now.move (h.now.state.updateStatic id f)) := by
  cases hm : h.now.state.static? id with
  | none =>
    rw [updateStatic_of_fixed fun n hn => by cases hm.symm.trans hn]
    exact Act.now h
  | some m =>
    refine Act.update hm (hEdit m hm) (fun table hTable => .inl ?_) (hLinked m hm)
    rw [← (hEdit m hm).imports_eq (by simp), hTable]

theorem act_beginLinking (id : ModuleId) :
    rules.Act none h (h.now.move (h.now.state.updateStatic id .beginLinking)) := by
  refine act_changeStatic (fun _ _ => .beginLinking) fun m _ hLinked => .inl ?_
  unfold StaticModule.beginLinking at hLinked
  split at hLinked
  · cases hLinked
  · exact hLinked

theorem act_failLinking (id : ModuleId) (e : LoadError) :
    rules.Act none h (h.now.move (h.now.state.updateStatic id (·.failLinking e))) :=
  act_changeStatic (fun _ _ => .failLinking) fun _ _ hLinked => by cases hLinked

theorem meets_failLinking (id : ModuleId) (e : LoadError) :
    Meets own (fun _ _ => True) (changeStatic id (·.failLinking e)) h :=
  fun _ _ => ⟨act_failLinking id e, fun _ _ => trivial⟩

theorem act_asked (id : ModuleId) : rules.Act none h (h.now.hear (.asked id)) :=
  Act.hear (by trivial)

theorem meets_importTable (m : StaticModule) (hh : h.now.state.Consistent) :
    Meets own (fun table k => k.now.state.IsTable table) (importTable env m) h := by
  refine meets_forAll (fun specifier id k => k.now.Means specifier m.url id)
    (fun specifier _ => meets_moduleFor specifier m.url hh) fun ids k hk hIds => ?_
  refine meets_pure fun j hj => (precedes_of_passes hj).keeps.isTable fun id hid => ?_
  obtain ⟨entry, hEntry, rfl⟩ := List.mem_map.1 hid
  obtain ⟨r, -, hGet⟩ := List.forall₂_zip hIds (OrderedMap.mem_of_mem_entries_ofList hEntry)
  have hValid : k.now.state.Consistent := hk.valid (R := rules) hh
  obtain ⟨n, hn, -⟩ := hValid.stored _ _ hGet
  exact ⟨n, hn⟩

/-- The imports of a module that has begun to be linked are bound once. -/
theorem meets_binding {m : StaticModule} (hh : h.now.state.Consistent)
    (hBegun : ∃ n, h.now.state.static? id = some n ∧ n.linking ≠ .unlinked) :
    Meets own (fun table k => ∃ n, k.now.state.static? id = some n ∧ n.imports = some table)
      (within (binding id) (importTable env m)) h := by
  have hBegunAt : ∀ {own : Place → Prop} {k : Course σ}, rules.Passes own h k →
      ∃ n, k.now.state.static? id = some n ∧ n.linking ≠ .unlinked := by
    intro own k hk
    obtain ⟨n, hn, hLinking⟩ := hBegun
    obtain ⟨n', hn', hKeeps⟩ := (precedes_of_passes hk).keeps.static id n hn
    exact ⟨n', hn', hKeeps.begun hLinking⟩
  refine meets_within ?_ ?_ ?_ ?_
  · rintro table k j ⟨n, hn, hTable⟩ hj
    obtain ⟨n', hn', hKeeps⟩ := (precedes_of_passes hj).keeps.static id n hn
    exact ⟨n', hn', hKeeps.imports table hTable⟩
  · intro k table hk hSkip
    obtain ⟨table', hTable, hEq⟩ := Option.map_eq_some_iff.1 hSkip
    cases hEq
    obtain ⟨n, hn, hImports⟩ := Option.bind_eq_some_iff.1 hTable
    exact ⟨n, hn, hImports⟩
  · exact fun k hk hSkip hExclusive => by cases hExclusive
  · intro k hk hSkip
    obtain ⟨n, hn, hLinking⟩ := hBegunAt hk
    have hUnbound : n.imports = none := by
      have hNone : (k.now.state.static? id).bind StaticModule.imports = none :=
        Option.map_eq_none_iff.1 hSkip
      simpa [hn] using hNone
    refine ⟨Act.now k, ⟨n, hn, hUnbound, hLinking⟩, ?_,
      fun e j hj _ => ⟨Act.close _, by simp [binding]⟩⟩
    have hValid : (k.next k.now).now.state.Consistent := hk.valid (R := rules) hh
    refine (meets_importTable m hValid).mono fun table j hTable hKept => ?_
    obtain ⟨n, hn, hUnbound, hLinking⟩ := hKept
    have hBound : (n.bindImports table).imports = some table := by
      simp [StaticModule.bindImports, hUnbound]
    refine ⟨Act.update hn (.bindImports hUnbound hLinking) ?_ fun hLinked => .inl hLinked, ?_⟩
    · intro table' hTable'
      rw [hBound] at hTable'
      cases hTable'
      exact .inr hTable
    · intro table' hTable'
      cases hTable'
      exact ⟨_, static?_updateStatic_self hn _, hBound⟩

theorem meets_bindImportsOf (hh : h.now.state.Consistent)
    (hStatic : ∃ m, h.now.state.static? id = some m) :
    Meets own (fun imports k => k.now.state.HasImports id imports) (bindImportsOf env id) h := by
  refine meets_modify fun k hk => ⟨act_beginLinking id, meets_get fun j hj => ?_⟩
  have hValid : k.now.state.Consistent := hk.valid (R := rules) hh
  have hBegun : ∃ n, j.now.state.static? id = some n ∧ n.linking ≠ .unlinked := by
    obtain ⟨m, hm⟩ := hStatic
    obtain ⟨n, hn, -⟩ := (precedes_of_passes hk).keeps.static id m hm
    have hBegin : (k.now.state.updateStatic id .beginLinking).static? id = some n.beginLinking :=
      static?_updateStatic_self hn _
    obtain ⟨n', hn', hKeeps⟩ := (precedes_of_passes hj).keeps.static id _ hBegin
    refine ⟨n', hn', hKeeps.begun ?_⟩
    unfold StaticModule.beginLinking
    split
    · simp
    · assumption
  obtain ⟨n, hn, hLinking⟩ := hBegun
  simp only [hn]
  have hValid' : j.now.state.Consistent :=
    hj.valid (R := rules) (rules.valid_next hValid (.inl (act_beginLinking id)))
  refine meets_tell fun l hl => ⟨act_asked id, ?_⟩
  obtain ⟨n', hn', hKeeps⟩ := (precedes_of_passes hl).keeps.static id n hn
  have hValid'' : l.now.state.Consistent := hl.valid (R := rules) hValid'
  refine meets_bind ((meets_onFailure
    (meets_binding (h := l.next (l.now.hear (.asked id))) hValid'' ⟨n', hn', hKeeps.begun hLinking⟩)
    ?_ ?_).mono ?_)
  · rintro table i i' ⟨n, hn, hTable⟩ hi
    obtain ⟨n', hn', hKeeps⟩ := (precedes_of_passes hi).keeps.static id n hn
    exact ⟨n', hn', hKeeps.imports table hTable⟩
  · exact fun e i _ => meets_failLinking id e
  · rintro table i ⟨n, hn, hTable⟩
    exact meets_pure fun i' hi => (precedes_of_passes hi).keeps.hasImports ⟨n, table, hn, hTable, rfl⟩

/-- A link goes on with a module that is bound as an import, if that is to be linked. -/
theorem meets_meet {found : List ModuleId} {f : Frontier} (hh : h.now.state.Consistent)
    (hf : h.now.state.Searching found f) (hid : ∃ n, h.now.state.module? id = some n) :
    Meets own (fun g k => k.now.state.Searching found g ∧ f.modules <+: g.modules ∧
      k.now.state.Covered (found ++ g.modules) id) (meet f id) h := by
  refine meets_get fun k hk => ?_
  have hKeeps := (precedes_of_passes hk).keeps
  have hValid : k.now.state.Consistent := hk.valid (R := rules) hh
  cases hAdd : f.add k.now.state id with
  | error e => exact meets_get fun _ _ => meets_throw
  | ok g =>
    obtain ⟨n, hn, -⟩ : ∃ n', k.now.state.module? id = some n' ∧ _ :=
      hKeeps.module id hid.choose hid.choose_spec
    obtain ⟨hSearching, hCovered⟩ := (hf.later hKeeps).add hValid hn hAdd
    refine meets_pure fun j hj => ?_
    have hKeeps' := (precedes_of_passes hj).keeps
    exact ⟨hSearching.later hKeeps', Frontier.prefix_of_add hAdd, hKeeps'.covered hValid hCovered⟩

theorem meets_foldlM_meet {found imports : List ModuleId} {f : Frontier}
    (hh : h.now.state.Consistent) (hf : h.now.state.Searching found f)
    (hImports : ∀ id ∈ imports, ∃ n, h.now.state.module? id = some n) :
    Meets own (fun g k => k.now.state.Searching found g ∧ f.modules <+: g.modules ∧
      ∀ id ∈ imports, k.now.state.Covered (found ++ g.modules) id) (imports.foldlM meet f) h := by
  induction imports generalizing f h with
  | nil =>
    refine meets_pure fun k hk => ⟨hf.later (precedes_of_passes hk).keeps, List.prefix_refl _, ?_⟩
    simp
  | cons id rest ih =>
    rw [List.foldlM_cons]
    refine meets_bind ((meets_meet hh hf (hImports id (by simp))).reach_mono ?_)
    rintro g k hk ⟨hSearching, hPrefix, hCovered⟩
    have hValid : k.now.state.Consistent := hk.valid (R := rules) hh
    have hRest : ∀ j ∈ rest, ∃ n, k.now.state.module? j = some n := by
      intro j hj
      obtain ⟨n, hn⟩ := hImports j (List.mem_cons_of_mem _ hj)
      obtain ⟨n', hn', -⟩ := (precedes_of_passes hk).keeps.module j n hn
      exact ⟨n', hn'⟩
    refine (ih hValid hSearching hRest).reach_mono ?_
    rintro g' j hj ⟨hSearching', hPrefix', hCovered'⟩
    refine ⟨hSearching', hPrefix.trans hPrefix', ?_⟩
    rw [List.forall_mem_cons]
    refine ⟨((precedes_of_passes hj).keeps.covered hValid hCovered).mono ?_, hCovered'⟩
    exact ((List.prefix_append_right_inj found).2 hPrefix').subset

/-- When no module is left on the frontier, nothing is left to bind. -/
theorem meets_linkRounds {found : List ModuleId} {f : Frontier} (fuel : Nat)
    (hh : h.now.state.Consistent) (hf : h.now.state.Searching found f)
    (hFound : h.now.state.Closes found (found ++ f.modules)) :
    Meets own (fun visited k => f.modules ⊆ visited ∧
      ∀ id ∈ found ++ visited, k.now.state.IsReady id) (linkRounds env fuel f) h := by
  -- Each round binds the imports of its frontier.  These modules join the found ones, whose imports
  -- are covered by what is found and by the next frontier.
  induction fuel generalizing found f h with
  | zero => trivial
  | succ fuel ih =>
    rw [linkRounds]
    split
    · next hEmpty =>
      rw [List.isEmpty_iff] at hEmpty
      refine meets_pure fun k hk => ⟨by simp [hEmpty], fun id hid => ?_⟩
      rw [List.append_nil] at hid
      rw [hEmpty, List.append_nil] at hFound
      exact (hFound.isReady hid).later (precedes_of_passes hk).keeps hh
    · refine meets_forAll (fun id imports k => k.now.state.HasImports id imports)
        (fun id hid => meets_bindImportsOf hh (hf.static id (List.mem_append_right _ hid))) ?_
      intro imports k hk hBound
      have hKeeps := (precedes_of_passes hk).keeps
      have hValid : k.now.state.Consistent := hk.valid (R := rules) hh
      have hStart : k.now.state.Searching (found ++ f.modules) ⟨f.seen, []⟩ := by
        have hLater := hf.later hKeeps
        exact ⟨by simpa using hLater.static, by simpa using hLater.seen⟩
      have hModules : ∀ id ∈ imports.flatten, ∃ n, k.now.state.module? id = some n := by
        intro id hid
        obtain ⟨ids, hIds, hid⟩ := List.mem_flatten.1 hid
        obtain ⟨i, -, hImports⟩ := exists_of_forall₂ hBound.flip ids hIds
        exact HasImports.module hImports hValid hid
      refine meets_bind ((meets_foldlM_meet hValid hStart hModules).reach_mono ?_)
      rintro g j hj ⟨hSearching, -, hCovered⟩
      have hKeeps' := (precedes_of_passes hj).keeps
      have hValid' : j.now.state.Consistent := hj.valid (R := rules) hValid
      have hClosed : j.now.state.Closes (found ++ f.modules) (found ++ f.modules ++ g.modules) := by
        intro id hid
        rcases List.mem_append.1 hid with hid | hid
        · obtain ⟨ids, hImports, hIds⟩ := hFound id hid
          refine ⟨ids, (hKeeps.trans hKeeps').hasImports hImports, fun i hi => ?_⟩
          exact ((hKeeps.trans hKeeps').covered hh (hIds i hi)).mono (List.subset_append_left _ _)
        · obtain ⟨ids, hIds, hImports⟩ := exists_of_forall₂ hBound id hid
          refine ⟨ids, hKeeps'.hasImports hImports, fun i hi => hCovered i ?_⟩
          exact List.mem_flatten.2 ⟨ids, hIds, hi⟩
      refine meets_bind ((ih hValid' hSearching hClosed).reach_mono ?_)
      rintro rest i hi ⟨-, hReady⟩
      have hValid'' : i.now.state.Consistent := hi.valid (R := rules) hValid'
      refine meets_pure fun i' hi' => ⟨List.subset_append_left _ _, fun id hid => ?_⟩
      rw [← List.append_assoc] at hid
      exact (hReady id hid).later (precedes_of_passes hi').keeps hValid''

/-- The modules that a link has visited are finished one after another. -/
theorem meets_finishAll {visited : List ModuleId} (hh : h.now.state.Consistent)
    (hReady : ∀ id ∈ visited, h.now.state.IsReady id) :
    Meets own (fun _ k => ∀ id ∈ visited, k.now.state.Settled id)
      (visited.forM fun id => changeStatic id .finishLinking) h := by
  induction visited generalizing h with
  | nil => exact meets_pure fun _ _ => by simp
  | cons id rest ih =>
    refine meets_modify fun k hk => ?_
    have hValid : k.now.state.Consistent := hk.valid (R := rules) hh
    have hReady' : ∀ i ∈ id :: rest, k.now.state.IsReady i := fun i hi =>
      (hReady i hi).later (precedes_of_passes hk).keeps hh
    obtain ⟨⟨m, hm⟩, hBound⟩ := hReady' id (by simp)
    have hAct : rules.Act none k (k.now.move (k.now.state.updateStatic id .finishLinking)) :=
      act_changeStatic (fun _ _ => .finishLinking) fun _ _ _ => .inr hBound
    have hKeeps : k.now.state.Keeps (k.now.state.updateStatic id .finishLinking) := Act.keeps hAct
    have hSettled : (k.now.state.updateStatic id .finishLinking).Settled id :=
      ⟨_, static?_updateStatic_self hm _, m.settled_finishLinking⟩
    refine ⟨hAct, (ih (rules.valid_next hValid (.inl hAct)) fun i hi => ?_).reach_mono
      fun _ j hj hRest => ?_⟩
    · exact (hReady' i (List.mem_cons_of_mem _ hi)).later hKeeps hValid
    · rw [List.forall_mem_cons]
      exact ⟨(precedes_of_passes hj).keeps.settled hSettled, hRest⟩

/-- When a link ends well, the imports of all modules to which its root leads are bound. -/
theorem meets_link {fuel : Nat} (hh : h.now.state.Consistent)
    (hRoot : ∃ n, h.now.state.module? root = some n) :
    Meets own (fun _ k => k.now.state.IsDone root) (link env fuel root) h := by
  have hLater : ∀ {k j : Course σ}, rules.Passes own h k → rules.Passes own k j →
      k.now.state.IsDone root → j.now.state.IsDone root := fun hk hj hDone =>
    hDone.later (precedes_of_passes hj).keeps (hk.valid (R := rules) hh)
  refine meets_get fun k hk => ?_
  have hKeeps := (precedes_of_passes hk).keeps
  have hValid : k.now.state.Consistent := hk.valid (R := rules) hh
  obtain ⟨n, hn⟩ := hRoot
  obtain ⟨n, hn, -⟩ := hKeeps.module root n hn
  cases hm : k.now.state.static? root with
  | none =>
    refine meets_pure fun j hj => hLater hk hj ⟨⟨n, hn⟩, bound_of_not_static hm, fun m hm' => ?_⟩
    rw [hm] at hm'
    cases hm'
  | some m =>
    have hSearch : Meets own (fun _ j => j.now.state.IsDone root) (do
        let visited ← (linkRounds env fuel ⟨[m.url], [root]⟩).onFailure fun e =>
          changeStatic root (·.failLinking e)
        visited.forM fun id => changeStatic id .finishLinking) k := by
      have hStart : k.now.state.Searching [] ⟨[m.url], [root]⟩ := by
        refine ⟨by simp [hm], ?_⟩
        have hCached : k.now.state.cache.get? m.url = some root :=
          hValid.cached root _ (static?_eq_some_iff.1 hm)
        simpa using hCached
      have hRounds : Meets own (fun visited i => i.now.state.Consistent ∧ root ∈ visited ∧
          ∀ id ∈ visited, i.now.state.IsReady id) (linkRounds env fuel ⟨[m.url], [root]⟩) k := by
        refine (meets_linkRounds fuel hValid hStart (by simp [Closes])).reach_mono ?_
        rintro visited i hi ⟨hSubset, hReady⟩
        exact ⟨hi.valid (R := rules) hValid, hSubset (by simp), hReady⟩
      refine meets_bind ((meets_onFailure hRounds ?_ fun e _ _ => meets_failLinking root e).mono ?_)
      · rintro visited i j ⟨hi, hMem, hReady⟩ hj
        exact ⟨hj.valid (R := rules) hi, hMem, fun id hid =>
          (hReady id hid).later (precedes_of_passes hj).keeps hi⟩
      · rintro visited i ⟨hi, hMem, hReady⟩
        refine (meets_finishAll hi hReady).reach_mono fun _ j hj hSettled => ?_
        obtain ⟨⟨n, hn⟩, hBound⟩ := (hReady root hMem).later (precedes_of_passes hj).keeps hi
        exact ⟨⟨_, static?_eq_some_iff.1 hn⟩, hBound, fun _ _ => hSettled root hMem⟩
    dsimp only
    split
    · next hLinking =>
      refine meets_pure fun j hj => hLater hk hj ⟨⟨n, hn⟩, hValid.linked root m hm hLinking, ?_⟩
      exact fun _ _ => ⟨m, hm, .inl hLinking⟩
    · exact meets_get fun _ _ => meets_throw
    · exact hSearch
    · exact hSearch

end Session.Shared

end ModuleLoader
