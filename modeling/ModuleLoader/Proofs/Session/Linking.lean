import ModuleLoader.Proofs.Session.Binding

/-! Linking.  `Exploring` relates a session in the middle of a link to the modules that have been
visited and to the frontier, and says at the end that the imports of all visited modules are
closed.  A link that ends leaves its root linked or failed, and changes no module that was linked
before. -/

namespace ModuleLoader

variable {σ : Type} {x y : Instant σ} {stuck : Instant σ → Prop}

namespace Session

def NotLinked (s : Session σ) (id : ModuleId) : Prop :=
  ∀ m, s.static? id = some m → m.linking ≠ .linked

theorem IsOpen.notLinked {s : Session σ} {id : ModuleId} (h : s.IsOpen id) : s.NotLinked id := by
  obtain ⟨m, hm, hOpen⟩ := h
  intro n hn hLinked
  rw [hm] at hn
  cases hn
  rcases hOpen with hOpen | hOpen <;> exact absurd (hOpen.symm.trans hLinked) (by decide)

theorem IsBound.isOpen {s : Session σ} {id : ModuleId} {imports : List ModuleId}
    (h : s.IsBound id imports) : s.IsOpen id := by
  obtain ⟨m, -, hm, hLinking, -⟩ := h
  exact ⟨m, hm, .inr hLinking⟩

end Session

open Session

theorem Moment.Later.notLinked (h : x.Later y) {id : ModuleId} (hid : y.state.NotLinked id) :
    x.state.NotLinked id := by
  intro m hm hLinked
  obtain ⟨n, hn, hGrows⟩ := h.static id m hm
  exact hid n hn (hGrows.linked hLinked)

theorem Moment.Extends.isBound {may : ModuleId → Prop} (h : x.Extends may y) {id : ModuleId}
    {imports : List ModuleId} (hMay : ¬may id) (hid : x.state.IsBound id imports) :
    y.state.IsBound id imports := by
  obtain ⟨m, table, hm, hBound⟩ := hid
  exact ⟨m, table, h.static? hMay hm, hBound⟩

theorem Change.extends {id : ModuleId} {f : StaticModule → StaticModule}
    (h : Change x (x.move (x.state.updateStatic id f))) (hx : x.Lawful) :
    x.Extends (· = id) (x.move (x.state.updateStatic id f)) :=
  ⟨⟨fun j m hj hm => by simp [Ne.symm hj, hm], rfl⟩, h.lawful hx, h.later hx⟩

namespace Session

/-- The open modules of a list are bound together, or one of them fails. -/
theorem meets_frontier (env : Environment σ) {ids : List ModuleId} (hx : x.Lawful)
    (hOpen : ∀ id ∈ ids, x.state.IsOpen id) (hNodup : ids.Nodup) :
    (inTurns env (Task.forAll ids (Shared.bindImportsOf env))).Meets Change stuck
      (fun e y => x.Extends (· ∈ ids) y ∧ ∃ id ∈ ids, y.state.HasFailed id e)
      (fun imports y => x.Extends (· ∈ ids) y ∧ List.Forall₂ y.state.IsBound ids imports) x := by
  have hRound := (meets_round env hOpen hNodup).invariant (x.Extends (· ∈ ids)) (.refl hx)
    fun y z ⟨_, l, hStep⟩ hy =>
      hy.trans ⟨hStep.frame, hStep.change.lawful hy.lawful, hStep.change.later hy.lawful⟩
  refine hRound.mono (fun y z ⟨_, l, hStep⟩ => hStep.change) (fun _ hy => hy.1.elim) ?_ ?_
  · exact fun e y ⟨hFailed, hy⟩ => ⟨hy, hFailed⟩
  · exact fun imports y ⟨hBound, hy⟩ => ⟨hy, hBound.imp fun _ _ hValues => hValues.bound⟩

theorem exists_imports {s : Session σ} {ids : List ModuleId} {imports : List (List ModuleId)}
    (h : List.Forall₂ s.IsBound ids imports) :
    ∀ j ∈ imports.flatten, ∃ id ∈ ids, s.Imports id j := by
  induction h with
  | nil => simp
  | cons hHead _ ih =>
    intro j hj
    rw [List.flatten_cons, List.mem_append] at hj
    rcases hj with hj | hj
    · obtain ⟨m, table, hm, -, hTable, rfl⟩ := hHead
      exact ⟨_, List.mem_cons_self, m, table, hm, hTable, hj⟩
    · obtain ⟨id, hid, hImports⟩ := ih j hj
      exact ⟨id, List.mem_cons_of_mem _ hid, hImports⟩

structure Frontier.Follows (s : Session σ) (f : Frontier) (imports : List ModuleId)
    (g : Frontier) : Prop where
  imported : ∀ id ∈ g.modules, id ∈ imports
  isOpen : ∀ id ∈ g.modules, s.IsOpen id
  fresh : ∀ id ∈ g.modules, ∀ m, s.static? id = some m → m.url ∉ f.seen
  nodup : g.modules.Nodup
  seen : ∀ url, url ∈ g.seen ↔
    url ∈ f.seen ∨ ∃ id ∈ g.modules, ∃ m, s.static? id = some m ∧ m.url = url
  covered : ∀ id ∈ imports, ∀ m, s.static? id = some m → m.linking = .linked ∨ m.url ∈ g.seen

theorem Frontier.add_cases {s : Session σ} {f g : Frontier} {id : ModuleId}
    (h : f.add s id = .ok g) :
    (g = f ∧ ∀ m, s.static? id = some m → m.linking = .linked ∨ m.url ∈ f.seen) ∨
      ∃ m, s.static? id = some m ∧ s.IsOpen id ∧ m.url ∉ f.seen ∧
        g = ⟨f.seen ++ [m.url], f.modules ++ [id]⟩ := by
  unfold Frontier.add at h
  cases hm : s.static? id with
  | none =>
    rw [hm] at h
    cases h
    exact .inl ⟨rfl, by simp⟩
  | some m =>
    have hOpen : (m.linking = .unlinked ∨ m.linking = .linking) →
        (if m.url ∈ f.seen then Except.ok f else .ok ⟨f.seen ++ [m.url], f.modules ++ [id]⟩) =
          (.ok g : Except LoadError Frontier) →
        (g = f ∧ ∀ n, some m = some n → n.linking = .linked ∨ n.url ∈ f.seen) ∨
          ∃ n, some m = some n ∧ s.IsOpen id ∧ n.url ∉ f.seen ∧
            g = ⟨f.seen ++ [n.url], f.modules ++ [id]⟩ := by
      intro hLinking h
      split at h
      · next hSeen =>
        cases h
        exact .inl ⟨rfl, fun n hn => by cases hn; exact .inr hSeen⟩
      · next hFresh =>
        cases h
        exact .inr ⟨m, rfl, ⟨m, hm, hLinking⟩, hFresh, rfl⟩
    simp only [hm] at h
    cases hLinking : m.linking with
    | unlinked => exact hOpen (.inl hLinking) (by simpa [hLinking] using h)
    | linking => exact hOpen (.inr hLinking) (by simpa [hLinking] using h)
    | linked =>
      simp only [hLinking, Except.ok.injEq] at h
      exact .inl ⟨h.symm, fun n hn => by cases hn; exact .inl hLinking⟩
    | errored => simp [hLinking] at h

theorem Frontier.error_of_add {s : Session σ} {f : Frontier} {id : ModuleId} {e : LoadError}
    (h : f.add s id = .error e) : ∃ m, s.static? id = some m ∧ m.linking = .errored := by
  unfold Frontier.add at h
  cases hm : s.static? id with
  | none => simp [hm] at h
  | some m =>
    simp only [hm] at h
    split at h
    · cases h
    · next hLinking => exact ⟨m, rfl, hLinking⟩
    · split at h <;> cases h
    · split at h <;> cases h

theorem Frontier.next_append (s : Session σ) (f : Frontier) (imports : List ModuleId)
    (id : ModuleId) : f.next s (imports ++ [id]) = (f.next s imports).bind (Frontier.add s · id) := by
  unfold Frontier.next
  rw [List.foldlM_append]
  simp only [List.foldlM_cons, List.foldlM_nil]
  cases List.foldlM (Frontier.add s) { seen := f.seen, modules := [] } imports with
  | error e => rfl
  | ok g => cases hAdd : Frontier.add s g id <;> simp [bind, Except.bind, pure, Except.pure, hAdd]

theorem Frontier.Follows.skip {s : Session σ} {f g : Frontier} {imports : List ModuleId}
    {id : ModuleId} (h : Frontier.Follows s f imports g)
    (hCovered : ∀ m, s.static? id = some m → m.linking = .linked ∨ m.url ∈ g.seen) :
    Frontier.Follows s f (imports ++ [id]) g := by
  refine ⟨fun j hj => ?_, h.isOpen, h.fresh, h.nodup, h.seen, fun j hj => ?_⟩
  · exact List.mem_append_left _ (h.imported j hj)
  · rcases List.mem_append.1 hj with hj | hj
    · exact h.covered j hj
    · rw [List.mem_singleton.1 hj]
      exact hCovered

theorem Frontier.Follows.add {s : Session σ} {f g : Frontier} {imports : List ModuleId}
    {id : ModuleId} {m : StaticModule} (h : Frontier.Follows s f imports g)
    (hm : s.static? id = some m) (hOpen : s.IsOpen id) (hFresh : m.url ∉ g.seen) :
    Frontier.Follows s f (imports ++ [id]) ⟨g.seen ++ [m.url], g.modules ++ [id]⟩ := by
  have hNot : id ∉ g.modules := fun hid => hFresh ((h.seen m.url).2 (.inr ⟨id, hid, m, hm, rfl⟩))
  constructor
  · intro j hj
    rcases List.mem_append.1 hj with hj | hj
    · exact List.mem_append_left _ (h.imported j hj)
    · exact List.mem_append_right _ hj
  · intro j hj
    rcases List.mem_append.1 hj with hj | hj
    · exact h.isOpen j hj
    · rw [List.mem_singleton.1 hj]
      exact hOpen
  · intro j hj n hn hSeen
    rcases List.mem_append.1 hj with hj | hj
    · exact h.fresh j hj n hn hSeen
    · rw [List.mem_singleton.1 hj, hm] at hn
      cases hn
      exact hFresh ((h.seen m.url).2 (.inl hSeen))
  · rw [List.nodup_append]
    refine ⟨h.nodup, by simp, ?_⟩
    intro a ha b hb hEq
    rw [hEq, List.mem_singleton.1 hb] at ha
    exact hNot ha
  · intro url
    rw [List.mem_append, h.seen, or_assoc]
    refine or_congr_right ⟨?_, ?_⟩
    · rintro (⟨j, hj, n, hn, hUrl⟩ | hUrl)
      · exact ⟨j, List.mem_append_left _ hj, n, hn, hUrl⟩
      · exact ⟨id, by simp, m, hm, (List.mem_singleton.1 hUrl).symm⟩
    · rintro ⟨j, hj, n, hn, hUrl⟩
      rcases List.mem_append.1 hj with hj | hj
      · exact .inl ⟨j, hj, n, hn, hUrl⟩
      · rw [List.mem_singleton.1 hj, hm] at hn
        cases hn
        exact .inr (by simp [hUrl])
  · intro j hj n hn
    rcases List.mem_append.1 hj with hj | hj
    · exact (h.covered j hj n hn).imp_right fun hSeen => List.mem_append_left _ hSeen
    · rw [List.mem_singleton.1 hj, hm] at hn
      cases hn
      exact .inr (by simp)

theorem Frontier.next_follows {s : Session σ} {f g : Frontier} {imports : List ModuleId}
    (h : f.next s imports = .ok g) : Frontier.Follows s f imports g := by
  induction imports using List.reverseRecOn generalizing g with
  | nil =>
    cases h
    constructor <;> simp
  | append_singleton imports id ih =>
    rw [Frontier.next_append] at h
    cases hNext : f.next s imports with
    | error e =>
      rw [hNext] at h
      cases h
    | ok mid =>
      rw [hNext] at h
      have hMid := ih hNext
      rcases Frontier.add_cases h with ⟨rfl, hCovered⟩ | ⟨m, hm, hOpen, hFresh, rfl⟩
      · exact hMid.skip hCovered
      · exact hMid.add hm hOpen hFresh

theorem Frontier.error_of_next {s : Session σ} {f : Frontier} {imports : List ModuleId}
    {e : LoadError} (h : f.next s imports = .error e) :
    ∃ id ∈ imports, ∃ m, s.static? id = some m ∧ m.linking = .errored := by
  induction imports using List.reverseRecOn with
  | nil => cases h
  | append_singleton imports id ih =>
    rw [Frontier.next_append] at h
    cases hNext : f.next s imports with
    | error e' =>
      rw [hNext] at h
      cases h
      obtain ⟨j, hj, hErrored⟩ := ih hNext
      exact ⟨j, List.mem_append_left _ hj, hErrored⟩
    | ok mid =>
      rw [hNext] at h
      exact ⟨id, by simp, Frontier.error_of_add h⟩

/-- The modules on the frontier can be bound together. -/
structure Frontier.Ready (f : Frontier) (s : Session σ) : Prop where
  isOpen : ∀ id ∈ f.modules, s.IsOpen id
  nodup : f.modules.Nodup

theorem Frontier.Follows.ready {s : Session σ} {f g : Frontier} {imports : List ModuleId}
    (h : Frontier.Follows s f imports g) : g.Ready s := ⟨h.isOpen, h.nodup⟩

theorem Frontier.ready_singleton {s : Session σ} {root : ModuleId} {seen : List String}
    (hOpen : s.IsOpen root) : (⟨seen, [root]⟩ : Frontier).Ready s :=
  ⟨fun id hid => List.mem_singleton.1 hid ▸ hOpen, by simp⟩

/-- What one step of some round may do. -/
def RoundMove (env : Environment σ) (x y : Instant σ) : Prop :=
  ∃ start ids l, RoundStep env start (.all start ids) l x y

/-- What no step of a round ends holds when the rounds of a link are over. -/
theorem invariant_linkRounds {env : Environment σ} (fuel : Nat) {f : Frontier}
    (hf : f.Ready x.state) (inv : Instant σ → Prop) (hx : inv x)
    (hStep : ∀ y z, RoundMove env y z → inv y → inv z) :
    (linkRounds env fuel f).Meets (fun _ _ => True) (fun _ => True) (fun _ y => inv y)
      (fun _ y => inv y) x := by
  induction fuel generalizing x f with
  | zero => trivial
  | succ fuel ih =>
    unfold linkRounds
    split
    · exact hx
    · have hRound := (meets_round env hf.isOpen hf.nodup).invariant inv hx
        fun y z ⟨_, l, hStep'⟩ => hStep y z ⟨x, f.modules, l, hStep'⟩
      simp only [Action.meets_bind, Action.meets_get, Action.meets_pure]
      refine hRound.mono (fun _ _ _ => trivial) (fun _ _ => trivial) (fun _ _ hy => hy.2) ?_
      rintro imports y ⟨-, hy⟩
      refine ⟨trivial, ?_⟩
      cases hNext : f.next y.state imports.flatten with
      | error e => exact hy
      | ok g => exact (ih (Frontier.next_follows hNext).ready hy)

/-- What neither a step of a round nor the end of a link ends holds after a link. -/
theorem invariant_link {env : Environment σ} (fuel : Nat) (root : ModuleId) (inv : Instant σ → Prop)
    (hx : inv x) (hStep : ∀ y z, RoundMove env y z → inv y → inv z)
    (hFail : ∀ (y : Instant σ) id e, inv y → inv (y.move (y.state.updateStatic id (·.failLinking e))))
    (hFinish : ∀ (y : Instant σ) visited, inv y → inv (y.move (y.state.finishLinking visited))) :
    (link env fuel root).Meets (fun _ _ => True) (fun _ => True) (fun _ y => inv y)
      (fun _ y => inv y) x := by
  simp only [link, Action.meets_bind, Action.meets_get]
  refine ⟨trivial, ?_⟩
  cases hm : x.state.static? root with
  | none => exact hx
  | some m =>
    cases hLinking : m.linking with
    | linked =>
      simp only [hLinking]
      exact hx
    | errored =>
      simp only [hLinking]
      exact hx
    | unlinked | linking =>
      have hOpen : x.state.IsOpen root := ⟨m, hm, by simp [hLinking]⟩
      simp only [hLinking, Action.meets_bind, Action.meets_onFailure, changeStatic,
        Action.meets_modify]
      exact (invariant_linkRounds fuel (Frontier.ready_singleton hOpen) inv hx hStep).ends
        (fun e y hy => ⟨trivial, hFail y root e hy⟩) fun ids y hy => ⟨trivial, hFinish y ids hy⟩

/-- A link from `root` has visited modules and comes to a frontier. -/
structure Exploring (root : ModuleId) (visited : List ModuleId) (f : Frontier) (x : Instant σ) :
    Prop where
  /-- The imports of what was visited are linked, visited or on the frontier. -/
  bound : ∀ id ∈ visited, ∃ imports, x.state.IsBound id imports ∧
    ∀ j ∈ imports, ∀ n, x.state.static? j = some n →
      n.linking = .linked ∨ j ∈ visited ++ f.modules
  isOpen : ∀ id ∈ f.modules, x.state.IsOpen id
  seen : ∀ url, url ∈ f.seen ↔
    ∃ id ∈ visited ++ f.modules, ∃ m, x.state.static? id = some m ∧ m.url = url
  nodup : (visited ++ f.modules).Nodup
  reached : ∀ id ∈ visited ++ f.modules, x.state.Leads root id
  rooted : root ∈ visited ∨ f.modules = [root]

namespace Exploring

variable {root : ModuleId} {visited : List ModuleId} {f g : Frontier}

theorem start {m : StaticModule} (hm : x.state.static? root = some m)
    (hOpen : x.state.IsOpen root) : Exploring root [] ⟨[m.url], [root]⟩ x where
  bound := by simp
  isOpen id hid := by
    rw [List.mem_singleton.1 hid]
    exact hOpen
  seen url := by simp [hm, eq_comm]
  nodup := by simp
  reached id hid := by
    rw [List.mem_singleton.1 hid]
    exact .refl
  rooted := .inr rfl

theorem isOpen_of_mem (h : Exploring root visited f x) {id : ModuleId}
    (hid : id ∈ visited ++ f.modules) : x.state.IsOpen id := by
  rcases List.mem_append.1 hid with hid | hid
  · obtain ⟨imports, hBound, -⟩ := h.bound id hid
    exact hBound.isOpen
  · exact h.isOpen id hid

theorem ready (h : Exploring root visited f x) : f.Ready x.state :=
  ⟨h.isOpen, (List.nodup_append.1 h.nodup).2.1⟩

theorem root_mem (h : Exploring root visited f x) : root ∈ visited ++ f.modules := by
  rcases h.rooted with hRoot | hRoot
  · exact List.mem_append_left _ hRoot
  · simp [hRoot]

theorem not_mem_frontier (h : Exploring root visited f x) {id : ModuleId} (hid : id ∈ visited) :
    id ∉ f.modules := by
  intro hid'
  exact (List.nodup_append.1 h.nodup).2.2 id hid id hid' rfl

/-- What was seen is still seen later, because modules keep their URLs. -/
theorem seen_of_later (h : Exploring root visited f x) (hLater : x.Later y) (url : String) :
    url ∈ f.seen ↔
      ∃ id ∈ visited ++ f.modules, ∃ m, y.state.static? id = some m ∧ m.url = url := by
  rw [h.seen]
  constructor
  · rintro ⟨id, hid, m, hm, hUrl⟩
    obtain ⟨n, hn, hGrows⟩ := hLater.static id m hm
    exact ⟨id, hid, n, hn, hGrows.url.trans hUrl⟩
  · rintro ⟨id, hid, n, hn, hUrl⟩
    obtain ⟨m, hm, -⟩ := h.isOpen_of_mem hid
    obtain ⟨n', hn', hGrows⟩ := hLater.static id m hm
    rw [hn] at hn'
    cases hn'
    exact ⟨id, hid, m, hm, hGrows.url.symm.trans hUrl⟩

/-- When the modules on a frontier are bound, the link comes to the next frontier. -/
theorem next (h : Exploring root visited f x) (hx : x.Lawful)
    (hy : x.Extends (· ∈ f.modules) y) {imports : List (List ModuleId)}
    (hBound : List.Forall₂ y.state.IsBound f.modules imports)
    (hNext : f.next y.state imports.flatten = .ok g) :
    Exploring root (visited ++ f.modules) g y := by
  have hFollows := Frontier.next_follows hNext
  have hSeen := h.seen_of_later hy.later
  constructor
  · intro id hid
    rcases List.mem_append.1 hid with hid | hid
    · obtain ⟨values, hOld, hClosed⟩ := h.bound id hid
      refine ⟨values, hy.isBound (h.not_mem_frontier hid) hOld, fun j hj n hn => ?_⟩
      obtain ⟨m, table, hm, -, hTable, hEq⟩ := hOld
      obtain ⟨k, hk⟩ := hx.module_of_import hm hTable (hEq ▸ hj)
      obtain ⟨k', hk', hGrows⟩ := hy.later.static?_of_module hk hn
      rcases hClosed j hj k' hk' with hLinked | hMem
      · exact .inl (hGrows.linked hLinked)
      · exact .inr (List.mem_append_left _ hMem)
    · obtain ⟨values, hValues, hNew⟩ := exists_of_forall₂ hBound id hid
      refine ⟨values, hNew, fun j hj n hn => ?_⟩
      have hMem : j ∈ imports.flatten := List.mem_flatten.2 ⟨values, hValues, hj⟩
      refine (hFollows.covered j hMem n hn).imp_right fun hUrl => ?_
      have hSame : ∀ k l, y.state.static? k = some l → l.url = n.url → k = j :=
        fun k l hl hUrl => hy.lawful.eq_of_static_url hl hn hUrl
      rcases (hFollows.seen n.url).1 hUrl with hOld | ⟨k, hk, l, hl, hUrl'⟩
      · obtain ⟨k, hk, l, hl, hUrl'⟩ := (hSeen n.url).1 hOld
        exact List.mem_append_left _ (hSame k l hl hUrl' ▸ hk)
      · exact List.mem_append_right _ (hSame k l hl hUrl' ▸ hk)
  · exact hFollows.isOpen
  · intro url
    rw [hFollows.seen, hSeen]
    constructor
    · rintro (⟨id, hid, hUrl⟩ | ⟨id, hid, hUrl⟩)
      · exact ⟨id, List.mem_append_left _ hid, hUrl⟩
      · exact ⟨id, List.mem_append_right _ hid, hUrl⟩
    · rintro ⟨id, hid, hUrl⟩
      rcases List.mem_append.1 hid with hid | hid
      · exact .inl ⟨id, hid, hUrl⟩
      · exact .inr ⟨id, hid, hUrl⟩
  · rw [List.nodup_append]
    refine ⟨h.nodup, hFollows.nodup, fun a ha b hb hEq => ?_⟩
    subst hEq
    obtain ⟨m, hm, -⟩ := hFollows.isOpen a hb
    exact hFollows.fresh a hb m hm ((hSeen m.url).2 ⟨a, ha, m, hm, rfl⟩)
  · intro id hid
    rcases List.mem_append.1 hid with hid | hid
    · exact hy.later.leads (h.reached id hid)
    · obtain ⟨j, hj, hImports⟩ := exists_imports hBound id (hFollows.imported id hid)
      exact (hy.later.leads (h.reached j (List.mem_append_right _ hj))).tail hImports
  · exact .inl h.root_mem

end Exploring

def Reaches (root : ModuleId) (n : Nat) (x : Instant σ) : Prop :=
  ∃ ids : List ModuleId, ids.Nodup ∧ n ≤ ids.length ∧
    ∀ id ∈ ids, (∃ m, x.state.static? id = some m) ∧ x.state.Leads root id

/-- The link from `root` has come to its failure `e`, and `root` is what is left to fail. -/
def Falls (root : ModuleId) (e : LoadError) (x : Instant σ) : Prop :=
  x.state.HasFailed root e ∨
    ∃ m, x.state.static? root = some m ∧ m.linking = .linking ∧ x.Broken root m

theorem Exploring.reaches {root : ModuleId} {visited : List ModuleId} {f : Frontier}
    (h : Exploring root visited f x) : Reaches root visited.length x := by
  refine ⟨visited, (List.nodup_append.1 h.nodup).1, Nat.le_refl _, fun id hid => ⟨?_, ?_⟩⟩
  · obtain ⟨m, hm, -⟩ := h.isOpen_of_mem (List.mem_append_left _ hid)
    exact ⟨m, hm⟩
  · exact h.reached id (List.mem_append_left _ hid)

theorem Exploring.falls {root id : ModuleId} {visited : List ModuleId} {f : Frontier}
    {e : LoadError} (h : Exploring root visited f x) (hy : x.Extends (· ∈ f.modules) y)
    (hid : id ∈ f.modules) (hFailed : y.state.HasFailed id e) : Falls root e y := by
  rcases h.rooted with hRoot | hRoot
  · obtain ⟨imports, hBound, -⟩ := h.bound root hRoot
    obtain ⟨m, -, hm, hLinking, -⟩ := hy.isBound (h.not_mem_frontier hRoot) hBound
    obtain ⟨n, hn, hErrored, -⟩ := hFailed
    have hLeads := hy.later.leads (h.reached id (List.mem_append_right _ hid))
    exact .inr ⟨m, hm, hLinking, .inr ⟨id, n, hLeads, hn, hErrored⟩⟩
  · rw [hRoot, List.mem_singleton] at hid
    exact .inl (hid ▸ hFailed)

theorem Exploring.falls_of_import {root id : ModuleId} {visited : List ModuleId} {f : Frontier}
    {m : StaticModule} {e : LoadError} {imports : List (List ModuleId)}
    (h : Exploring root visited f x) (hy : x.Extends (· ∈ f.modules) y)
    (hBound : List.Forall₂ y.state.IsBound f.modules imports) (hid : id ∈ imports.flatten)
    (hm : y.state.static? id = some m) (hErrored : m.linking = .errored) : Falls root e y := by
  have hRoot : ∃ values, y.state.IsBound root values := by
    rcases h.rooted with hRoot | hRoot
    · obtain ⟨values, hOld, -⟩ := h.bound root hRoot
      exact ⟨values, hy.isBound (h.not_mem_frontier hRoot) hOld⟩
    · obtain ⟨values, -, hNew⟩ := exists_of_forall₂ hBound root (by simp [hRoot])
      exact ⟨values, hNew⟩
  obtain ⟨values, n, -, hn, hLinking, -⟩ := hRoot
  obtain ⟨j, hj, hImports⟩ := exists_imports hBound id hid
  have hLeads := (hy.later.leads (h.reached j (List.mem_append_right _ hj))).tail hImports
  exact .inr ⟨n, hn, hLinking, .inr ⟨id, m, hLeads, hm, hErrored⟩⟩

theorem meets_linkRounds (env : Environment σ) {root : ModuleId} (fuel : Nat)
    {visited : List ModuleId} {f : Frontier} (hx : x.Lawful) (h : Exploring root visited f x) :
    (linkRounds env fuel f).Meets Change (Reaches root (visited.length + fuel))
      (fun e y => x.Extends x.state.NotLinked y ∧ Falls root e y)
      (fun ids y => x.Extends x.state.NotLinked y ∧
        ∃ g, g.modules = [] ∧ Exploring root (visited ++ ids) g y) x := by
  induction fuel generalizing x visited f with
  | zero => exact h.reaches
  | succ fuel ih =>
    unfold linkRounds
    split
    · next hEmpty =>
      rw [List.isEmpty_iff] at hEmpty
      exact ⟨.refl hx, f, hEmpty, by simpa using h⟩
    · next hFull =>
      have hRound : ∀ y, x.Extends (· ∈ f.modules) y → x.Extends x.state.NotLinked y :=
        fun y hy => hy.mono fun id hid => (h.isOpen id hid).notLinked
      simp only [Action.meets_bind, Action.meets_get, Action.meets_pure]
      refine (meets_frontier env hx h.isOpen h.ready.nodup).ends ?_ ?_
      · rintro e y ⟨hy, id, hid, hFailed⟩
        exact ⟨hRound y hy, h.falls hy hid hFailed⟩
      · rintro imports y ⟨hy, hBound⟩
        refine ⟨.refl y, ?_⟩
        cases hNext : f.next y.state imports.flatten with
        | error e =>
          obtain ⟨id, hid, n, hn, hErrored⟩ := Frontier.error_of_next hNext
          exact ⟨hRound y hy, h.falls_of_import hy hBound hid hn hErrored⟩
        | ok g =>
          have hLater := h.next hx hy hBound hNext
          have hLength : (visited ++ f.modules).length + fuel ≥ visited.length + (fuel + 1) := by
            have hPos : 0 < f.modules.length := by
              rw [List.length_pos_iff]
              intro hNil
              exact hFull (by simp [hNil])
            rw [List.length_append]
            omega
          refine (ih hy.lawful hLater).mono (fun _ _ hStep => hStep) ?_ ?_ ?_
          · rintro z ⟨ids, hIds, hLong, hAll⟩
            exact ⟨ids, hIds, Nat.le_trans hLength hLong, hAll⟩
          · rintro e z ⟨hz, hFalls⟩
            exact ⟨(hRound y hy).trans (hz.mono fun _ => hy.later.notLinked), hFalls⟩
          · rintro ids z ⟨hz, g', hEmpty, hDone⟩
            refine ⟨(hRound y hy).trans (hz.mono fun _ => hy.later.notLinked), g', hEmpty, ?_⟩
            rwa [List.append_assoc] at hDone

theorem Exploring.finish {root : ModuleId} {visited : List ModuleId} {g : Frontier}
    (h : Exploring root visited g x) (hEmpty : g.modules = []) :
    Change x (x.move (x.state.finishLinking visited)) := by
  refine .link fun id hid => ?_
  obtain ⟨values, ⟨m, table, hm, hLinking, hTable, rfl⟩, hClosed⟩ := h.bound id hid
  refine ⟨m, table, hm, hLinking, hTable, fun j hj n hn => ?_⟩
  simpa [hEmpty] using hClosed j hj n hn

theorem Exploring.extends_finish {root : ModuleId} {visited : List ModuleId} {g : Frontier}
    (h : Exploring root visited g x) (hEmpty : g.modules = []) (hx : x.Lawful) :
    x.Extends x.state.NotLinked (x.move (x.state.finishLinking visited)) := by
  have hChange := h.finish hEmpty
  refine ⟨⟨fun id m hid hm => ?_, rfl⟩, hChange.lawful hx, hChange.later hx⟩
  rw [Moment.state_move, module?_finishLinking, if_neg, hm]
  exact fun hVisited => hid (h.isOpen_of_mem (List.mem_append_left _ hVisited)).notLinked

theorem Exploring.linked_finish {root : ModuleId} {visited : List ModuleId} {g : Frontier}
    (h : Exploring root visited g x) (hEmpty : g.modules = []) {m : StaticModule}
    (hm : (x.state.finishLinking visited).static? root = some m) : m.linking = .linked := by
  have hRoot : root ∈ visited := by simpa [hEmpty] using h.root_mem
  obtain ⟨values, ⟨n, table, hn, hLinking, -⟩, -⟩ := h.bound root hRoot
  rw [static?_finishLinking, if_pos hRoot, hn, Option.map_some, Option.some.injEq] at hm
  rw [← hm]
  exact StaticModule.linking_finishLinking hLinking

/-- The root of a link that falls can be made to fail, if it has not failed with the same text. -/
theorem Falls.change {root : ModuleId} {e : LoadError} (h : Falls root e x) (hx : x.Lawful) :
    Change x (x.move (x.state.updateStatic root (·.failLinking e))) ∧
      x.state.NotLinked root ∧
      ∃ m, (x.state.updateStatic root (·.failLinking e)).static? root = some m ∧
        m.linking = .errored := by
  rcases h with ⟨m, hm, hErrored, hFailure⟩ | ⟨m, hm, hLinking, hBroken⟩
  · have hStatus := (hx.static root m hm).status_of_errored hErrored
    have hSame : m.failLinking e = m := by
      simp [StaticModule.failLinking, ← hErrored, ← hStatus, ← hFailure]
    refine ⟨.of_fixed hm hSame, ?_, _, static?_updateStatic_self hm _, rfl⟩
    intro n hn hLinked
    rw [hm] at hn
    cases hn
    exact absurd (hErrored.symm.trans hLinked) (by decide)
  · exact ⟨.update hm (.failLinking hLinking hBroken), IsOpen.notLinked ⟨m, hm, .inr hLinking⟩, _,
      static?_updateStatic_self hm _, rfl⟩

/-- A link leaves its root linked or failed, and changes no linked module. -/
theorem meets_link (env : Environment σ) (fuel : Nat) (root : ModuleId) (hx : x.Lawful) :
    (link env fuel root).Meets Change (Reaches root fuel)
      (fun _ y => x.Extends x.state.NotLinked y ∧
        ∃ m, y.state.static? root = some m ∧ m.linking = .errored)
      (fun _ y => x.Extends x.state.NotLinked y ∧
        ∀ m, y.state.static? root = some m → m.linking = .linked) x := by
  simp only [link, Action.meets_bind, Action.meets_get]
  refine ⟨.refl x, ?_⟩
  cases hm : x.state.static? root with
  | none => exact ⟨.refl hx, by simp [hm]⟩
  | some m =>
    cases hLinking : m.linking with
    | unlinked | linking =>
      have hOpen : x.state.IsOpen root := ⟨m, hm, by simp [hLinking]⟩
      simp only [hLinking, Action.meets_bind, Action.meets_onFailure, changeStatic,
        Action.meets_modify]
      refine (meets_linkRounds env fuel hx (.start hm hOpen)).mono (fun _ _ hStep => hStep)
        (fun y hy => by simpa using hy) ?_ ?_
      · rintro e y ⟨hy, hFalls⟩
        obtain ⟨hChange, hRoot, hFailed⟩ := hFalls.change hy.lawful
        have hMay : ∀ id, id = root → x.state.NotLinked id :=
          fun id hid => hy.later.notLinked (hid ▸ hRoot)
        exact ⟨hChange, hy.trans ((hChange.extends hy.lawful).mono hMay), hFailed⟩
      · rintro ids y ⟨hy, g, hEmpty, hDone⟩
        have hEnd := (hDone.extends_finish hEmpty hy.lawful).mono fun id => hy.later.notLinked
        exact ⟨hDone.finish hEmpty, hy.trans hEnd, fun m hm => hDone.linked_finish hEmpty hm⟩
    | linked =>
      simp only [hLinking]
      refine ⟨.refl hx, fun n hn => ?_⟩
      rw [hm] at hn
      cases hn
      exact hLinking
    | errored =>
      simp only [hLinking]
      exact ⟨.refl hx, m, hm, hLinking⟩

/-- A link of a linked module does nothing. -/
theorem link_of_linked (env : Environment σ) (fuel : Nat) {id : ModuleId}
    (h : ∀ m, x.state.static? id = some m → m.linking = .linked) :
    (link env fuel id).runFrom x = some (.ok (), x) := by
  have hMeets : (link env fuel id).Meets (fun _ _ => True) (fun _ => False) (fun _ _ => False)
      (fun found y => found = () ∧ y = x) x := by
    rw [link, Action.meets_bind, Action.meets_get]
    refine ⟨trivial, ?_⟩
    cases hm : x.state.static? id with
    | none => exact ⟨rfl, rfl⟩
    | some m =>
      simp only [h m hm]
      exact ⟨trivial, rfl⟩
  exact hMeets.runFrom_eq_ok

theorem link_of_linked_static (env : Environment σ) (fuel : Nat) {id : ModuleId} {m : StaticModule}
    (hm : x.state.static? id = some m) (hLinking : m.linking = .linked) :
    (link env fuel id).runFrom x = some (.ok (), x) := by
  refine link_of_linked env fuel fun n hn => ?_
  rw [hm] at hn
  cases hn
  exact hLinking

end Session

end ModuleLoader
