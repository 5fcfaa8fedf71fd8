import Mathlib.Data.List.Nodup
import Mathlib.Data.List.Perm.Subperm
import ModuleLoader.Proofs.Session.Closure

/-! Linking does not depend on history.  In an environment that answers by `Outcomes`, a link
succeeds exactly if everything that its root leads to can be found and made.  The invariants are
that a linked module is sound and that a failed one is not. -/

namespace ModuleLoader

/-- Answers of an environment that depend on the question alone. -/
structure Outcomes where
  /-- The URL that a specifier means in the module at a URL, if it can be resolved. -/
  resolve : String → String → Option String
  /-- Whether the module of a URL can be made, and its dependencies if the host runs its code. -/
  create : String → Option (Option (List String))

namespace Outcomes

def Explains (o : Outcomes) : Event → Prop
  | .resolved specifier (some referrer) outcome =>
    outcome.toOption.map (·.url) = o.resolve specifier referrer
  | .created r outcome => outcome.toOption.map Module.dependencies? = o.create r.url
  | .resolved _ none _ | .evaluated _ _ | .asked _ => True

instance (o : Outcomes) : DecidablePred o.Explains := fun event =>
  match event with
  | .resolved _ (some _) _ | .created _ _ => inferInstanceAs (Decidable (_ = _))
  | .resolved _ none _ | .evaluated _ _ | .asked _ => inferInstanceAs (Decidable True)

/-- The module at the first URL declares an import of the module at the second one. -/
def Imports (o : Outcomes) (url other : String) : Prop :=
  ∃ dependencies, o.create url = some (some dependencies) ∧
    ∃ specifier ∈ dependencies, o.resolve specifier url = some other

def Leads (o : Outcomes) : String → String → Prop := Relation.ReflTransGen o.Imports

/-- All dependencies of the module can be resolved, and their modules made. -/
def Complete (o : Outcomes) (url : String) : Prop :=
  ∀ dependencies, o.create url = some (some dependencies) → ∀ specifier ∈ dependencies,
    ∃ other, o.resolve specifier url = some other ∧ (o.create other).isSome

/-- All that the module leads to is complete. -/
def Sound (o : Outcomes) (url : String) : Prop := ∀ other, o.Leads url other → o.Complete other

theorem Sound.of_leads {o : Outcomes} {url other : String} (h : o.Sound url)
    (hLeads : o.Leads url other) : o.Sound other :=
  fun third hThird => h third (hLeads.trans hThird)

end Outcomes

variable {σ : Type} {x y : Instant σ} {o : Outcomes} {id j : ModuleId} {m n : StaticModule}

def Moment.Explained (x : Instant σ) (o : Outcomes) : Prop := ∀ event ∈ x.events, o.Explains event

namespace Moment.Explained

theorem of_prefix (h : y.Explained o) (hEvents : x.events <+: y.events) : x.Explained o :=
  fun event hEvent => h event (hEvents.subset hEvent)

theorem resolve (h : x.Explained o) {specifier referrer : String} {r : ResolvedModule}
    (hResolved : .resolved specifier (some referrer) (.ok r) ∈ x.events) :
    o.resolve specifier referrer = some r.url :=
  (h _ hResolved).symm

theorem create (h : x.Explained o) (hx : x.Lawful) {k : Module}
    (hk : x.state.module? id = some k) : o.create k.url = some k.dependencies? := by
  obtain ⟨r, k', hCreated, hUrl, hDependencies⟩ := hx.created id k hk
  have hAnswer : some k'.dependencies? = o.create r.url := h _ hCreated
  rw [← hUrl, ← hAnswer, hDependencies]

theorem create_static (h : x.Explained o) (hx : x.Lawful) (hm : x.state.static? id = some m) :
    o.create m.url = some (some m.dependencies) :=
  h.create hx (Session.static?_eq_some_iff.1 hm)

/-- A module that was created with dependencies is a static one, and they are its own. -/
theorem exists_static (h : x.Explained o) (hx : x.Lawful) {k : Module}
    (hk : x.state.module? id = some k) {dependencies : List String}
    (hCreate : o.create k.url = some (some dependencies)) :
    ∃ n, k = .static n ∧ n.dependencies = dependencies := by
  rw [h.create hx hk, Option.some.injEq] at hCreate
  cases k with
  | static n => exact ⟨n, rfl, Option.some.inj hCreate⟩
  | synthetic k => cases hCreate

theorem leads (h : x.Explained o) (hx : x.Lawful) (hLeads : x.state.Leads id j)
    (hm : x.state.static? id = some m) (hn : x.state.static? j = some n) :
    o.Leads m.url n.url := by
  induction hLeads generalizing n with
  | refl =>
    rw [hm] at hn
    cases hn
    exact .refl
  | @tail k j _ hImports ih =>
    obtain ⟨l, table, hl, hTable, hj⟩ := hImports
    refine (ih hl).tail ⟨l.dependencies, h.create_static hx hl, ?_⟩
    obtain ⟨ids, hIds, rfl⟩ := hx.bound k l table hl hTable
    obtain ⟨entry, hEntry, rfl⟩ := List.mem_map.1 hj
    have hZip := OrderedMap.mem_of_mem_entries_ofList hEntry
    obtain ⟨r, n', hResolved, hn', hUrl⟩ := hx.module_of_means (List.forall₂_zip hIds hZip)
    rw [Session.static?_eq_some_iff.1 hn] at hn'
    cases hn'
    exact ⟨entry.1, (List.of_mem_zip hZip).1, (h.resolve hResolved).trans (congrArg some hUrl.symm)⟩

theorem exists_import (h : x.Explained o) (hx : x.Lawful) (hm : x.state.static? id = some m)
    (hLinked : m.linking = .linked) {specifier : String} (hSpecifier : specifier ∈ m.dependencies) :
    ∃ j k, x.state.module? j = some k ∧ o.resolve specifier m.url = some k.url ∧
      ∀ n, k = .static n → n.linking = .linked := by
  obtain ⟨table, hTable⟩ := Option.isSome_iff_exists.1 ((hx.static id m hm).imports hLinked)
  have hBinds := hx.bound id m table hm hTable
  have hKey : specifier ∈ table.keys := by
    rw [hBinds.keys_eq]
    exact List.mem_eraseDups.2 hSpecifier
  obtain ⟨ids, hIds, rfl⟩ := hBinds
  obtain ⟨entry, hEntry, rfl⟩ := List.mem_map.1 hKey
  have hZip := OrderedMap.mem_of_mem_entries_ofList hEntry
  obtain ⟨r, k, hResolved, hk, hUrl⟩ := hx.module_of_means (List.forall₂_zip hIds hZip)
  refine ⟨entry.2, k, hk, hUrl ▸ h.resolve hResolved, fun n hn => ?_⟩
  subst hn
  exact hx.closed id m _ entry.2 n hm hLinked hTable (List.mem_map_of_mem hEntry)
    (Session.static?_eq_some_iff.2 hk)

theorem exists_of_leads (h : x.Explained o) (hx : x.Lawful) (hm : x.state.static? id = some m)
    (hLinked : m.linking = .linked) {url : String} (hLeads : o.Leads m.url url) :
    ∃ j k, x.state.module? j = some k ∧ k.url = url ∧
      ∀ n, k = .static n → n.linking = .linked := by
  induction hLeads with
  | refl =>
    refine ⟨id, .static m, Session.static?_eq_some_iff.1 hm, rfl, fun n hn => ?_⟩
    cases hn
    exact hLinked
  | tail _ hImports ih =>
    obtain ⟨j, k, hk, rfl, hStatic⟩ := ih
    obtain ⟨dependencies, hCreate, specifier, hSpecifier, hResolve⟩ := hImports
    obtain ⟨n, rfl, rfl⟩ := h.exists_static hx hk hCreate
    obtain ⟨j', k', hk', hResolve', hLinked'⟩ := h.exists_import hx
      (Session.static?_eq_some_iff.2 hk) (hStatic n rfl) hSpecifier
    rw [Module.url, hResolve'] at hResolve
    exact ⟨j', k', hk', Option.some.inj hResolve, hLinked'⟩

theorem sound_of_linked (h : x.Explained o) (hx : x.Lawful) (hm : x.state.static? id = some m)
    (hLinked : m.linking = .linked) : o.Sound m.url := by
  intro url hLeads dependencies hCreate specifier hSpecifier
  obtain ⟨j, k, hk, rfl, hStatic⟩ := h.exists_of_leads hx hm hLinked hLeads
  obtain ⟨n, rfl, rfl⟩ := h.exists_static hx hk hCreate
  obtain ⟨j', k', hk', hResolve, -⟩ := h.exists_import hx
    (Session.static?_eq_some_iff.2 hk) (hStatic n rfl) hSpecifier
  exact ⟨k'.url, hResolve, by rw [h.create hx hk']; rfl⟩

theorem not_complete_of_fails (h : x.Explained o) (hx : x.Lawful)
    (hm : x.state.static? id = some m) {specifier : String}
    (hSpecifier : specifier ∈ m.dependencies) (hFails : x.Fails specifier m.url) :
    ¬o.Complete m.url := by
  intro hComplete
  obtain ⟨other, hResolve, hCreate⟩ := hComplete _ (h.create_static hx hm) specifier hSpecifier
  rcases hFails with ⟨e, hResolved⟩ | ⟨r, e, hResolved, hCreated⟩
  · have hAnswer : none = o.resolve specifier m.url := h _ hResolved
    rw [← hAnswer] at hResolve
    cases hResolve
  · rw [h.resolve hResolved, Option.some.injEq] at hResolve
    subst hResolve
    have hAnswer : none = o.create r.url := h _ hCreated
    rw [← hAnswer] at hCreate
    cases hCreate

end Moment.Explained

def Moment.Spoiled (x : Instant σ) (o : Outcomes) : Prop :=
  ∀ id m, x.state.static? id = some m → m.linking = .errored → ¬o.Sound m.url

theorem Change.spoiled (h : Change x y) (hx : x.Lawful) (hExplained : x.Explained o)
    (hSpoiled : x.Spoiled o) : y.Spoiled o := by
  intro id n hn hErrored
  rcases h.static_cases hn with ⟨m, hm, rfl | hStep⟩ | ⟨-, _, _, _, _, rfl⟩
  · exact hSpoiled id n hm hErrored
  · cases hStep with
    | beginLinking hLinking => simp [StaticModule.beginLinking, hLinking] at hErrored
    | finishLinking hLinking =>
      rw [StaticModule.linking_finishLinking hLinking] at hErrored
      cases hErrored
    | bindImports | beginEvaluation | finishEvaluation | failEvaluation =>
      exact hSpoiled id m hm hErrored
    | failLinking _ hBroken =>
      intro (hSound : o.Sound m.url)
      rcases hBroken with ⟨specifier, hSpecifier, hFails⟩ | ⟨j, k, hLeads, hk, hFailed⟩
      · exact hExplained.not_complete_of_fails hx hm hSpecifier hFails (hSound _ .refl)
      · exact hSpoiled j k hk hFailed (hSound.of_leads (hExplained.leads hx hLeads hm hk))
  · cases hErrored

/-- Along a run no failed module is sound, as long as the outcomes explain what happens. -/
theorem Action.Meets.spoiled {α : Type} {stuck : Instant σ → Prop}
    {failed : LoadError → Instant σ → Prop} {done : α → Instant σ → Prop} {action : Load σ α}
    (h : action.Meets Change stuck failed done x) (hx : x.Lawful)
    (hStart : x.Explained o → x.Spoiled o) :
    ∀ y ∈ action.moments x, y.Explained o → y.Spoiled o := by
  intro y hy
  refine (h.forall_moments (fun y => y.Lawful ∧ (y.Explained o → y.Spoiled o)) ⟨hx, hStart⟩ ?_
    y hy).2
  rintro y z hStep ⟨hy, hSpoiled⟩
  refine ⟨hStep.lawful hy, fun hz => ?_⟩
  have hExplained := hz.of_prefix hStep.events_prefix
  exact hStep.spoiled hy hExplained (hSpoiled hExplained)

/-- The number of modules to which a module leads is bounded by that of their URLs. -/
theorem Moment.Lawful.le_of_reaches (hx : x.Lawful) {root : ModuleId} {count : Nat}
    (hReaches : Session.Reaches root count x) {urls : List String}
    (hUrls : ∀ j n, x.state.Leads root j → x.state.static? j = some n → n.url ∈ urls) :
    count ≤ urls.length := by
  obtain ⟨ids, hNodup, hCount, hIds⟩ := hReaches
  let urlOf : ModuleId → String := fun j => ((x.state.static? j).map (·.url)).getD ""
  have hUrlOf : ∀ j k, x.state.static? j = some k → urlOf j = k.url := by
    intro j k hk
    simp [urlOf, hk]
  have hInjective : ∀ j ∈ ids, ∀ j' ∈ ids, urlOf j = urlOf j' → j = j' := by
    intro j hj j' hj' hEq
    obtain ⟨⟨k, hk⟩, -⟩ := hIds j hj
    obtain ⟨⟨k', hk'⟩, -⟩ := hIds j' hj'
    rw [hUrlOf j k hk, hUrlOf j' k' hk'] at hEq
    exact hx.eq_of_static_url hk hk' hEq
  have hDistinct : (ids.map urlOf).Nodup := List.Nodup.map_on hInjective hNodup
  have hSubset : ids.map urlOf ⊆ urls := by
    intro url hUrl
    obtain ⟨j, hj, rfl⟩ := List.mem_map.1 hUrl
    obtain ⟨⟨k, hk⟩, hLeads⟩ := hIds j hj
    rw [hUrlOf j k hk]
    exact hUrls j k hLeads hk
  calc count ≤ ids.length := hCount
    _ = (ids.map urlOf).length := (List.length_map _).symm
    _ ≤ urls.length := (List.subperm_of_subset hDistinct hSubset).length_le

theorem Moment.Explained.le_of_reaches (h : x.Explained o) (hx : x.Lawful) {root : ModuleId}
    {count : Nat} (hm : x.state.static? root = some m) (hReaches : Session.Reaches root count x)
    {urls : List String} (hUrls : ∀ url, o.Leads m.url url → url ∈ urls) : count ≤ urls.length :=
  hx.le_of_reaches hReaches fun _ _ hLeads hn => hUrls _ (h.leads hx hLeads hm hn)

namespace Session

/-- Whatever happened before, a link of a module that ends succeeds exactly if the module is sound,
and one with more fuel than there are URLs to which the module leads does end.  A link of a module
that leads to infinitely many URLs never succeeds. -/
theorem link_ok_iff_sound (env : Environment σ) (o : Outcomes) (world : σ)
    (requests : List (Nat × Request σ)) (fuel : Nat) {x : Instant σ} {id : ModuleId}
    {m : StaticModule} (hx : x ∈ (serve env requests).moments (.fresh world))
    (hm : x.state.static? id = some m)
    (hExplained : ∀ y ∈ (link env fuel id).moments x, y.Explained o) :
    (∀ outcome y, (link env fuel id).runFrom x = some (outcome, y) →
      (outcome = .ok () ↔ o.Sound m.url)) ∧
    (∀ urls : List String, (∀ url, o.Leads m.url url → url ∈ urls) → urls.length < fuel →
      ∃ outcome y, (link env fuel id).runFrom x = some (outcome, y)) ∧
    (∀ y, (link env fuel id).runFrom x = some (.ok (), y) →
      ∃ urls : List String, ∀ url, o.Leads m.url url → url ∈ urls) := by
  have hFresh := Moment.lawful_fresh world
  have hServe := spares_serve env requests hFresh
  have hLawful := lawful_of_mem_serve hx
  have hLink := meets_link env fuel id hLawful
  have hSpoiled : ∀ y ∈ (link env fuel id).moments x, y.Spoiled o := by
    intro y hy
    refine hLink.spoiled hLawful (hServe.spoiled hFresh (fun _ _ _ hm => ?_) x hx) y hy
      (hExplained y hy)
    simp [Moment.fresh, Session.static?, Session.module?] at hm
  have hLater : ∀ y ∈ (link env fuel id).moments x, y.Lawful ∧
      ∃ n, y.state.static? id = some n ∧ n.url = m.url := by
    intro y hy
    obtain ⟨hLawful', hLater⟩ := hLink.later_of_mem hLawful hy
    obtain ⟨n, hn, hGrows⟩ := hLater.static id m hm
    exact ⟨hLawful', n, hn, hGrows.url⟩
  have hLinked : ∀ y, (link env fuel id).runFrom x = some (.ok (), y) →
      ∃ n, y.state.static? id = some n ∧ n.url = m.url ∧ n.linking = .linked := by
    intro y hRun
    obtain ⟨-, n, hn, hUrl⟩ := hLater y (Action.mem_moments_of_runFrom hRun)
    exact ⟨n, hn, hUrl, ((hLink.of_runFrom hRun).1 () rfl).2 n hn⟩
  refine ⟨fun outcome y hRun => ?_, fun urls hUrls hFuel => ?_, fun y hRun => ?_⟩
  · have hy := Action.mem_moments_of_runFrom hRun
    cases outcome with
    | ok =>
      obtain ⟨n, hn, hUrl, hLinked⟩ := hLinked y hRun
      exact ⟨fun _ => hUrl ▸ (hExplained y hy).sound_of_linked (hLater y hy).1 hn hLinked,
        fun _ => rfl⟩
    | error e =>
      obtain ⟨-, n, hn, hErrored⟩ := (hLink.of_runFrom hRun).2 e rfl
      obtain ⟨-, n', hn', hUrl⟩ := hLater y hy
      rw [hn] at hn'
      cases hn'
      refine ⟨fun hOk => ?_, fun hSound => ?_⟩
      · cases hOk
      · exact absurd (hUrl ▸ hSound) (hSpoiled y hy id n hn hErrored)
  · cases hRun : (link env fuel id).runFrom x with
    | some result => exact ⟨result.1, result.2, rfl⟩
    | none =>
      obtain ⟨y, hy, hReaches⟩ := hLink.stuck_of_runFrom hRun
      obtain ⟨hLawful', n, hn, hUrl⟩ := hLater y hy
      have hBound := (hExplained y hy).le_of_reaches hLawful' hn hReaches (hUrl ▸ hUrls)
      omega
  · obtain ⟨n, hn, hUrl, hLinked⟩ := hLinked y hRun
    have hy := Action.mem_moments_of_runFrom hRun
    refine ⟨y.state.modules.map Module.url, fun url hLeads => ?_⟩
    obtain ⟨j, k, hk, rfl, -⟩ :=
      (hExplained y hy).exists_of_leads (hLater y hy).1 hn hLinked (hUrl ▸ hLeads)
    exact List.mem_map_of_mem (List.mem_of_getElem? hk)

end Session

namespace Sample

def outcomes : Outcomes where
  resolve specifier _ := if specifier = "missing" then none else some ("file:///" ++ specifier)
  create url :=
    match url with
    | "file:///a" => some (some ["b", "c"])
    | "file:///b" => some (some ["a", "c", "a"])
    | "file:///d" => some (some ["a", "missing"])
    | "file:///e" => some (some ["b", "d"])
    | _ => some (some [])

end Sample

namespace Session

/-- The link of `e` fails and gives up `b`, for which no table is made.  The link of `b` after it
succeeds. -/
theorem link_ok_after_failed_link :
    ∃ x ∈ (serve Sample.together (Sample.givenUp.take 2)).moments (.fresh ()), ∃ m n y,
      x.state.static? 0 = some m ∧ m.linking = .errored ∧
        x.state.static? 1 = some n ∧ n.linking = .linking ∧ n.imports = none ∧
        (link Sample.together 9 1).runFrom x = some (.ok (), y) ∧
        Sample.outcomes.Sound n.url := by
  have hRun : ((serve Sample.together (Sample.givenUp.take 2)).moments (.fresh ())).any
      (fun x => (x.state.static? 0).any (·.linking = .errored) &&
        (x.state.static? 1).any (fun n => n.linking = .linking ∧ n.imports.isNone) &&
        ((link Sample.together 9 1).runFrom x).any (fun result => result.1.isOk) &&
        ((link Sample.together 9 1).moments x).all fun y =>
          y.events.all (Sample.outcomes.Explains ·)) = true := by decide +kernel
  obtain ⟨x, hx, hAll⟩ := List.any_eq_true.1 hRun
  simp only [Bool.and_eq_true, Option.any_eq_true, List.all_eq_true, decide_eq_true_eq,
    Option.isNone_iff_eq_none] at hAll
  obtain ⟨⟨⟨⟨m, hm, hErrored⟩, n, hn, hLinking, hNone⟩, ⟨outcome, y⟩, hLink, hOk⟩, hExplained⟩ :=
    hAll
  have hSound := (link_ok_iff_sound Sample.together Sample.outcomes () _ 9 hx hn hExplained).1
    outcome y hLink
  cases outcome with
  | error e => cases hOk
  | ok => exact ⟨x, hx, m, n, y, hm, hErrored, hn, hLinking, hNone, hLink, hSound.1 rfl⟩

end Session

end ModuleLoader
