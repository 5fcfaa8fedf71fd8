import ModuleLoader.Proofs.Session.Entry

/-! The mark of the entry in `import.meta`.  A module gets it when it is made, from the request that
makes it: a module is marked exactly if it came with a request to load the program of its own URL.
So a root that an import brought before is not marked. -/

namespace ModuleLoader

variable {σ : Type} {x y z : Instant σ} {env : Environment σ} {id : ModuleId}

/-- The module takes itself for the entry of a program. -/
def StaticModule.IsMain (m : StaticModule) : Prop := m.importMeta.main = true

namespace Session

variable {fuel : Nat} {request : Request σ} {requests : List (Nat × Request σ)}
  {outcome : Except LoadError Unit}

/-- What a module learns about itself is the same from the time when it is made. -/
theorem immune_of_importMeta {Q : String → ImportMeta → Prop}
    (hQ : ∀ url, ¬Q url (.ofUrl url false)) : Immune σ fun m => Q m.url m.importMeta where
  create url _ _ := hQ url
  beginLinking m h := by
    unfold StaticModule.beginLinking at h
    split at h <;> exact h
  bindImports _ _ h := h
  failLinking _ _ h := h
  finishLinking m h := by
    unfold StaticModule.finishLinking at h
    split at h <;> exact h
  runOnce env run load id m x hRun hLoad := by
    refine barring_bind (barring_modify (.updateStatic x id fun _ h => h)) fun _ y => ?_
    refine barring_bind ?_ fun properties z => barring_bind barring_newObject fun object w =>
      barring_bind (barring_modify (.updateStatic w id fun _ h => h)) fun _ _ => barring_pure _
    rw [Barring, Action.meets_onFailure]
    exact (barring_runModule env hRun hLoad m.beginEvaluation).ends
      (fun e z hz => ⟨trivial, hz.trans (.updateStatic z id fun _ h => h)⟩) fun _ _ hz => hz

/-- The request loads the program of the URL. -/
def Request.Enters (env : Environment σ) (request : Request σ) (url : String) : Prop :=
  ∃ entry u, request = .instantiate entry ∧ entryUrl entry env.baseUrl = .ok u ∧ u.text = url

/-- Only a request that enters a module makes it with the mark. -/
theorem enters_of_isMain {m : StaticModule}
    (hRun : (answer env fuel request).runFrom x = some (outcome, y))
    (hNew : x.state.module? id = none) (hm : y.state.static? id = some m) (hMain : m.IsMain) :
    request.Enters env m.url := by
  by_contra hNot
  have hImmune : Immune σ fun m => m.importMeta.main = true ∧ ¬request.Enters env m.url :=
    immune_of_importMeta (Q := fun url data => data.main = true ∧ ¬request.Enters env url)
      fun _ h => by cases h.1
  have hAnswer := (barring_answer hImmune env fuel request (x := x) ?_).of_runFrom hRun
  · have hBars : x.Bars (fun m => m.importMeta.main = true ∧ ¬request.Enters env m.url) y := by
      cases outcome with
      | ok a => exact hAnswer.1 a rfl
      | error e => exact hAnswer.2 e rfl
    obtain ⟨n, hn, -⟩ := hBars id m hm ⟨hMain, hNot⟩
    rw [static?_eq_some_iff, hNew] at hn
    cases hn
  · rintro entry u hRequest hUrl code dependencies ⟨-, hNot⟩
    exact hNot ⟨entry, u, hRequest, hUrl, rfl⟩

/-- The module that a load makes for its own URL is marked. -/
def Marks (x : Instant σ) (url : String) (y : Instant σ) : Prop :=
  ∀ id m, x.state.module? id = none → y.state.static? id = some m → m.url = url → m.IsMain

theorem marks_of_bars (h : x.Bars (fun m => m.importMeta.main ≠ true) y) (url : String) :
    Marks x url y := by
  intro id m hNew hm _
  by_contra hNot
  obtain ⟨n, hn, -⟩ := h id m hm hNot
  rw [static?_eq_some_iff, hNew] at hn
  cases hn

theorem Marks.later {url : String} (h : Marks x url y) (hGet : y.state.cache.get? url = some id)
    (hy : y.Lawful) (hz : z.Lawful) (hLater : y.Later z) : Marks x url z := by
  intro j n hNew hn hUrl
  have hj := hz.cached j _ (static?_eq_some_iff.1 hn)
  rw [show (Module.static n).url = url from hUrl, hLater.cache _ _ hGet] at hj
  cases hj
  obtain ⟨k, hk, hText⟩ := hy.stored _ _ hGet
  cases k with
  | static m =>
    obtain ⟨m', hm', hGrows⟩ := hLater.static id m (static?_eq_some_iff.2 hk)
    rw [hn] at hm'
    cases hm'
    rw [StaticModule.IsMain, hGrows.importMeta]
    exact h id m hNew (static?_eq_some_iff.2 hk) hText
  | synthetic m =>
    obtain ⟨m', hm', -⟩ := hLater.synthetic id m hk
    rw [static?_eq_some_iff.1 hn] at hm'
    cases hm'

theorem marks_instantiate {entry : String} {u : Url} (hUrl : entryUrl entry env.baseUrl = .ok u)
    (hx : x.Lawful) :
    (instantiate env fuel entry).Meets (fun _ _ => True) (fun _ => True)
      (fun _ y => Marks x u.text y) (fun _ y => Marks x u.text y) x := by
  have hBars : Barring (fun m => m.importMeta.main ≠ true)
      (cachedModule env ⟨u.text, .dynamic⟩ true) x :=
    barring_cachedModule env _ true fun _ _ h => h rfl
  simp only [instantiate, hUrl, Action.meets_bind, Action.meets_ofExcept_ok]
  refine (Action.Meets.and (meets_cachedModule env _ true (fun _ => False) hx) hBars).mono
    (fun _ _ _ => trivial) (fun _ hy => hy.1) (fun e y hy => marks_of_bars hy.2 _) ?_
  rintro root y ⟨⟨hy, hGet⟩, hBars⟩
  simp only [Action.meets_get, true_and]
  cases y.state.static? root with
  | none => exact marks_of_bars hBars u.text
  | some m =>
    rw [Action.meets_bind]
    refine ((spares_link env fuel root hy.lawful).lawful hy.lawful).mono (fun _ _ _ => trivial)
      (fun _ _ => trivial) ?_ ?_
    · exact fun e z hz => (marks_of_bars hBars _).later hGet hy.lawful hz.2.1 hz.2.2
    · exact fun _ z hz => (marks_of_bars hBars _).later hGet hy.lawful hz.2.1 hz.2.2

/-- A module that comes with a request is marked exactly if the request enters it. -/
theorem isMain_iff_of_answer {m : StaticModule} (hx : x.Lawful)
    (hRun : (answer env fuel request).runFrom x = some (outcome, y))
    (hNew : x.state.module? id = none) (hm : y.state.static? id = some m) :
    m.IsMain ↔ request.Enters env m.url := by
  constructor
  · exact enters_of_isMain hRun hNew hm
  · rintro ⟨entry, u, rfl, hUrl, hText⟩
    have hMarks : (answer env fuel (.instantiate entry)).Meets (fun _ _ => True) (fun _ => True)
        (fun _ y => Marks x u.text y) (fun _ y => Marks x u.text y) x := by
      rw [answer, Action.meets_bind]
      exact marks_instantiate hUrl hx
    have hEnd := hMarks.of_runFrom hRun
    cases outcome with
    | ok a => exact hEnd.1 a rfl id m hNew hm hText.symm
    | error e => exact hEnd.2 e rfl id m hNew hm hText.symm

/-- The module comes with a request, one of those that are answered from a moment on. -/
inductive ComesWith (env : Environment σ) (id : ModuleId) (request : Request σ) :
    Instant σ → List (Nat × Request σ) → Prop
  | here {x y : Instant σ} {fuel : Nat} {outcome : Except LoadError Unit}
      {rest : List (Nat × Request σ)}
      (hRun : (answer env fuel request).runFrom x = some (outcome, y))
      (hNew : x.state.module? id = none) (hMade : (y.state.module? id).isSome = true) :
      ComesWith env id request x ((fuel, request) :: rest)
  | later {x y : Instant σ} {fuel : Nat} {first : Request σ} {outcome : Except LoadError Unit}
      {rest : List (Nat × Request σ)}
      (hRun : (answer env fuel first).runFrom x = some (outcome, y))
      (h : ComesWith env id request y rest) : ComesWith env id request x ((fuel, first) :: rest)

theorem runFrom_serve_cons {first : Nat × Request σ}
    (h : (serve env (first :: requests)).runFrom x = some (outcome, z)) :
    ∃ result y, (answer env first.1 first.2).runFrom x = some (result, y) ∧
      (serve env requests).runFrom y = some (outcome, z) := by
  simp only [serve, Action.runFrom_bind, Action.runFrom_attempt, Option.bind_map] at h
  obtain ⟨⟨result, y⟩, hFirst, hRest⟩ := Option.bind_eq_some_iff.1 h
  exact ⟨result, y, hFirst, hRest⟩

theorem later_of_runFrom_answer (hx : x.Lawful)
    (hRun : (answer env fuel request).runFrom x = some (outcome, y)) : y.Lawful ∧ x.Later y :=
  (spares_answer env fuel request hx).later_of_mem hx (Action.mem_moments_of_runFrom hRun)

theorem later_of_runFrom_serve (hx : x.Lawful)
    (hRun : (serve env requests).runFrom x = some (outcome, y)) : y.Lawful ∧ x.Later y :=
  (spares_serve env requests hx).later_of_mem hx (Action.mem_moments_of_runFrom hRun)

theorem exists_comesWith (hRun : (serve env requests).runFrom x = some (outcome, y))
    (hNew : x.state.module? id = none) (hMade : (y.state.module? id).isSome = true) :
    ∃ request, ComesWith env id request x requests := by
  induction requests generalizing x with
  | nil =>
    cases hRun
    rw [hNew] at hMade
    cases hMade
  | cons first rest ih =>
    obtain ⟨result, z, hFirst, hRest⟩ := runFrom_serve_cons hRun
    cases hz : z.state.module? id with
    | none =>
      obtain ⟨request, hComes⟩ := ih hRest hz
      exact ⟨request, .later hFirst hComes⟩
    | some m => exact ⟨first.2, .here hFirst hNew (by simp [hz])⟩

/-- Whatever is asked for afterwards, the mark stays as the request wants it with which the module
came. -/
theorem ComesWith.isMain_iff {m : StaticModule} (h : ComesWith env id request x requests)
    (hx : x.Lawful) (hRun : (serve env requests).runFrom x = some (outcome, y))
    (hm : y.state.static? id = some m) : m.IsMain ↔ request.Enters env m.url := by
  induction h with
  | @here x z fuel result rest hFirst hNew hMade =>
    obtain ⟨result', z', hFirst', hRest⟩ := runFrom_serve_cons hRun
    rw [hFirst] at hFirst'
    cases hFirst'
    have hz := (later_of_runFrom_answer hx hFirst).1
    have hLater := (later_of_runFrom_serve hz hRest).2
    obtain ⟨n, hn⟩ := Option.isSome_iff_exists.1 hMade
    cases n with
    | static n =>
      obtain ⟨m', hm', hGrows⟩ := hLater.static id n (static?_eq_some_iff.2 hn)
      rw [hm] at hm'
      cases hm'
      rw [StaticModule.IsMain, hGrows.importMeta, hGrows.url]
      exact isMain_iff_of_answer hx hFirst hNew (static?_eq_some_iff.2 hn)
    | synthetic n =>
      obtain ⟨m', hm', -⟩ := hLater.synthetic id n hn
      rw [static?_eq_some_iff.1 hm] at hm'
      cases hm'
  | @later x z fuel first result rest hFirst _ ih =>
    obtain ⟨result', z', hFirst', hRest⟩ := runFrom_serve_cons hRun
    rw [hFirst] at hFirst'
    cases hFirst'
    exact ih (later_of_runFrom_answer hx hFirst).1 hRest

/-- The module came with a request to load the program of its URL, one of the requests of the
session so far. -/
def CameAsEntry (env : Environment σ) (world : σ) (requests : List (Nat × Request σ))
    (id : ModuleId) (url : String) : Prop :=
  ∃ request, ComesWith env id request (.fresh world) requests ∧ request.Enters env url

theorem isMain_iff_cameAsEntry {world : σ} {m : StaticModule}
    (hRun : (serve env requests).runFrom (.fresh world) = some (outcome, x))
    (hm : x.state.static? id = some m) : m.IsMain ↔ CameAsEntry env world requests id m.url := by
  have hFresh := Moment.lawful_fresh world
  constructor
  · intro hMain
    have hMade : (x.state.module? id).isSome = true := by simp [static?_eq_some_iff.1 hm]
    obtain ⟨request, hComes⟩ := exists_comesWith hRun rfl hMade
    exact ⟨request, hComes, (hComes.isMain_iff hFresh hRun hm).1 hMain⟩
  · rintro ⟨request, hComes, hEnters⟩
    exact (hComes.isMain_iff hFresh hRun hm).2 hEnters

/-- In every session, a module is marked as an entry exactly if it came with a request to load the
program of its URL.  The root of a program that is loaded then is marked if it is new, and else if
it came in that way: no request marks a module that is there already. -/
theorem main_iff_came_as_entry (env : Environment σ) (world : σ)
    (requests : List (Nat × Request σ)) {outcome : Except LoadError Unit} {x : Instant σ}
    (hRun : (serve env requests).runFrom (.fresh world) = some (outcome, x)) :
    (∀ id m, x.state.static? id = some m →
      (m.importMeta.main = true ↔ CameAsEntry env world requests id m.url)) ∧
    ∀ fuel entry program y,
      (instantiate env fuel entry).runFrom x = some (.ok program, y) →
        ∃ u m, entryUrl entry env.baseUrl = .ok u ∧ y.state.static? program.root = some m ∧
          m.url = u.text ∧
          (m.importMeta.main = true ↔ x.state.module? program.root = none ∨
            CameAsEntry env world requests program.root u.text) := by
  refine ⟨fun id m hm => isMain_iff_cameAsEntry hRun hm, fun fuel entry program y hEnd => ?_⟩
  obtain ⟨hx, -⟩ := later_of_runFrom_serve (Moment.lawful_fresh world) hRun
  obtain ⟨-, u, m, hUrl, hm, hText, -⟩ :=
    (loaded_instantiate env fuel entry hx).done_of_runFrom hEnd
  refine ⟨u, m, hUrl, hm, hText, ?_⟩
  have hLater : x.Later y :=
    ((spares_instantiate env fuel entry hx).later_of_mem hx (Action.mem_moments_of_runFrom hEnd)).2
  cases hOld : x.state.module? program.root with
  | none =>
    have hMarks := ((marks_instantiate hUrl hx).of_runFrom hEnd).1 program rfl
    exact ⟨fun _ => .inl rfl, fun _ => hMarks program.root m hOld hm hText⟩
  | some n =>
    cases n with
    | static n =>
      obtain ⟨m', hm', hGrows⟩ := hLater.static program.root n (static?_eq_some_iff.2 hOld)
      rw [hm] at hm'
      cases hm'
      rw [hGrows.importMeta, ← hText, hGrows.url]
      have hBefore : n.IsMain ↔ CameAsEntry env world requests program.root n.url :=
        isMain_iff_cameAsEntry hRun (static?_eq_some_iff.2 hOld)
      simpa [StaticModule.IsMain] using hBefore
    | synthetic n =>
      obtain ⟨m', hm', -⟩ := hLater.synthetic program.root n hOld
      rw [static?_eq_some_iff.1 hm] at hm'
      cases hm'

open Sample

/-- One module comes for an import and another one as an entry.  When the first one is loaded as a
program, it is still not marked. -/
theorem main_iff_came_as_entry_pair : ∃ requests x program y m n,
    requests = [(9, .moduleFor "./a.ts" "file:///"), (9, .instantiate "main.ts")] ∧
      (serve pairEnvironment requests).runFrom (.fresh ()) = some (.ok (), x) ∧
      x.state.static? 1 = some m ∧ CameAsEntry pairEnvironment () requests 1 m.url ∧
      (instantiate pairEnvironment 9 "a.ts").runFrom x = some (.ok program, y) ∧
      y.state.static? program.root = some n ∧ n.importMeta.main = false ∧
      ¬CameAsEntry pairEnvironment () requests program.root n.url := by
  have hRun : Action.endsWith ((serve pairEnvironment
        [(9, .moduleFor "./a.ts" "file:///"), (9, .instantiate "main.ts")]).runFrom (.fresh ()))
      (fun _ x => decide ((x.state.static? 1).map (·.importMeta.main) = some true) &&
        Action.endsWith ((instantiate pairEnvironment 9 "a.ts").runFrom x) fun program y =>
          decide ((y.state.static? program.root).map (·.importMeta.main) = some false)) = true := by
    decide +kernel
  obtain ⟨⟨⟩, x, hServe, hChecked⟩ := Action.exists_of_endsWith hRun
  obtain ⟨hMain, hAgain⟩ := Bool.and_eq_true_iff.1 hChecked
  obtain ⟨m, hm, hMarked⟩ := Option.map_eq_some_iff.1 (of_decide_eq_true hMain)
  obtain ⟨hModules, hRoots⟩ := main_iff_came_as_entry pairEnvironment () _ hServe
  obtain ⟨program, y, hEnd, hUnmarked⟩ := Action.exists_of_endsWith hAgain
  obtain ⟨n, hn, hPlain⟩ := Option.map_eq_some_iff.1 (of_decide_eq_true hUnmarked)
  obtain ⟨u, n', -, hn', hText, hIff⟩ := hRoots 9 "a.ts" program y hEnd
  rw [hn] at hn'
  cases hn'
  refine ⟨_, x, program, y, m, n, rfl, hServe, hm, (hModules 1 m hm).1 hMarked, hEnd, hn, hPlain,
    fun hCame => ?_⟩
  rw [hIff.2 (.inr (hText ▸ hCame))] at hPlain
  cases hPlain

/-- A module that an import has brought is the root of a program without being marked. -/
theorem unmarked_root : ∃ x program y m,
    (serve pairEnvironment [(9, .moduleFor "./main.ts" "file:///")]).runFrom (.fresh ()) =
        some (.ok (), x) ∧
      (instantiate pairEnvironment 9 "main.ts").runFrom x = some (.ok program, y) ∧
      y.state.static? program.root = some m ∧ m.importMeta.main = false := by
  have hRun : Action.endsWith ((serve pairEnvironment
        [(9, .moduleFor "./main.ts" "file:///")]).runFrom (.fresh ()))
      (fun _ x => Action.endsWith ((instantiate pairEnvironment 9 "main.ts").runFrom x)
        fun program y =>
          decide ((y.state.static? program.root).map (·.importMeta.main) = some false)) = true := by
    decide +kernel
  obtain ⟨⟨⟩, x, hServe, hChecked⟩ := Action.exists_of_endsWith hRun
  obtain ⟨program, y, hEnd, hUnmarked⟩ := Action.exists_of_endsWith hChecked
  obtain ⟨m, hm, hPlain⟩ := Option.map_eq_some_iff.1 (of_decide_eq_true hUnmarked)
  exact ⟨x, program, y, m, hServe, hEnd, hm, hPlain⟩

end Session

end ModuleLoader
