import ModuleLoader.Proofs.Session.History
import ModuleLoader.Proofs.Session.Repose

/-! What a link leaves behind that fails: no module is linked that was not linked before, and the
root keeps the failure.  Whatever happens afterwards, the root is neither linked nor evaluated, and
every attempt ends at once with the text of that failure. -/

namespace ModuleLoader

variable {σ : Type} {x y z : Instant σ} {stuck : Instant σ → Prop}

/-- From the first moment to the second one no module has become linked. -/
def Moment.Withholds (x y : Instant σ) : Prop :=
  ∀ id, x.state.NotLinked id → y.state.NotLinked id

theorem Moment.Withholds.trans (h : x.Withholds y) (h' : y.Withholds z) : x.Withholds z :=
  fun id hid => h' id (h id hid)

theorem Moment.Bars.withholds (h : x.Bars (·.linking = .linked) y) : x.Withholds y := by
  intro id hid n hn hLinked
  obtain ⟨m, hm, hLinked⟩ := h id n hn hLinked
  exact hid m hm hLinked

theorem Moment.Withholds.failLinking (x : Instant σ) (id : ModuleId) (e : LoadError) :
    x.Withholds (x.move (x.state.updateStatic id (·.failLinking e))) :=
  (Bars.updateStatic x id (StaticModule.beyond_linked.failLinking · e)).withholds

namespace Session

/-- The action links no module. -/
abbrev Withholding {α : Type} (action : Load σ α) (x : Instant σ) : Prop :=
  action.Meets (fun _ _ => True) (fun _ => True) (fun _ y => x.Withholds y)
    (fun _ y => x.Withholds y) x

/-- No module is linked before all rounds of a link are over. -/
theorem withholding_linkRounds (env : Environment σ) (fuel : Nat) {f : Frontier}
    (hf : f.Ready x.state) : Withholding (linkRounds env fuel f) x :=
  (barring_linkRounds StaticModule.beyond_linked env fuel hf).mono (fun _ _ hStep => hStep)
    (fun _ hy => hy) (fun _ _ hy => hy.withholds) fun _ _ hy => hy.withholds

variable {env : Environment σ} {id : ModuleId} {m : StaticModule}

/-- A link that fails gives its root the text of the failure and links nothing. -/
theorem hasFailed_of_link {fuel : Nat} {root : ModuleId} {e : LoadError} (hx : x.Lawful)
    (hm : x.state.static? root = some m) (hLinking : m.linking ≠ .errored)
    (hRun : (link env fuel root).runFrom x = some (.error e, y)) :
    x.Withholds y ∧ y.state.HasFailed root e := by
  have hMeets : (link env fuel root).Meets (fun _ _ => True) (fun _ => True)
      (fun e y => x.Withholds y ∧ y.state.HasFailed root e) (fun _ _ => True) x := by
    simp only [link, Action.meets_bind, Action.meets_get, hm]
    refine ⟨trivial, ?_⟩
    cases hCase : m.linking with
    | errored => exact absurd hCase hLinking
    | linked => simp
    | unlinked | linking =>
      have hOpen : x.state.IsOpen root := ⟨m, hm, by simp [hCase]⟩
      simp only [Action.meets_bind, Action.meets_onFailure, changeStatic,
        Action.meets_modify]
      have hRounds := ((meets_linkRounds env fuel hx (.start hm hOpen)).mono
        (fun _ _ _ => trivial) (fun _ _ => trivial) (fun _ _ hy => hy) fun _ _ hy => hy).and
          (withholding_linkRounds env fuel (Frontier.ready_singleton hOpen))
      refine hRounds.mono (fun _ _ hStep => hStep) (fun _ _ => trivial) ?_
        fun _ _ _ => ⟨trivial, trivial⟩
      rintro e z ⟨⟨hz, -⟩, hNone⟩
      -- Whatever has failed, the root is the last module to get its failure.
      obtain ⟨n, hn, -⟩ := hz.later.static root m hm
      exact ⟨trivial, hNone.trans (.failLinking z root e), n.failLinking e,
        static?_updateStatic_self hn _, rfl, rfl⟩
  exact (hMeets.of_runFrom hRun).2 e rfl

theorem link_of_errored (fuel : Nat) {text : String} (hm : x.state.static? id = some m)
    (hLinking : m.linking = .errored) (hFailure : m.failure = some text) :
    (link env fuel id).runFrom x = some (.error (.link m.url text), x) := by
  have hMeets : (link env fuel id).Meets (fun _ _ => True) (fun _ => False)
      (fun e y => e = .link m.url text ∧ y = x) (fun _ _ => False) x := by
    simp [link, hm, hLinking, StaticModule.linkError, hFailure]
  exact hMeets.runFrom_eq_error

theorem evaluate_of_errored (fuel : Nat) {text : String} (hm : x.state.static? id = some m)
    (hLinking : m.linking = .errored) (hFailure : m.failure = some text) :
    (evaluate env (fuel + 1) id).runFrom x = some (.error (.link m.url text), x) := by
  have hMeets : (evaluate env (fuel + 1) id).Meets (fun _ _ => True) (fun _ => False)
      (fun e y => e = .link m.url text ∧ y = x) (fun _ _ => False) x := by
    simp [evaluate, static?_eq_some_iff.1 hm, StaticModule.evaluationStep, hLinking, hFailure]
  exact hMeets.runFrom_eq_error

/-- A program whose entry is there already has that module as its root. -/
theorem instantiate_of_static (fuel : Nat) {entry : String} {url : Url} (hx : x.Lawful)
    (hm : x.state.static? id = some m) (hEntry : entryUrl entry env.baseUrl = .ok url)
    (hUrl : url.text = m.url) :
    (instantiate env fuel entry).runFrom x =
      ((do link env fuel id; return { root := id }) : Load σ Instance).runFrom x := by
  have hGet : x.state.cache.get? url.text = some id :=
    hUrl ▸ hx.cached id (.static m) (static?_eq_some_iff.1 hm)
  have hCached : (cachedModule env ⟨url.text, .dynamic⟩ true).runFrom x = some (.ok id, x) :=
    cachedModule_of_get? env true hGet
  have hUrlFrom : (Action.ofExcept (entryUrl entry env.baseUrl) : Load σ Url).runFrom x =
      some (.ok url, x) := by rw [hEntry]; rfl
  rw [instantiate, Action.runFrom_bind_of_ok hUrlFrom, Action.runFrom_bind_of_ok hCached,
    Action.runFrom_bind_of_ok Action.runFrom_get]
  simp only [hm]

theorem instantiate_of_errored (fuel : Nat) {text entry : String} {url : Url} (hx : x.Lawful)
    (hm : x.state.static? id = some m) (hLinking : m.linking = .errored)
    (hFailure : m.failure = some text) (hEntry : entryUrl entry env.baseUrl = .ok url)
    (hUrl : url.text = m.url) :
    (instantiate env fuel entry).runFrom x = some (.error (.link m.url text), x) := by
  rw [instantiate_of_static fuel hx hm hEntry hUrl, Action.runFrom_bind,
    link_of_errored fuel hm hLinking hFailure, Option.bind_some]

/-- A link that fails links nothing and changes no linked module.  Its root keeps the text of the
failure, and every later link or evaluation of the root, and every program with the root as its
entry, fails with that text and does nothing else. -/
theorem failed_link_stays_failed (env : Environment σ) (world : σ)
    (requests : List (Nat × Request σ)) (hx : x ∈ (serve env requests).moments (.fresh world))
    {root : ModuleId} (hm : x.state.static? root = some m) (hLinking : m.linking ≠ .errored)
    {fuel : Nat} {e : LoadError} (hRun : (link env fuel root).runFrom x = some (.error e, y)) :
    (∀ j n, n.linking = .linked →
      (y.state.static? j = some n ↔ x.state.static? j = some n)) ∧
    (∃ n, y.state.static? root = some n ∧ n.linking = .errored ∧ n.status = .errored ∧
      n.failure = some e.message) ∧
    ∀ later, ∀ z ∈ (serve env later).moments y, ∀ fuel',
      (link env fuel' root).runFrom z = some (.error (.link m.url e.message), z) ∧
      (evaluate env (fuel' + 1) root).runFrom z = some (.error (.link m.url e.message), z) ∧
      ∀ entry url, entryUrl entry env.baseUrl = .ok url → url.text = m.url →
        (instantiate env fuel' entry).runFrom z = some (.error (.link m.url e.message), z) := by
  have hx := lawful_of_mem_serve hx
  obtain ⟨hExtends, -⟩ := ((meets_link env fuel root hx).of_runFrom hRun).2 e rfl
  obtain ⟨hNone, n, hn, hErrored, hFailure⟩ := hasFailed_of_link hx hm hLinking hRun
  refine ⟨fun j k hLinked => ⟨fun hk => ?_, fun hk => ?_⟩, ⟨n, hn, hErrored, ?_, hFailure⟩, ?_⟩
  · by_cases hNot : x.state.NotLinked j
    · exact absurd hLinked (hNone j hNot k hk)
    · obtain ⟨l, hl⟩ : ∃ l, x.state.static? j = some l := by
        by_contra hMissing
        exact hNot fun l hl => absurd ⟨l, hl⟩ hMissing
      rw [hExtends.static? hNot hl, Option.some.injEq] at hk
      exact hk ▸ hl
  · exact hExtends.static? (fun hNot => hNot k hk hLinked) hk
  · exact (hExtends.lawful.static root n hn).status_of_errored hErrored
  · intro later z hz fuel'
    obtain ⟨hLawful, hLater⟩ :=
      (spares_serve env later hExtends.lawful).later_of_mem hExtends.lawful hz
    obtain ⟨n', hn', hGrows⟩ := hExtends.later.static root m hm
    rw [hn] at hn'
    cases hn'
    obtain ⟨k, hk, hGrows'⟩ := hLater.static root n hn
    have hErrored' := hGrows'.errored hErrored
    have hFailure' := hGrows'.failure _ hFailure
    rw [← hGrows.url, ← hGrows'.url]
    refine ⟨link_of_errored fuel' hk hErrored' hFailure',
      evaluate_of_errored fuel' hk hErrored' hFailure', fun entry url hEntry hUrl => ?_⟩
    exact instantiate_of_errored fuel' hLawful hk hErrored' hFailure' hEntry hUrl

/-- The link of the sample's `e` fails, because `d` imports a module that is not there, and so does
every later attempt.  It gives up `b`, for which no table is made, and `c`, which `b` imports. -/
theorem failed_link_stays_failed_missing :
    ∃ x ∈ (serve Sample.together (Sample.givenUp.take 1)).moments (.fresh ()), ∃ e y,
      (link Sample.together 9 0).runFrom x = some (.error e, y) ∧
      (∃ b, y.state.static? 1 = some b ∧ b.linking = .linking ∧ b.imports = none) ∧
      y.state.cache.get? "file:///c" = none ∧
      (evaluate Sample.together 1 0).runFrom y =
        some (.error (.link "file:///e" e.message), y) := by
  have hRun : ((serve Sample.together (Sample.givenUp.take 1)).moments (.fresh ())).any (fun x =>
      (x.state.static? 0).any fun m => m.url = "file:///e" ∧ m.linking ≠ .errored ∧
        ((link Sample.together 9 0).runFrom x).any fun (outcome, y) =>
          !outcome.toBool && (y.state.cache.get? "file:///c").isNone &&
            (y.state.static? 1).any fun b => b.linking = .linking ∧ b.imports.isNone) = true := by
    decide +kernel
  obtain ⟨x, hx, hModule⟩ := List.any_eq_true.1 hRun
  obtain ⟨m, hm, hDecide⟩ := (Option.any_eq_true _ _).1 hModule
  obtain ⟨hUrl, hLinking, hLink⟩ := of_decide_eq_true hDecide
  simp only [Option.any_eq_true, Bool.and_eq_true, decide_eq_true_eq,
    Option.isNone_iff_eq_none] at hLink
  obtain ⟨⟨outcome, y⟩, hLink, ⟨hFails, hDropped⟩, b, hb, hGivenUp⟩ := hLink
  cases outcome with
  | ok => cases hFails
  | error e =>
    obtain ⟨-, -, hLater⟩ := failed_link_stays_failed Sample.together () _ hx hm hLinking hLink
    have hEvaluate := (hLater [] y List.mem_cons_self 0).2.1
    exact ⟨x, hx, e, y, hLink, ⟨b, hb, hGivenUp⟩, hDropped, hUrl ▸ hEvaluate⟩

end Session

end ModuleLoader
