import ModuleLoader.Proofs.Session.Closure
import ModuleLoader.Proofs.Shared.Requests
import ModuleLoader.Proofs.Task.Waiting

/-! One module is made for every URL.  One task at a time makes it, and all that ask for it get it.  A
task that fails to make it, or is given up, leaves the URL to the others. -/

namespace ModuleLoader

variable {σ : Type} {h : Course σ} {y : Instant σ} {l : Option Place}

open Session

namespace Act

/-- A task leaves the slot that it was at with a module, or without having done anything. -/
theorem of_making {slot : SlotId} (hAct : Act (some (.making slot)) h y) :
    y = h.now ∨ ∃ id, y.state.cache.record? slot = some id := by
  cases hAct with
  | close => exact .inl rfl
  | @create _ url _ m hSlot hNone hNew =>
    have hUnbound := ModuleCache.get?_of_record?_none hSlot hNone
    have hFilled : (h.now.state.withModule slot m).cache.IsSlot url slot :=
      ModuleCache.isSlot_fill hSlot _ _
    refine .inr ⟨h.now.state.modules.length, ?_⟩
    rw [Moment.state_move, ModuleCache.record?_of_isSlot hFilled,
      get?_withModule hSlot hUnbound, if_pos rfl]
  | update _ hEdit => cases hEdit

end Act

namespace Session.Shared

variable {α : Type}

/-- Every URL gets one module in the pool, which one task at a time makes. -/
structure MakesOnce (p : Pool (Session σ) LoadError Event Place α) : Prop where
  unique : ∀ id id' m m', p.now.state.module? id = some m → p.now.state.module? id' = some m' →
    m.url = m'.url → id = id'
  kept : ∀ turn url id, p.now.state.cache.get? url = some id →
    (p.play turn).now.state.cache.get? url = some id
  slots : ∀ turn url slot, p.now.state.cache.IsSlot url slot →
    (p.play turn).now.state.cache.IsSlot url slot
  /-- A module is made by one task at a time, which is at the slot of the URL, -/
  alone : ∀ slot, p.holds (.making slot) ≤ 1
  /-- and by none when the URL has one. -/
  unmade : ∀ url slot, p.now.state.cache.IsSlot url slot → 0 < p.holds (.making slot) →
    p.now.state.cache.get? url = none
  created : ∀ turn r outcome, .created r outcome ∈ p.newEvents turn →
    p.now.state.cache.get? r.url = none
  /-- The module of a URL is stored by the task that was at its slot, -/
  stored : ∀ turn url slot, p.now.state.cache.IsSlot url slot →
    p.now.state.cache.get? url = none → ((p.play turn).now.state.cache.get? url).isSome →
    p.holds (.making slot) = 1 ∧ (p.play turn).holds (.making slot) = 0
  /-- and a task that leaves without one, because it fails or is given up, changes nothing. -/
  left : ∀ turn url slot, p.now.state.cache.IsSlot url slot → 0 < p.holds (.making slot) →
    (p.play turn).holds (.making slot) = 0 →
    ((p.play turn).now.state.cache.get? url).isSome ∨ (p.play turn).now = p.now
  /-- Then a task that waits there makes the module in its turn, -/
  waiting : ∀ i task path url slot, p.task? i = some task → task.Awaits (making slot) path →
    p.now.state.cache.IsSlot url slot → p.now.state.cache.get? url = none →
    p.holds (.making slot) = 0 → (p.play (.run i path)).holds (.making slot) = 1
  /-- and so does a task that comes later. -/
  later : ∀ (env : Environment σ) i r main (next : ModuleId → Work σ α) slot,
    p.task? i = some (.ready (cachedModule env r main >>= next)) →
    p.now.state.cache.IsSlot r.url slot → p.now.state.cache.get? r.url = none →
    p.holds (.making slot) = 0 →
    (p.after (List.replicate 3 (.run i []))).holds (.making slot) = 1

variable {p : Pool (Session σ) LoadError Event Place α} {done : Nat → α → Course σ → Prop}

theorem keeps_play (hp : p.Sound rules done) (turn : Turn) :
    p.now.state.Keeps (p.play turn).now.state :=
  (Course.precedes_of_passes (hp.passes_after [turn])).keeps

/-- Only the task that is at a slot fills it, and it leaves then. -/
theorem holds_of_record? (hp : p.Sound rules done) {turn : Turn} {slot : SlotId}
    (hChange : (p.play turn).now.state.cache.record? slot ≠ p.now.state.cache.record? slot) :
    p.holds (.making slot) = 1 ∧ (p.play turn).holds (.making slot) = 0 := by
  rcases hp.shift_of_play turn with ⟨hSame, -⟩ | ⟨l, hAct, hShift⟩
  · exact absurd (congrArg (fun h : Course σ => h.now.state.cache.record? slot) hSame) hChange
  · have hl : l = some (.making slot) := by
      by_contra hOther
      exact hChange (Act.record?_eq hAct hOther)
    subst hl
    cases hShift with
    | leave _ h =>
      have hBefore := h (.making slot)
      have hOnce := hp.once (.making slot)
      simp only [if_true] at hBefore
      omega

/-- Who was at a slot and is there no more has filled it, or nothing has happened. -/
theorem record?_of_left (hp : p.Sound rules done) {turn : Turn} {slot : SlotId}
    (hHolds : 0 < p.holds (.making slot)) (hLeft : (p.play turn).holds (.making slot) = 0) :
    (∃ id, (p.play turn).now.state.cache.record? slot = some id) ∨ (p.play turn).now = p.now := by
  rcases hp.shift_of_play turn with ⟨hSame, -⟩ | ⟨l, hAct, hShift⟩
  · exact .inr (congrArg History.now hSame)
  · cases hShift with
    | stay hPlaces =>
      rw [hPlaces] at hLeft
      omega
    | lose hNow => exact .inr hNow
    | enter place _ _ hPlaces =>
      have hAfter := hPlaces (.making slot)
      omega
    | leave place hPlaces =>
      have hBefore := hPlaces (.making slot)
      by_cases hPlace : .making slot = place
      · subst hPlace
        exact (Act.of_making hAct).symm
      · rw [if_neg hPlace] at hBefore
        omega

/-- A task looks for the slot, then at what is there, and enters when that is nothing. -/
theorem holds_of_cachedModule (env : Environment σ) {i : Nat} {r : ResolvedModule} {main : Bool}
    {next : ModuleId → Work σ α} {slot : SlotId}
    (hTask : p.task? i = some (.ready (cachedModule env r main >>= next)))
    (hSlot : p.now.state.cache.slot? r.url = some slot)
    (hRecord : p.now.state.cache.record? slot = none) (hFree : p.holds (.making slot) = 0) :
    (p.after (List.replicate 3 (.run i []))).holds (.making slot) = 1 := by
  obtain ⟨hFirst, hNow, hHolds⟩ := p.play_of_step id hTask []
  simp only [Task.andThen, hSlot] at hFirst
  obtain ⟨hSecond, hNow', hHolds'⟩ := (p.play (.run i [])).play_of_step id hFirst []
  rw [hNow] at hSecond hNow'
  simp only [Task.andThen, Moment.state_move, id, hRecord] at hSecond
  have hSkip : (making slot).skip (((p.play (.run i [])).play (.run i [])).now.state) = none := by
    rw [hNow']
    simp [making, hRecord]
  have hFree' : ((p.play (.run i [])).play (.run i [])).holds (.making slot) = 0 := by
    rw [hHolds', hHolds, hFree]
  have hEnter := (Pool.play_of_awaits hSecond (.ready _ _ []) hSkip hFree').2 (.making slot)
  simpa [making, hFree', Pool.after] using hEnter

theorem makesOnce (hp : p.Sound rules done) : MakesOnce p := by
  have hValid : p.now.state.Consistent := hp.valid
  constructor
  case unique =>
    intro id id' m m' hm hm' hUrl
    have hGet := hValid.cached id m hm
    rw [hUrl, hValid.cached id' m' hm'] at hGet
    cases hGet
    rfl
  case kept => exact fun turn => (keeps_play hp turn).cache
  case slots => exact fun turn => (keeps_play hp turn).slots
  case alone => exact fun slot => hp.once _
  case unmade =>
    intro url slot hSlot hHolds
    rw [← ModuleCache.record?_of_isSlot hSlot]
    exact hp.kept _ hHolds
  case created => exact fun turn r outcome hEvent => allows_of_mem_newEvents hp hEvent
  case stored =>
    intro turn url slot hSlot hNone hSome
    refine holds_of_record? hp fun hSame => ?_
    rw [ModuleCache.record?_of_isSlot hSlot, hNone,
      ModuleCache.record?_of_isSlot ((keeps_play hp turn).slots url slot hSlot)] at hSame
    rw [hSame] at hSome
    cases hSome
  case left =>
    intro turn url slot hSlot hHolds hLeft
    rw [← ModuleCache.record?_of_isSlot ((keeps_play hp turn).slots url slot hSlot)]
    refine (record?_of_left hp hHolds hLeft).imp_left ?_
    rintro ⟨id, hRecord⟩
    simp [hRecord]
  case waiting =>
    intro i task path url slot hTask hAwaits hSlot hNone hFree
    rw [← ModuleCache.record?_of_isSlot hSlot] at hNone
    have hPlay := (Pool.play_of_awaits hTask hAwaits (by simp [making, hNone]) hFree).2
    simpa [making, hFree] using hPlay (.making slot)
  case later =>
    intro env i r main next slot hTask hSlot hNone hFree
    exact holds_of_cachedModule env hTask hSlot ((ModuleCache.record?_of_isSlot hSlot).trans hNone)
      hFree

/-- Whatever the requests and the schedule, every URL gets one module, and whoever asks for the module
of a URL is answered with that one. -/
theorem module_made_once (env : Environment σ) (requests : List (Nat × Request σ)) (world : σ)
    (schedule : List Turn) :
    MakesOnce (serve env requests world schedule) ∧
      ∀ i fuel request reply, requests[i]? = some (fuel, request) →
        (serve env requests world schedule).outcome? i = some (.ok reply) →
        reply.Fits env (serve env requests world schedule).now request := by
  have hSound := sound_serve env requests world schedule
  refine ⟨makesOnce hSound, fun i fuel request reply hRequest hReply => ?_⟩
  exact hSound.done_of_outcome hReply fuel request hRequest

end Session.Shared

namespace Sample

/-- An environment in which `a` and `b` import `c`, and `c` imports a module of the host.  The host
fails when it is first asked for its module. -/
def flaky : Environment Nat where
  baseUrl := { scheme := "file", authority := some {}, path := .segments [""] }
  files := fun _ => files
  packages := some fun specifier _ =>
    pure (.ok ⟨"file:///" ++ specifier, if specifier = "host" then .module else .dynamic⟩)
  engine := some fun _ path _ =>
    pure { code := "", dependencies := some (if path.text = "/c" then ["host"] else ["c"]) }
  importNative := fun url asked =>
    (if asked = 0 then .error (.nativeImport url "not yet") else .ok .empty, asked + 1)
  evaluate := fun _ _ => .finish (.ok .empty)

/-- Turns of one task, which take it on from where it is, also if it has been divided twice. -/
def turns (task count : Nat) : List Turn :=
  (List.replicate count [.run task [0, 0], .run task [0], .run task []]).flatten

/-- Requests for one module of the host. -/
def repeated : List (Nat × Session.Request Nat) :=
  List.replicate 3 (9, .moduleAt ⟨"file:///host", .module⟩)

/-- While the first task makes the module, the second one comes to wait.  The first one fails, the
second one makes the module, and the third one finds it. -/
def retry : List Turn := turns 0 2 ++ turns 1 2 ++ turns 0 3 ++ turns 1 4 ++ turns 2 4

end Sample

namespace Session.Shared

theorem module_made_once_retry :
    ∃ e id, (serve Sample.flaky Sample.repeated 0 Sample.retry).outcome? 0 = some (.error e) ∧
      (serve Sample.flaky Sample.repeated 0 Sample.retry).outcome? 1 = some (.ok (.module id)) ∧
      (serve Sample.flaky Sample.repeated 0 Sample.retry).outcome? 2 = some (.ok (.module id)) := by
  have hFirst : ((serve Sample.flaky Sample.repeated 0 Sample.retry).outcome? 0).map
      Except.toBool = some false := by decide +kernel
  have hSecond : ((serve Sample.flaky Sample.repeated 0 Sample.retry).outcome? 1).map
      Except.toBool = some true := by decide +kernel
  have hThird : ((serve Sample.flaky Sample.repeated 0 Sample.retry).outcome? 2).map
      Except.toBool = some true := by decide +kernel
  obtain ⟨first, hFirst, hFails⟩ := Option.map_eq_some_iff.1 hFirst
  obtain ⟨second, hSecond, hEnds⟩ := Option.map_eq_some_iff.1 hSecond
  obtain ⟨third, hThird, hEnds'⟩ := Option.map_eq_some_iff.1 hThird
  obtain ⟨-, hFits⟩ := module_made_once Sample.flaky Sample.repeated 0 Sample.retry
  cases first with
  | ok => cases hFails
  | error e =>
    cases second with
    | error => cases hEnds
    | ok reply =>
      cases third with
      | error => cases hEnds'
      | ok reply' =>
        obtain ⟨id, rfl, hGet⟩ := hFits 1 9 _ reply rfl hSecond
        obtain ⟨id', rfl, hGet'⟩ := hFits 2 9 _ reply' rfl hThird
        rw [hGet] at hGet'
        cases hGet'
        exact ⟨e, id, hFirst, hSecond, hThird⟩

end Session.Shared

end ModuleLoader
