import ModuleLoader.Proofs.Session.Requests
import ModuleLoader.Proofs.Shared.Alone
import ModuleLoader.Proofs.Shared.Evaluation

/-! Requests that a session answers together, each as a task of its own, from a fresh session on.
Whatever the schedule, they keep to the rules, and their replies fit the session. -/

namespace ModuleLoader

variable {σ : Type} {own : Place → Prop} {h k : Course σ}

namespace Session.Shared

open ModuleLoader.Task Course

/-- What a request is answered with. -/
inductive Reply where
  | nothing
  | module (id : ModuleId)
  | linked
  | program (program : Instance)
  | exports (exports : Namespace)

/-- Whether a reply says that a module was linked. -/
def Reply.isLinked : Reply → Bool
  | .linked => true
  | _ => false

/-- Answers a request, with fuel of its own.  Only a static module can be linked. -/
def answer (env : Environment σ) (fuel : Nat) : Request σ → Work σ Reply
  | .resolve specifier parent packages => do
    let _ ← .ofAction (resolve env specifier parent packages)
    return .nothing
  | .transpile url => do
    let _ ← .ofAction (transpile env url)
    return .nothing
  | .moduleAt resolved => return .module (← moduleAt env resolved)
  | .moduleFor specifier referrer => return .module (← moduleFor env specifier referrer)
  | .link root => do
    match (← get).static? root with
    | none => pure .nothing
    | some _ => do
      link env fuel root
      return .linked
  | .evaluate id => return .exports (← evaluate env fuel id)
  | .importExpression specifier referrer =>
    return .exports (← importExpression env fuel specifier referrer)
  | .instantiate entry => return .program (← instantiate env fuel entry)
  | .execute program => return .exports (← execute env fuel program)
  | .wait change => do
    modify fun s => { s with world := change s.world }
    return .nothing

/-- A request that is alone does what it does in a session with one task. -/
theorem runFrom_alone_answer (env : Environment σ) (fuel : Nat) (request : Request σ) (x : Instant σ) :
    ((alone env (answer env fuel request)).runFrom x).map
        (fun (outcome, y) => (outcome.map fun _ => (), y)) =
      (Session.answer env fuel request).runFrom x := by
  have hReply : ∀ {α : Type} {task : Work σ α} {action : Load σ α} (reply : α → Reply),
      Action.Agrees (alone env task) action →
      ((alone env (task >>= fun a => pure (reply a))).runFrom x).map
          (fun (outcome, y) => (outcome.map fun _ => (), y)) =
        (action >>= fun _ => pure ()).runFrom x := by
    intro α task action reply hAgrees
    simp only [alone_bind, Action.runFrom_bind]
    rw [hAgrees x]
    cases action.runFrom x with
    | none => rfl
    | some result => obtain ⟨_ | a, y⟩ := result <;> rfl
  cases request with
  | resolve specifier parent packages =>
    exact hReply _ (by simp only [alone_ofAction]; exact .refl _)
  | transpile url => exact hReply _ (by simp only [alone_ofAction]; exact .refl _)
  | moduleAt r => exact hReply _ (alone_cachedModule r false)
  | moduleFor specifier referrer => exact hReply _ (alone_moduleFor specifier referrer)
  | link root =>
    have hLink := hReply (fun _ => .linked) (alone_link fuel root)
    simp only [answer, Session.answer, alone_bind, alone_get, Action.runFrom_bind,
      Action.runFrom_get, Option.bind_some] at hLink ⊢
    cases hm : x.state.static? root with
    | none =>
      simp only [Session.link, alone_pure, Action.runFrom_pure, Action.runFrom_bind,
        Action.runFrom_get, Option.bind_some, hm]
      rfl
    | some m =>
      simp only [alone_bind, Action.runFrom_bind]
      rw [hLink]
      cases (Session.link env fuel root).runFrom x with
      | none => rfl
      | some result => obtain ⟨_ | _, y⟩ := result <;> rfl
  | evaluate id => exact hReply _ (alone_evaluate fuel id)
  | importExpression specifier referrer =>
    exact hReply _ (alone_importExpression fuel specifier referrer)
  | instantiate entry => exact hReply _ (alone_instantiate fuel entry)
  | execute program => exact hReply _ (alone_evaluate fuel program.root)
  | wait change => rfl

/-- What a reply says of the session. -/
def Reply.Fits (env : Environment σ) (x : Instant σ) : Request σ → Reply → Prop
  | .moduleAt r, reply => ∃ id, reply = .module id ∧ x.state.cache.get? r.url = some id
  | .moduleFor specifier referrer, reply =>
    ∃ id, reply = .module id ∧ x.Means specifier referrer id
  | .instantiate entry, reply => ∃ url root, reply = .program { root } ∧
    entryUrl entry env.baseUrl = .ok url ∧ x.state.cache.get? url.text = some root ∧
      x.state.IsDone root
  | .link root, reply => reply = .linked → x.state.IsDone root ∧ x.state.Settled root
  | _, _ => True

variable {env : Environment σ}

theorem meets_instantiate (fuel : Nat) (entry : String) (hh : h.now.state.Consistent) :
    Meets own (fun program k => ∃ url, program.exports = [] ∧
      entryUrl entry env.baseUrl = .ok url ∧ k.now.state.cache.get? url.text = some program.root ∧
        k.now.state.IsDone program.root) (instantiate env fuel entry) h := by
  refine meets_bind (meets_ofExcept fun url hUrl k hk => ?_)
  have hValid : k.now.state.Consistent := hk.valid (R := rules) hh
  refine meets_bind ((meets_cachedModule ⟨url.text, .dynamic⟩ true hValid).reach_mono ?_)
  intro root j hj hGet
  have hValid' : j.now.state.Consistent := hj.valid (R := rules) hValid
  obtain ⟨n, hn, -⟩ := hValid'.stored _ _ hGet
  refine meets_get fun i hi => ?_
  cases i.now.state.static? root with
  | none => exact meets_throw
  | some m =>
    obtain ⟨n', hn', -⟩ := (precedes_of_passes hi).keeps.module root n hn
    have hValid'' : i.now.state.Consistent := hi.valid (R := rules) hValid'
    refine meets_bind ((meets_link hValid'' ⟨n', hn'⟩).reach_mono fun _ i' hi' hDone => ?_)
    refine meets_pure fun j' hj' => ⟨url, rfl, hUrl, ?_, ?_⟩
    · exact (precedes_of_passes ((hi.trans hi').trans hj')).keeps.cache _ _ hGet
    · exact hDone.later (precedes_of_passes hj').keeps (hi'.valid (R := rules) hValid'')

/-- Every request keeps to the rules, and its reply fits. -/
theorem meets_answer (fuel : Nat) (request : Request σ) (hh : h.now.state.Consistent) :
    Meets own (fun reply k => reply.Fits env k.now request) (answer env fuel request) h := by
  have hKeep : ∀ {k j : Course σ}, rules.Passes own k j → k.now.state.Keeps j.now.state :=
    fun hj => (precedes_of_passes hj).keeps
  cases request with
  | resolve specifier parent packages =>
    exact meets_bind ((meets_resolve env specifier parent packages).mono fun _ _ _ =>
      meets_pure fun _ _ => trivial)
  | transpile url =>
    exact meets_bind ((meets_transpile env url).mono fun _ _ _ => meets_pure fun _ _ => trivial)
  | moduleAt r =>
    refine meets_bind ((meets_cachedModule r false hh).mono fun id k hGet => ?_)
    exact meets_pure fun j hj => ⟨id, rfl, (hKeep hj).cache _ _ hGet⟩
  | moduleFor specifier referrer =>
    refine meets_bind ((meets_moduleFor specifier referrer hh).mono fun id k hMeans => ?_)
    obtain ⟨r, hResolved, hGet⟩ := hMeans
    exact meets_pure fun j hj => ⟨id, rfl, r, (precedes_of_passes hj).events.subset hResolved,
      (hKeep hj).cache _ _ hGet⟩
  | link root =>
    refine meets_get fun k hk => ?_
    cases hm : k.now.state.static? root with
    | none => exact meets_pure fun _ _ hReply => by cases hReply
    | some m =>
      have hValid : k.now.state.Consistent := hk.valid (R := rules) hh
      refine meets_bind ((meets_link hValid ⟨_, static?_eq_some_iff.1 hm⟩).reach_mono ?_)
      intro _ j hj hDone
      refine meets_pure fun i hi _ => ?_
      have hLater := hDone.later (hKeep hi) (hj.valid (R := rules) hValid)
      obtain ⟨n, hn, -⟩ := (hKeep (hj.trans hi)).static root m hm
      exact ⟨hLater, hLater.settled n hn⟩
  | evaluate id =>
    exact meets_bind ((meets_evaluate env fuel id hh).mono fun _ _ _ =>
      meets_pure fun _ _ => trivial)
  | importExpression specifier referrer =>
    exact meets_bind ((meets_importExpression fuel specifier referrer hh).mono fun _ _ _ =>
      meets_pure fun _ _ => trivial)
  | instantiate entry =>
    refine meets_bind ((meets_instantiate fuel entry hh).reach_mono fun program k hk hProgram => ?_)
    obtain ⟨url, hExports, hUrl, hGet, hDone⟩ := hProgram
    refine meets_pure fun j hj => ⟨url, program.root, ?_, hUrl, (hKeep hj).cache _ _ hGet,
      hDone.later (hKeep hj) (hk.valid (R := rules) hh)⟩
    cases program
    cases hExports
    rfl
  | execute program =>
    exact meets_bind ((meets_evaluate env fuel program.root hh).mono fun _ _ _ =>
      meets_pure fun _ _ => trivial)
  | wait change => exact fun k hk => ⟨Rules.Finds.world rfl rfl, fun _ _ => trivial⟩

/-- The session that answers requests together, after the turns of a schedule. -/
def serve (env : Environment σ) (requests : List (Nat × Request σ)) (world : σ)
    (schedule : List Turn) : Pool (Session σ) LoadError Event Place Reply :=
  (Pool.start (requests.map fun (fuel, request) => answer env fuel request) (.fresh world)).after
    schedule

theorem consistent_fresh (world : σ) : (Moment.fresh world : Instant σ).state.Consistent := by
  constructor <;> simp [Moment.fresh, static?, module?, ModuleCache.get?]

/-- Whatever the schedule, the requests keep to the rules and their replies fit. -/
theorem sound_serve (env : Environment σ) (requests : List (Nat × Request σ)) (world : σ)
    (schedule : List Turn) : (serve env requests world schedule).Sound rules fun i reply k =>
      ∀ fuel request, requests[i]? = some (fuel, request) → reply.Fits env k.now request := by
  refine Pool.Sound.after (.start (consistent_fresh world) fun i task hTask => ?_) schedule
  rw [List.getElem?_map, Option.map_eq_some_iff] at hTask
  obtain ⟨⟨fuel, request⟩, hRequest, rfl⟩ := hTask
  refine (meets_answer fuel request (consistent_fresh world)).mono fun reply k hFits => ?_
  intro fuel' request' hRequest'
  rw [hRequest] at hRequest'
  cases hRequest'
  exact hFits

/-- A turn reports an event only when the event is possible. -/
theorem allows_of_mem_newEvents {α : Type} {p : Pool (Session σ) LoadError Event Place α}
    {done : Nat → α → Course σ → Prop} (hp : p.Sound rules done) {turn : Turn} {event : Event}
    (hEvent : event ∈ p.newEvents turn) : Allows p.history event := by
  unfold Pool.newEvents at hEvent
  rcases hp.act_of_play turn with hSame | ⟨l, y, hAct, hNext⟩
  · have hNow : (p.play turn).now = p.now := congrArg History.now hSame
    simp [hNow] at hEvent
  · have hNow : (p.play turn).now = y := congrArg History.now hNext
    rw [hNow] at hEvent
    exact Act.allows_of_mem hAct hEvent

end Session.Shared

end ModuleLoader
