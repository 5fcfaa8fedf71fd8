import ModuleLoader.Entry
import ModuleLoader.Proofs.Session.Evaluation

/-! Runs of a session: requests that are answered one after another, from a fresh session on.  Every
moment of a run is lawful, and later moments have all that earlier ones had. -/

namespace ModuleLoader

variable {σ : Type} {x y z : Instant σ}

/-- The moment at which a session begins. -/
def Moment.fresh (world : σ) : Instant σ := ⟨{ world }, []⟩

namespace Session

/-- What a session can be asked for. -/
inductive Request (σ : Type) where
  | resolve (specifier : String) (parent : Option String) (packages : Option (PackageResolver σ))
  | transpile (url : String)
  | moduleAt (resolved : ResolvedModule)
  | moduleFor (specifier referrer : String)
  | link (root : ModuleId)
  | evaluate (id : ModuleId)
  | importExpression (specifier referrer : String)
  | instantiate (entry : String)
  | execute (program : Instance)
  | wait (change : σ → σ)

def answer (env : Environment σ) (fuel : Nat) : Request σ → Load σ Unit
  | .resolve specifier parent packages => do let _ ← resolve env specifier parent packages
  | .transpile url => do let _ ← transpile env url
  | .moduleAt resolved => do let _ ← moduleAt env resolved
  | .moduleFor specifier referrer => do let _ ← moduleFor env specifier referrer
  | .link root => link env fuel root
  | .evaluate id => do let _ ← evaluate env fuel id
  | .importExpression specifier referrer => do
    let _ ← importExpression env fuel specifier referrer
  | .instantiate entry => do let _ ← instantiate env fuel entry
  | .execute program => do let _ ← execute env fuel program
  | .wait change => modify fun s => { s with world := change s.world }

/-- Answers requests one after another, each with fuel of its own and whether or not the ones before
it failed.  Modules that one request binds together take turns. -/
def serve (env : Environment σ) : List (Nat × Request σ) → Load σ Unit
  | [] => pure ()
  | (fuel, request) :: rest => do
    let _ ← (answer env fuel request).attempt
    serve env rest

theorem spares_evaluate (env : Environment σ) (fuel : Nat) (id : ModuleId) (hx : x.Lawful) :
    Session.Spares (evaluate env fuel id) x :=
  (meets_evaluate env fuel id hx).ends (fun _ _ h => h.1) fun _ _ h => h.1

theorem spares_cachedModule (env : Environment σ) (r : ResolvedModule) (main : Bool)
    (hx : x.Lawful) : Session.Spares (cachedModule env r main) x :=
  (meets_cachedModule env r main x.state.NotLinked hx).ends
    (fun _ _ hy => .of_extends hy.1 hx) fun _ _ hy => .of_extends hy.1 hx

theorem spares_of_still {α : Type} {action : Load σ α}
    (h : action.Meets Change (fun _ => True) (fun _ y => x.Still y) (fun _ y => x.Still y) x)
    (hx : x.Lawful) : Session.Spares action x := by
  refine (h.lawful hx).mono (fun _ _ hStep => hStep) (fun _ _ => trivial) ?_ ?_
  · exact fun _ y hy => .of_extends ⟨hy.1.frame _, hy.2.1, hy.2.2⟩ hx
  · exact fun _ y hy => .of_extends ⟨hy.1.frame _, hy.2.1, hy.2.2⟩ hx

theorem spares_instantiate (env : Environment σ) (fuel : Nat) (entry : String) (hx : x.Lawful) :
    Session.Spares (instantiate env fuel entry) x := by
  unfold instantiate
  cases entryUrl entry env.baseUrl with
  | error e => exact Moment.Spares.refl hx
  | ok url =>
    refine spares_bind (.refl hx) fun u y hy => spares_bind (spares_cachedModule env _ true hy)
      fun root z hz => spares_bind ⟨.refl z, .refl hz⟩ fun s w hw => ?_
    cases s.static? root with
    | none => exact Moment.Spares.refl hw
    | some m => exact spares_bind (spares_link env fuel root hw) fun _ _ hv => .refl hv

/-- Every request spares what is running. -/
theorem spares_answer (env : Environment σ) (fuel : Nat) (request : Request σ) (hx : x.Lawful) :
    Session.Spares (answer env fuel request) x := by
  have hDrop : ∀ {α : Type} {action : Load σ α}, Session.Spares action x →
      Session.Spares (do let _ ← action) x :=
    fun h => spares_bind h fun _ _ hy => .refl hy
  cases request with
  | resolve specifier parent packages =>
    refine hDrop (spares_of_still ((meets_resolve env specifier parent packages).ends ?_ ?_) hx)
    · exact fun _ _ hy => hy.1
    · exact fun _ _ hy => hy.1
  | transpile url => exact hDrop (spares_of_still (meets_transpile env url) hx)
  | moduleAt resolved => exact hDrop (spares_cachedModule env resolved false hx)
  | moduleFor specifier referrer =>
    have hModule := hDrop (spares_moduleFor env specifier referrer hx)
    exact hModule
  | link root => exact spares_link env fuel root hx
  | evaluate id => exact hDrop (spares_evaluate env fuel id hx)
  | importExpression specifier referrer =>
    exact hDrop (spares_importBy env fuel (fun id _ hy => spares_evaluate env fuel id hy) specifier
      referrer hx)
  | instantiate entry => exact hDrop (spares_instantiate env fuel entry hx)
  | execute program => exact hDrop (spares_evaluate env fuel program.root hx)
  | wait change =>
    have hStep := Change.world x change
    exact ⟨hStep, .of_still ⟨rfl, rfl, rfl⟩ hStep hx⟩

theorem spares_serve (env : Environment σ) (requests : List (Nat × Request σ)) (hx : x.Lawful) :
    Session.Spares (serve env requests) x := by
  induction requests generalizing x with
  | nil => exact Moment.Spares.refl hx
  | cons request rest ih =>
    obtain ⟨fuel, request⟩ := request
    refine spares_bind ?_ fun _ _ hy => ih hy
    rw [Session.Spares, Action.meets_attempt]
    exact spares_answer env fuel request hx

end Session

open Session

theorem Moment.lawful_fresh (world : σ) : (Moment.fresh world).Lawful := by
  constructor <;>
    simp [Moment.fresh, Session.static?, Session.module?, ModuleCache.get?, Moment.evaluatedUrls,
      Moment.evaluations]

section Moments

variable {α : Type} {stuck : Instant σ → Prop} {failed : LoadError → Instant σ → Prop}
  {done : α → Instant σ → Prop} {action : Load σ α}

theorem Action.Meets.later_of_mem (h : action.Meets Change stuck failed done x) (hx : x.Lawful)
    (hy : y ∈ action.moments x) : y.Lawful ∧ x.Later y :=
  h.forall_moments (fun y => y.Lawful ∧ x.Later y) ⟨hx, .refl x⟩
    (fun _ _ hStep hy => ⟨hStep.lawful hy.1, hy.2.trans (hStep.later hy.1)⟩) y hy

theorem Action.Meets.pairwise_later (h : action.Meets Change stuck failed done x) (hx : x.Lawful) :
    (action.moments x).Pairwise Moment.Later := by
  induction action generalizing x with
  | finish | outOfFuel => exact List.pairwise_singleton _ _
  | step change next ih =>
    have hStep := h.1.later hx
    have hLawful := h.1.lawful hx
    refine List.pairwise_cons.2 ⟨fun y hy => ?_, ih _ h.2 hLawful⟩
    exact hStep.trans (h.2.later_of_mem hLawful hy).2
  | report event next ih =>
    have hStep := h.1.later hx
    have hLawful := h.1.lawful hx
    refine List.pairwise_cons.2 ⟨fun y hy => ?_, ih h.2 hLawful⟩
    exact hStep.trans (h.2.later_of_mem hLawful hy).2

theorem Action.Meets.later_of_runFrom (h : action.Meets Change stuck failed done x) (hx : x.Lawful)
    {outcome : Except LoadError α} (hRun : action.runFrom x = some (outcome, y))
    (hz : z ∈ action.moments x) : z.Later y := by
  have hEnd : x.Later y := (h.later_of_mem hx (mem_moments_of_runFrom hRun)).2
  induction action generalizing x with
  | finish => exact List.mem_singleton.1 hz ▸ hEnd
  | outOfFuel => cases hRun
  | step change next ih =>
    have hLawful := h.1.lawful hx
    rcases List.mem_cons.1 hz with rfl | hz
    · exact hEnd
    · exact ih _ h.2 hLawful hRun hz (h.2.later_of_mem hLawful (mem_moments_of_runFrom hRun)).2
  | report event next ih =>
    have hLawful := h.1.lawful hx
    rcases List.mem_cons.1 hz with rfl | hz
    · exact hEnd
    · exact ih h.2 hLawful hRun hz (h.2.later_of_mem hLawful (mem_moments_of_runFrom hRun)).2

end Moments

theorem Session.lawful_of_mem_serve {env : Environment σ} {requests : List (Nat × Request σ)}
    {world : σ} (hx : x ∈ (serve env requests).moments (.fresh world)) : x.Lawful :=
  have hFresh := Moment.lawful_fresh world
  ((spares_serve env requests hFresh).later_of_mem hFresh hx).1

end ModuleLoader
