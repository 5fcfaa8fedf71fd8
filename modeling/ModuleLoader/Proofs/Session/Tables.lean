import ModuleLoader.Proofs.Session.Rounds

/-! The tables of imports for which a link asks.  Each of them is asked for by the round that has its
module on the frontier, and so at most once. -/

namespace ModuleLoader

/-- The module whose table of imports the event asks for. -/
def Event.asked? : Event → Option ModuleId
  | .asked id => some id
  | .resolved .. | .created .. | .evaluated .. => none

variable {σ : Type} {w x y z : Instant σ} {env : Environment σ} {id root : ModuleId}
  {ids ids' : List ModuleId}

namespace Moment

/-- The modules whose tables of imports were asked for from the moment `x` on, in order. -/
def askedSince (y x : Instant σ) : List ModuleId := (y.since x).filterMap Event.asked?

theorem mem_askedSince : id ∈ y.askedSince x ↔ .asked id ∈ y.since x := by
  rw [askedSince, List.mem_filterMap]
  constructor
  · rintro ⟨event, hEvent, hAsked⟩
    cases event with
    | asked => cases hAsked; exact hEvent
    | resolved | created | evaluated => cases hAsked
  · exact fun hEvent => ⟨_, hEvent, rfl⟩

theorem askedSince_append (h : x.events <+: y.events) (h' : y.events <+: z.events) :
    z.askedSince x = y.askedSince x ++ z.askedSince y := by
  rw [askedSince, since_append h h', List.filterMap_append, askedSince, askedSince]

theorem askedSince_hear (h : x.events <+: y.events) (event : Event) :
    (y.hear event).askedSince x = y.askedSince x ++ event.asked?.toList := by
  rw [askedSince, since_hear h, List.filterMap_append, askedSince]
  cases hAsked : event.asked? <;> simp [hAsked]

/-- From the moment `x` on only tables of the given modules were asked for, each of them once. -/
structure Asks (x y : Instant σ) (ids : List ModuleId) : Prop where
  events : x.events <+: y.events
  nodup : (y.askedSince x).Nodup
  subset : y.askedSince x ⊆ ids

namespace Asks

theorem refl (x : Instant σ) (ids : List ModuleId) : x.Asks x ids :=
  ⟨List.prefix_refl _, by simp [askedSince, since], by simp [askedSince, since]⟩

theorem mono (h : x.Asks y ids) (hSubset : ids ⊆ ids') : x.Asks y ids' :=
  ⟨h.events, h.nodup, fun _ hMem => hSubset (h.subset hMem)⟩

theorem append (h : x.Asks y ids) (h' : y.Asks z ids') (hNodup : (ids ++ ids').Nodup) :
    x.Asks z (ids ++ ids') := by
  have hApart := (List.nodup_append.1 hNodup).2.2
  refine ⟨h.events.trans h'.events, ?_, ?_⟩ <;> rw [askedSince_append h.events h'.events]
  · exact List.nodup_append.2 ⟨h.nodup, h'.nodup, fun a ha b hb =>
      hApart a (h.subset ha) b (h'.subset hb)⟩
  · exact List.append_subset.2 ⟨fun _ ha => List.mem_append_left _ (h.subset ha),
      fun _ hb => List.mem_append_right _ (h'.subset hb)⟩

theorem hear_of_none (h : x.Asks y ids) {event : Event} (hEvent : event.asked? = none) :
    x.Asks (y.hear event) ids := by
  have hSame : (y.hear event).askedSince x = y.askedSince x := by
    simp [askedSince_hear h.events, hEvent]
  exact ⟨h.events.trans (List.prefix_append _ _), hSame ▸ h.nodup, hSame ▸ h.subset⟩

theorem hear_asked (h : x.Asks y ids) (hid : id ∈ ids) (hFirst : .asked id ∉ y.since x) :
    x.Asks (y.hear (.asked id)) ids := by
  have hMore : (y.hear (.asked id)).askedSince x = y.askedSince x ++ [id] :=
    askedSince_hear h.events _
  refine ⟨h.events.trans (List.prefix_append _ _), ?_, ?_⟩ <;> rw [hMore]
  · refine List.nodup_append.2 ⟨h.nodup, List.nodup_singleton id, fun j hj k hk hEq => hFirst ?_⟩
    rw [← mem_askedSince, ← List.mem_singleton.1 hk, ← hEq]
    exact hj
  · exact List.append_subset.2 ⟨h.subset, List.cons_subset.2 ⟨hid, List.nil_subset _⟩⟩

theorem roundStep {l : Option Place} (h : x.Asks y ids)
    (hStep : RoundStep env x (.all x ids) l y z) : x.Asks z ids := by
  cases hStep with
  | outside | slot | close | create | update => exact ⟨h.events, h.nodup, h.subset⟩
  | resolved | created => exact h.hear_of_none rfl
  | asked hMine hFirst => exact h.hear_asked hMine hFirst

end Asks

end Moment

namespace Session

/-- A round asks for tables of modules on its frontier, and for all of them if it succeeds. -/
theorem asks_round (env : Environment σ) {f : Frontier} (hf : f.Ready x.state) :
    (∀ y ∈ (round env f).moments x, x.Asks y f.modules) ∧
    ∀ g y, (round env f).runFrom x = some (.ok g, y) → (y.askedSince x).Perm f.modules := by
  have hRound := meets_steps_round env hf
  have hAsks := hRound.forall_moments (x.Asks · f.modules) (.refl x _)
    fun y z ⟨_, _, hStep⟩ hy => hy.roundStep hStep
  refine ⟨hAsks, fun g y hRun => ?_⟩
  obtain ⟨imports, hBound, -⟩ := (hRound.of_runFrom hRun).1 g rfl
  have hy := hAsks y (Action.mem_moments_of_runFrom hRun)
  refine (List.perm_ext_iff_of_nodup hy.nodup hf.nodup).2 fun id => ⟨@hy.subset id, fun hid => ?_⟩
  obtain ⟨values, -, hFound⟩ := exists_of_forall₂ hBound id hid
  exact Moment.mem_askedSince.2 hFound.asked

/-- The rounds of a link ask for tables of modules on their frontiers, each of them once, and for all
of them if they succeed. -/
theorem asks_linkRounds (fuel : Nat) {visited : List ModuleId} {f : Frontier} (hx : x.Lawful)
    (h : Exploring root visited f x) :
    (∀ y ∈ (linkRounds env fuel f).moments x,
      x.Asks y ((roundsFrom env fuel f x).flatMap (·.1.modules))) ∧
    ∀ ids y, (linkRounds env fuel f).runFrom x = some (.ok ids, y) → (y.askedSince x).Perm ids := by
  induction fuel generalizing x visited f with
  | zero =>
    refine ⟨fun y hy => ?_, fun _ _ hRun => by cases hRun⟩
    rw [List.mem_singleton.1 hy]
    exact .refl x _
  | succ fuel ih =>
    rw [linkRounds_succ]
    split
    · refine ⟨fun y hy => ?_, fun ids y hRun => ?_⟩
      · rw [List.mem_singleton.1 hy]
        exact .refl x _
      · cases hRun
        simp [Moment.askedSince, Moment.since]
    · next hFull =>
      obtain ⟨hAsks, hAll⟩ := asks_round env h.ready
      have hExplores := explores_round env hx h
      refine ⟨fun y hy => ?_, fun ids y hRun => ?_⟩
      · rcases Action.mem_moments_bind hy with hy | ⟨g, z, hRound, hy⟩
        · exact (hAsks y hy).mono (subset_roundsFrom ..)
        · -- What comes after the round asks for tables of later frontiers.
          obtain ⟨hz, hNext⟩ := hExplores.done_of_runFrom hRound
          have hRest : y ∈ (linkRounds env fuel g).moments z := by
            rcases Action.mem_moments_bind hy with hy | ⟨ids, y', hRun, hy⟩
            · exact hy
            · rw [List.mem_singleton.1 hy]
              exact Action.mem_moments_of_runFrom hRun
          have hNodup := h.nodup_roundsFrom env (fuel + 1) hx
          rw [roundsFrom_of_round hFull hRound, List.flatMap_cons] at hNodup ⊢
          exact (hAsks z (Action.mem_moments_of_runFrom hRound)).append ((ih hz hNext).1 y hRest)
            (List.nodup_append.1 hNodup).2.1
      · obtain ⟨g, z, hRound, hRest⟩ := Action.exists_of_runFrom_bind hRun
        obtain ⟨hz, hNext⟩ := hExplores.done_of_runFrom hRound
        obtain ⟨later, w, hLater, hEnd⟩ := Action.exists_of_runFrom_bind hRest
        cases hEnd
        have hEvents := ((ih hz hNext).1 _ (Action.mem_moments_of_runFrom hLater)).events
        rw [Moment.askedSince_append (hAsks z (Action.mem_moments_of_runFrom hRound)).events hEvents]
        exact (hAll g z hRound).append ((ih hz hNext).2 later _ hLater)

/-- What a link asks for is asked for by its rounds. -/
theorem asks_link (fuel : Nat) {m : StaticModule} (hx : x.Lawful)
    (hm : x.state.static? root = some m) :
    (∀ y ∈ (link env fuel root).moments x, x.Asks y (frontierModules env fuel root x)) ∧
    ∀ y, (link env fuel root).runFrom x = some (.ok (), y) →
      (y.askedSince x).Perm (frontierModules env fuel root x) := by
  have hFrontiers (hOpen : m.linking = .unlinked ∨ m.linking = .linking) :
      (∀ y ∈ (linkRounds env fuel ⟨[m.url], [root]⟩).moments x,
        x.Asks y (frontierModules env fuel root x)) ∧
      ∀ ids y, (linkRounds env fuel ⟨[m.url], [root]⟩).runFrom x = some (.ok ids, y) →
        (y.askedSince x).Perm ids := by
    have hSame : frontierModules env fuel root x =
        (roundsFrom env fuel ⟨[m.url], [root]⟩ x).flatMap (·.1.modules) := by
      rcases hOpen with hOpen | hOpen <;> simp [frontierModules, rounds, hm, hOpen]
    exact hSame ▸ asks_linkRounds fuel hx (.start hm ⟨m, hm, hOpen⟩)
  refine ⟨?_, fun y hRun => ?_⟩
  · have hMeets : (link env fuel root).Meets
        (fun _ y => x.Asks y (frontierModules env fuel root x)) (fun _ => True) (fun _ _ => True)
        (fun _ _ => True) x := by
      simp only [link, Action.meets_bind, Action.meets_get, hm]
      refine ⟨.refl x _, ?_⟩
      cases hLinking : m.linking with
      | linked | errored => trivial
      | unlinked | linking =>
        simp only [Action.meets_bind, Action.meets_onFailure, changeStatic, Action.meets_modify]
        refine (Action.meets_of_moments (hFrontiers (by simp [hLinking])).1).mono
          (fun _ _ hy => hy) (fun _ _ => trivial) ?_ ?_
        · exact fun _ _ hy => ⟨⟨hy.events, hy.nodup, hy.subset⟩, trivial⟩
        · exact fun _ _ hy => ⟨⟨hy.events, hy.nodup, hy.subset⟩, trivial⟩
    exact hMeets.forall_moments (x.Asks · _) (.refl x _) fun _ _ hStep _ => hStep
  · cases hLinking : m.linking with
    | linked =>
      rw [link_of_linked_static env fuel hm hLinking] at hRun
      cases hRun
      simp [frontierModules, rounds, hm, hLinking, Moment.askedSince, Moment.since]
    | errored => simp [link, hm, hLinking] at hRun
    | unlinked | linking =>
      obtain ⟨z, hRounds, rfl⟩ := exists_of_link hm (by simp [hLinking]) hRun
      exact (hFrontiers (by simp [hLinking])).2 _ z hRounds

end Session

end ModuleLoader
