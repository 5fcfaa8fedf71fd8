import ModuleLoader.Pool
import ModuleLoader.Proofs.Action
import Mathlib.Data.List.Forall2
import Mathlib.Data.List.OfFn

/-! Contracts of tasks.  The rules of a task say what one of its steps may do, and what the steps of
the other tasks may do in the meantime, which close no section in which the task itself is.  `Meets`
says from which history on a task keeps to its rules and ends as given.  When a task divides itself,
each of its children keeps to a part of the rules, and the parts have to fit together. -/

namespace ModuleLoader

/-- The moments that a pool has gone through, the latest one first. -/
structure History (S τ : Type) where
  now : Moment S τ
  past : List (Moment S τ) := []

/-- The history after one more step. -/
def History.next {S τ : Type} (h : History S τ) (y : Moment S τ) : History S τ :=
  ⟨y, h.now :: h.past⟩

/-- What a task keeps to, and what it can rely on. -/
structure Rules (S τ κ : Type) where
  /-- One step of the task, with the place of the section that it closes. -/
  Act : Option κ → History S τ → Moment S τ → Prop
  /-- One step of another task. -/
  Pass : Option κ → History S τ → Moment S τ → Prop
  /-- What holds all the time. -/
  Valid : History S τ → Prop
  /-- What holds while a task is at a place. -/
  Kept : κ → S → Prop
  /-- While a task is at the first place, it may have to wait at the second one. -/
  Before : κ → κ → Prop
  /-- A task may run out of fuel. -/
  Spent : Prop
  act_now : ∀ h, Act none h h.now
  pass_now : ∀ h, Pass none h h.now
  valid_next : ∀ {l h y}, Valid h → Act l h y ∨ Pass l h y → Valid (h.next y)
  kept_next : ∀ {l h y place}, Valid h → Act l h y ∨ Pass l h y → l ≠ some place →
    Kept place h.now.state → Kept place y.state

variable {S ε τ κ α β γ : Type} {R R' : Rules S τ κ} {own own' : κ → Prop} {h k j : History S τ}

/-- Any number of steps that `P` allows, none of which closes a section at the places `own`. -/
inductive Steps (P : Option κ → History S τ → Moment S τ → Prop) (own : κ → Prop) :
    History S τ → History S τ → Prop
  | refl (h : History S τ) : Steps P own h h
  | next {h k : History S τ} {l : Option κ} {y : Moment S τ} (hSteps : Steps P own h k)
      (hStep : P l k y) (hOther : ∀ place, l = some place → ¬own place) : Steps P own h (k.next y)

namespace Steps

variable {P P' : Option κ → History S τ → Moment S τ → Prop}

theorem one {l : Option κ} {y : Moment S τ} (hStep : P l h y)
    (hOther : ∀ place, l = some place → ¬own place) : Steps P own h (h.next y) :=
  .next (.refl h) hStep hOther

theorem trans (hk : Steps P own h k) (hj : Steps P own k j) : Steps P own h j := by
  induction hj with
  | refl => exact hk
  | next _ hStep hOther ih => exact .next ih hStep hOther

theorem mono (hk : Steps P own h k) (hP : ∀ {l h y}, P l h y → P' l h y)
    (hOwn : ∀ place, own' place → own place) : Steps P' own' h k := by
  induction hk with
  | refl => exact .refl h
  | next _ hStep hOther ih =>
    exact .next ih (hP hStep) fun place hl hp => hOther place hl (hOwn place hp)

/-- What every step keeps holds at the end. -/
theorem invariant {I : History S τ → Prop} (hk : Steps P own h k) (hh : I h)
    (hStep : ∀ {l h y}, P l h y → I h → I (h.next y)) : I k := by
  induction hk with
  | refl => exact hh
  | next _ hP _ ih => exact hStep hP ih

end Steps

/-- One step of the task or of another one. -/
def Rules.Move (R : Rules S τ κ) (l : Option κ) (h : History S τ) (y : Moment S τ) : Prop :=
  R.Act l h y ∨ R.Pass l h y

/-- What may happen while a task that is at the places `own` does nothing. -/
abbrev Rules.Passes (R : Rules S τ κ) : (κ → Prop) → History S τ → History S τ → Prop :=
  Steps R.Pass

/-- What may happen while a task goes on that was at the places `own` before. -/
abbrev Rules.Ways (R : Rules S τ κ) : (κ → Prop) → History S τ → History S τ → Prop :=
  Steps R.Move

/-- The tasks that share the rules can rely on no more than what they all keep to. -/
class Rules.Common (R : Rules S τ κ) : Prop where
  pass : ∀ {l h y}, R.Act l h y → R.Pass l h y

theorem Rules.Ways.valid (hk : R.Ways own h k) (hh : R.Valid h) : R.Valid k :=
  hk.invariant hh fun hStep hValid => R.valid_next hValid hStep

/-- The way through a section that the task was not in before. -/
theorem Rules.Ways.through {place : κ} {y z : Moment S τ} (hk : R.Ways own h k)
    (hStart : R.Act none k y) (hj : R.Ways (fun q => q = place ∨ own q) (k.next y) j)
    (hClose : R.Act (some place) j z) (hOwn : ¬own place) : R.Ways own h (j.next z) := by
  refine ((hk.next (.inl hStart) (by simp)).trans (hj.mono id fun _ => .inr)).next (.inl hClose) ?_
  intro q hq hOwn'
  cases hq
  exact hOwn hOwn'

theorem Rules.Ways.passes [R.Common] (hk : R.Ways own h k) : R.Passes own h k :=
  hk.mono (fun hStep => hStep.elim Common.pass id) fun _ => id

namespace Rules.Passes

theorem ways (hk : R.Passes own h k) : R.Ways own h k := hk.mono .inr fun _ => id

theorem valid (hk : R.Passes own h k) (hh : R.Valid h) : R.Valid k := hk.ways.valid hh

/-- What holds while a task is at a place goes on to hold until the task leaves. -/
theorem kept {place : κ} (hk : R.Passes own h k) (hh : R.Valid h) (hOwn : own place)
    (hKept : R.Kept place h.now.state) : R.Kept place k.now.state := by
  induction hk with
  | refl => exact hKept
  | next hPasses hPass hOther ih =>
    exact R.kept_next (valid hPasses hh) (.inr hPass) (fun hl => hOther place hl hOwn) ih

end Rules.Passes

/-- A child that keeps to the first rules keeps to the second ones, and can rely on them. -/
structure Rules.Within (R' R : Rules S τ κ) : Prop where
  act : ∀ {l h y}, R'.Act l h y → R.Act l h y
  pass : ∀ {l h y}, R.Pass l h y → R'.Pass l h y
  kept : R'.Kept = R.Kept
  before : R'.Before = R.Before
  spent : R'.Spent → R.Spent

/-- The parts of the rules to which the children of a task keep.  What one of them does, the others
can rely on. -/
structure Rules.Splits (R : Rules S τ κ) {n : Nat} (parts : Fin n → Rules S τ κ) : Prop where
  within : ∀ i, (parts i).Within R
  apart : ∀ {i j}, i ≠ j → ∀ {l h y}, (parts i).Act l h y → (parts j).Pass l h y

theorem Rules.splits_same [R.Common] (n : Nat) : R.Splits fun _ : Fin n => R where
  within _ := ⟨id, id, rfl, rfl, id⟩
  apart _ := Common.pass

/-- One step of one of the children, or of a task that is none of them. -/
def Rules.Joint (R : Rules S τ κ) {n : Nat} (parts : Fin n → Rules S τ κ) (l : Option κ)
    (h : History S τ) (y : Moment S τ) : Prop :=
  (∃ i, (parts i).Act l h y) ∨ R.Pass l h y

theorem Rules.Splits.ways {n : Nat} {parts : Fin n → Rules S τ κ} (hSplits : R.Splits parts)
    (hk : Steps (R.Joint parts) own h k) : R.Ways own h k :=
  hk.mono (fun hStep => hStep.imp_left fun ⟨i, hAct⟩ => (hSplits.within i).act hAct) fun _ => id

/-- The task may leave the section with an outcome, and `rest` is true of what follows. -/
def Section.Leaves (R : Rules S τ κ) (part : Section S ε κ β γ)
    (rest : Except ε γ → History S τ → Prop) (outcome : Except ε β) (h : History S τ) : Prop :=
  R.Kept part.place h.now.state →
    R.Act (some part.place) h (h.now.move (part.close outcome h.now.state).2) ∧
      rest (part.close outcome h.now.state).1 (h.next (h.now.move (part.close outcome h.now.state).2))

/-- Whatever the children come to, `rest` is true of it. -/
def Gathers (R : Rules S τ κ) {n : Nat} (parts : Fin n → Rules S τ κ) (own : κ → Prop)
    (failed : Fin n → ε → History S τ → Prop) (done : Fin n → β → History S τ → Prop)
    (rest : Except ε (List β) → History S τ → Prop) (h : History S τ) : Prop :=
  ∀ k, Steps (R.Joint parts) own h k →
    (∀ results : Fin n → β, (∀ i, done i (results i) k) → rest (.ok (List.ofFn results)) k) ∧
      ∀ i e, failed i e k → rest (.error e) k

/-- The task keeps to the rules, whatever other tasks do before each of its steps, and ends as
`failed` and `done` say. -/
def Task.Meets {α : Type} (R : Rules S τ κ) (own : κ → Prop) (failed : ε → History S τ → Prop)
    (done : α → History S τ → Prop) : Task S ε τ κ α → History S τ → Prop
  | .finish (.ok a), h => ∀ k, R.Passes own h k → done a k
  | .finish (.error e), h => ∀ k, R.Passes own h k → failed e k
  | .outOfFuel, _ => R.Spent
  | .step change next, h => ∀ k, R.Passes own h k →
    R.Act none k (k.now.move (change k.now.state)) ∧
      (next k.now.state).Meets R own failed done (k.next (k.now.move (change k.now.state)))
  | .report event next, h => ∀ k, R.Passes own h k →
    R.Act none k (k.now.hear event) ∧ next.Meets R own failed done (k.next (k.now.hear event))
  | .enter part body next, h =>
    (part.exclusive = true → ∀ place, own place → R.Before place part.place) ∧
    ∀ k, R.Passes own h k →
    (∀ outcome, part.skip k.now.state = some outcome → (next outcome).Meets R own failed done k) ∧
    (part.skip k.now.state = none →
      (part.exclusive = false → ¬R.Kept part.place k.now.state) ∧
      (¬own part.place →
        R.Act none k (k.now.move (part.start k.now.state)) ∧
        R.Kept part.place (part.start k.now.state) ∧
        body.Meets R (fun place => place = part.place ∨ own place)
          (fun e => part.Leaves R (fun outcome => (next outcome).Meets R own failed done) (.error e))
          (fun b => part.Leaves R (fun outcome => (next outcome).Meets R own failed done) (.ok b))
          (k.next (k.now.move (part.start k.now.state)))))
  | .join (n := n) children next, h =>
    ∃ (parts : Fin n → Rules S τ κ) (failed' : Fin n → ε → History S τ → Prop)
      (done' : Fin n → _ → History S τ → Prop), R.Splits parts ∧
      (∀ i, (children i).Meets (parts i) own (failed' i) (done' i) h) ∧
        Gathers R parts own failed' done' (fun outcome => (next outcome).Meets R own failed done) h

/-- A task that has begun keeps to the rules, like `Task.Meets`. -/
def Running.Meets {α : Type} (R : Rules S τ κ) (own : κ → Prop) (failed : ε → History S τ → Prop)
    (done : α → History S τ → Prop) : Running S ε τ κ α → History S τ → Prop
  | .ready task, h => task.Meets R own failed done h
  | .inside part body next, h =>
    body.Meets R (fun place => place = part.place ∨ own place)
      (fun e => part.Leaves R (fun outcome => (next outcome).Meets R own failed done) (.error e))
      (fun b => part.Leaves R (fun outcome => (next outcome).Meets R own failed done) (.ok b)) h
  | .divided (n := n) children next, h =>
    ∃ (parts : Fin n → Rules S τ κ) (failed' : Fin n → ε → History S τ → Prop)
      (done' : Fin n → _ → History S τ → Prop), R.Splits parts ∧
      (∀ i, (children i).Meets (parts i) own (failed' i) (done' i) h) ∧
        Gathers R parts own failed' done' (fun outcome => (next outcome).Meets R own failed done) h

section Gathers

variable {n : Nat} {parts : Fin n → Rules S τ κ} {failed : Fin n → ε → History S τ → Prop}
  {done : Fin n → β → History S τ → Prop} {rest rest' : Except ε (List β) → History S τ → Prop}

theorem Gathers.later (hGathers : Gathers R parts own failed done rest h)
    (hk : Steps (R.Joint parts) own h k) : Gathers R parts own failed done rest k :=
  fun j hj => hGathers j (hk.trans hj)

theorem Gathers.mono (hGathers : Gathers R parts own failed done rest h)
    (hRest : ∀ outcome k, Steps (R.Joint parts) own h k → rest outcome k → rest' outcome k) :
    Gathers R parts own failed done rest' h := fun k hk =>
  ⟨fun results hResults => hRest _ k hk ((hGathers k hk).1 results hResults),
    fun i e hFailed => hRest _ k hk ((hGathers k hk).2 i e hFailed)⟩

end Gathers

theorem Section.Leaves.mono {part : Section S ε κ β γ} {rest rest' : Except ε γ → History S τ → Prop}
    {outcome : Except ε β} (hLeaves : part.Leaves R rest outcome h)
    (hRest : R.Act (some part.place) h (h.now.move (part.close outcome h.now.state).2) →
      ∀ o, rest o (h.next (h.now.move (part.close outcome h.now.state).2)) →
        rest' o (h.next (h.now.move (part.close outcome h.now.state).2))) :
    part.Leaves R rest' outcome h := fun hKept =>
  ⟨(hLeaves hKept).1, hRest (hLeaves hKept).1 _ (hLeaves hKept).2⟩

namespace Task.Meets

/-- A task that keeps to the rules may be kept waiting. -/
theorem later {task : Task S ε τ κ α} {failed : ε → History S τ → Prop}
    {done : α → History S τ → Prop} (hTask : task.Meets R own failed done h)
    (hk : R.Passes own h k) : task.Meets R own failed done k := by
  induction task generalizing R failed h k with
  | finish outcome => cases outcome <;> exact fun j hj => hTask j (hk.trans hj)
  | outOfFuel => exact hTask
  | step | report => exact fun j hj => hTask j (hk.trans hj)
  | enter part body next => exact ⟨hTask.1, fun j hj => hTask.2 j (hk.trans hj)⟩
  | join children next ih =>
    obtain ⟨parts, failed', done', hSplits, hChildren, hGathers⟩ := hTask
    exact ⟨parts, failed', done', hSplits,
      fun i => ih i (hChildren i) (hk.mono (hSplits.within i).pass fun _ => id),
      hGathers.later (hk.mono .inr fun _ => id)⟩

/-- What is true at the end of a task is what `failed` and `done` say, with what is known of the way
there: nobody has closed a section in which the task itself was. -/
theorem ways_mono {task : Task S ε τ κ α} {failed failed' : ε → History S τ → Prop}
    {done done' : α → History S τ → Prop} (hTask : task.Meets R own failed done h)
    (hFailed : ∀ e k, R.Ways own h k → failed e k → failed' e k)
    (hDone : ∀ a k, R.Ways own h k → done a k → done' a k) : task.Meets R own failed' done' h := by
  -- A body has one more place than the task around it, so that the places vary.
  induction task generalizing own failed failed' h with
  | finish outcome =>
    cases outcome with
    | ok a => exact fun k hk => hDone a k hk.ways (hTask k hk)
    | error e => exact fun k hk => hFailed e k hk.ways (hTask k hk)
  | outOfFuel => exact hTask
  | step change next ih =>
    intro k hk
    obtain ⟨hAct, hNext⟩ := hTask k hk
    have hWay := hk.ways.next (.inl hAct) (by simp)
    exact ⟨hAct, ih _ hNext (fun e j hj => hFailed e j (hWay.trans hj))
      fun a j hj => hDone a j (hWay.trans hj)⟩
  | report event next ih =>
    intro k hk
    obtain ⟨hAct, hNext⟩ := hTask k hk
    have hWay := hk.ways.next (.inl hAct) (by simp)
    exact ⟨hAct, ih hNext (fun e j hj => hFailed e j (hWay.trans hj))
      fun a j hj => hDone a j (hWay.trans hj)⟩
  | enter part body next ihBody ih =>
    refine ⟨hTask.1, fun k hk => ?_⟩
    obtain ⟨hSkip, hEnter⟩ := hTask.2 k hk
    refine ⟨fun outcome hOutcome => ?_, fun hNone => ?_⟩
    · exact ih outcome (hSkip outcome hOutcome) (fun e j hj => hFailed e j (hk.ways.trans hj))
        fun a j hj => hDone a j (hk.ways.trans hj)
    · obtain ⟨hFree, hInside⟩ := hEnter hNone
      refine ⟨hFree, fun hOwn => ?_⟩
      obtain ⟨hAct, hKept, hBody⟩ := hInside hOwn
      have hLeave : ∀ outcome j, R.Ways (fun place => place = part.place ∨ own place)
          (k.next (k.now.move (part.start k.now.state))) j →
          part.Leaves R (fun outcome => (next outcome).Meets R own failed done) outcome j →
          part.Leaves R (fun outcome => (next outcome).Meets R own failed' done') outcome j := by
        intro outcome j hj hLeaves
        refine hLeaves.mono fun hClose o hRest => ?_
        have hWay := Rules.Ways.through hk.ways hAct hj hClose hOwn
        exact ih o hRest (fun e i hi => hFailed e i (hWay.trans hi))
          fun a i hi => hDone a i (hWay.trans hi)
      exact ⟨hAct, hKept, ihBody hBody (fun e => hLeave (.error e)) fun b => hLeave (.ok b)⟩
  | join children next _ ih =>
    obtain ⟨parts, failed'', done'', hSplits, hChildren, hGathers⟩ := hTask
    exact ⟨parts, failed'', done'', hSplits, hChildren, hGathers.mono fun outcome k hk hRest =>
      ih outcome hRest (fun e j hj => hFailed e j ((hSplits.ways hk).trans hj))
        fun a j hj => hDone a j ((hSplits.ways hk).trans hj)⟩

theorem ends {task : Task S ε τ κ α} {failed failed' : ε → History S τ → Prop}
    {done done' : α → History S τ → Prop} (hTask : task.Meets R own failed done h)
    (hFailed : ∀ e k, failed e k → failed' e k) (hDone : ∀ a k, done a k → done' a k) :
    task.Meets R own failed' done' h :=
  hTask.ways_mono (fun e k _ => hFailed e k) fun a k _ => hDone a k

theorem mono {task : Task S ε τ κ α} {failed : ε → History S τ → Prop}
    {done done' : α → History S τ → Prop} (hTask : task.Meets R own failed done h)
    (hDone : ∀ a k, done a k → done' a k) : task.Meets R own failed done' h :=
  hTask.ends (fun _ _ => id) hDone

/-- Where all tasks share their rules, the way to the end of a task is one for all of them. -/
theorem reach_mono [R.Common] {task : Task S ε τ κ α} {failed : ε → History S τ → Prop}
    {done done' : α → History S τ → Prop} (hTask : task.Meets R own failed done h)
    (hDone : ∀ a k, R.Passes own h k → done a k → done' a k) : task.Meets R own failed done' h :=
  hTask.ways_mono (fun _ _ _ => id) fun a k hk => hDone a k hk.passes

end Task.Meets

/-- What is true of an outcome. -/
def Ending (failed : ε → History S τ → Prop) (done : α → History S τ → Prop) :
    Except ε α → History S τ → Prop
  | .error e => failed e
  | .ok a => done a

namespace Task

section Rules

variable {failed : ε → History S τ → Prop} {done : α → History S τ → Prop}
  {done' : β → History S τ → Prop}

theorem meets_finish {outcome : Except ε α} :
    (finish outcome : Task S ε τ κ α).Meets R own failed done h ↔
      ∀ k, R.Passes own h k → Ending failed done outcome k := by
  cases outcome <;> rfl

theorem meets_pure {a : α} (h' : ∀ k, R.Passes own h k → done a k) :
    (pure a : Task S ε τ κ α).Meets R own failed done h := h'

theorem meets_throw {e : ε} (h' : ∀ k, R.Passes own h k → failed e k) :
    (throw e : Task S ε τ κ α).Meets R own failed done h := h'

theorem meets_ofExcept {outcome : Except ε α}
    (hOk : ∀ a, outcome = .ok a → ∀ k, R.Passes own h k → done a k)
    (hError : ∀ e, outcome = .error e → ∀ k, R.Passes own h k → failed e k) :
    (ofExcept outcome : Task S ε τ κ α).Meets R own failed done h := by
  cases outcome with
  | ok a => exact hOk a rfl
  | error e => exact hError e rfl

/-- A section may go on in another way. -/
theorem meets_enter_imp {γ δ : Type} {part : Section S ε κ β γ} {body : Task S ε τ κ β}
    {next : Except ε γ → Task S ε τ κ α} {next' : Except ε γ → Task S ε τ κ δ}
    {failed' : ε → History S τ → Prop} {done' : δ → History S τ → Prop}
    (hTask : (enter part body next).Meets R own failed done h)
    (hNext : ∀ outcome k, (next outcome).Meets R own failed done k →
      (next' outcome).Meets R own failed' done' k) :
    (enter part body next').Meets R own failed' done' h := by
  refine ⟨hTask.1, fun k hk => ?_⟩
  obtain ⟨hSkip, hEnter⟩ := hTask.2 k hk
  refine ⟨fun outcome hOutcome => hNext outcome k (hSkip outcome hOutcome), fun hNone => ?_⟩
  refine ⟨(hEnter hNone).1, fun hOwn => ?_⟩
  obtain ⟨hAct, hKept, hBody⟩ := (hEnter hNone).2 hOwn
  exact ⟨hAct, hKept, hBody.ends (fun e j hLeaves => hLeaves.mono fun _ o => hNext o _)
    fun b j hLeaves => hLeaves.mono fun _ o => hNext o _⟩

/-- A task that is whole again may go on in another way. -/
theorem meets_join_imp {δ : Type} {n : Nat} {children : Fin n → Task S ε τ κ β}
    {next : Except ε (List β) → Task S ε τ κ α} {next' : Except ε (List β) → Task S ε τ κ δ}
    {failed' : ε → History S τ → Prop} {done' : δ → History S τ → Prop}
    (hTask : (join children next).Meets R own failed done h)
    (hNext : ∀ outcome k, (next outcome).Meets R own failed done k →
      (next' outcome).Meets R own failed' done' k) :
    (join children next').Meets R own failed' done' h := by
  obtain ⟨parts, lost, found, hSplits, hChildren, hGathers⟩ := hTask
  exact ⟨parts, lost, found, hSplits, hChildren,
    hGathers.mono fun outcome k _ => hNext outcome k⟩

theorem meets_bind {α : Type} {done' : β → History S τ → Prop} {task : Task S ε τ κ α}
    {f : α → Task S ε τ κ β}
    (hTask : task.Meets R own failed (fun a k => (f a).Meets R own failed done' k) h) :
    (task >>= f).Meets R own failed done' h := by
  change (task.andThen f).Meets R own failed done' h
  induction task generalizing h with
  | finish outcome =>
    cases outcome with
    | ok a => exact hTask h (.refl h)
    | error e => exact hTask
  | outOfFuel => exact hTask
  | step change next ih => exact fun k hk => ⟨(hTask k hk).1, ih _ (hTask k hk).2⟩
  | report event next ih => exact fun k hk => ⟨(hTask k hk).1, ih (hTask k hk).2⟩
  | enter part body next _ ih => exact meets_enter_imp hTask fun outcome _ => ih outcome
  | join children next _ ih => exact meets_join_imp hTask fun outcome _ => ih outcome

theorem meets_attempt {α : Type} {done : Except ε α → History S τ → Prop} {task : Task S ε τ κ α}
    (hTask : task.Meets R own (fun e k => done (.error e) k) (fun a k => done (.ok a) k) h) :
    task.attempt.Meets R own failed done h := by
  induction task generalizing h with
  | finish outcome => cases outcome <;> exact hTask
  | outOfFuel => exact hTask
  | step change next ih => exact fun k hk => ⟨(hTask k hk).1, ih _ (hTask k hk).2⟩
  | report event next ih => exact fun k hk => ⟨(hTask k hk).1, ih (hTask k hk).2⟩
  | enter part body next _ ih => exact meets_enter_imp hTask fun outcome _ => ih outcome
  | join children next _ ih => exact meets_join_imp hTask fun outcome _ => ih outcome

theorem meets_onFailure {task : Task S ε τ κ α} {cleanUp : ε → Task S ε τ κ Unit}
    (hTask : task.Meets R own (fun e k => (cleanUp e).Meets R own failed
      (fun _ j => ∀ i, R.Passes own j i → failed e i) k) done h)
    (hStable : ∀ a k j, done a k → R.Passes own k j → done a j) :
    (task.onFailure cleanUp).Meets R own failed done h := by
  refine meets_bind (meets_attempt (hTask.ends (fun e k hCleanUp => ?_) fun a k hDone => ?_))
  · exact meets_bind (hCleanUp.mono fun _ _ => meets_throw)
  · exact meets_pure fun j hj => hStable a k j hDone hj

theorem meets_get {f : S → Task S ε τ κ β}
    (h' : ∀ k, R.Passes own h k → (f k.now.state).Meets R own failed done' k) :
    (get >>= f).Meets R own failed done' h := by
  intro k hk
  exact ⟨R.act_now k, (h' k hk).later (.one (R.pass_now k) (by simp))⟩

theorem meets_modifyGet {g : S → α × S} {f : α → Task S ε τ κ β}
    (h' : ∀ k, R.Passes own h k → R.Act none k (k.now.move (g k.now.state).2) ∧
      (f (g k.now.state).1).Meets R own failed done' (k.next (k.now.move (g k.now.state).2))) :
    (modifyGet g >>= f).Meets R own failed done' h := h'

theorem meets_modify {g : S → S} {f : PUnit → Task S ε τ κ β}
    (h' : ∀ k, R.Passes own h k → R.Act none k (k.now.move (g k.now.state)) ∧
      (f ⟨⟩).Meets R own failed done' (k.next (k.now.move (g k.now.state)))) :
    (modify g >>= f).Meets R own failed done' h := h'

theorem meets_tell {event : τ} {f : Unit → Task S ε τ κ β}
    (h' : ∀ k, R.Passes own h k → R.Act none k (k.now.hear event) ∧
      (f ()).Meets R own failed done' (k.next (k.now.hear event))) :
    (tell event >>= f).Meets R own failed done' h := h'

theorem meets_within {part : Section S ε κ α β} {body : Task S ε τ κ α}
    (hBefore : part.exclusive = true → ∀ place, own place → R.Before place part.place)
    (hStable : ∀ o k j, Ending failed done' o k → R.Passes own k j → Ending failed done' o j)
    (hSkip : ∀ k o, R.Passes own h k → part.skip k.now.state = some o → Ending failed done' o k)
    (hFree : ∀ k, R.Passes own h k → part.skip k.now.state = none → part.exclusive = false →
      ¬R.Kept part.place k.now.state)
    (hStart : ∀ k, R.Passes own h k → part.skip k.now.state = none →
      R.Act none k (k.now.move (part.start k.now.state)) ∧
        R.Kept part.place (part.start k.now.state) ∧
        body.Meets R (fun place => place = part.place ∨ own place)
          (fun e => part.Leaves R (Ending failed done') (.error e))
          (fun a => part.Leaves R (Ending failed done') (.ok a))
          (k.next (k.now.move (part.start k.now.state)))) :
    (within part body).Meets R own failed done' h := by
  have hFinish : ∀ (o : Except ε β) (k : History S τ), Ending failed done' o k →
      (finish o : Task S ε τ κ β).Meets R own failed done' k :=
    fun o k ho => meets_finish.2 fun j hj => hStable o k j ho hj
  refine ⟨hBefore, fun k hk => ⟨fun o hOutcome => hFinish o k (hSkip k o hk hOutcome),
    fun hNone => ⟨hFree k hk hNone, fun _ => ?_⟩⟩⟩
  obtain ⟨hAct, hKept, hBody⟩ := hStart k hk hNone
  exact ⟨hAct, hKept, hBody.ends (fun e j hLeaves => hLeaves.mono fun _ o => hFinish o _)
    fun a j hLeaves => hLeaves.mono fun _ o => hFinish o _⟩

theorem meets_forAll {as : List α} {f : α → Task S ε τ κ β} {done : List β → History S τ → Prop}
    (part : α → Rules S τ κ) (lost : α → ε → History S τ → Prop)
    (found : α → β → History S τ → Prop)
    (hSplits : R.Splits fun i : Fin as.length => part (as.get i))
    (hEach : ∀ a ∈ as, (f a).Meets (part a) own (lost a) (found a) h)
    (hFailed : ∀ a ∈ as, ∀ e k j, Steps (R.Joint fun i : Fin as.length => part (as.get i)) own h k →
      lost a e k → R.Passes own k j → failed e j)
    (hDone : ∀ bs k j, Steps (R.Joint fun i : Fin as.length => part (as.get i)) own h k →
      List.Forall₂ (fun a b => found a b k) as bs → R.Passes own k j → done bs j) :
    (forAll as f).Meets R own failed done h := by
  refine ⟨fun i => part (as.get i), fun i => lost (as.get i), fun i => found (as.get i), hSplits,
    fun i => hEach _ (as.get_mem i), fun k hk => ⟨fun results hResults j hj => ?_,
      fun i e hLost j hj => hFailed _ (as.get_mem i) e k j hk hLost hj⟩⟩
  refine hDone _ k j hk ?_ hj
  rw [List.forall₂_iff_get]
  refine ⟨List.length_ofFn.symm, fun i hi hi' => ?_⟩
  simpa only [Fin.getElem_fin, List.get_eq_getElem, List.getElem_ofFn] using hResults ⟨i, hi⟩

end Rules

section Actions

@[simp] theorem ofAction_bind (action : Action S ε τ α) (f : α → Action S ε τ β) :
    (ofAction (action >>= f) : Task S ε τ κ β) = ofAction action >>= fun a => ofAction (f a) := by
  change ofAction (action.andThen f) = (ofAction action).andThen fun a => ofAction (f a)
  induction action with
  | finish outcome => cases outcome <;> rfl
  | outOfFuel => rfl
  | step change next ih => simp only [Action.andThen, ofAction, andThen, ih]
  | report event next ih => simp only [Action.andThen, ofAction, andThen, ih]

@[simp] theorem ofAction_attempt (action : Action S ε τ α) :
    (ofAction action.attempt : Task S ε τ κ (Except ε α)) = (ofAction action).attempt := by
  induction action with
  | finish | outOfFuel => rfl
  | step change next ih => simp only [Action.attempt, ofAction, attempt, ih]
  | report event next ih => simp only [Action.attempt, ofAction, attempt, ih]

/-- What an action gives is true of what its task comes to. -/
theorem Meets.gives {action : Action S ε τ α} {fact : α → Prop} {failed : ε → History S τ → Prop}
    {done : α → History S τ → Prop}
    (hTask : (ofAction action : Task S ε τ κ α).Meets R own failed done h)
    (hGives : action.Gives fact) :
    (ofAction action : Task S ε τ κ α).Meets R own failed (fun a k => done a k ∧ fact a) h := by
  induction action generalizing h with
  | finish outcome =>
    cases outcome with
    | ok a => exact fun k hk => ⟨hTask k hk, hGives a rfl⟩
    | error e => exact hTask
  | outOfFuel => exact hTask
  | step change next ih => exact fun k hk => ⟨(hTask k hk).1, ih _ (hTask k hk).2 (hGives _)⟩
  | report event next ih => exact fun k hk => ⟨(hTask k hk).1, ih (hTask k hk).2 hGives⟩

end Actions

end Task

end ModuleLoader
