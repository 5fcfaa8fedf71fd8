import ModuleLoader.Proofs.Task.Contract
import Mathlib.Algebra.BigOperators.Fin
import Mathlib.Algebra.Order.BigOperators.Group.Finset

/-! Pools of tasks that keep to common rules.  One turn of a task is one step that the rules allow,
and it changes where the task is by at most one place.  So whatever the schedule, at most one task is
at a place, what the rules promise holds, and every task goes on to keep to them. -/

namespace ModuleLoader

variable {S ε τ κ α β γ : Type} [DecidableEq κ] {R : Rules S τ κ} {own : κ → Prop}
  {keeps : κ → S → Prop} {x : History S τ} {y : Moment S τ}

/-- How one step changes the places at which a task is: from `before` to `after`, and with the place
that it leaves. -/
inductive Shift (keeps : κ → S → Prop) (busy : κ → Bool) (x : History S τ) (y : Moment S τ)
    (before after : κ → Nat) : Option κ → Prop
  | stay (h : ∀ q, after q = before q) : Shift keeps busy x y before after none
  /-- Children of the task have ended, or are given up. -/
  | lose (hNow : y = x.now) (h : ∀ q, after q ≤ before q) : Shift keeps busy x y before after none
  | enter (place : κ) (hFree : busy place = true → ¬keeps place x.now.state)
      (hKept : keeps place y.state) (h : ∀ q, after q = before q + if q = place then 1 else 0) :
      Shift keeps busy x y before after none
  | leave (place : κ) (h : ∀ q, before q = after q + if q = place then 1 else 0) :
      Shift keeps busy x y before after (some place)

theorem Shift.add {busy : κ → Bool} {before after : κ → Nat} {l : Option κ}
    (h : Shift keeps busy x y before after l) (others : κ → Nat) :
    Shift keeps busy x y (fun q => others q + before q) (fun q => others q + after q) l := by
  cases h with
  | stay h => exact .stay fun q => by rw [h q]
  | lose hNow h => exact .lose hNow fun q => Nat.add_le_add_left (h q) _
  | enter place hFree hKept h => exact .enter place hFree hKept fun q => by simp only [h q]; omega
  | leave place h => exact .leave place fun q => by simp only [h q]; omega

theorem Shift.pos_of_leave {busy : κ → Bool} {before after : κ → Nat} {l : Option κ} {q : κ}
    (h : Shift keeps busy x y before after l) (hl : l = some q) : 0 < before q := by
  cases h with
  | stay | lose | enter => cases hl
  | leave place h =>
    cases hl
    rw [h q, if_pos rfl]
    omega

/-- A place that is entered was free, so that nobody was there. -/
theorem Shift.le_one {busy : κ → Bool} {before after : κ → Nat} {l : Option κ}
    (h : Shift keeps busy x y before after l) (hOnce : ∀ q, before q ≤ 1)
    (hBusy : ∀ q, 0 < before q → busy q = true ∧ keeps q x.now.state) (q : κ) : after q ≤ 1 := by
  have hOne := hOnce q
  cases h with
  | stay h =>
    have hSame := h q
    omega
  | lose _ h =>
    have hLess := h q
    omega
  | enter place hFree _ h =>
    have hMore := h q
    by_cases hq : q = place
    · subst hq
      have hNone : ¬0 < before q := fun hPos => hFree (hBusy q hPos).1 (hBusy q hPos).2
      rw [if_pos rfl] at hMore
      omega
    · rw [if_neg hq] at hMore
      omega
  | leave place h =>
    have hLess := h q
    omega

theorem Shift.kept {busy : κ → Bool} {before after : κ → Nat} {l : Option κ}
    (h : Shift R.Kept busy x y before after l) (hx : R.Valid x) (hMove : R.Move l x y)
    (hOnce : ∀ q, before q ≤ 1) (hKept : ∀ q, 0 < before q → R.Kept q x.now.state) {q : κ}
    (hq : 0 < after q) : R.Kept q y.state := by
  have hBefore : 0 < before q → l ≠ some q → R.Kept q y.state :=
    fun hPos hl => R.kept_next hx hMove hl (hKept q hPos)
  cases h with
  | stay h =>
    have hSame := h q
    exact hBefore (by omega) (by simp)
  | lose _ h =>
    have hLess := h q
    exact hBefore (by omega) (by simp)
  | enter place _ hNew h =>
    have hMore := h q
    by_cases hSame : q = place
    · exact hSame ▸ hNew
    · rw [if_neg hSame] at hMore
      exact hBefore (by omega) (by simp)
  | leave place h =>
    have hLess := h q
    have hOne := hOnce q
    refine hBefore (by omega) fun hl => ?_
    cases hl
    rw [if_pos rfl] at hLess
    omega

namespace Running

theorem holds_divided {n : Nat} (children : Fin n → Running S ε τ κ β)
    (next : Except ε (List β) → Task S ε τ κ α) (q : κ) :
    (divided children next).holds q = ∑ i, (children i).holds q := by
  rw [holds, Fin.sum_univ_def, List.sum_eq_foldr, List.foldr_map]

/-- A divided task is where one of its children is, and where the others are. -/
theorem holds_child {n : Nat} (children : Fin n → Running S ε τ κ β)
    (next : Except ε (List β) → Task S ε τ κ α) (i : Fin n) : ∃ others : κ → Nat,
      (∀ q, (divided children next).holds q = others q + (children i).holds q) ∧
      (∀ j, j ≠ i → ∀ q, (children j).holds q ≤ others q) ∧
      ∀ (child : Running S ε τ κ β) (q : κ),
        (divided (fun j => if j = i then child else children j) next).holds q =
          others q + child.holds q := by
  refine ⟨fun q => ∑ j ∈ Finset.univ.erase i, (children j).holds q, fun q => ?_, fun j hj q => ?_,
    fun child q => ?_⟩
  · rw [holds_divided, Finset.sum_erase_add _ _ (Finset.mem_univ i)]
  · exact Finset.single_le_sum (f := fun j => (children j).holds q) (fun _ _ => Nat.zero_le _)
      (Finset.mem_erase.2 ⟨hj, Finset.mem_univ j⟩)
  · rw [holds_divided, ← Finset.sum_erase_add _ _ (Finset.mem_univ i), if_pos rfl]
    congr 1
    exact Finset.sum_congr rfl fun j hj => by rw [if_neg (Finset.ne_of_mem_erase hj)]

omit [DecidableEq κ] in
theorem outcome?_eq_some {task : Running S ε τ κ α} {outcome : Except ε α}
    (h : task.outcome? = some outcome) : task = .ready (.finish outcome) := by
  unfold outcome? at h
  split at h
  · cases h
    rfl
  · cases h

omit [DecidableEq κ] in
theorem result?_eq_some {task : Running S ε τ κ α} {a : α} (h : task.result? = some a) :
    task = .ready (.finish (.ok a)) := by
  obtain ⟨outcome, hOutcome, hResult⟩ := Option.bind_eq_some_iff.1 h
  cases outcome with
  | ok b =>
    cases hResult
    exact outcome?_eq_some hOutcome
  | error e => cases hResult

namespace Meets

theorem later {task : Running S ε τ κ α} {failed : ε → History S τ → Prop}
    {done : α → History S τ → Prop} {h k : History S τ} (hTask : task.Meets R own failed done h)
    (hk : R.Passes (fun q => own q ∨ 0 < task.holds q) h k) : task.Meets R own failed done k := by
  induction task generalizing R own failed with
  | ready task => exact Task.Meets.later hTask (hk.mono id fun _ => .inl)
  | inside part body next ih =>
    refine ih hTask (hk.mono id fun q hq => ?_)
    rcases hq with (rfl | hq) | hq
    · exact .inr (by rw [holds, if_pos rfl]; omega)
    · exact .inl hq
    · exact .inr (by simp only [holds]; omega)
  | divided children next ih =>
    obtain ⟨parts, failed', done', hSplits, hChildren, hGathers⟩ := hTask
    refine ⟨parts, failed', done', hSplits, fun i => ih i (hChildren i) ?_,
      hGathers.later (hk.mono .inr fun _ => .inl)⟩
    refine hk.mono (hSplits.within i).pass fun q hq => ?_
    rcases hq with hq | hq
    · exact .inl hq
    · obtain ⟨others, hSum, -⟩ := holds_child children next i
      exact .inr (by rw [hSum]; omega)

end Meets

end Running

/-- One turn of a task that keeps to the rules, with all that it says of the turn. -/
structure Advance (R : Rules S τ κ) (busy : κ → Bool) (own : κ → Prop)
    (failed : ε → History S τ → Prop) (done : α → History S τ → Prop) (x : History S τ)
    (task : Running S ε τ κ α) (y : Moment S τ) (task' : Running S ε τ κ α) (l : Option κ) :
    Prop where
  act : R.Act l x y
  other : ∀ q, l = some q → ¬own q
  shift : Shift R.Kept busy x y (fun q => task.holds q) (fun q => task'.holds q) l
  meets : task'.Meets R own failed done (x.next y)

theorem Task.Meets.advance {task : Task S ε τ κ α} {failed : ε → History S τ → Prop}
    {done : α → History S τ → Prop} {busy : κ → Bool} {task' : Running S ε τ κ α}
    (hTask : task.Meets R own failed done x)
    (hOwn : ∀ q, own q → busy q = true ∧ R.Kept q x.now.state)
    (hAdvance : task.advance busy x.now = some (task', y)) :
    Advance R busy own failed done x (.ready task) y task' none := by
  cases task with
  | finish | outOfFuel => cases hAdvance
  | step change next =>
    cases hAdvance
    obtain ⟨hAct, hNext⟩ := hTask x (.refl x)
    exact ⟨hAct, by simp, .stay fun _ => rfl, hNext⟩
  | report event next =>
    cases hAdvance
    obtain ⟨hAct, hNext⟩ := hTask x (.refl x)
    exact ⟨hAct, by simp, .stay fun _ => rfl, hNext⟩
  | enter part body next =>
    obtain ⟨hSkip, hEnter⟩ := hTask.2 x (.refl x)
    simp only [Task.advance] at hAdvance
    split at hAdvance
    · next outcome hOutcome =>
      cases hAdvance
      exact ⟨R.act_now x, by simp, .stay fun _ => rfl,
        (hSkip outcome hOutcome).later (.one (R.pass_now x) (by simp))⟩
    · next hNone =>
      split at hAdvance
      · cases hAdvance
      · next hFree =>
        cases hAdvance
        obtain ⟨hNotKept, hInside⟩ := hEnter hNone
        -- Nobody is there yet: an exclusive section is free, and any other one is not kept.
        have hFree' : busy part.place = true → ¬R.Kept part.place x.now.state := by
          intro hBusy
          cases hExclusive : part.exclusive with
          | true => simp [hExclusive, hBusy] at hFree
          | false => exact hNotKept hExclusive
        obtain ⟨hAct, hKept, hBody⟩ :=
          hInside fun hq => hFree' (hOwn _ hq).1 (hOwn _ hq).2
        refine ⟨hAct, by simp, .enter part.place hFree' hKept fun q => ?_, hBody⟩
        simp [Running.holds, eq_comm]
  | join children next =>
    cases hAdvance
    refine ⟨R.act_now x, by simp, .stay fun q => ?_, ?_⟩
    · simp [Running.holds]
    · exact hTask.later (.one (R.pass_now x) (by simp))

/-- Where a task may be that goes on: at busy places, at none of them twice, and at none of its own
surroundings. -/
structure Placed (keeps : κ → S → Prop) (busy : κ → Bool) (own : κ → Prop) (x : History S τ)
    (places : κ → Nat) : Prop where
  busy : ∀ q, own q ∨ 0 < places q → busy q = true ∧ keeps q x.now.state
  apart : ∀ q, own q → places q = 0
  once : ∀ q, places q ≤ 1

namespace Placed

variable {busy : κ → Bool}

omit [DecidableEq κ] in
theorem mono {places places' : κ → Nat} (h : Placed keeps busy own x places)
    (hPlaces : ∀ q, places' q ≤ places q) : Placed keeps busy own x places' where
  busy q hq := h.busy q (hq.imp_right fun hq => Nat.lt_of_lt_of_le hq (hPlaces q))
  apart q hq := Nat.eq_zero_of_le_zero (h.apart q hq ▸ hPlaces q)
  once q := Nat.le_trans (hPlaces q) (h.once q)

variable {part : Section S ε κ β γ} {inner : Running S ε τ κ β} {next : Except ε γ → Task S ε τ κ α}

theorem here (h : Placed keeps busy own x fun q => (Running.inside part inner next).holds q) :
    ¬own part.place ∧ keeps part.place x.now.state := by
  refine ⟨fun hq => ?_, (h.busy part.place (.inr ?_)).2⟩
  · have hZero := h.apart part.place hq
    rw [Running.holds, if_pos rfl] at hZero
    omega
  · rw [Running.holds, if_pos rfl]
    omega

theorem body (h : Placed keeps busy own x fun q => (Running.inside part inner next).holds q) :
    Placed keeps busy (fun q => q = part.place ∨ own q) x fun q => inner.holds q := by
  have hHere := h.busy part.place (.inr (by rw [Running.holds, if_pos rfl]; omega))
  have hBody : ∀ q, inner.holds q ≤ (Running.inside part inner next).holds q := fun q => by
    rw [Running.holds]
    omega
  refine ⟨fun q hq => ?_, fun q hq => ?_, (h.mono hBody).once⟩
  · rcases hq with (rfl | hq) | hq
    · exact hHere
    · exact h.busy q (.inl hq)
    · exact (h.mono hBody).busy q (.inr hq)
  · rcases hq with rfl | hq
    · have hOne := h.once part.place
      rw [Running.holds, if_pos rfl] at hOne
      omega
    · exact (h.mono hBody).apart q hq

end Placed

namespace Advance

variable {busy : κ → Bool} {l : Option κ} {failed : ε → History S τ → Prop}
  {done : α → History S τ → Prop} {next : Except ε γ → Task S ε τ κ α}
  {next' : Except ε (List β) → Task S ε τ κ α}

/-- A task leaves the section that it has come to the end of. -/
theorem close {part : Section S ε κ β γ} {outcome : Except ε β}
    (hTask : (Running.inside part (.ready (.finish outcome)) next).Meets R own failed done x)
    (hPlaced : Placed R.Kept busy own x fun q =>
      (Running.inside part (.ready (.finish outcome)) next : Running S ε τ κ α).holds q) :
    Advance R busy own failed done x (.inside part (.ready (.finish outcome)) next)
      (x.now.move (part.close outcome x.now.state).2)
      (.ready (next (part.close outcome x.now.state).1)) (some part.place) := by
  obtain ⟨hNotOwn, hKept⟩ := hPlaced.here
  have hLeaves : part.Leaves R (fun o => (next o).Meets R own failed done) outcome x := by
    cases outcome with
    | ok b => exact hTask x (.refl x)
    | error e => exact hTask x (.refl x)
  obtain ⟨hAct, hNext⟩ := hLeaves hKept
  refine ⟨hAct, fun q hq => ?_, .leave part.place fun q => ?_, hNext⟩
  · cases hq
    exact hNotOwn
  · simp [Running.holds, eq_comm]

theorem inside {part : Section S ε κ β γ} {body body' : Running S ε τ κ β}
    (hStep : Advance R busy (fun q => q = part.place ∨ own q)
      (fun e => part.Leaves R (fun o => (next o).Meets R own failed done) (.error e))
      (fun b => part.Leaves R (fun o => (next o).Meets R own failed done) (.ok b)) x body y body' l) :
    Advance R busy own failed done x (.inside part body next) y (.inside part body' next) l :=
  ⟨hStep.act, fun q hq hOwn => hStep.other q hq (.inr hOwn), hStep.shift.add _, hStep.meets⟩

/-- While one child goes on, the other ones keep what they were promised: it does nothing that they
cannot rely on, and leaves no place at which they are. -/
theorem child {n : Nat} {children : Fin n → Running S ε τ κ β} {parts : Fin n → Rules S τ κ}
    {i : Fin n} {task : Running S ε τ κ β} {failed' : Fin n → ε → History S τ → Prop}
    {done' : Fin n → β → History S τ → Prop} (hSplits : R.Splits parts)
    (hChildren : ∀ j, (children j).Meets (parts j) own (failed' j) (done' j) x)
    (hGathers : Gathers R parts own failed' done' (fun o => (next' o).Meets R own failed done) x)
    (hPlaced : Placed R.Kept busy own x fun q => (Running.divided children next').holds q)
    (hStep : Advance (parts i) busy own (failed' i) (done' i) x (children i) y task l) :
    Advance R busy own failed done x (.divided children next') y
      (.divided (fun j => if j = i then task else children j) next') l := by
  obtain ⟨others, hSum, hOthers, hUpdate⟩ := Running.holds_child children next' i
  have hAct := (hSplits.within i).act hStep.act
  refine ⟨hAct, hStep.other, ?_, parts, failed', done', hSplits, fun j => ?_,
    hGathers.later (.one (.inl ⟨i, hStep.act⟩) hStep.other)⟩
  · simp only [hSum, hUpdate]
    exact (hSplits.within i).kept ▸ hStep.shift.add others
  · by_cases hj : j = i
    · subst hj
      simpa using hStep.meets
    · simp only [if_neg hj]
      refine (hChildren j).later (.one (hSplits.apart (Ne.symm hj) hStep.act) fun q hq hMine => ?_)
      rcases hMine with hMine | hMine
      · exact hStep.other q hq hMine
      · have hLeft := hStep.shift.pos_of_leave hq
        have hOne := hPlaced.once q
        have hOther := hOthers j hj q
        rw [hSum] at hOne
        omega

/-- A divided task goes on without its children, which have ended or are given up. -/
theorem gather {n : Nat} {children : Fin n → Running S ε τ κ β}
    {task : Task S ε τ κ α} (hTask : task.Meets R own failed done x) :
    Advance R busy own failed done x (.divided children next') x.now (.ready task) none :=
  ⟨R.act_now x, by simp, .lose rfl fun _ => Nat.zero_le _,
    hTask.later (.one (R.pass_now x) (by simp))⟩

end Advance

theorem Running.Meets.advance {task : Running S ε τ κ α} {failed : ε → History S τ → Prop}
    {done : α → History S τ → Prop} {busy : κ → Bool} {path : List Nat}
    {task' : Running S ε τ κ α} (hTask : task.Meets R own failed done x)
    (hPlaced : Placed R.Kept busy own x fun q => task.holds q)
    (hAdvance : task.advance busy path x.now = some (task', y)) :
    ∃ l, Advance R busy own failed done x task y task' l := by
  induction task generalizing R own failed path with
  | ready task =>
    exact ⟨none, Task.Meets.advance hTask (fun q hq => hPlaced.busy q (.inl hq)) hAdvance⟩
  | inside part body next ih =>
    simp only [Running.advance] at hAdvance
    split at hAdvance
    · next outcome hOutcome =>
      cases hAdvance
      cases outcome?_eq_some hOutcome
      exact ⟨_, .close hTask hPlaced⟩
    · obtain ⟨⟨body', y'⟩, hBody', hEq⟩ := Option.map_eq_some_iff.1 hAdvance
      cases hEq
      obtain ⟨l, hStep⟩ := ih hTask hPlaced.body hBody'
      exact ⟨l, hStep.inside⟩
  | @divided α β n children next ih =>
    obtain ⟨parts, failed', done', hSplits, hChildren, hGathers⟩ := hTask
    cases path with
    | nil =>
      simp only [Running.advance] at hAdvance
      split at hAdvance
      · next hAll =>
        cases hAdvance
        refine ⟨none, .gather ((hGathers x (.refl x)).1 _ fun i => ?_)⟩
        have hEnd := hChildren i
        rw [result?_eq_some (Option.some_get (hAll i)).symm] at hEnd
        exact hEnd x (.refl x)
      · cases hAdvance
    | cons i path =>
      simp only [Running.advance] at hAdvance
      split at hAdvance
      · next hi =>
        split at hAdvance
        · next e hOutcome =>
          cases hAdvance
          have hEnd := hChildren ⟨i, hi⟩
          rw [outcome?_eq_some hOutcome] at hEnd
          exact ⟨none, .gather ((hGathers x (.refl x)).2 ⟨i, hi⟩ e (hEnd x (.refl x)))⟩
        · obtain ⟨⟨task, y'⟩, hChild, hEq⟩ := Option.map_eq_some_iff.1 hAdvance
          cases hEq
          obtain ⟨others, hSum, -⟩ := holds_child children next ⟨i, hi⟩
          have hPlaced' : Placed (parts ⟨i, hi⟩).Kept busy own x
              fun q => (children ⟨i, hi⟩).holds q :=
            (hSplits.within _).kept ▸ hPlaced.mono fun q => by rw [hSum]; omega
          obtain ⟨l, hStep⟩ := ih ⟨i, hi⟩ (hChildren _) hPlaced' hChild
          exact ⟨l, .child hSplits hChildren hGathers hPlaced hStep⟩
      · cases hAdvance

namespace Pool

variable {p : Pool S ε τ κ α} {i : Nat} {task : Running S ε τ κ α}

/-- The moments that a pool has gone through. -/
def history (p : Pool S ε τ κ α) : History S τ := ⟨p.now, p.past⟩

/-- The events that a turn reports. -/
def newEvents (p : Pool S ε τ κ α) (turn : Turn) : List τ :=
  (p.play turn).now.events.drop p.now.events.length

omit [DecidableEq κ] in
theorem task?_eq_some_iff : p.task? i = some task ↔ p.tasks[i]? = some (some task) := by
  rw [task?]
  cases p.tasks[i]? with
  | none => simp
  | some found => simp

omit [DecidableEq κ] in
/-- The tasks of a pool are the one with a number and the others. -/
theorem exists_append {tasks : List (Option (Running S ε τ κ α))}
    {task : Option (Running S ε τ κ α)} (h : tasks[i]? = some task) :
    ∃ before later, tasks = before ++ task :: later ∧ before.length = i ∧
      ∀ j other, j ≠ i → tasks[j]? = some other → other ∈ before ++ later := by
  obtain ⟨hi, rfl⟩ := List.getElem?_eq_some_iff.1 h
  refine ⟨tasks.take i, tasks.drop (i + 1), by simp, by simp; omega, fun j other hj hOther => ?_⟩
  obtain ⟨hj', rfl⟩ := List.getElem?_eq_some_iff.1 hOther
  rw [List.mem_append, List.mem_take_iff_getElem, List.mem_drop_iff_getElem]
  rcases Nat.lt_or_gt_of_ne hj with hLt | hGt
  · exact .inl ⟨j, by omega, rfl⟩
  · refine .inr ⟨j - (i + 1), by omega, ?_⟩
    congr 1
    omega

theorem holds_eq_sum (p : Pool S ε τ κ α) (q : κ) :
    p.holds q = (p.tasks.map fun task => (task.map (Running.holds q)).getD 0).sum := by
  rw [holds, List.sum_eq_foldr, List.foldr_map]

/-- A pool is where one of its tasks is, and where the others are. -/
theorem holds_task (h : p.task? i = some task) : ∃ others : κ → Nat,
    (∀ q, p.holds q = others q + task.holds q) ∧
    (∀ j other, j ≠ i → p.task? j = some other → ∀ q, other.holds q ≤ others q) ∧
    (∀ (task' : Running S ε τ κ α) (y : Moment S τ) (past : List (Moment S τ)) (q : κ),
      (⟨p.tasks.set i (some task'), y, past⟩ : Pool S ε τ κ α).holds q =
        others q + task'.holds q) ∧
    ∀ q, ({ p with tasks := p.tasks.set i none } : Pool S ε τ κ α).holds q = others q := by
  obtain ⟨before, later, hTasks, hi, hOthers⟩ := exists_append (task?_eq_some_iff.1 h)
  have hSet : ∀ task', p.tasks.set i task' = before ++ task' :: later := by
    intro task'
    rw [hTasks, ← hi]
    simp
  refine ⟨fun q => ((before ++ later).map fun task => (task.map (Running.holds q)).getD 0).sum,
    fun q => ?_, fun j other hj hOther q => ?_, fun task' y past q => ?_, fun q => ?_⟩
  · simp only [holds_eq_sum, hTasks, List.map_append, List.map_cons, List.sum_append, List.sum_cons,
      Option.map_some, Option.getD_some]
    omega
  · refine List.le_sum_of_mem (List.mem_map.2 ⟨some other, ?_, rfl⟩)
    exact hOthers j _ hj (task?_eq_some_iff.1 hOther)
  · simp only [holds_eq_sum, hSet, List.map_append, List.map_cons, List.sum_append, List.sum_cons,
      Option.map_some, Option.getD_some]
    omega
  · simp only [holds_eq_sum, hSet, List.map_append, List.map_cons, List.sum_append, List.sum_cons,
      Option.map_none, Option.getD_none]
    omega

theorem holds_set_none (p : Pool S ε τ κ α) (i : Nat) (q : κ) :
    ({ p with tasks := p.tasks.set i none } : Pool S ε τ κ α).holds q ≤ p.holds q := by
  cases hTask : p.task? i with
  | some task =>
    obtain ⟨others, hSum, -, -, hDrop⟩ := holds_task hTask
    rw [hSum, hDrop]
    omega
  | none =>
    have hSame : p.tasks.set i none = p.tasks := by
      apply List.ext_getElem?
      intro j
      rw [List.getElem?_set]
      split
      · next hj =>
        subst hj
        split
        · next hi =>
          rw [task?, List.getElem?_eq_getElem hi] at hTask
          rw [List.getElem?_eq_getElem hi]
          exact congrArg some hTask.symm
        · next hi => rw [List.getElem?_eq_none (by omega)]
      · rfl
    rw [hSame]

/-- Every task of a pool keeps to the rules, and at most one is at a place. -/
structure Sound (R : Rules S τ κ) (done : Nat → α → History S τ → Prop) (p : Pool S ε τ κ α) :
    Prop where
  valid : R.Valid p.history
  once : ∀ q, p.holds q ≤ 1
  kept : ∀ q, 0 < p.holds q → R.Kept q p.now.state
  meets : ∀ i task, p.task? i = some task →
    task.Meets R (fun _ => False) (fun _ _ => True) (done i) p.history

/-- What a turn does: nothing, or one step that the rules allow. -/
theorem play_cases (p : Pool S ε τ κ α) (turn : Turn) :
    (p.play turn = p) ∨ (∃ i, turn = .drop i ∧ p.play turn = { p with tasks := p.tasks.set i none }) ∨
      ∃ i path task task' y, turn = .run i path ∧ p.task? i = some task ∧
        task.advance (fun place => 0 < p.holds place) path p.now = some (task', y) ∧
        p.play turn = ⟨p.tasks.set i (some task'), y, p.now :: p.past⟩ := by
  cases turn with
  | drop i => exact .inr (.inl ⟨i, rfl, rfl⟩)
  | run i path =>
    cases hTurn : (p.task? i).bind fun task =>
        task.advance (fun place => 0 < p.holds place) path p.now with
    | none => exact .inl (by simp only [play, hTurn])
    | some result =>
      obtain ⟨task, hTask, hAdvance⟩ := Option.bind_eq_some_iff.1 hTurn
      exact .inr (.inr ⟨i, path, task, result.1, result.2, rfl, hTask, hAdvance,
        by simp only [play, hTurn]⟩)

namespace Sound

variable {done : Nat → α → History S τ → Prop}

theorem start {tasks : List (Task S ε τ κ α)} {x : Moment S τ} (hx : R.Valid ⟨x, []⟩)
    (hTasks : ∀ i (task : Task S ε τ κ α), tasks[i]? = some task →
      task.Meets R (fun _ => False) (fun _ _ => True) (done i) ⟨x, []⟩) :
    (start tasks x).Sound R done := by
  have hZero : ∀ q, (Pool.start tasks x).holds q = 0 := by
    intro q
    simp [Pool.start, holds_eq_sum, Running.holds, Function.comp_def]
  refine ⟨hx, fun q => by rw [hZero]; omega, fun q hq => by rw [hZero] at hq; omega, ?_⟩
  intro i task hTask
  rw [task?_eq_some_iff, Pool.start, List.getElem?_map, Option.map_eq_some_iff] at hTask
  obtain ⟨task', hTask', hEq⟩ := hTask
  cases hEq
  exact hTasks i task' hTask'

/-- A task of a sound pool takes a turn. -/
theorem advance (hp : p.Sound R done) {path : List Nat} {task' : Running S ε τ κ α} {y : Moment S τ}
    (hTask : p.task? i = some task)
    (hAdvance : task.advance (fun place => 0 < p.holds place) path p.now = some (task', y)) :
    ∃ l, Advance R (fun place => 0 < p.holds place) (fun _ => False) (fun _ _ => True) (done i)
      p.history task y task' l := by
  obtain ⟨others, hSum, -⟩ := holds_task hTask
  refine (hp.meets i task hTask).advance ⟨fun q hq => ?_, fun q hq => hq.elim, fun q => ?_⟩ hAdvance
  · have hPos : 0 < p.holds q := by
      have hHolds := hq.resolve_left fun hNo => hNo
      rw [hSum]
      omega
    exact ⟨by simpa using hPos, hp.kept q hPos⟩
  · have hOne := hp.once q
    rw [hSum] at hOne
    omega

theorem set_none (hp : p.Sound R done) (i : Nat) :
    ({ p with tasks := p.tasks.set i none } : Pool S ε τ κ α).Sound R done := by
  have hLess := p.holds_set_none i
  refine ⟨hp.valid, fun q => Nat.le_trans (hLess q) (hp.once q),
    fun q hq => hp.kept q (Nat.lt_of_lt_of_le hq (hLess q)), fun j other hOther => ?_⟩
  refine hp.meets j other ?_
  rw [task?_eq_some_iff, List.getElem?_set] at hOther
  rw [task?_eq_some_iff]
  split at hOther
  · split at hOther <;> cases hOther
  · exact hOther

theorem set_some [R.Common] (hp : p.Sound R done) {task' : Running S ε τ κ α} {y : Moment S τ}
    {l : Option κ}
    (hTask : p.task? i = some task)
    (hStep : Advance R (fun place => 0 < p.holds place) (fun _ => False) (fun _ _ => True) (done i)
      p.history task y task' l) :
    (⟨p.tasks.set i (some task'), y, p.now :: p.past⟩ : Pool S ε τ κ α).Sound R done := by
  obtain ⟨others, hSum, hOthers, hSet, -⟩ := holds_task hTask
  have hShift := hStep.shift.add others
  have hOnce : ∀ q, others q + task.holds q ≤ 1 := fun q => hSum q ▸ hp.once q
  have hKept : ∀ q, 0 < others q + task.holds q → R.Kept q p.now.state :=
    fun q hq => hp.kept q (hSum q ▸ hq)
  constructor
  case valid => exact R.valid_next hp.valid (.inl hStep.act)
  case once =>
    intro q
    rw [hSet]
    exact hShift.le_one hOnce (fun q hq => ⟨by simpa [hSum] using hq, hKept q hq⟩) q
  case kept =>
    intro q hq
    rw [hSet] at hq
    exact hShift.kept hp.valid (.inl hStep.act) hOnce hKept hq
  case meets =>
    intro j other hOther
    rw [task?_eq_some_iff, List.getElem?_set] at hOther
    split at hOther
    · next hj =>
      subst hj
      split at hOther
      · cases hOther
        exact hStep.meets
      · cases hOther
    · next hj =>
      -- A task at a place is the only one there, so that nobody else leaves it.
      have hOther := task?_eq_some_iff.2 hOther
      refine (hp.meets j other hOther).later (.one (Rules.Common.pass hStep.act) fun q hq hMine => ?_)
      have hHeld := hMine.resolve_left id
      have hLeft := hStep.shift.pos_of_leave hq
      have hLess := hOthers j other (Ne.symm hj) hOther q
      have hOne := hOnce q
      omega

/-- A pool stays sound whoever takes a turn or is given up. -/
theorem play [R.Common] (hp : p.Sound R done) (turn : Turn) : (p.play turn).Sound R done := by
  rcases p.play_cases turn with hSame | ⟨i, -, hDrop⟩ |
    ⟨i, path, task, task', y, -, hTask, hAdvance, hPlay⟩
  · rw [hSame]
    exact hp
  · rw [hDrop]
    exact hp.set_none i
  · rw [hPlay]
    obtain ⟨l, hStep⟩ := hp.advance hTask hAdvance
    exact hp.set_some hTask hStep

/-- A pool stays sound over every schedule. -/
theorem after [R.Common] (hp : p.Sound R done) (schedule : List Turn) :
    (p.after schedule).Sound R done := by
  induction schedule generalizing p with
  | nil => exact hp
  | cons turn rest ih => exact ih (hp.play turn)

/-- A task that has ended in a sound pool has ended as it should. -/
theorem done_of_outcome (hp : p.Sound R done) {a : α} (h : p.outcome? i = some (.ok a)) :
    done i a p.history := by
  obtain ⟨task, hTask, hOutcome⟩ := Option.bind_eq_some_iff.1 h
  have hMeets := hp.meets i task hTask
  rw [Running.outcome?_eq_some hOutcome] at hMeets
  exact hMeets p.history (.refl _)

/-- One turn is at most one step that the rules allow. -/
theorem act_of_play (hp : p.Sound R done) (turn : Turn) :
    (p.play turn).history = p.history ∨
      ∃ l y, R.Act l p.history y ∧ (p.play turn).history = p.history.next y := by
  rcases p.play_cases turn with hSame | ⟨i, -, hDrop⟩ |
    ⟨i, path, task, task', y, -, hTask, hAdvance, hPlay⟩
  · rw [hSame]
    exact .inl rfl
  · rw [hDrop]
    exact .inl rfl
  · obtain ⟨l, hStep⟩ := hp.advance hTask hAdvance
    rw [hPlay]
    exact .inr ⟨l, y, hStep.act, rfl⟩

/-- What one turn does to the places at which tasks are: nothing happens and none is entered, or the
turn is one step, which comes to one place or leaves one. -/
theorem shift_of_play (hp : p.Sound R done) (turn : Turn) :
    ((p.play turn).history = p.history ∧ ∀ q, (p.play turn).holds q ≤ p.holds q) ∨
      ∃ l, R.Act l p.history (p.play turn).now ∧
        Shift R.Kept (fun place => 0 < p.holds place) p.history (p.play turn).now p.holds
          (p.play turn).holds l := by
  rcases p.play_cases turn with hSame | ⟨i, -, hDrop⟩ |
    ⟨i, path, task, task', y, -, hTask, hAdvance, hPlay⟩
  · rw [hSame]
    exact .inl ⟨rfl, fun q => Nat.le_refl _⟩
  · rw [hDrop]
    exact .inl ⟨rfl, p.holds_set_none i⟩
  · obtain ⟨l, hStep⟩ := hp.advance hTask hAdvance
    obtain ⟨others, hSum, -, hSet, -⟩ := holds_task hTask
    have hAfter : (p.play turn).holds = fun q => others q + task'.holds q := by
      funext q
      rw [hPlay, hSet]
    rw [hAfter, funext hSum, hPlay]
    exact .inr ⟨l, hStep.act, funext hSum ▸ hStep.shift.add others⟩

/-- What a pool goes through is all that the rules allow. -/
theorem passes_after [R.Common] (hp : p.Sound R done) (schedule : List Turn) :
    R.Passes (fun _ => False) p.history (p.after schedule).history := by
  induction schedule generalizing p with
  | nil => exact .refl _
  | cons turn rest ih =>
    refine .trans ?_ (ih (hp.play turn))
    rcases hp.act_of_play turn with hSame | ⟨l, y, hAct, hNext⟩
    · rw [hSame]
      exact .refl _
    · rw [hNext]
      exact .one (Rules.Common.pass hAct) fun _ _ h => h

end Sound

end Pool

end ModuleLoader
