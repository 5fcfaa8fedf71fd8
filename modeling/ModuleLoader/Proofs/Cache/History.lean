import ModuleLoader.Proofs.Cache

/-! What the holders of a cache see of it.  Requests are answered one after another, and the log of
the answers, the last one first, tells which record a URL is bound to: the first one that was made
in its slot.  Every answer is that of the map from URLs to records which the log before it gives. -/

namespace ModuleLoader.ModuleCache

variable {σ ε ρ : Type}

/-- What a holder of a cache may ask for.  A record is made by an action on a world. -/
inductive Request (σ ε ρ : Type) where
  | slot (url : String)
  | create (id : SlotId) (make : StateM σ (Except ε ρ))
  | get (url : String)
  | contains (url : String)
  | urls
  | size
  | isEmpty

inductive Answer (ε ρ : Type) where
  | slot (id : SlotId)
  | created (outcome : Except ε ρ)
  | record (found : Option ρ)
  | contained (found : Bool)
  | urls (found : List String)
  | size (count : Nat)
  | isEmpty (empty : Bool)

/-- The answer to a request, and the cache after it. -/
def answer (c : ModuleCache ρ) : Request σ ε ρ → StateM σ (Answer ε ρ × ModuleCache ρ)
  | .slot url => pure (.slot (c.slot url).1, (c.slot url).2)
  | .create id make => do
    let (outcome, c) ← c.getOrCreate id make
    return (.created outcome, c)
  | .get url => pure (.record (c.get? url), c)
  | .contains url => pure (.contained (c.contains url), c)
  | .urls => pure (.urls c.urls, c)
  | .size => pure (.size c.size, c)
  | .isEmpty => pure (.isEmpty c.isEmpty, c)

/-- A request that was answered, with the worlds before and after the answer. -/
structure Entry (σ ε ρ : Type) where
  request : Request σ ε ρ
  answer : Answer ε ρ
  before : σ
  after : σ

/-- The log after more requests, the last one first. -/
def serve (c : ModuleCache ρ) (world : σ) (log : List (Entry σ ε ρ)) :
    List (Request σ ε ρ) → List (Entry σ ε ρ)
  | [] => log
  | request :: rest =>
    let ((answer, next), after) := c.answer request world
    next.serve after (⟨request, answer, world, after⟩ :: log) rest

/-! ### What a log tells -/

/-- The URL whose slot was asked for, and the slot. -/
def Entry.slot? : Entry σ ε ρ → Option (String × SlotId)
  | ⟨.slot url, .slot id, _, _⟩ => some (url, id)
  | _ => none

/-- The slot from which a record was got, and the record. -/
def Entry.record? : Entry σ ε ρ → Option (SlotId × ρ)
  | ⟨.create id _, .created (.ok record), _, _⟩ => some (id, record)
  | _ => none

/-- The slots that were handed out, with their URLs. -/
def slotsOf (log : List (Entry σ ε ρ)) : List (String × SlotId) := log.filterMap Entry.slot?

/-- The record of a URL: the first one that was got from a slot of the URL. -/
def boundIn : List (Entry σ ε ρ) → String → Option ρ
  | [], _ => none
  | now :: past, url =>
    (boundIn past url).or do
      let (id, record) ← now.record?
      if (url, id) ∈ slotsOf past then some record else none

/-- Records are made only in slots that were handed out before. -/
def slotsAreHeld : List (Entry σ ε ρ) → Bool
  | [] => true
  | now :: past =>
    slotsAreHeld past &&
      match now.request with
      | .create id _ => (slotsOf past).any (·.2 == id)
      | _ => true

/-- The URLs are those that have records, each once. -/
structure AreBound (past : List (Entry σ ε ρ)) (urls : List String) : Prop where
  nodup : urls.Nodup
  mem_iff : ∀ url, url ∈ urls ↔ ∃ record, boundIn past url = some record

/-- The entry is what the map from URLs to records that the log gives has to answer.  A slot
belongs to one URL, and a record is made only where the URL has none. -/
inductive Agrees (past : List (Entry σ ε ρ)) : Entry σ ε ρ → Prop
  | slot {url : String} {id : SlotId} {world : σ}
      (h : ∀ other used, (other, used) ∈ slotsOf past → (used = id ↔ other = url)) :
      Agrees past ⟨.slot url, .slot id, world, world⟩
  | bound {url : String} {id : SlotId} {make : StateM σ (Except ε ρ)} {record : ρ} {world : σ}
      (hSlot : (url, id) ∈ slotsOf past) (h : boundIn past url = some record) :
      Agrees past ⟨.create id make, .created (.ok record), world, world⟩
  | made {url : String} {id : SlotId} {make : StateM σ (Except ε ρ)} {world : σ}
      (hSlot : (url, id) ∈ slotsOf past) (h : boundIn past url = none) :
      Agrees past ⟨.create id make, .created (make world).1, world, (make world).2⟩
  | get {url : String} {world : σ} :
      Agrees past ⟨.get url, .record (boundIn past url), world, world⟩
  | contains {url : String} {world : σ} :
      Agrees past ⟨.contains url, .contained (boundIn past url).isSome, world, world⟩
  | urls {urls : List String} {world : σ} (h : AreBound past urls) :
      Agrees past ⟨.urls, .urls urls, world, world⟩
  | size {urls : List String} {world : σ} (h : AreBound past urls) :
      Agrees past ⟨.size, .size urls.length, world, world⟩
  | isEmpty {world : σ} {empty : Bool} (h : empty = true ↔ ∀ url, boundIn past url = none) :
      Agrees past ⟨.isEmpty, .isEmpty empty, world, world⟩

variable {c : ModuleCache ρ} {world : σ} {log past : List (Entry σ ε ρ)} {now : Entry σ ε ρ}
  {url : String} {id : SlotId} {record : ρ}

theorem boundIn_cons_of_some (h : boundIn past url = some record) (now : Entry σ ε ρ) :
    boundIn (now :: past) url = some record := by
  rw [boundIn, h, Option.some_or]

theorem boundIn_cons_of_none (h : now.record? = none) (url : String) :
    boundIn (now :: past) url = boundIn past url := by
  simp [boundIn, h]

/-- A URL keeps its record. -/
theorem boundIn_of_suffix (hPast : past <:+ log) (h : boundIn past url = some record) :
    boundIn log url = some record := by
  obtain ⟨later, rfl⟩ := hPast
  induction later with
  | nil => exact h
  | cons now later ih => exact boundIn_cons_of_some ih now

/-! ### One request -/

/-- The cache holds what the log tells. -/
structure IsKept (log : List (Entry σ ε ρ)) (c : ModuleCache ρ) : Prop where
  tidy : c.IsTidy
  slots : ∀ url id, (url, id) ∈ slotsOf log ↔ c.IsSlot url id
  bound : ∀ url, c.get? url = boundIn log url

theorem isKept_nil : IsKept ([] : List (Entry σ ε ρ)) ({} : ModuleCache ρ) :=
  ⟨List.nodup_nil, fun _ _ => by simp [slotsOf, IsSlot], fun _ => rfl⟩

theorem areBound_urls (h : IsKept log c) : AreBound log c.urls :=
  ⟨h.tidy.nodup_urls, fun url => by rw [h.tidy.mem_urls url, h.bound]⟩

theorem isEmpty_iff (h : IsKept log c) : c.isEmpty = true ↔ ∀ url, boundIn log url = none := by
  have hUrls : c.isEmpty = true ↔ c.urls = [] := by
    rw [isEmpty, beq_iff_eq, ← length_urls, List.length_eq_zero_iff]
  simp only [hUrls, List.eq_nil_iff_forall_not_mem, (areBound_urls h).mem_iff, not_exists,
    Option.eq_none_iff_forall_ne_some]

/-- A request that neither hands out a slot nor makes a record leaves all as it is. -/
theorem IsKept.cons (h : IsKept log c) (hSlot : now.slot? = none) (hRecord : now.record? = none) :
    IsKept (now :: log) c := by
  refine ⟨h.tidy, fun url id => ?_, fun url => ?_⟩
  · rw [← h.slots, slotsOf, List.filterMap_cons_none hSlot, slotsOf]
  · rw [h.bound, boundIn_cons_of_none hRecord]

theorem isSlot_slot_iff (c : ModuleCache ρ) (url other : String) (id : SlotId) :
    (c.slot url).2.IsSlot other id ↔ (other, id) = (url, (c.slot url).1) ∨ c.IsSlot other id := by
  constructor
  · intro hOther
    by_cases hUrl : other = url
    · subst hUrl
      have hSame := (isSlot_slot c other).symm.trans hOther
      exact .inl (by rw [Option.some.inj hSame])
    · right
      unfold slot at hOther
      split at hOther
      · exact hOther
      · have hNe : (url == other) = false := beq_false_of_ne (Ne.symm hUrl)
        simpa [IsSlot, List.findIdx?_append, hNe] using hOther
  · rintro (hSame | hOther)
    · cases hSame
      exact isSlot_slot c url
    · exact isSlot_slot_of_isSlot hOther url

theorem IsKept.slot (h : IsKept log c) (url : String) (world : σ) :
    IsKept ((⟨.slot url, .slot (c.slot url).1, world, world⟩ : Entry σ ε ρ) :: log)
      (c.slot url).2 := by
  refine ⟨h.tidy.slot url, fun other id => ?_, fun other => ?_⟩
  · have hCons : slotsOf ((⟨.slot url, .slot (c.slot url).1, world, world⟩ : Entry σ ε ρ) :: log) =
        (url, (c.slot url).1) :: slotsOf log := rfl
    rw [hCons, List.mem_cons, h.slots, isSlot_slot_iff]
  · rw [get?_slot, h.bound, boundIn_cons_of_none rfl]

/-- What is handed out for a URL is handed out for no other one. -/
theorem agrees_slot (h : IsKept log c) (url : String) (world : σ) :
    Agrees log ⟨.slot url, .slot (c.slot url).1, world, world⟩ := by
  refine .slot fun other used hUsed => ?_
  have hOld := isSlot_slot_of_isSlot ((h.slots other used).1 hUsed) url
  have hNew := isSlot_slot c url
  constructor
  · rintro rfl
    exact eq_of_isSlot hOld hNew
  · rintro rfl
    exact Option.some.inj (hOld.symm.trans hNew)

/-- A record from a slot is the record of the URL of this slot, unless the URL has one. -/
theorem IsKept.boundIn_created (h : IsKept log c) (hSlot : (url, id) ∈ slotsOf log)
    {make : StateM σ (Except ε ρ)} {before after : σ} (other : String) :
    boundIn (⟨.create id make, .created (.ok record), before, after⟩ :: log) other =
      if other = url then some ((boundIn log url).getD record) else boundIn log other := by
  have hCons : boundIn (⟨.create id make, .created (.ok record), before, after⟩ :: log) other =
      (boundIn log other).or (if (other, id) ∈ slotsOf log then some record else none) := rfl
  rw [hCons]
  by_cases hOther : other = url
  · subst hOther
    cases boundIn log other <;> simp [hSlot]
  · have hFree : (other, id) ∉ slotsOf log := fun hMem =>
      hOther (eq_of_isSlot ((h.slots other id).1 hMem) ((h.slots url id).1 hSlot))
    simp [hOther, hFree]

theorem answer_of_some (h : c.record? id = some record) (make : StateM σ (Except ε ρ))
    (world : σ) : c.answer (.create id make) world = ((.created (.ok record), c), world) := by
  simp only [answer, getOrCreate, h]
  rfl

/-- Without a record in the slot, one is made, and kept if it could be made. -/
theorem answer_of_none (h : c.record? id = none) (make : StateM σ (Except ε ρ)) (world : σ) :
    c.answer (.create id make) world =
      ((.created (make world).1, (make world).1.toOption.elim c (c.fill id)), (make world).2) := by
  simp only [answer, getOrCreate, h, bind, StateT.bind]
  cases make world with
  | mk outcome after => cases outcome <;> rfl

/-- A record that is there already is not made again. -/
theorem IsKept.again (h : IsKept log c) (hSlot : (url, id) ∈ slotsOf log)
    (hBound : boundIn log url = some record) (make : StateM σ (Except ε ρ)) (world : σ) :
    IsKept (⟨.create id make, .created (.ok record), world, world⟩ :: log) c := by
  refine ⟨h.tidy, h.slots, fun other => ?_⟩
  rw [h.boundIn_created hSlot, h.bound, hBound]
  by_cases hOther : other = url <;> simp [hOther, hBound]

/-- A record that is made where the URL has none is the record of the URL from then on. -/
theorem IsKept.fill (h : IsKept log c) (hSlot : (url, id) ∈ slotsOf log)
    (make : StateM σ (Except ε ρ)) (before after : σ) :
    IsKept (⟨.create id make, .created (.ok record), before, after⟩ :: log)
      (c.fill id record) := by
  have hIsSlot := (h.slots url id).1 hSlot
  refine ⟨h.tidy.fill id record, fun other used => ?_, fun other => ?_⟩
  · have hFill : (c.fill id record).IsSlot other used ↔ c.IsSlot other used := by
      rw [IsSlot, IsSlot, ModuleCache.fill,
        findIdx?_modify c.slots id (fun old => some (old.getD record)) other]
    exact (h.slots other used).trans hFill.symm
  · rw [get?_fill hIsSlot, h.bound, h.bound, h.boundIn_created hSlot]

/-- A record is made exactly if the URL of the slot has none. -/
theorem IsKept.create (h : IsKept log c) (hSlot : (url, id) ∈ slotsOf log)
    (make : StateM σ (Except ε ρ)) (world : σ) :
    let ((answer, next), after) := c.answer (.create id make) world
    Agrees log ⟨.create id make, answer, world, after⟩ ∧
      IsKept (⟨.create id make, answer, world, after⟩ :: log) next := by
  have hRecord : c.record? id = boundIn log url := by
    rw [record?_of_isSlot ((h.slots url id).1 hSlot), h.bound]
  cases hBound : boundIn log url with
  | some record =>
    rw [answer_of_some (hRecord.trans hBound)]
    exact ⟨.bound hSlot hBound, h.again hSlot hBound make world⟩
  | none =>
    rw [answer_of_none (hRecord.trans hBound)]
    refine ⟨.made hSlot hBound, ?_⟩
    cases (make world).1 with
    | ok record => exact h.fill hSlot make world _
    | error e => exact h.cons rfl rfl

/-- A request is answered as the map says, and the cache goes on to hold what the log tells. -/
theorem IsKept.answer (h : IsKept log c) (request : Request σ ε ρ) (world : σ)
    (hHeld : ∀ id make, request = .create id make → ∃ url, (url, id) ∈ slotsOf log) :
    let ((answer, next), after) := c.answer request world
    Agrees log ⟨request, answer, world, after⟩ ∧
      IsKept (⟨request, answer, world, after⟩ :: log) next := by
  cases request with
  | slot url => exact ⟨agrees_slot h url world, h.slot url world⟩
  | create id make =>
    obtain ⟨url, hSlot⟩ := hHeld id make rfl
    exact h.create hSlot make world
  | get url =>
    have hEntry : Agrees log ⟨.get url, .record (c.get? url), world, world⟩ := by
      rw [h.bound]
      exact .get
    exact ⟨hEntry, h.cons rfl rfl⟩
  | contains url =>
    have hEntry : Agrees log ⟨.contains url, .contained (c.contains url), world, world⟩ := by
      rw [contains, h.bound]
      exact .contains
    exact ⟨hEntry, h.cons rfl rfl⟩
  | urls => exact ⟨.urls (areBound_urls h), h.cons rfl rfl⟩
  | size =>
    have hEntry : Agrees log ⟨.size, .size c.size, world, world⟩ := by
      rw [← length_urls]
      exact .size (areBound_urls h)
    exact ⟨hEntry, h.cons rfl rfl⟩
  | isEmpty => exact ⟨.isEmpty (isEmpty_iff h), h.cons rfl rfl⟩

/-! ### All requests -/

theorem suffix_serve (c : ModuleCache ρ) (world : σ) (log : List (Entry σ ε ρ))
    (requests : List (Request σ ε ρ)) : log <:+ c.serve world log requests := by
  induction requests generalizing c world log with
  | nil => exact List.suffix_rfl
  | cons request rest ih => exact (List.suffix_cons _ _).trans (ih _ _ _)

theorem slotsAreHeld_of_suffix (hPast : past <:+ log) (h : slotsAreHeld log = true) :
    slotsAreHeld past = true := by
  obtain ⟨later, rfl⟩ := hPast
  induction later with
  | nil => exact h
  | cons now later ih =>
    rw [List.cons_append, slotsAreHeld, Bool.and_eq_true] at h
    exact ih h.1

theorem exists_slot_of_held (h : slotsAreHeld (now :: past) = true) {id : SlotId}
    {make : StateM σ (Except ε ρ)} (hNow : now.request = .create id make) :
    ∃ url, (url, id) ∈ slotsOf past := by
  rw [slotsAreHeld, Bool.and_eq_true, hNow, List.any_eq_true] at h
  obtain ⟨-, ⟨url, used⟩, hMem, hSame⟩ := h
  exact ⟨url, beq_iff_eq.1 hSame ▸ hMem⟩

/-- Requests that are answered from a cache that holds what the log tells are answered as the map
says. -/
theorem IsKept.serve (h : IsKept log c) (requests : List (Request σ ε ρ)) (world : σ)
    (hHeld : slotsAreHeld (c.serve world log requests) = true)
    (hLog : ∀ now past, now :: past <:+ log → Agrees past now) {now : Entry σ ε ρ}
    {past : List (Entry σ ε ρ)} (hNow : now :: past <:+ c.serve world log requests) :
    Agrees past now := by
  induction requests generalizing c world log with
  | nil => exact hLog now past hNow
  | cons request rest ih =>
    have hStep := h.answer request world fun id make hRequest =>
      exists_slot_of_held (slotsAreHeld_of_suffix (suffix_serve _ _ _ rest) hHeld) hRequest
    refine ih hStep.2 _ hHeld (fun other others hOther => ?_) hNow
    rcases List.suffix_cons_iff.1 hOther with hSame | hOld
    · cases hSame
      exact hStep.1
    · exact hLog other others hOld

/-- Whatever the requests are, if records are made only in slots that were handed out: every answer
is that of the map from URLs to records which the log before it gives.  There a URL has the record
that was first made in its slot, and keeps it; a URL has one slot, which no other URL has; and a
record that could not be made leaves no trace. -/
theorem agrees_of_serve (requests : List (Request σ ε ρ)) (world : σ)
    (hHeld : slotsAreHeld (serve {} world [] requests) = true) :
    (∀ now past, now :: past <:+ serve {} world [] requests → Agrees past now) ∧
    ∀ past url record, past <:+ serve {} world [] requests → boundIn past url = some record →
      boundIn (serve {} world [] requests) url = some record := by
  refine ⟨fun now past hNow => ?_, fun past url record hPast hBound => ?_⟩
  · refine isKept_nil.serve requests world hHeld (fun other others hOther => ?_) hNow
    cases List.suffix_nil.1 hOther
  · exact boundIn_of_suffix hPast hBound

end ModuleLoader.ModuleCache

namespace ModuleLoader

namespace Sample

open ModuleCache

/-- Makes a record or fails, and counts how often it was run. -/
def making (outcome : Except String Nat) : StateM Nat (Except String Nat) :=
  fun runs => (outcome, runs + 1)

/-- A record is made in the slot of `a` at the second attempt, and is asked for again.  The slot of
`b` stays empty. -/
def attempts : List (Request Nat String Nat) :=
  [.slot "a", .slot "b", .create 0 (making (.error "busy")), .isEmpty, .create 0 (making (.ok 7)),
    .slot "a", .create 0 (making (.ok 8)), .get "a", .contains "b", .urls, .size]

end Sample

namespace ModuleCache

/-- The first record that could be made stays, and the action for another one is not run. -/
theorem agrees_of_serve_retry :
    let log := serve {} 0 [] Sample.attempts
    slotsAreHeld log = true ∧
    (log.map Entry.answer).reverse =
      [.slot 0, .slot 1, .created (.error "busy"), .isEmpty true, .created (.ok 7), .slot 0,
        .created (.ok 7), .record (some 7), .contained false, .urls ["a"], .size 1] ∧
    (log.map Entry.after).head? = some 2 ∧
    boundIn log "a" = some 7 ∧
    ∀ now past, now :: past <:+ log → Agrees past now := by
  intro log
  have hHeld : slotsAreHeld log = true := by decide +kernel
  obtain ⟨hAgrees, hGrows⟩ := agrees_of_serve Sample.attempts 0 hHeld
  refine ⟨hHeld, rfl, rfl, ?_, hAgrees⟩
  exact hGrows (serve {} 0 [] (Sample.attempts.take 5)) "a" 7 ⟨log.take 6, rfl⟩ (by decide +kernel)

end ModuleCache

end ModuleLoader
