import ModuleLoader.Json.Document
import ModuleLoader.Proofs.Json.Token

/-! Documents and their tokens.  A document is read off its own tokens, and wherever a document is
read no comma stands before a closing mark and no two words follow each other. -/

namespace ModuleLoader.Json.Document

variable {t u : Token} {ts : List Token} {d : Document} {items : List Document}
  {members : List (List Char × Document)}

theorem itemsTokens_cons (item next : Document) (items : List Document) :
    itemsTokens (item :: next :: items) = item.tokens ++ .comma :: itemsTokens (next :: items) := by
  simp [itemsTokens]

theorem membersTokens_cons (key : List Char) (value : Document) (next : List Char × Document)
    (members : List (List Char × Document)) :
    membersTokens ((key, value) :: next :: members) =
      .string key :: .colon :: value.tokens ++ .comma :: membersTokens (next :: members) := by
  simp [membersTokens]

theorem exists_tokens (d : Document) : ∃ t ts, d.tokens = t :: ts ∧ t ≠ .closeBracket := by
  cases d <;> exact ⟨_, _, rfl, by simp⟩

theorem exists_itemsTokens (item : Document) (items : List Document) :
    ∃ t ts, itemsTokens (item :: items) = t :: ts ∧ t ≠ .closeBracket := by
  obtain ⟨t, ts, hTokens, ht⟩ := item.exists_tokens
  cases items with
  | nil => exact ⟨t, ts, hTokens, ht⟩
  | cons next items => exact ⟨t, _, by rw [itemsTokens_cons, hTokens, List.cons_append], ht⟩

theorem mem_itemsTokens (hd : d ∈ items) (ht : t ∈ d.tokens) : t ∈ itemsTokens items := by
  induction items with
  | nil => cases hd
  | cons item rest ih =>
    cases rest with
    | nil =>
      obtain rfl := List.mem_singleton.1 hd
      exact ht
    | cons next rest =>
      rw [itemsTokens_cons, List.mem_append]
      rcases List.mem_cons.1 hd with rfl | hRest
      · exact .inl ht
      · exact .inr (List.mem_cons_of_mem _ (ih hRest))

theorem mem_membersTokens {member : List Char × Document} (hMember : member ∈ members)
    (ht : t ∈ member.2.tokens) : t ∈ membersTokens members := by
  induction members with
  | nil => cases hMember
  | cons first rest ih =>
    obtain ⟨key, value⟩ := first
    cases rest with
    | nil =>
      obtain rfl := List.mem_singleton.1 hMember
      exact List.mem_cons_of_mem _ (List.mem_cons_of_mem _ ht)
    | cons next rest =>
      rw [membersTokens_cons, List.mem_append]
      rcases List.mem_cons.1 hMember with rfl | hRest
      · exact .inl (List.mem_cons_of_mem _ (List.mem_cons_of_mem _ ht))
      · exact .inr (List.mem_cons_of_mem _ (ih hRest))

theorem tokens_subset_array (hd : d ∈ items) : d.tokens ⊆ (array items).tokens := fun _ ht =>
  List.mem_cons_of_mem _ (List.mem_append_left _ (mem_itemsTokens hd ht))

theorem tokens_subset_object {member : List Char × Document} (hMember : member ∈ members) :
    member.2.tokens ⊆ (object members).tokens := fun _ ht =>
  List.mem_cons_of_mem _ (List.mem_append_left _ (mem_membersTokens hMember ht))

theorem step_firstItem (stack : List Frame) (ht : t ≠ .closeBracket) :
    (Reading.firstItem stack).step t = (Reading.value stack).step t := by
  rcases stack with _ | ⟨read | read | ⟨read, key⟩, stack⟩ <;> cases t <;>
    first | exact absurd rfl ht | rfl

mutual

/-- The tokens of a document are read as the document, whatever stands around it. -/
theorem run_tokens : (d : Document) → (stack : List Frame) → (rest : List Token) →
    (Reading.value stack).run (d.tokens ++ rest) = (complete d stack).bind (·.run rest)
  | .null, _, _ | .boolean _, _, _ | .number _, _, _ | .string _, _, _ => rfl
  | .array [], _, _ => rfl
  | .array (item :: items), stack, rest => by
    obtain ⟨t, ts, hTokens, ht⟩ := exists_itemsTokens item items
    have hItems := run_itemsTokens (item :: items) (by simp) [] stack rest
    rw [tokens, List.cons_append, List.cons_append, List.append_assoc, List.singleton_append]
    rw [hTokens, List.cons_append, Reading.run, ← step_firstItem _ ht] at hItems
    rw [hTokens]
    exact hItems
  | .object [], _, _ => rfl
  | .object ((key, value) :: members), stack, rest => by
    have hMembers := run_membersTokens ((key, value) :: members) (by simp) [] stack rest
    rw [tokens, List.cons_append, List.cons_append, List.append_assoc, List.singleton_append]
    cases members <;> exact hMembers

theorem run_itemsTokens : (items : List Document) → items ≠ [] → (read : List Document) →
    (stack : List Frame) → (rest : List Token) →
    (Reading.value (.items read :: stack)).run (itemsTokens items ++ .closeBracket :: rest) =
      (complete (.array (read.reverse ++ items)) stack).bind (·.run rest)
  | [], hNil, _, _, _ => absurd rfl hNil
  | [item], _, read, stack, rest => by
    rw [itemsTokens, run_tokens item]
    simp [complete, Reading.run, Reading.step]
  | item :: next :: items, _, read, stack, rest => by
    rw [itemsTokens_cons, List.append_assoc, run_tokens item]
    have hRest := run_itemsTokens (next :: items) (by simp) (item :: read) stack rest
    simpa [complete, Reading.run, Reading.step] using hRest

theorem run_membersTokens : (members : List (List Char × Document)) → members ≠ [] →
    (read : List (List Char × Document)) → (stack : List Frame) → (rest : List Token) →
    (Reading.key (.members read :: stack)).run (membersTokens members ++ .closeBrace :: rest) =
      (complete (.object (read.reverse ++ members)) stack).bind (·.run rest)
  | [], hNil, _, _, _ => absurd rfl hNil
  | [(key, value)], _, read, stack, rest => by
    have hValue := run_tokens value (.member read key :: stack) (.closeBrace :: rest)
    simpa [membersTokens, complete, Reading.run, Reading.step] using hValue
  | (key, value) :: next :: members, _, read, stack, rest => by
    have hValue := run_tokens value (.member read key :: stack)
      (.comma :: membersTokens (next :: members) ++ .closeBrace :: rest)
    have hRest := run_membersTokens (next :: members) (by simp) ((key, value) :: read) stack rest
    rw [membersTokens_cons]
    simpa [complete, Reading.run, Reading.step, hRest] using hValue

end

theorem ofTokens?_tokens (d : Document) : ofTokens? d.tokens = some d := by
  have hRun := d.run_tokens [] []
  rw [List.append_nil] at hRun
  rw [ofTokens?, hRun]
  rfl

end ModuleLoader.Json.Document

namespace ModuleLoader.Json

/-- The token closes a container. -/
def Token.isCloser : Token → Bool
  | .closeBracket | .closeBrace => true
  | _ => false

/-- The token opens a container. -/
def Token.isOpener : Token → Bool
  | .openBracket | .openBrace => true
  | _ => false

/-- The token ends a value. -/
def Token.endsValue : Token → Bool
  | .openBracket | .openBrace | .comma | .colon => false
  | _ => true

/-- The second token may follow the first one in a document. -/
def Token.Precedes (t u : Token) : Prop :=
  (t = .comma → u.isCloser = false) ∧ ¬(t.isWord = true ∧ u.isWord = true)

namespace Document

variable {t u : Token} {ts : List Token} {r r' r'' : Reading}

theorem after_complete {d : Document} {stack : List Frame} (h : complete d stack = some r) :
    (∃ stack, r = .separator stack) ∨ ∃ d, r = .finished d := by
  unfold complete at h
  split at h <;> cases h
  · exact .inr ⟨d, rfl⟩
  · exact .inl ⟨_, rfl⟩
  · exact .inl ⟨_, rfl⟩

/-- A word stands where a value has to come, and is a value. -/
theorem step_word (hWord : t.isWord = true) (h : r.step t = some r') :
    (∃ stack, r = .value stack ∨ r = .firstItem stack) ∧
      ((∃ stack, r' = .separator stack) ∨ ∃ d, r' = .finished d) := by
  cases t with
  | null | boolean | number =>
    cases r with
    | value stack => exact ⟨⟨stack, .inl rfl⟩, after_complete h⟩
    | firstItem stack =>
      rw [step_firstItem stack (by simp)] at h
      exact ⟨⟨stack, .inr rfl⟩, after_complete h⟩
    | separator stack | firstKey stack | colon key stack =>
      rcases stack with _ | ⟨read | read | ⟨read, key⟩, stack⟩ <;> cases h
    | key | finished => cases h
  | _ => cases hWord

theorem after_comma (h : r.step .comma = some r') :
    (∃ stack, r' = .value stack) ∨ ∃ stack, r' = .key stack := by
  cases r with
  | separator stack =>
    rcases stack with _ | ⟨read | read | ⟨read, key⟩, stack⟩ <;> cases h
    · exact .inl ⟨_, rfl⟩
    · exact .inr ⟨_, rfl⟩
  | firstItem stack | firstKey stack | colon key stack =>
    rcases stack with _ | ⟨read | read | ⟨read, key⟩, stack⟩ <;> cases h
  | value | key | finished => cases h

theorem precedes_of_step (h : r.step t = some r') (h' : r'.step u = some r'') : t.Precedes u := by
  refine ⟨?_, ?_⟩
  · rintro rfl
    rcases after_comma h with ⟨stack, rfl⟩ | ⟨stack, rfl⟩ <;> cases u <;> first | rfl | cases h'
  · rintro ⟨hWord, hWord'⟩
    obtain ⟨-, ⟨stack, rfl⟩ | ⟨d, rfl⟩⟩ := step_word hWord h
    · obtain ⟨⟨_, hValue | hFirst⟩, -⟩ := step_word hWord' h' <;> contradiction
    · cases h'

/-- What holds of tokens that are read one after another holds along all tokens that are read. -/
theorem isChain_of_run {R : Token → Token → Prop}
    (hR : ∀ {r r' r'' : Reading} {t u}, r.step t = some r' → r'.step u = some r'' → R t u)
    (h : r.run ts = some r') : ts.IsChain R := by
  induction ts generalizing r with
  | nil => exact .nil
  | cons t ts ih =>
    obtain ⟨next, hStep, hRest⟩ := Option.bind_eq_some_iff.1 h
    cases ts with
    | nil => exact .singleton t
    | cons u ts =>
      obtain ⟨last, hStep', -⟩ := Option.bind_eq_some_iff.1 hRest
      exact .cons_cons (hR hStep hStep') (ih hRest)

theorem exists_run {d : Document} (h : ofTokens? ts = some d) :
    (Reading.value []).run ts = some (.finished d) := by
  unfold ofTokens? at h
  split at h
  · next hRun =>
    cases h
    exact hRun
  · cases h

theorem isChain_of_ofTokens? {d : Document} (h : ofTokens? ts = some d) :
    ts.IsChain Token.Precedes :=
  isChain_of_run precedes_of_step (exists_run h)

theorem after_colon (h : r.step .colon = some r') : ∃ stack, r' = .value stack := by
  cases r with
  | colon key stack =>
    rcases stack with _ | ⟨read | read | ⟨read, key⟩, stack⟩ <;> cases h
    exact ⟨_, rfl⟩
  | separator stack | firstItem stack | firstKey stack =>
    rcases stack with _ | ⟨read | read | ⟨read, key⟩, stack⟩ <;> cases h
  | value | key | finished => cases h

/-- A container is closed behind a value, or where it was opened. -/
theorem endsValue_of_step (h : r.step t = some r') (h' : r'.step u = some r'')
    (hCloser : u.isCloser = true) : t.endsValue = true ∨ t.isOpener = true := by
  cases t with
  | comma => exact absurd hCloser (by simp [(precedes_of_step h h').1 rfl])
  | colon =>
    obtain ⟨stack, rfl⟩ := after_colon h
    cases u <;> cases hCloser <;> cases h'
  | openBracket | openBrace => exact .inr rfl
  | _ => exact .inl rfl

theorem isChain_endsValue (d : Document) :
    d.tokens.IsChain fun t u => u.isCloser = true → t.endsValue = true ∨ t.isOpener = true :=
  isChain_of_run endsValue_of_step (exists_run d.ofTokens?_tokens)

theorem head?_tokens (d : Document) (h : t ∈ d.tokens.head?) : t.isCloser = false := by
  cases d <;> cases h <;> rfl

end Document

end ModuleLoader.Json
