import ModuleLoader.Proofs.Json.Document

/-! Documents are read from their own tokens only: while it reads, the machine knows all tokens that
it has read. -/

namespace ModuleLoader.Json.Document

variable {t : Token} {ts : List Token} {r r' : Reading}

/-- The tokens that stand before the next part of the innermost container. -/
def openTokens : List Frame → List Token
  | [] => []
  | .items read :: stack =>
    openTokens stack ++ .openBracket :: read.reverse.flatMap fun d => d.tokens ++ [.comma]
  | .members read :: stack =>
    openTokens stack ++ .openBrace :: read.reverse.flatMap fun (key, d) =>
      .string key :: .colon :: d.tokens ++ [.comma]
  | .member read key :: stack =>
    openTokens stack ++ (.openBrace :: read.reverse.flatMap fun (key, d) =>
      .string key :: .colon :: d.tokens ++ [.comma]) ++ [.string key, .colon]

/-- The tokens that stand before a mark behind the last part of the innermost container. -/
def partTokens : List Frame → List Token
  | .items (d :: read) :: stack => openTokens (.items read :: stack) ++ d.tokens
  | .members ((key, d) :: read) :: stack => openTokens (.member read key :: stack) ++ d.tokens
  | _ => []

/-- The tokens that a reading has read. -/
def Reading.tokens : Reading → List Token
  | .value stack | .firstItem stack | .firstKey stack | .key stack => openTokens stack
  | .separator stack => partTokens stack
  | .colon name stack => openTokens stack ++ [.string name]
  | .finished d => d.tokens

/-- The innermost container has parts where a mark behind one is expected, and none where the first
is. -/
def Reading.IsSound : Reading → Prop
  | .firstItem stack => ∃ rest, stack = .items [] :: rest
  | .firstKey stack => ∃ rest, stack = .members [] :: rest
  | .separator stack => (∃ d read rest, stack = .items (d :: read) :: rest) ∨
      ∃ member read rest, stack = .members (member :: read) :: rest
  | _ => True

theorem itemsTokens_append (items : List Document) (d : Document) :
    itemsTokens (items ++ [d]) = (items.flatMap fun d => d.tokens ++ [.comma]) ++ d.tokens := by
  induction items with
  | nil => simp [itemsTokens]
  | cons item rest ih =>
    obtain ⟨next, more, hRest⟩ := List.exists_cons_of_ne_nil (by simp : rest ++ [d] ≠ [])
    rw [List.cons_append, hRest, itemsTokens_cons, ← hRest, ih]
    simp

theorem membersTokens_append (members : List (List Char × Document)) (key : List Char)
    (d : Document) :
    membersTokens (members ++ [(key, d)]) =
      (members.flatMap fun (key, d) => .string key :: .colon :: d.tokens ++ [.comma]) ++
        .string key :: .colon :: d.tokens := by
  induction members with
  | nil => simp [membersTokens]
  | cons member rest ih =>
    obtain ⟨next, more, hRest⟩ := List.exists_cons_of_ne_nil (by simp : rest ++ [(key, d)] ≠ [])
    rw [List.cons_append, hRest, membersTokens_cons, ← hRest, ih]
    simp

theorem tokens_of_complete {d : Document} {stack : List Frame} (h : complete d stack = some r) :
    r.IsSound ∧ r.tokens = openTokens stack ++ d.tokens := by
  unfold complete at h
  split at h <;> cases h
  · exact ⟨trivial, rfl⟩
  · exact ⟨.inl ⟨_, _, _, rfl⟩, rfl⟩
  · exact ⟨.inr ⟨_, _, _, rfl⟩, rfl⟩

theorem tokens_of_begin {stack : List Frame} (h : begin stack t = some r) :
    r.IsSound ∧ r.tokens = openTokens stack ++ [t] := by
  cases t with
  | null | boolean | number | string => exact tokens_of_complete h
  | openBracket | openBrace =>
    cases h
    exact ⟨⟨_, rfl⟩, rfl⟩
  | _ => cases h

/-- A step reads one token. -/
theorem tokens_of_step (hSound : r.IsSound) (h : r.step t = some r') :
    r'.IsSound ∧ r'.tokens = r.tokens ++ [t] := by
  cases r with
  | value stack => exact tokens_of_begin h
  | firstItem stack =>
    obtain ⟨rest, rfl⟩ := hSound
    by_cases ht : t = .closeBracket
    · subst ht
      obtain ⟨hSound, hTokens⟩ := tokens_of_complete h
      exact ⟨hSound, hTokens.trans (by simp [Reading.tokens, openTokens, tokens, itemsTokens])⟩
    · rw [step_firstItem _ ht] at h
      exact tokens_of_begin h
  | separator stack =>
    obtain ⟨d, read, rest, rfl⟩ | ⟨⟨key, d⟩, read, rest, rfl⟩ := hSound
    · cases t with
      | comma =>
        cases h
        exact ⟨trivial, by simp [Reading.tokens, openTokens, partTokens]⟩
      | closeBracket =>
        obtain ⟨hSound, hTokens⟩ := tokens_of_complete h
        refine ⟨hSound, hTokens.trans ?_⟩
        simp [Reading.tokens, openTokens, partTokens, tokens, itemsTokens_append]
      | _ => cases h
    · cases t with
      | comma =>
        cases h
        exact ⟨trivial, by simp [Reading.tokens, openTokens, partTokens]⟩
      | closeBrace =>
        obtain ⟨hSound, hTokens⟩ := tokens_of_complete h
        refine ⟨hSound, hTokens.trans ?_⟩
        simp [Reading.tokens, openTokens, partTokens, tokens, membersTokens_append]
      | _ => cases h
  | firstKey stack =>
    obtain ⟨rest, rfl⟩ := hSound
    cases t with
    | closeBrace =>
      obtain ⟨hSound, hTokens⟩ := tokens_of_complete h
      exact ⟨hSound, hTokens.trans (by simp [Reading.tokens, openTokens, tokens, membersTokens])⟩
    | string =>
      cases h
      exact ⟨trivial, rfl⟩
    | _ => cases h
  | key stack =>
    cases t with
    | string =>
      cases h
      exact ⟨trivial, rfl⟩
    | _ => cases h
  | colon name stack =>
    rcases stack with _ | ⟨read | read | ⟨read, key⟩, stack⟩ <;> cases t <;> cases h
    exact ⟨trivial, by simp [Reading.tokens, openTokens]⟩
  | finished => cases h

theorem tokens_of_run (hSound : r.IsSound) (h : r.run ts = some r') :
    r'.tokens = r.tokens ++ ts := by
  induction ts generalizing r with
  | nil =>
    cases h
    exact (List.append_nil _).symm
  | cons t ts ih =>
    obtain ⟨next, hStep, hRest⟩ := Option.bind_eq_some_iff.1 h
    obtain ⟨hNext, hTokens⟩ := tokens_of_step hSound hStep
    rw [ih hNext hRest, hTokens, List.append_assoc, List.singleton_append]

/-- The tokens that a document is read from are its own. -/
theorem tokens_eq {d : Document} (h : ofTokens? ts = some d) : ts = d.tokens :=
  (tokens_of_run (r := .value []) trivial (exists_run h)).symm

end ModuleLoader.Json.Document
