import ModuleLoader.Proofs.Json.Reading
import ModuleLoader.Proofs.Tsconfig.Fields
import ModuleLoader.Proofs.Tsconfig.Pieces

/-! Which texts are read as configurations.  A text that is read is in the dialect if its parts show
none of three faults, and only then: a block comment that nothing closes, a block comment inside a
word, and a comma that is all that a container holds. -/

namespace ModuleLoader.Tsconfig

open Json (Document)

/-- The piece is a token that ends a value. -/
def Piece.EndsValue (p : Piece) : Prop := ∃ t, p = .token t ∧ t.endsValue = true

/-- The pieces make up a document with gaps around its tokens and a comma, where there is one more,
behind a value. -/
structure Spells (ps : List Piece) (d : Document) : Prop where
  isLaidOut : IsLaidOut ps
  tokens : tokensOf ps = d.tokens
  spaces : ∀ c, .space c ∈ ps → Json.isSpace c = true
  first : (ps.filter (!·.isGap)).head? ≠ some .trailing
  behind : (ps.filter (!·.isGap)).IsChain fun p q => q = .trailing → p.EndsValue

/-- The text is one of the document in the dialect. -/
def InDialect (text : List Char) (d : Document) : Prop := ∃ ps, Spells ps d ∧ textOf ps = text

/-- The parts show no fault. -/
structure IsFaultless (qs : List Part) : Prop where
  /-- Every block comment is closed. -/
  closed : ∀ q ∈ qs, q.isUnclosed = false
  /-- No block comment stands inside a word. -/
  apart : (qs.filter (!·.isBlock)).IsChain fun p q => ¬(p.isWord = true ∧ q.isWord = true)
  /-- No comma that is taken away follows an opening mark. -/
  filled : (qs.filter (!·.isGap)).IsChain fun p q => ¬(p.isOpener = true ∧ q = .dropped)

instance (qs : List Part) : Decidable (IsFaultless qs) :=
  decidable_of_iff
    ((∀ q ∈ qs, q.isUnclosed = false) ∧
      ((qs.filter (!·.isBlock)).IsChain fun p q => ¬(p.isWord = true ∧ q.isWord = true)) ∧
      (qs.filter (!·.isGap)).IsChain fun p q => ¬(p.isOpener = true ∧ q = .dropped))
    ⟨fun ⟨hClosed, hApart, hFilled⟩ => ⟨hClosed, hApart, hFilled⟩,
      fun h => ⟨h.closed, h.apart, h.filled⟩⟩

variable {text : List Char} {ps : List Piece} {d : Document}

theorem head?_filter_isGap (ps : List Piece) :
    (ps.filter (!·.isGap)).head? = (ps.dropWhile Piece.isGap).head? := by
  rw [List.head?_filter, List.find?_not_eq_head?_dropWhile]

/-- A comma that is one too many is followed by a token that closes a container. -/
theorem exists_closer (h : IsLaidOut ps) (hHead : (ps.filter (!·.isGap)).head? = some .trailing) :
    ∃ u ∈ (tokensOf ps).head?, u.isCloser = true := by
  induction ps with
  | nil => cases hHead
  | cons p ps ih =>
    cases p with
    | token t => cases hHead
    | space | line | block => exact ih h.2 hHead
    | trailing =>
      obtain ⟨u, hu, hCloser⟩ := h.1
      have hRest : u ∈ (tokensOf ps).head? := head?_tokensOf hu
      exact ⟨u, hRest, hCloser⟩

/-- Before a token that closes a container there is the end of a value or an opening mark, and an
opening mark cannot be before the comma. -/
theorem behind_of_filled (h : IsLaidOut ps)
    (hTokens : (tokensOf ps).IsChain fun t u =>
      u.isCloser = true → t.endsValue = true ∨ t.isOpener = true)
    (hFilled : (ps.filter (!·.isGap)).IsChain fun p q =>
      ¬(p.part.isOpener = true ∧ q.part = .dropped)) :
    (ps.filter (!·.isGap)).IsChain fun p q => q = .trailing → p.EndsValue := by
  induction ps with
  | nil => exact .nil
  | cons p ps ih =>
    cases p with
    | space | line | block => exact ih h.2 hTokens hFilled
    | token t =>
      obtain ⟨hFirst, hFilled⟩ := List.isChain_cons.1 hFilled
      obtain ⟨hNext, hTokens⟩ := List.isChain_cons.1 hTokens
      refine List.isChain_cons.2 ⟨?_, ih h.2 hTokens hFilled⟩
      rintro q hq rfl
      obtain ⟨u, hu, hCloser⟩ := exists_closer h.2 hq
      rcases hNext u hu hCloser with hEnds | hOpener
      · exact ⟨t, rfl, hEnds⟩
      · refine absurd ⟨?_, rfl⟩ (hFirst _ hq)
        cases t <;> first | rfl | cases hOpener
    | trailing =>
      -- What follows the first of two such commas closes a container, so there is no second one.
      refine List.isChain_cons.2 ⟨?_, ih h.2 hTokens (List.isChain_cons.1 hFilled).2⟩
      rintro q hq rfl
      obtain ⟨u, hu, -⟩ := h.1
      have hHead := (head?_filter_isGap ps).symm.trans hq
      cases hu.symm.trans hHead

/-- A text of a document, up to faults, is in the dialect if its parts show no fault. -/
theorem inDialect_of_isFaultless (h : Document.ofText? (plain text) = some d)
    (hFaultless : IsFaultless (parts text)) : InDialect text d := by
  obtain ⟨ts, hTokens, hDocument⟩ := Option.bind_eq_some_iff.1 h
  obtain rfl := Document.tokens_eq hDocument
  have hApart := (Document.isChain_of_ofTokens? hDocument).imp fun _ _ h => h.2
  obtain ⟨ps, hLays⟩ := exists_lays (isCut_parts text) hFaultless.closed hFaultless.apart
    (Json.spread_of_tokens? hTokens) hApart
  have hFilled := hFaultless.filled
  rw [← hLays.parts, filter_map_part hLays.isLaidOut, List.isChain_map] at hFilled
  refine ⟨ps, ⟨hLays.isLaidOut, hLays.tokens, hLays.spaces, fun hHead => ?_, ?_⟩,
    hLays.textOf (isCut_parts text)⟩
  · obtain ⟨u, hu, hCloser⟩ := exists_closer hLays.isLaidOut hHead
    rw [hLays.tokens] at hu
    cases (Document.head?_tokens d hu).symm.trans hCloser
  · exact behind_of_filled hLays.isLaidOut (hLays.tokens ▸ d.isChain_endsValue) hFilled

theorem isUnclosed_part (p : Piece) : p.part.isUnclosed = false := by
  cases p with
  | token t => cases t <;> rfl
  | _ => rfl

/-- If a layout goes on with a word behind its block comments, then its tokens do. -/
theorem exists_word
    (hHead : ∃ q ∈ ((ps.map Piece.part).filter (!·.isBlock)).head?, q.isWord = true) :
    ∃ u ∈ (tokensOf ps).head?, u.isWord = true := by
  obtain ⟨q, hq, hWord⟩ := hHead
  induction ps with
  | nil => cases hq
  | cons p ps ih =>
    cases p with
    | block => exact ih hq
    | token t =>
      refine ⟨t, rfl, ?_⟩
      cases t <;> cases hq <;> first | rfl | cases hWord
    | space | line | trailing =>
      cases hq
      cases hWord

theorem apart_of_tokens (hTokens : (tokensOf ps).IsChain Json.Token.Precedes) :
    ((ps.map Piece.part).filter (!·.isBlock)).IsChain fun p q =>
      ¬(p.isWord = true ∧ q.isWord = true) := by
  induction ps with
  | nil => exact .nil
  | cons p ps ih =>
    cases p with
    | block => exact ih hTokens
    | space | line | trailing =>
      refine List.isChain_cons.2 ⟨?_, ih hTokens⟩
      rintro q - ⟨hWord, -⟩
      cases hWord
    | token t =>
      have hTokens : (t :: tokensOf ps).IsChain Json.Token.Precedes := hTokens
      obtain ⟨hFirst, hTokens⟩ := List.isChain_cons.1 hTokens
      have hPart : (partOf t).isBlock = false := by cases t <;> rfl
      rw [List.map_cons, Piece.part, List.filter_cons_of_pos (by simp [hPart])]
      refine List.isChain_cons.2 ⟨?_, ih hTokens⟩
      rintro q hq ⟨hWord, hNext⟩
      obtain ⟨u, hu, hWord'⟩ := exists_word ⟨q, hq, hNext⟩
      refine (hFirst u hu).2 ⟨?_, hWord'⟩
      cases t <;> first | rfl | cases hWord

/-- The parts of a text in the dialect show no fault. -/
theorem isFaultless_of_inDialect (h : InDialect text d) : IsFaultless (parts text) := by
  obtain ⟨ps, hSpells, rfl⟩ := h
  have hTokens : (tokensOf ps).IsChain Json.Token.Precedes :=
    hSpells.tokens ▸ Document.isChain_of_ofTokens? d.ofTokens?_tokens
  rw [(isCut_textOf hSpells.isLaidOut hTokens).parts_eq]
  refine ⟨List.forall_mem_map.2 fun p _ => isUnclosed_part p, apart_of_tokens hTokens, ?_⟩
  rw [filter_map_part hSpells.isLaidOut, List.isChain_map]
  refine hSpells.behind.imp fun p q hBehind => ?_
  rintro ⟨hOpener, hDropped⟩
  obtain rfl : q = .trailing := by
    cases q with
    | trailing => rfl
    | token t => cases t <;> cases hDropped
    | _ => cases hDropped
  obtain ⟨t, ht, hEnds⟩ := hBehind rfl
  subst ht
  cases t <;> cases hEnds <;> cases hOpener

theorem ofText?_of_inDialect (h : InDialect text d) : Document.ofText? (plain text) = some d := by
  obtain ⟨ps, hSpells, rfl⟩ := h
  have hTokens : (tokensOf ps).IsChain Json.Token.Precedes :=
    hSpells.tokens ▸ Document.isChain_of_ofTokens? d.ofTokens?_tokens
  have hSpread := spread_keptOf hSpells.isLaidOut hSpells.spaces
  rw [plain_textOf hSpells.isLaidOut hTokens, Document.ofText?,
    hSpread.tokens? (hTokens.imp fun _ _ h => h.2), hSpells.tokens]
  exact d.ofTokens?_tokens

/-- Of the texts that leave a document, those without faults are in the dialect. -/
theorem inDialect_iff :
    InDialect text d ↔ Document.ofText? (plain text) = some d ∧ IsFaultless (parts text) :=
  ⟨fun h => ⟨ofText?_of_inDialect h, isFaultless_of_inDialect h⟩,
    fun ⟨hText, hFaultless⟩ => inDialect_of_isFaultless hText hFaultless⟩

theorem exists_of_readConfig {text : String} {directory : FilePath} {o : CompilerOptions}
    (h : readConfig text directory = .ok o) :
    ∃ d, Document.ofText? (plain text.toList) = some d := by
  unfold readConfig at h
  split at h
  · cases h
  · next d hd => exact ⟨d, hd⟩

/-- A text that options are read from is in the dialect if its parts show no fault, and only then.
Any other text without faults has no options, and where it is the nearest configuration, the
defaults hold. -/
theorem inDialect_of_readConfig (text : String) :
    (∀ directory o, readConfig text directory = .ok o →
      ((∃ d, InDialect text.toList d) ↔ IsFaultless (parts text.toList))) ∧
    (IsFaultless (parts text.toList) → (∀ d, ¬InDialect text.toList d) →
      (∀ directory, ∃ e, readConfig text directory = .error e) ∧
      ∀ fs start path, findConfig? fs start = some path → fs.readText path = .ok text →
        loadOptions fs start = {}) := by
  have hExact : ∀ directory o, readConfig text directory = .ok o →
      ((∃ d, InDialect text.toList d) ↔ IsFaultless (parts text.toList)) := by
    intro directory o h
    obtain ⟨d, hd⟩ := exists_of_readConfig h
    exact ⟨fun ⟨_, hText⟩ => (inDialect_iff.1 hText).2, fun hFaultless =>
      ⟨d, inDialect_iff.2 ⟨hd, hFaultless⟩⟩⟩
  refine ⟨hExact, fun hFaultless hNone => ?_⟩
  have hError : ∀ directory o, readConfig text directory ≠ .ok o := by
    intro directory o h
    obtain ⟨d, hd⟩ := (hExact directory o h).2 hFaultless
    exact hNone d hd
  refine ⟨fun directory => ?_, fun fs start path hFind hText =>
    loadOptions_eq_default hFind hText hError⟩
  cases h : readConfig text directory with
  | error e => exact ⟨e, rfl⟩
  | ok o => exact absurd h (hError directory o)

/-- A text with marks of comments in comments and commas behind the last parts, and a text that is
cut off. -/
theorem inDialect_of_readConfig_comments :
    (∃ d, InDialect "/*//*/\x7b\"a\":[1,// /*\n],/**/\x7d".toList d) ∧
    (∃ e, readConfig "\x7b\"a\":/**/1," (.ofString "/") = .error e) ∧
    loadOptions { root := .directory [("tsconfig.json".toUTF8.toList,
      .file "\x7b\"a\":/**/1,".toUTF8.toList)] } (.ofString "/a") = {} := by
  obtain ⟨hExact, -⟩ := inDialect_of_readConfig "/*//*/\x7b\"a\":[1,// /*\n],/**/\x7d"
  obtain ⟨-, hOther⟩ := inDialect_of_readConfig "\x7b\"a\":/**/1,"
  have hRun : (readConfig "/*//*/\x7b\"a\":[1,// /*\n],/**/\x7d" (.ofString "/")).toOption.isSome =
      true := by decide +kernel
  have hNone : ∀ d, ¬InDialect "\x7b\"a\":/**/1,".toList d := by
    intro d h
    have hText : Document.ofText? (plain "\x7b\"a\":/**/1,".toList) = none := by decide +kernel
    cases (inDialect_iff.1 h).1.symm.trans hText
  obtain ⟨hErrors, hDefaults⟩ := hOther (by decide +kernel) hNone
  refine ⟨?_, hErrors _, hDefaults _ _ (.ofString "/tsconfig.json") (by decide +kernel)
    (by decide +kernel)⟩
  cases hRead : readConfig _ (.ofString "/") with
  | error e =>
    rw [hRead] at hRun
    cases hRun
  | ok o => exact (hExact _ o hRead).2 (by decide +kernel)

/-- The two halves of a word around a block comment, a comma that an object holds and nothing else,
and a comment that nothing closes. -/
theorem readConfig_beyond_dialect :
    (readConfig "\x7b\"compilerOptions\":\x7b\"strict\":tr/**/ue\x7d\x7d"
      (.ofString "/")).toOption.map (·.strict) = some true ∧
    (∀ d, ¬InDialect "\x7b\"compilerOptions\":\x7b\"strict\":tr/**/ue\x7d\x7d".toList d) ∧
    (readConfig "\x7b,\x7d" (.ofString "/")).toOption.isSome = true ∧
    (∀ d, ¬InDialect "\x7b,\x7d".toList d) ∧
    (readConfig "\x7b\x7d/*" (.ofString "/")).toOption.isSome = true ∧
    ∀ d, ¬InDialect "\x7b\x7d/*".toList d := by
  refine ⟨by decide +kernel, ?_, by decide +kernel, ?_, by decide +kernel, ?_⟩ <;>
    exact fun d h => absurd (inDialect_iff.1 h).2 (by decide +kernel)

end ModuleLoader.Tsconfig
