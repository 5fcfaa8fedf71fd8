import ModuleLoader.Proofs.Json.Document
import ModuleLoader.Tsconfig.Dialect

/-! Texts in the dialect of configuration files, as tokens with spaces, comments and trailing commas
between them.  What is left of such a text are its tokens and spaces, and a JSON text is left as it
is. -/

namespace ModuleLoader.Tsconfig

open ModuleLoader.Text

/-- A part of a text in the dialect. -/
inductive Piece where
  | token (t : Json.Token)
  | space (c : Char)
  /-- A comment that ends with its line. -/
  | line (body : List Char)
  | block (body : List Char)
  /-- A comma that nothing but a closing mark follows. -/
  | trailing

namespace Piece

def text : Piece → List Char
  | .token t => t.text
  | .space c => [c]
  | .line body => '/' :: '/' :: body
  | .block body => '/' :: '*' :: (body ++ ['*', '/'])
  | .trailing => [',']

/-- The text of the piece, if it belongs to JSON. -/
def kept : Piece → List Char
  | .token t => t.text
  | .space c => [c]
  | _ => []

def token? : Piece → Option Json.Token
  | .token t => some t
  | _ => none

def isGap : Piece → Bool
  | .space _ | .line _ | .block _ => true
  | _ => false

end Piece

/-- The first of the pieces that is no gap closes a container. -/
def IsClosing (ps : List Piece) : Prop :=
  ∃ t, (ps.dropWhile Piece.isGap).head? = some (.token t) ∧ t.isCloser = true

/-- The piece is what it says it is before the other ones. -/
def Piece.Fits : Piece → List Piece → Prop
  | .token t, _ => t.IsValid
  | .space c, _ => isBlank c = true
  | .line body, rest => '\n' ∉ body ∧ ∀ p ∈ rest.head?, p = .space '\n'
  | .block body, _ => ¬['*', '/'] <:+: body
  | .trailing, rest => IsClosing rest

/-- The pieces make up a text, each where it may stand. -/
def IsLaidOut : List Piece → Prop
  | [] => True
  | p :: rest => p.Fits rest ∧ IsLaidOut rest

def textOf (ps : List Piece) : List Char := ps.flatMap Piece.text

def keptOf (ps : List Piece) : List Char := ps.flatMap Piece.kept

def tokensOf (ps : List Piece) : List Json.Token := ps.filterMap Piece.token?

@[simp] theorem textOf_cons (p : Piece) (ps : List Piece) : textOf (p :: ps) = p.text ++ textOf ps :=
  List.flatMap_cons

@[simp] theorem keptOf_cons (p : Piece) (ps : List Piece) : keptOf (p :: ps) = p.kept ++ keptOf ps :=
  List.flatMap_cons

variable {c : Char} {text body rest : List Char} {t : Json.Token} {ps : List Piece}

theorem isBlank_of_isPlain (h : Json.isPlain c = true) : isBlank c = false := by
  delta Json.isPlain Char.isAlphanum Char.isAlpha Char.isUpper Char.isLower Char.isDigit at h
  simp only [Bool.or_eq_true, Bool.and_eq_true, decide_eq_true_eq, UInt32.le_iff_toNat_le,
    beq_iff_eq, ge_iff_le] at h
  change ((((65 ≤ c.toNat ∧ c.toNat ≤ 90 ∨ 97 ≤ c.toNat ∧ c.toNat ≤ 122) ∨
    48 ≤ c.toNat ∧ c.toNat ≤ 57) ∨ c = '+') ∨ c = '-') ∨ c = '.' at h
  rcases h with ((hAscii | rfl) | rfl) | rfl
  · simp only [isBlank, Bool.or_eq_false_iff, Bool.and_eq_false_iff, decide_eq_false_iff_not,
      beq_eq_false_iff_ne]
    omega
  · rfl
  · rfl
  · rfl

theorem ne_of_isBlank (h : isBlank c = true) (d : Char) (hd : isBlank d = false) : c ≠ d := by
  rintro rfl
  cases h.symm.trans hd

theorem behind_cons {word : List Char} (h : after? word (c :: rest) = none) :
    behind word (c :: rest) = behind word rest := by
  simp [behind, afterFirst?, h]

theorem behind_line (h : '\n' ∉ body) (rest : List Char) :
    behind ['\n'] (body ++ '\n' :: rest) = rest := by
  induction body with
  | nil => rfl
  | cons c body ih =>
    rw [List.mem_cons, not_or] at h
    exact (behind_cons (by simp [after?, h.1])).trans (ih h.2)

theorem behind_line_end (h : '\n' ∉ body) : behind ['\n'] body = [] := by
  induction body with
  | nil => rfl
  | cons c body ih =>
    rw [List.mem_cons, not_or] at h
    exact (behind_cons (by simp [after?, h.1])).trans (ih h.2)

theorem behind_block (h : ¬['*', '/'] <:+: body) (rest : List Char) :
    behind ['*', '/'] (body ++ '*' :: '/' :: rest) = rest := by
  induction body with
  | nil => rfl
  | cons c body ih =>
    have hLater : ¬['*', '/'] <:+: body := fun hInfix =>
      h (hInfix.trans (List.suffix_cons c body).isInfix)
    refine (behind_cons ?_).trans (ih hLater)
    rw [Option.eq_none_iff_forall_ne_some]
    intro tail hTail
    rw [after?_eq_some_iff] at hTail
    cases body with
    | nil => simp at hTail
    | cons d body =>
      obtain ⟨rfl, hNext⟩ := List.cons.inj hTail
      obtain ⟨rfl, -⟩ := List.cons.inj hNext
      exact h ⟨[], body, rfl⟩

theorem skipTrivia_of_line (h : trimStart text = '/' :: '/' :: rest) :
    skipTrivia text = skipTrivia (behind ['\n'] rest) := by
  rw [skipTrivia]
  split <;> simp_all

theorem skipTrivia_of_block (h : trimStart text = '/' :: '*' :: rest) :
    skipTrivia text = skipTrivia (behind ['*', '/'] rest) := by
  rw [skipTrivia]
  split <;> simp_all

theorem skipTrivia_of_other (hLine : ∀ rest, trimStart text ≠ '/' :: '/' :: rest)
    (hBlock : ∀ rest, trimStart text ≠ '/' :: '*' :: rest) : skipTrivia text = trimStart text := by
  rw [skipTrivia]
  split
  · next rest h => exact absurd h (hLine rest)
  · next rest h => exact absurd h (hBlock rest)
  · rfl

theorem trimStart_of_not_blank (h : isBlank c = false) (rest : List Char) :
    trimStart (c :: rest) = c :: rest := by
  simp [trimStart, h]

theorem skipTrivia_blank (h : isBlank c = true) (rest : List Char) :
    skipTrivia (c :: rest) = skipTrivia rest := by
  have hTrim : trimStart (c :: rest) = trimStart rest := by simp [trimStart, h]
  by_cases hLine : ∃ tail, trimStart rest = '/' :: '/' :: tail
  · obtain ⟨tail, hTail⟩ := hLine
    rw [skipTrivia_of_line (hTrim.trans hTail), skipTrivia_of_line hTail]
  · by_cases hBlock : ∃ tail, trimStart rest = '/' :: '*' :: tail
    · obtain ⟨tail, hTail⟩ := hBlock
      rw [skipTrivia_of_block (hTrim.trans hTail), skipTrivia_of_block hTail]
    · have hLine := not_exists.1 hLine
      have hBlock := not_exists.1 hBlock
      rw [skipTrivia_of_other hLine hBlock, skipTrivia_of_other, hTrim]
      · exact fun tail hTail => hLine tail (hTrim ▸ hTail)
      · exact fun tail hTail => hBlock tail (hTrim ▸ hTail)

theorem skipTrivia_other (hBlank : isBlank c = false) (hSlash : c ≠ '/') (rest : List Char) :
    skipTrivia (c :: rest) = c :: rest := by
  rw [skipTrivia_of_other, trimStart_of_not_blank hBlank]
  · simp [trimStart_of_not_blank hBlank, hSlash]
  · simp [trimStart_of_not_blank hBlank, hSlash]

/-- The first character of a token is no blank and no mark of a comment, and shows whether the token
closes a container. -/
theorem exists_text (h : t.IsValid) : ∃ c tail, t.text = c :: tail ∧ isBlank c = false ∧ c ≠ '/' ∧
    (c == '\x7d' || c == ']') = t.isCloser := by
  obtain ⟨c, tail, hText, hPlain⟩ := Json.Token.exists_text h
  cases hWord : t.isWord with
  | true =>
    rw [hWord] at hPlain
    have hNe := Json.ne_of_isPlain hPlain
    refine ⟨c, tail, hText, isBlank_of_isPlain hPlain, hNe '/' rfl, ?_⟩
    have hNone : (c == '\x7d' || c == ']') = false := by simp [hNe '\x7d' rfl, hNe ']' rfl]
    cases t <;> first | exact hNone | cases hWord
  | false => cases t <;> first | exact ⟨_, _, rfl, rfl, by decide, rfl⟩ | cases hWord

/-- Gaps are skipped, and nothing else is. -/
theorem skipTrivia_textOf (h : IsLaidOut ps) :
    skipTrivia (textOf ps) = textOf (ps.dropWhile Piece.isGap) := by
  induction ps with
  | nil => exact skipTrivia_of_other nofun nofun
  | cons p rest ih =>
    obtain ⟨hFits, hRest⟩ := h
    specialize ih hRest
    rw [textOf_cons]
    cases p with
    | token t =>
      obtain ⟨c, tail, hText, hBlank, hSlash, -⟩ := exists_text hFits
      rw [List.dropWhile_cons_of_neg (by simp [Piece.isGap]), textOf_cons]
      simp only [Piece.text, hText, List.cons_append, skipTrivia_other hBlank hSlash]
    | space c => exact (skipTrivia_blank hFits _).trans ih
    | line body =>
      obtain ⟨hBody, hEnd⟩ := hFits
      rw [List.dropWhile_cons_of_pos rfl, ← ih]
      cases rest with
      | nil =>
        have hTrim : trimStart ((Piece.line body).text ++ textOf []) = '/' :: '/' :: (body ++ []) := rfl
        rw [skipTrivia_of_line hTrim, List.append_nil, behind_line_end hBody]
        rfl
      | cons q rest =>
        have hq : q = .space '\n' := hEnd q rfl
        subst hq
        have hTrim : trimStart ((Piece.line body).text ++ textOf (.space '\n' :: rest)) =
            '/' :: '/' :: (body ++ '\n' :: textOf rest) := rfl
        rw [skipTrivia_of_line hTrim, behind_line hBody]
        exact (skipTrivia_blank rfl _).symm
    | block body =>
      have hTrim : trimStart ((Piece.block body).text ++ textOf rest) =
          '/' :: '*' :: (body ++ ['*', '/'] ++ textOf rest) := rfl
      rw [skipTrivia_of_block hTrim, List.append_assoc, List.cons_append, List.singleton_append,
        behind_block hFits, ih, List.dropWhile_cons_of_pos rfl]
    | trailing =>
      rw [List.dropWhile_cons_of_neg (by simp [Piece.isGap]), textOf_cons]
      exact skipTrivia_other rfl (by decide) _

theorem IsLaidOut.dropWhile (h : IsLaidOut ps) (p : Piece → Bool) : IsLaidOut (ps.dropWhile p) := by
  induction ps with
  | nil => exact h
  | cons q rest ih =>
    rw [List.dropWhile_cons]
    split
    · exact ih h.2
    · exact h

/-- The look-ahead over blanks and comments sees the next closing mark. -/
theorem closes_textOf (h : IsLaidOut ps) : closes (textOf ps) = true ↔ IsClosing ps := by
  rw [closes, skipTrivia_textOf h, IsClosing]
  have hDrop := h.dropWhile Piece.isGap
  cases hRest : ps.dropWhile Piece.isGap with
  | nil => simp [textOf]
  | cons p rest =>
    have hGap := List.head?_dropWhile_not Piece.isGap ps
    rw [hRest] at hDrop hGap
    cases p with
    | token t =>
      obtain ⟨c, tail, hText, -, -, hCloser⟩ := exists_text hDrop.1
      simp [Piece.text, hText, hCloser]
    | trailing => simp [Piece.text]
    | space | line | block => cases hGap

theorem plainFrom_copy (hQuote : c ≠ '"') (hSlash : c ≠ '/') (hComma : c ≠ ',') (rest : List Char) :
    plainFrom .code (c :: rest) = c :: plainFrom .code rest := by
  simp [plainFrom, hQuote, hSlash, hComma]

theorem plainFrom_word {word : List Char} (h : ∀ c ∈ word, Json.isPlain c = true)
    (rest : List Char) : plainFrom .code (word ++ rest) = word ++ plainFrom .code rest := by
  induction word with
  | nil => rfl
  | cons c word ih =>
    obtain ⟨hc, hWord⟩ := List.forall_mem_cons.1 h
    have hNe := Json.ne_of_isPlain hc
    rw [List.cons_append, plainFrom_copy (hNe '"' rfl) (hNe '/' rfl) (hNe ',' rfl), ih hWord,
      List.cons_append]

theorem ne_of_isHex (h : (Url.hexValue? c).isSome) (d : Char) (hd : Url.hexValue? d = none) :
    c ≠ d := by
  rintro rfl
  simp [hd] at h

theorem plainFrom_digits {digits : List Char} (h : ∀ c ∈ digits, (Url.hexValue? c).isSome)
    (rest : List Char) : plainFrom .string (digits ++ rest) = digits ++ plainFrom .string rest := by
  induction digits with
  | nil => rfl
  | cons c digits ih =>
    obtain ⟨hc, hDigits⟩ := List.forall_mem_cons.1 h
    have hNe := ne_of_isHex hc
    simp [plainFrom, hNe '"' rfl, hNe '\\' rfl, ih hDigits]

theorem plainFrom_string {spelling : List Char} (h : Json.IsSpelling spelling) (rest : List Char) :
    plainFrom .string (spelling ++ '"' :: rest) = spelling ++ '"' :: plainFrom .code rest := by
  induction h with
  | nil => simp [plainFrom]
  | plain hQuote hEscape _ _ ih => simp [plainFrom, hQuote, hEscape, ih]
  | short _ _ ih => simp [plainFrom, ih]
  | unit _ hDigits _ ih => simp [plainFrom, plainFrom_digits hDigits, ih]

theorem plainFrom_line (h : '\n' ∉ body) (hRest : ∀ c ∈ rest.head?, c = '\n') :
    plainFrom .code ('/' :: '/' :: (body ++ rest)) = plainFrom .code rest := by
  have hLine : plainFrom .line (body ++ rest) = plainFrom .code rest := by
    induction body with
    | nil =>
      cases rest with
      | nil => simp [plainFrom]
      | cons c rest =>
        have hc : c = '\n' := hRest c rfl
        subst hc
        simp [plainFrom]
    | cons c body ih =>
      rw [List.mem_cons, not_or] at h
      simp [plainFrom, Ne.symm h.1, ih h.2]
  simpa [plainFrom] using hLine

theorem plainFrom_block (h : ¬['*', '/'] <:+: body) (rest : List Char) :
    plainFrom .code ('/' :: '*' :: (body ++ '*' :: '/' :: rest)) = plainFrom .code rest := by
  -- A star that was just read does not close the comment with what follows it.
  have hBlock : ∀ starred : Bool, (starred = true → ∀ c ∈ body.head?, c ≠ '/') →
      plainFrom (.block starred) (body ++ '*' :: '/' :: rest) = plainFrom .code rest := by
    induction body with
    | nil =>
      intro starred _
      simp [plainFrom]
    | cons c body ih =>
      intro starred hStarred
      have hOpen : (starred && decide (c = '/')) = false := by
        cases starred with
        | false => rfl
        | true => simpa using hStarred rfl c rfl
      have hLater : ¬['*', '/'] <:+: body :=
        fun hInfix => h (hInfix.trans (List.suffix_cons c body).isInfix)
      rw [List.cons_append, plainFrom, hOpen]
      refine ih hLater (c == '*') fun hStar d hd hSlash => h ?_
      rw [beq_iff_eq] at hStar
      obtain ⟨tail, rfl⟩ : ∃ tail, body = d :: tail := by
        cases body <;> cases hd
        exact ⟨_, rfl⟩
      exact ⟨[], tail, by simp [hStar, hSlash]⟩
  simpa [plainFrom] using hBlock false nofun

theorem plainFrom_token (h : t.IsValid) (hComma : t = .comma → closes rest = false) :
    plainFrom .code (t.text ++ rest) = t.text ++ plainFrom .code rest := by
  cases hWord : t.isWord with
  | true => exact plainFrom_word (Json.Token.isPlain_of_mem_text h hWord) rest
  | false =>
    cases t with
    | null | boolean | number => cases hWord
    | string spelling => simp [Json.Token.text, plainFrom, plainFrom_string h]
    | comma => simp [Json.Token.text, plainFrom, hComma]
    | _ => exact plainFrom_copy (by decide) (by decide) (by decide) rest

theorem head?_tokensOf (h : (ps.dropWhile Piece.isGap).head? = some (.token t)) :
    (tokensOf ps).head? = some t := by
  induction ps with
  | nil => cases h
  | cons p rest ih =>
    cases p with
    | space | line | block => exact ih h
    | token u =>
      cases h
      rfl
    | trailing => cases h

/-- A comma that is a token is no trailing one. -/
theorem closes_of_comma (h : IsLaidOut ps)
    (hTokens : (.comma :: tokensOf ps).IsChain Json.Token.Precedes) :
    closes (textOf ps) = false := by
  rw [← Bool.not_eq_true, closes_textOf h]
  rintro ⟨u, hu, hCloser⟩
  cases ((List.isChain_cons.1 hTokens).1 u (head?_tokensOf hu)).1 rfl ▸ hCloser

theorem newline_of_head (h : ∀ p ∈ ps.head?, p = .space '\n') :
    ∀ c ∈ (textOf ps).head?, c = '\n' := by
  cases ps with
  | nil => nofun
  | cons p ps =>
    obtain rfl : p = .space '\n' := h p rfl
    rintro c ⟨⟩
    rfl

/-- What is left of a text are its tokens and spaces. -/
theorem plain_textOf (h : IsLaidOut ps) (hTokens : (tokensOf ps).IsChain Json.Token.Precedes) :
    plain (textOf ps) = keptOf ps := by
  unfold plain
  induction ps with
  | nil => rfl
  | cons p rest ih =>
    obtain ⟨hFits, hRest⟩ := h
    rw [textOf_cons, keptOf_cons]
    cases p with
    | token t =>
      have hTokens : (t :: tokensOf rest).IsChain Json.Token.Precedes := hTokens
      rw [Piece.text, Piece.kept, plainFrom_token hFits, ih hRest hTokens.tail]
      rintro rfl
      exact closes_of_comma hRest hTokens
    | space c =>
      have hNe := ne_of_isBlank hFits
      rw [Piece.text, Piece.kept, List.singleton_append,
        plainFrom_copy (hNe '"' rfl) (hNe '/' rfl) (hNe ',' rfl), ih hRest hTokens,
        List.singleton_append]
    | line body =>
      exact (plainFrom_line hFits.1 (newline_of_head hFits.2)).trans (ih hRest hTokens)
    | block body =>
      rw [Piece.text, List.cons_append, List.cons_append, List.append_assoc, List.cons_append,
        List.singleton_append, plainFrom_block hFits, ih hRest hTokens]
      rfl
    | trailing =>
      have hCloses := (closes_textOf hRest).2 hFits
      rw [Piece.text, List.singleton_append, ← ih hRest hTokens]
      simp [plainFrom, hCloses, Piece.kept]

theorem spread_keptOf (h : IsLaidOut ps) (hSpaces : ∀ c, .space c ∈ ps → Json.isSpace c = true) :
    Json.Spread (keptOf ps) (tokensOf ps) := by
  induction ps with
  | nil => exact .nil
  | cons p rest ih =>
    have hRest := ih h.2 fun c hc => hSpaces c (List.mem_cons_of_mem _ hc)
    cases p with
    | token t => exact .token h.1 hRest
    | space c => exact .space (hSpaces c List.mem_cons_self) hRest
    | line | block | trailing => exact hRest

theorem isBlank_of_isSpace (h : Json.isSpace c = true) : isBlank c = true := by
  simp only [Json.isSpace, Bool.or_eq_true, beq_iff_eq] at h
  rcases h with ((rfl | rfl) | rfl) | rfl <;> rfl

/-- A text that tokens spell is laid out without comments and trailing commas. -/
theorem exists_layout {ts : List Json.Token} (h : Json.Spread text ts) :
    ∃ ps, IsLaidOut ps ∧ textOf ps = text ∧ keptOf ps = text ∧ tokensOf ps = ts := by
  induction h with
  | nil => exact ⟨[], trivial, rfl, rfl, rfl⟩
  | @space c text ts hc _ ih =>
    obtain ⟨ps, hLaidOut, hText, hKept, hTokens⟩ := ih
    exact ⟨.space c :: ps, ⟨isBlank_of_isSpace hc, hLaidOut⟩, by simp [hText, Piece.text],
      by simp [hKept, Piece.kept], hTokens⟩
  | @token t text ts ht _ ih =>
    obtain ⟨ps, hLaidOut, hText, hKept, hTokens⟩ := ih
    exact ⟨.token t :: ps, ⟨ht, hLaidOut⟩, by simp [hText, Piece.text], by simp [hKept, Piece.kept],
      congrArg (t :: ·) hTokens⟩

open Json (Document)

/-- From a document with blanks, comments and trailing commas between its tokens, exactly the comments
and the trailing commas are taken.  With the blanks of JSON, what is left is a text of the same
document, and a JSON text is left as it is. -/
theorem plain_of_dialect :
    (∀ ps (d : Document), IsLaidOut ps → tokensOf ps = d.tokens →
      plain (textOf ps) = keptOf ps ∧
      ((∀ c, .space c ∈ ps → Json.isSpace c = true) →
        Document.ofText? (plain (textOf ps)) = some d)) ∧
    ∀ text (d : Document), Document.ofText? text = some d → plain text = text := by
  refine ⟨fun ps d hLaidOut hTokens => ?_, fun text d hText => ?_⟩
  · have hChain : (tokensOf ps).IsChain Json.Token.Precedes :=
      hTokens ▸ Document.isChain_of_ofTokens? d.ofTokens?_tokens
    have hPlain := plain_textOf hLaidOut hChain
    refine ⟨hPlain, fun hSpaces => ?_⟩
    have hRead := (spread_keptOf hLaidOut hSpaces).tokens? (hChain.imp fun _ _ h => h.2)
    rw [hPlain, Document.ofText?, hRead, hTokens]
    exact d.ofTokens?_tokens
  · obtain ⟨ts, hRead, hDocument⟩ := Option.bind_eq_some_iff.1 hText
    obtain ⟨ps, hLaidOut, rfl, hKept, rfl⟩ := exists_layout (Json.spread_of_tokens? hRead)
    rw [plain_textOf hLaidOut (Document.isChain_of_ofTokens? hDocument), hKept]

/-- The mark of a comment in a string, marks in comments, and a trailing comma before a comment. -/
theorem plain_of_dialect_comments :
    plain "[\"/*\",//,]\n1,/*]*/ ]".toList = "[\"/*\",\n1 ]".toList ∧
    Document.ofText? "[\"/*\",\n1 ]".toList =
      some (.array [.string "/*".toList, .number "1".toList]) ∧
    plain "[\"/*\",\n1 ]".toList = "[\"/*\",\n1 ]".toList := by
  have hLaidOut : IsLaidOut [.token .openBracket, .token (.string "/*".toList), .token .comma,
      .line ",]".toList, .space '\n', .token (.number "1".toList), .trailing, .block "]".toList,
      .space ' ', .token .closeBracket] := by
    refine ⟨trivial, ?_, trivial, ⟨by decide, by simp⟩, rfl, rfl, ⟨_, rfl, rfl⟩, ?_, rfl, trivial,
      trivial⟩
    · exact .plain (by decide) (by decide) (by decide) (.plain (by decide) (by decide) (by decide) .nil)
    · exact fun hInfix => absurd hInfix.length_le (by decide)
  obtain ⟨hDialect, hJson⟩ := plain_of_dialect
  obtain ⟨hPlain, hRead⟩ :=
    hDialect _ (.array [.string "/*".toList, .number "1".toList]) hLaidOut rfl
  specialize hRead (by simp [Json.isSpace])
  rw [hPlain] at hRead
  exact ⟨hPlain, hRead, hJson _ _ hRead⟩

end ModuleLoader.Tsconfig
