import Mathlib.Data.List.TakeWhile
import ModuleLoader.Proofs.Tsconfig.Parts

/-! Layouts and parts.  The pieces of a layout are the parts of its text, and a text with closed
comments, none of them inside a word, is laid out in pieces if tokens spell what is left of it. -/

namespace ModuleLoader.Tsconfig

open Json (isPlain)

/-- The part that the token is. -/
def partOf : Json.Token → Part
  | .string spelling => .string (spelling ++ ['"'])
  | .openBracket => .mark '['
  | .closeBracket => .mark ']'
  | .openBrace => .mark '\x7b'
  | .closeBrace => .mark '\x7d'
  | .comma => .mark ','
  | .colon => .mark ':'
  | t => .word t.text

/-- The part that the piece is. -/
def Piece.part : Piece → Part
  | .token t => partOf t
  | .space c => .mark c
  | .line body => .line body
  | .block body => .block body
  | .trailing => .dropped

variable {c : Char} {text rest run body : List Char} {t : Json.Token} {ts : List Json.Token}
  {p : Piece} {ps : List Piece} {qs : List Part}

theorem isPlain_of_isBlank (h : Text.isBlank c = true) : isPlain c = false := by
  cases hPlain : isPlain c with
  | false => rfl
  | true => cases (isBlank_of_isPlain hPlain).symm.trans h

theorem partOf_of_isWord (h : t.isWord = true) : partOf t = .word t.text := by
  cases t <;> first | rfl | cases h

theorem text_part (p : Piece) : p.part.text = p.text := by
  cases p with
  | token t => cases t <;> rfl
  | _ => rfl

theorem flatMap_text_map_part (ps : List Piece) :
    (ps.map Piece.part).flatMap Part.text = textOf ps := by
  rw [List.flatMap_map]
  exact List.flatMap_congr fun p _ => text_part p

theorem isGap_part (h : p.Fits ps) : p.part.isGap = p.isGap := by
  cases p with
  | token t => cases t <;> rfl
  | space c => exact h
  | _ => rfl

theorem filter_map_part (h : IsLaidOut ps) :
    (ps.map Piece.part).filter (!·.isGap) = (ps.filter (!·.isGap)).map Piece.part := by
  induction ps with
  | nil => rfl
  | cons p ps ih =>
    rw [List.map_cons, List.filter_cons, List.filter_cons, isGap_part h.1, ih h.2]
    split <;> rfl

theorem cutString_cons (hQuote : c ≠ '"') (hEscape : c ≠ '\\') (rest : List Char) :
    cutString (c :: rest) = (c :: (cutString rest).1, (cutString rest).2) := by
  rw [cutString]
  · exact hQuote
  · exact fun _ _ h => absurd h hEscape

/-- Where a string is cut does not depend on what follows it, unless the text ends in it. -/
theorem cutString_cases (h : cutString text = (body, rest)) :
    (∀ tail, cutString (body ++ tail) = (body, tail)) ∨ rest = [] := by
  fun_induction cutString text generalizing body with
  | case1 =>
    cases h
    exact .inr rfl
  | case2 =>
    cases h
    exact .inl fun _ => rfl
  | case3 c rest ih =>
    obtain ⟨rfl, rfl⟩ := Prod.mk.inj h
    exact (ih rfl).imp_left fun hAll tail => by simp [cutString, hAll]
  | case4 c rest hQuote hEscape ih =>
    obtain ⟨rfl, rfl⟩ := Prod.mk.inj h
    by_cases hc : c = '\\'
    · cases rest with
      | nil => exact .inr rfl
      | cons d rest => exact absurd rfl (hEscape d rest hc)
    · exact (ih rfl).imp_left fun hAll tail => by
        rw [List.cons_append, cutString_cons hQuote hc, hAll]

theorem cutString_digits {digits : List Char} (h : ∀ c ∈ digits, (Url.hexValue? c).isSome)
    (rest : List Char) :
    cutString (digits ++ rest) = (digits ++ (cutString rest).1, (cutString rest).2) := by
  induction digits with
  | nil => rfl
  | cons c digits ih =>
    obtain ⟨hc, hDigits⟩ := List.forall_mem_cons.1 h
    have hNe := ne_of_isHex hc
    rw [List.cons_append, cutString_cons (hNe '"' rfl) (hNe '\\' rfl), ih hDigits, List.cons_append]

theorem cutString_spelling {spelling : List Char} (h : Json.IsSpelling spelling)
    (rest : List Char) : cutString (spelling ++ '"' :: rest) = (spelling ++ ['"'], rest) := by
  induction h with
  | nil => rfl
  | plain hQuote hEscape _ _ ih => rw [List.cons_append, cutString_cons hQuote hEscape, ih]; rfl
  | short _ _ ih => simp [cutString, ih]
  | unit _ hDigits _ ih => simp [cutString, cutString_digits hDigits, ih]

/-- A text does not go on with a word if its parts do not, or if it closes a container. -/
theorem head?_plain (h : IsCut text qs)
    (hNext : closes text = true ∨ ∀ q ∈ (qs.filter (!·.isBlock)).head?, q.isWord = false) :
    ∀ c ∈ (plain text).head?, isPlain c = false := by
  induction h with
  | nil => simp [plain_nil]
  | @word run rest qs hSome hRun _ _ _ =>
    obtain ⟨c, run, rfl⟩ := List.exists_cons_of_ne_nil hSome
    have hc : isPlain c = true := hRun c List.mem_cons_self
    have hNe := Json.ne_of_isPlain hc
    rcases hNext with hCloses | hNext
    · rw [List.cons_append, closes, skipTrivia_other (isBlank_of_isPlain hc) (hNe '/' rfl)]
        at hCloses
      simp [hNe '\x7d' rfl, hNe ']' rfl] at hCloses
    · exact absurd (hNext _ rfl) (by simp [Part.isWord])
  | string hBody h =>
    rw [(IsCut.string hBody h).plain_eq]
    rintro c ⟨⟩
    rfl
  | mark hPlain hQuote hSlash hComma h =>
    rw [(IsCut.mark hPlain hQuote hSlash hComma h).plain_eq]
    rintro c ⟨⟩
    exact hPlain
  | @line body rest qs hBody hRest _ _ =>
    rw [plain_line hBody hRest]
    cases rest with
    | nil => simp [plain_nil]
    | cons c rest =>
      obtain rfl := hRest c rfl
      rw [plain, plainFrom_copy (by decide) (by decide) (by decide)]
      rintro c ⟨⟩
      rfl
  | @block body rest qs hBody _ ih =>
    rw [plain_block hBody]
    refine ih (hNext.imp_left fun hCloses => ?_)
    rwa [closes, skipTrivia_of_block (trimStart_of_not_blank (by decide) _), behind_block hBody,
      ← closes] at hCloses
  | unclosed hBody =>
    simp [(IsCut.unclosed hBody).plain_eq, Part.kept]
  | @dropped rest qs hRest _ ih =>
    rw [plain_dropped hRest]
    exact ih (.inl hRest)

/-- A run that the text does not go on with is a token. -/
theorem exists_of_spread_run (hSome : run ≠ []) (hRun : ∀ c ∈ run, isPlain c = true)
    (hRest : ∀ c ∈ rest.head?, isPlain c = false) (h : Json.Spread (run ++ rest) ts)
    (hApart : ts.IsChain fun t u => ¬(t.isWord = true ∧ u.isWord = true)) :
    ∃ t tail, ts = t :: tail ∧ partOf t = .word run ∧ t.IsValid ∧ Json.Spread rest tail := by
  obtain ⟨c, tail, hCons⟩ := List.exists_cons_of_ne_nil hSome
  have hc : isPlain c = true := hRun c (hCons ▸ List.mem_cons_self)
  generalize hText : run ++ rest = text at h
  cases h with
  | nil => simp [hCons] at hText
  | space hSpace =>
    obtain ⟨rfl, -⟩ : c = _ ∧ _ := by simpa [hCons] using hText
    cases hc.symm.trans (Json.isPlain_of_isSpace hSpace)
  | @token t after ts ht hAfter =>
    obtain ⟨d, body, hBody, hWord⟩ := Json.Token.exists_text ht
    obtain ⟨rfl, -⟩ : c = d ∧ _ := by simpa [hCons, hBody] using hText
    have hWord : t.isWord = true := hWord ▸ hc
    suffices hSame : t.text = run by
      refine ⟨t, ts, rfl, hSame ▸ partOf_of_isWord hWord, ht, ?_⟩
      rw [hSame, List.append_cancel_left_eq] at hText
      exact hText ▸ hAfter
    rcases List.append_eq_append_iff.1 hText with ⟨more, hToken, hMore⟩ | ⟨more, hMore, hAfter'⟩
    · cases more with
      | nil => simpa using hToken
      | cons x more =>
        have hx := Json.Token.isPlain_of_mem_text ht hWord x (by simp [hToken])
        cases hx.symm.trans (hRest x (by simp [hMore]))
    · cases more with
      | nil => simpa using hMore.symm
      | cons x more =>
        have hx : isPlain x = true := hRun x (by simp [hMore])
        obtain ⟨u, hu, hWord'⟩ := hAfter.isWord_of_head? (by simp [hAfter']) hx
        exact absurd ⟨hWord, hWord'⟩ ((List.isChain_cons.1 hApart).1 u hu)

theorem exists_of_spread_string (hBody : cutString (body ++ rest) = (body, rest))
    (h : Json.Spread ('"' :: (body ++ rest)) ts) :
    ∃ t tail, ts = t :: tail ∧ partOf t = .string body ∧ t.IsValid ∧ Json.Spread rest tail := by
  generalize hText : '"' :: (body ++ rest) = text at h
  cases h with
  | nil => cases hText
  | space hSpace =>
    cases hText
    cases hSpace
  | @token t after ts ht hAfter =>
    obtain ⟨d, tail, hToken, hWord⟩ := Json.Token.exists_text ht
    obtain ⟨rfl, -⟩ : '"' = d ∧ _ := by simpa [hToken] using hText
    cases t with
    | string spelling =>
      have hRest : body ++ rest = spelling ++ '"' :: after := by
        simpa [Json.Token.text] using hText
      rw [hRest, cutString_spelling ht] at hBody
      obtain ⟨rfl, rfl⟩ := Prod.mk.inj hBody
      exact ⟨_, ts, rfl, rfl, ht, hAfter⟩
    | _ => cases hWord <;> cases hToken

theorem exists_of_spread_mark (hPlain : isPlain c = false) (hQuote : c ≠ '"')
    (h : Json.Spread (c :: rest) ts) :
    (Json.isSpace c = true ∧ Json.Spread rest ts) ∨
      ∃ t tail, ts = t :: tail ∧ partOf t = .mark c ∧ t.IsValid ∧ Json.Spread rest tail := by
  generalize hText : c :: rest = text at h
  cases h with
  | nil => cases hText
  | space hSpace hRest =>
    cases hText
    exact .inl ⟨hSpace, hRest⟩
  | @token t after ts ht hAfter =>
    obtain ⟨d, tail, hToken, hWord⟩ := Json.Token.exists_text ht
    obtain ⟨rfl, -⟩ : c = d ∧ _ := by simpa [hToken] using hText
    refine .inr ⟨t, ts, rfl, ?_⟩
    cases t with
    | null | boolean | number => cases hPlain.symm.trans hWord
    | string => cases hToken; exact absurd rfl hQuote
    | _ =>
      cases hToken
      cases hText
      exact ⟨rfl, ht, hAfter⟩

theorem head_of_newline (h : IsLaidOut ps) (hLine : ∀ c ∈ (textOf ps).head?, c = '\n') :
    ∀ p ∈ ps.head?, p = .space '\n' := by
  cases ps with
  | nil => nofun
  | cons p ps =>
    rintro p ⟨⟩
    cases p with
    | token t =>
      obtain ⟨c, tail, hText, hBlank, -⟩ := exists_text h.1
      obtain rfl := hLine c (by simp [Piece.text, hText])
      cases hBlank
    | space c => exact congrArg Piece.space (hLine c rfl)
    | line | block | trailing => exact absurd (hLine _ rfl) (by decide)

/-- The pieces are laid out and are these parts, and the tokens among them are these. -/
structure Lays (ps : List Piece) (qs : List Part) (ts : List Json.Token) : Prop where
  parts : ps.map Piece.part = qs
  isLaidOut : IsLaidOut ps
  tokens : tokensOf ps = ts
  spaces : ∀ c, .space c ∈ ps → Json.isSpace c = true

namespace Lays

theorem nil : Lays [] [] [] := ⟨rfl, trivial, rfl, nofun⟩

theorem token (h : Lays ps qs ts) (ht : t.IsValid) :
    Lays (.token t :: ps) (partOf t :: qs) (t :: ts) :=
  ⟨congrArg (partOf t :: ·) h.parts, ⟨ht, h.isLaidOut⟩, congrArg (t :: ·) h.tokens,
    fun c hc => h.spaces c ((List.mem_cons.1 hc).resolve_left nofun)⟩

theorem space (h : Lays ps qs ts) (hc : Json.isSpace c = true) :
    Lays (.space c :: ps) (.mark c :: qs) ts := by
  refine ⟨congrArg (Part.mark c :: ·) h.parts, ⟨isBlank_of_isSpace hc, h.isLaidOut⟩, h.tokens, ?_⟩
  intro d hd
  rcases List.mem_cons.1 hd with hHere | hLater
  · cases hHere
    exact hc
  · exact h.spaces d hLater

/-- A piece that belongs to no JSON text. -/
theorem extra (h : Lays ps qs ts) (hFits : p.Fits ps) (hToken : p.token? = none)
    (hSpace : ∀ c, .space c ≠ p) : Lays (p :: ps) (p.part :: qs) ts :=
  ⟨congrArg (p.part :: ·) h.parts, ⟨hFits, h.isLaidOut⟩,
    (List.filterMap_cons_none hToken).trans h.tokens,
    fun c hc => h.spaces c ((List.mem_cons.1 hc).resolve_left (hSpace c))⟩

theorem textOf (h : Lays ps qs ts) (hCut : IsCut text qs) : textOf ps = text := by
  rw [← flatMap_text_map_part, h.parts, hCut.flatMap_text]

end Lays

/-- A text whose comments are closed and stand between tokens is laid out in pieces. -/
theorem exists_lays (h : IsCut text qs) (hClosed : ∀ q ∈ qs, q.isUnclosed = false)
    (hWords : (qs.filter (!·.isBlock)).IsChain fun p q => ¬(p.isWord = true ∧ q.isWord = true))
    (hSpread : Json.Spread (plain text) ts)
    (hApart : ts.IsChain fun t u => ¬(t.isWord = true ∧ u.isWord = true)) :
    ∃ ps, Lays ps qs ts := by
  induction h generalizing ts with
  | nil =>
    rw [plain_nil] at hSpread
    generalize hText : [] = text at hSpread
    cases hSpread with
    | nil => exact ⟨[], .nil⟩
    | space => cases hText
    | token ht =>
      obtain ⟨c, tail, hToken, -⟩ := Json.Token.exists_text ht
      simp [hToken] at hText
  | @word run rest qs hSome hRun hRest hCut ih =>
    obtain ⟨hFirst, hWords⟩ := List.isChain_cons.1 hWords
    -- The text behind the run does not go on with a word, but what is left of it might.
    have hNext : ∀ c ∈ (plain rest).head?, isPlain c = false := by
      refine head?_plain hCut (.inr fun q hq => ?_)
      simpa [Part.isWord] using hFirst q hq
    rw [plain_word hRun] at hSpread
    obtain ⟨t, tail, rfl, hPart, ht, hTail⟩ := exists_of_spread_run hSome hRun hNext hSpread hApart
    obtain ⟨ps, hPs⟩ := ih (List.forall_mem_cons.1 hClosed).2 hWords hTail hApart.tail
    exact ⟨_, hPart ▸ hPs.token ht⟩
  | @string body rest qs hBody hCut ih =>
    have hBody' : cutString (body ++ plain rest) = (body, plain rest) := by
      rcases cutString_cases hBody with hAll | rfl
      · exact hAll _
      · simpa [plain_nil] using hBody
    rw [plain_string hBody] at hSpread
    obtain ⟨t, tail, rfl, hPart, ht, hTail⟩ := exists_of_spread_string hBody' hSpread
    obtain ⟨ps, hPs⟩ := ih (List.forall_mem_cons.1 hClosed).2
      (List.isChain_cons.1 hWords).2 hTail hApart.tail
    exact ⟨_, hPart ▸ hPs.token ht⟩
  | @mark c rest qs hMark hQuote hSlash hComma hCut ih =>
    have hClosed' := (List.forall_mem_cons.1 hClosed).2
    have hWords' := (List.isChain_cons.1 hWords).2
    rw [plain_mark hQuote hSlash hComma] at hSpread
    rcases exists_of_spread_mark hMark hQuote hSpread with
      ⟨hSpace, hRest⟩ | ⟨t, tail, rfl, hPart, ht, hTail⟩
    · obtain ⟨ps, hPs⟩ := ih hClosed' hWords' hRest hApart
      exact ⟨_, hPs.space hSpace⟩
    · obtain ⟨ps, hPs⟩ := ih hClosed' hWords' hTail hApart.tail
      exact ⟨_, hPart ▸ hPs.token ht⟩
  | @line body rest qs hBody hRest hCut ih =>
    rw [plain_line hBody hRest] at hSpread
    obtain ⟨ps, hPs⟩ := ih (List.forall_mem_cons.1 hClosed).2
      (List.isChain_cons.1 hWords).2 hSpread hApart
    have hEnd := head_of_newline hPs.isLaidOut (hPs.textOf hCut ▸ hRest)
    exact ⟨_, hPs.extra (p := .line body) ⟨hBody, hEnd⟩ rfl nofun⟩
  | @block body rest qs hBody _ ih =>
    rw [plain_block hBody] at hSpread
    obtain ⟨ps, hPs⟩ := ih (List.forall_mem_cons.1 hClosed).2 hWords hSpread hApart
    exact ⟨_, hPs.extra (p := .block body) hBody rfl nofun⟩
  | unclosed => cases hClosed _ List.mem_cons_self
  | @dropped rest qs hRest hCut ih =>
    rw [plain_dropped hRest] at hSpread
    obtain ⟨ps, hPs⟩ := ih (List.forall_mem_cons.1 hClosed).2
      (List.isChain_cons.1 hWords).2 hSpread hApart
    have hClosing := (closes_textOf hPs.isLaidOut).1 (hPs.textOf hCut ▸ hRest)
    exact ⟨_, hPs.extra (p := .trailing) hClosing rfl nofun⟩

/-- A layout does not go on with a word if its tokens do not. -/
theorem head?_textOf (h : IsLaidOut ps) (hTokens : ∀ u ∈ (tokensOf ps).head?, u.isWord = false) :
    ∀ c ∈ (textOf ps).head?, isPlain c = false := by
  cases ps with
  | nil => simp [textOf]
  | cons p ps =>
    rw [textOf_cons]
    cases p with
    | token t =>
      obtain ⟨c, tail, hText, hWord⟩ := Json.Token.exists_text h.1
      rintro d hd
      obtain rfl : c = d := by simpa [Piece.text, hText] using hd
      exact hWord.trans (hTokens t rfl)
    | space c =>
      rintro d ⟨⟩
      exact isPlain_of_isBlank h.1
    | line | block | trailing =>
      rintro d ⟨⟩
      rfl

/-- The pieces of a layout are the parts of its text. -/
theorem isCut_textOf (h : IsLaidOut ps) (hTokens : (tokensOf ps).IsChain Json.Token.Precedes) :
    IsCut (textOf ps) (ps.map Piece.part) := by
  induction ps with
  | nil => exact .nil
  | cons p ps ih =>
    obtain ⟨hFits, hRest⟩ := h
    rw [textOf_cons, List.map_cons]
    cases p with
    | token t =>
      have hTokens : (t :: tokensOf ps).IsChain Json.Token.Precedes := hTokens
      have hCut := ih hRest hTokens.tail
      cases hWord : t.isWord with
      | true =>
        have hNext : ∀ c ∈ (textOf ps).head?, isPlain c = false :=
          head?_textOf hRest fun u hu => by
            simpa [hWord] using ((List.isChain_cons.1 hTokens).1 u hu).2
        obtain ⟨c, tail, hText, -⟩ := Json.Token.exists_text hFits
        rw [Piece.part, partOf_of_isWord hWord]
        have hRun := Json.Token.isPlain_of_mem_text hFits hWord
        exact .word (List.ne_nil_of_mem (hText ▸ List.mem_cons_self)) hRun hNext hCut
      | false =>
        cases t with
        | null | boolean | number => cases hWord
        | string spelling =>
          have hBody := cutString_spelling hFits (textOf ps)
          rw [List.append_cons] at hBody
          simpa [Piece.text, Json.Token.text, Piece.part, partOf] using IsCut.string hBody hCut
        | comma =>
          exact .mark rfl (by decide) (by simp) (fun _ => closes_of_comma hRest hTokens) hCut
        | _ => exact .mark rfl (by decide) (by simp) (by simp) hCut
    | space c =>
      have hNe := ne_of_isBlank hFits
      exact .mark (isPlain_of_isBlank hFits) (hNe '"' rfl) (fun hc => absurd hc (hNe '/' rfl))
        (fun hc => absurd hc (hNe ',' rfl)) (ih hRest hTokens)
    | line body =>
      exact .line hFits.1 (newline_of_head hFits.2) (ih hRest hTokens)
    | block body =>
      simpa [Piece.text, Piece.part] using IsCut.block hFits (ih hRest hTokens)
    | trailing => exact .dropped ((closes_textOf hRest).2 hFits) (ih hRest hTokens)

end ModuleLoader.Tsconfig
