import ModuleLoader.Json.Token
import Mathlib.Data.List.Chain

/-! Texts and their tokens.  A text from which tokens are read is spelt by those tokens with spaces
between them, and from such a text the tokens are read again. -/

namespace ModuleLoader.Json

variable {text rest : List Char} {t : Token} {ts : List Token}

/-- What may stand between the quotes of a string. -/
inductive IsSpelling : List Char → Prop
  | nil : IsSpelling []
  | plain {c : Char} {rest : List Char} (hQuote : c ≠ '"') (hEscape : c ≠ '\\')
      (hControl : ¬c.toNat < 0x20) (h : IsSpelling rest) : IsSpelling (c :: rest)
  | short {c : Char} {rest : List Char} (hc : "\"\\/bfnrt".toList.contains c) (h : IsSpelling rest) :
      IsSpelling ('\\' :: c :: rest)
  | unit {digits rest : List Char} (hLength : digits.length = 4)
      (hDigits : ∀ c ∈ digits, (Url.hexValue? c).isSome) (h : IsSpelling rest) :
      IsSpelling ('\\' :: 'u' :: digits ++ rest)

/-- The spelling of the token, if it has one, is that of a number or a string. -/
def Token.IsValid : Token → Prop
  | .number spelling => isNumber spelling = true
  | .string spelling => IsSpelling spelling
  | _ => True

/-- The text of the token is a run of plain characters. -/
def Token.isWord : Token → Bool
  | .null | .boolean _ | .number _ => true
  | _ => false

/-- The text is spelt by the tokens with spaces around them. -/
inductive Spread : List Char → List Token → Prop
  | nil : Spread [] []
  | space {c : Char} {text : List Char} {ts : List Token} (hc : isSpace c = true)
      (h : Spread text ts) : Spread (c :: text) ts
  | token {t : Token} {text : List Char} {ts : List Token} (ht : t.IsValid) (h : Spread text ts) :
      Spread (t.text ++ text) (t :: ts)

theorem ne_of_isPlain {c : Char} (h : isPlain c = true) (d : Char) (hd : isPlain d = false) :
    c ≠ d := by
  rintro rfl
  cases h.symm.trans hd

theorem isPlain_of_isDigit {c : Char} (h : c.isDigit = true) : isPlain c = true := by
  simp [isPlain, Char.isAlphanum, h]

theorem isPlain_of_someDigits {accepts : List Char → Bool}
    (hRest : ∀ text, accepts text = true → ∀ c ∈ text, isPlain c = true)
    (h : someDigits accepts text = true) : ∀ c ∈ text, isPlain c = true := by
  intro c hc
  rw [someDigits, Bool.and_eq_true] at h
  rw [← List.takeWhile_append_dropWhile (p := Char.isDigit) (l := text), List.mem_append] at hc
  rcases hc with hc | hc
  · exact isPlain_of_isDigit (List.all_eq_true.1 List.all_takeWhile c hc)
  · exact hRest _ h.2 c hc

theorem isPlain_of_isEmpty (h : text.isEmpty = true) : ∀ c ∈ text, isPlain c = true := by
  simp [List.isEmpty_iff.1 h]

theorem isPlain_of_isExponent (h : isExponent text = true) : ∀ c ∈ text, isPlain c = true := by
  have hDigits : ∀ {text}, someDigits List.isEmpty text = true → ∀ c ∈ text, isPlain c = true :=
    isPlain_of_someDigits fun _ => isPlain_of_isEmpty
  unfold isExponent at h
  split at h
  · nofun
  · rw [Bool.and_eq_true, Bool.or_eq_true, beq_iff_eq, beq_iff_eq] at h
    obtain ⟨hLetter, h⟩ := h
    refine List.forall_mem_cons.2 ⟨by rcases hLetter with rfl | rfl <;> rfl, ?_⟩
    split at h
    · exact List.forall_mem_cons.2 ⟨rfl, hDigits h⟩
    · exact List.forall_mem_cons.2 ⟨rfl, hDigits h⟩
    · exact hDigits h

theorem isPlain_of_isFraction (h : isFraction text = true) : ∀ c ∈ text, isPlain c = true := by
  unfold isFraction at h
  split at h
  · exact List.forall_mem_cons.2
      ⟨rfl, isPlain_of_someDigits (fun _ => isPlain_of_isExponent) h⟩
  · exact isPlain_of_isExponent h

theorem isPlain_of_isUnsigned (h : isUnsigned text = true) : ∀ c ∈ text, isPlain c = true := by
  unfold isUnsigned at h
  split at h
  · exact List.forall_mem_cons.2 ⟨rfl, isPlain_of_isFraction h⟩
  · exact isPlain_of_someDigits (fun _ => isPlain_of_isFraction) h

theorem isPlain_of_isNumber (h : isNumber text = true) : ∀ c ∈ text, isPlain c = true := by
  unfold isNumber at h
  split at h
  · exact List.forall_mem_cons.2 ⟨rfl, isPlain_of_isUnsigned h⟩
  · exact isPlain_of_isUnsigned h

namespace Token

theorem isPlain_of_mem_text (h : t.IsValid) (hWord : t.isWord = true) :
    ∀ c ∈ t.text, isPlain c = true := by
  cases t with
  | null => exact List.all_eq_true.1 rfl
  | boolean b => cases b <;> exact List.all_eq_true.1 rfl
  | number spelling => exact isPlain_of_isNumber h
  | _ => cases hWord

theorem plain?_text (h : t.IsValid) (hWord : t.isWord = true) : plain? t.text = some t := by
  cases t with
  | null => rfl
  | boolean b => cases b <;> rfl
  | number spelling =>
    have hNumber : isNumber spelling = true := h
    have hNe : ∀ word, isNumber word = false → spelling ≠ word := by
      rintro word hWord rfl
      cases hNumber.symm.trans hWord
    simp only [plain?, Token.text, hNe _ (show isNumber "null".toList = false by decide),
      hNe _ (show isNumber "true".toList = false by decide),
      hNe _ (show isNumber "false".toList = false by decide), hNumber, if_true, if_false]
  | _ => cases hWord

end Token

theorem Lexing.start_of_isPlain {c : Char} (h : isPlain c = true) :
    Lexing.start c = some (.plain [c], []) := by
  have hNe := ne_of_isPlain h
  have hSpace : isSpace c = false := by
    simp [isSpace, hNe ' ' rfl, hNe '\n' rfl, hNe '\t' rfl, hNe '\r' rfl]
  have hMark : mark? c = none := by
    unfold mark?
    split <;> first | rfl | cases h
  simp [Lexing.start, hSpace, hNe '"' rfl, hMark, h]

theorem tokensFrom_cons {state next : Lexing} {c : Char} (h : state.step c = some (next, ts))
    (rest : List Char) : tokensFrom state (c :: rest) = (tokensFrom next rest).map (ts ++ ·) := by
  rw [tokensFrom, h]
  cases h : tokensFrom next rest <;> simp [h]

theorem tokensFrom_cons_nil {state next : Lexing} {c : Char} (h : state.step c = some (next, []))
    (rest : List Char) : tokensFrom state (c :: rest) = tokensFrom next rest := by
  rw [tokensFrom_cons h]
  simp

theorem tokensFrom_plain {word : List Char} (h : ∀ c ∈ word, isPlain c = true) (run rest : List Char) :
    tokensFrom (.plain run) (word ++ rest) = tokensFrom (.plain (word.reverse ++ run)) rest := by
  induction word generalizing run with
  | nil => rfl
  | cons c word ih =>
    obtain ⟨hc, hWord⟩ := List.forall_mem_cons.1 h
    have hStep : (Lexing.plain run).step c = some (.plain (c :: run), []) := by
      simp [Lexing.step, hc]
    rw [List.cons_append, tokensFrom_cons_nil hStep, ih hWord, List.reverse_cons,
      List.append_assoc, List.singleton_append]

theorem tokensFrom_digits {digits : List Char} {owed : Nat} (hLength : digits.length = owed + 1)
    (hDigits : ∀ c ∈ digits, (Url.hexValue? c).isSome) (seen rest : List Char) :
    tokensFrom (.digits (owed + 1) seen) (digits ++ rest) =
      tokensFrom (.string (digits.reverse ++ seen)) rest := by
  induction digits generalizing owed seen with
  | nil => cases hLength
  | cons c digits ih =>
    obtain ⟨hc, hRest⟩ := List.forall_mem_cons.1 hDigits
    have hHex : (Url.hexValue? c).isNone = false := by simpa using hc
    cases owed with
    | zero =>
      have hNil : digits = [] := by simpa using hLength
      subst hNil
      exact tokensFrom_cons_nil (by simp [Lexing.step, hHex]) rest
    | succ owed =>
      have hStep : (Lexing.digits (owed + 2) seen).step c =
          some (.digits (owed + 1) (c :: seen), []) := by
        simp [Lexing.step, hHex]
      rw [List.cons_append, tokensFrom_cons_nil hStep, ih (by simpa using hLength) hRest,
        List.reverse_cons, List.append_assoc, List.singleton_append]

theorem tokensFrom_string {spelling : List Char} (h : IsSpelling spelling) (seen rest : List Char) :
    tokensFrom (.string seen) (spelling ++ '"' :: rest) =
      (tokensFrom .between rest).map (.string (seen.reverse ++ spelling) :: ·) := by
  induction h generalizing seen with
  | nil =>
    rw [List.nil_append, tokensFrom_cons (by rfl), List.append_nil]
    rfl
  | @plain c spelling hQuote hEscape hControl _ ih =>
    have hStep : (Lexing.string seen).step c = some (.string (c :: seen), []) := by
      simp [Lexing.step, hQuote, hEscape, hControl]
    rw [List.cons_append, tokensFrom_cons_nil hStep, ih]
    simp
  | @short c spelling hc _ ih =>
    have hNe : c ≠ 'u' := by
      rintro rfl
      cases hc
    have hStep : (Lexing.escape ('\\' :: seen)).step c = some (.string (c :: '\\' :: seen), []) := by
      simp only [Lexing.step, hNe, hc, if_true, if_false]
    rw [List.cons_append, tokensFrom_cons_nil (by rfl), List.cons_append, tokensFrom_cons_nil hStep,
      ih]
    simp
  | unit hLength hDigits _ ih =>
    rw [List.cons_append, List.cons_append, List.cons_append, List.cons_append,
      tokensFrom_cons_nil (by rfl), tokensFrom_cons_nil (by rfl), List.append_assoc,
      tokensFrom_digits hLength hDigits, ih]
    simp

theorem exists_of_tokensFrom_cons {state : Lexing} {c : Char}
    (h : tokensFrom state (c :: rest) = some ts) :
    ∃ next first tail, state.step c = some (next, first) ∧ tokensFrom next rest = some tail ∧
      ts = first ++ tail := by
  rw [tokensFrom, Option.bind_eq_bind, Option.bind_eq_some_iff] at h
  obtain ⟨⟨next, first⟩, hStep, hRest⟩ := h
  rw [Option.bind_eq_bind, Option.bind_eq_some_iff] at hRest
  obtain ⟨tail, hTail, hPure⟩ := hRest
  cases hPure
  exact ⟨next, first, tail, hStep, hTail, rfl⟩

theorem tokensFrom_pending {run : List Char} (hToken : plain? run.reverse = some t)
    (hEnd : ∀ c ∈ text.head?, isPlain c = false) (h : tokensFrom .between text = some ts) :
    tokensFrom (.plain run) text = some (t :: ts) := by
  cases text with
  | nil =>
    cases h
    simp [tokensFrom, Lexing.finish, hToken]
  | cons c rest =>
    have hc : isPlain c = false := hEnd c rfl
    obtain ⟨next, first, tail, hStart, hTail, rfl⟩ := exists_of_tokensFrom_cons h
    have hStep : (Lexing.plain run).step c = some (next, t :: first) := by
      have hStart : Lexing.start c = some (next, first) := hStart
      simp [Lexing.step, hc, hToken, hStart]
    rw [tokensFrom_cons hStep, hTail]
    rfl

/-- The first character of a token shows whether it is a word. -/
theorem Token.exists_text (h : t.IsValid) : ∃ c tail, t.text = c :: tail ∧ isPlain c = t.isWord := by
  cases t with
  | boolean b => cases b <;> exact ⟨_, _, rfl, rfl⟩
  | number spelling =>
    cases spelling with
    | nil => cases h
    | cons c tail =>
      have hPlain : ∀ d ∈ c :: tail, isPlain d = true := isPlain_of_isNumber h
      exact ⟨c, tail, rfl, hPlain c List.mem_cons_self⟩
  | _ => exact ⟨_, _, rfl, rfl⟩

theorem isPlain_of_isSpace {c : Char} (h : isSpace c = true) : isPlain c = false := by
  simp only [isSpace, Bool.or_eq_true, beq_iff_eq] at h
  rcases h with ((rfl | rfl) | rfl) | rfl <;> rfl

namespace Spread

theorem isWord_of_head? (h : Spread text ts) {c : Char} (hc : c ∈ text.head?)
    (hPlain : isPlain c = true) : ∃ t ∈ ts.head?, t.isWord = true := by
  cases h with
  | nil => cases hc
  | space hSpace =>
    cases hc
    cases hPlain.symm.trans (isPlain_of_isSpace hSpace)
  | @token t _ _ ht =>
    obtain ⟨d, tail, hText, hWord⟩ := Token.exists_text ht
    rw [hText] at hc
    cases hc
    exact ⟨t, rfl, hWord ▸ hPlain⟩

/-- The tokens of a text are read from it, if no two words follow each other. -/
theorem tokens? (h : Spread text ts)
    (hApart : ts.IsChain fun a b => ¬(a.isWord = true ∧ b.isWord = true)) :
    Json.tokens? text = some ts := by
  unfold Json.tokens?
  induction h with
  | nil => rfl
  | @space c text ts hc _ ih =>
    have hStep : Lexing.between.step c = some (.between, []) := by
      simp [Lexing.step, Lexing.start, hc]
    rw [tokensFrom_cons_nil hStep, ih hApart]
  | @token t text ts ht h ih =>
    rw [List.isChain_cons] at hApart
    specialize ih hApart.2
    cases hWord : t.isWord with
    | true =>
      obtain ⟨c, tail, hText, hc⟩ := Token.exists_text ht
      have hPlain := Token.isPlain_of_mem_text ht hWord
      rw [hText, List.forall_mem_cons] at hPlain
      have hToken := Token.plain?_text ht hWord
      rw [hText, ← List.reverse_reverse (c :: tail)] at hToken
      have hStep : Lexing.between.step c = some (.plain [c], []) := Lexing.start_of_isPlain hPlain.1
      rw [hText, List.cons_append, tokensFrom_cons_nil hStep, tokensFrom_plain hPlain.2,
        ← List.reverse_cons]
      refine tokensFrom_pending hToken (fun d hd => ?_) ih
      by_contra hNot
      obtain ⟨u, hu, hWord'⟩ := h.isWord_of_head? hd (by simpa using hNot)
      exact hApart.1 u hu ⟨hWord, hWord'⟩
    | false =>
      cases t with
      | null | boolean | number => cases hWord
      | string spelling =>
        rw [Token.text, List.cons_append, List.cons_append, List.append_assoc, List.singleton_append,
          tokensFrom_cons_nil (by rfl), tokensFrom_string ht, ih]
        rfl
      | _ =>
        rw [Token.text, List.singleton_append, tokensFrom_cons (by rfl), ih]
        rfl

end Spread

theorem IsSpelling.append {spelling other : List Char} (h : IsSpelling spelling)
    (h' : IsSpelling other) : IsSpelling (spelling ++ other) := by
  induction h with
  | nil => exact h'
  | plain hQuote hEscape hControl _ ih => exact .plain hQuote hEscape hControl ih
  | short hc _ ih => exact .short hc ih
  | unit hLength hDigits _ ih =>
    rw [List.append_assoc]
    exact .unit hLength hDigits ih

/-- The text of the token that the lexer is reading. -/
def Lexing.read : Lexing → List Char
  | .between => []
  | .plain run => run.reverse
  | .string seen | .escape seen | .digits _ seen => '"' :: seen.reverse

/-- What the lexer has read of a string is a spelling, up to an escape that is not complete. -/
def Lexing.IsSound : Lexing → Prop
  | .between | .plain _ => True
  | .string seen => IsSpelling seen.reverse
  | .escape seen => ∃ spelling, IsSpelling spelling ∧ seen.reverse = spelling ++ ['\\']
  | .digits owed seen => ∃ spelling digits, IsSpelling spelling ∧
      seen.reverse = spelling ++ '\\' :: 'u' :: digits ∧ digits.length + owed = 4 ∧ 0 < owed ∧
      ∀ c ∈ digits, (Url.hexValue? c).isSome

theorem valid_of_plain? {run : List Char} (h : plain? run = some t) : t.text = run ∧ t.IsValid := by
  unfold plain? at h
  split at h
  · cases h; exact ⟨by simp_all [Token.text], trivial⟩
  · split at h
    · cases h; exact ⟨by simp_all [Token.text], trivial⟩
    · split at h
      · cases h; exact ⟨by simp_all [Token.text], trivial⟩
      · split at h
        · next hNumber =>
          cases h
          exact ⟨rfl, hNumber⟩
        · cases h

theorem valid_of_mark? {c : Char} (h : mark? c = some t) : t.text = [c] ∧ t.IsValid := by
  unfold mark? at h
  split at h <;> cases h <;> exact ⟨rfl, trivial⟩

/-- A character at which no token is unfinished. -/
theorem spread_of_start {c : Char} {next : Lexing} {first : List Token}
    (h : Lexing.start c = some (next, first)) (hRest : next.IsSound → Spread (next.read ++ text) ts) :
    Spread (c :: text) (first ++ ts) := by
  unfold Lexing.start at h
  split at h
  · next hSpace =>
    cases h
    exact .space hSpace (hRest trivial)
  · split at h
    · next hQuote =>
      cases h
      exact hQuote ▸ hRest .nil
    · split at h
      · next token hMark =>
        cases h
        obtain ⟨hText, hValid⟩ := valid_of_mark? hMark
        have hToken := Spread.token hValid (hRest trivial)
        rwa [hText] at hToken
      · split at h
        · cases h
          exact hRest trivial
        · cases h

theorem spread_of_plain {run : List Char} {c : Char} {next : Lexing} {first : List Token}
    (h : (Lexing.plain run).step c = some (next, first))
    (hRest : next.IsSound → Spread (next.read ++ text) ts) :
    Spread (run.reverse ++ c :: text) (first ++ ts) := by
  simp only [Lexing.step] at h
  split at h
  · cases h
    simpa [Lexing.read] using hRest trivial
  · simp only [Option.bind_eq_bind, Option.bind_eq_some_iff] at h
    obtain ⟨token, hToken, ⟨state, tokens⟩, hStart, hPure⟩ := h
    cases hPure
    obtain ⟨hText, hValid⟩ := valid_of_plain? hToken
    have hSpread := Spread.token hValid (spread_of_start hStart hRest)
    rwa [hText] at hSpread

/-- The lexer goes on with a string: it has read one more character of it, and no token. -/
structure Lexing.Continues (seen : List Char) (c : Char) (next : Lexing) (first : List Token) :
    Prop where
  sound : next.IsSound
  read : next.read = '"' :: (c :: seen).reverse
  first : first = []

theorem spread_of_continues {seen : List Char} {c : Char} {next : Lexing} {first : List Token}
    (h : Lexing.Continues seen c next first)
    (hRest : next.IsSound → Spread (next.read ++ text) ts) :
    Spread ('"' :: seen.reverse ++ c :: text) (first ++ ts) := by
  have hSpread := hRest h.sound
  rw [h.read] at hSpread
  simpa [h.first] using hSpread

theorem continues_of_string {seen : List Char} {c : Char} {next : Lexing} {first : List Token}
    (hSeen : (Lexing.string seen).IsSound) (hQuote : c ≠ '"')
    (h : (Lexing.string seen).step c = some (next, first)) :
    Lexing.Continues seen c next first := by
  simp only [Lexing.step, if_neg hQuote] at h
  split at h
  · next hEscape =>
    cases h
    exact ⟨⟨seen.reverse, hSeen, by simp [hEscape]⟩, rfl, rfl⟩
  · next hEscape =>
    split at h
    · cases h
    · next hControl =>
      cases h
      refine ⟨?_, rfl, rfl⟩
      rw [Lexing.IsSound, List.reverse_cons]
      exact IsSpelling.append hSeen (.plain hQuote hEscape hControl .nil)

theorem continues_of_escape {seen : List Char} {c : Char} {next : Lexing} {first : List Token}
    (hSeen : (Lexing.escape seen).IsSound)
    (h : (Lexing.escape seen).step c = some (next, first)) :
    Lexing.Continues seen c next first := by
  obtain ⟨spelling, hSpelling, hSeen⟩ := hSeen
  simp only [Lexing.step] at h
  split at h
  · next hUnit =>
    cases h
    exact ⟨⟨spelling, [], hSpelling, by simp [hSeen, hUnit], rfl, by decide, nofun⟩, rfl, rfl⟩
  · split at h
    · next hShort =>
      cases h
      refine ⟨?_, rfl, rfl⟩
      rw [Lexing.IsSound, List.reverse_cons, hSeen, List.append_assoc, List.singleton_append]
      exact hSpelling.append (.short hShort .nil)
    · cases h

theorem continues_of_digits {owed : Nat} {seen : List Char} {c : Char} {next : Lexing}
    {first : List Token} (hSeen : (Lexing.digits owed seen).IsSound)
    (h : (Lexing.digits owed seen).step c = some (next, first)) :
    Lexing.Continues seen c next first := by
  obtain ⟨spelling, digits, hSpelling, hSeen, hLength, hOwed, hDigits⟩ := hSeen
  simp only [Lexing.step] at h
  split at h
  · cases h
  · next hHex =>
    have hHex : (Url.hexValue? c).isSome = true := by simpa [Option.isSome_iff_ne_none] using hHex
    have hDigits' : ∀ d ∈ digits ++ [c], (Url.hexValue? d).isSome :=
      List.forall_mem_append.2 ⟨hDigits, List.forall_mem_singleton.2 hHex⟩
    have hReverse : (c :: seen).reverse = spelling ++ '\\' :: 'u' :: (digits ++ [c]) := by
      simp [hSeen]
    split at h
    · cases h
      refine ⟨?_, rfl, rfl⟩
      rw [Lexing.IsSound, hReverse]
      have hUnit := IsSpelling.unit (by rw [List.length_append, List.length_singleton]; omega)
        hDigits' .nil
      exact hSpelling.append (by simpa using hUnit)
    · cases h
      refine ⟨⟨spelling, digits ++ [c], hSpelling, hReverse, ?_, by omega, hDigits'⟩, rfl, rfl⟩
      rw [List.length_append, List.length_singleton]
      omega

/-- The tokens that a step of the lexer completes spell what it has read, and the rest of the text
spells the others. -/
theorem spread_of_step {state next : Lexing} {c : Char} {first : List Token}
    (hState : state.IsSound) (h : state.step c = some (next, first))
    (hRest : next.IsSound → Spread (next.read ++ text) ts) :
    Spread (state.read ++ c :: text) (first ++ ts) := by
  cases state with
  | between => exact spread_of_start h hRest
  | plain run => exact spread_of_plain h hRest
  | string seen =>
    by_cases hQuote : c = '"'
    · simp only [Lexing.step, if_pos hQuote] at h
      cases h
      have hValid : (Token.string seen.reverse).IsValid := hState
      simpa [Lexing.read, Token.text, hQuote] using Spread.token hValid (hRest trivial)
    · exact spread_of_continues (continues_of_string hState hQuote h) hRest
  | escape seen => exact spread_of_continues (continues_of_escape hState h) hRest
  | digits owed seen => exact spread_of_continues (continues_of_digits hState h) hRest

/-- A text is spelt by the tokens that are read from it. -/
theorem spread_of_tokensFrom {state : Lexing} (hState : state.IsSound)
    (h : tokensFrom state text = some ts) : Spread (state.read ++ text) ts := by
  induction text generalizing state ts with
  | nil =>
    cases state with
    | between =>
      cases h
      exact .nil
    | plain run =>
      obtain ⟨token, hToken, rfl⟩ := Option.map_eq_some_iff.1 h
      obtain ⟨hText, hValid⟩ := valid_of_plain? hToken
      have hSpread := Spread.token hValid .nil
      rwa [hText] at hSpread
    | _ => cases h
  | cons c rest ih =>
    obtain ⟨next, first, tail, hStep, hTail, rfl⟩ := exists_of_tokensFrom_cons h
    exact spread_of_step hState hStep fun hNext => ih hNext hTail

theorem spread_of_tokens? (h : tokens? text = some ts) : Spread text ts := by
  have hSound : Lexing.between.IsSound := trivial
  exact spread_of_tokensFrom hSound h

end ModuleLoader.Json
