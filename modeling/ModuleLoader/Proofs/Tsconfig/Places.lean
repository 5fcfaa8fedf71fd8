import ModuleLoader.Proofs.Tsconfig.Dialect

/-! The places of the characters of a text, as the stripping of comments and commas reads it.  The
look-ahead at a comma finds comments in a way of its own, and finds the same ones. -/

namespace ModuleLoader.Tsconfig

open ModuleLoader.Text

namespace Place

/-- The place behind a character, where `rest` follows it. -/
def next : Place → Char → List Char → Place
  | .code, c, rest =>
    if c = '"' then .string
    else if c = '/' && rest.head? == some '/' then .line
    else if c = '/' && rest.head? == some '*' then .opening
    else .code
  | .string, c, _ => if c = '\\' then .escape else if c = '"' then .code else .string
  | .escape, _, _ => .string
  | .line, c, _ => if c = '\n' then .code else .line
  | .opening, _, _ => .block false
  | .block starred, c, _ => if starred && c = '/' then .code else .block (c == '*')

/-- The character is taken away as part of a comment. -/
def isComment : Place → Char → List Char → Bool
  | .code, c, rest => c = '/' && (rest.head? == some '/' || rest.head? == some '*')
  | .string, _, _ | .escape, _, _ => false
  | .line, c, _ => c != '\n'
  | .opening, _, _ | .block _, _, _ => true

/-- What is left of a character. -/
def left (place : Place) (c : Char) (rest : List Char) : List Char :=
  if place.isComment c rest || (place = .code && c = ',' && closes rest) then [] else [c]

/-- The place behind a text, where `rest` follows it. -/
def through : Place → List Char → List Char → Place
  | place, [], _ => place
  | place, c :: text, rest => (place.next c (text ++ rest)).through text rest

/-- What is left of a text, where `rest` follows it. -/
def leaves : Place → List Char → List Char → List Char
  | _, [], _ => []
  | place, c :: text, rest =>
    place.left c (text ++ rest) ++ (place.next c (text ++ rest)).leaves text rest

/-- The characters of a text that are in no comment. -/
def outside : Place → List Char → List Char
  | _, [] => []
  | place, c :: rest =>
    if place.isComment c rest then (place.next c rest).outside rest
    else c :: (place.next c rest).outside rest

/-- The text without the blanks and comments that it starts with. -/
def ahead : Place → List Char → List Char
  | _, [] => []
  | place, c :: rest =>
    if place.isComment c rest || isBlank c then (place.next c rest).ahead rest else c :: rest

/-- The place is one of a token or of a comment. -/
def isBare : Place → Bool
  | .string | .escape => false
  | .code | .line | .opening | .block _ => true

end Place

variable {place : Place} {c : Char} {text rest : List Char}

/-! ## Character by character -/

theorem plainFrom_cons (place : Place) (c : Char) (rest : List Char) :
    plainFrom place (c :: rest) = place.left c rest ++ plainFrom (place.next c rest) rest := by
  cases place with
  | code =>
    by_cases hComment : Place.code.isComment c rest = true
    · simp only [Place.isComment, Bool.and_eq_true, decide_eq_true_eq, Bool.or_eq_true,
        beq_iff_eq] at hComment
      obtain ⟨rfl, hNext | hNext⟩ := hComment <;>
        simp [plainFrom, Place.left, Place.isComment, Place.next, hNext]
    · have hNext : Place.code.next c rest = if c = '"' then .string else .code := by
        grind [Place.next, Place.isComment]
      have hPlain : plainFrom .code (c :: rest) =
          if c = '"' then c :: plainFrom .string rest
          else if c = ',' && closes rest then plainFrom .code rest
          else c :: plainFrom .code rest := by
        grind [plainFrom, Place.isComment]
      rw [hPlain, hNext, Place.left]
      grind
  | string | escape => simp [plainFrom, Place.left, Place.isComment, Place.next]
  | line =>
    by_cases hc : c = '\n' <;> simp [plainFrom, Place.left, Place.isComment, Place.next, hc]
  | opening => simp [plainFrom, Place.left, Place.isComment, Place.next]
  | block starred =>
    simp only [plainFrom, Place.left, Place.isComment, Place.next]
    split <;> simp

theorem plainFrom_append (place : Place) (text rest : List Char) :
    plainFrom place (text ++ rest) =
      place.leaves text rest ++ plainFrom (place.through text rest) rest := by
  induction text generalizing place with
  | nil => rfl
  | cons c text ih =>
    rw [List.cons_append, plainFrom_cons, ih, Place.leaves, Place.through, List.append_assoc]

theorem left_comma (rest : List Char) :
    Place.code.left ',' rest = if closes rest then [] else [','] := by
  simp [Place.left, Place.isComment]

/-! ## Looking ahead -/

theorem isComment_iff :
    Place.code.isComment c rest = true ↔ ['/', '/'] <+: c :: rest ∨ ['/', '*'] <+: c :: rest := by
  cases rest with
  | nil => simp [Place.isComment]
  | cons d rest =>
    simp only [Place.isComment, List.head?_cons, List.cons_prefix_cons, List.nil_prefix, and_true]
    grind

theorem ahead_trimStart (text : List Char) :
    Place.code.ahead (trimStart text) = Place.code.ahead text := by
  induction text with
  | nil => rfl
  | cons c rest ih =>
    by_cases hBlank : isBlank c = true
    · have hNext : Place.code.next c rest = .code := by
        have hNe := ne_of_isBlank hBlank
        simp [Place.next, hNe '"' rfl, hNe '/' rfl]
      have hTrim : trimStart (c :: rest) = trimStart rest := by simp [trimStart, hBlank]
      rw [hTrim, ih, Place.ahead, hBlank, Bool.or_true, if_pos rfl, hNext]
    · rw [trimStart_of_not_blank (by simpa using hBlank)]

theorem ahead_line (text : List Char) :
    Place.line.ahead text = Place.code.ahead (behind ['\n'] text) := by
  induction text with
  | nil => rfl
  | cons c rest ih =>
    by_cases hc : c = '\n'
    · have hBlank : isBlank '\n' = true := by decide
      subst hc
      simp [Place.ahead, Place.next, hBlank, behind, afterFirst?, after?]
    · rw [behind_cons (by simp [after?, Ne.symm hc]), ← ih]
      simp [Place.ahead, Place.isComment, Place.next, hc]

/-- A star that was just read may be the first of the closing marks. -/
theorem ahead_block (starred : Bool) (text : List Char) :
    (Place.block starred).ahead text =
      Place.code.ahead (behind ['*', '/'] (if starred then '*' :: text else text)) := by
  induction text generalizing starred with
  | nil => cases starred <;> rfl
  | cons c rest ih =>
    have hAhead : (Place.block starred).ahead (c :: rest) =
        ((Place.block starred).next c rest).ahead rest := by
      simp [Place.ahead, Place.isComment]
    have hOpen : Place.code.ahead (behind ['*', '/'] (c :: rest)) =
        (Place.block (c == '*')).ahead rest := by
      rw [ih]
      by_cases hc : c = '*'
      · simp [hc]
      · rw [behind_cons (by simp [after?, Ne.symm hc])]
        simp [hc]
    rw [hAhead]
    cases starred with
    | false => exact hOpen.symm
    | true =>
      by_cases hc : c = '/'
      · simp [Place.next, hc, behind, afterFirst?, after?]
      · rw [if_pos rfl, behind_cons (by simp [after?, Ne.symm hc]), hOpen]
        simp [Place.next, hc]

/-- The look-ahead skips what the stripping takes for comments. -/
theorem skipTrivia_eq_ahead (text : List Char) : skipTrivia text = Place.code.ahead text := by
  fun_induction skipTrivia text with
  | case1 text rest hText ih =>
    rw [ih, ← ahead_trimStart text, hText, ← ahead_line]
    simp [Place.ahead, Place.isComment, Place.next]
  | case2 text rest hText ih =>
    rw [ih, ← ahead_trimStart text, hText]
    have hOpen := ahead_block false rest
    simp [Place.ahead, Place.isComment, Place.next, hOpen]
  | case3 text hLine hBlock =>
    rw [← ahead_trimStart text]
    have hHead := List.head?_dropWhile_not isBlank text
    cases hText : trimStart text with
    | nil => rfl
    | cons c rest =>
      rw [show text.dropWhile isBlank = c :: rest from hText] at hHead
      have hBlank : isBlank c = false := by simpa using hHead
      have hComment : Place.code.isComment c rest = false := by
        rw [← Bool.not_eq_true, isComment_iff, not_or]
        refine ⟨fun hPrefix => ?_, fun hPrefix => ?_⟩
        · obtain ⟨tail, hTail⟩ := hPrefix
          exact hLine tail (hText.trans hTail.symm)
        · obtain ⟨tail, hTail⟩ := hPrefix
          exact hBlock tail (hText.trans hTail.symm)
      simp [Place.ahead, hBlank, hComment]

/-! ## What is skipped -/

theorem ahead_suffix (place : Place) (text : List Char) : place.ahead text <:+ text := by
  induction text generalizing place with
  | nil => exact List.suffix_refl _
  | cons c rest ih =>
    rw [Place.ahead]
    split
    · exact (ih _).trans (List.suffix_cons c rest)
    · exact List.suffix_refl _

theorem isBare_next (hBare : place.isBare = true)
    (hPassed : (place.isComment c rest || isBlank c) = true) :
    (place.next c rest).isBare = true := by
  cases place with
  | code =>
    have hQuote : c ≠ '"' := by
      rintro rfl
      cases hPassed
    simp only [Place.next, if_neg hQuote]
    split
    · rfl
    · split <;> rfl
  | string | escape => cases hBare
  | line =>
    simp only [Place.next]
    split <;> rfl
  | opening => rfl
  | block starred =>
    simp only [Place.next]
    split <;> rfl

/-- The look-ahead goes on behind blanks and comments, and stops only where tokens stand. -/
theorem ahead_cons_cases (hBare : place.isBare = true) (c : Char) (rest : List Char) :
    ((place.isComment c rest || isBlank c) = true ∧ (place.next c rest).isBare = true ∧
        place.ahead (c :: rest) = (place.next c rest).ahead rest) ∨
      (place = .code ∧ place.isComment c rest = false ∧ isBlank c = false ∧
        place.ahead (c :: rest) = c :: rest) := by
  cases hPassed : place.isComment c rest || isBlank c with
  | true =>
    exact .inl ⟨rfl, isBare_next hBare hPassed, by rw [Place.ahead, if_pos hPassed]⟩
  | false =>
    obtain ⟨hComment, hBlank⟩ := Bool.or_eq_false_iff.1 hPassed
    refine .inr ⟨?_, hComment, hBlank, by rw [Place.ahead, if_neg (by simp [hPassed])]⟩
    have hLine : c ≠ '\n' := by
      rintro rfl
      exact absurd hBlank (by decide)
    cases place with
    | code => rfl
    | string | escape => cases hBare
    | line => simp [Place.isComment, hLine] at hComment
    | opening | block => cases hComment

theorem head_of_ahead (hBare : place.isBare = true) (hAhead : place.ahead text = c :: rest) :
    isBlank c = false ∧ Place.code.isComment c rest = false := by
  induction text generalizing place with
  | nil => cases hAhead
  | cons d text ih =>
    rcases ahead_cons_cases hBare d text with ⟨-, hNext, hSkip⟩ | ⟨rfl, hComment, hBlank, hStay⟩
    · exact ih hNext (hSkip.symm.trans hAhead)
    · cases hStay.symm.trans hAhead
      exact ⟨hBlank, hComment⟩

/-- What is left of the skipped characters are blanks. -/
theorem trimStart_plainFrom (hBare : place.isBare = true) (text : List Char) :
    trimStart (plainFrom place text) = trimStart (plain (place.ahead text)) := by
  induction text generalizing place with
  | nil => cases place <;> rfl
  | cons c rest ih =>
    rcases ahead_cons_cases hBare c rest with ⟨hPassed, hNext, hSkip⟩ | ⟨rfl, -, -, hStay⟩
    · rw [hSkip, ← ih hNext, plainFrom_cons, Place.left]
      split
      · rfl
      · next hLeft =>
        have hBlank : isBlank c = true := by
          rw [Bool.or_eq_true] at hPassed
          exact hPassed.resolve_left fun hComment => hLeft (by simp [hComment])
        simp [trimStart, hBlank]
    · rw [hStay, plain]

theorem find?_outside (hBare : place.isBare = true) (text : List Char) :
    (place.outside text).find? (!isBlank ·) = (place.ahead text).head? := by
  induction text generalizing place with
  | nil => rfl
  | cons c rest ih =>
    rcases ahead_cons_cases hBare c rest with ⟨hPassed, hNext, hSkip⟩ | ⟨-, hComment, hBlank, hStay⟩
    · rw [hSkip, ← ih hNext, Place.outside]
      split
      · rfl
      · next hComment =>
        have hBlank : isBlank c = true := by
          rw [Bool.or_eq_true] at hPassed
          exact hPassed.resolve_left hComment
        simp [hBlank]
    · rw [hStay, Place.outside, hComment]
      simp [hBlank]

/-- A comma is taken away if a closing mark is the first character behind it that is no blank and
in no comment. -/
theorem closes_eq (text : List Char) :
    closes text = ((Place.code.outside text).find? (!isBlank ·)).any fun c =>
      c == '\x7d' || c == ']' := by
  rw [find?_outside rfl, ← skipTrivia_eq_ahead, closes]
  cases skipTrivia text <;> rfl

/-- The look-ahead and the stripping agree on what a comment is. -/
theorem lookAhead_agrees (text : List Char) :
    trimStart (plain text) = trimStart (plain (skipTrivia text)) ∧
    skipTrivia text <:+ text ∧
    (∀ c rest, skipTrivia text = c :: rest → isBlank c = false ∧
      ¬['/', '/'] <+: skipTrivia text ∧ ¬['/', '*'] <+: skipTrivia text) ∧
    ∀ before rest, text = before ++ ',' :: rest →
      Place.code.through before (',' :: rest) = .code →
      plain text = Place.code.leaves before (',' :: rest) ++
        ((if ((Place.code.outside rest).find? (!isBlank ·)).any fun c => c == '\x7d' || c == ']' then
          [] else [',']) ++ plain rest) := by
  rw [skipTrivia_eq_ahead]
  refine ⟨trimStart_plainFrom rfl text, ahead_suffix .code text, fun c rest hAhead => ?_, ?_⟩
  · obtain ⟨hBlank, hComment⟩ := head_of_ahead rfl hAhead
    rw [← Bool.not_eq_true, isComment_iff, not_or] at hComment
    rw [hAhead]
    exact ⟨hBlank, hComment⟩
  · rintro before rest rfl hCode
    rw [plain, plainFrom_append, hCode, plainFrom_cons, left_comma, closes_eq]
    rfl

/-- A comma before a block comment that starts with a slash and ends with two stars, and before a
line comment with another comma in it. -/
theorem lookAhead_agrees_comments :
    let rest := "/*/]**///,\n ]".toList
    skipTrivia rest = [']'] ∧ isBlank ']' = false ∧
    trimStart (plain rest) = trimStart (plain [']']) ∧
    Place.code.through "[1".toList (',' :: rest) = .code ∧
    plain ("[1".toList ++ ',' :: rest) = "[1\n ]".toList := by
  intro rest
  have hAhead : skipTrivia rest = [']'] := by decide +kernel
  have hCode : Place.code.through "[1".toList (',' :: rest) = .code := by decide +kernel
  obtain ⟨hSame, -, hHead, -⟩ := lookAhead_agrees rest
  obtain ⟨-, -, -, hComma⟩ := lookAhead_agrees ("[1".toList ++ ',' :: rest)
  have hPlain := hComma "[1".toList rest rfl hCode
  rw [hAhead] at hSame
  refine ⟨hAhead, (hHead ']' [] hAhead).1, hSame, hCode, hPlain.trans ?_⟩
  decide +kernel

end ModuleLoader.Tsconfig
