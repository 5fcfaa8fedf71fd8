import ModuleLoader.Proofs.Tsconfig.Dialect

/-! The parts of any text, as the stripping of comments and commas sees them.  It looks at no
tokens, but the parts that it leaves are words, strings and single characters, and so the text that
is left is known from the parts. -/

namespace ModuleLoader.Tsconfig

open ModuleLoader.Text
open Json (isPlain)

/-- A part of a text. -/
inductive Part where
  /-- A run of characters that may belong to a number or to one of the words. -/
  | word (run : List Char)
  /-- A string from behind its opening quote up to the closing one, or up to the end of the text. -/
  | string (body : List Char)
  | mark (c : Char)
  | line (body : List Char)
  | block (body : List Char)
  /-- The rest of the text behind the mark of a comment that nothing closes. -/
  | unclosed (body : List Char)
  /-- A comma that is taken away. -/
  | dropped
  deriving DecidableEq

namespace Part

def text : Part → List Char
  | .word run => run
  | .string body => '"' :: body
  | .mark c => [c]
  | .line body => '/' :: '/' :: body
  | .block body => '/' :: '*' :: (body ++ ['*', '/'])
  | .unclosed body => '/' :: '*' :: body
  | .dropped => [',']

/-- The text of the part, if it is left. -/
def kept : Part → List Char
  | .word run => run
  | .string body => '"' :: body
  | .mark c => [c]
  | _ => []

def isWord : Part → Bool
  | .word _ => true
  | _ => false

def isBlock : Part → Bool
  | .block _ => true
  | _ => false

def isUnclosed : Part → Bool
  | .unclosed _ => true
  | _ => false

def isGap : Part → Bool
  | .mark c => isBlank c
  | .line _ | .block _ => true
  | _ => false

/-- The part opens a container. -/
def isOpener : Part → Bool
  | .mark c => c == '[' || c == '\x7b'
  | _ => false

end Part

/-- A text behind the opening quote of a string, cut behind the closing quote. -/
def cutString : List Char → List Char × List Char
  | [] => ([], [])
  | '"' :: rest => (['"'], rest)
  | '\\' :: c :: rest => ('\\' :: c :: (cutString rest).1, (cutString rest).2)
  | c :: rest => (c :: (cutString rest).1, (cutString rest).2)

/-- The text of a block comment, and what follows the marks that close it. -/
def cutBlock? : List Char → Option (List Char × List Char)
  | [] => none
  | '*' :: '/' :: rest => some ([], rest)
  | c :: rest => (cutBlock? rest).map fun (body, tail) => (c :: body, tail)

theorem cutString_append (text : List Char) : (cutString text).1 ++ (cutString text).2 = text := by
  fun_induction cutString text <;> simp_all

theorem cutBlock?_append {text body tail : List Char} (h : cutBlock? text = some (body, tail)) :
    text = body ++ '*' :: '/' :: tail := by
  fun_induction cutBlock? text generalizing body with
  | case1 => cases h
  | case2 rest =>
    cases h
    rfl
  | case3 c rest _ ih =>
    obtain ⟨⟨inner, _⟩, hInner, hBody⟩ := Option.map_eq_some_iff.1 h
    cases hBody
    exact congrArg (c :: ·) (ih hInner)

/-- The parts of a text, each as long as it can be. -/
def parts : List Char → List Part
  | [] => []
  | '"' :: rest => .string (cutString rest).1 :: parts (cutString rest).2
  | '/' :: '/' :: rest =>
    .line (rest.takeWhile (· != '\n')) :: parts (rest.dropWhile (· != '\n'))
  | '/' :: '*' :: rest =>
    match _h : cutBlock? rest with
    | some (body, tail) => .block body :: parts tail
    | none => [.unclosed rest]
  | c :: rest =>
    if c = ',' && closes rest then .dropped :: parts rest
    else if isPlain c then .word (c :: rest.takeWhile isPlain) :: parts (rest.dropWhile isPlain)
    else .mark c :: parts rest
termination_by text => text.length
decreasing_by
  · have h := congrArg List.length (cutString_append rest)
    simp only [List.length_append, List.length_cons] at h ⊢
    omega
  · have h := (List.dropWhile_sublist (· != '\n') (l := rest)).length_le
    simp only [List.length_cons]
    omega
  · have h := congrArg List.length (cutBlock?_append _h)
    simp only [List.length_append, List.length_cons] at h ⊢
    omega
  · simp
  · have h := (List.dropWhile_sublist isPlain (l := rest)).length_le
    simp only [List.length_cons]
    omega
  · simp

/-- The text is that of the parts, each as long as it can be. -/
inductive IsCut : List Char → List Part → Prop
  | nil : IsCut [] []
  | word {run rest : List Char} {ps : List Part} (hSome : run ≠ [])
      (hRun : ∀ c ∈ run, isPlain c = true) (hRest : ∀ c ∈ rest.head?, isPlain c = false)
      (h : IsCut rest ps) : IsCut (run ++ rest) (.word run :: ps)
  | string {body rest : List Char} {ps : List Part}
      (hBody : cutString (body ++ rest) = (body, rest))
      (h : IsCut rest ps) : IsCut ('"' :: (body ++ rest)) (.string body :: ps)
  | mark {c : Char} {rest : List Char} {ps : List Part} (hPlain : isPlain c = false)
      (hQuote : c ≠ '"') (hSlash : c = '/' → ∀ d ∈ rest.head?, d ≠ '/' ∧ d ≠ '*')
      (hComma : c = ',' → closes rest = false)
      (h : IsCut rest ps) : IsCut (c :: rest) (.mark c :: ps)
  | line {body rest : List Char} {ps : List Part} (hBody : '\n' ∉ body)
      (hRest : ∀ c ∈ rest.head?, c = '\n') (h : IsCut rest ps) :
    IsCut ('/' :: '/' :: (body ++ rest)) (.line body :: ps)
  | block {body rest : List Char} {ps : List Part} (hBody : ¬['*', '/'] <:+: body)
      (h : IsCut rest ps) : IsCut ('/' :: '*' :: (body ++ '*' :: '/' :: rest)) (.block body :: ps)
  | unclosed {body : List Char} (hBody : ¬['*', '/'] <:+: body) :
    IsCut ('/' :: '*' :: body) [.unclosed body]
  | dropped {rest : List Char} {ps : List Part} (hRest : closes rest = true) (h : IsCut rest ps) :
    IsCut (',' :: rest) (.dropped :: ps)

variable {text body rest tail run : List Char} {c : Char} {ps : List Part}

theorem cutString_self (text : List Char) :
    cutString ((cutString text).1 ++ (cutString text).2) =
      ((cutString text).1, (cutString text).2) := by
  rw [cutString_append]

theorem closing_infix_cons_iff :
    ['*', '/'] <:+: c :: rest ↔ (c = '*' ∧ ∃ tail, rest = '/' :: tail) ∨ ['*', '/'] <:+: rest := by
  have hPrefix : ['/'] <+: rest ↔ ∃ tail, rest = '/' :: tail :=
    exists_congr fun _ => eq_comm
  rw [List.infix_cons_iff, List.cons_prefix_cons, hPrefix, eq_comm]

/-- A block comment ends at the first closing marks. -/
theorem not_infix_of_cutBlock? (h : cutBlock? text = some (body, tail)) :
    ¬['*', '/'] <:+: body := by
  fun_induction cutBlock? text generalizing body with
  | case1 => cases h
  | case2 rest =>
    cases h
    simp
  | case3 c rest hNot ih =>
    obtain ⟨⟨inner, _⟩, hInner, hBody⟩ := Option.map_eq_some_iff.1 h
    cases hBody
    rw [closing_infix_cons_iff, not_or]
    refine ⟨?_, ih hInner⟩
    rintro ⟨hStar, after, rfl⟩
    exact hNot _ hStar (cutBlock?_append hInner)

theorem cutBlock?_eq_none_iff : cutBlock? text = none ↔ ¬['*', '/'] <:+: text := by
  fun_induction cutBlock? text with
  | case1 => simp
  | case2 rest => simp [closing_infix_cons_iff]
  | case3 c rest hNot ih =>
    have hHere : ¬(c = '*' ∧ ∃ tail, rest = '/' :: tail) := fun ⟨hStar, tail, hTail⟩ =>
      hNot tail hStar hTail
    rw [Option.map_eq_none_iff, ih, closing_infix_cons_iff, not_or]
    exact (and_iff_right hHere).symm

theorem cutBlock?_append_closing (h : ¬['*', '/'] <:+: body) (rest : List Char) :
    cutBlock? (body ++ '*' :: '/' :: rest) = some (body, rest) := by
  induction body with
  | nil => rfl
  | cons c body ih =>
    rw [closing_infix_cons_iff, not_or] at h
    rw [List.cons_append, cutBlock?, ih h.2, Option.map_some]
    rintro tail hStar hTail
    cases body with
    | nil => cases hTail
    | cons d body =>
      cases hTail
      exact h.1 ⟨hStar, _, rfl⟩

theorem isCut_parts (text : List Char) : IsCut text (parts text) := by
  fun_induction parts text with
  | case1 => exact .nil
  | case2 rest ih =>
    have hCut := IsCut.string (cutString_self rest) ih
    rwa [cutString_append] at hCut
  | case3 rest ih =>
    have hBody : '\n' ∉ rest.takeWhile (· != '\n') := fun hMem => by
      simpa using List.all_eq_true.1 List.all_takeWhile _ hMem
    have hRest : ∀ c ∈ (rest.dropWhile (· != '\n')).head?, c = '\n' := fun c hc => by
      have hNot := List.head?_dropWhile_not (· != '\n') rest
      rw [hc] at hNot
      simpa using hNot
    have hCut := IsCut.line hBody hRest ih
    rwa [List.takeWhile_append_dropWhile] at hCut
  | case4 rest body tail hCut ih =>
    rw [cutBlock?_append hCut]
    exact .block (not_infix_of_cutBlock? hCut) ih
  | case5 rest hCut => exact .unclosed (cutBlock?_eq_none_iff.1 hCut)
  | case6 c rest _ _ _ hComma ih =>
    obtain ⟨hc, hCloses⟩ : c = ',' ∧ closes rest = true := by simpa using hComma
    subst hc
    exact .dropped hCloses ih
  | case7 c rest _ _ _ hComma hPlain ih =>
    have hRun : ∀ d ∈ c :: rest.takeWhile isPlain, isPlain d = true :=
      List.forall_mem_cons.2 ⟨hPlain, List.all_eq_true.1 List.all_takeWhile⟩
    have hRest : ∀ d ∈ (rest.dropWhile isPlain).head?, isPlain d = false := fun d hd => by
      have hNot := List.head?_dropWhile_not isPlain rest
      rw [hd] at hNot
      simpa using hNot
    have hCut := IsCut.word (List.cons_ne_nil _ _) hRun hRest ih
    rwa [List.cons_append, List.takeWhile_append_dropWhile] at hCut
  | case8 c rest hQuote hLine hBlock hComma hPlain ih =>
    refine .mark (by simpa using hPlain) hQuote ?_ ?_ ih
    · rintro hSlash d hd
      obtain ⟨tail, rfl⟩ : ∃ tail, rest = d :: tail := by
        cases rest <;> cases hd
        exact ⟨_, rfl⟩
      exact ⟨fun hd => hLine tail hSlash (hd ▸ rfl), fun hd => hBlock tail hSlash (hd ▸ rfl)⟩
    · intro hc
      simpa [hc] using hComma

theorem parts_cons (hQuote : c ≠ '"') (hSlash : c = '/' → ∀ d ∈ rest.head?, d ≠ '/' ∧ d ≠ '*') :
    parts (c :: rest) =
      if c = ',' && closes rest then .dropped :: parts rest
      else if isPlain c then .word (c :: rest.takeWhile isPlain) :: parts (rest.dropWhile isPlain)
      else .mark c :: parts rest := by
  rw [parts]
  · exact hQuote
  · rintro tail hc rfl
    exact (hSlash hc _ rfl).1 rfl
  · rintro tail hc rfl
    exact (hSlash hc _ rfl).2 rfl

/-- A run ends where the next character does not belong to it. -/
theorem cut_append {p : Char → Bool} (hRun : ∀ c ∈ run, p c = true)
    (hRest : ∀ c ∈ rest.head?, p c = false) :
    (run ++ rest).takeWhile p = run ∧ (run ++ rest).dropWhile p = rest := by
  have hNone : rest.takeWhile p = [] ∧ rest.dropWhile p = rest := by
    cases rest with
    | nil => exact ⟨rfl, rfl⟩
    | cons c rest => simp [hRest c rfl]
  rw [List.takeWhile_append_of_pos hRun, List.dropWhile_append_of_pos hRun, hNone.1, hNone.2,
    List.append_nil]
  exact ⟨rfl, rfl⟩

theorem IsCut.parts_eq (h : IsCut text ps) : parts text = ps := by
  induction h with
  | nil => simp [parts]
  | @word run rest ps hSome hRun hRest _ ih =>
    obtain ⟨c, run, rfl⟩ := List.exists_cons_of_ne_nil hSome
    obtain ⟨hc, hRun⟩ := List.forall_mem_cons.1 hRun
    have hNe := Json.ne_of_isPlain hc
    obtain ⟨hTake, hDrop⟩ := cut_append hRun hRest
    rw [List.cons_append, parts_cons (hNe '"' rfl) fun hSlash => absurd hSlash (hNe '/' rfl), hTake,
      hDrop, ih]
    simp [hNe ',' rfl, hc]
  | string hBody _ ih => simp [parts, hBody, ih]
  | mark hPlain hQuote hSlash hComma _ ih =>
    rw [parts_cons hQuote hSlash, ih]
    simpa [hPlain] using hComma
  | @line body rest ps hBody hRest _ ih =>
    have hStays : ∀ c ∈ body, (c != '\n') = true := fun c hc =>
      bne_iff_ne.2 fun hLine => hBody (hLine ▸ hc)
    have hEnds : ∀ c ∈ rest.head?, (c != '\n') = false := fun c hc => by simp [hRest c hc]
    obtain ⟨hTake, hDrop⟩ := cut_append hStays hEnds
    rw [parts, hTake, hDrop, ih]
  | block hBody _ ih =>
    rw [parts]
    split
    · next hCut =>
      rw [cutBlock?_append_closing hBody] at hCut
      cases hCut
      rw [ih]
    · next hCut =>
      rw [cutBlock?_append_closing hBody] at hCut
      cases hCut
  | unclosed hBody =>
    rw [parts]
    split
    · next hCut =>
      rw [cutBlock?_eq_none_iff.2 hBody] at hCut
      cases hCut
    · rfl
  | dropped hRest _ ih => simp [parts, hRest, ih]

/-- The parts of a text make it up. -/
theorem IsCut.flatMap_text (h : IsCut text ps) : ps.flatMap Part.text = text := by
  induction h <;> simp_all [Part.text]

theorem plainFrom_cutString (text : List Char) :
    plainFrom .string text = (cutString text).1 ++ plainFrom .code (cutString text).2 := by
  fun_induction cutString text with
  | case1 => simp [plainFrom]
  | case2 rest => simp [plainFrom]
  | case3 c rest ih => simp [plainFrom, ih]
  | case4 c rest hQuote hEscape ih =>
    by_cases hc : c = '\\'
    · cases rest with
      | nil => simp [plainFrom, hc, cutString]
      | cons d rest => exact absurd rfl (hEscape d rest hc)
    · simp [plainFrom, hc, show c ≠ '"' from hQuote, ih]

/-- A comment that nothing closes takes the rest of the text with it. -/
theorem plainFrom_unclosed (h : ¬['*', '/'] <:+: body) :
    plainFrom .code ('/' :: '*' :: body) = [] := by
  have hBlock : ∀ starred : Bool, (starred = true → ∀ c ∈ body.head?, c ≠ '/') →
      plainFrom (.block starred) body = [] := by
    induction body with
    | nil => simp [plainFrom]
    | cons c body ih =>
      intro starred hStarred
      rw [closing_infix_cons_iff, not_or] at h
      have hOpen : (starred && decide (c = '/')) = false := by
        cases starred with
        | false => rfl
        | true => simpa using hStarred rfl c rfl
      rw [plainFrom, hOpen]
      refine ih h.2 (c == '*') fun hStar d hd hSlash => h.1 ⟨beq_iff_eq.1 hStar, ?_⟩
      subst hSlash
      cases body <;> cases hd
      exact ⟨_, rfl⟩
  simpa [plainFrom] using hBlock false (by simp)

/-! What is left of a text, part by part. -/

theorem plain_nil : plain [] = [] := by simp [plain, plainFrom]

theorem plain_word (hRun : ∀ c ∈ run, isPlain c = true) (rest : List Char) :
    plain (run ++ rest) = run ++ plain rest :=
  plainFrom_word hRun rest

theorem plain_string (hBody : cutString (body ++ rest) = (body, rest)) :
    plain ('"' :: (body ++ rest)) = '"' :: (body ++ plain rest) := by
  simp [plain, plainFrom, plainFrom_cutString, hBody]

theorem plain_mark (hQuote : c ≠ '"') (hSlash : c = '/' → ∀ d ∈ rest.head?, d ≠ '/' ∧ d ≠ '*')
    (hComma : c = ',' → closes rest = false) : plain (c :: rest) = c :: plain rest := by
  by_cases hc : c = '/'
  · have hNext : rest.head? ≠ some '/' ∧ rest.head? ≠ some '*' :=
      ⟨fun hd => (hSlash hc _ hd).1 rfl, fun hd => (hSlash hc _ hd).2 rfl⟩
    simp [plain, plainFrom, hc, hNext]
  · have hStays : (c = ',' && closes rest) = false := by simpa using hComma
    simp [plain, plainFrom, hc, hQuote, hStays]

theorem plain_line (hBody : '\n' ∉ body) (hRest : ∀ c ∈ rest.head?, c = '\n') :
    plain ('/' :: '/' :: (body ++ rest)) = plain rest :=
  plainFrom_line hBody hRest

theorem plain_block (hBody : ¬['*', '/'] <:+: body) (rest : List Char) :
    plain ('/' :: '*' :: (body ++ '*' :: '/' :: rest)) = plain rest :=
  plainFrom_block hBody rest

theorem plain_dropped (hRest : closes rest = true) : plain (',' :: rest) = plain rest := by
  simp [plain, plainFrom, hRest]

/-- What is left of a text is what is left of its parts. -/
theorem IsCut.plain_eq (h : IsCut text ps) : plain text = ps.flatMap Part.kept := by
  induction h with
  | nil => exact plain_nil
  | word _ hRun _ _ ih => rw [plain_word hRun, ih, List.flatMap_cons, Part.kept]
  | string hBody _ ih => rw [plain_string hBody, ih, List.flatMap_cons, Part.kept, List.cons_append]
  | mark _ hQuote hSlash hComma _ ih =>
    rw [plain_mark hQuote hSlash hComma, ih]
    rfl
  | line hBody hRest _ ih => exact (plain_line hBody hRest).trans ih
  | block hBody _ ih => exact (plain_block hBody _).trans ih
  | unclosed hBody => exact plainFrom_unclosed hBody
  | dropped hRest _ ih => exact (plain_dropped hRest).trans ih

end ModuleLoader.Tsconfig
