import Mathlib.Data.List.TakeWhile
import ModuleLoader.Proofs.Json.Document
import ModuleLoader.Proofs.Json.Fields

/-! JSON values as they are written.  The text of a value is a text of its document, and the value
is read from this document again if each of its numbers is read from its own text, as integers of
64 bits are.  Values that are read from a document with such numbers nest no deeper than it. -/

namespace ModuleLoader

/-- The number is read from the text that it is written with. -/
structure JsonNumber.IsStable (n : JsonNumber) : Prop where
  isNumber : Json.isNumber n.text.toList = true
  read : Json.number? n.text.toList = some n

namespace Json

/-! ### Strings -/

section Strings

variable {c : Char} {text rest : List Char}

/-- The text is a way to spell the character in a string. -/
inductive IsEscape (c : Char) : List Char → Prop
  | plain (hQuote : c ≠ '"') (hEscape : c ≠ '\\') (hControl : ¬c.toNat < 0x20) : IsEscape c [c]
  | short {d : Char} (hd : "\"\\/bfnrt".toList.contains d) (h : shortEscape? d = some c) :
    IsEscape c ['\\', d]
  | unit (h : c.toNat < 0x20) :
    IsEscape c ['\\', 'u', '0', '0', Nat.digitChar (c.toNat / 16), Nat.digitChar (c.toNat % 16)]

theorem isEscape_escaped (c : Char) : IsEscape c (escaped c) := by
  unfold escaped
  repeat (split; · next h => subst h; exact .short (by decide) rfl)
  split
  · next h => exact .unit h
  · next hQuote hEscape _ _ _ _ _ h => exact .plain hQuote hEscape h

theorem hexValue?_digitChar : ∀ n < 16, Url.hexValue? (Nat.digitChar n) = some n := by decide

theorem IsEscape.isSpelling (h : IsEscape c text) (hRest : IsSpelling rest) :
    IsSpelling (text ++ rest) := by
  cases h with
  | plain hQuote hEscape hControl => exact .plain hQuote hEscape hControl hRest
  | short hd _ => exact .short hd hRest
  | unit h =>
    have hDigits : ∀ d ∈ ['0', '0', Nat.digitChar (c.toNat / 16), Nat.digitChar (c.toNat % 16)],
        (Url.hexValue? d).isSome := by
      simp only [List.forall_mem_cons, hexValue?_digitChar (c.toNat / 16) (by omega),
        hexValue?_digitChar (c.toNat % 16) (by omega)]
      exact ⟨rfl, rfl, rfl, rfl, nofun⟩
    exact .unit rfl hDigits hRest

theorem unescapeFrom_plain (hEscape : c ≠ '\\') (rest : List Char) :
    unescapeFrom none (c :: rest) = (unescapeFrom none rest).map (c :: ·) := by
  rw [unescapeFrom]
  · cases h : unescapeFrom none rest <;> simp
  · exact fun _ _ _ _ _ h => absurd h hEscape
  · exact fun _ _ h => absurd h hEscape

theorem unescapeFrom_short {d : Char} (h : shortEscape? d = some c) (rest : List Char) :
    unescapeFrom none ('\\' :: d :: rest) = (unescapeFrom none rest).map (c :: ·) := by
  rw [unescapeFrom, h]
  · cases h : unescapeFrom none rest <;> simp
  · rintro _ _ _ _ _ rfl
    cases h

theorem unescapeFrom_control (h : c.toNat < 0x20) (rest : List Char) :
    unescapeFrom none ('\\' :: 'u' :: '0' :: '0' :: Nat.digitChar (c.toNat / 16) ::
      Nat.digitChar (c.toNat % 16) :: rest) = (unescapeFrom none rest).map (c :: ·) := by
  have hUnit : hexUnit? '0' '0' (Nat.digitChar (c.toNat / 16)) (Nat.digitChar (c.toNat % 16)) =
      some c.toNat := by
    have hZero : Url.hexValue? '0' = some 0 := by decide
    rw [hexUnit?, hZero, hexValue?_digitChar _ (by omega), hexValue?_digitChar _ (by omega)]
    simp
    omega
  have hHigh : isHighSurrogate c.toNat = false := by
    simp [isHighSurrogate]
    omega
  have hLow : isLowSurrogate c.toNat = false := by
    simp [isLowSurrogate]
    omega
  rw [unescapeFrom, hUnit]
  cases h : unescapeFrom none rest <;> simp [hHigh, hLow]

theorem IsEscape.unescapeFrom_append (h : IsEscape c text) (rest : List Char) :
    unescapeFrom none (text ++ rest) = (unescapeFrom none rest).map (c :: ·) := by
  cases h with
  | plain _ hEscape _ => exact unescapeFrom_plain hEscape rest
  | short _ h => exact unescapeFrom_short h rest
  | unit h => exact unescapeFrom_control h rest

/-- What stands between the quotes of a string that is written. -/
def spellingOf (s : String) : List Char := s.toList.flatMap escaped

theorem isSpelling_spellingOf (s : String) : IsSpelling (spellingOf s) := by
  unfold spellingOf
  induction s.toList with
  | nil => exact .nil
  | cons c rest ih => exact (isEscape_escaped c).isSpelling ih

/-- A string is read from the text that it is written with. -/
theorem unescape?_spellingOf (s : String) : unescape? (spellingOf s) = some s := by
  have hChars : ∀ cs : List Char, unescapeFrom none (cs.flatMap escaped) = some cs := by
    intro cs
    induction cs with
    | nil => rfl
    | cons c rest ih =>
      rw [List.flatMap_cons, (isEscape_escaped c).unescapeFrom_append, ih, Option.map_some]
  rw [unescape?, spellingOf, hChars, Option.map_some, String.ofList_toList]

end Strings

/-! ### Numbers -/

theorem takeSignificand_eq {digits : List Char} (hDigits : ∀ c ∈ digits, c.isDigit = true) {s : Nat}
    (hLimit : Nat.ofDigitChars 10 digits s < wordLimit) :
    takeSignificand s digits = (Nat.ofDigitChars 10 digits s, []) := by
  induction digits generalizing s with
  | nil => rfl
  | cons c rest ih =>
    obtain ⟨hc, hRest⟩ := List.forall_mem_cons.1 hDigits
    rw [Nat.ofDigitChars_cons] at hLimit ⊢
    have hStep : s * 10 + (c.toNat - 48) = 10 * s + (c.toNat - '0'.toNat) := by
      rw [Nat.mul_comm]
      rfl
    have hLe : 10 * s + (c.toNat - '0'.toNat) ≤
        Nat.ofDigitChars 10 rest (10 * s + (c.toNat - '0'.toNat)) := by
      rw [Nat.ofDigitChars_eq_ofDigitChars_zero]
      exact Nat.le_trans (Nat.le_mul_of_pos_left _ (Nat.pow_pos (by decide)))
        (Nat.le_add_right _ _)
    simp only [takeSignificand, hc, if_true, hStep, if_pos (Nat.lt_of_le_of_lt hLe hLimit),
      ih hRest hLimit]

theorem isDigit_of_mem_toDigits {n : Nat} : ∀ c ∈ Nat.toDigits 10 n, c.isDigit = true :=
  fun _ hc => Nat.isDigit_of_mem_toDigits (by decide) (by decide) hc

/-- The digits of a positive number do not start with a zero. -/
theorem exists_toDigits {n : Nat} (h : 0 < n) :
    ∃ d rest, Nat.toDigits 10 n = Nat.digitChar d :: rest ∧ 0 < d ∧ d < 10 := by
  induction n using Nat.strongRecOn with
  | _ n ih =>
    by_cases hBase : n < 10
    · exact ⟨n, [], Nat.toDigits_of_lt_base hBase, h, hBase⟩
    · obtain ⟨d, rest, hDigits, hPos, hLess⟩ := ih (n / 10) (by omega) (by omega)
      refine ⟨d, rest ++ [Nat.digitChar (n % 10)], ?_, hPos, hLess⟩
      rw [Nat.toDigits_of_base_le (by decide) (by omega), hDigits, List.cons_append]

theorem isUnsigned_toDigits (n : Nat) : isUnsigned (Nat.toDigits 10 n) = true := by
  rcases Nat.eq_zero_or_pos n with rfl | hPos
  · rfl
  obtain ⟨d, rest, hDigits, hPos, hLess⟩ := exists_toDigits hPos
  have hSome : someDigits isFraction (Nat.toDigits 10 n) = true := by
    rw [someDigits, List.dropWhile_eq_nil_iff.2 isDigit_of_mem_toDigits, hDigits]
    simp [hLess, isFraction, isExponent]
  unfold isUnsigned
  split
  · next hZero =>
    obtain ⟨hZero, -⟩ := List.cons.inj (hDigits.symm.trans hZero)
    exact absurd (Nat.digitChar_eq_zero.1 hZero) (Nat.ne_of_gt hPos)
  · exact hSome

theorem unsigned?_toDigits {n : Nat} (h : n < wordLimit) (negative : Bool) :
    unsigned? negative (Nat.toDigits 10 n) =
      if !negative then some (.natural n)
      else if n = 0 || Nat.pow 2 63 < n then some (.double (-(Decimal.toDouble n 0)))
      else some (.negative (n - 1)) := by
  have hTake : takeSignificand 0 (Nat.toDigits 10 n) = (n, []) := by
    rw [takeSignificand_eq isDigit_of_mem_toDigits] <;> rw [Nat.ofDigitChars_ten_toDigits]
    exact h
  simp only [unsigned?, hTake]

/-- The spelling of an integer that fits in 64 bits, with a sign or without. -/
def SpellsWord (spelling : List Char) : Prop :=
  (∃ n, n < wordLimit ∧ spelling = Nat.toDigits 10 n) ∨
    ∃ n, n ≤ Nat.pow 2 63 ∧ spelling = '-' :: Nat.toDigits 10 n

/-- A text that starts with a digit has no sign. -/
theorem sign_of_toDigits {α : Type} (n : Nat) (f g : List Char → α) :
    (match Nat.toDigits 10 n with
      | '-' :: rest => f rest
      | text => g text) = g (Nat.toDigits 10 n) := by
  split
  · next h =>
    have hDigit := isDigit_of_mem_toDigits '-' (h ▸ List.mem_cons_self)
    cases hDigit
  · rfl

theorem isStable_natural {n : Nat} (h : n < wordLimit) : (JsonNumber.natural n).IsStable := by
  have hText : (JsonNumber.natural n).text.toList = Nat.toDigits 10 n := Nat.toList_repr
  refine ⟨?_, ?_⟩
  · rw [hText]
    exact (sign_of_toDigits n isUnsigned isUnsigned).trans (isUnsigned_toDigits n)
  · rw [hText]
    exact (sign_of_toDigits n _ _).trans (unsigned?_toDigits h false)

theorem isStable_negative {n : Nat} (h : n < Nat.pow 2 63) : (JsonNumber.negative n).IsStable := by
  have hText : (JsonNumber.negative n).text.toList = '-' :: Nat.toDigits 10 (n + 1) := by
    rw [JsonNumber.text, String.toList_append]
    exact congrArg ('-' :: ·) Nat.toList_repr
  refine ⟨?_, ?_⟩
  · rw [hText]
    exact isUnsigned_toDigits (n + 1)
  · have hLess : n + 1 < wordLimit := Nat.lt_of_le_of_lt h (by decide)
    have hSmall : ¬Nat.pow 2 63 < n + 1 := Nat.not_lt.2 h
    rw [hText]
    refine (unsigned?_toDigits hLess true).trans ?_
    simp [hSmall]

/-- Zero with a sign is a double. -/
theorem isStable_negativeZero : (JsonNumber.double (-(Decimal.toDouble 0 0))).IsStable := by
  have hText : (JsonNumber.double (-(Decimal.toDouble 0 0))).text = "-0.0" := by decide +kernel
  refine ⟨?_, ?_⟩
  · rw [hText]
    rfl
  · rw [hText]
    rfl

theorem isStable_of_spellsWord {spelling : List Char} {n : JsonNumber} (h : SpellsWord spelling)
    (hRead : number? spelling = some n) : n.IsStable := by
  obtain ⟨k, hk, rfl⟩ | ⟨k, hk, rfl⟩ := h
  · have hNatural : number? (Nat.toDigits 10 k) = some (.natural k) :=
      (sign_of_toDigits k _ _).trans (unsigned?_toDigits hk false)
    obtain rfl := Option.some.inj (hNatural.symm.trans hRead)
    exact isStable_natural hk
  · have hUnsigned := unsigned?_toDigits (Nat.lt_of_le_of_lt hk (by decide)) true
    have hSmall : ¬Nat.pow 2 63 < k := Nat.not_lt.2 hk
    rcases Nat.eq_zero_or_pos k with rfl | hPos
    · obtain rfl := Option.some.inj (hUnsigned.symm.trans hRead)
      exact isStable_negativeZero
    · have hNegative : number? ('-' :: Nat.toDigits 10 k) = some (.negative (k - 1)) := by
        refine hUnsigned.trans ?_
        simp [hSmall, Nat.ne_of_gt hPos]
      obtain rfl := Option.some.inj (hNegative.symm.trans hRead)
      exact isStable_negative (Nat.lt_of_lt_of_le (Nat.sub_lt hPos Nat.one_pos) hk)

/-! ### Documents -/

mutual

/-- The document that the text of a value spells. -/
def document : Json → Document
  | .null => .null
  | .boolean b => .boolean b
  | .number n => .number n.text.toList
  | .string s => .string (spellingOf s)
  | .array items => .array (itemDocuments items)
  | .object fields => .object (fieldMembers fields)

def itemDocuments : List Json → List Document
  | [] => []
  | item :: rest => item.document :: itemDocuments rest

/-- The members that the text of fields spells. -/
def fieldMembers : List (String × Json) → List (List Char × Document)
  | [] => []
  | (key, value) :: rest => (spellingOf key, value.document) :: fieldMembers rest

end

/-- The value is read from its own text, as its numbers are and the fields of its objects are in the
order of their keys, and it nests no more containers than the number says. -/
inductive Fits : Json → Nat → Prop
  | null (n : Nat) : Fits .null n
  | boolean (b : Bool) (n : Nat) : Fits (.boolean b) n
  | number {a : JsonNumber} (h : a.IsStable) (n : Nat) : Fits (.number a) n
  | string (s : String) (n : Nat) : Fits (.string s) n
  | array {items : List Json} {n : Nat} (h : ∀ item ∈ items, Fits item n) :
    Fits (.array items) (n + 1)
  | object {fields : List (String × Json)} {n : Nat} (hSorted : IsSorted fields)
      (h : ∀ field ∈ fields, Fits field.2 n) :
    Fits (.object fields) (n + 1)

variable {items : List Json} {fields : List (String × Json)} {v : Json} {m n : Nat}

theorem Spread.append {a b : List Char} {ts us : List Token} (h : Spread a ts) (h' : Spread b us) :
    Spread (a ++ b) (ts ++ us) := by
  induction h with
  | nil => exact h'
  | space hc _ ih => exact .space hc ih
  | token ht _ ih =>
    rw [List.append_assoc]
    exact .token ht ih

theorem Spread.closed {a : List Char} {ts : List Token} {t : Token} (h : Spread a ts)
    (ht : t.IsValid) : Spread (a ++ t.text) (ts ++ [t]) := by
  have hToken := Spread.token ht .nil
  rw [List.append_nil] at hToken
  exact h.append hToken

theorem Spread.single (t : Token) (ht : t.IsValid) : Spread t.text [t] := Spread.closed .nil ht

theorem spread_itemsText (h : ∀ item ∈ items, Spread item.textChars item.document.tokens) :
    Spread (itemsText items) (Document.itemsTokens (itemDocuments items)) := by
  induction items with
  | nil => exact .nil
  | cons item rest ih =>
    obtain ⟨hItem, hRest⟩ := List.forall_mem_cons.1 h
    cases rest with
    | nil => exact hItem
    | cons next rest => exact hItem.append (.token (t := .comma) trivial (ih hRest))

theorem spread_fieldsText (h : ∀ field ∈ fields, Spread field.2.textChars field.2.document.tokens) :
    Spread (fieldsText fields) (Document.membersTokens (fieldMembers fields)) := by
  induction fields with
  | nil => exact .nil
  | cons field rest ih =>
    obtain ⟨key, value⟩ := field
    obtain ⟨hValue, hRest⟩ := List.forall_mem_cons.1 h
    have hKey : Token.IsValid (.string (spellingOf key)) := isSpelling_spellingOf key
    have hField : Spread (stringText key ++ ':' :: value.textChars)
        (.string (spellingOf key) :: .colon :: value.document.tokens) :=
      .token hKey (.token (t := .colon) trivial hValue)
    cases rest with
    | nil => exact hField
    | cons next rest => exact hField.append (.token (t := .comma) trivial (ih hRest))

/-- The text of a value is spelt by the tokens of its document. -/
theorem Fits.spread (h : v.Fits n) : Spread v.textChars v.document.tokens := by
  induction h with
  | null => exact .single .null trivial
  | boolean b _ =>
    cases b with
    | false => exact .single (.boolean false) trivial
    | true => exact .single (.boolean true) trivial
  | number h _ => exact .single (.number _) h.isNumber
  | string s _ => exact .single (.string _) (isSpelling_spellingOf s)
  | array _ ih =>
    have hOpen := Spread.token (t := .openBracket) trivial (spread_itemsText ih)
    exact hOpen.closed (t := .closeBracket) trivial
  | object _ _ ih =>
    have hOpen := Spread.token (t := .openBrace) trivial (spread_fieldsText ih)
    exact hOpen.closed (t := .closeBrace) trivial

theorem itemsOf?_itemDocuments (h : ∀ item ∈ items, ofDocument? item.document = some item) :
    itemsOf? (itemDocuments items) = some items := by
  induction items with
  | nil => rfl
  | cons item rest ih =>
    obtain ⟨hItem, hRest⟩ := List.forall_mem_cons.1 h
    simp [itemDocuments, itemsOf?, hItem, ih hRest]

theorem fieldsOf?_fieldMembers (h : ∀ field ∈ fields, ofDocument? field.2.document = some field.2) :
    fieldsOf? (fieldMembers fields) = some fields := by
  induction fields with
  | nil => rfl
  | cons field rest ih =>
    obtain ⟨hValue, hRest⟩ := List.forall_mem_cons.1 h
    simp [fieldMembers, fieldsOf?, unescape?_spellingOf, hValue, ih hRest]

/-- The value is read from its own document. -/
theorem Fits.ofDocument? (h : v.Fits n) : ofDocument? v.document = some v := by
  induction h with
  | null | boolean => rfl
  | number h _ => simp [document, Json.ofDocument?, h.read]
  | string s _ => simp [document, Json.ofDocument?, unescape?_spellingOf]
  | array _ ih => simp [document, Json.ofDocument?, itemsOf?_itemDocuments ih]
  | object hSorted _ ih =>
    simp [document, Json.ofDocument?, fieldsOf?_fieldMembers ih, ofFields_of_isSorted hSorted]

/-- The text of the value is a text of its document. -/
theorem Fits.ofText? (h : v.Fits n) :
    Document.ofText? v.textChars = some v.document := by
  have hChain : v.document.tokens.IsChain Token.Precedes :=
    Document.isChain_of_ofTokens? v.document.ofTokens?_tokens
  rw [Document.ofText?, h.spread.tokens? (hChain.imp fun _ _ h => h.2)]
  exact v.document.ofTokens?_tokens

theorem itemsDepth_itemDocuments (h : ∀ item ∈ items, item.document.depth ≤ n) :
    Document.itemsDepth (itemDocuments items) ≤ n := by
  induction items with
  | nil => exact Nat.zero_le n
  | cons item rest ih =>
    obtain ⟨hItem, hRest⟩ := List.forall_mem_cons.1 h
    exact Nat.max_le.2 ⟨hItem, ih hRest⟩

theorem membersDepth_fieldMembers (h : ∀ field ∈ fields, field.2.document.depth ≤ n) :
    Document.membersDepth (fieldMembers fields) ≤ n := by
  induction fields with
  | nil => exact Nat.zero_le n
  | cons field rest ih =>
    obtain ⟨hValue, hRest⟩ := List.forall_mem_cons.1 h
    exact Nat.max_le.2 ⟨hValue, ih hRest⟩

theorem Fits.depth_le (h : v.Fits n) : v.document.depth ≤ n := by
  induction h with
  | null | boolean | number | string => exact Nat.zero_le _
  | array _ ih => exact Nat.succ_le_succ (itemsDepth_itemDocuments ih)
  | object _ _ ih => exact Nat.succ_le_succ (membersDepth_fieldMembers ih)

/-! ### Values that are read -/

namespace Document

/-- Every number of the document is an integer that fits in 64 bits. -/
def IsIntegral (d : Document) : Prop :=
  ∀ spelling, .number spelling ∈ d.tokens → SpellsWord spelling

theorem IsIntegral.mono {d e : Document} (h : e.IsIntegral) (hTokens : d.tokens ⊆ e.tokens) :
    d.IsIntegral :=
  fun spelling hSpelling => h spelling (hTokens hSpelling)

end Document

theorem Fits.mono (h : v.Fits m) (hLe : m ≤ n) : v.Fits n := by
  induction h generalizing n with
  | null | boolean | number | string => constructor <;> assumption
  | array _ ih =>
    obtain ⟨k, rfl⟩ := Nat.exists_eq_succ_of_ne_zero (Nat.ne_zero_of_lt hLe)
    exact .array fun item hItem => ih item hItem (Nat.le_of_succ_le_succ hLe)
  | object hSorted _ ih =>
    obtain ⟨k, rfl⟩ := Nat.exists_eq_succ_of_ne_zero (Nat.ne_zero_of_lt hLe)
    exact .object hSorted fun field hField => ih field hField (Nat.le_of_succ_le_succ hLe)

theorem Fits.of_object (h : (Json.object fields).Fits n) :
    IsSorted fields ∧ ∀ field ∈ fields, field.2.Fits (n - 1) := by
  cases h with
  | object hSorted h => exact ⟨hSorted, h⟩

mutual

/-- A value whose numbers are integers of 64 bits is normal, and it nests no more containers than
the document that it is read from. -/
theorem fits_of_ofDocument? : (d : Document) → d.IsIntegral → (v : Json) →
    ofDocument? d = some v → v.Fits d.depth
  | .null, _, v, h => by
    cases h
    exact .null _
  | .boolean b, _, v, h => by
    cases h
    exact .boolean b _
  | .number spelling, hIntegral, v, h => by
    obtain ⟨n, hNumber, rfl⟩ := Option.map_eq_some_iff.1 h
    have hWord := hIntegral spelling List.mem_cons_self
    exact .number (isStable_of_spellsWord hWord hNumber) _
  | .string spelling, _, v, h => by
    obtain ⟨s, -, rfl⟩ := Option.map_eq_some_iff.1 h
    exact .string s _
  | .array items, hIntegral, v, h => by
    obtain ⟨values, hValues, rfl⟩ := Option.map_eq_some_iff.1 h
    have hItems : ∀ d ∈ items, d.IsIntegral := fun _ hd =>
      hIntegral.mono (Document.tokens_subset_array hd)
    exact .array (fits_of_itemsOf? items hItems values hValues)
  | .object members, hIntegral, v, h => by
    obtain ⟨fields, hFields, hObject⟩ := Option.map_eq_some_iff.1 h
    obtain ⟨sorted, rfl⟩ : ∃ sorted, v = .object sorted := ⟨_, hObject.symm⟩
    have hMembers : ∀ member ∈ members, member.2.IsIntegral := fun _ hMember =>
      hIntegral.mono (Document.tokens_subset_object hMember)
    have hFits := fits_of_fieldsOf? members hMembers fields hFields
    exact .object (isSorted_of_ofFields hObject) fun field hField =>
      hFits field (mem_of_mem_ofFields hObject hField)

theorem fits_of_itemsOf? : (items : List Document) → (∀ d ∈ items, d.IsIntegral) →
    (values : List Json) → itemsOf? items = some values →
      ∀ value ∈ values, value.Fits (Document.itemsDepth items)
  | [], _, values, h => by
    cases h
    nofun
  | d :: rest, hIntegral, values, h => by
    obtain ⟨hd, hRest⟩ := List.forall_mem_cons.1 hIntegral
    simp only [itemsOf?, Option.bind_eq_bind, Option.bind_eq_some_iff] at h
    obtain ⟨value, hValue, others, hOthers, hPure⟩ := h
    cases hPure
    have hFits := fits_of_itemsOf? rest hRest others hOthers
    have hFirst := fits_of_ofDocument? d hd value hValue
    exact List.forall_mem_cons.2 ⟨hFirst.mono (Nat.le_max_left _ _),
      fun other hOther => (hFits other hOther).mono (Nat.le_max_right _ _)⟩

theorem fits_of_fieldsOf? : (members : List (List Char × Document)) →
    (∀ member ∈ members, member.2.IsIntegral) → (fields : List (String × Json)) →
      fieldsOf? members = some fields →
        ∀ field ∈ fields, field.2.Fits (Document.membersDepth members)
  | [], _, fields, h => by
    cases h
    nofun
  | (key, d) :: rest, hIntegral, fields, h => by
    obtain ⟨hd, hRest⟩ := List.forall_mem_cons.1 hIntegral
    simp only [fieldsOf?, Option.bind_eq_bind, Option.bind_eq_some_iff] at h
    obtain ⟨name, -, value, hValue, others, hOthers, hPure⟩ := h
    cases hPure
    have hFits := fits_of_fieldsOf? rest hRest others hOthers
    have hFirst := fits_of_ofDocument? d hd value hValue
    exact List.forall_mem_cons.2 ⟨hFirst.mono (Nat.le_max_left _ _),
      fun other hOther => (hFits other hOther).mono (Nat.le_max_right _ _)⟩

end

end Json

end ModuleLoader
