import Mathlib.Data.Bool.AllAny
import Mathlib.Data.List.Basic
import ModuleLoader.Url.Encode

/-! Percent-encoding ends after one step: what it writes are characters that stand for themselves,
and a text of such characters stays as it is. -/

namespace ModuleLoader.Url

/-- The character stands for itself in a part of a URL with the given escapes. -/
def isWritten (escapes : Char → Bool) (c : Char) : Bool := c.toNat < 0x80 && !escapes c

/-- The escapes do not touch what percent-encoding itself writes. -/
def SparesPercent (escapes : Char → Bool) : Prop :=
  ∀ c ∈ "%0123456789ABCDEF".toList, escapes c = false

variable {escapes others : Char → Bool} {text : List Char} {bytes : List UInt8} {b : UInt8}
  {c : Char}

theorem utf8EncodeChar_of_lt (h : c.toNat < 0x80) :
    String.utf8EncodeChar c = [UInt8.ofNat c.toNat] := by
  have hOne : c.val.toNat ≤ 0x7F := Nat.le_of_lt_succ h
  simp only [String.utf8EncodeChar, hOne, if_true]
  rfl

theorem toNat_ofNat_of_isValidChar {n : Nat} (h : n.isValidChar) : (Char.ofNat n).toNat = n := by
  have hChar : Char.ofNat n = Char.ofNatAux n h := dif_pos h
  rw [hChar]
  rfl

/-- A byte of ASCII is the number of its character. -/
theorem toNat_ofNat_of_lt {n : Nat} (h : n < 0x80) : (Char.ofNat n).toNat = n :=
  toNat_ofNat_of_isValidChar (.inl (by omega))

theorem encodeByte_of_isWritten (h : isWritten escapes c = true) :
    encodeByte escapes (UInt8.ofNat c.toNat) = [c] := by
  obtain ⟨hLt, hKept⟩ := Bool.and_eq_true_iff.1 h
  rw [decide_eq_true_eq] at hLt
  have hByte : (UInt8.ofNat c.toNat).toNat = c.toNat := UInt8.toNat_ofNat_of_lt' (show _ < 256 by omega)
  have hLess : UInt8.ofNat c.toNat < 0x80 := by
    rw [UInt8.lt_iff_toNat_lt, hByte]
    exact hLt
  simp [encodeByte, hByte, hLess, Char.ofNat_toNat, hKept]

theorem encode_of_isWritten (h : ∀ c ∈ text, isWritten escapes c = true) :
    encode escapes text = text := by
  induction text with
  | nil => rfl
  | cons c rest ih =>
    obtain ⟨hc, hRest⟩ := List.forall_mem_cons.1 h
    have hLt : c.toNat < 0x80 := of_decide_eq_true (Bool.and_eq_true_iff.1 hc).1
    have hCons : encode escapes (c :: rest) =
        encodeBytes escapes (String.utf8EncodeChar c) ++ encode escapes rest := by
      simp [encode, encodeBytes, Text.Utf8.encode]
    rw [hCons, ih hRest, utf8EncodeChar_of_lt hLt, encodeBytes, List.flatMap_singleton,
      encodeByte_of_isWritten hc, List.singleton_append]

theorem hexDigit_mem {n : Nat} (h : n < 16) : hexDigit n ∈ "0123456789ABCDEF".toList := by
  decide +revert

theorem hexValue?_hexDigit {n : Nat} (h : n < 16) : hexValue? (hexDigit n) = some n := by
  decide +revert

theorem mem_percentByte (h : c ∈ percentByte b) : c ∈ "%0123456789ABCDEF".toList := by
  have hLt := UInt8.toNat_lt b
  rw [percentByte, List.mem_cons, List.mem_cons, List.mem_singleton] at h
  rcases h with rfl | rfl | rfl
  · exact List.mem_cons_self
  · exact List.mem_cons_of_mem _ (hexDigit_mem (by omega))
  · exact List.mem_cons_of_mem _ (hexDigit_mem (by omega))

theorem isWritten_of_mem_percentByte (hSpares : SparesPercent escapes) (h : c ∈ percentByte b) :
    isWritten escapes c = true := by
  have hMem := mem_percentByte h
  have hAscii : ∀ c ∈ "%0123456789ABCDEF".toList, c.toNat < 0x80 :=
    List.all_iff_forall_prop.1 (by decide)
  simp [isWritten, hAscii c hMem, hSpares c hMem]

/-- A character of the encoding stands for a byte that is not escaped, or encodes an escaped one. -/
theorem mem_encodeBytes (h : c ∈ encodeBytes escapes bytes) :
    (c.toNat < 0x80 ∧ escapes c = false) ∨ ∃ b, c ∈ percentByte b := by
  obtain ⟨b, -, hc⟩ := List.mem_flatMap.1 h
  unfold encodeByte at hc
  dsimp only at hc
  split at hc
  · next hKept =>
    rw [Bool.and_eq_true, decide_eq_true_eq, UInt8.lt_iff_toNat_lt] at hKept
    rw [List.mem_singleton.1 hc, toNat_ofNat_of_lt hKept.1]
    exact .inl ⟨hKept.1, by simpa using hKept.2⟩
  · exact .inr ⟨b, hc⟩

/-- What one set of escapes leaves can be read with fewer escapes. -/
theorem isWritten_of_mem_encodeBytes (hSpares : SparesPercent others)
    (hLess : ∀ c, escapes c = false → others c = false) (h : c ∈ encodeBytes escapes bytes) :
    isWritten others c = true := by
  rcases mem_encodeBytes h with ⟨hLt, hKept⟩ | ⟨b, hc⟩
  · simp [isWritten, hLt, hLess c hKept]
  · exact isWritten_of_mem_percentByte hSpares hc

theorem isWritten_of_mem_encode (hSpares : SparesPercent escapes) (h : c ∈ encode escapes text) :
    isWritten escapes c = true :=
  isWritten_of_mem_encodeBytes hSpares (fun _ hc => hc) h

/-- A byte of a character past ASCII is none of ASCII. -/
theorem le_of_mem_utf8EncodeChar (h : 0x80 ≤ c.toNat) (hb : b ∈ String.utf8EncodeChar c) :
    0x80 ≤ b.toNat := by
  have hByte : ∀ {k : Nat}, k < 256 → (UInt8.ofNat k).toNat = k := UInt8.toNat_ofNat_of_lt'
  simp only [String.utf8EncodeChar, show c.val.toNat = c.toNat from rfl] at hb
  generalize c.toNat = n at h hb
  split at hb
  · omega
  split at hb
  · simp only [List.mem_cons, List.not_mem_nil, or_false] at hb
    rcases hb with rfl | rfl <;> rw [hByte (by omega)] <;> omega
  split at hb
  · simp only [List.mem_cons, List.not_mem_nil, or_false] at hb
    rcases hb with rfl | rfl | rfl <;> rw [hByte (by omega)] <;> omega
  · simp only [List.mem_cons, List.not_mem_nil, or_false] at hb
    rcases hb with rfl | rfl | rfl | rfl <;> rw [hByte (by omega)] <;> omega

/-- A text that starts with a byte of ASCII starts with its character. -/
theorem char_of_utf8EncodeChar {rest : List UInt8} (hb : b.toNat < 0x80)
    (h : String.utf8EncodeChar c ++ rest = b :: bytes) : c = Char.ofNat b.toNat ∧ rest = bytes := by
  have hLt : c.toNat < 0x80 := by
    by_contra hNot
    obtain ⟨first, more, hChar⟩ := List.exists_cons_of_ne_nil (l := String.utf8EncodeChar c)
      (by simp)
    rw [hChar, List.cons_append, List.cons.injEq] at h
    have hLe := le_of_mem_utf8EncodeChar (b := first) (Nat.le_of_not_lt hNot) (by simp [hChar])
    rw [h.1] at hLe
    omega
  rw [utf8EncodeChar_of_lt hLt, List.singleton_append, List.cons.injEq] at h
  refine ⟨?_, h.2⟩
  rw [← h.1, UInt8.toNat_ofNat_of_lt' (show _ < 256 by omega), Char.ofNat_toNat]

/-- A character of the encoding of a text is one of the text that is not escaped, or belongs to an
escape. -/
theorem mem_encode (h : c ∈ encode escapes text) : c ∈ text ∨ ∃ b, c ∈ percentByte b := by
  obtain ⟨b, hb, hc⟩ := List.mem_flatMap.1 h
  obtain ⟨d, hd, hb⟩ := List.mem_flatMap.1 hb
  unfold encodeByte at hc
  dsimp only at hc
  split at hc
  · next hKept =>
    rw [Bool.and_eq_true, decide_eq_true_eq, UInt8.lt_iff_toNat_lt] at hKept
    have hLt : d.toNat < 0x80 := by
      by_contra hNot
      have := le_of_mem_utf8EncodeChar (by omega) hb
      exact absurd hKept.1 (by simpa using this)
    rw [utf8EncodeChar_of_lt hLt, List.mem_singleton] at hb
    have hChar : Char.ofNat b.toNat = d := by
      rw [hb, UInt8.toNat_ofNat_of_lt' (show _ < 256 by omega), Char.ofNat_toNat]
    rw [List.mem_singleton.1 hc, hChar]
    exact .inl hd
  · exact .inr ⟨b, hc⟩

theorem sparesPercent_path : SparesPercent escapesInPath :=
  List.all_iff_forall_prop.1 (by decide)

theorem sparesPercent_query : SparesPercent escapesInSpecialQuery :=
  List.all_iff_forall_prop.1 (by decide)

theorem sparesPercent_fragment : SparesPercent escapesInFragment :=
  List.all_iff_forall_prop.1 (by decide)

/-- The escapes keep blanks and controls out. -/
def EscapesBlanks (escapes : Char → Bool) : Prop := ∀ n < 0x21, escapes (Char.ofNat n) = true

instance (escapes : Char → Bool) : Decidable (EscapesBlanks escapes) :=
  inferInstanceAs (Decidable (∀ n < 0x21, escapes (Char.ofNat n) = true))

theorem EscapesBlanks.lt (hBlanks : EscapesBlanks escapes) (h : isWritten escapes c = true) :
    0x20 < c.toNat := by
  by_contra hNot
  have hEscaped := hBlanks c.toNat (by omega)
  rw [Char.ofNat_toNat] at hEscaped
  simp [isWritten, hEscaped] at h

theorem ne_of_isWritten {d : Char} (h : isWritten escapes c = true) (hd : escapes d = true) :
    c ≠ d := by
  rintro rfl
  simp [isWritten, hd] at h

theorem escapesBlanks_path : EscapesBlanks escapesInPath := by decide

theorem escapesBlanks_query : EscapesBlanks escapesInSpecialQuery := by decide

theorem escapesBlanks_fragment : EscapesBlanks escapesInFragment := by decide

/-! ## Decoding -/

theorem decode_percentByte (b : UInt8) (rest : List Char) :
    decode (percentByte b ++ rest) = b :: decode rest := by
  have hLt := UInt8.toNat_lt b
  simp only [percentByte, List.cons_append, List.nil_append]
  rw [decode, hexValue?_hexDigit (by omega), hexValue?_hexDigit (by omega)]
  simp only [Nat.div_add_mod']
  rw [Nat.toUInt8, UInt8.ofNat_toNat]

theorem decode_cons (hc : c ≠ '%') (rest : List Char) :
    decode (c :: rest) = String.utf8EncodeChar c ++ decode rest := by
  rw [decode]
  rintro h l rest' hEq
  exact absurd hEq hc

/-- Decoding undoes an encoding that escapes the percent signs among the bytes, if there are any. -/
theorem decode_encodeBytes (h : 0x25 ∈ bytes → escapes '%' = true) :
    decode (encodeBytes escapes bytes) = bytes := by
  induction bytes with
  | nil => rfl
  | cons b rest ih =>
    have hRest := ih fun hMem => h (List.mem_cons_of_mem _ hMem)
    have hCons : encodeBytes escapes (b :: rest) =
        encodeByte escapes b ++ encodeBytes escapes rest := List.flatMap_cons
    rw [hCons, encodeByte]
    split
    · next hKept =>
      rw [Bool.and_eq_true, decide_eq_true_eq, UInt8.lt_iff_toNat_lt] at hKept
      have hChar := toNat_ofNat_of_lt hKept.1
      have hNot : Char.ofNat b.toNat ≠ '%' := by
        intro hEq
        have hPercent : b = 0x25 := by
          rw [← UInt8.toNat_inj, ← hChar, hEq]
          rfl
        rw [hEq, h (by simp [hPercent])] at hKept
        simp at hKept
      rw [List.singleton_append, decode_cons hNot, utf8EncodeChar_of_lt (hChar.symm ▸ hKept.1),
        hChar, UInt8.ofNat_toNat, hRest, List.singleton_append]
    · rw [decode_percentByte, hRest]

end ModuleLoader.Url
