import ModuleLoader.Text.Utf8
import Mathlib.Data.List.Basic

/-! The bytes of a text read back as that text, with nothing malformed among them. -/

namespace ModuleLoader.Text.Utf8

variable {value d : Nat} {b low high : UInt8} {rest : List UInt8}

theorem charactersFrom_cons (pending : Option Pending) :
    charactersFrom pending (b :: rest) =
      (read b pending).1 ++ charactersFrom (read b pending).2 rest := by
  cases pending <;> rfl

theorem charactersFrom_character {c : Char} (h : first b = .character c) :
    charactersFrom none (b :: rest) = some c :: charactersFrom none rest := by
  simp only [charactersFrom_cons, read, h, Step.parts, List.singleton_append]

theorem charactersFrom_pending {state : Pending} (h : first b = .pending state) :
    charactersFrom none (b :: rest) = charactersFrom (some state) rest := by
  simp only [charactersFrom_cons, read, h, Step.parts, List.nil_append]

/-- The six bits `d` of the byte come behind the ones of the bytes before it. -/
theorem charactersFrom_next (owed : Nat) (hByte : b.toNat = d + 128) (hLow : low.toNat ≤ d + 128)
    (hHigh : d + 128 ≤ high.toNat) :
    charactersFrom (some ⟨owed + 2, value, low, high⟩) (b :: rest) =
      charactersFrom (some ⟨owed + 1, value * 64 + d, 0x80, 0xBF⟩) rest := by
  simp [charactersFrom_cons, read, Pending.next?, UInt8.le_iff_toNat_le, hByte, hLow, hHigh,
    Step.parts]

theorem charactersFrom_last (hByte : b.toNat = d + 128) (hLow : low.toNat ≤ d + 128)
    (hHigh : d + 128 ≤ high.toNat) :
    charactersFrom (some ⟨1, value, low, high⟩) (b :: rest) =
      some (Char.ofNat (value * 64 + d)) :: charactersFrom none rest := by
  simp [charactersFrom_cons, read, Pending.next?, UInt8.le_iff_toNat_le, hByte, hLow, hHigh,
    Step.parts]

/-! The first byte of a character of one to four bytes. -/

theorem first_one (h : b.toNat < 128) : first b = .character (Char.ofNat b.toNat) := by
  simp [first, UInt8.lt_iff_toNat_lt, h]

theorem first_two (hByte : b.toNat = d + 192) (hLow : 2 ≤ d) (hHigh : d < 32) :
    first b = .pending ⟨1, d, 0x80, 0xBF⟩ := by
  simp [first, UInt8.lt_iff_toNat_lt, hByte, show ¬d + 192 < 194 by omega,
    show d + 192 < 224 by omega]

theorem first_three (hByte : b.toNat = d + 224) (hHigh : d < 16) :
    first b =
      .pending ⟨2, d, if d = 0 then 0xA0 else 0x80, if d = 13 then 0x9F else 0xBF⟩ := by
  simp [first, UInt8.lt_iff_toNat_lt, ← UInt8.toNat_inj, hByte, show ¬d + 224 < 128 by omega,
    show ¬d + 224 < 194 by omega, show d + 224 < 240 by omega]

theorem first_four (hByte : b.toNat = d + 240) (hHigh : d < 5) :
    first b =
      .pending ⟨3, d, if d = 0 then 0x90 else 0x80, if d = 4 then 0x8F else 0xBF⟩ := by
  simp [first, UInt8.lt_iff_toNat_lt, ← UInt8.toNat_inj, hByte, show ¬d + 240 < 128 by omega,
    show ¬d + 240 < 194 by omega, show ¬d + 240 < 224 by omega, show d + 240 < 245 by omega]

/-- The bytes of one character. -/
theorem charactersFrom_encodeChar (c : Char) (rest : List UInt8) :
    charactersFrom none (String.utf8EncodeChar c ++ rest) = some c :: charactersFrom none rest := by
  have hValid : c.toNat < 0xD800 ∨ 0xDFFF < c.toNat ∧ c.toNat < 0x110000 := c.valid
  have hChar : Char.ofNat c.toNat = c := Char.ofNat_toNat c
  have hByte : ∀ {k : Nat}, k < 256 → (UInt8.ofNat k).toNat = k := UInt8.toNat_ofNat_of_lt'
  have hTop : (0xBF : UInt8).toNat = 0x3F + 128 := rfl
  simp only [String.utf8EncodeChar, show c.val.toNat = c.toNat from rfl]
  generalize c.toNat = n at hValid hChar
  -- The bounds behind the first byte keep out surrogates and what has a shorter form.
  split
  · next hOne =>
    have hSelf : (UInt8.ofNat n).toNat = n := hByte (by omega)
    rw [List.singleton_append, charactersFrom_character (first_one (by omega)), hSelf, hChar]
  split
  · next hTwo =>
    simp only [List.cons_append, List.nil_append]
    rw [charactersFrom_pending (first_two (hByte (by omega)) (by omega) (by omega)),
      charactersFrom_last (hByte (by omega)) (Nat.le_add_left ..) (by omega),
      show n / 64 % 32 * 64 + n % 64 = n by omega, hChar]
  split
  · next hThree =>
    simp only [List.cons_append, List.nil_append]
    rw [charactersFrom_pending (first_three (hByte (by omega)) (by omega)),
      charactersFrom_next 0 (hByte (by omega)) (by split <;> simp; omega)
        (by split <;> simp <;> omega),
      charactersFrom_last (hByte (by omega)) (Nat.le_add_left ..) (by omega),
      show (n / 4096 % 16 * 64 + n / 64 % 64) * 64 + n % 64 = n by omega, hChar]
  · next hFour =>
    simp only [List.cons_append, List.nil_append]
    rw [charactersFrom_pending (first_four (hByte (by omega)) (by omega)),
      charactersFrom_next 1 (hByte (by omega)) (by split <;> simp; omega)
        (by split <;> simp <;> omega),
      charactersFrom_next 0 (hByte (by omega)) (Nat.le_add_left ..) (by omega),
      charactersFrom_last (hByte (by omega)) (Nat.le_add_left ..) (by omega),
      show ((n / 262144 % 8 * 64 + n / 4096 % 64) * 64 + n / 64 % 64) * 64 + n % 64 = n by omega,
      hChar]

/-- The bytes of a text encode its characters and nothing else. -/
theorem characters_encode (text : List Char) : characters (encode text) = text.map some := by
  unfold characters encode
  induction text with
  | nil => rfl
  | cons c text ih => rw [List.flatMap_cons, charactersFrom_encodeChar, ih, List.map_cons]

theorem decodeLossy_encode (text : List Char) : decodeLossy (encode text) = text := by
  rw [decodeLossy, characters_encode, List.map_map]
  exact List.map_id text

end ModuleLoader.Text.Utf8
