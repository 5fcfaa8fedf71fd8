import ModuleLoader.Proofs.File.Names
import ModuleLoader.Proofs.Text.Lossy

/-! Paths under the text that they are shown by.  The slashes of a path stay where they are, and no
piece comes to stand for another directory, even where a name is no text. -/

namespace ModuleLoader

open Text.Utf8 (encode decodeLossy)

namespace FilePath

variable {p : FilePath} {bytes a : List UInt8} {b : UInt8} {text : List Char}

theorem bytes_ofString_text (p : FilePath) :
    (ofString p.text).bytes = encode (decodeLossy p.bytes) := by
  simp [ofString, FilePath.text, Text.Utf8.ofString]

/-- A byte of ASCII in the encoding of a text is a character of it. -/
theorem mem_of_mem_encode (hb : b.toNat < 0x80) (h : b ∈ encode text) :
    Char.ofNat b.toNat ∈ text := by
  obtain ⟨c, hc, hByte⟩ := List.mem_flatMap.1 h
  have hLt : c.toNat < 0x80 := by
    by_contra hNot
    have hLe := Url.le_of_mem_utf8EncodeChar (Nat.le_of_not_lt hNot) hByte
    omega
  rw [Url.utf8EncodeChar_of_lt hLt, List.mem_singleton] at hByte
  rw [hByte, UInt8.toNat_ofNat_of_lt' (show _ < 256 by omega), Char.ofNat_toNat]
  exact hc

theorem not_mem_shown (h : slash ∉ bytes) : slash ∉ encode (decodeLossy bytes) := by
  intro hMem
  have hChar : '/' ∈ decodeLossy bytes := mem_of_mem_encode (by decide) hMem
  have hPlain : Text.Utf8.IsPlain '/' := ⟨by decide, by decide⟩
  exact h (Text.Utf8.mem_of_mem_decodeLossy hPlain hChar)

theorem shown_append_slash (a bytes : List UInt8) :
    encode (decodeLossy (a ++ slash :: bytes)) =
      encode (decodeLossy a) ++ slash :: encode (decodeLossy bytes) := by
  have hSlash : encode [Char.ofNat slash.toNat] = [slash] := by decide
  rw [Text.Utf8.decodeLossy_append (by decide)]
  simp only [encode, List.flatMap_append, List.flatMap_cons, List.flatMap_nil, List.append_nil]
    at hSlash ⊢
  rw [hSlash, List.singleton_append]

theorem pieces_shown (bytes : List UInt8) :
    pieces (encode (decodeLossy bytes)) =
      (pieces bytes).map fun piece => encode (decodeLossy piece) := by
  induction hLength : bytes.length using Nat.strong_induction_on generalizing bytes with
  | _ n ih =>
    by_cases hSlash : slash ∈ bytes
    · obtain ⟨front, rest, rfl, hNot⟩ := List.eq_append_cons_of_mem hSlash
      have hRest := ih rest.length (by simp [← hLength]; omega) rest rfl
      rw [shown_append_slash, pieces_append_slash, pieces_append_slash, hRest,
        pieces_of_not_mem hNot, pieces_of_not_mem (not_mem_shown hNot)]
      rfl
    · rw [pieces_of_not_mem hSlash, pieces_of_not_mem (not_mem_shown hSlash)]
      rfl

theorem isAbsolute_shown (h : p.isAbsolute = true) : (ofString p.text).isAbsolute = true := by
  obtain ⟨rest, hBytes⟩ := isAbsolute_iff.1 h
  rw [isAbsolute_iff, bytes_ofString_text, hBytes, ← List.nil_append (slash :: rest),
    shown_append_slash]
  exact ⟨_, rfl⟩

theorem names_shown (h : p.isAbsolute = true) : (ofString p.text).names =
    used ((pieces p.bytes).map fun piece => encode (decodeLossy piece)) := by
  rw [names_of_isAbsolute (isAbsolute_shown h), bytes_ofString_text, pieces_shown]

/-- A path that does not go up is not shown as one that does. -/
theorem not_up_shown (h : p.isAbsolute = true) (hUp : [dot, dot] ∉ p.names) :
    [dot, dot] ∉ (ofString p.text).names := by
  rw [names_shown h]
  intro hMem
  obtain ⟨piece, hPiece, hShown⟩ := List.mem_map.1 (List.mem_filter.1 hMem).1
  have hText : decodeLossy piece = ['.', '.'] := by
    rw [← Text.Utf8.decodeLossy_encode (decodeLossy piece), hShown]
    decide
  have hPlain : ∀ c ∈ ['.', '.'], Text.Utf8.IsPlain c := by
    simp only [List.mem_cons, List.not_mem_nil, or_false, or_self, forall_eq]
    exact ⟨by decide, by decide⟩
  have hDots : piece = [dot, dot] := Text.Utf8.eq_of_decodeLossy hText hPlain
  rw [hDots] at hPiece
  rw [names_of_isAbsolute h] at hUp
  exact hUp (List.mem_filter.2 ⟨hPiece, by decide⟩)

/-! ## Names that are texts -/

/-- The names of a text are texts. -/
theorem IsText.exists_of_mem_names {name : FileName} (hText : p.IsText)
    (h : p.isAbsolute = true) (hName : name ∈ p.names) :
    ∃ text : String, name = Text.Utf8.ofString text := by
  rw [← hText.ofString_text, names_shown h] at hName
  obtain ⟨piece, -, hShown⟩ := List.mem_map.1 (List.mem_filter.1 hName).1
  refine ⟨String.ofList (decodeLossy piece), ?_⟩
  rw [← hShown, Text.Utf8.ofString, String.toList_ofList]

/-- Names that are texts are shown as they are. -/
theorem names_shown_eq (h : p.isAbsolute = true)
    (hTexts : ∀ name ∈ p.names, ∃ text : String, name = Text.Utf8.ofString text) :
    (ofString p.text).names = p.names := by
  have hIdle : ∀ piece, isIdle piece = true → encode (decodeLossy piece) = piece := by
    intro piece hIdle
    have hCases : piece = [] ∨ piece = [dot] := by simpa [isIdle] using hIdle
    rcases hCases with rfl | rfl <;> decide
  have hPieces : (pieces p.bytes).map (fun piece => encode (decodeLossy piece)) =
      pieces p.bytes := by
    refine (List.map_congr_left fun piece hPiece => ?_).trans (List.map_id _)
    by_cases hUsed : isIdle piece = true
    · exact hIdle piece hUsed
    · have hName : piece ∈ p.names := by
        rw [names_of_isAbsolute h]
        exact List.mem_filter.2 ⟨hPiece, by simpa using hUsed⟩
      obtain ⟨text, rfl⟩ := hTexts piece hName
      exact congrArg encode (Text.Utf8.decodeLossy_encode text.toList)
  rw [names_shown h, hPieces, names_of_isAbsolute h]

end FilePath

end ModuleLoader
