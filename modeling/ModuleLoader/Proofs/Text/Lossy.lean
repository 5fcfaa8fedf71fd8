import Mathlib.Algebra.GroupWithZero.Nat
import ModuleLoader.Proofs.Text.Utf8
import ModuleLoader.Proofs.Url.Encode

/-! The closest text of bytes that may be malformed.  A byte of ASCII ends what is unfinished before
it and stands for itself, and no other byte leads to its character. -/

namespace ModuleLoader.Text.Utf8

variable {b : UInt8} {bytes rest : List UInt8} {pending : Option Pending} {state state' : Pending}
  {c : Char} {text : List Char}

/-- Whatever the bytes are that are still owed, they are past ASCII, and so is the character. -/
structure Pending.IsLate (state : Pending) : Prop where
  low : 0x80 ≤ state.low.toNat
  least : 0x80 ≤ (state.value * 64 + (state.low.toNat - 0x80)) * 64 ^ (state.owed - 1)

/-- The character is one of ASCII, but not the one of number zero. -/
def IsPlain (c : Char) : Prop := 0 < c.toNat ∧ c.toNat < 0x80

theorem not_isPlain_ofNat {n : Nat} (h : 0x80 ≤ n) : ¬IsPlain (Char.ofNat n) := by
  rintro ⟨hZero, hLt⟩
  by_cases hValid : n.isValidChar
  · have hNat := Url.toNat_ofNat_of_isValidChar hValid
    omega
  · have hNull : (Char.ofNat n).toNat = 0 := congrArg Char.toNat (dif_neg hValid)
    omega

theorem isLate_of_first (h : first b = .pending state) : state.IsLate := by
  have hAll : ∀ n : Fin 256, (match first (UInt8.ofNat n) with
      | .pending s => decide (0x80 ≤ s.low.toNat ∧
          0x80 ≤ (s.value * 64 + (s.low.toNat - 0x80)) * 64 ^ (s.owed - 1))
      | _ => true) = true := by decide +kernel
  have hByte := hAll ⟨b.toNat, UInt8.toNat_lt b⟩
  simp only [UInt8.ofNat_toNat, h, decide_eq_true_eq] at hByte
  exact ⟨hByte.1, hByte.2⟩

theorem first_of_lt (h : b < 0x80) : first b = .character (Char.ofNat b.toNat) :=
  first_one (UInt8.lt_iff_toNat_lt.1 h)

namespace Pending.IsLate

variable (h : state.IsLate)
include h

theorem next?_eq_none (hb : b < 0x80) : state.next? b = none := by
  have hLow := h.low
  have hLt : b.toNat < 0x80 := UInt8.lt_iff_toNat_lt.1 hb
  have hNot : ¬state.low ≤ b := by
    rw [UInt8.le_iff_toNat_le]
    omega
  simp [next?, hNot]

theorem next (hNext : state.next? b = some (.pending state')) : state'.IsLate := by
  unfold next? at hNext
  split at hNext
  · next hRange =>
    dsimp only at hNext
    split at hNext
    · cases hNext
    · next hOwed =>
      cases hNext
      have hLow : state.low.toNat ≤ b.toNat :=
        UInt8.le_iff_toNat_le.1 (by simpa using (Bool.and_eq_true_iff.1 hRange).1)
      have hPower : 64 ^ (state.owed - 1) = 64 * 64 ^ (state.owed - 1 - 1) := by
        rw [show state.owed - 1 = state.owed - 1 - 1 + 1 by omega, Nat.pow_succ, Nat.mul_comm]
        rfl
      have hLeast := h.least
      rw [hPower, ← Nat.mul_assoc] at hLeast
      refine ⟨Nat.le_refl _, Nat.le_trans hLeast (Nat.mul_le_mul_right _ ?_)⟩
      show _ ≤ (state.value * 64 + (b.toNat - 0x80)) * 64 + (0x80 - 0x80)
      omega
  · cases hNext

theorem not_isPlain (hNext : state.next? b = some (.character c)) : ¬IsPlain c := by
  unfold next? at hNext
  split at hNext
  · next hRange =>
    dsimp only at hNext
    split at hNext
    · next hOwed =>
      have hChar : Char.ofNat (state.value * 64 + (b.toNat - 0x80)) = c := by
        simpa using hNext
      have hLow : state.low.toNat ≤ b.toNat :=
        UInt8.le_iff_toNat_le.1 (by simpa using (Bool.and_eq_true_iff.1 hRange).1)
      have hLeast := h.least
      rw [show state.owed - 1 = 0 by omega, Nat.pow_zero, Nat.mul_one] at hLeast
      rw [← hChar]
      exact not_isPlain_ofNat (by omega)
    · cases hNext
  · cases hNext

end Pending.IsLate

/-! ## A byte of ASCII -/

theorem isLate_of_read (hPending : ∀ state ∈ pending, state.IsLate) :
    ∀ state ∈ (read b pending).2, state.IsLate := by
  have hFirst : ∀ state ∈ (first b).parts.2, state.IsLate := by
    intro state hState
    cases hStep : first b with
    | character | malformed => simp [hStep, Step.parts] at hState
    | pending found =>
      obtain rfl : found = state := by simpa [hStep, Step.parts] using hState
      exact isLate_of_first hStep
  unfold read
  split
  · exact hFirst
  · next found =>
    split
    · next step hStep =>
      cases step with
      | character | malformed => simp [Step.parts]
      | pending following => simpa [Step.parts] using (hPending found rfl).next hStep
    · exact hFirst

theorem eq_of_mem_read (hPending : ∀ state ∈ pending, state.IsLate) (hc : IsPlain c)
    (h : some c ∈ (read b pending).1) : UInt8.ofNat c.toNat = b := by
  have hFirst : some c ∈ (first b).parts.1 → UInt8.ofNat c.toNat = b := by
    intro hMem
    by_cases hLt : b < 0x80
    · obtain rfl : c = Char.ofNat b.toNat := by simpa [first_of_lt hLt, Step.parts] using hMem
      rw [Url.toNat_ofNat_of_lt (UInt8.lt_iff_toNat_lt.1 hLt), UInt8.ofNat_toNat]
    · exfalso
      unfold first at hMem
      rw [if_neg hLt] at hMem
      repeat' split at hMem
      all_goals simp [Step.parts] at hMem
  unfold read at h
  split at h
  · exact hFirst h
  · next found =>
    split at h
    · next step hStep =>
      cases step with
      | character d =>
        obtain rfl : c = d := by simpa [Step.parts] using h
        exact absurd hc ((hPending found rfl).not_isPlain hStep)
      | malformed | pending => simp [Step.parts] at h
    · exact hFirst (by simpa using h)

/-- What is unfinished before a byte of ASCII is malformed, and the byte stands for itself. -/
theorem charactersFrom_append (hPending : ∀ state ∈ pending, state.IsLate) (hb : b < 0x80)
    (bytes rest : List UInt8) : charactersFrom pending (bytes ++ b :: rest) =
      charactersFrom pending bytes ++ some (Char.ofNat b.toNat) :: charactersFrom none rest := by
  induction bytes generalizing pending with
  | nil =>
    cases pending with
    | none => simp [charactersFrom_cons, read, first_of_lt hb, Step.parts, charactersFrom]
    | some state =>
      have hNone := (hPending state rfl).next?_eq_none hb
      simp [charactersFrom_cons, read, hNone, first_of_lt hb, Step.parts, charactersFrom]
  | cons d bytes ih =>
    rw [List.cons_append, charactersFrom_cons, charactersFrom_cons, ih (isLate_of_read hPending),
      List.append_assoc]

theorem mem_of_mem_charactersFrom (hPending : ∀ state ∈ pending, state.IsLate) (hc : IsPlain c)
    (h : some c ∈ charactersFrom pending bytes) : UInt8.ofNat c.toNat ∈ bytes := by
  induction bytes generalizing pending with
  | nil => cases pending <;> simp [charactersFrom] at h
  | cons d bytes ih =>
    rw [charactersFrom_cons, List.mem_append] at h
    rcases h with hRead | hRest
    · exact List.mem_cons.2 (.inl (eq_of_mem_read hPending hc hRead))
    · exact List.mem_cons_of_mem _ (ih (isLate_of_read hPending) hRest)

theorem charactersFrom_ne_nil (h : bytes ≠ [] ∨ pending ≠ none) :
    charactersFrom pending bytes ≠ [] := by
  induction bytes generalizing pending with
  | nil =>
    cases pending with
    | none => simp at h
    | some state => simp [charactersFrom]
  | cons d bytes ih =>
    rw [charactersFrom_cons]
    intro hNil
    obtain ⟨hRead, hRest⟩ := List.append_eq_nil_iff.1 hNil
    refine ih (.inr fun hNone => ?_) hRest
    -- a byte that completes nothing leaves something unfinished
    have hParts : ∀ step : Step, step.parts.1 = [] → step.parts.2 ≠ none := by
      intro step hStep
      cases step <;> simp [Step.parts] at hStep ⊢
    cases pending with
    | none => exact hParts _ hRead hNone
    | some state =>
      cases hStep : state.next? d with
      | none => simp [read, hStep] at hRead
      | some step =>
        simp only [read, hStep] at hRead hNone
        exact hParts _ hRead hNone

/-! ## The closest text -/

theorem decodeLossy_append (hb : b < 0x80) (bytes rest : List UInt8) :
    decodeLossy (bytes ++ b :: rest) =
      decodeLossy bytes ++ Char.ofNat b.toNat :: decodeLossy rest := by
  have hNone : ∀ state ∈ (none : Option Pending), state.IsLate := nofun
  simp only [decodeLossy, characters, charactersFrom_append hNone hb, List.map_append,
    List.map_cons, Option.getD_some]

theorem mem_of_mem_decodeLossy (hc : IsPlain c) (h : c ∈ decodeLossy bytes) :
    UInt8.ofNat c.toNat ∈ bytes := by
  obtain ⟨found, hFound, hEq⟩ := List.mem_map.1 h
  cases found with
  | none =>
    rw [← hEq] at hc
    exact absurd hc.2 (by decide)
  | some d =>
    obtain rfl : d = c := hEq
    exact mem_of_mem_charactersFrom (by simp) hc hFound

theorem decodeLossy_eq_nil (h : decodeLossy bytes = []) : bytes = [] := by
  by_contra hSome
  exact charactersFrom_ne_nil (.inl hSome) (List.map_eq_nil_iff.1 h)

/-- Only its own bytes are shown as a text in ASCII. -/
theorem eq_of_decodeLossy (h : decodeLossy bytes = text) (hText : ∀ c ∈ text, IsPlain c) :
    bytes = text.map fun c => UInt8.ofNat c.toNat := by
  induction text generalizing bytes with
  | nil => exact decodeLossy_eq_nil h
  | cons c text ih =>
    obtain ⟨hc, hRest⟩ := List.forall_mem_cons.1 hText
    have hMem := mem_of_mem_decodeLossy hc (h ▸ List.mem_cons_self)
    obtain ⟨front, rest, rfl, hNot⟩ := List.eq_append_cons_of_mem hMem
    have hByte : (UInt8.ofNat c.toNat).toNat = c.toNat :=
      UInt8.toNat_ofNat_of_lt' (show _ < 256 from Nat.lt_trans hc.2 (by decide))
    have hLt : UInt8.ofNat c.toNat < 0x80 := by
      rw [UInt8.lt_iff_toNat_lt, hByte]
      exact hc.2
    rw [decodeLossy_append hLt, hByte, Char.ofNat_toNat] at h
    -- the first byte of the character is the first byte of all
    have hFront : decodeLossy front = [] := by
      cases hShown : decodeLossy front with
      | nil => rfl
      | cons d shown =>
        rw [hShown, List.cons_append, List.cons.injEq] at h
        have hd : d ∈ decodeLossy front := by simp [hShown]
        rw [h.1] at hd
        exact absurd (mem_of_mem_decodeLossy hc hd) hNot
    obtain rfl := decodeLossy_eq_nil hFront
    rw [hFront, List.nil_append, List.cons.injEq] at h
    rw [List.nil_append, List.map_cons, ih h.2 hRest]

end ModuleLoader.Text.Utf8
