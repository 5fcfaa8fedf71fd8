import Mathlib.Data.List.Induction
import Mathlib.Data.List.Nodup
import ModuleLoader.Text.Split

/-! Cutting texts, and the first of the items at each distinct value as the library's
`eraseDups`. -/

namespace ModuleLoader.Text

variable {sep c : Char} {text piece : List Char}

/-- A fact about all characters of a text is decided along the text, not along all characters that
there are. -/
instance decidableForallMem {p : Char → Prop} [DecidablePred p] : Decidable (∀ c ∈ text, p c) :=
  List.decidableBAll p text

theorem splitOn_of_not_mem (h : sep ∉ text) : splitOn sep text = [text] := by
  induction text with
  | nil => rfl
  | cons c rest ih =>
    rw [List.mem_cons, not_or] at h
    simp [splitOn, Ne.symm h.1, ih h.2]

theorem splitOn_append_sep (h : sep ∉ text) (rest : List Char) :
    splitOn sep (text ++ sep :: rest) = text :: splitOn sep rest := by
  induction text with
  | nil => simp [splitOn]
  | cons c text ih =>
    rw [List.mem_cons, not_or] at h
    simp [splitOn, Ne.symm h.1, ih h.2]

/-- A text without separators stands behind the last piece. -/
theorem splitOn_append {tail : List Char} (h : sep ∉ tail) (text : List Char) :
    ∃ front last, splitOn sep text = front ++ [last] ∧
      splitOn sep (text ++ tail) = front ++ [last ++ tail] := by
  induction text with
  | nil => exact ⟨[], [], rfl, splitOn_of_not_mem h⟩
  | cons c rest ih =>
    obtain ⟨front, last, hRest, hLonger⟩ := ih
    by_cases hc : c = sep
    · exact ⟨[] :: front, last, by simp [splitOn, hc, hRest], by simp [splitOn, hc, hLonger]⟩
    · cases front with
      | nil =>
        exact ⟨[], c :: last, by simp [splitOn, hc, hRest], by simp [splitOn, hc, hLonger]⟩
      | cons piece front =>
        refine ⟨(c :: piece) :: front, last, ?_, ?_⟩
        · simp [splitOn, hc, hRest]
        · simp [splitOn, hc, hLonger]

/-- The pieces behind a separator each are the text behind one. -/
theorem flatMap_splitOn (sep : Char) (text : List Char) :
    (splitOn sep text).flatMap (sep :: ·) = sep :: text := by
  induction text with
  | nil => rfl
  | cons c rest ih =>
    obtain ⟨first, more, hSplit⟩ := List.exists_cons_of_ne_nil (splitOn_ne_nil sep rest)
    rw [hSplit, List.flatMap_cons, List.cons_append, List.cons.injEq] at ih
    by_cases hc : c = sep
    · simp [splitOn, hc, hSplit, ih.2]
    · simp [splitOn, hc, hSplit, ih.2]

/-- A piece has characters of the text, but no separator. -/
theorem mem_of_mem_splitOn (hPiece : piece ∈ splitOn sep text) (hc : c ∈ piece) :
    c ∈ text ∧ c ≠ sep := by
  induction text generalizing piece with
  | nil =>
    rw [splitOn, List.mem_singleton] at hPiece
    simp [hPiece] at hc
  | cons d rest ih =>
    have hRest : ∀ piece ∈ splitOn sep rest, c ∈ piece → c ∈ d :: rest ∧ c ≠ sep :=
      fun piece hPiece hc => (ih hPiece hc).imp_left (List.mem_cons_of_mem d)
    obtain ⟨first, more, hSplit⟩ := List.exists_cons_of_ne_nil (splitOn_ne_nil sep rest)
    by_cases hd : d = sep
    · rw [splitOn, if_pos hd, List.mem_cons] at hPiece
      rcases hPiece with rfl | hPiece
      · cases hc
      · exact hRest piece hPiece hc
    · simp only [splitOn, if_neg hd, hSplit, List.mem_cons] at hPiece
      rcases hPiece with rfl | hPiece
      · rcases List.mem_cons.1 hc with rfl | hc
        · exact ⟨List.mem_cons_self, hd⟩
        · exact hRest first (by simp [hSplit]) hc
      · exact hRest piece (by simp [hSplit, hPiece]) hc

section Distinct

variable {α : Type} [DecidableEq α] {a : α} {items : List α}

theorem distinct_concat (items : List α) (a : α) :
    distinct (items ++ [a]) =
      if a ∈ distinct items then distinct items else distinct items ++ [a] := by
  unfold distinct
  rw [List.foldl_append, List.foldl_cons, List.foldl_nil]

theorem eraseDups_concat (items : List α) (a : α) :
    (items ++ [a]).eraseDups =
      if a ∈ items then items.eraseDups else items.eraseDups ++ [a] := by
  rw [List.eraseDups_append]
  by_cases ha : a ∈ items <;> simp [List.removeAll, ha, List.eraseDups_cons]

theorem eraseDups_of_nodup (h : items.Nodup) : items.eraseDups = items := by
  induction items using List.reverseRecOn with
  | nil => rfl
  | append_singleton items a ih =>
    obtain ⟨hItems, -, hDisjoint⟩ := List.nodup_append.1 h
    have ha : a ∉ items := fun hMem => hDisjoint a hMem a (List.mem_singleton_self a) rfl
    rw [eraseDups_concat, if_neg ha, ih hItems]

theorem distinct_eq_eraseDups (items : List α) : distinct items = items.eraseDups := by
  induction items using List.reverseRecOn with
  | nil => rfl
  | append_singleton items a ih =>
    rw [distinct_concat, eraseDups_concat, ih]
    simp only [List.mem_eraseDups]

theorem nodup_distinct (items : List α) : (distinct items).Nodup := by
  induction items using List.reverseRecOn with
  | nil => exact List.nodup_nil
  | append_singleton items a ih =>
    rw [distinct_concat]
    split
    · exact ih
    · next ha =>
      refine List.nodup_append.2 ⟨ih, by simp, fun b hb c hc hEq => ha ?_⟩
      rw [← List.mem_singleton.1 hc, ← hEq]
      exact hb

theorem nodup_eraseDups (items : List α) : items.eraseDups.Nodup :=
  distinct_eq_eraseDups items ▸ nodup_distinct items

/-- An item that stands next to itself is counted once. -/
theorem distinct_append_double (front : List α) (a : α) (back : List α) :
    distinct (front ++ a :: a :: back) = distinct (front ++ a :: back) := by
  have hDouble : distinct (front ++ [a] ++ [a]) = distinct (front ++ [a]) := by
    simp only [distinct_eq_eraseDups]
    rw [eraseDups_concat, if_pos (by simp)]
  have hFold : ∀ start : List α, distinct (start ++ back) =
      back.foldl (fun found b => if b ∈ found then found else found ++ [b]) (distinct start) :=
    fun start => List.foldl_append
  calc
    distinct (front ++ a :: a :: back) = distinct (front ++ [a] ++ [a] ++ back) := by simp
    _ = distinct (front ++ [a] ++ back) := by rw [hFold, hFold, hDouble]
    _ = distinct (front ++ a :: back) := by simp

theorem distinct_map {β : Type} [DecidableEq β] {f : α → β} (hf : Function.Injective f)
    (items : List α) : distinct (items.map f) = (distinct items).map f := by
  induction items using List.reverseRecOn with
  | nil => rfl
  | append_singleton items a ih =>
    rw [List.map_append, List.map_singleton, distinct_concat, distinct_concat, ih]
    simp only [List.mem_map_of_injective hf]
    split
    · rfl
    · rw [List.map_append, List.map_singleton]

end Distinct

end ModuleLoader.Text
