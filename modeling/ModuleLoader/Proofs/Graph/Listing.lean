import ModuleLoader.Graph
import Mathlib.Algebra.GroupWithZero.Nat
import Mathlib.Data.List.Nodup
import Mathlib.Data.List.Perm.Subperm
import Mathlib.Data.List.TakeWhile
import Mathlib.Logic.Relation

/-! The listing of a graph as a relation without fuel: a module that was opened before gets a line,
and any other one gets a line with its imports below it.  The relation determines the lines, whose
number, order and URLs can be read off it, and the listing that runs obeys it. -/

namespace ModuleLoader.Graph

/-- The line of a module, if there is one. -/
def lineOf? (modules : List Module) (depth : Nat) (entry : Option String × ModuleId) :
    Option GraphLine :=
  modules[entry.2]?.map fun m => ⟨depth, entry.1, m.url, m.kind⟩

/-- The imports of a module in the order of its table. -/
def importsOf (modules : List Module) (id : ModuleId) : List (Option String × ModuleId) :=
  let table := (modules[id]?.bind Module.static?).bind (·.imports)
  ((table.map (·.entries)).getD []).map fun (specifier, id) => (some specifier, id)

def urlOf (modules : List Module) (id : ModuleId) : String := (modules[id]?.map Module.url).getD ""

/-- The entries of a list at one depth give lines and open modules, when the modules in `seen` have
been opened before. -/
inductive Listed (modules : List Module) : (depth : Nat) → (seen : List ModuleId) →
    List (Option String × ModuleId) → (lines : List GraphLine) → (opened : List ModuleId) → Prop
  | nil {depth : Nat} {seen : List ModuleId} : Listed modules depth seen [] [] []
  | again {depth : Nat} {seen : List ModuleId} {entry : Option String × ModuleId}
      {rest : List (Option String × ModuleId)} {line : GraphLine} {lines : List GraphLine}
      {opened : List ModuleId} (hLine : lineOf? modules depth entry = some line)
      (hSeen : entry.2 ∈ seen) (hRest : Listed modules depth seen rest lines opened) :
      Listed modules depth seen (entry :: rest) (line :: lines) opened
  | first {depth : Nat} {seen : List ModuleId} {entry : Option String × ModuleId}
      {rest : List (Option String × ModuleId)} {line : GraphLine} {inner outer : List GraphLine}
      {inside opened : List ModuleId} (hLine : lineOf? modules depth entry = some line)
      (hFresh : entry.2 ∉ seen)
      (hInner : Listed modules (depth + 1) (seen ++ [entry.2]) (importsOf modules entry.2) inner
        inside)
      (hRest : Listed modules depth (seen ++ [entry.2] ++ inside) rest outer opened) :
      Listed modules depth seen (entry :: rest) (line :: (inner ++ outer))
        (entry.2 :: (inside ++ opened))

/-- The first module imports the second one. -/
def IsImport (modules : List Module) (id j : ModuleId) : Prop :=
  ∃ entry ∈ importsOf modules id, entry.2 = j

/-- Modules with URLs of their own whose imports are among them. -/
structure IsSound (modules : List Module) : Prop where
  distinct : (modules.map Module.url).Nodup
  closed : ∀ id, ∀ entry ∈ importsOf modules id, entry.2 < modules.length

/-- Modules that have been opened. -/
structure IsOpened (modules : List Module) (seen : List ModuleId) : Prop where
  nodup : seen.Nodup
  lt : ∀ id ∈ seen, id < modules.length

variable {modules : List Module} {depth : Nat} {seen opened : List ModuleId} {id : ModuleId}
  {entry : Option String × ModuleId} {entries : List (Option String × ModuleId)}
  {line : GraphLine} {lines : List GraphLine}

theorem IsOpened.length_le (h : IsOpened modules seen) : seen.length ≤ modules.length := by
  have hSub : seen ⊆ List.range modules.length := fun id hid => List.mem_range.2 (h.lt id hid)
  simpa using (List.subperm_of_subset h.nodup hSub).length_le

theorem IsOpened.add (h : IsOpened modules seen) (hLt : id < modules.length) (hFresh : id ∉ seen) :
    IsOpened modules (seen ++ [id]) := by
  refine ⟨?_, fun j hj => ?_⟩
  · simpa [List.nodup_append] using ⟨h.nodup, fun j hj hEq => hFresh (hEq ▸ hj)⟩
  · rcases List.mem_append.1 hj with hj | hj
    · exact h.lt j hj
    · rw [List.mem_singleton.1 hj]
      exact hLt

theorem exists_lineOf? (depth : Nat) (h : entry.2 < modules.length) :
    ∃ line, lineOf? modules depth entry = some line :=
  ⟨_, by rw [lineOf?, List.getElem?_eq_getElem h, Option.map_some]⟩

theorem lt_of_lineOf? (h : lineOf? modules depth entry = some line) : entry.2 < modules.length := by
  obtain ⟨m, hm, -⟩ := Option.map_eq_some_iff.1 h
  exact (List.getElem?_eq_some_iff.1 hm).1

theorem depth_of_lineOf? (h : lineOf? modules depth entry = some line) : line.depth = depth := by
  obtain ⟨m, hm, rfl⟩ := Option.map_eq_some_iff.1 h
  rfl

theorem url_of_lineOf? (h : lineOf? modules depth entry = some line) :
    line.url = urlOf modules entry.2 := by
  obtain ⟨m, hm, rfl⟩ := Option.map_eq_some_iff.1 h
  simp [urlOf, hm]

theorem IsSound.urlOf_inj (h : IsSound modules) {j : ModuleId} (hid : id < modules.length)
    (hj : j < modules.length) (hUrl : urlOf modules id = urlOf modules j) : id = j := by
  have hAt : ∀ {k : ModuleId}, k < modules.length →
      (modules.map Module.url)[k]? = some (urlOf modules k) := by
    intro k hk
    simp [urlOf, hk]
  have hLt : id < (modules.map Module.url).length := by simpa using hid
  refine (List.getElem?_inj hLt h.distinct).1 ?_
  rw [hAt hid, hAt hj, hUrl]

theorem IsSound.mem_urls (h : IsSound modules) (hSeen : IsOpened modules seen)
    (hLine : lineOf? modules depth entry = some line) :
    line.url ∈ seen.map (urlOf modules) ↔ entry.2 ∈ seen := by
  rw [url_of_lineOf? hLine, List.mem_map]
  constructor
  · rintro ⟨id, hid, hUrl⟩
    exact h.urlOf_inj (hSeen.lt id hid) (lt_of_lineOf? hLine) hUrl ▸ hid
  · exact fun hMem => ⟨_, hMem, rfl⟩

namespace Listed

theorem isOpened (h : Listed modules depth seen entries lines opened)
    (hSeen : IsOpened modules seen) :
    IsOpened modules (seen ++ opened) := by
  induction h with
  | nil => simpa using hSeen
  | again _ _ _ ih => exact ih hSeen
  | first hLine hFresh _ _ ihInner ihRest =>
    simpa using ihRest (ihInner (hSeen.add (lt_of_lineOf? hLine) hFresh))

theorem unique {lines' : List GraphLine} {opened' : List ModuleId}
    (h : Listed modules depth seen entries lines opened)
    (h' : Listed modules depth seen entries lines' opened') : lines = lines' ∧ opened = opened' := by
  induction h generalizing lines' opened' with
  | nil =>
    cases h'
    exact ⟨rfl, rfl⟩
  | again hLine hSeen _ ih =>
    cases h' with
    | again hLine' _ hRest =>
      obtain ⟨rfl, rfl⟩ := ih hRest
      rw [hLine] at hLine'
      cases hLine'
      exact ⟨rfl, rfl⟩
    | first _ hFresh => exact absurd hSeen hFresh
  | first hLine hFresh _ _ ihInner ihRest =>
    cases h' with
    | again _ hSeen => exact absurd hSeen hFresh
    | first hLine' _ hInner hRest =>
      obtain ⟨rfl, rfl⟩ := ihInner hInner
      obtain ⟨rfl, rfl⟩ := ihRest hRest
      rw [hLine] at hLine'
      cases hLine'
      exact ⟨rfl, rfl⟩

/-- There is a line for each entry, and one for each import of what is opened. -/
theorem length_lines (h : Listed modules depth seen entries lines opened) :
    lines.length = entries.length + (opened.map fun id => (importsOf modules id).length).sum := by
  induction h with
  | nil => rfl
  | again _ _ _ ih =>
    simp only [List.length_cons, ih]
    omega
  | first _ _ _ _ ihInner ihRest =>
    simp only [List.length_cons, List.length_append, List.map_cons, List.map_append, List.sum_cons,
      List.sum_append, ihInner, ihRest]
    omega

theorem depth_le (h : Listed modules depth seen entries lines opened) :
    ∀ line ∈ lines, depth ≤ line.depth := by
  induction h with
  | nil => simp
  | again hLine _ _ ih =>
    intro line hMem
    rcases List.mem_cons.1 hMem with rfl | hMem
    · exact Nat.le_of_eq (depth_of_lineOf? hLine).symm
    · exact ih line hMem
  | first hLine _ _ _ ihInner ihRest =>
    intro line hMem
    rw [List.mem_cons, List.mem_append] at hMem
    rcases hMem with rfl | hMem | hMem
    · exact Nat.le_of_eq (depth_of_lineOf? hLine).symm
    · exact Nat.le_of_succ_le (ihInner line hMem)
    · exact ihRest line hMem

/-- The lines at the depth of the entries are those of the entries, in their order. -/
theorem filter_depth (h : Listed modules depth seen entries lines opened) :
    lines.filter (·.depth = depth) = entries.filterMap (lineOf? modules depth) := by
  induction h with
  | nil => rfl
  | again hLine _ _ ih =>
    rw [List.filter_cons_of_pos (by simp [depth_of_lineOf? hLine]), List.filterMap_cons, hLine, ih]
  | @first depth _ _ _ line inner _ _ _ hLine _ hInner _ _ ihRest =>
    have hDeeper : inner.filter (·.depth = depth) = [] := by
      rw [List.filter_eq_nil_iff]
      intro line hMem
      have := hInner.depth_le line hMem
      simp only [decide_eq_true_eq]
      omega
    rw [List.filter_cons_of_pos (by simp [depth_of_lineOf? hLine]), List.filter_append, hDeeper,
      List.nil_append, List.filterMap_cons, hLine, ihRest]

theorem depth_head (h : Listed modules depth seen entries lines opened) :
    ∀ line ∈ lines.head?, line.depth = depth := by
  cases h with
  | nil => simp
  | again hLine | first hLine =>
    intro line hMem
    cases hMem
    exact depth_of_lineOf? hLine

/-- The URLs of lines are those of modules that were opened before or are opened here. -/
theorem mem_urls (h : Listed modules depth seen entries lines opened) (url : String) :
    url ∈ (seen ++ opened).map (urlOf modules) ↔
      url ∈ seen.map (urlOf modules) ∨ url ∈ lines.map GraphLine.url := by
  induction h with
  | nil => simp
  | again hLine hSeen _ ih =>
    rw [ih, List.map_cons, List.mem_cons, url_of_lineOf? hLine]
    have hUrl := List.mem_map_of_mem (f := urlOf modules) hSeen
    constructor
    · tauto
    · rintro (hMem | rfl | hMem)
      · exact .inl hMem
      · exact .inl hUrl
      · exact .inr hMem
  | @first _ seen entry _ line inner outer inside opened hLine _ _ _ ihInner ihRest =>
    calc url ∈ (seen ++ entry.2 :: (inside ++ opened)).map (urlOf modules)
        ↔ url ∈ (seen ++ [entry.2] ++ inside ++ opened).map (urlOf modules) := by simp
      _ ↔ (url ∈ (seen ++ [entry.2]).map (urlOf modules) ∨ url ∈ inner.map GraphLine.url) ∨
          url ∈ outer.map GraphLine.url := by rw [ihRest, ihInner]
      _ ↔ url ∈ seen.map (urlOf modules) ∨
          url ∈ (line :: (inner ++ outer)).map GraphLine.url := by
        simp only [List.map_append, List.map_cons, List.map_nil, List.mem_append, List.mem_cons,
          List.not_mem_nil, or_false, url_of_lineOf? hLine, or_assoc]

/-- Only what the entries lead to is opened. -/
theorem reached (h : Listed modules depth seen entries lines opened) :
    ∀ id ∈ opened, ∃ entry ∈ entries, Relation.ReflTransGen (IsImport modules) entry.2 id := by
  induction h with
  | nil => simp
  | again _ _ _ ih =>
    intro id hid
    obtain ⟨entry, hEntry, hReached⟩ := ih id hid
    exact ⟨entry, List.mem_cons_of_mem _ hEntry, hReached⟩
  | @first _ _ entry _ _ _ _ _ _ _ _ _ _ ihInner ihRest =>
    intro id hid
    rw [List.mem_cons, List.mem_append] at hid
    rcases hid with rfl | hid | hid
    · exact ⟨entry, List.mem_cons_self, .refl⟩
    · obtain ⟨other, hOther, hReached⟩ := ihInner id hid
      exact ⟨entry, List.mem_cons_self, .head ⟨other, hOther, rfl⟩ hReached⟩
    · obtain ⟨other, hOther, hReached⟩ := ihRest id hid
      exact ⟨other, List.mem_cons_of_mem _ hOther, hReached⟩

/-- All entries, and all imports of what is opened, are open in the end. -/
theorem covered (h : Listed modules depth seen entries lines opened) :
    (∀ entry ∈ entries, entry.2 ∈ seen ++ opened) ∧
      ∀ id ∈ opened, ∀ entry ∈ importsOf modules id, entry.2 ∈ seen ++ opened := by
  induction h with
  | nil => simp
  | again _ hSeen _ ih =>
    refine ⟨fun entry hEntry => ?_, ih.2⟩
    rcases List.mem_cons.1 hEntry with rfl | hEntry
    · exact List.mem_append_left _ hSeen
    · exact ih.1 entry hEntry
  | @first _ seen entry _ _ _ _ inside opened _ _ _ _ ihInner ihRest =>
    have hInner : ∀ id, id ∈ seen ++ [entry.2] ++ inside →
        id ∈ seen ++ entry.2 :: (inside ++ opened) := by
      intro id hid
      simp only [List.mem_append, List.mem_cons, List.not_mem_nil, or_false] at hid ⊢
      tauto
    have hOuter : ∀ id, id ∈ seen ++ [entry.2] ++ inside ++ opened →
        id ∈ seen ++ entry.2 :: (inside ++ opened) := by
      intro id hid
      simpa using hid
    refine ⟨fun other hOther => ?_, fun id hid other hOther => ?_⟩
    · rcases List.mem_cons.1 hOther with rfl | hOther
      · simp
      · exact hOuter _ (ihRest.1 other hOther)
    · rw [List.mem_cons, List.mem_append] at hid
      rcases hid with rfl | hid | hid
      · exact hInner _ (ihInner.1 other hOther)
      · exact hInner _ (ihInner.2 id hid other hOther)
      · exact hOuter _ (ihRest.2 id hid other hOther)

/-- What is opened from a root is all that it leads to. -/
theorem mem_iff {root : ModuleId} {specifier : Option String}
    (h : Listed modules depth [] [(specifier, root)] lines opened) (id : ModuleId) :
    id ∈ opened ↔ Relation.ReflTransGen (IsImport modules) root id := by
  constructor
  · intro hid
    obtain ⟨entry, hEntry, hReached⟩ := h.reached id hid
    rw [List.mem_singleton.1 hEntry] at hReached
    exact hReached
  · intro hReached
    induction hReached with
    | refl => simpa using h.covered.1 _ (List.mem_singleton.2 rfl)
    | tail _ hImport ih =>
      obtain ⟨entry, hEntry, rfl⟩ := hImport
      simpa using h.covered.2 _ ih entry hEntry

end Listed

/-! ### What stands below a line -/

/-- The lines that stand below a line when `back` follows it. -/
def linesBelow (line : GraphLine) (back : List GraphLine) : List GraphLine :=
  back.takeWhile fun other => line.depth < other.depth

/-- What stands below a line when the modules with some URLs were opened before it.  If its own is
one of them, nothing does.  Otherwise its imports do, one level deeper and in their order. -/
structure Heads (modules : List Module) (before : List String) (line : GraphLine)
    (back : List GraphLine) : Prop where
  again : line.url ∈ before → linesBelow line back = []
  first : line.url ∉ before → ∃ entry, lineOf? modules line.depth entry = some line ∧
    (linesBelow line back).filter (·.depth = line.depth + 1) =
      (importsOf modules entry.2).filterMap (lineOf? modules (line.depth + 1))

theorem linesBelow_eq_nil {back : List GraphLine}
    (h : ∀ other ∈ back.head?, other.depth ≤ line.depth) :
    linesBelow line back = [] := by
  cases back with
  | nil => rfl
  | cons other rest =>
    have := h other rfl
    exact List.takeWhile_cons_of_neg (by simpa using this)

theorem linesBelow_append {back rest : List GraphLine}
    (h : ∀ other ∈ rest.head?, other.depth ≤ line.depth) :
    linesBelow line (back ++ rest) = linesBelow line back := by
  induction back with
  | nil => exact linesBelow_eq_nil h
  | cons other back ih =>
    have hCons : ∀ tail, linesBelow line (other :: tail) =
        if line.depth < other.depth then other :: linesBelow line tail else [] := by
      intro tail
      simp [linesBelow, List.takeWhile_cons]
    rw [List.cons_append, hCons, hCons, ih]

theorem linesBelow_of_lt {back : List GraphLine} (h : ∀ other ∈ back, line.depth < other.depth) :
    linesBelow line back = back :=
  List.takeWhile_eq_self_iff.2 fun other hOther => decide_eq_true (h other hOther)

namespace Heads

variable {before other : List String} {back rest : List GraphLine}

theorem congr (h : Heads modules before line back) (hUrl : line.url ∈ before ↔ line.url ∈ other) :
    Heads modules other line back :=
  ⟨fun hMem => h.again (hUrl.2 hMem), fun hNot => h.first (mt hUrl.1 hNot)⟩

theorem append (h : Heads modules before line back)
    (hRest : ∀ other ∈ rest.head?, other.depth ≤ line.depth) :
    Heads modules before line (back ++ rest) := by
  constructor
  · rw [linesBelow_append hRest]
    exact h.again
  · rw [linesBelow_append hRest]
    exact h.first

end Heads

/-- Each line heads what the relation lists below it. -/
theorem Listed.heads (h : Listed modules depth seen entries lines opened) (hSound : IsSound modules)
    (hSeen : IsOpened modules seen) {front back : List GraphLine}
    (hLines : lines = front ++ line :: back) :
    Heads modules (seen.map (urlOf modules) ++ front.map GraphLine.url) line back := by
  induction h generalizing front back with
  | nil => simp at hLines
  | again hLine hMem hRest ih =>
    have hUrl := (hSound.mem_urls hSeen hLine).2 hMem
    cases front with
    | nil =>
      obtain ⟨rfl, rfl⟩ := List.cons_eq_cons.1 hLines
      refine ⟨fun _ => linesBelow_eq_nil fun other hOther => ?_, fun hNot => absurd ?_ hNot⟩
      · exact Nat.le_of_eq ((hRest.depth_head other hOther).trans (depth_of_lineOf? hLine).symm)
      · simpa using hUrl
    | cons first front =>
      obtain ⟨rfl, hTail⟩ := List.cons_eq_cons.1 hLines
      refine (ih hSeen hTail).congr ?_
      simp only [List.map_cons, List.mem_append, List.mem_cons]
      constructor
      · tauto
      · rintro (hMem' | hEq | hMem')
        · exact .inl hMem'
        · exact .inl (hEq ▸ hUrl)
        · exact .inr hMem'
  | @first depth seen entry _ top inner outer opened' opened hLine hFresh hInner hRest ihInner
      ihRest =>
    have hOpen := hSeen.add (lt_of_lineOf? hLine) hFresh
    have hOuterHead : ∀ n, depth ≤ n → ∀ other ∈ outer.head?, other.depth ≤ n :=
      fun n hn other hOther => Nat.le_trans (Nat.le_of_eq (hRest.depth_head other hOther)) hn
    cases front with
    | nil =>
      obtain ⟨rfl, rfl⟩ := List.cons_eq_cons.1 hLines
      have hDepth := depth_of_lineOf? hLine
      have hBelow : linesBelow top (inner ++ outer) = inner := by
        rw [linesBelow_append (hOuterHead _ (Nat.le_of_eq hDepth.symm))]
        exact linesBelow_of_lt fun other hOther => hDepth.symm ▸ hInner.depth_le other hOther
      refine ⟨fun hMem => ?_, fun _ => ⟨entry, hDepth.symm ▸ hLine, ?_⟩⟩
      · exact absurd ((hSound.mem_urls hSeen hLine).1 (by simpa using hMem)) hFresh
      · rw [hBelow, hDepth]
        exact hInner.filter_depth
    | cons other front =>
      obtain ⟨rfl, hTail⟩ := List.cons_eq_cons.1 hLines
      have hOuter : ∀ {front'}, outer = front' ++ line :: back → Heads modules
          (seen.map (urlOf modules) ++ (top :: (inner ++ front')).map GraphLine.url) line back := by
        intro front' hEq
        refine (ihRest (hInner.isOpened hOpen) hEq).congr ?_
        rw [List.mem_append, hInner.mem_urls]
        simp only [List.map_append, List.map_cons, List.map_nil, List.mem_append, List.mem_cons,
          List.not_mem_nil, or_false, url_of_lineOf? hLine, or_assoc]
      rcases List.append_eq_append_iff.1 hTail with ⟨front', rfl, hEq⟩ | ⟨back', hFront, hEq⟩
      · exact hOuter hEq
      · cases back' with
        | nil =>
          have hSame : inner = front := by simpa using hFront
          simpa [hSame] using @hOuter [] (by simpa using hEq.symm)
        | cons line' back' =>
          obtain ⟨rfl, rfl⟩ := List.cons_eq_cons.1 hEq
          have hDeep := hInner.depth_le line (by simp [hFront])
          refine ((ihInner hOpen hFront).congr ?_).append (hOuterHead _ (Nat.le_of_succ_le hDeep))
          simp [url_of_lineOf? hLine]

/-! ### The listing that runs -/

theorem visit_again {listing : Listing} (fuel : Nat)
    (hLine : lineOf? modules depth entry = some line) (hSeen : line.url ∈ listing.seen) :
    visit modules (fuel + 1) depth listing entry = ⟨listing.lines ++ [line], listing.seen⟩ := by
  obtain ⟨m, hm, rfl⟩ := Option.map_eq_some_iff.1 hLine
  simp only [visit, hm]
  rw [if_pos hSeen]

theorem visit_first {listing : Listing} (fuel : Nat)
    (hLine : lineOf? modules depth entry = some line) (hFresh : line.url ∉ listing.seen) :
    visit modules (fuel + 1) depth listing entry =
      (importsOf modules entry.2).foldl (visit modules fuel (depth + 1))
        ⟨listing.lines ++ [line], listing.seen ++ [line.url]⟩ := by
  obtain ⟨m, hm, rfl⟩ := Option.map_eq_some_iff.1 hLine
  simp only [visit, hm]
  rw [if_neg hFresh]
  simp only [importsOf, hm, Option.bind_some]

/-- With more fuel than modules are left to open, the listing that runs obeys the relation. -/
theorem foldl_visit (hSound : IsSound modules) (fuel : Nat)
    (hFuel : modules.length < fuel + seen.length) (hSeen : IsOpened modules seen)
    (hEntries : ∀ entry ∈ entries, entry.2 < modules.length) (start : List GraphLine) :
    ∃ lines opened, Listed modules depth seen entries lines opened ∧
      entries.foldl (visit modules fuel depth) ⟨start, seen.map (urlOf modules)⟩ =
        ⟨start ++ lines, (seen ++ opened).map (urlOf modules)⟩ := by
  induction fuel generalizing depth seen entries start with
  | zero => exact absurd hSeen.length_le (by omega)
  | succ fuel ihFuel =>
    induction entries generalizing seen start with
    | nil => exact ⟨[], [], .nil, by simp⟩
    | cons entry rest ihRest =>
      have hRest : ∀ entry ∈ rest, entry.2 < modules.length :=
        fun other hOther => hEntries other (List.mem_cons_of_mem _ hOther)
      have hLt := hEntries entry List.mem_cons_self
      obtain ⟨line, hLine⟩ := exists_lineOf? depth hLt
      by_cases hMem : entry.2 ∈ seen
      · obtain ⟨lines, opened, hListed, hRun⟩ := ihRest hFuel hSeen hRest (start ++ [line])
        refine ⟨line :: lines, opened, .again hLine hMem hListed, ?_⟩
        rw [List.foldl_cons, visit_again fuel hLine ((hSound.mem_urls hSeen hLine).2 hMem), hRun]
        simp
      · have hOpen := hSeen.add hLt hMem
        have hInnerFuel : modules.length < fuel + (seen ++ [entry.2]).length := by
          rw [List.length_append, List.length_singleton]
          omega
        obtain ⟨inner, inside, hInner, hRunInner⟩ :=
          @ihFuel (depth + 1) _ _ hInnerFuel hOpen (hSound.closed entry.2) (start ++ [line])
        have hOuterFuel : modules.length < fuel + 1 + (seen ++ [entry.2] ++ inside).length := by
          simp only [List.length_append]
          omega
        obtain ⟨outer, opened, hOuter, hRunOuter⟩ :=
          ihRest hOuterFuel (hInner.isOpened hOpen) hRest (start ++ [line] ++ inner)
        refine ⟨line :: (inner ++ outer), entry.2 :: (inside ++ opened),
          .first hLine hMem hInner hOuter, ?_⟩
        rw [List.foldl_cons, visit_first fuel hLine (mt (hSound.mem_urls hSeen hLine).1 hMem),
          url_of_lineOf? hLine, ← List.map_singleton, ← List.map_append, hRunInner, hRunOuter]
        simp

/-- A listing with enough fuel has the lines of the relation. -/
theorem lines_visit {root : ModuleId} {specifier : Option String}
    (h : Listed modules depth [] [(specifier, root)] lines opened) (hSound : IsSound modules)
    {fuel : Nat} (hFuel : modules.length < fuel) :
    visit modules fuel depth {} (specifier, root) = ⟨lines, opened.map (urlOf modules)⟩ := by
  have hRoot : ∀ entry ∈ [(specifier, root)], entry.2 < modules.length := by
    intro entry hEntry
    obtain ⟨line, hLine⟩ : ∃ line, lineOf? modules depth entry = some line := by
      rw [List.mem_singleton.1 hEntry]
      cases h with
      | again hLine | first hLine => exact ⟨_, hLine⟩
    exact lt_of_lineOf? hLine
  obtain ⟨lines', opened', hListed, hRun⟩ :=
    foldl_visit hSound fuel (by simpa using hFuel) ⟨List.nodup_nil, by simp⟩ hRoot []
  obtain ⟨rfl, rfl⟩ := h.unique hListed
  simpa using hRun

end ModuleLoader.Graph
