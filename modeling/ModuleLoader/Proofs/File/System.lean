import ModuleLoader.File.System
import ModuleLoader.Proofs.File.Names
import Mathlib.Data.List.Nodup

/-! Trees of files in which every directory has one entry for a name: writing and removing keep them
so, and what is at a path is among what its directory lists. -/

namespace ModuleLoader.File

variable {name : FileName} {entries : List (FileName × Node)} {node n : Node} {above : List Node}
  {fs : FileSystem} {d path : FilePath} {fault : Fault}

/-! ## Proper trees -/

/-- No directory of the tree has two entries of one name. -/
inductive Node.IsProper : Node → Prop where
  | file (content : List UInt8) : IsProper (.file content)
  | directory {entries : List (FileName × Node)} (nodup : (entries.map Prod.fst).Nodup)
      (each : ∀ entry ∈ entries, IsProper entry.2) : IsProper (.directory entries)

theorem Node.isProper_emptyDirectory : Node.emptyDirectory.IsProper := .directory .nil nofun

theorem Node.IsProper.lookup (h : IsProper (.directory entries))
    (hName : entries.lookup name = some node) : node.IsProper := by
  obtain ⟨before, after, rfl, -⟩ := List.lookup_eq_some_iff.1 hName
  cases h with
  | directory _ hEach => exact hEach (name, node) (by simp)

/-- An entry changes in its place, or comes behind all others. -/
theorem keys_updateEntry (name : FileName) (f : Option Node → Node)
    (entries : List (FileName × Node)) :
    (updateEntry name f entries).map Prod.fst =
      if name ∈ entries.map Prod.fst then entries.map Prod.fst
      else entries.map Prod.fst ++ [name] := by
  induction entries with
  | nil => simp [updateEntry]
  | cons entry entries ih =>
    obtain ⟨other, node⟩ := entry
    by_cases hName : other = name
    · simp [updateEntry, hName]
    · simp only [updateEntry, hName, if_false, List.map_cons, ih, List.mem_cons, Ne.symm hName,
        false_or]
      split <;> rfl

theorem forall_updateEntry {f : Option Node → Node} (hEach : ∀ entry ∈ entries, entry.2.IsProper)
    (hf : ∀ old : Option Node, (∀ node ∈ old, node.IsProper) → (f old).IsProper) :
    ∀ entry ∈ updateEntry name f entries, entry.2.IsProper := by
  induction entries with
  | nil => simpa [updateEntry] using hf none nofun
  | cons entry entries ih =>
    obtain ⟨other, node⟩ := entry
    rw [List.forall_mem_cons] at hEach
    simp only [updateEntry]
    split
    · exact List.forall_mem_cons.2 ⟨hf (some node) (by simpa using hEach.1), hEach.2⟩
    · exact List.forall_mem_cons.2 ⟨hEach.1, ih hEach.2⟩

theorem Node.IsProper.updateEntry {f : Option Node → Node} (h : IsProper (.directory entries))
    (hf : ∀ old : Option Node, (∀ node ∈ old, node.IsProper) → (f old).IsProper) :
    IsProper (.directory (updateEntry name f entries)) := by
  cases h with
  | directory hNodup hEach =>
    refine .directory ?_ (forall_updateEntry hEach hf)
    rw [keys_updateEntry]
    split
    · exact hNodup
    · next hNew =>
      rw [← List.concat_eq_append]
      exact hNodup.concat hNew

theorem Node.IsProper.put (hNode : node.IsProper) (names : List FileName) :
    ∀ {tree : Node}, tree.IsProper → (node.put names tree).IsProper := by
  induction names with
  | nil => exact fun _ => hNode
  | cons name names ih =>
    intro tree hTree
    have hOld : ∀ old : Option Node, (∀ node ∈ old, node.IsProper) →
        (node.put names (old.getD .emptyDirectory)).IsProper := by
      rintro (_ | old) hOld
      · exact ih isProper_emptyDirectory
      · exact ih (hOld old rfl)
    cases tree with
    | file _ => exact isProper_emptyDirectory.updateEntry hOld
    | directory entries => exact hTree.updateEntry hOld

theorem Node.IsProper.remove (names : List FileName) :
    ∀ {tree : Node}, tree.IsProper → (tree.remove names).IsProper := by
  induction names with
  | nil => exact fun h => h
  | cons name names ih =>
    intro tree hTree
    cases hTree with
    | file content => exact .file content
    | @directory entries hNodup hEach =>
      cases names with
      | nil =>
        exact .directory ((entries.filter_sublist.map Prod.fst).nodup hNodup)
          fun entry hEntry => hEach entry (List.mem_of_mem_filter hEntry)
      | cons next names =>
        refine .directory ?_ ?_
        · have hKeys : ∀ entry : FileName × Node,
              (if entry.1 = name then (entry.1, Node.remove (next :: names) entry.2) else entry).1 =
                entry.1 := by
            intro entry
            split <;> rfl
          simpa only [List.map_map, Function.comp_def, hKeys] using hNodup
        · rintro entry hEntry
          obtain ⟨old, hOld, rfl⟩ := List.mem_map.1 hEntry
          split
          · exact ih (hEach old hOld)
          · exact hEach old hOld

/-- Paths lead to proper nodes in a proper tree. -/
theorem Node.IsProper.follow {pieces : List FileName} (hAbove : ∀ up ∈ above, up.IsProper)
    (hNode : node.IsProper) (h : follow above node pieces = .ok n) : n.IsProper := by
  induction pieces generalizing above node with
  | nil =>
    obtain rfl : node = n := Except.ok.inj h
    exact hNode
  | cons piece pieces ih =>
    cases node with
    | file _ => cases h
    | directory entries =>
      simp only [File.follow] at h
      split at h
      · exact ih hAbove hNode h
      split at h
      · cases above with
        | nil => exact ih hAbove hNode h
        | cons up above =>
          rw [List.forall_mem_cons] at hAbove
          exact ih hAbove.2 hAbove.1 h
      split at h
      · cases h
      · split at h
        · cases h
        · next next hLookup =>
          exact ih (List.forall_mem_cons.2 ⟨hNode, hAbove⟩) (hNode.lookup hLookup) h

theorem FileSystem.isProper_of_node (hfs : fs.root.IsProper) (h : fs.node path = .ok n) :
    n.IsProper := by
  unfold FileSystem.node at h
  split at h
  · cases h
  split at h
  · cases h
  split at h
  · cases h
  · exact hfs.follow (by simp) h

/-- A directory of a proper tree lists no name twice. -/
theorem FileSystem.nodup_list (hfs : fs.root.IsProper) (path : FilePath) :
    (fs.list path).Nodup := by
  unfold FileSystem.list
  split
  · next entries hNode =>
    cases isProper_of_node hfs hNode with
    | directory hNodup _ => exact hNodup
  · exact .nil

/-! ## What a directory lists -/

/-- What more pieces lead to depends on where the first ones end. -/
theorem follow_append (above : List Node) (node : Node) (front : List FileName) :
    (∃ fault, ∀ rest, follow above node (front ++ rest) = .error fault) ∨
      ∃ after n, ∀ rest, follow above node (front ++ rest) = follow after n rest := by
  induction front generalizing above node with
  | nil => exact .inr ⟨above, node, fun _ => rfl⟩
  | cons piece front ih =>
    cases node with
    | file _ => exact .inl ⟨_, fun _ => rfl⟩
    | directory entries =>
      simp only [List.cons_append, follow]
      split
      · exact ih above _
      split
      · cases above with
        | nil => exact ih [] _
        | cons up above => exact ih above up
      split
      · exact .inl ⟨_, fun _ => rfl⟩
      · split
        · exact .inl ⟨_, fun _ => rfl⟩
        · exact ih _ _

/-- Pieces that name nothing lead nowhere else. -/
theorem follow_used {pieces : List FileName} (h : follow above node pieces = .ok n) :
    follow above node (FilePath.used pieces) = .ok n := by
  induction pieces generalizing above node with
  | nil => exact h
  | cons piece rest ih =>
    cases node with
    | file _ => cases h
    | directory entries =>
      by_cases hIdle : FilePath.isIdle piece = true
      · have hUsed : FilePath.used (piece :: rest) = FilePath.used rest := by
          simp [FilePath.used, hIdle]
        simp only [follow, hIdle, if_true] at h
        rw [hUsed]
        exact ih h
      · have hUsed : FilePath.used (piece :: rest) = piece :: FilePath.used rest := by
          simp [FilePath.used, hIdle]
        rw [hUsed]
        simp only [follow, hIdle, Bool.false_eq_true, if_false] at h ⊢
        split at h
        · next hUp =>
          rw [if_pos hUp]
          cases above with
          | nil => exact ih h
          | cons up above => exact ih h
        · next hDown =>
          rw [if_neg hDown]
          split at h
          · cases h
          · next hLength =>
            rw [if_neg hLength]
            split at h
            · cases h
            · exact ih h

/-- A name leads from a directory to the entry of that name. -/
theorem mem_keys_of_follow (hName : FilePath.IsName name) (h : follow above node [name] = .ok n) :
    ∃ entries, node = .directory entries ∧ name ∈ entries.map Prod.fst := by
  cases node with
  | file _ => cases h
  | directory entries =>
    simp only [follow, hName.not_idle, Bool.false_eq_true, if_false, hName.not_up] at h
    split at h
    · cases h
    · split at h
      · cases h
      · next next hLookup =>
        obtain ⟨before, after, rfl, -⟩ := List.lookup_eq_some_iff.1 hLookup
        exact ⟨_, rfl, by simp⟩

namespace FileSystem

theorem node_eq_ok_iff (hPath : path.isAbsolute = true) :
    fs.node path = .ok n ↔ 0 ∉ path.bytes ∧ path.bytes.length < pathLimit ∧
      follow [] fs.root (FilePath.pieces path.bytes) = .ok n := by
  have hSome : path.bytes.isEmpty = false :=
    List.isEmpty_eq_false_iff.2 (FilePath.ne_nil_of_isAbsolute hPath)
  simp only [node, hPath, hSome, if_true, List.nil_append, Bool.false_eq_true, if_false]
  by_cases hNul : 0 ∈ path.bytes
  · simp [hNul]
  by_cases hLong : pathLimit ≤ path.bytes.length
  · simp [hNul, hLong, Nat.not_lt.2 hLong]
  · simp [hNul, hLong, Nat.not_le.1 hLong]

/-- What stands at a name in a directory is among what that directory lists. -/
theorem mem_list_of_node_join (hd : d.isAbsolute = true) (hName : FilePath.IsName name)
    (h : fs.node (d.join ⟨name⟩) = .ok n) : name ∈ fs.list d := by
  have hSome : d.bytes ≠ [] := FilePath.ne_nil_of_isAbsolute hd
  obtain ⟨behind, hBehind⟩ : d.bytes <+: (d.join ⟨name⟩).bytes := by
    rw [FilePath.join_name hSome hName.not_slash]
    split <;> simp
  obtain ⟨front, hJoin, hPieces⟩ := FilePath.pieces_join hSome hName.not_slash
  rw [node_eq_ok_iff (FilePath.isAbsolute_join hd hName.not_slash), ← hBehind] at h
  obtain ⟨hNul, hShort, hFollow⟩ := h
  rw [hBehind, hJoin] at hFollow
  rcases follow_append [] fs.root front with ⟨fault, hError⟩ | ⟨after, up, hUp⟩
  · cases (hError [name]).symm.trans hFollow
  obtain ⟨entries, rfl, hMem⟩ := mem_keys_of_follow hName ((hUp [name]).symm.trans hFollow)
  have hDirectory : fs.node d = .ok (.directory entries) := by
    rw [node_eq_ok_iff hd]
    refine ⟨fun hZero => hNul (List.mem_append_left _ hZero), ?_, ?_⟩
    · rw [List.length_append] at hShort
      omega
    · rcases hPieces with hEq | hEq
      · rw [hEq, ← List.append_nil front]
        exact hUp []
      · rw [hEq]
        exact hUp [[]]
  rw [list, hDirectory]
  exact hMem

theorem mem_list_of_isFile_join (hd : d.isAbsolute = true) (hName : FilePath.IsName name)
    (h : fs.isFile (d.join ⟨name⟩) = true) : name ∈ fs.list d := by
  unfold isFile at h
  split at h
  · next content hNode => exact mem_list_of_node_join hd hName hNode
  · cases h

/-- A path with its names alone leads to where the path leads. -/
theorem node_names (hPath : path.isAbsolute = true) (hSome : path.names ≠ [])
    (h : fs.node path = .ok n) :
    fs.node ⟨path.names.flatMap (FilePath.slash :: ·)⟩ = .ok n := by
  obtain ⟨first, rest, hNames⟩ := List.exists_cons_of_ne_nil hSome
  have hSub := FilePath.sublist_bytes hPath
  have hAbsolute : (⟨path.names.flatMap (FilePath.slash :: ·)⟩ : FilePath).isAbsolute = true := by
    rw [hNames]
    exact FilePath.isAbsolute_iff.2 ⟨_, rfl⟩
  have hPieces : FilePath.pieces (path.names.flatMap (FilePath.slash :: ·)) = [] :: path.names :=
    FilePath.pieces_append_names [] fun name hName => (FilePath.mem_names hName).1
  rw [node_eq_ok_iff hPath] at h
  obtain ⟨hNul, hShort, hFollow⟩ := h
  rw [node_eq_ok_iff hAbsolute, hPieces]
  refine ⟨fun hZero => hNul (hSub.subset hZero), hSub.length_le.trans_lt hShort, ?_⟩
  have hUsed := follow_used hFollow
  rw [← FilePath.names_of_isAbsolute hPath, hNames] at hUsed
  rw [hNames]
  cases hRoot : fs.root with
  | file content =>
    rw [hRoot] at hUsed
    cases hUsed
  | directory entries =>
    rw [hRoot] at hUsed
    exact hUsed

end FileSystem

end ModuleLoader.File
