import ModuleLoader.Proofs.Session.Failure
import ModuleLoader.Proofs.Session.Gains
import ModuleLoader.Proofs.Session.Importing
import ModuleLoader.Proofs.Url.Plain

/-! One file as the entry of two programs, by its path in the directory of the session and by its
path from the root.  Both are the same URL, and then the same module, exactly if the path in the
directory is plain. -/

namespace ModuleLoader

variable {σ : Type} {x y : Instant σ} {env : Environment σ} {d : FilePath} {names : List String}
  {entry whole : String} {base u : Url} {m : StaticModule}

/-- The entry is a path of names in the directory, and `whole` is the path of the same file from the
root. -/
structure IsPlaced (d : FilePath) (names : List String) (entry whole : String) : Prop where
  text : Url.IsTextOf names entry.toList
  noUrl : ∀ u, Url.parse entry = .ok u → u.scheme.length ≤ 1
  whole_eq : FilePath.ofString whole = d.join (FilePath.ofString entry)

namespace IsPlaced

variable (h : IsPlaced d names entry whole)
include h

theorem isAbsolute_entry : (FilePath.ofString entry).isAbsolute = false := by
  rw [← Bool.not_eq_true]
  intro hAbsolute
  obtain ⟨rest, hEntry⟩ := exists_of_isAbsolute hAbsolute
  obtain ⟨first, names, -, hText, c, more, hFirst, hc⟩ := h.text.exists_cons
  rw [hText, hFirst, List.cons_append] at hEntry
  exact hc (List.cons.inj hEntry).1

variable (hd : d.isAbsolute = true)
include hd

theorem isAbsolute_whole : (FilePath.ofString whole).isAbsolute = true :=
  h.whole_eq ▸ FilePath.isAbsolute_join_of_not hd _

theorem names_whole :
    (FilePath.ofString whole).names = d.names ++ names.map Text.Utf8.ofString := by
  have hIdle : ∀ name ∈ names.map Text.Utf8.ofString, FilePath.isIdle name = false := by
    simpa using fun name hName => (h.text.isName name hName).not_idle
  rw [h.whole_eq, FilePath.names_join hd h.isAbsolute_entry, ← FilePath.used_eq_self hIdle,
    ← h.text.pieces_encode]
  rfl

theorem names_whole_ne_nil : (FilePath.ofString whole).names ≠ [] := by
  obtain ⟨first, rest, rfl, -⟩ := h.text.exists_cons
  simp [h.names_whole hd]

/-- The path from the root is the URL of its names, which are never read. -/
theorem entryUrl_whole : entryUrl whole base =
    .ok (Url.fileUrl none (d.names.map Url.encodeFileName ++ Url.fileNames names)) := by
  have hWhole := h.isAbsolute_whole hd
  have hMap : (FilePath.ofString whole).names.map Url.encodeFileName =
      d.names.map Url.encodeFileName ++ Url.fileNames names := by
    rw [h.names_whole hd, List.map_append, List.map_map]
    rfl
  rw [entryUrl_of_isAbsolute hWhole, Url.ofFilePath?_eq hWhole (h.names_whole_ne_nil hd), hMap]

/-- The path from the root names the file. -/
theorem exists_toFilePath? (hUrl : entryUrl whole base = .ok u) :
    ∃ path, u.toFilePath? = some path ∧ path.isAbsolute = true ∧
      path.names = d.names ++ names.map Text.Utf8.ofString := by
  have hSome := h.names_whole_ne_nil hd
  have hFile := (entryUrl_of_isAbsolute (h.isAbsolute_whole hd)).1 hUrl
  exact Url.exists_toFilePath?_ofFilePath? hFile hSome |>.imp fun path hPath => by
    rwa [h.names_whole hd] at hPath

end IsPlaced

namespace Session

/-- A program that is loaded is loaded again by its URL, and nothing else happens. -/
theorem instantiate_of_linked {id : ModuleId} (env : Environment σ) (fuel : Nat) (hx : x.Lawful)
    (hm : x.state.static? id = some m) (hLinked : m.linking = .linked)
    (hEntry : entryUrl entry env.baseUrl = .ok u) (hUrl : u.text = m.url) :
    (instantiate env fuel entry).runFrom x = some (.ok { root := id }, x) := by
  rw [instantiate_of_static fuel hx hm hEntry hUrl,
    Action.runFrom_bind_of_ok (link_of_linked_static env fuel hm hLinked), Action.runFrom_pure]

/-- In the directory `d` of the session, a path of names is the same URL as the path of that file from
the root, exactly if it is plain: it has no mark (`?`, `#`, `%`, a backslash, a tab or a newline), no
blank at an end, no scheme and no drive at its front.  Then either path loads the same
root, whose URL is that of the file, and the other one finds it there. -/
theorem same_root_of_plain (env : Environment σ) (h : IsPlaced d names entry whole)
    (hBase : Url.ofDirectoryPath? d = some env.baseUrl) :
    (entryUrl entry env.baseUrl = entryUrl whole env.baseUrl ↔ Url.IsPlain entry.toList) ∧
    ∃ u path, entryUrl whole env.baseUrl = .ok u ∧ u.toFilePath? = some path ∧
      path.isAbsolute = true ∧ path.names = d.names ++ names.map Text.Utf8.ofString ∧
      (Url.IsPlain entry.toList → ∀ world requests,
        ∀ x ∈ (serve env requests).moments (.fresh world), ∀ first ∈ [entry, whole],
          ∀ fuel program y, (instantiate env fuel first).runFrom x = some (.ok program, y) →
            (∃ m, y.state.static? program.root = some m ∧ m.url = u.text) ∧
            ∀ later ∈ [entry, whole], ∀ fuel',
              (instantiate env fuel' later).runFrom y = some (.ok { root := program.root }, y)) := by
  have hd := Url.isAbsolute_of_ofDirectoryPath? hBase
  have hFolder := Url.isFolder_ofDirectoryPath? hBase
  have hWhole : entryUrl whole env.baseUrl = .ok _ := h.entryUrl_whole hd
  have hSame : entryUrl entry env.baseUrl = entryUrl whole env.baseUrl ↔
      Url.IsPlain entry.toList := by
    rw [hWhole, entryUrl_of_relative h.isAbsolute_entry h.noUrl]
    refine ⟨hFolder.isPlain_of_join h.text fun v hv hFile => ?_, hFolder.join_of_isPlain h.text⟩
    have hShort := h.noUrl v hv
    rw [hFile] at hShort
    exact absurd hShort (by decide)
  obtain ⟨path, hPath, hAbsolute, hNames⟩ := h.exists_toFilePath? hd hWhole
  refine ⟨hSame, _, path, hWhole, hPath, hAbsolute, hNames, ?_⟩
  intro hPlain world requests x hx first hFirst fuel program y hRun
  have hUrl : ∀ entry' ∈ [entry, whole],
      entryUrl entry' env.baseUrl = entryUrl whole env.baseUrl := by
    simpa using hSame.2 hPlain
  obtain ⟨hy, u, m, hu, hm, hText, hLinked⟩ :=
    (loaded_instantiate env fuel first (lawful_of_mem_serve hx)).done_of_runFrom hRun
  obtain rfl := Except.ok.inj (hu.symm.trans ((hUrl first hFirst).trans hWhole))
  refine ⟨⟨m, hm, hText⟩, fun later hLater fuel' => ?_⟩
  have hEntry := (hUrl later hLater).trans hWhole
  exact instantiate_of_linked env fuel' hy hm hLinked hEntry hText.symm

end Session

namespace Sample

open File

/-- A file in a directory, and two files of which one is named as the other up to a mark. -/
def marked : FileSystem where
  root := .directory
    [(Text.Utf8.ofString "a", .file []), (Text.Utf8.ofString "a#b.ts", .file []),
      (Text.Utf8.ofString "my files",
        .directory [(Text.Utf8.ofString "a b.ts", .file [])])]

/-- The code of a module tells its file. -/
def markedEnvironment : Environment Unit :=
  { environment with
    files := fun _ => marked
    packages := none
    engine := some fun _ path _ => pure { code := path.text, dependencies := some [] } }

theorem isPlaced_blanks : IsPlaced ⟨[FilePath.slash]⟩ ["my files", "a b.ts"] "my files/a b.ts"
    "/my files/a b.ts" where
  text :=
    { text_eq := by decide
      isName := by
        rw [List.forall_mem_cons, List.forall_mem_singleton]
        exact ⟨⟨by decide, by decide, by decide⟩, ⟨by decide, by decide, by decide⟩⟩ }
  noUrl := by
    have hParse : Url.parse "my files/a b.ts" = .error .relativeWithoutBase := by decide +kernel
    simp [hParse]
  whole_eq := by decide +kernel

end Sample

namespace Session

open Sample

/-- Blanks in a path are no marks. -/
theorem same_root_of_blanks : ∃ x program,
    (instantiate markedEnvironment 9 "my files/a b.ts").runFrom (.fresh ()) =
        some (.ok program, x) ∧
      (instantiate markedEnvironment 9 "/my files/a b.ts").runFrom x =
        some (.ok { root := program.root }, x) := by
  have hBase : Url.ofDirectoryPath? ⟨[FilePath.slash]⟩ = some markedEnvironment.baseUrl := by
    decide +kernel
  have hPlain : Url.IsPlain "my files/a b.ts".toList :=
    ⟨by decide, by decide +kernel, by decide +kernel, by decide +kernel⟩
  obtain ⟨-, u, path, -, -, -, -, hAgain⟩ :=
    same_root_of_plain markedEnvironment isPlaced_blanks hBase
  have hRun : Action.endsWith ((instantiate markedEnvironment 9 "my files/a b.ts").runFrom
      (.fresh ())) (fun _ _ => true) = true := by decide +kernel
  obtain ⟨program, x, hEnd, -⟩ := Action.exists_of_endsWith hRun
  have hFresh := hAgain hPlain () [] (.fresh ()) List.mem_cons_self _ List.mem_cons_self 9
    program x hEnd
  exact ⟨x, program, hEnd, hFresh.2 _ (by simp) 9⟩

/-- A mark ends the path in the directory, so that another file is loaded by it. -/
theorem other_file_by_mark : ∃ x y program again m n,
    (instantiate markedEnvironment 9 "/a#b.ts").runFrom (.fresh ()) = some (.ok program, x) ∧
      (instantiate markedEnvironment 9 "a#b.ts").runFrom x = some (.ok again, y) ∧
      y.state.static? program.root = some m ∧ m.url = "file:///a%23b.ts" ∧ m.code = "/a#b.ts" ∧
      y.state.static? again.root = some n ∧ n.url = "file:///a#b.ts" ∧ n.code = "/a" := by
  have hRun : Action.endsWith ((instantiate markedEnvironment 9 "/a#b.ts").runFrom (.fresh ()))
      (fun program x =>
        Action.endsWith ((instantiate markedEnvironment 9 "a#b.ts").runFrom x) fun again y =>
          decide ((y.state.static? program.root).map (fun m => (m.url, m.code)) =
              some ("file:///a%23b.ts", "/a#b.ts") ∧
            (y.state.static? again.root).map (fun m => (m.url, m.code)) =
              some ("file:///a#b.ts", "/a"))) = true := by decide +kernel
  obtain ⟨program, x, hEnd, hChecked⟩ := Action.exists_of_endsWith hRun
  obtain ⟨again, y, hLater, hFiles⟩ := Action.exists_of_endsWith hChecked
  obtain ⟨hWhole, hPart⟩ := of_decide_eq_true hFiles
  obtain ⟨m, hm, hFile⟩ := Option.map_eq_some_iff.1 hWhole
  obtain ⟨n, hn, hOther⟩ := Option.map_eq_some_iff.1 hPart
  obtain ⟨hUrl, hCode⟩ := Prod.mk.inj hFile
  obtain ⟨hUrl', hCode'⟩ := Prod.mk.inj hOther
  exact ⟨x, y, program, again, m, n, hEnd, hLater, hm, hUrl, hCode, hn, hUrl', hCode'⟩

end Session

end ModuleLoader
