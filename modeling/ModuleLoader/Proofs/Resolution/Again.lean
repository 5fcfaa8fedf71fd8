import ModuleLoader.Proofs.Resolution.Probe
import ModuleLoader.Proofs.Url.Read

/-! Resolution of what it gives.  The URL of a module reads as itself wherever it is imported, so that
resolution leaves it alone: it has an extension, or nothing is found for it once more. -/

namespace ModuleLoader

open File
open FilePath (dot slash)

namespace Url

variable {P Q : String → Prop} {base u : Url} {text reference : String} {names : List String}
  {path : FilePath}

/-- No name of the path has an encoded slash. -/
def IsWhole (u : Url) : Prop :=
  ∀ names, u.path = .segments names → ∀ name ∈ names, slash ∉ decode name.toList

/-- A word that decodes to no slash. -/
structure IsPlainName (name : String) : Prop extends IsWord name where
  decoded : slash ∉ decode name.toList

theorem covers_isWord : Covers IsWord fun c => SchemeKind.file.isSlash c = false :=
  ⟨fun _ => isWord_writtenName, fun _ h => by simpa using (isWord_letter h).1.whole, by decide⟩

/-- Without slashes and percent signs nothing is written that decodes to a slash. -/
theorem covers_isPlainName :
    Covers IsPlainName fun c => SchemeKind.file.isSlash c = false ∧ c ≠ '%' := by
  refine ⟨fun piece h => ⟨isWord_writtenName fun c hc => (h c hc).1, ?_⟩, fun c h => ?_, by decide⟩
  · refine slash_not_mem_decode (fun hMem => (h _ hMem).2 rfl) fun hMem => ?_
    exact absurd (h _ hMem).1 (by decide)
  · obtain ⟨hWord, -, hPercent⟩ := isWord_letter h
    exact ⟨by simpa using hWord.whole, hPercent⟩

theorem IsRead.strengthen (h : u.IsRead P)
    (hQ : ∀ names, u.path = .segments names → ∀ name ∈ names, P name → Q name) : u.IsRead Q := by
  obtain ⟨names, hPath, hTrim, hEach, hOrderly⟩ := h.path
  have hNames : ∀ name ∈ names.reverse, Q name := fun name hName =>
    hQ names hPath name (List.mem_reverse.1 hName) (hEach name hName)
  exact ⟨h.scheme, h.authority, ⟨names, hPath, hTrim, hNames, hOrderly⟩, h.query, h.fragment⟩

/-- What a reference without percent signs means in a file whose URL reads as itself. -/
theorem read_join (hBase : parse base.text = .ok base) (hScheme : base.scheme = "file")
    (hWhole : base.IsWhole) (hPercent : '%' ∉ reference.toList)
    (h : join base reference = .ok u) (hFile : u.scheme = "file") : u.IsRead IsPlainName := by
  have hRead : base.IsRead IsWord :=
    read_parseAgainst covers_isWord (by simp) (fun _ _ hSlash => hSlash) hBase hScheme
  have hPlain : base.IsRead IsPlainName := hRead.strengthen fun names hPath name hName hWord =>
    ⟨hWord, hWhole names hPath name hName⟩
  refine read_parseAgainst covers_isPlainName (fun b hb _ => ?_) (fun c hc hSlash => ?_) h hFile
  · cases hb
    exact hPlain
  · refine ⟨hSlash, ?_⟩
    rintro rfl
    exact hPercent hc

/-- The path that such a URL names does not go up. -/
theorem IsRead.not_up (h : u.IsRead IsPlainName) (hDrive : u.IsDriveless)
    (hPath : u.toFilePath? = some path) : [dot, dot] ∉ path.names := by
  obtain ⟨names, hNames, -⟩ := h.path
  have hSteady := h.steady (fun _ hName => hName.toIsWord) hDrive hNames
  have hSlash : ∀ name ∈ names, slash ∉ decode name.toList := fun name hName =>
    (h.each hNames name hName).decoded
  rw [names_of_toFilePath? hPath hNames hSlash]
  intro hMem
  obtain ⟨name, hName, hDecode⟩ := List.mem_map.1 (List.mem_filter.1 hMem).1
  exact absurd (isDots_of_decode hDecode) (by simp [(hSteady name hName).still])

theorem IsRead.isFileUrl_text (h : u.IsRead P) : Resolution.isFileUrl u.text = true := by
  obtain ⟨names, hNames, -⟩ := h.path
  refine String.startsWith_string_iff.2 ?_
  rw [h.toList_text hNames]
  exact ⟨_, rfl⟩

theorem IsSettled.isFileUrl_text (h : u.IsSettled) : Resolution.isFileUrl u.text = true := by
  obtain ⟨names, hLocal, -⟩ := h
  refine String.startsWith_string_iff.2 ?_
  rw [hLocal.toList_text]
  exact ⟨_, rfl⟩

end Url

namespace Resolution

variable {fs : FileSystem} {specifier : String} {p u v : Url} {file : FilePath}

theorem isBuiltin_eq_false (h : isPath specifier = true ∨ isFileUrl specifier = true) :
    isBuiltin nodeBuiltins specifier = false := by
  have hNames : ∀ name ∈ nodeBuiltins, isPath name = false ∧ isFileUrl name = false := by
    decide +kernel
  have hFront : Text.after? "node:".toList specifier.toList = none := by
    rcases h with hPath | hUrl
    · unfold isPath at hPath
      split at hPath
      all_goals first | simp only [*] | cases hPath
      all_goals rfl
    · obtain ⟨rest, hText⟩ : "file:".toList <+: specifier.toList := String.startsWith_string_iff.1 hUrl
      rw [← hText]
      rfl
  rw [← Bool.not_eq_true, isBuiltin, builtinName, hFront, List.contains_iff_mem]
  intro hMem
  obtain ⟨hPath, hUrl⟩ := hNames specifier hMem
  simp [hPath, hUrl] at h

/-- The URL of a file resolves to itself if it reads as itself and stands for itself. -/
theorem resolve_self {σ : Type} {packages : Option (PackageResolver σ)} {format : Format}
    (hUrl : isFileUrl v.text = true) (hText : Url.join p v.text = .ok v)
    (hSelf : classify fs v = ⟨v.text, format⟩) :
    resolve nodeBuiltins packages fs v.text p = pure (.ok ⟨v.text, format⟩) := by
  rw [resolve_of_join (isBuiltin_eq_false (.inr hUrl)) (.inr hUrl) hText, hSelf]

theorem IsProbed.unique {other : FilePath} (h : IsProbed fs u file) (hOther : IsProbed fs u other) :
    file = other := by
  obtain ⟨path, hPath, hOnly⟩ := h.matched
  obtain ⟨path', hPath', hOnly'⟩ := hOther.matched
  cases hPath.symm.trans hPath'
  exact List.singleton_inj.1 (hOnly.symm.trans hOnly')

/-- The URL of what is found is read back from its text, stands for itself, and names the file. -/
theorem IsProbed.settled (h : IsProbed fs u file) (hUrl : Url.ofFilePath? file = some v)
    (hUp : ∀ path, u.toFilePath? = some path → [dot, dot] ∉ path.names) :
    v.IsSettled ∧ classify fs v = ⟨v.text, .dynamic⟩ ∧ ∃ path, v.toFilePath? = some path ∧
      path.isAbsolute = true ∧ path.names = file.names ∧ fs.node path = fs.node file := by
  obtain ⟨path, hPath, hOnly⟩ := h.matched
  have hAbsolute := Url.isAbsolute_of_toFilePath? hPath
  have hMem : file ∈ candidates fs path := by simp [hOnly]
  obtain ⟨d, stem, ending, hMatch⟩ := exists_isMatch hMem
  obtain ⟨names, hLocal, hDots⟩ := Url.local_ofFilePath? hUrl
  have hFound := hMatch.toFilePath?_eq hAbsolute hUrl
  exact ⟨⟨names, hLocal, hDots.2 (hMatch.not_up hAbsolute (hUp path hPath))⟩,
    hMatch.classify_eq hAbsolute hUrl, _, hFound, Url.isAbsolute_of_toFilePath? hFound,
    FilePath.names_of_names (hMatch.names_ne_nil hAbsolute), hMatch.node_eq hAbsolute⟩

theorem moduleFile_text {path : FilePath} (h : v.IsSettled) (hPath : v.toFilePath? = some path) :
    moduleFile v.text = .ok path := by
  simp [moduleFile, h.parse_text, hPath]

/-- A path or the URL of a file, without percent signs, resolves to a module whose URL resolves to the
same module, from any file and with any resolver for packages.  If its file was searched for, the URL
names the file that was found. -/
theorem resolve_again {fs : FileSystem} {specifier : String} {p u : Url}
    (hBase : Url.parse p.text = .ok p) (hScheme : p.scheme = "file") (hWhole : p.IsWhole)
    (hFile : isPath specifier = true ∨ isFileUrl specifier = true)
    (hPercent : '%' ∉ specifier.toList) (hJoin : Url.join p specifier = .ok u)
    (hHost : u.KeepsHost) (hDrive : u.IsDriveless) :
    ∃ m, (∀ {σ : Type} (packages : Option (PackageResolver σ)),
        resolve nodeBuiltins packages fs specifier p = pure (.ok m)) ∧
      (∀ {σ : Type} (packages : Option (PackageResolver σ)) (q : Url),
        resolve nodeBuiltins packages fs m.url q = pure (.ok m)) ∧
      ∀ file, IsProbed fs u file → ∃ path, moduleFile m.url = .ok path ∧
        path.isAbsolute = true ∧ path.names = file.names ∧ fs.node path = fs.node file := by
  have hFileScheme := Url.scheme_of_join hScheme hFile hJoin
  have hRead := Url.read_join hBase hScheme hWhole hPercent hJoin hFileScheme
  refine ⟨classify fs u, fun packages => resolve_of_join (isBuiltin_eq_false hFile) hFile hJoin, ?_⟩
  rcases classify_eq fs hFileScheme with ⟨file, v, hProbed, hUrl, hClass⟩ | ⟨hProbed, hClass⟩
  · obtain ⟨hSettled, hSelf, path, hPath, hFound⟩ :=
      hProbed.settled hUrl fun path hPath => hRead.not_up hDrive hPath
    rw [hClass]
    refine ⟨fun packages q =>
      resolve_self hSettled.isFileUrl_text (hSettled.parseAgainst_text _) hSelf, ?_⟩
    intro other hOther
    rw [hProbed.unique hOther] at hFound
    exact ⟨path, moduleFile_text hSettled hPath, hFound⟩
  · have hText := hRead.parseAgainst_text (fun _ hName => hName.toIsWord) hHost hDrive
    have hSelf : classify fs u = ⟨u.text, (classify fs u).format⟩ := by rw [hClass]
    rw [hSelf]
    exact ⟨fun packages q => resolve_self hRead.isFileUrl_text (hText _) hSelf,
      fun file hOther => absurd ⟨file, hOther⟩ hProbed⟩

end Resolution

namespace Sample

/-- A source in a directory whose name has characters that URLs escape. -/
def escaped : FileSystem := ({} : FileSystem).put (.ofString "/50% #é?/a b.ts") (.file [])

/-- The URL of a name in that directory. -/
def escapedUrl (name : String) : Url :=
  { scheme := "file", authority := some {}, path := .segments ["50%25%20%23%C3%A9%3F", name] }

end Sample

namespace Resolution

theorem resolve_again_escaped :
    ∃ m, resolve nodeBuiltins (none : Option (PackageResolver Unit)) Sample.escaped "./a b"
        (Sample.escapedUrl "main.ts") = pure (.ok m) ∧
      resolve nodeBuiltins (none : Option (PackageResolver Unit)) Sample.escaped m.url
        (Sample.sourceUrl ["main.ts"]) = pure (.ok m) ∧
      ∃ path, moduleFile m.url = .ok path ∧
        path.names = (FilePath.ofString "/50% #é?/a b.ts").names := by
  have hJoin : Url.join (Sample.escapedUrl "main.ts") "./a b" = .ok (Sample.escapedUrl "a%20b") := by
    decide +kernel
  have hWhole : (Sample.escapedUrl "main.ts").IsWhole := by
    intro names hPath
    cases hPath
    decide +kernel
  have hProbed : IsProbed Sample.escaped (Sample.escapedUrl "a%20b")
      (.ofString "/50% #é?/a b.ts") :=
    ⟨by decide +kernel, by decide +kernel, _, rfl, by decide +kernel⟩
  have hBase : Url.parse (Sample.escapedUrl "main.ts").text = .ok (Sample.escapedUrl "main.ts") := by
    decide +kernel
  have hDrive : (Sample.escapedUrl "a%20b").IsDriveless := by
    intro first hFirst
    cases hFirst
    decide +kernel
  obtain ⟨m, hResolve, hAgain, hFile⟩ := @resolve_again Sample.escaped _ _ _ hBase rfl hWhole
    (.inl (by decide)) (by decide) hJoin nofun hDrive
  obtain ⟨path, hPath, -, hNames, -⟩ := hFile _ hProbed
  exact ⟨m, hResolve none, hAgain none _, path, hPath, hNames⟩

end Resolution

end ModuleLoader
