import ModuleLoader.Proofs.Resolution.Extension
import ModuleLoader.Proofs.Session.Place

/-! One module by two specifiers, without and with the extension of its file.  They lead to the same
module exactly if the URL that the first one is read as is that of the file without its extension. -/

namespace ModuleLoader

open FilePath (dot)

variable {σ : Type} {x y : Instant σ} {env : Environment σ} {specifier referrer : String} {p u : Url}
  {file : FilePath} {r r' : ResolvedModule} {id : ModuleId}

namespace Session

/-- Where resolution leaves the world alone, it is only reported. -/
theorem resolve_of_pure (hParent : Url.parse referrer = .ok p)
    (hResolve : Resolution.resolve env.builtins env.packages (env.files x.state.world) specifier p =
      pure (.ok r)) :
    (resolve env specifier (some referrer)).runFrom x =
      some (.ok r, x.hear (.resolved specifier (some referrer) (.ok r))) :=
  runFrom_resolve (by simp [startUrl?, hParent, Except.toOption]) hResolve

/-- A module that is made for a specifier is bound to its URL. -/
theorem get?_of_moduleFor (hx : x.Lawful) (hParent : Url.parse referrer = .ok p)
    (hResolve : Resolution.resolve env.builtins env.packages (env.files x.state.world) specifier p =
      pure (.ok r)) (hRun : (moduleFor env specifier referrer).runFrom x = some (.ok id, y)) :
    y.Lawful ∧ x.Later y ∧ y.state.cache.get? r.url = some id := by
  have hReport := resolve_of_pure hParent hResolve
  obtain ⟨r', w, hFound, hModule⟩ := Action.exists_of_runFrom_bind hRun
  cases hReport.symm.trans hFound
  obtain ⟨hw, hLater⟩ := later_of_resolve hx hReport
  have hCached : (moduleAt env r).Meets Change (fun _ => True) _ _ _ :=
    meets_cachedModule env r false (fun _ => False) hw
  obtain ⟨hy, hGet⟩ := (hCached.of_runFrom hModule).1 id rfl
  exact ⟨hy.lawful, hLater.trans hy.later, hGet⟩

/-- A module that has come by one specifier is there for another one that means its URL, and for no
other one. -/
theorem moduleFor_of_moduleFor {first later : String} (hx : x.Lawful)
    (hParent : Url.parse referrer = .ok p)
    (hFirst : Resolution.resolve env.builtins env.packages (env.files x.state.world) first p =
      pure (.ok r))
    (hLater : Resolution.resolve env.builtins env.packages (env.files x.state.world) later p =
      pure (.ok r'))
    (hRun : (moduleFor env first referrer).runFrom x = some (.ok id, y))
    (hFiles : env.files y.state.world = env.files x.state.world) :
    (r'.url = r.url → (moduleFor env later referrer).runFrom y =
      some (.ok id, y.hear (.resolved later (some referrer) (.ok r')))) ∧
    ∀ id' z, (moduleFor env later referrer).runFrom y = some (.ok id', z) →
      (id' = id ↔ r'.url = r.url) := by
  obtain ⟨hy, -, hGet⟩ := get?_of_moduleFor hx hParent hFirst hRun
  rw [← hFiles] at hLater
  have hReport : (resolve env later (some referrer)).runFrom y = _ := resolve_of_pure hParent hLater
  have hSame : r'.url = r.url → (moduleFor env later referrer).runFrom y =
      some (.ok id, y.hear (.resolved later (some referrer) (.ok r'))) := by
    intro hUrl
    rw [moduleFor, Action.runFrom_bind_of_ok hReport]
    exact cachedModule_of_get? env false (hUrl ▸ hGet)
  refine ⟨hSame, fun id' z hAgain => ⟨?_, fun hUrl => ?_⟩⟩
  · rintro rfl
    obtain ⟨hz, hKept, hGet'⟩ := get?_of_moduleFor hy hParent hLater hAgain
    obtain ⟨m, hm, hUrl⟩ := hz.stored _ _ (hKept.cache _ _ hGet)
    obtain ⟨n, hn, hUrl'⟩ := hz.stored _ _ hGet'
    cases hm.symm.trans hn
    exact hUrl'.symm.trans hUrl
  · rw [hSame hUrl] at hAgain
    cases hAgain
    rfl

/-- A specifier without an extension, and the specifier of the file that is found for it.  The first
one means the URL of the file, the other one its own URL with the extension behind it.  Whichever of
them a module comes by, the other one leads to the same module exactly if the specifier is read as the
URL of the file without its extension, as it is if it is direct, and then the module is not made
again. -/
theorem same_module_by_extension (env : Environment σ)
    (hBuiltins : ∀ path, Resolution.isPath path = true →
      Resolution.isBuiltin env.builtins path = false)
    (hParent : Url.parse referrer = .ok p) (hScheme : p.scheme = "file")
    (hText : Resolution.IsBarePath specifier) (hJoin : Url.join p specifier = .ok u)
    (hLone : ∀ name, u.path = .segments [name] → Url.isColonDrive name = false)
    {world : σ} {requests : List (Nat × Request σ)}
    (hx : x ∈ (serve env requests).moments (.fresh world))
    (hProbed : Resolution.IsProbed (env.files x.state.world) u file) :
    ∃ bare ending w, ending ∈ TypeScript.extensions ∧
      file.bytes = bare.bytes ++ dot :: Text.Utf8.ofString ending ∧
      Url.ofFilePath? bare = some w ∧
      Resolution.resolve env.builtins env.packages (env.files x.state.world) specifier p =
        pure (.ok ⟨w.text ++ ("." ++ ending), .dynamic⟩) ∧
      Resolution.resolve env.builtins env.packages (env.files x.state.world)
        (specifier ++ ("." ++ ending)) p = pure (.ok ⟨u.text ++ ("." ++ ending), .dynamic⟩) ∧
      (Resolution.IsDirect p u specifier → u.text = w.text) ∧
      ∀ first later,
        (first = specifier ∧ later = specifier ++ ("." ++ ending) ∨
          first = specifier ++ ("." ++ ending) ∧ later = specifier) →
        ∀ id y, (moduleFor env first referrer).runFrom x = some (.ok id, y) →
          env.files y.state.world = env.files x.state.world →
          (u.text = w.text → (moduleFor env later referrer).runFrom y =
            some (.ok id, y.hear (.resolved later (some referrer)
              (.ok ⟨u.text ++ ("." ++ ending), .dynamic⟩)))) ∧
          ∀ id' z, (moduleFor env later referrer).runFrom y = some (.ok id', z) →
            (id' = id ↔ u.text = w.text) := by
  obtain ⟨bare, ending, w, longer, hEnding, hBytes, hUrl, hClass, hLonger, hLongClass, hDirect⟩ :=
    Resolution.exists_bare hParent hScheme hText hJoin hProbed hLone
  obtain ⟨-, hPath⟩ := Url.front_of_path hText.path hText.slash ("." ++ ending)
  have hShort : Resolution.resolve env.builtins env.packages (env.files x.state.world) specifier p =
      pure (.ok (Resolution.classify (env.files x.state.world) u)) :=
    Resolution.resolve_of_join (hBuiltins _ hText.path) (.inl hText.path) hJoin
  have hLong : Resolution.resolve env.builtins env.packages (env.files x.state.world)
      (specifier ++ ("." ++ ending)) p =
        pure (.ok (Resolution.classify (env.files x.state.world) longer)) :=
    Resolution.resolve_of_join (hBuiltins _ hPath) (.inl hPath) hLonger
  rw [hClass] at hShort
  rw [hLongClass] at hLong
  have hUrls : u.text ++ ("." ++ ending) = w.text ++ ("." ++ ending) ↔ u.text = w.text :=
    String.append_left_inj _
  refine ⟨bare, ending, w, hEnding, hBytes, hUrl, hShort, hLong, fun h => by rw [hDirect h], ?_⟩
  have hLawful := lawful_of_mem_serve hx
  rintro first later (⟨rfl, rfl⟩ | ⟨rfl, rfl⟩) id y hRun hFiles
  · have hAgain := moduleFor_of_moduleFor hLawful hParent hShort hLong hRun hFiles
    rwa [hUrls] at hAgain
  · obtain ⟨hSame, hOnly⟩ := moduleFor_of_moduleFor hLawful hParent hLong hShort hRun hFiles
    rw [eq_comm, hUrls] at hSame
    refine ⟨fun hText => ?_, fun id' z hAgain => ?_⟩
    · rw [hText, hSame hText]
    · rw [hOnly id' z hAgain, eq_comm, hUrls]

end Session

namespace Sample

/-- The sample's files with escapes, and one with a percent sign in its name. -/
def percent : File.FileSystem := escaped.put (.ofString "/100%.ts") (.file [])

def percentEnvironment : Environment Unit := { markedEnvironment with files := fun _ => percent }

theorem isDirect_blank :
    Resolution.IsDirect (escapedUrl "main.ts") (escapedUrl "a%20b") "./a b" where
  parent := ⟨.ofString "/50% #é?/main.ts", ⟨_, rfl⟩, by decide +kernel⟩
  percent := by decide
  host := rfl
  used := by
    intro names hNames
    cases hNames
    decide +kernel

end Sample

namespace Session

open Sample

/-- A blank in a specifier and escapes in its parent keep no modules apart. -/
theorem same_module_by_extension_blank : ∃ x y id,
    (moduleFor percentEnvironment "./a b" (escapedUrl "main.ts").text).runFrom (.fresh ()) =
        some (.ok id, x) ∧
      (moduleFor percentEnvironment "./a b.ts" (escapedUrl "main.ts").text).runFrom x =
        some (.ok id, y) := by
  have hBuiltins : ∀ path, Resolution.isPath path = true →
      Resolution.isBuiltin percentEnvironment.builtins path = false := fun path hPath =>
    Resolution.isBuiltin_eq_false (.inl hPath)
  have hParent : Url.parse (escapedUrl "main.ts").text = .ok (escapedUrl "main.ts") := by
    decide +kernel
  have hText : Resolution.IsBarePath "./a b" :=
    ⟨by decide, by decide, by decide, by decide⟩
  have hJoin : Url.join (escapedUrl "main.ts") "./a b" = .ok (escapedUrl "a%20b") := by
    decide +kernel
  have hLone : ∀ name, (escapedUrl "a%20b").path = .segments [name] →
      Url.isColonDrive name = false := by
    intro name hName
    simp [escapedUrl] at hName
  have hProbed : Resolution.IsProbed percent (escapedUrl "a%20b")
      (.ofString "/50% #é?/a b.ts") :=
    ⟨by decide +kernel, by decide +kernel, _, rfl, by decide +kernel⟩
  have hFresh : Moment.fresh () ∈ (serve percentEnvironment []).moments (.fresh ()) :=
    List.mem_cons_self
  obtain ⟨bare, ending, w, hEnding, hBytes, -, -, -, hDirect, hModules⟩ :=
    same_module_by_extension percentEnvironment hBuiltins hParent rfl hText hJoin hLone hFresh
      hProbed
  have hOnly : ∀ ending ∈ TypeScript.extensions,
      (dot :: Text.Utf8.ofString ending).isSuffixOf (FilePath.ofString "/50% #é?/a b.ts").bytes →
        ending = "ts" := by decide +kernel
  obtain rfl := hOnly ending hEnding (List.isSuffixOf_iff_suffix.2 ⟨bare.bytes, hBytes.symm⟩)
  have hRun : Action.endsWith ((moduleFor percentEnvironment "./a b"
      (escapedUrl "main.ts").text).runFrom (.fresh ())) (fun _ _ => true) = true := by
    decide +kernel
  obtain ⟨id, x, hEnd, -⟩ := Action.exists_of_endsWith hRun
  obtain ⟨hSame, -⟩ := hModules _ _ (.inl ⟨rfl, rfl⟩) id x hEnd rfl
  exact ⟨x, _, id, hEnd, hSame (hDirect isDirect_blank)⟩

/-- A percent sign in a specifier is kept, and in the path of a file it is escaped. -/
theorem other_module_by_percent : ∃ x y id id' m n,
    (moduleFor percentEnvironment "./100%" "file:///main.ts").runFrom (.fresh ()) =
        some (.ok id, x) ∧
      (moduleFor percentEnvironment "./100%.ts" "file:///main.ts").runFrom x =
        some (.ok id', y) ∧
      y.state.static? id = some m ∧ m.url = "file:///100%25.ts" ∧ m.code = "/100%.ts" ∧
      y.state.static? id' = some n ∧ n.url = "file:///100%.ts" ∧ n.code = "/100%.ts" := by
  have hRun : Action.endsWith ((moduleFor percentEnvironment "./100%" "file:///main.ts").runFrom
      (.fresh ())) (fun id x =>
        Action.endsWith ((moduleFor percentEnvironment "./100%.ts" "file:///main.ts").runFrom x)
          fun id' y => decide ((y.state.static? id).map (fun m => (m.url, m.code)) =
              some ("file:///100%25.ts", "/100%.ts") ∧
            (y.state.static? id').map (fun m => (m.url, m.code)) =
              some ("file:///100%.ts", "/100%.ts"))) = true := by decide +kernel
  obtain ⟨id, x, hEnd, hChecked⟩ := Action.exists_of_endsWith hRun
  obtain ⟨id', y, hLater, hFiles⟩ := Action.exists_of_endsWith hChecked
  obtain ⟨hShort, hLong⟩ := of_decide_eq_true hFiles
  obtain ⟨m, hm, hFile⟩ := Option.map_eq_some_iff.1 hShort
  obtain ⟨n, hn, hFile'⟩ := Option.map_eq_some_iff.1 hLong
  obtain ⟨hUrl, hCode⟩ := Prod.mk.inj hFile
  obtain ⟨hUrl', hCode'⟩ := Prod.mk.inj hFile'
  exact ⟨x, y, id, id', m, n, hEnd, hLater, hm, hUrl, hCode, hn, hUrl', hCode'⟩

end Session

end ModuleLoader
