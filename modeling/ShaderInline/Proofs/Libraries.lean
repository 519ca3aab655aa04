import ShaderInline.Proofs.Translation
import ShaderInline.Provider.Library

/-!
# Libraries in lock step

A library whose files were entered one by one with other names and contents is the first one with
each key and each content replaced, as long as the names are the same as each other where they were
before. Both are expanded under the same limit, and neither limit is ever met.
-/
namespace ShaderInline

namespace PathMap

variable {α β : Type} {key : Path → Path} {path : Path}

/-- The map with each key and each value replaced by another one. -/
def mapEntries (key : Path → Path) (value : α → β) (map : PathMap α) : PathMap β :=
  ⟨map.entries.map (Prod.map key value)⟩

@[simp] theorem size_mapEntries (value : α → β) (map : PathMap α) :
    (map.mapEntries key value).size = map.size := by
  simp [mapEntries, size]

theorem replace_map {entries : List (Path × α)}
    (h : ∀ entry ∈ entries, (key entry.1 ≈ key path ↔ entry.1 ≈ path)) (value : α → β) (added : α) :
    replace (key path) (value added) (entries.map (Prod.map key value)) =
      (replace path added entries).map (Prod.map key value) := by
  induction entries with
  | nil => rfl
  | cons entry entries ih =>
    obtain ⟨first, previous⟩ := entry
    have hfirst : key first ≈ key path ↔ first ≈ path := h _ List.mem_cons_self
    rw [List.map_cons, Prod.map_apply, replace, replace]
    by_cases hsame : first ≈ path
    · rw [if_pos (hfirst.mpr hsame), if_pos hsame]
      rfl
    · rw [if_neg (hfirst.not.mpr hsame), if_neg hsame,
        ih fun other hmem => h other (List.mem_cons_of_mem _ hmem)]
      rfl

theorem find?_map {entries : List (Path × α)}
    (h : ∀ entry ∈ entries, (key entry.1 ≈ key path ↔ entry.1 ≈ path)) (value : α → β) :
    ((entries.map (Prod.map key value)).find? fun entry => entry.1 ≈ key path) =
      (entries.find? fun entry => entry.1 ≈ path).map (Prod.map key value) := by
  induction entries with
  | nil => rfl
  | cons entry entries ih =>
    have hfirst := h entry List.mem_cons_self
    have hrest := ih fun other hmem => h other (List.mem_cons_of_mem _ hmem)
    rw [List.map_cons]
    by_cases hsame : entry.1 ≈ path
    · rw [List.find?_cons_of_pos (by simpa using hfirst.mpr hsame),
        List.find?_cons_of_pos (by simpa using hsame)]
      rfl
    · rw [List.find?_cons_of_neg (by simpa using hfirst.not.mpr hsame),
        List.find?_cons_of_neg (by simpa using hsame), hrest]

variable {map : PathMap α}

/-- An insertion is replaced like what was there before it, if the same keys are the same still. -/
theorem insert_mapEntries (h : ∀ other ∈ map.keys, (key other ≈ key path ↔ other ≈ path))
    (value : α → β) (added : α) :
    (map.mapEntries key value).insert (key path) (value added) =
      (map.insert path added).mapEntries key value := by
  have hentries := replace_map (fun entry hmem => h entry.1 (List.mem_map_of_mem hmem)) value added
  exact congrArg PathMap.mk hentries

theorem get?_mapEntries (h : ∀ other ∈ map.keys, (key other ≈ key path ↔ other ≈ path))
    (value : α → β) : (map.mapEntries key value).get? (key path) = (map.get? path).map value := by
  have hentries := find?_map (fun entry hmem => h entry.1 (List.mem_map_of_mem hmem)) value
  rw [get?, mapEntries, hentries, get?, Option.map_map, Option.map_map]
  rfl

theorem mem_replace {entries : List (Path × α)} {entry : Path × α} {value : α}
    (h : entry ∈ replace path value entries) :
    entry ∈ entries ∨
      entry.2 = value ∧ (entry.1 = path ∨ ∃ other ∈ entries, other.1 = entry.1) := by
  induction entries with
  | nil =>
    cases List.mem_singleton.mp h
    exact .inr ⟨rfl, .inl rfl⟩
  | cons first entries ih =>
    rw [replace] at h
    split at h
    · rcases List.mem_cons.mp h with rfl | h
      · exact .inr ⟨rfl, .inr ⟨first, List.mem_cons_self, rfl⟩⟩
      · exact .inl (List.mem_cons_of_mem _ h)
    · rcases List.mem_cons.mp h with rfl | h
      · exact .inl List.mem_cons_self
      · rcases ih h with hmem | ⟨hvalue, rfl | ⟨other, hmem, hkey⟩⟩
        · exact .inl (List.mem_cons_of_mem _ hmem)
        · exact .inr ⟨hvalue, .inl rfl⟩
        · exact .inr ⟨hvalue, .inr ⟨other, List.mem_cons_of_mem _ hmem, hkey⟩⟩

theorem exists_entry_of_get? {value : α} (h : map.get? path = some value) :
    ∃ entry ∈ map.entries, entry.2 = value := by
  obtain ⟨entry, hfound, hvalue⟩ := Option.map_eq_some_iff.mp h
  exact ⟨entry, List.mem_of_find?_eq_some hfound, hvalue⟩

end PathMap

namespace Library

variable {files : List (String × String)}

theorem ofFiles_concat (files : List (String × String)) (text content : String) :
    ofFiles (files ++ [(text, content)]) = (ofFiles files).insert text content :=
  List.foldl_concat _ _ _ _

/-- What the files of a library do not decide is the same in all libraries of files. -/
theorem ofFiles_eq (files : List (String × String)) :
    ofFiles files = { files := (ofFiles files).files } := by
  induction files using List.reverseRecOn with
  | nil => rfl
  | append_singleton files file ih =>
    rw [ofFiles_concat, ih]
    rfl

/-- A library holds what it was given. -/
theorem mem_entries_ofFiles {entry : Path × String} (h : entry ∈ (ofFiles files).files.entries) :
    (∃ file ∈ files, Path.normal file.1 = entry.1) ∧ ∃ file ∈ files, file.2 = entry.2 := by
  induction files using List.reverseRecOn generalizing entry with
  | nil => cases h
  | append_singleton files file ih =>
    have hmono : ∀ {P : String × String → Prop}, (∃ other ∈ files, P other) →
        ∃ other ∈ files ++ [file], P other :=
      fun ⟨other, hmem, hother⟩ => ⟨other, List.mem_append_left _ hmem, hother⟩
    have hlast : file ∈ files ++ [file] := by simp
    rw [ofFiles_concat] at h
    rcases PathMap.mem_replace h with hmem | ⟨hcontent, hkey | ⟨other, hmem, hkey⟩⟩
    · exact ⟨hmono (ih hmem).1, hmono (ih hmem).2⟩
    · exact ⟨⟨file, hlast, hkey.symm⟩, ⟨file, hlast, hcontent.symm⟩⟩
    · exact ⟨hkey ▸ hmono (ih hmem).1, ⟨file, hlast, hcontent.symm⟩⟩

theorem mem_keys_ofFiles {key : Path} (h : key ∈ (ofFiles files).files.keys) :
    ∃ file ∈ files, Path.normal file.1 = key := by
  obtain ⟨entry, hmem, rfl⟩ := List.mem_map.mp h
  exact (mem_entries_ofFiles hmem).1

/-- The library of other files, each in the place of one of the first ones. -/
theorem files_ofFiles_map {key : Path → Path} {name value : String → String}
    (hname : ∀ file ∈ files, Path.normal (name file.1) = key (Path.normal file.1))
    (hsame : ∀ file ∈ files, ∀ other ∈ files,
      (key (Path.normal other.1) ≈ key (Path.normal file.1) ↔
        Path.normal other.1 ≈ Path.normal file.1)) :
    (ofFiles (files.map (Prod.map name value))).files =
      (ofFiles files).files.mapEntries key value := by
  induction files using List.reverseRecOn with
  | nil => rfl
  | append_singleton files file ih =>
    have hfiles := ih (fun other hmem => hname other (List.mem_append_left _ hmem))
      fun first hfirst other hother =>
        hsame first (List.mem_append_left _ hfirst) other (List.mem_append_left _ hother)
    have hkeys : ∀ other ∈ (ofFiles files).files.keys,
        (key other ≈ key (Path.normal file.1) ↔ other ≈ Path.normal file.1) := by
      intro other hmem
      obtain ⟨known, hknown, rfl⟩ := mem_keys_ofFiles hmem
      exact hsame file (by simp) known (List.mem_append_left _ hknown)
    rw [List.map_append, List.map_singleton, Prod.map, ofFiles_concat, ofFiles_concat, insert,
      insert, hfiles, hname file (by simp), PathMap.insert_mapEntries hkeys]

theorem read_ofFiles (files : List (String × String)) (path : Path) :
    (ofFiles files).read path = match (ofFiles files).files.get? path with
      | some content => .ok content
      | none => .error ("no such file: " ++ path.text) := by
  rw [ofFiles_eq]
  rfl

/-- The library of the same files with other contents. -/
theorem files_ofFiles_mapContents (f : String → String) (files : List (String × String)) :
    (ofFiles (files.map (Prod.map id f))).files = (ofFiles files).files.mapEntries id f :=
  files_ofFiles_map (fun _ _ => rfl) fun _ _ _ _ => Iff.rfl

theorem read_ofFiles_mapContents (f : String → String) (files : List (String × String))
    (path : Path) :
    (ofFiles (files.map (Prod.map id f))).read path = ((ofFiles files).read path).map f := by
  have hfound : ((ofFiles files).files.mapEntries id f).get? path =
      ((ofFiles files).files.get? path).map f :=
    PathMap.get?_mapEntries (fun _ _ => Iff.rfl) f
  rw [read_ofFiles, read_ofFiles, files_ofFiles_mapContents, hfound]
  cases (ofFiles files).files.get? path <;> rfl

/-- No import text is refused by a library of files. -/
theorem resolve_ofFiles (files : List (String × String)) (importText : String) (importer : Path) :
    (ofFiles files).provider.resolve importText importer () =
      (.ok (importer.resolve importText), ()) := by
  rw [ofFiles_eq]
  rfl

theorem limit_of_mapEntries {library library' : Library} {key : Path → Path}
    {value : String → String} (h : library'.files = library.files.mapEntries key value) :
    library'.limit = library.limit := by
  rw [limit, h, PathMap.size_mapEntries, limit]

theorem mapError_eq_ok_iff {ε ε' α : Type} {result : Except ε α} {f : ε → ε'} {a : α} :
    result.mapError f = .ok a ↔ result = .ok a := by
  cases result <;> simp [Except.mapError]

theorem mapError_eq_error_iff {ε ε' α : Type} {result : Except ε α} {f : ε → ε'} {e : ε'} :
    result.mapError f = .error e ↔ ∃ cause, result = .error cause ∧ f cause = e := by
  cases result <;> simp [Except.mapError]

/-- A call on a library is one under a limit that is not met. -/
theorem toLimited_expand (library : Library) (directives : Directives) (text : String) :
    (library.expand directives text).toLimited =
      library.provider.call directives library.limit text {} {} () :=
  Outcome.toLimited_settled _ _

section History

variable {directives : Directives} {text : String}

/-- What an expansion reads is the content of a file that was entered. -/
theorem exists_file_of_hasRead {path : Path} {content : String}
    (h : ((ofFiles files).expand directives text).run.HasRead path content) :
    ∃ file ∈ files, file.2 = content := by
  obtain ⟨depth, hread⟩ := h
  obtain ⟨before, after, htakes⟩ := (call_answeredBy _ _ _ _ _ _ _).exists_takes hread
  have hanswer : (ofFiles files).read path = .ok content := congrArg Prod.fst htakes
  rw [read_ofFiles] at hanswer
  cases hfound : (ofFiles files).files.get? path with
  | none =>
    rw [hfound] at hanswer
    cases hanswer
  | some found =>
    rw [hfound] at hanswer
    cases hanswer
    obtain ⟨entry, hentry, rfl⟩ := PathMap.exists_entry_of_get? hfound
    exact (mem_entries_ofFiles hentry).2

theorem eq_resolve_of_resolved {importText : String} {importer path : Path} {line : Nat}
    (h : .resolved importText importer line (.ok path) ∈
      ((ofFiles files).expand directives text).run.events) :
    path = importer.resolve importText := by
  obtain ⟨before, after, htakes⟩ := (call_answeredBy _ _ _ _ _ _ _).exists_takes h
  rw [Event.Takes, resolve_ofFiles] at htakes
  cases htakes
  rfl

end History

variable {t : Translation} {library library' : Library} {directives directives' : Directives}
  {text text' : String} {Meets : Path → Prop} {Runs : Run Unit → Run Unit → Prop}

/-- A library that is simulated by another one. -/
theorem expand_translate
    (hsim : t.Simulates library.provider directives library'.provider directives'
      (library.expand directives text).run Meets Runs)
    (hlimit : library'.limit = library.limit) (houter : t.outer = [])
    (htext : Path.normal text' = t.path (Path.normal text)) (hpath : Meets (Path.normal text))
    (hruns : Runs { source := () } { source := () }) :
    let here := library.expand directives text
    let there := library'.expand directives' text'
    ((∃ tree, here.result = .ok (tree.flatten (Path.normal text)) ∧
        there.result = .ok ((t.tree tree).flatten (Path.normal text')) ∧
        Yields library.provider directives {} (.file (Path.normal text)) { source := () } tree
          here.run) ∨
      ∃ failure, here.result = .error failure ∧ there.result = .error (t.failure failure)) ∧
    Runs here.run there.run := by
  intro here there
  obtain ⟨ended, hhere, hthere, hyields, hend⟩ := call_translate hsim htext (by simp) hpath hruns
  have hopens : t.opens {} = {} := by simp [Translation.opens, houter]
  have hcall := toLimited_expand library' directives' text'
  rw [hlimit] at hcall
  rw [hopens, ← hcall] at hthere hend
  rw [← toLimited_expand] at hhere hyields hend
  change here.result.mapError Stop.failed = _ at hhere
  change there.result.mapError Stop.failed = _ at hthere
  refine ⟨?_, hend⟩
  cases ended with
  | ok tree =>
    exact .inl ⟨tree, mapError_eq_ok_iff.mp hhere, mapError_eq_ok_iff.mp hthere, hyields tree rfl⟩
  | error stop =>
    obtain ⟨failure, hfailure, rfl⟩ := mapError_eq_error_iff.mp hhere
    obtain ⟨failure', hfailure', hstop⟩ := mapError_eq_error_iff.mp hthere
    obtain rfl := Stop.failed.inj hstop
    exact .inr ⟨failure, hfailure, hfailure'⟩

end Library

end ShaderInline
