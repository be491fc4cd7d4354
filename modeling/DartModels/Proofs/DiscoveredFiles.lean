import DartModels.Proofs.IsolatedModels
import DartModels.Proofs.KeptSources

/-!
# Discovered files

A search for the names that end with a text returns the files with such a name at any depth below the
directory, each once and in order, and nothing if the path leads to no directory.  It looks at the
directory, at the directories below it and at what has such a name, and it fails exactly if one of
their paths is too long to be looked at.

    a search that is not refused finds each file with a name that ends so              (mem_found_iff)
    a search succeeds ↔ no path that it looks at is refused                       (exists_glob_ending)
    the files of a source directory                                                  (discover_files)
-/

namespace DartModels

namespace FileSystem

variable {fs : FileSystem} {dir : Path.Tidy} {start ext : String} {here current l : Location}
  {way names : List Path.Part}

/-! ## What a search looks at -/

/-- A path leads to a directory. -/
def Opens (fs : FileSystem) (path : String) (here : Location) : Prop :=
  fs.locate path = .ok here ∧ fs.lookup here = some .directory

/-- The last name on a way ends with a text. -/
def EndsWith (ext : String) (way : List Path.Part) : Prop :=
  ∃ name ∈ way.getLast?, ext.toList <:+ name

/-- The ways at whose ends a search looks: the one to the directory itself, and those to the
directories below it and to what has a name that ends with the text. -/
def Visits (fs : FileSystem) (dir : Path.Tidy) (ext : String) (way : List Path.Part) : Prop :=
  way = [] ∨ ∃ here entry, fs.Opens dir.toString here ∧ (here ++ way, entry) ∈ fs.entries ∧
    (entry = .directory ∨ EndsWith ext way)

/-- The path of what lies a way below a directory is refused because it is too long. -/
def Refused (fs : FileSystem) (dir : Path.Tidy) (way : List Path.Part) : Prop :=
  hasNul (dir.down way).toString = false ∧
    fs.stat (dir.down way).toString = .error .nameTooLong

/-- No name holds the character NUL, which no path may. -/
def NulFree (fs : FileSystem) : Prop := ∀ l, fs.lookup l ≠ none → ∀ q ∈ l, '\x00' ∉ q

theorem endsWith_iff : EndsWith ext way ↔ ∃ down name, way = down ++ [name] ∧ ext.toList <:+ name := by
  constructor
  · rintro ⟨name, hname, hsuffix⟩
    exact ⟨way.dropLast, name, (List.dropLast_append_getLast? name hname).symm, hsuffix⟩
  · rintro ⟨down, name, rfl, hsuffix⟩
    exact ⟨name, List.getLast?_concat, hsuffix⟩

/-- A path is refused if looking at it fails. -/
theorem refused_iff : Refused fs dir way ↔ ¬∃ entry, fs.look dir way = .ok entry := by
  unfold Refused look
  dsimp only
  split
  · next hnul => simp [hnul]
  · next hnul =>
    rw [Bool.not_eq_true] at hnul
    split
    · next hstat => simp [hstat]
    · next hstat => simp [hstat, hnul]
    · next cause hcause hstat =>
      have hne : cause ≠ .nameTooLong := hcause
      simp [hstat, hne]

/-! ## Names without NUL -/

theorem nulFree_of_entries (h : ∀ e ∈ fs.entries, ∀ q ∈ e.1, '\x00' ∉ q) :
    fs.NulFree := by
  intro l hl
  by_cases hroot : l = []
  · rw [hroot]
    exact List.forall_mem_nil _
  · obtain ⟨entry, hentry⟩ := Option.ne_none_iff_exists'.mp hl
    exact h _ (mem_of_lookup hroot hentry)

/-- What stands is reached through names that stand. -/
theorem noNul_of_walk (hnul : fs.NulFree) (hw : fs.walk current names = .ok l)
    (hl : fs.lookup l ≠ none) : ∀ q ∈ names, '\x00' ∉ q := by
  fun_induction fs.walk current names with
  | case1 current => exact List.forall_mem_nil _
  | case2 current p names hunnamed ih =>
    refine List.forall_mem_cons.mpr ⟨?_, ih hw⟩
    have hempty : p = [] ∨ p = Path.dot := by simpa [Path.isNamed, or_iff_not_imp_left] using hunnamed
    rcases hempty with rfl | rfl <;> decide
  | case3 current names hnamed ih => exact List.forall_mem_cons.mpr ⟨by decide, ih hw⟩
  | case4 current p names hnamed hdots hlong => cases hw
  | case5 current p names hnamed hdots hlong hlast =>
    cases hw
    rw [List.isEmpty_iff.mp hlast]
    exact List.forall_mem_singleton.mpr (hnul _ hl p (by simp))
  | case6 current p names hnamed hdots hlong hlast hentry ih =>
    have hstands : fs.lookup (current ++ [p]) ≠ none := by
      rw [hentry]
      exact Option.some_ne_none _
    exact List.forall_mem_cons.mpr ⟨hnul _ hstands p (by simp), ih hw⟩
  | case7 current p names hnamed hdots hlong hlast content hentry => cases hw
  | case8 current p names hnamed hdots hlong hlast hentry => cases hw

theorem Start.noNul_parts (hs : Start fs dir here) (hnul : fs.NulFree) :
    ∀ q ∈ dir.parts, '\x00' ∉ q := by
  have hlocated := hs.located
  rw [locate_tidy hs.proper] at hlocated
  split at hlocated
  · cases hlocated
  · refine noNul_of_walk hnul hlocated ?_
    rw [hs.stands]
    exact nofun

/-- The path of what stands below a directory holds no NUL. -/
theorem Start.noNul_down (hs : Start fs dir here) (hfs : fs.WellFormed) (hnul : fs.NulFree)
    (hentry : fs.lookup (here ++ way) ≠ none) : hasNul (dir.down way).toString = false := by
  have hproper : ∀ q ∈ way, Path.Proper q := fun q hq =>
    (hfs.plain_of_mem hentry (List.mem_append_right here hq)).1.toProper
  rw [Bool.eq_false_iff, ne_eq, hasNul_toString (hs.proper_down hproper)]
  rintro ⟨q, hq, hmem⟩
  rcases List.mem_append.mp hq with hq | hq
  · exact hs.noNul_parts hnul q hq hmem
  · exact hnul _ hentry q (List.mem_append_right here hq) hmem

/-! ## Searches for an ending -/

/-- The files that a search for an ending finds. -/
theorem finds_ending_iff (hs : Start fs dir here) (hfs : fs.WellFormed) (hnul : fs.NulFree)
    (hplain : Wildcard.isPattern ext.toList = false) :
    Finds fs dir here (Wildcard.parse ('*' :: ext.toList)) [] way ↔
      (∃ content, fs.lookup (here ++ way) = some (.file content)) ∧ EndsWith ext way := by
  rw [endsWith_iff]
  constructor
  · rintro ⟨-, hfile, down, name, hway, hmatches⟩
    exact ⟨hfile, down, name, hway, Wildcard.suffix_of_matchItems hplain hmatches⟩
  · rintro ⟨⟨content, hfile⟩, down, name, hway, hsuffix⟩
    refine ⟨hs.noNul_down hfs hnul (by rw [hfile]; exact nofun), ⟨content, hfile⟩, down, name, hway, ?_⟩
    exact (Wildcard.matchItems_ending_iff hplain).mpr hsuffix

theorem fits_iff (hs : Start fs dir here) (hfs : fs.WellFormed)
    (hentry : fs.lookup (here ++ way) ≠ none) : Fits dir way ↔ ¬Refused fs dir way := by
  rw [refused_iff, not_not, look_ok_iff hs hfs hentry]

section

variable (hs : Start fs (.ofString start) here) (hfs : fs.WellFormed)
  (hplain : Wildcard.isPattern ext.toList = false) (hslash : '/' ∉ ext.toList)

include hs hfs hplain hslash

/-- A search that is not refused finds each file with a name that ends with the text. -/
theorem mem_found_iff (hnul : fs.NulFree) {found : List String}
    (h : fs.glob start ("*" ++ ext) = .ok found) (text : String) :
    text ∈ found ↔ ∃ way, ((∃ content, fs.lookup (here ++ way) = some (.file content)) ∧
      EndsWith ext way) ∧ text = String.ofList (Path.joinSlash way) := by
  obtain ⟨hparts, hlast⟩ := readPattern_name hplain hslash
  have hnames : ∀ q ∈ ([] : List Path.Part), Path.Plain q := List.forall_mem_nil _
  rw [mem_glob hs hfs hnames hparts hlast h]
  simp only [finds_ending_iff hs hfs hnul hplain]

/-- What a search finds are the ways to the files with names that end with the text, each once. -/
theorem exists_ways (hnul : fs.NulFree) {found : List String}
    (h : fs.glob start ("*" ++ ext) = .ok found) :
    ∃ ways : List (List Path.Part), ways.Nodup ∧
      found = ways.map (fun way => String.ofList (Path.joinSlash way)) ∧
      ∀ way, way ∈ ways ↔
        (∃ content, fs.lookup (here ++ way) = some (.file content)) ∧ EndsWith ext way := by
  have hmem := mem_found_iff hs hfs hplain hslash hnul h
  have hback : (found.map fun text => Path.splitSlash text.toList).map
      (fun way => String.ofList (Path.joinSlash way)) = found := by
    simp [Function.comp_def, Path.joinSlash_splitSlash]
  have hsplit : ∀ way, (∃ content, fs.lookup (here ++ way) = some (.file content)) →
      EndsWith ext way → Path.splitSlash (String.ofList (Path.joinSlash way)).toList = way := by
    rintro way ⟨content, hfile⟩ hends
    have hne : way ≠ [] := by
      rintro rfl
      obtain ⟨name, hname, -⟩ := hends
      cases hname
    rw [String.toList_ofList]
    refine Path.splitSlash_joinSlash hne fun q hq => ?_
    have hstands : fs.lookup (here ++ way) ≠ none := by
      rw [hfile]
      exact nofun
    exact (hfs.plain_of_mem hstands (List.mem_append_right here hq)).1.noSlash
  refine ⟨found.map fun text => Path.splitSlash text.toList, ?_, hback.symm, fun way => ?_⟩
  · obtain ⟨hparts, hlast⟩ := readPattern_name hplain hslash
    refine List.Nodup.of_map (fun way => String.ofList (Path.joinSlash way)) ?_
    rw [hback]
    exact nodup_of_increasing (increasing_glob hs hfs hparts hlast h)
  · rw [List.mem_map]
    constructor
    · rintro ⟨text, htext, rfl⟩
      obtain ⟨way, ⟨hfile, hends⟩, rfl⟩ := (hmem text).mp htext
      rw [hsplit way hfile hends]
      exact ⟨hfile, hends⟩
    · rintro ⟨hfile, hends⟩
      exact ⟨_, (hmem _).mpr ⟨way, ⟨hfile, hends⟩, rfl⟩, hsplit way hfile hends⟩

/-- A search succeeds exactly if no path that it looks at is refused. -/
theorem exists_glob_ending : (∃ found, fs.glob start ("*" ++ ext) = .ok found) ↔
    ∀ way, fs.Visits (.ofString start) ext way → ¬Refused fs (.ofString start) way := by
  obtain ⟨hparts, hlast⟩ := readPattern_name hplain hslash
  rw [exists_glob_iff hs hfs hparts hlast]
  constructor
  · rintro h way (rfl | ⟨l, entry, hopens, hmem, hvisit⟩)
    · have hdown : [] ∈ fs.directoriesFrom here := mem_directoriesFrom.mpr (Or.inl rfl)
      exact (fits_iff hs hfs (lookup_down hs hdown)).mp (h [] hdown).1
    · obtain rfl : here = l := Except.ok.inj (hs.located.symm.trans hopens.1)
      have hstands := lookup_ne_none_of_mem hmem
      refine (fits_iff hs hfs hstands).mp ?_
      rcases hvisit with rfl | hends
      · exact (h way (mem_directoriesFrom.mpr (or_iff_not_imp_left.mpr fun hne => ⟨hne, hmem⟩))).1
      · obtain ⟨down, name, rfl, hsuffix⟩ := endsWith_iff.mp hends
        rw [← List.append_assoc] at hmem hstands
        have hdown := mem_directoriesFrom_of_lookup (hfs.above _ _ hstands)
        refine (h down hdown).2 name (List.mem_filter.mpr ⟨mem_namesIn.mpr ⟨entry, hmem⟩, ?_⟩)
        rw [(Wildcard.matchItems_ending_iff hplain).mpr hsuffix]
        rfl
  · intro h down hdown
    refine ⟨(fits_iff hs hfs (lookup_down hs hdown)).mpr (h down ?_), fun name hname => ?_⟩
    · rcases mem_directoriesFrom.mp hdown with rfl | ⟨-, hmem⟩
      · exact Or.inl rfl
      · exact Or.inr ⟨here, .directory, ⟨hs.located, hs.stands⟩, hmem, Or.inl rfl⟩
    · have hstands := lookup_name hname
      obtain ⟨hname, hmatches⟩ := List.mem_filter.mp hname
      obtain ⟨entry, hmem⟩ := mem_namesIn.mp hname
      rw [List.append_assoc] at hstands hmem
      refine (fits_iff hs hfs hstands).mpr (h _ (Or.inr ⟨here, entry, ⟨hs.located, hs.stands⟩, hmem,
        Or.inr (endsWith_iff.mpr ⟨down, name, rfl, ?_⟩)⟩))
      exact Wildcard.suffix_of_matchItems hplain (Bool.and_eq_true _ _ ▸ hmatches).1

end

theorem glob_of_look_error {pattern : String} {parts : List PatternPart} {e : Error}
    (hparts : readPattern pattern = .ok parts) (h : fs.look (.ofString start) [] = .error e) :
    fs.glob start pattern = .error e := by
  unfold glob
  rw [hparts, ok_bind]
  dsimp only
  rw [h]
  rfl

/-- A search from a path that leads to no directory finds nothing, or the path is refused. -/
theorem glob_closed {pattern : String} {parts : List PatternPart}
    (hparts : readPattern pattern = .ok parts) (h : ¬∃ here, fs.Opens (Path.tidy start) here) :
    match fs.glob start pattern with
    | .ok found => found = [] ∧ ¬Refused fs (.ofString start) []
    | .error _ => Refused fs (.ofString start) [] := by
  cases hlook : fs.look (.ofString start) [] with
  | error e =>
    rw [glob_of_look_error hparts hlook]
    refine refused_iff.mpr ?_
    rw [hlook]
    exact nofun
  | ok entry =>
    have hseen : ¬Refused fs (.ofString start) [] :=
      fun hrefused => refused_iff.mp hrefused ⟨entry, hlook⟩
    unfold glob
    rw [hparts, ok_bind]
    dsimp only
    rw [hlook]
    rcases entry with _ | _ | content
    · exact ⟨rfl, hseen⟩
    · obtain ⟨here, hs⟩ := start_of_look hlook
      exact absurd ⟨here, hs.located, hs.stands⟩ h
    · exact ⟨rfl, hseen⟩

end FileSystem

namespace Project

open FileSystem

/-! ## The files of a source directory -/

/-- The search for source files returns the files below the source directory whose names end with the
extension, each once and in order, and none if there is no such directory, unless a path that it
looks at is refused because it is too long. -/
theorem discover_files {p : Project} {dir ext : String} (hcwd : p.settings.cwd = .str dir)
    (hext : p.settings.ext.text = ext) (hplain : Wildcard.isPattern ext.toList = false)
    (hslash : '/' ∉ ext.toList) (hfs : p.files.WellFormed) (hnul : p.files.NulFree) :
    match p.discover with
    | .ok found =>
      found.Pairwise (· < ·) ∧
      (∃ ways : List (List Path.Part), ways.Nodup ∧
        found = ways.map (fun way => String.ofList (Path.joinSlash way)) ∧
        ∀ way, way ∈ ways ↔ ∃ here content, p.files.Opens (Path.tidy dir) here ∧
          p.files.lookup (here ++ way) = some (.file content) ∧ EndsWith ext way) ∧
      ((¬∃ here, p.files.Opens (Path.tidy dir) here) → found = []) ∧
      ∀ way, p.files.Visits (.ofString dir) ext way → ¬Refused p.files (.ofString dir) way
    | .error e =>
      e.TooLong ∧
      ∃ way, p.files.Visits (.ofString dir) ext way ∧ Refused p.files (.ofString dir) way := by
  have htidy := Path.ofString_tidy dir
  obtain ⟨hparts, hlast⟩ := readPattern_name hplain hslash
  rw [discover_glob hcwd, hext]
  by_cases hopen : ∃ here, p.files.Opens (Path.tidy dir) here
  · obtain ⟨here, hlocate, hstands⟩ := hopen
    have hs : Start p.files (.ofString (Path.tidy dir)) here := by
      rw [htidy]
      exact ⟨Path.proper_ofString dir, hlocate, hstands⟩
    have hsuccess := exists_glob_ending hs hfs hplain hslash
    rw [htidy] at hsuccess
    cases hglob : p.files.glob (Path.tidy dir) ("*" ++ ext) with
    | error e =>
      rw [hglob] at hsuccess
      refine ⟨tooLong_glob hparts e hglob, ?_⟩
      by_contra hnone
      obtain ⟨found, hfound⟩ := hsuccess.mpr fun way hvisit hrefused => hnone ⟨way, hvisit, hrefused⟩
      cases hfound
    | ok found =>
      obtain ⟨ways, hnodup, hfound, hways⟩ := exists_ways hs hfs hplain hslash hnul hglob
      refine ⟨increasing_glob hs hfs hparts hlast hglob, ⟨ways, hnodup, hfound, fun way => ?_⟩,
        fun hclosed => absurd ⟨here, hlocate, hstands⟩ hclosed, hsuccess.mp ⟨found, hglob⟩⟩
      rw [hways]
      constructor
      · rintro ⟨⟨content, hfile⟩, hends⟩
        exact ⟨here, content, ⟨hlocate, hstands⟩, hfile, hends⟩
      · rintro ⟨l, content, hopens, hfile, hends⟩
        obtain rfl : here = l := Except.ok.inj (hlocate.symm.trans hopens.1)
        exact ⟨⟨content, hfile⟩, hends⟩
  · have hvisits : ∀ way, p.files.Visits (.ofString dir) ext way → way = [] := by
      rintro way (rfl | ⟨here, entry, hopens, -⟩)
      · rfl
      · exact absurd ⟨here, hopens⟩ hopen
    have htidied : Path.tidy (Path.tidy dir) = Path.tidy dir := congrArg Path.Tidy.toString htidy
    have hclosed := @glob_closed p.files (Path.tidy dir) _ _ hparts (by rwa [htidied])
    rw [htidy] at hclosed
    cases hglob : p.files.glob (Path.tidy dir) ("*" ++ ext) with
    | error e =>
      rw [hglob] at hclosed
      exact ⟨tooLong_glob hparts e hglob, [], Or.inl rfl, hclosed⟩
    | ok found =>
      rw [hglob] at hclosed
      obtain ⟨rfl, hseen⟩ := hclosed
      refine ⟨.nil, ⟨[], .nil, rfl, fun way => ⟨nofun, ?_⟩⟩, fun _ => rfl, fun way hway => ?_⟩
      · rintro ⟨here, content, hopens, -⟩
        exact absurd ⟨here, hopens⟩ hopen
      · rw [hvisits way hway]
        exact hseen

/-- A project that searches a directory for names that end with `.ts`. -/
def searching (dir : String) (files : FileSystem) : Project :=
  { (default : Project) with
    files
    settings := { (default : Project).settings with cwd := .str dir, ext := .str ".ts" } }

/-- A file in a hidden directory, and a file beside the directory. -/
def hidden : FileSystem where
  entries := [([".h".toList], .directory), ([".h".toList, "a.ts".toList], .file []),
    (["b.ts".toList], .file [])]
  workdir := []

theorem wellFormed_hidden : hidden.WellFormed := by
  have hempty : (⟨[], []⟩ : FileSystem).WellFormed := Generator.wellFormed_empty
  have hplain (q : Path.Part) (hnamed : Path.isNamed q = true) (hslash : '/' ∉ q)
      (hdots : q ≠ Path.dotDot) : Path.Plain q := ⟨⟨hnamed, hslash⟩, hdots⟩
  have hdirectory : (FileSystem.set ⟨[], []⟩ ([] ++ [".h".toList]) .directory).WellFormed :=
    hempty.set rfl ⟨hplain _ (by decide) (by decide) (by decide), by decide⟩ (Or.inl rfl)
  have hbelow : (FileSystem.set (FileSystem.set ⟨[], []⟩ [".h".toList] .directory)
      ([".h".toList] ++ ["a.ts".toList]) (.file [])).WellFormed :=
    hdirectory.set rfl ⟨hplain _ (by decide) (by decide) (by decide), by decide⟩ (Or.inr nofun)
  exact hbelow.set (l := []) rfl ⟨hplain "b.ts".toList (by decide) (by decide) (by decide), by decide⟩
    (Or.inr nofun)

theorem discover_hidden : (searching "/" hidden).discover =
    .ok (pathsOf [(["b.ts".toList], some (.file [])),
      ([".h".toList, "a.ts".toList], some (.file []))]) := by
  have hstart : Start hidden (.ofString "/") [] := ⟨nofun, rfl, rfl⟩
  obtain ⟨hparts, hlast⟩ := @readPattern_name ".ts" (by decide) (by decide)
  have hselect : hidden.select (.ofString "/")
      [.recursive, .pattern (Wildcard.parse ('*' :: ".ts".toList))] [] [] =
        .ok [["b.ts".toList], [".h".toList, "a.ts".toList]] := by
    cbv
  have htidy : Path.tidy "/" = "/" := by decide
  rw [@discover_glob (searching "/" hidden) "/" rfl, htidy]
  show hidden.glob "/" ("*" ++ ".ts") = _
  rw [glob_eq hstart wellFormed_hidden hparts hlast, hselect]
  rfl

/-- The file in the hidden directory is found as well. -/
theorem discover_files_hidden : ∃ found, (searching "/" hidden).discover = .ok found ∧
    found.Pairwise (· < ·) ∧ ".h/a.ts" ∈ found ∧ "b.ts" ∈ found := by
  have hnul : hidden.NulFree := nulFree_of_entries (by decide)
  have hfiles := @discover_files (searching "/" hidden) "/" ".ts" rfl rfl (by decide) (by decide)
    wellFormed_hidden hnul
  rw [discover_hidden] at hfiles
  obtain ⟨hincreasing, ⟨ways, -, hfound, hways⟩, -⟩ := hfiles
  have hopens : hidden.Opens (Path.tidy "/") [] := ⟨rfl, rfl⟩
  have hmem (way : List Path.Part) (hfile : hidden.lookup way = some (.file []))
      (hends : EndsWith ".ts" way) : String.ofList (Path.joinSlash way) ∈ ways.map
        (fun way => String.ofList (Path.joinSlash way)) :=
    List.mem_map.mpr ⟨way, (hways way).mpr ⟨[], [], hopens, hfile, hends⟩, rfl⟩
  refine ⟨_, discover_hidden, hincreasing, ?_, ?_⟩
  · rw [hfound]
    exact hmem [".h".toList, "a.ts".toList] rfl ⟨"a.ts".toList, rfl, by decide⟩
  · rw [hfound]
    exact hmem ["b.ts".toList] rfl ⟨"b.ts".toList, rfl, by decide⟩

/-- A tree of two directories. -/
def temporary : FileSystem where
  entries := [(["tmp".toList], .directory), (["tmp".toList, "dm".toList], .directory)]
  workdir := []

/-- A path with a name that no entry can have. -/
def distant : Path.Tidy := ⟨1, ["tmp".toList, "dm".toList, Generator.long]⟩

theorem proper_distant : ∀ q ∈ distant.parts, Path.Proper q := by
  have htmp : Path.Proper "tmp".toList := ⟨by decide, by decide⟩
  have hdm : Path.Proper "dm".toList := ⟨by decide, by decide⟩
  exact List.forall_mem_cons.mpr ⟨htmp, List.forall_mem_cons.mpr
    ⟨hdm, List.forall_mem_singleton.mpr Generator.plain_long.toProper⟩⟩

theorem locate_distant : temporary.locate distant.toString = .error .nameTooLong := by
  have hsize : ¬maxPath < distant.toString.utf8ByteSize := by decide +kernel
  have hwalk : temporary.walk [] distant.parts = .error .nameTooLong := by decide +kernel
  rw [locate_tidy proper_distant, if_neg hsize]
  exact hwalk

theorem hasNul_distant : hasNul distant.toString = false := by
  rw [Bool.eq_false_iff, ne_eq, hasNul_toString proper_distant]
  decide +kernel

/-- No directory stands there, and the search does not return. -/
theorem discover_distant : (¬∃ here, temporary.Opens (Path.tidy distant.toString) here) ∧
    (searching distant.toString temporary).discover =
      .error (.os .nameTooLong distant.toString) := by
  have hdistant : Path.Tidy.ofString distant.toString = distant :=
    ofString_toString proper_distant (by decide)
  have htidy : Path.tidy distant.toString = distant.toString := congrArg Path.Tidy.toString hdistant
  have hstat : temporary.stat distant.toString = .error .nameTooLong := by
    unfold stat
    rw [locate_distant]
    rfl
  have hlook : temporary.look (.ofString distant.toString) [] =
      .error (.os .nameTooLong distant.toString) := by
    unfold look
    rw [Start.down_nil, hdistant]
    dsimp only
    rw [hasNul_distant, hstat]
    rfl
  obtain ⟨hparts, -⟩ := @readPattern_name ".ts" (by decide) (by decide)
  refine ⟨?_, ?_⟩
  · rintro ⟨here, hopens, -⟩
    rw [htidy, locate_distant] at hopens
    cases hopens
  · rw [@discover_glob (searching distant.toString temporary) distant.toString rfl, htidy]
    exact glob_of_look_error hparts hlook

end Project

end DartModels
