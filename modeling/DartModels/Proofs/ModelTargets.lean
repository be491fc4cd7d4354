import DartModels.Generation
import DartModels.Proofs.FinishedRuns
import DartModels.Proofs.InnerPaths
import DartModels.Proofs.ModulePaths
import DartModels.Proofs.ValidModels

/-!
# Targets of models

The model of an entity lies in the output directory where its source lies in the source directory.
With the default format a file name is one component whatever the entity is called, so a target tells
the directory of the source and the kebab form of the name, and nothing else.

    the default file name of an entity is a plain component                          (plain_defaultFile)
    the directory of a target mirrors that of the source, and targets are equal exactly if the source
    directories and the kebab names are                                             (target_mirrors)
-/

namespace DartModels

/-! ## Paths of targets -/

namespace Path

section

variable {out : String} (hout : Anchored out) {dirs : List Part} (hdirs : ∀ q ∈ dirs, Plain q)

include hout hdirs

/-- A directory of names below an anchored one. -/
theorem normalize_join_dirs : normalize (join out (String.ofList (joinSlash dirs))) =
    String.ofList (rooted (rootSlashes out.toList) (named out.toList ++ dirs)) := by
  have hproper : ∀ q ∈ dirs, Proper q := fun q hq => (hdirs q hq).toProper
  have hnamed : named (String.ofList (joinSlash dirs)).toList = dirs := by
    rw [String.toList_ofList, named_joinSlash hproper]
  rw [hout.normalize_join_names (by rw [String.toList_ofList]; exact joinSlash_head hproper)
    (by rw [hnamed]; exact hdirs), hnamed]

/-- A file in a directory of names below an anchored one. -/
theorem normalize_join_file {file : String} (hfile : Plain file.toList) :
    normalize (join (join out (String.ofList (joinSlash dirs))) file) =
      String.ofList (rooted (rootSlashes out.toList)
        (named out.toList ++ dirs ++ [file.toList])) := by
  have hproper : ∀ q ∈ dirs, Proper q := fun q hq => (hdirs q hq).toProper
  have hsingle : ∀ q ∈ [file.toList], Plain q := List.forall_mem_singleton.mpr hfile
  have hplain := List.forall_mem_append.mpr
    ⟨List.forall_mem_append.mpr ⟨hout.plain, hdirs⟩, hsingle⟩
  have hnamed : named file.toList = [file.toList] :=
    named_joinSlash fun q hq => (hsingle q hq).toProper
  have hhead : file.toList.head? ≠ some '/' :=
    joinSlash_head fun q hq => (hsingle q hq).toProper
  have hway : (String.ofList (joinSlash dirs)).toList.head? ≠ some '/' := by
    rw [String.toList_ofList]
    exact joinSlash_head hproper
  have hbase : named (join out (String.ofList (joinSlash dirs))).toList = named out.toList ++ dirs ∧
      rootSlashes (join out (String.ofList (joinSlash dirs))).toList = rootSlashes out.toList := by
    unfold join
    rw [String.toList_ofList, rootSlashes_joinChars hout.rooted hway, named_joinChars_append _ hway,
      String.toList_ofList, named_joinSlash hproper]
    exact ⟨rfl, rfl⟩
  rw [normalize_join_way (isRooted_join hout.rooted _) hhead, hbase.1, hbase.2, hnamed,
    reduce_plain true hplain]

end

/-- Whether a path leads strictly below another one: to its components and at least one more. -/
def StrictlyBelow (p dir : String) : Prop :=
  rootSlashes p.toList = rootSlashes dir.toList ∧
    ∃ way, way ≠ [] ∧ (∀ q ∈ way, Plain q) ∧ named p.toList = named dir.toList ++ way

end Path

/-! ## Default names of files -/

theorem mem_joinLower {separator : Char} {ws : List (List Char)} {ch : Char}
    (h : ch ∈ joinLower separator ws) :
    ch = separator ∨ ∃ w ∈ ws, ∃ d ∈ w, ch = d.toLower := by
  unfold joinLower at h
  induction ws with
  | nil => exact absurd h List.not_mem_nil
  | cons w ws ih =>
    have hword : ch ∈ w.map Char.toLower → ∃ v ∈ w :: ws, ∃ d ∈ v, ch = d.toLower := by
      intro hw
      obtain ⟨d, hd, rfl⟩ := List.mem_map.mp hw
      exact ⟨w, List.mem_cons_self, d, hd, rfl⟩
    cases ws with
    | nil =>
      rw [List.map_cons, List.map_nil, List.intercalate_singleton] at h
      exact Or.inr (hword h)
    | cons v ws =>
      rw [List.map_cons, List.map_cons, List.intercalate_cons_cons, List.append_assoc,
        List.mem_append, List.mem_append, List.mem_singleton] at h
      rcases h with h | h | h
      · exact Or.inr (hword h)
      · exact Or.inl h
      · refine (ih h).imp_right ?_
        rintro ⟨u, hu, hch⟩
        exact ⟨u, List.mem_cons_of_mem _ hu, hch⟩

/-- Whatever a name is made of, in kebab case it is letters and digits with dashes. -/
theorem isAlphanum_of_mem_kebab (name : String) :
    ∀ ch ∈ (Casing.kebab.apply name).toList, ch = '-' ∨ ch.isAlphanum = true := by
  unfold Casing.apply
  rw [String.toList_ofList]
  intro ch hch
  refine (mem_joinLower hch).imp_right ?_
  rintro ⟨w, hw, d, hd, rfl⟩
  exact (isAlphanum_toUpper_toLower (isAlphanum_of_mem_words hw hd)).2

/-- The file name that the default format gives. -/
def defaultFile (name : String) : String := Casing.kebab.apply name ++ ".dart"

namespace NameFormat

theorem fieldValue_kebab (name : String) :
    Template.fieldValue (templateValues name) "kebab".toList =
      .ok (Casing.kebab.apply name).toList := by
  have hfirst : ("kebab".toList.takeWhile fun c => c != '.' && c != '[') = "kebab".toList := by
    decide
  have hnumber : Template.number? "kebab".toList = .ok none := rfl
  have hlookup : (templateValues name).lookup "kebab" = some (Casing.kebab.apply name) := rfl
  unfold Template.fieldValue
  rw [hfirst]
  dsimp only
  rw [hnumber, String.ofList_toList, hlookup]
  rfl

theorem expand_default (name : String) :
    Template.expand (templateValues name) "\x7bkebab\x7d.dart" = .ok (defaultFile name) := by
  have hscan : Template.scan "\x7bkebab\x7d.dart".toList =
      ([.literal [], .field ⟨"kebab".toList, none, []⟩, .literal ".dart".toList], none) := by
    decide +kernel
  have htexts : Template.expand (templateValues name) "\x7bkebab\x7d.dart" =
      .ok (String.ofList [[], (Casing.kebab.apply name).toList, ".dart".toList].flatten) := by
    unfold Template.expand Template.expandAt
    rw [hscan]
    simp only [List.mapM_cons, List.mapM_nil, fieldValue_kebab]
    rfl
  rw [htexts]
  simp [defaultFile]

theorem apply_default {library : Library} {f : NameFormat}
    (hf : ofJson library .null defaultFilename = .ok f) (name : String) :
    f.apply name = .ok (defaultFile name) := by
  have hformat : ofJson library .null defaultFilename = .ok (.template "\x7bkebab\x7d.dart") := by
    cbv
  cases hformat.symm.trans hf
  unfold apply
  dsimp only
  rw [expand_default]
  rfl

end NameFormat

/-- A default file name is one component, also for a name without letters and digits. -/
theorem plain_defaultFile (name : String) : Path.Plain (defaultFile name).toList := by
  unfold defaultFile
  rw [String.toList_append]
  refine Path.plain_of_not_dots ?_ ⟨'d', List.mem_append_right _ (by decide), by decide⟩
  intro hslash
  rcases List.mem_append.mp hslash with h | h
  · rcases isAlphanum_of_mem_kebab name _ h with h | h
    · cases h
    · cases h
  · exact absurd h (by decide)

theorem defaultFile_inj {name name' : String} :
    defaultFile name = defaultFile name' ↔ Casing.kebab.apply name = Casing.kebab.apply name' := by
  unfold defaultFile
  constructor
  · intro h
    have hlist := congrArg String.toList h
    rw [String.toList_append, String.toList_append, List.append_left_inj] at hlist
    exact String.toList_inj.mp hlist
  · exact congrArg (· ++ ".dart")

/-! ## Targets -/

namespace Generator

variable {library : Library} {g : Generator} {s : ModelSettings} {formats : NameFormats}
  {out : String}

theorem filenames_of_ofSettings (hg : ofSettings library s = .ok g)
    (hformats : s.formatters = .record formats) :
    NameFormat.ofJson library formats.filename NameFormat.defaultFilename = .ok g.filenames := by
  obtain ⟨filename, hfilename, hg⟩ := exists_of_bind_eq_ok hg
  obtain ⟨filenames, hfilenames, hg⟩ := exists_of_bind_eq_ok hg
  obtain ⟨name, -, hg⟩ := exists_of_bind_eq_ok hg
  obtain ⟨classNames, -, hg⟩ := exists_of_bind_eq_ok hg
  cases hg
  unfold ModelSettings.formatsFor at hfilename
  rw [hformats] at hfilename
  cases hfilename
  exact hfilenames

section

variable (hg : ofSettings library s = .ok g) (hformats : s.formatters = .record formats)
  (hdefault : formats.filename = .null) (hout : s.out = .str out) (hsettled : Path.Settled out)

include hg hformats hdefault hout hsettled

/-- The components of a target: those of the output directory, of the source directory, and the
name of the file. -/
theorem target_components {e : SourceEntity} (he : Path.Inner e.path) :
    g.target e = .ok (String.ofList (Path.rooted 1 (Path.named out.toList ++
      (Path.named e.path.toList).dropLast ++ [(defaultFile e.name).toList]))) := by
  have hfilenames := filenames_of_ofSettings hg hformats
  rw [hdefault] at hfilenames
  have hdirs : ∀ q ∈ (Path.named e.path.toList).dropLast, Path.Plain q :=
    fun q hq => he.plain q (List.dropLast_subset _ hq)
  rw [target_result ((congrArg _ (ofSettings_eq_ok hg)).trans hout),
    NameFormat.apply_default hfilenames, Except.map, he.dirname_eq,
    Path.normalize_join_file hsettled.anchored hdirs (plain_defaultFile e.name),
    hsettled.1]

/-- The target of an entity lies strictly below the output directory, in the directory where its
source lies below the source directory.  It is the target of another entity exactly if the source
directories are the same and the names are in kebab case. -/
theorem target_mirrors {e : SourceEntity} (he : Path.Inner e.path) :
    ∃ t, g.target e = .ok t ∧ Path.Settled t ∧ Path.StrictlyBelow t out ∧
      Path.dirname t = Path.normalize (Path.join out (Path.dirname e.path)) ∧
      ∀ e' : SourceEntity, Path.Inner e'.path →
        (g.target e' = .ok t ↔ Path.dirname e'.path = Path.dirname e.path ∧
          Casing.kebab.apply e'.name = Casing.kebab.apply e.name) := by
  have hdirs : ∀ {d : SourceEntity}, Path.Inner d.path →
      ∀ q ∈ (Path.named d.path.toList).dropLast, Path.Plain q :=
    fun hd q hq => hd.plain q (List.dropLast_subset _ hq)
  have hparts : ∀ {d : SourceEntity}, Path.Inner d.path → ∀ q ∈ Path.named out.toList ++
      (Path.named d.path.toList).dropLast ++ [(defaultFile d.name).toList], Path.Plain q :=
    fun {d} hd => List.forall_mem_append.mpr ⟨List.forall_mem_append.mpr
      ⟨hsettled.anchored.plain, hdirs hd⟩,
      List.forall_mem_singleton.mpr (plain_defaultFile d.name)⟩
  have hproper : ∀ {d : SourceEntity}, Path.Inner d.path → ∀ q ∈ Path.named out.toList ++
      (Path.named d.path.toList).dropLast ++ [(defaultFile d.name).toList], Path.Proper q :=
    fun hd q hq => (hparts hd q hq).toProper
  refine ⟨_, target_components hg hformats hdefault hout hsettled he,
    Path.settled_iff.mpr ⟨_, hparts he, rfl⟩, ⟨?_, ?_⟩, ?_, ?_⟩
  · rw [String.toList_ofList, Path.rootSlashes_rooted (by decide) (hproper he), hsettled.1]
  · refine ⟨(Path.named e.path.toList).dropLast ++ [(defaultFile e.name).toList],
      List.concat_ne_nil _ _,
      List.forall_mem_append.mpr
        ⟨hdirs he, List.forall_mem_singleton.mpr (plain_defaultFile e.name)⟩, ?_⟩
    rw [String.toList_ofList, Path.named_rooted 1 (hproper he), List.append_assoc]
  · show String.ofList (Path.dirnameChars (String.ofList _).toList) = _
    rw [String.toList_ofList, Path.dirnameChars_rooted (hparts he), List.dropLast_concat,
      he.dirname_eq, Path.normalize_join_dirs hsettled.anchored (hdirs he), hsettled.1]
  · intro e' he'
    rw [target_components hg hformats hdefault hout hsettled he', Except.ok.injEq,
      String.ofList_inj, Path.rooted_inj (by decide) (by decide) (hproper he') (hproper he),
      List.append_assoc, List.append_assoc, List.append_right_inj, he'.dirname_eq, he.dirname_eq,
      String.ofList_inj, Path.joinSlash_inj (hdirs he') (hdirs he), ← defaultFile_inj]
    constructor
    · rintro ⟨-, h⟩
      obtain ⟨hdirectory, hfile⟩ := List.append_inj' h rfl
      exact ⟨hdirectory, String.toList_inj.mp (List.singleton_inj.mp hfile)⟩
    · rintro ⟨hdirectory, hfile⟩
      rw [hdirectory, hfile]
      exact ⟨rfl, rfl⟩

end

/-- The source of a post. -/
def postPath : String := String.ofList (Path.joinSlash ["blog".toList, "post.entity.ts".toList])

/-- A source beside it. -/
def draftPath : String := String.ofList (Path.joinSlash ["blog".toList, "draft.ts".toList])

/-- Two entities of one directory whose names differ in their underscore have one target. -/
theorem target_mirrors_blog :
    ∃ g, ofSettings Settings.parsing.library { ModelSettings.default with out := .str "/models" } =
        .ok g ∧
      g.target ⟨postPath, "BlogPost", []⟩ = .ok "/models/blog/blog-post.dart" ∧
      g.target ⟨draftPath, "blog_post", []⟩ = .ok "/models/blog/blog-post.dart" := by
  have hpost : Path.Inner postPath := by
    refine Path.inner_joinSlash (List.cons_ne_nil _ _) fun q hq => ?_
    obtain rfl | rfl : q = "blog".toList ∨ q = "post.entity.ts".toList := by simpa using hq
    · exact Path.plain_of_not_dots (by decide) ⟨'b', by decide, by decide⟩
    · exact Path.plain_of_not_dots (by decide) ⟨'p', by decide, by decide⟩
  have hdraft : Path.Inner draftPath := by
    refine Path.inner_joinSlash (List.cons_ne_nil _ _) fun q hq => ?_
    obtain rfl | rfl : q = "blog".toList ∨ q = "draft.ts".toList := by simpa using hq
    · exact Path.plain_of_not_dots (by decide) ⟨'b', by decide, by decide⟩
    · exact Path.plain_of_not_dots (by decide) ⟨'d', by decide, by decide⟩
  have hsettled : Path.Settled "/models" := ⟨by decide, by decide⟩
  obtain ⟨g, hg⟩ : ∃ g, ofSettings Settings.parsing.library
      { ModelSettings.default with out := .str "/models" } = .ok g := ⟨_, rfl⟩
  obtain ⟨t, ht, -, -, -, hsame⟩ :=
    @target_mirrors _ g _ _ _ hg rfl rfl rfl hsettled ⟨postPath, "BlogPost", []⟩ hpost
  have hkebab : Casing.kebab.apply "blog_post" = Casing.kebab.apply "BlogPost" := by cbv
  have hdraftTarget := (hsame ⟨draftPath, "blog_post", []⟩ hdraft).mpr ⟨by decide, hkebab⟩
  have hfile : defaultFile "BlogPost" = "blog-post.dart" := by cbv
  have htext : g.target ⟨postPath, "BlogPost", []⟩ = .ok "/models/blog/blog-post.dart" := by
    rw [target_components hg rfl rfl rfl hsettled hpost, hfile]
    exact congrArg Except.ok (by decide)
  cases ht.symm.trans htext
  exact ⟨g, hg, htext, hdraftTarget⟩

end Generator

end DartModels
