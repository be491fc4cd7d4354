import DartModels.Generation
import DartModels.Proofs.AtomicOutcome
import DartModels.Proofs.ClassLines
import DartModels.Proofs.ModelImports

/-!
# The files of written models

Models are written one after another, and a later one may take the place of an earlier one: the name
of a file comes from the name of a class and the directory of its source, so classes of one name in
one directory share their file.

    a model depends on the tree through the working directory only                     (emit_congr)
    one model = its file is set, or no file changes                           (writeEntity_leaves)
    a run = the place of each model holds a model, and no other file changes
                                                                             (generateIn_leaves)
    no model is lost ↔ models that share a place share their text            (written_intact_iff)
-/

namespace DartModels

open FileSystem AtomicWrite

/-! ## The text of a model -/

/-- The text of a model depends on the file system through the working directory only. -/
theorem Catalog.emit_congr (c : Catalog) (s : ModelSettings) {fs fs' : FileSystem}
    (h : fs'.workdir = fs.workdir) (e : ModelEntity) : c.emit s fs' e = c.emit s fs e := by
  have hstatement : Dart.importStatement fs' e = Dart.importStatement fs e := by
    funext target
    unfold Dart.importStatement relative workdirPath
    rw [h]
  unfold emit headerLines
  rw [hstatement]

namespace Generator

variable (g : Generator) (c : Catalog)

/-- The text of an entity's model. -/
def modelText (fs : FileSystem) (e : ModelEntity) : Except Error String :=
  ((c.emit g.settings fs e).exec []).1

/-- The location `l` holds the model of an entity, written from `fs`. -/
def Holds (fs fs' : FileSystem) (l : Location) (e : ModelEntity) : Prop :=
  ∃ text, g.modelText c fs e = .ok text ∧ fs'.lookup l = some (.file (Utf8.encode text))

/-- The file of a reported model holds the text of this model. -/
def Intact (fs fs' : FileSystem) (w : WrittenModel) : Prop :=
  ∃ text, g.modelText c fs w.entity = .ok text ∧
    fs'.stat w.entity.target = .ok (.file (Utf8.encode text))

/-- How a run that reports the models `written` takes `fs` to `fs'`. -/
structure Leaves (fs fs' : FileSystem) (written : List WrittenModel) : Prop where
  keeps : fs.KeepsDirectories fs'
  /-- Each model that is reported has a text and a place. -/
  placed : ∀ w ∈ written, ∃ text l, g.modelText c fs w.entity = .ok text ∧
    fs'.locate w.entity.target = .ok l
  /-- The place of a model holds this model or another one of the same place. -/
  models : ∀ w ∈ written, ∀ l, fs'.locate w.entity.target = .ok l →
    ∃ v ∈ written, fs'.locate v.entity.target = .ok l ∧ g.Holds c fs fs' l v.entity
  /-- Every other file is as it was. -/
  others : ∀ l, (∀ w ∈ written, fs'.locate w.entity.target ≠ .ok l) →
    ∀ bytes, fs'.lookup l = some (.file bytes) ↔ fs.lookup l = some (.file bytes)

variable {g c} {fs fs₁ fs' : FileSystem}

theorem modelText_congr (h : fs'.workdir = fs.workdir) (e : ModelEntity) :
    g.modelText c fs' e = g.modelText c fs e := by
  unfold modelText
  rw [c.emit_congr g.settings h]

namespace Leaves

theorem nil (hkeeps : fs.KeepsDirectories fs') (hsame : SameFiles fs fs') :
    g.Leaves c fs fs' [] := ⟨hkeeps, nofun, nofun, fun l _ bytes => hsame l bytes⟩

/-- What is written later stays on top. -/
theorem trans {before after : List WrittenModel} (h₁ : g.Leaves c fs fs₁ before)
    (h₂ : g.Leaves c fs₁ fs' after) : g.Leaves c fs fs' (before ++ after) := by
  have htext := @modelText_congr g c fs fs₁ h₁.keeps.workdir
  have hplaced : ∀ w ∈ before, ∀ l, fs'.locate w.entity.target = .ok l →
      fs₁.locate w.entity.target = .ok l := by
    intro w hw l hl
    obtain ⟨-, l₁, -, hl₁⟩ := h₁.placed w hw
    have hkept := locate_mono h₂.keeps hl₁
    rw [hl] at hkept
    cases hkept
    exact hl₁
  refine ⟨h₁.keeps.trans h₂.keeps, fun w hw => ?_, fun w hw l hl => ?_, fun l hnone bytes => ?_⟩
  · rcases List.mem_append.mp hw with hw | hw
    · obtain ⟨text, l, hwritten, hl⟩ := h₁.placed w hw
      exact ⟨text, l, hwritten, locate_mono h₂.keeps hl⟩
    · obtain ⟨text, l, hwritten, hl⟩ := h₂.placed w hw
      exact ⟨text, l, (htext _).symm.trans hwritten, hl⟩
  · by_cases hlater : ∃ v ∈ after, fs'.locate v.entity.target = .ok l
    · obtain ⟨v, hv, hvl⟩ := hlater
      obtain ⟨u, hu, hul, text, hwritten, hheld⟩ := h₂.models v hv l hvl
      exact ⟨u, List.mem_append_right _ hu, hul, text, (htext _).symm.trans hwritten, hheld⟩
    · have huntouched : ∀ v ∈ after, fs'.locate v.entity.target ≠ .ok l :=
        fun v hv hvl => hlater ⟨v, hv, hvl⟩
      have hbefore : w ∈ before := (List.mem_append.mp hw).resolve_right fun hw => huntouched w hw hl
      obtain ⟨u, hu, hul, text, hwritten, hheld⟩ := h₁.models w hbefore l (hplaced w hbefore l hl)
      exact ⟨u, List.mem_append_left _ hu, locate_mono h₂.keeps hul, text, hwritten,
        (h₂.others l huntouched _).mpr hheld⟩
  · have hbefore : ∀ w ∈ before, fs₁.locate w.entity.target ≠ .ok l :=
      fun w hw hl => hnone w (List.mem_append_left _ hw) (locate_mono h₂.keeps hl)
    have hafter : ∀ w ∈ after, fs'.locate w.entity.target ≠ .ok l :=
      fun w hw => hnone w (List.mem_append_right _ hw)
    exact (h₂.others l hafter bytes).trans (h₁.others l hbefore bytes)

/-- The order in which models are reported says nothing about their files. -/
theorem congr {written written' : List WrittenModel} (h : g.Leaves c fs fs' written)
    (hmem : ∀ w, w ∈ written' ↔ w ∈ written) : g.Leaves c fs fs' written' := by
  refine ⟨h.keeps, fun w hw => h.placed w ((hmem w).mp hw), fun w hw l hl => ?_, fun l hnone => ?_⟩
  · obtain ⟨v, hv, hheld⟩ := h.models w ((hmem w).mp hw) l hl
    exact ⟨v, (hmem v).mpr hv, hheld⟩
  · exact h.others l fun w hw => hnone w ((hmem w).mpr hw)

end Leaves

/-! ## One model -/

theorem leaves_replaced {w : WrittenModel} {text : String} {place : Location}
    (htext : g.modelText c fs w.entity = .ok text)
    (htarget : Path.tidy w.entity.target = w.entity.target)
    (h : Replaced (Path.Tidy.ofString w.entity.target) (Utf8.encode text) fs fs' place) :
    g.Leaves c fs fs' [w] := by
  have hplace : fs'.locate w.entity.target = .ok place := by
    have hlocated := h.located
    rwa [← Path.tidy, htarget] at hlocated
  have hkeeps : fs.KeepsDirectories fs' := by
    refine ⟨h.workdir, fun l hl => ?_⟩
    have hne : l ≠ place := fun e => h.free (e ▸ hl)
    rcases h.others l hne with hsame | hmade
    · rw [hsame, hl]
    · exact hmade.made
  refine ⟨hkeeps, fun v hv => ?_, fun v hv l hl => ?_, fun l hnone bytes => ?_⟩
  · rw [List.mem_singleton.mp hv]
    exact ⟨text, place, htext, hplace⟩
  · rw [List.mem_singleton.mp hv, hplace] at hl
    cases hl
    exact ⟨w, List.mem_singleton_self w, hplace, text, htext, (h.files place _).mpr (if_pos rfl ▸ rfl)⟩
  · have hne : l ≠ place := fun e => hnone w (List.mem_singleton_self w) (e ▸ hplace)
    rw [h.files, if_neg hne]

/-- The step of a run. -/
theorem writeEntity_leaves {e : ModelEntity} {outcome : Except FailedModel WrittenModel}
    (htarget : Path.tidy e.target = e.target)
    (h : g.writeEntity c e fs = (outcome, fs')) :
    g.Leaves c fs fs' outcome.toOption.toList ∧ ∀ w, outcome = .ok w → w.entity = e := by
  unfold writeEntity at h
  dsimp only at h
  rcases hemit : ((c.emit g.settings fs e).run).run [] with ⟨fault | text, met⟩
  · rw [hemit] at h
    cases h
    exact ⟨Leaves.nil (KeepsDirectories.refl fs) fun _ _ => Iff.rfl, nofun⟩
  · rw [hemit] at h
    dsimp only at h
    rw [write] at h
    have hwrite := @writeUnder_allOrNothing Refusals.none e.target text true fs
    rcases hrun : (writeUnder Refusals.none e.target text true).exec fs with ⟨fault | _, fs₁⟩
    · rw [hrun] at h hwrite
      cases h
      exact ⟨Leaves.nil hwrite.2.keeps hwrite.1, nofun⟩
    · rw [hrun] at h hwrite
      cases h
      obtain ⟨place, hreplaced⟩ := hwrite
      have htext : g.modelText c fs e = .ok text := congrArg Prod.fst hemit
      refine ⟨@leaves_replaced g c fs fs' ⟨e, met⟩ text place htext htarget hreplaced, fun w hw => ?_⟩
      cases hw
      rfl

/-! ## All models -/

theorem writeAll_leaves {tasks : List (Nat × ModelEntity)}
    {outcomes : List (Nat × Except FailedModel WrittenModel)}
    (htargets : ∀ t ∈ tasks, Path.tidy t.2.target = t.2.target)
    (h : g.writeAll c tasks fs = (outcomes, fs')) :
    g.Leaves c fs fs' (outcomes.filterMap (·.2.toOption)) ∧
      outcomes.map (·.1) = tasks.map (·.1) ∧
      ∀ i w, (i, .ok w) ∈ outcomes → (i, w.entity) ∈ tasks := by
  induction tasks generalizing fs fs' outcomes with
  | nil =>
    cases h
    exact ⟨Leaves.nil (KeepsDirectories.refl fs) fun _ _ => Iff.rfl, rfl, nofun⟩
  | cons t tasks ih =>
    obtain ⟨i, e⟩ := t
    obtain ⟨htarget, htargets⟩ := List.forall_mem_cons.mp htargets
    rw [writeAll] at h
    rcases hstep : g.writeEntity c e fs with ⟨outcome, fs₁⟩
    rw [hstep] at h
    dsimp only at h
    rcases hrest : g.writeAll c tasks fs₁ with ⟨rest, fs₂⟩
    rw [hrest] at h
    cases h
    obtain ⟨hfirst, hentity⟩ := writeEntity_leaves htarget hstep
    obtain ⟨hlater, hplaces, hentities⟩ := ih htargets hrest
    refine ⟨?_, by rw [List.map_cons, List.map_cons, hplaces], fun j w hj => ?_⟩
    · have htrans := hfirst.trans hlater
      cases outcome <;> exact htrans
    · rcases List.mem_cons.mp hj with hj | hj
      · cases hj
        rw [hentity w rfl]
        exact List.mem_cons_self
      · exact List.mem_cons_of_mem _ (hentities j w hj)

theorem mem_written_collect {count : Nat}
    {outcomes : List (Nat × Except FailedModel WrittenModel)}
    (hnodup : (outcomes.map (·.1)).Nodup) (hcount : ∀ o ∈ outcomes, o.1 < count)
    (w : WrittenModel) :
    w ∈ (collect count outcomes).written ↔ w ∈ outcomes.filterMap (·.2.toOption) := by
  have hlookup : ∀ i, outcomes.lookup i = some (.ok w) ↔ (i, .ok w) ∈ outcomes := by
    intro i
    constructor
    · intro h
      obtain ⟨before, after, rfl, -⟩ := List.lookup_eq_some_iff.mp h
      exact List.mem_append_right _ List.mem_cons_self
    · intro h
      obtain ⟨o, ho⟩ := Option.isSome_iff_exists.mp
        (List.lookup_isSome_iff.mpr ⟨_, h, beq_self_eq_true i⟩)
      obtain ⟨before, after, hsplit, -⟩ := List.lookup_eq_some_iff.mp ho
      have hmem : (i, o) ∈ outcomes := hsplit ▸ List.mem_append_right _ List.mem_cons_self
      have hsame := congrArg Prod.snd (List.inj_on_of_nodup_map hnodup hmem h rfl)
      exact ho.trans (congrArg some hsame)
  unfold collect
  rw [List.mem_filterMap, List.mem_filterMap]
  constructor
  · rintro ⟨i, -, h⟩
    split at h
    · next v hv =>
      cases h
      exact ⟨(i, .ok w), (hlookup i).mp hv, rfl⟩
    · cases h
  · rintro ⟨⟨i, outcome⟩, ho, h⟩
    cases outcome with
    | error f => cases h
    | ok v =>
      cases h
      refine ⟨i, List.mem_range.mpr (hcount _ ho), ?_⟩
      rw [(hlookup i).mpr ho]

theorem target_tidy {e : SourceEntity} {target : String} (h : g.target e = .ok target) :
    Path.tidy target = target := by
  unfold Generator.target at h
  obtain ⟨filename, -, h⟩ := exists_of_bind_eq_ok h
  obtain ⟨out, -, h⟩ := exists_of_bind_eq_ok h
  rw [← Except.ok.inj h]
  exact Path.tidy_normalize _

theorem forall₂_of_mapM_eq_ok {α β : Type} {f : α → Except Error β} {l : List α} {r : List β}
    (h : l.mapM f = .ok r) : List.Forall₂ (fun a b => f a = .ok b) l r := by
  induction l generalizing r with
  | nil =>
    cases h
    exact .nil
  | cons a l ih =>
    rw [List.mapM_cons] at h
    obtain ⟨b, hab, h⟩ := exists_of_bind_eq_ok h
    obtain ⟨bs, hl, h⟩ := exists_of_bind_eq_ok h
    cases h
    exact .cons hab (ih hl)

theorem decorate_tidy {entities : List SourceEntity} {decorated : List ModelEntity}
    (h : g.decorate entities = .ok decorated) : ∀ d ∈ decorated, Path.tidy d.target = d.target := by
  intro d hd
  obtain ⟨e, -, he⟩ := (mem_of_mapM_eq_ok h).mp hd
  obtain ⟨target, htarget, he⟩ := exists_of_bind_eq_ok he
  cases he
  exact target_tidy htarget

theorem getElem?_of_mem_tasks {decorated : List ModelEntity} {order : List Nat}
    {t : Nat × ModelEntity} (h : t ∈ order.filterMap fun i => (decorated[i]?).map (i, ·)) :
    decorated[t.1]? = some t.2 := by
  obtain ⟨i, -, hi⟩ := List.mem_filterMap.mp h
  obtain ⟨e, he, rfl⟩ := Option.map_eq_some_iff.mp hi
  exact he

theorem nodup_tasks {order : List Nat} (h : order.Nodup) (decorated : List ModelEntity) :
    ((order.filterMap fun i => (decorated[i]?).map (i, ·)).map (·.1)).Nodup := by
  rw [List.map_filterMap]
  refine h.filterMap fun i j k hi hj => ?_
  obtain ⟨-, -, rfl⟩ : ∃ e, decorated[i]? = some e ∧ i = k := by simpa using hi
  obtain ⟨-, -, rfl⟩ : ∃ e, decorated[j]? = some e ∧ j = i := by simpa using hj
  rfl

theorem generateIn_eq_ok {order : List Nat} {entities : List SourceEntity}
    {result : GenerationResult} {progress : List ProgressEvent}
    (h : g.generateIn order entities fs = (⟨.ok result, progress⟩, fs')) :
    ∃ decorated outcomes, g.decorate entities = .ok decorated ∧
      checkWorkers g.settings.workers = .ok () ∧
      g.writeAll (g.catalog decorated)
        (order.filterMap fun i => (decorated[i]?).map (i, ·)) fs = (outcomes, fs') ∧
      result = collect decorated.length outcomes := by
  unfold generateIn at h
  cases hdecorated : g.decorate entities with
  | error e =>
    rw [hdecorated] at h
    cases h
  | ok decorated =>
    rw [hdecorated] at h
    dsimp only at h
    cases hworkers : checkWorkers g.settings.workers with
    | error e =>
      rw [hworkers] at h
      cases h
    | ok _ =>
      rw [hworkers] at h
      dsimp only at h
      rcases hrun : g.writeAll (g.catalog decorated)
        (order.filterMap fun i => (decorated[i]?).map (i, ·)) fs with ⟨outcomes, fs₁⟩
      rw [hrun] at h
      cases h
      exact ⟨decorated, outcomes, rfl, rfl, hrun, rfl⟩

/-- What a run that returns leaves behind, whatever the order of its tasks. -/
theorem generateIn_leaves {order : List Nat} {entities : List SourceEntity}
    {result : GenerationResult} {progress : List ProgressEvent}
    (horder : order.Perm (List.range entities.length))
    (h : g.generateIn order entities fs = (⟨.ok result, progress⟩, fs')) :
    ∃ decorated, g.decorate entities = .ok decorated ∧
      g.Leaves (g.catalog decorated) fs fs' result.written ∧
      ∀ w ∈ result.written, w.entity ∈ decorated := by
  obtain ⟨decorated, outcomes, hdecorated, -, hrun, rfl⟩ := generateIn_eq_ok h
  have htidy := decorate_tidy hdecorated
  have hnodup := nodup_tasks (horder.nodup_iff.mpr List.nodup_range) decorated
  obtain ⟨hleaves, hplaces, hentities⟩ :=
    writeAll_leaves (fun t ht => htidy _ (List.mem_of_getElem? (getElem?_of_mem_tasks ht))) hrun
  rw [← hplaces] at hnodup
  have hcount : ∀ o ∈ outcomes, o.1 < decorated.length := by
    intro o ho
    obtain ⟨t, ht, hto⟩ := List.mem_map.mp (hplaces ▸ List.mem_map_of_mem ho)
    rw [← hto]
    exact (List.getElem?_eq_some_iff.mp (getElem?_of_mem_tasks ht)).1
  have hmem := mem_written_collect hnodup hcount
  refine ⟨decorated, hdecorated, hleaves.congr hmem, fun w hw => ?_⟩
  obtain ⟨⟨i, outcome⟩, ho, hok⟩ := List.mem_filterMap.mp ((hmem w).mp hw)
  cases outcome with
  | error f => cases hok
  | ok v =>
    cases hok
    exact List.mem_of_getElem? (getElem?_of_mem_tasks (hentities i w ho))

/-! ## Models that are lost -/

/-- Every file of a reported model holds a reported model.  All of them hold their own exactly if
those that share a place share their text. -/
theorem written_intact_iff {order : List Nat} {entities : List SourceEntity}
    {result : GenerationResult} {progress : List ProgressEvent}
    (horder : order.Perm (List.range entities.length))
    (h : g.generateIn order entities fs = (⟨.ok result, progress⟩, fs')) :
    ∃ decorated, g.decorate entities = .ok decorated ∧
      (∀ w ∈ result.written, w.entity ∈ decorated) ∧
      g.Leaves (g.catalog decorated) fs fs' result.written ∧
      ((∀ w ∈ result.written, g.Intact (g.catalog decorated) fs fs' w) ↔
        ∀ v ∈ result.written, ∀ w ∈ result.written,
          fs'.locate v.entity.target = fs'.locate w.entity.target →
          g.modelText (g.catalog decorated) fs v.entity =
            g.modelText (g.catalog decorated) fs w.entity) := by
  obtain ⟨decorated, hdecorated, hleaves, hentities⟩ := generateIn_leaves horder h
  refine ⟨decorated, hdecorated, hentities, hleaves, fun hintact v hv w hw hshared => ?_,
    fun hshared w hw => ?_⟩
  · obtain ⟨tv, htv, hsv⟩ := hintact v hv
    obtain ⟨tw, htw, hsw⟩ := hintact w hw
    unfold stat at hsv hsw
    rw [hshared, hsw] at hsv
    rw [htv, htw, Utf8.encode_inj (Entry.file.inj (Except.ok.inj hsv))]
  · obtain ⟨-, l, -, hl⟩ := hleaves.placed w hw
    obtain ⟨v, hv, hvl, text, htext, hheld⟩ := hleaves.models w hw l hl
    exact ⟨text, hshared v hv w hw (hvl.trans hl.symm) ▸ htext, stat_of_lookup hl hheld⟩

/-! ## Two classes of one name -/

theorem writeEntity_of_ok {e : ModelEntity} {text : String} {met : List ModelEntity}
    (hemit : (c.emit g.settings fs e).exec [] = (.ok text, met))
    (hvalid : Dart.validate text = .ok ())
    (hwrite : (replaceFile Refusals.none e.target text).exec fs = (.ok (), fs')) :
    g.writeEntity c e fs = (.ok ⟨e, met⟩, fs') := by
  have hwritten : (write e.target text true).exec fs = (.ok (), fs') := by
    rw [write, writeUnder_of_valid fun _ => hvalid, hwrite]
  unfold writeEntity
  dsimp only
  change ((c.emit g.settings fs e).run).run [] = _ at hemit
  rw [hemit]
  dsimp only
  rw [hwritten]

theorem writeAll_nil (fs : FileSystem) : g.writeAll c [] fs = ([], fs) := rfl

theorem writeAll_cons (i : Nat) {e : ModelEntity} {outcome : Except FailedModel WrittenModel}
    {tasks : List (Nat × ModelEntity)} {outcomes : List (Nat × Except FailedModel WrittenModel)}
    (h : g.writeEntity c e fs = (outcome, fs₁)) (hrest : g.writeAll c tasks fs₁ = (outcomes, fs')) :
    g.writeAll c ((i, e) :: tasks) fs = ((i, outcome) :: outcomes, fs') := by
  rw [writeAll, h]
  dsimp only
  rw [hrest]

theorem generateIn_of_writeAll {order : List Nat} {entities : List SourceEntity}
    {decorated : List ModelEntity} {outcomes : List (Nat × Except FailedModel WrittenModel)}
    (hdecorated : g.decorate entities = .ok decorated)
    (hworkers : checkWorkers g.settings.workers = .ok ())
    (hall : g.writeAll (g.catalog decorated)
      (order.filterMap fun i => (decorated[i]?).map (i, ·)) fs = (outcomes, fs')) :
    ∃ progress, g.generateIn order entities fs =
      (⟨.ok (collect decorated.length outcomes), progress⟩, fs') := by
  unfold generateIn
  rw [hdecorated]
  dsimp only
  rw [hworkers]
  dsimp only
  rw [hall]
  exact ⟨_, rfl⟩

/-- A generation leaves what the writing of its models leaves. -/
theorem files_of_writeAll {order : List Nat} {entities : List SourceEntity}
    {decorated : List ModelEntity} {outcomes : List (Nat × Except FailedModel WrittenModel)}
    (hdecorated : g.decorate entities = .ok decorated)
    (hworkers : checkWorkers g.settings.workers = .ok ())
    (hall : g.writeAll (g.catalog decorated)
      (order.filterMap fun i => (decorated[i]?).map (i, ·)) fs = (outcomes, fs')) :
    (g.generateIn order entities fs).2 = fs' := by
  obtain ⟨progress, hrun⟩ := generateIn_of_writeAll hdecorated hworkers hall
  rw [hrun]

/-- Classes named `A` in two files of one directory. -/
def twins : List SourceEntity :=
  [⟨"a.ts", "A", []⟩, ⟨"b.ts", "A", [⟨"x", .primitive "String", "A"⟩]⟩]

/-- The first of the twins. -/
def first : ModelEntity := ⟨"a.ts", "A", [], "/a"⟩

/-- The second of the twins. -/
def second : ModelEntity := ⟨"b.ts", "A", [⟨"x", .primitive "String", "A"⟩], "/a"⟩

/-- A generator that names files as classes. -/
def plain : Generator :=
  ⟨{ ModelSettings.default with out := .str "/", addGenerationComment := .bool false },
    .casing .kebab, .casing .pascal⟩

/-- A tree with one file. -/
def single (content : List UInt8) : FileSystem := ⟨[([['a']], .file content)], []⟩

theorem replaceFile_empty (content : String) :
    (replaceFile Refusals.none "/a" content).exec ⟨[], []⟩ =
      (.ok (), single (Utf8.encode content)) := by
  rfl

/-- A write whose steps are known: the directories, the temporary file `loc`, and the place of the
target. -/
theorem replaceFile_of_steps {path : String} (content : String) {fs fs₁ : FileSystem}
    {loc place : Location}
    (hdirs : (makeDirectories Refusals.none (Path.Tidy.ofString path).parent.parts.length
      (Path.Tidy.ofString path).parent).exec fs = (.ok (), fs₁))
    (hcreated : (createFile Refusals.none (Path.join
      (fs₁.absolute (Path.Tidy.ofString path).parent.toString)
      (temporaryName (Path.Tidy.ofString path).name))).exec fs₁ = (.ok loc, fs₁.set loc (.file [])))
    (hplace : moveTarget (fs₁.set loc (.file [])) (Path.Tidy.ofString path) = .ok place)
    (hfree : fs₁.lookup loc = none) :
    (replaceFile Refusals.none path content).exec fs =
      (.ok (), fs₁.set place (.file (Utf8.encode content))) := by
  unfold replaceFile
  refine (FileAction.exec_bind_ok hdirs _).trans ?_
  rw [FileAction.exec_get_bind]
  refine (FileAction.exec_bind_ok hcreated _).trans ?_
  unfold moveInto
  rw [FileAction.exec_get_bind]
  simp only [Refusals.allow, Refusals.none, bind, Except.bind, hplace, erase_set _ hfree]
  rfl

theorem replaceFile_single (bytes : List UInt8) (content : String) :
    (replaceFile Refusals.none "/a" content).exec (single bytes) =
      (.ok (), single (Utf8.encode content)) := by
  have hdir : (single bytes).absolute (Path.Tidy.ofString "/a").parent.toString = "/" := by
    show Path.absolute (workdirPath ⟨[], []⟩) (Path.Tidy.ofString "/a").parent.toString = "/"
    decide
  have hcreated : (createFile Refusals.none (Path.join "/" ".a.********.tmp")).exec (single bytes) =
    (.ok (spare []), (single bytes).set (spare []) (.file [])) := rfl
  have hplace : moveTarget ((single bytes).set (spare []) (.file [])) (Path.Tidy.ofString "/a") =
    .ok [['a']] := rfl
  rw [← hdir] at hcreated
  exact replaceFile_of_steps content rfl hcreated hplace rfl

/-- The lines of the model of `first`. -/
def firstLines : List String := [
  "class A extends Model \x7b\n",
  "\n",
  "  A(\n",
  "      \x7bString id\x7d)\n",
  "      : super(id);\n",
  "\n",
  "  @override\n",
  "  Map<String, dynamic> toJson() => \x7b\n",
  "      \x7d;\n",
  "\n",
  "  factory A.fromJson(Map<String, dynamic> json) \x7b\n",
  "    if (json == null) return null;\n",
  "    return A(\n",
  "    );\n",
  "  \x7d\n",
  "\x7d\n"]

/-- The lines of the model of `second`. -/
def secondLines : List String := [
  "class A extends Model \x7b\n",
  "  String x;\n",
  "\n",
  "  A(\n",
  "      \x7bString id,\n",
  "      this.x\x7d)\n",
  "      : super(id);\n",
  "\n",
  "  @override\n",
  "  Map<String, dynamic> toJson() => \x7b\n",
  "        'x': x,\n",
  "      \x7d;\n",
  "\n",
  "  factory A.fromJson(Map<String, dynamic> json) \x7b\n",
  "    if (json == null) return null;\n",
  "    return A(\n",
  "      x: json['x'],\n",
  "    );\n",
  "  \x7d\n",
  "\x7d\n"]

theorem decorate_twins : plain.decorate twins = .ok [first, second] := by cbv

/-- The class of `first`. -/
def firstClass : Dart.ClassText := ⟨"A", "Model", .str "id", []⟩

/-- The class of `second`. -/
def secondClass : Dart.ClassText :=
  ⟨"A", "Model", .str "id", [⟨"x", "String", "x", "json['x']"⟩]⟩

theorem classText_first : Dart.classText firstClass = String.join firstLines := by
  rw [Dart.classText_eq_unlines]
  rfl

theorem classText_second : Dart.classText secondClass = String.join secondLines := by
  rw [Dart.classText_eq_unlines]
  rfl

/-- The text of a class without fields. -/
theorem emit_empty {e : ModelEntity} (entities : List ModelEntity) (hname : e.name = "A")
    (hfields : e.fields = []) (fs : FileSystem) :
    ((plain.catalog entities).emit plain.settings fs e).exec [] =
      (.ok (String.join firstLines), []) := by
  obtain ⟨path, name, fields, target⟩ := e
  cases hname
  cases hfields
  have hbody : ((plain.catalog entities).bodyText plain.settings ⟨path, "A", [], target⟩).exec [] =
    (.ok firstClass, []) := by cbv
  have hlines : (plain.catalog entities).headerLines plain.settings fs ⟨path, "A", [], target⟩ [] =
    .ok [] := by cbv
  rw [Catalog.emit_of_ok hbody hlines, ← classText_first]
  rfl

theorem emit_first :
    ((plain.catalog [first, second]).emit plain.settings ⟨[], []⟩ first).exec [] =
      (.ok (String.join firstLines), []) :=
  emit_empty [first, second] rfl rfl ⟨[], []⟩

theorem emit_second :
    ((plain.catalog [first, second]).emit plain.settings ⟨[], []⟩ second).exec [] =
      (.ok (String.join secondLines), []) := by
  have hbody : ((plain.catalog [first, second]).bodyText plain.settings second).exec [] =
    (.ok secondClass, []) := by cbv
  have hlines : (plain.catalog [first, second]).headerLines plain.settings ⟨[], []⟩ second [] =
    .ok [] := by cbv
  rw [Catalog.emit_of_ok hbody hlines, ← classText_second]
  rfl

theorem validate_first : Dart.validate (String.join firstLines) = .ok () := by
  have hplain : firstClass.Plain := ⟨by decide, by decide, by decide, List.forall_mem_nil _⟩
  have hvalid := hplain.validate_unlines (List.forall_mem_nil _) rfl (by decide)
  rwa [List.nil_append, ← Dart.classText_eq_unlines, classText_first] at hvalid

theorem validate_second : Dart.validate (String.join secondLines) = .ok () := by
  have hplain : secondClass.Plain :=
    ⟨by decide, by decide, by decide, List.forall_mem_singleton.mpr (by decide)⟩
  have hvalid := hplain.validate_unlines (List.forall_mem_nil _) rfl (by decide)
  rwa [List.nil_append, ← Dart.classText_eq_unlines, classText_second] at hvalid

theorem writeEntity_first : plain.writeEntity (plain.catalog [first, second]) first ⟨[], []⟩ =
    (.ok ⟨first, []⟩, single (Utf8.encode (String.join firstLines))) := by
  have hwrite := replaceFile_empty (String.join firstLines)
  have htarget : "/a" = first.target := rfl
  rw [htarget] at hwrite
  exact writeEntity_of_ok emit_first validate_first hwrite

theorem writeEntity_second (bytes : List UInt8) :
    plain.writeEntity (plain.catalog [first, second]) second (single bytes) =
      (.ok ⟨second, []⟩, single (Utf8.encode (String.join secondLines))) := by
  have hwrite := replaceFile_single bytes (String.join secondLines)
  have htarget : "/a" = second.target := rfl
  have hworkdir : (⟨[], []⟩ : FileSystem).workdir = (single bytes).workdir := rfl
  have hemit := emit_second
  rw [htarget] at hwrite
  rw [Catalog.emit_congr _ _ hworkdir] at hemit
  exact writeEntity_of_ok hemit validate_second hwrite

/-- Both twins are reported, and the second one stands in their file. -/
theorem generate_twins : ∃ progress, plain.generateIn [0, 1] twins ⟨[], []⟩ =
    (⟨.ok ⟨[⟨first, []⟩, ⟨second, []⟩], []⟩, progress⟩,
      single (Utf8.encode (String.join secondLines))) := by
  have htasks : [0, 1].filterMap (fun i => ([first, second][i]?).map (i, ·)) =
    [(0, first), (1, second)] := rfl
  have hall := writeAll_cons 0 writeEntity_first (writeAll_cons 1 (writeEntity_second _) (writeAll_nil _))
  rw [← htasks] at hall
  have hcollect : collect [first, second].length
      [(0, .ok ⟨first, []⟩), (1, .ok ⟨second, []⟩)] = ⟨[⟨first, []⟩, ⟨second, []⟩], []⟩ := by
    unfold collect
    rw [GenerationResult.mk.injEq]
    exact ⟨rfl, List.mergeSort_nil⟩
  obtain ⟨progress, hrun⟩ := generateIn_of_writeAll decorate_twins rfl hall
  rw [hcollect] at hrun
  exact ⟨progress, hrun⟩

/-- Both models are reported as written, but the file of the first one holds the second. -/
theorem twins_lost : ∃ result progress fs' text,
    plain.generateIn [0, 1] twins ⟨[], []⟩ = (⟨.ok result, progress⟩, fs') ∧
      result.written = [⟨first, []⟩, ⟨second, []⟩] ∧ result.failed = [] ∧
      plain.modelText (plain.catalog [first, second]) ⟨[], []⟩ first = .ok text ∧
      fs'.stat first.target ≠ .ok (.file (Utf8.encode text)) := by
  obtain ⟨progress, hrun⟩ := generate_twins
  have hplace : (single (Utf8.encode (String.join secondLines))).locate first.target =
    .ok [['a']] := rfl
  have hheld : (single (Utf8.encode (String.join secondLines))).lookup [['a']] =
    some (.file (Utf8.encode (String.join secondLines))) := rfl
  have hdiffer : String.join secondLines ≠ String.join firstLines := by decide +kernel
  refine ⟨_, progress, _, String.join firstLines, hrun, rfl, rfl, congrArg Prod.fst emit_first, ?_⟩
  rw [stat_of_lookup hplace hheld]
  exact fun h => hdiffer (Utf8.encode_inj (Entry.file.inj (Except.ok.inj h)))

/-- The twins share their file but not their text, so one of them is lost. -/
theorem written_intact_iff_twins : ∃ result progress fs',
    plain.generateIn [0, 1] twins ⟨[], []⟩ = (⟨.ok result, progress⟩, fs') ∧
      ¬ ∀ w ∈ result.written, plain.Intact (plain.catalog [first, second]) ⟨[], []⟩ fs' w := by
  obtain ⟨progress, hrun⟩ := generate_twins
  have hdiffer : String.join firstLines ≠ String.join secondLines := by decide +kernel
  obtain ⟨decorated, hdecorated, -, -, hintact⟩ :=
    written_intact_iff (List.Perm.refl (List.range twins.length)) hrun
  rw [decorate_twins] at hdecorated
  cases hdecorated
  refine ⟨_, progress, _, hrun, fun h => hdiffer ?_⟩
  have hsame := hintact.mp h ⟨first, []⟩ List.mem_cons_self ⟨second, []⟩
    (List.mem_cons_of_mem _ List.mem_cons_self) rfl
  have hfirst : plain.modelText (plain.catalog [first, second]) ⟨[], []⟩ first = _ :=
    congrArg Prod.fst emit_first
  have hsecond : plain.modelText (plain.catalog [first, second]) ⟨[], []⟩ second = _ :=
    congrArg Prod.fst emit_second
  rw [hfirst, hsecond] at hsame
  exact Except.ok.inj hsame

end Generator

end DartModels
