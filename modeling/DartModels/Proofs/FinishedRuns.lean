import DartModels.Proofs.Discovery
import DartModels.Proofs.IsolatedModels
import DartModels.Proofs.SurveyOrder
import DartModels.Run

/-!
# Runs that finish

A run sets aside the files and the models that fail, each as a failure of its own.  Two steps stand
outside: the search for files, which a path that is too long ends, and the naming of the models, which
ends with the first name that the format of file names has no text for.

    a generation gives each entity a model or a failure                                (generateIn_ok)
    a run returns, or one of the two steps has failed                                   (run_finishes)
-/

namespace DartModels

/-! ## Settings -/

namespace Project

variable {p : Project} {fs : FileSystem}

theorem ofSettings_eq_ok {env : Environment} {s : SourceSettings}
    (h : Project.ofSettings env fs s = .ok p) :
    p.reader = env.reader ∧ p.files = fs ∧ p.settings = s ∧
      p.modules.cwd = s.cwd ∧ p.modules.root = s.root ∧ p.modules.suffix = s.moduleSuffix := by
  obtain ⟨rule, -, h⟩ := exists_of_bind_eq_ok h
  obtain ⟨modules, hmodules, h⟩ := exists_of_bind_eq_ok h
  obtain ⟨table, -, hmodules⟩ := exists_of_bind_eq_ok hmodules
  obtain ⟨aliases, -, hmodules⟩ := exists_of_bind_eq_ok hmodules
  cases hmodules
  cases h
  exact ⟨rfl, rfl, rfl, rfl, rfl, rfl⟩

theorem discover_glob {dir : String} (hcwd : p.settings.cwd = .str dir) :
    p.discover = p.files.glob (Path.tidy dir) ("*" ++ p.settings.ext.text) := by
  unfold discover
  rw [hcwd]
  rfl

/-- The search for files ends because of a path that is too long, if at all. -/
theorem tooLong_discover {dir ext : String} (hcwd : p.settings.cwd = .str dir)
    (hext : p.settings.ext = .str ext) (hstar : '*' ∉ ext.toList) :
    OnlyErrors Error.TooLong p.discover := by
  obtain ⟨parts, hparts⟩ := FileSystem.readPattern_star hstar
  rw [discover_glob hcwd, hext]
  exact FileSystem.tooLong_glob hparts

end Project

namespace Generator

variable {g : Generator} {c : Catalog} {fs fs' : FileSystem}

theorem ofSettings_eq_ok {library : Library} {s : ModelSettings}
    (h : Generator.ofSettings library s = .ok g) : g.settings = s := by
  obtain ⟨filename, -, h⟩ := exists_of_bind_eq_ok h
  obtain ⟨filenames, -, h⟩ := exists_of_bind_eq_ok h
  obtain ⟨name, -, h⟩ := exists_of_bind_eq_ok h
  obtain ⟨classNames, -, h⟩ := exists_of_bind_eq_ok h
  cases h
  rfl

/-! ## Names of files -/

theorem target_result {out : String} (hout : g.settings.out = .str out) (e : SourceEntity) :
    g.target e = (g.filenames.apply e.name).map fun filename =>
      Path.normalize (Path.join (Path.join out (Path.dirname e.path)) filename) := by
  unfold target
  rw [hout]
  cases g.filenames.apply e.name <;> rfl

/-- All entities get a file, or the name of one of them has none. -/
theorem decorate_result {out : String} (hout : g.settings.out = .str out)
    (entities : List SourceEntity) :
    match g.decorate entities with
    | .ok _ => ∀ e ∈ entities, ∃ filename, g.filenames.apply e.name = .ok filename
    | .error error => ∃ e ∈ entities, g.filenames.apply e.name = .error error := by
  unfold decorate
  induction entities with
  | nil => exact List.forall_mem_nil _
  | cons e entities ih =>
    rw [List.mapM_cons, target_result hout]
    cases happly : g.filenames.apply e.name with
    | error error => exact ⟨e, List.mem_cons_self, happly⟩
    | ok filename =>
      revert ih
      cases entities.mapM fun e => do
          return (⟨e.path, e.name, e.fields, ← g.target e⟩ : ModelEntity) with
      | error error =>
        rintro ⟨d, hd, hfails⟩
        exact ⟨d, List.mem_cons_of_mem _ hd, hfails⟩
      | ok decorated =>
        intro ih
        exact List.forall_mem_cons.mpr ⟨⟨filename, happly⟩, ih⟩

/-! ## Models and failures -/

/-- What is reported of an entity. -/
def Reports (e : ModelEntity) : Except FailedModel WrittenModel → Prop
  | .ok w => w.entity = e
  | .error f => ∃ error, f = failure e error

theorem writeEntity_reports (e : ModelEntity) : Reports e (g.writeEntity c e fs).1 := by
  unfold writeEntity
  dsimp only
  split
  · exact ⟨_, rfl⟩
  · split
    · exact ⟨_, rfl⟩
    · rfl

theorem writeAll_reports (tasks : List (Nat × ModelEntity)) (fs : FileSystem) :
    List.Forall₂ (fun t o => o.1 = t.1 ∧ Reports t.2 o.2) tasks (g.writeAll c tasks fs).1 := by
  induction tasks generalizing fs with
  | nil => exact .nil
  | cons t tasks ih => exact .cons ⟨rfl, writeEntity_reports t.2⟩ (ih _)

/-- The target of what is reported. -/
def reportedTarget : Except FailedModel WrittenModel → String
  | .ok w => w.entity.target
  | .error f => f.target

theorem Reports.target {e : ModelEntity} {o : Except FailedModel WrittenModel} (h : Reports e o) :
    reportedTarget o = e.target := by
  cases o with
  | ok w => exact congrArg ModelEntity.target h
  | error f =>
    obtain ⟨error, rfl⟩ := h
    rfl

/-- What is written is the model of the entity. -/
theorem Reports.entity_eq {e : ModelEntity} {o : Except FailedModel WrittenModel} {w : WrittenModel}
    (h : Reports e o) (ho : o.toOption = some w) : w.entity = e := by
  cases o with
  | ok v =>
    cases ho
    exact h
  | error f => cases ho

/-- What fails is the model of the entity. -/
theorem Reports.failure_eq {e : ModelEntity} {o : Except FailedModel WrittenModel} {f : FailedModel}
    (h : Reports e o) (ho : failureOf o = some f) : ∃ error, f = failure e error := by
  cases o with
  | ok w => cases ho
  | error g =>
    cases ho
    exact h

/-- The reports of all entities, each told by the place of its entity. -/
theorem exists_reports {decorated : List ModelEntity} {order : List Nat}
    (horder : order.Perm (List.range decorated.length)) (fs : FileSystem) :
    ∃ outcome : Nat → Except FailedModel WrittenModel,
      (g.writeAll c (tasks order decorated) fs).1 = order.map (fun i => (i, outcome i)) ∧
      ∀ (i : Nat) (hi : i < decorated.length), Reports decorated[i] (outcome i) := by
  obtain ⟨outcome, houtcomes⟩ := exists_outcomes (g := g) (c := c) horder fs
  refine ⟨outcome, houtcomes, fun i hi => ?_⟩
  have hmem : (i, outcome i) ∈ (g.writeAll c (tasks order decorated) fs).1 := by
    rw [houtcomes]
    exact List.mem_map.mpr ⟨i, horder.mem_iff.mpr (List.mem_range.mpr hi), rfl⟩
  obtain ⟨t, ht, hplace, hreport⟩ := exists_of_forall₂ (writeAll_reports _ fs) hmem
  have hentity := getElem?_of_mem_tasks ht
  rw [← hplace, List.getElem?_eq_getElem hi] at hentity
  rw [Option.some.inj hentity]
  exact hreport

theorem perm_reported (outcome : Nat → Except FailedModel WrittenModel) (places : List Nat) :
    ((places.filterMap fun i => (outcome i).toOption).map (·.entity.target) ++
      (places.filterMap fun i => failureOf (outcome i)).map (·.target)).Perm
      (places.map fun i => reportedTarget (outcome i)) := by
  induction places with
  | nil => exact .refl _
  | cons i places ih =>
    rw [List.filterMap_cons, List.filterMap_cons, List.map_cons]
    cases outcome i with
    | ok w => exact ih.cons _
    | error f => exact List.perm_middle.trans (ih.cons _)

/-- What a generation gives: each target that an entity has stands with its model or with its
failure. -/
structure Generated (decorated : List ModelEntity) (r : GenerationResult) : Prop where
  targets : (r.written.map (·.entity.target) ++ r.failed.map (·.target)).Perm
    (decorated.map (·.target))
  written : ∀ w ∈ r.written, w.entity ∈ decorated
  failed : ∀ f ∈ r.failed, ∃ e ∈ decorated, ∃ error, f = failure e error

theorem generated_collect {decorated : List ModelEntity} {order : List Nat}
    (horder : order.Perm (List.range decorated.length)) (fs : FileSystem) :
    Generated decorated
      (collect decorated.length (g.writeAll c (tasks order decorated) fs).1) := by
  obtain ⟨outcome, houtcomes, hreport⟩ := exists_reports (g := g) (c := c) horder fs
  rw [houtcomes]
  constructor
  · rw [collect_written horder]
    refine (List.Perm.append_left _ ((collect_failed horder).map _)).trans ?_
    refine (perm_reported outcome _).trans (.of_eq (List.ext_getElem (by simp) fun i _ hi => ?_))
    rw [List.length_map] at hi
    rw [List.getElem_map, List.getElem_map, List.getElem_range]
    exact (hreport i hi).target
  · intro w hw
    rw [collect_written horder] at hw
    obtain ⟨i, hi, hok⟩ := List.mem_filterMap.mp hw
    rw [(hreport i (List.mem_range.mp hi)).entity_eq hok]
    exact List.getElem_mem _
  · intro f hf
    obtain ⟨i, hi, herror⟩ := List.mem_filterMap.mp ((collect_failed horder).mem_iff.mp hf)
    exact ⟨_, List.getElem_mem _, (hreport i (List.mem_range.mp hi)).failure_eq herror⟩

/-- Once every entity has a file, a generation gives each of them a model or a failure. -/
theorem generateIn_ok {order : List Nat} {entities : List SourceEntity}
    {decorated : List ModelEntity} (horder : order.Perm (List.range entities.length))
    (hdecorated : g.decorate entities = .ok decorated)
    (hworkers : checkWorkers g.settings.workers = .ok ()) :
    ∃ r, (g.generateIn order entities fs).1.result = .ok r ∧ Generated decorated r := by
  rw [(forall₂_of_mapM_eq_ok hdecorated).length_eq] at horder
  unfold generateIn
  rw [hdecorated, hworkers]
  dsimp only
  exact ⟨_, rfl, generated_collect horder fs⟩

end Generator

/-! ## Runs -/

namespace Project

variable {p : Project} {cache : SourceCache}

theorem survey_of_error (order : Nat → List Nat) {e : Error} (h : p.discover = .error e) :
    (p.survey order).run cache = (⟨.error e, []⟩, cache) := by
  unfold survey
  rw [h]
  rfl

theorem survey_of_ok (order : Nat → List Nat) {listed : List String}
    (h : p.discover = .ok listed) :
    (p.survey order).run cache = (p.surveyIn (order listed.length) listed).run cache := by
  unfold survey
  rw [h]

end Project

namespace Settings

variable {env : Environment} {schedule : Schedule} {s : Settings} {fs : FileSystem} {p : Project}
  {g : Generator}

theorem stages_eq_ok (h : s.stages env fs = .ok (p, g)) :
    Project.ofSettings env fs s.source = .ok p ∧
      Generator.ofSettings env.library s.model = .ok g := by
  obtain ⟨p', hp, h⟩ := exists_of_bind_eq_ok h
  obtain ⟨g', hg, h⟩ := exists_of_bind_eq_ok h
  cases h
  exact ⟨hp, hg⟩

theorem run_of_error (hstages : s.stages env fs = .ok (p, g)) {e : Error}
    {progress : List ProgressEvent}
    (h : ((p.survey schedule.survey).run []).1 = ⟨.error e, progress⟩) :
    s.run env schedule fs = ⟨.error e, progress, [], fs⟩ := by
  unfold run
  rw [hstages]
  dsimp only
  rw [h]

theorem run_of_ok (hstages : s.stages env fs = .ok (p, g)) {found : SurveyResult}
    {progress : List ProgressEvent}
    (h : ((p.survey schedule.survey).run []).1 = ⟨.ok found, progress⟩) :
    let generated := g.generateIn (schedule.generation found.entities.length) found.entities fs
    s.run env schedule fs =
      ⟨generated.1.result.map fun written => ⟨found, written⟩, progress, generated.1.progress,
        generated.2⟩ := by
  unfold run
  rw [hstages]
  dsimp only
  rw [h]

theorem generateIn_of_error {order : List Nat} {entities : List SourceEntity} {e : Error}
    (h : g.decorate entities = .error e) : g.generateIn order entities fs = (⟨.error e, []⟩, fs) := by
  unfold Generator.generateIn
  rw [h]

/-- A run on usable settings ends in one of three ways, whatever the order of its tasks is.  It
returns, and then every file and every model that failed stands among the failures; or a path was too
long for the search for files; or the format of file names has no text for the name of an entity, which
is no failure of that entity alone. -/
theorem run_finishes {dir ext out : String} (hstages : s.stages env fs = .ok (p, g))
    (hcwd : s.source.cwd = .str dir) (hext : s.source.ext = .str ext) (hstar : '*' ∉ ext.toList)
    (hout : s.model.out = .str out) (hsurvey : checkWorkers s.source.workers = .ok ())
    (hmodels : checkWorkers s.model.workers = .ok ()) (schedule : Schedule) :
    match (s.run env schedule fs).result with
    | .ok r => ∃ listed decorated, p.discover = .ok listed ∧ p.Surveyed listed r.survey ∧
        (∀ e ∈ r.survey.entities, ∃ filename, g.filenames.apply e.name = .ok filename) ∧
        g.decorate r.survey.entities = .ok decorated ∧
        Generator.Generated decorated r.generation
    | .error error => (p.discover = .error error ∧ error.TooLong) ∨
        ∃ listed, p.discover = .ok listed ∧ ∃ e ∈ listed.flatMap p.entitiesAlone,
          g.filenames.apply e.name = .error error := by
  obtain ⟨hp, hg⟩ := stages_eq_ok hstages
  obtain ⟨-, -, hsource, -⟩ := Project.ofSettings_eq_ok hp
  have hmodel := Generator.ofSettings_eq_ok hg
  rw [← hsource] at hcwd hext hsurvey
  rw [← hmodel] at hout hmodels
  cases hdiscover : p.discover with
  | error error =>
    rw [run_of_error hstages (congrArg Prod.fst (Project.survey_of_error _ hdiscover))]
    exact Or.inl ⟨rfl, Project.tooLong_discover hcwd hext hstar error hdiscover⟩
  | ok listed =>
    obtain ⟨found, hfound, hrun⟩ := @Project.surveyIn_outcome p dir [] hcwd hsurvey rfl
      (schedule.survey listed.length) listed (schedule.survey_perm _)
    have hnames := Generator.decorate_result hout found.entities
    rw [run_of_ok hstages ((congrArg Prod.fst (Project.survey_of_ok _ hdiscover)).trans hrun)]
    cases hdecorated : g.decorate found.entities with
    | error error =>
      rw [hdecorated, hfound.entities] at hnames
      dsimp only
      rw [generateIn_of_error hdecorated]
      exact Or.inr ⟨listed, rfl, hnames⟩
    | ok decorated =>
      rw [hdecorated] at hnames
      obtain ⟨written, hwritten, hgenerated⟩ :=
        @Generator.generateIn_ok _ fs _ _ _ (schedule.generation_perm _) hdecorated hmodels
      dsimp only
      rw [hwritten]
      exact ⟨listed, decorated, rfl, hfound, hnames, hdecorated, hgenerated⟩

/-! ## A format that not every name has -/

/-- Settings whose files are named by a format. -/
def named (format : String) : Settings where
  source := { SourceSettings.default with
    cwd := .str "/"
    ext := .str ".ts"
    identifier := .record { EntityRules.empty with decorator := .str "Entity" } }
  model := { ModelSettings.default with
    out := .str "/models"
    formatters := .record { filename := .str format, name := .null } }

/-- A file with two entities. -/
def pair : Project where
  reader := Syntax.textReader
  files := (Project.ofText "@Entity() class Ab{}@Entity() class Carpet{}").files
  settings := (named "").source
  rule := ⟨.decorators, .str "Entity"⟩
  modules := ⟨⟨[]⟩, .str "/", .str "..", .str ".ts"⟩

/-- The generator of files named by a template. -/
def namer (format : String) : Generator := ⟨(named format).model, .template format, .casing .pascal⟩

theorem discover_pair : pair.discover = .ok ["a.ts"] := by cbv

theorem entities_pair :
    ["a.ts"].flatMap pair.entitiesAlone = [⟨"a.ts", "Ab", []⟩, ⟨"a.ts", "Carpet", []⟩] := by
  cbv

/-- A parser, no modules and no attributes. -/
def parsing : Environment := ⟨Syntax.textReader, ⟨fun _ _ => .missing ""⟩, fun _ _ => none⟩

/-- The format asks for the fourth letter of a name.  The second entity has one and the first has not,
and neither gets a model: the run itself fails. -/
theorem run_fourth :
    (named "\x7bkebab[3]\x7d.dart").stages parsing pair.files
        = .ok (pair, namer "\x7bkebab[3]\x7d.dart") ∧
      (namer "\x7bkebab[3]\x7d.dart").filenames.apply "Carpet" = .ok "p.dart" ∧
      ((named "\x7bkebab[3]\x7d.dart").run parsing .inTurn pair.files).result
        = .error (.template .indexOutOfRange) := by
  have hstages : (named "\x7bkebab[3]\x7d.dart").stages parsing pair.files
      = .ok (pair, namer "\x7bkebab[3]\x7d.dart") := rfl
  refine ⟨hstages, by decide +kernel, ?_⟩
  obtain ⟨found, hfound, hrun⟩ := @Project.surveyIn_outcome pair "/" [] rfl rfl rfl
    (List.range ["a.ts"].length) ["a.ts"] (.refl _)
  have hentities := hfound.entities.trans entities_pair
  have hfails : (namer "\x7bkebab[3]\x7d.dart").filenames.apply "Ab"
      = .error (.template .indexOutOfRange) := by
    decide +kernel
  have hdecorated : (namer "\x7bkebab[3]\x7d.dart").decorate found.entities
      = .error (.template .indexOutOfRange) := by
    unfold Generator.decorate
    rw [hentities, List.mapM_cons, Generator.target_result rfl, hfails]
    rfl
  rw [run_of_ok hstages ((congrArg Prod.fst (Project.survey_of_ok _ discover_pair)).trans hrun)]
  dsimp only
  rw [generateIn_of_error hdecorated]
  rfl

/-- A format that every name has lets the same run return. -/
theorem run_kebab :
    ∃ r, ((named "\x7bkebab\x7d.dart").run parsing .inTurn pair.files).result = .ok r := by
  have h := @run_finishes parsing (named "\x7bkebab\x7d.dart") pair.files pair
    (namer "\x7bkebab\x7d.dart") "/" ".ts" "/models" rfl rfl rfl (by decide) rfl rfl rfl .inTurn
  cases hrun : ((named "\x7bkebab\x7d.dart").run parsing .inTurn pair.files).result with
  | ok r => exact ⟨r, rfl⟩
  | error error =>
    rw [hrun] at h
    obtain ⟨hdiscover, -⟩ | ⟨listed, hdiscover, e, he, hfails⟩ := h
    · cases discover_pair.symm.trans hdiscover
    · cases Except.ok.inj (discover_pair.symm.trans hdiscover)
      rw [entities_pair] at he
      have hab : (namer "\x7bkebab\x7d.dart").filenames.apply "Ab" = .ok "ab.dart" := by
        decide +kernel
      have hcarpet : (namer "\x7bkebab\x7d.dart").filenames.apply "Carpet" = .ok "carpet.dart" := by
        decide +kernel
      rcases he with _ | ⟨_, _ | ⟨_, ⟨⟩⟩⟩
      · cases hab.symm.trans hfails
      · cases hcarpet.symm.trans hfails

end Settings

end DartModels
