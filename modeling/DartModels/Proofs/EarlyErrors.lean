import DartModels.Proofs.FinishedRuns
import DartModels.Standard

/-!
# Early errors

Both stages are set up before a file is looked at, and this finds the faults of the configuration.  A
run that ends with such a fault has then read nothing, reported nothing and written nothing: it ends the
same on every file system.  One way is left for a later fault: an imported function that names the files
is called once the entities are known, and may give an error of the configuration itself.

    the search and the survey find no fault                    (unconfigured_discover, _survey)
    a generation finds one exactly where a function names the files so         (namingFails_iff)
    the stages do not depend on the files                                    (stages_error_congr)
    a run ends early, unless the surveyed entities are named so     (configuration_error_early_iff)
-/

namespace DartModels

/-- No error of a step is one of the configuration. -/
def Unconfigured {α : Type} (r : Except Error α) : Prop :=
  OnlyErrors (fun e => e.isConfiguration = false) r

theorem unconfigured_wrongKind {α : Type} (fault : KindFault) :
    Unconfigured (wrongKind fault : Except Error α) := OnlyErrors.error rfl

theorem unconfigured_asPath (v : Json) : Unconfigured v.asPath := by
  unfold Json.asPath
  split
  · exact OnlyErrors.ok _
  · exact unconfigured_wrongKind _

theorem unconfigured_checkWorkers (workers : Json) : Unconfigured (checkWorkers workers) := by
  cases workers with
  | null => exact OnlyErrors.ok _
  | bool b =>
    cases b with
    | true => exact OnlyErrors.ok _
    | false => exact OnlyErrors.error rfl
  | int n =>
    unfold checkWorkers
    dsimp only
    split
    · exact OnlyErrors.ok _
    · exact OnlyErrors.error rfl
  | fraction x =>
    unfold checkWorkers
    dsimp only
    split
    · exact OnlyErrors.error rfl
    · exact OnlyErrors.ok _
  | str s => exact unconfigured_wrongKind _
  | arr items => exact unconfigured_wrongKind _
  | obj members => exact unconfigured_wrongKind _

/-! ## The survey -/

namespace FileSystem

theorem unconfigured_readPattern (pattern : String) : Unconfigured (readPattern pattern) := by
  refine OnlyErrors.mapM (fun part => ?_) _
  unfold readPart
  split
  · exact OnlyErrors.ok _
  · split
    · exact OnlyErrors.error rfl
    · split <;> exact OnlyErrors.ok _

theorem unconfigured_glob (fs : FileSystem) (dir pattern : String) :
    Unconfigured (fs.glob dir pattern) := by
  intro e he
  cases hparts : readPattern pattern with
  | error fault =>
    have hglob : fs.glob dir pattern = .error fault := by
      unfold glob
      rw [hparts]
      rfl
    rw [hglob] at he
    cases he
    exact unconfigured_readPattern pattern _ hparts
  | ok parts =>
    obtain ⟨path, rfl⟩ := tooLong_glob hparts e he
    rfl

end FileSystem

namespace Project

variable {p : Project} {cache : SourceCache}

theorem unconfigured_discover : Unconfigured p.discover :=
  OnlyErrors.bind (unconfigured_asPath _) fun _ => FileSystem.unconfigured_glob _ _ _

/-- A survey ends because of its workers, or because the source directory is no path. -/
theorem unconfigured_surveyIn (order : List Nat) (files : List String) (cache : SourceCache) :
    Unconfigured ((p.surveyIn order files).run cache).1.result := by
  intro e he
  rw [surveyIn_run] at he
  cases hworkers : checkWorkers p.settings.workers with
  | error fault =>
    rw [hworkers] at he
    cases he
    exact unconfigured_checkWorkers _ _ hworkers
  | ok _ =>
    rw [hworkers] at he
    obtain ⟨-, -, hfault⟩ := p.parseFiles_outcomes (tasks order files) cache
    revert he hfault
    dsimp only
    cases ((p.parseFiles (tasks order files)).run cache).1.2 with
    | none => exact fun he => nomatch he
    | some fault =>
      intro he hfault
      cases he
      obtain ⟨file, -, houtcome⟩ := hfault
      exact unconfigured_asPath _ _ (outcomeOf_eq_error houtcome)

theorem unconfigured_survey (order : Nat → List Nat) (cache : SourceCache) :
    Unconfigured ((p.survey order).run cache).1.result := by
  cases hdiscover : p.discover with
  | error e =>
    rw [survey_of_error order hdiscover]
    exact OnlyErrors.error (unconfigured_discover e hdiscover)
  | ok listed =>
    rw [survey_of_ok order hdiscover]
    exact unconfigured_surveyIn _ _ _

/-- A survey that returns has reported on its files. -/
theorem reported_of_survey {order : Nat → List Nat} {found : SurveyResult}
    {surveyed : List ProgressEvent}
    (h : ((p.survey order).run cache).1 = ⟨.ok found, surveyed⟩) : surveyed ≠ [] := by
  cases hdiscover : p.discover with
  | error e =>
    rw [survey_of_error order hdiscover] at h
    cases h
  | ok listed =>
    rw [survey_of_ok order hdiscover, surveyIn_run] at h
    revert h
    split
    · exact nofun
    · dsimp only
      split
      · exact nofun
      · rintro h rfl
        cases h

end Project

/-! ## The generation -/

namespace Generator

variable {g : Generator} {entities : List SourceEntity} {error : Error}

/-- The files are named by an imported function, which gives the error for one of the entities.  The
files of all entities before it have names. -/
def NamingFails (g : Generator) (entities : List SourceEntity) (error : Error) : Prop :=
  ∃ call before e after, g.filenames = .function call ∧ entities = before ++ e :: after ∧
    (∀ d ∈ before, ∃ target, g.target d = .ok target) ∧ call e.name = .error error

theorem apply_configuration {f : NameFormat} {name : String} (h : f.apply name = .error error)
    (hconfiguration : error.isConfiguration = true) :
    ∃ call, f = .function call ∧ call name = .error error := by
  cases f with
  | casing c => cases h
  | template t =>
    unfold NameFormat.apply at h
    dsimp only at h
    cases hexpand : Template.expand (NameFormat.templateValues name) t with
    | error fault =>
      rw [hexpand] at h
      cases h
      cases hconfiguration
    | ok text =>
      rw [hexpand] at h
      cases h
  | function call => exact ⟨call, rfl, h⟩

theorem target_configuration {e : SourceEntity} (h : g.target e = .error error)
    (hconfiguration : error.isConfiguration = true) :
    ∃ call, g.filenames = .function call ∧ call e.name = .error error := by
  unfold target at h
  cases hname : g.filenames.apply e.name with
  | error fault =>
    rw [hname] at h
    cases h
    exact apply_configuration hname hconfiguration
  | ok filename =>
    rw [hname, ok_bind] at h
    cases hout : g.settings.out.asPath with
    | error fault =>
      rw [hout] at h
      cases h
      rw [unconfigured_asPath _ _ hout] at hconfiguration
      cases hconfiguration
    | ok out =>
      rw [hout] at h
      cases h

theorem decorate_configuration (h : g.decorate entities = .error error)
    (hconfiguration : error.isConfiguration = true) : g.NamingFails entities error := by
  unfold decorate at h
  induction entities with
  | nil => cases h
  | cons e entities ih =>
    rw [List.mapM_cons] at h
    cases htarget : g.target e with
    | error fault =>
      rw [htarget] at h
      cases h
      obtain ⟨call, hcall, hfails⟩ := target_configuration htarget hconfiguration
      exact ⟨call, [], e, entities, hcall, rfl, nofun, hfails⟩
    | ok target =>
      rw [htarget] at h
      cases hrest : entities.mapM fun e => do
          return (⟨e.path, e.name, e.fields, ← g.target e⟩ : ModelEntity) with
      | error fault =>
        rw [hrest] at h
        cases h
        obtain ⟨call, before, d, after, hcall, rfl, hbefore, hfails⟩ := ih hrest
        exact ⟨call, e :: before, d, after, hcall, rfl,
          List.forall_mem_cons.mpr ⟨⟨target, htarget⟩, hbefore⟩, hfails⟩
      | ok decorated =>
        rw [hrest] at h
        cases h

/-- The first entity whose file has no name ends the naming. -/
theorem decorate_of_namingFails (h : g.NamingFails entities error) :
    g.decorate entities = .error error := by
  obtain ⟨call, before, e, after, hcall, rfl, hbefore, hfails⟩ := h
  have htarget : g.target e = .error error := by
    unfold target
    rw [hcall, NameFormat.apply, hfails]
    rfl
  unfold decorate
  induction before with
  | nil =>
    rw [List.nil_append, List.mapM_cons, htarget]
    rfl
  | cons d before ih =>
    obtain ⟨⟨target, hd⟩, hbefore⟩ := List.forall_mem_cons.mp hbefore
    rw [List.cons_append, List.mapM_cons, hd, ih hbefore]
    rfl

variable {order : List Nat} {fs : FileSystem}

/-- A generation whose naming fails has reported nothing and written nothing. -/
theorem generateIn_of_namingFails (h : g.NamingFails entities error) :
    g.generateIn order entities fs = (⟨.error error, []⟩, fs) :=
  Settings.generateIn_of_error (decorate_of_namingFails h)

/-- A generation finds fault with the configuration exactly if the naming of the files does. -/
theorem namingFails_iff (hconfiguration : error.isConfiguration = true) :
    (g.generateIn order entities fs).1.result = .error error ↔ g.NamingFails entities error := by
  constructor
  · intro h
    cases hdecorated : g.decorate entities with
    | error fault =>
      rw [Settings.generateIn_of_error hdecorated] at h
      cases h
      exact decorate_configuration hdecorated hconfiguration
    | ok decorated =>
      unfold generateIn at h
      rw [hdecorated] at h
      dsimp only at h
      cases hworkers : checkWorkers g.settings.workers with
      | error fault =>
        rw [hworkers] at h
        cases h
        rw [unconfigured_checkWorkers _ _ hworkers] at hconfiguration
        cases hconfiguration
      | ok _ =>
        rw [hworkers] at h
        cases h
  · intro h
    rw [generateIn_of_namingFails h]

end Generator

/-! ## The run -/

namespace Settings

variable {env : Environment} {schedule : Schedule} {s : Settings} {fs : FileSystem} {e : Error}

/-- A run ends with an error at once, whatever the files are: none of them counts, nothing is
reported, and all stay as they are. -/
def EndsEarly (env : Environment) (s : Settings) (e : Error) : Prop :=
  ∀ schedule fs, s.run env schedule fs = ⟨.error e, [], [], fs⟩

/-- The stages of a run stand and the sources are surveyed, but the naming of the files fails for one of
the entities. -/
def NamingFails (env : Environment) (schedule : Schedule) (s : Settings) (fs : FileSystem)
    (e : Error) : Prop :=
  ∃ p g found surveyed, s.stages env fs = .ok (p, g) ∧
    ((p.survey schedule.survey).run []).1 = ⟨.ok found, surveyed⟩ ∧ g.NamingFails found.entities e

/-- The stages are set up from the settings alone. -/
theorem stages_error_congr (h : s.stages env fs = .error e) (fs' : FileSystem) :
    s.stages env fs' = .error e := by
  have hproject : ∀ files, Project.ofSettings env files s.source =
      (Project.ofSettings env fs s.source).map fun p => { p with files } := by
    intro files
    unfold Project.ofSettings
    cases EntityRule.ofSettings s.source with
    | error fault => rfl
    | ok rule =>
      simp only [ok_bind]
      cases Modules.ofSettings env.attributes s.source <;> rfl
  unfold stages at h ⊢
  rw [hproject fs']
  cases hp : Project.ofSettings env fs s.source with
  | error fault =>
    rw [hp] at h
    exact h
  | ok p =>
    rw [hp, ok_bind] at h
    show (Generator.ofSettings env.library s.model >>= _) = _
    cases hg : Generator.ofSettings env.library s.model with
    | error fault =>
      rw [hg] at h
      exact h
    | ok g =>
      rw [hg] at h
      cases h

theorem endsEarly_of_stages (h : s.stages env fs = .error e) : s.EndsEarly env e := by
  intro schedule fs'
  unfold run
  rw [stages_error_congr h fs']

/-- A run whose naming fails has reported on its sources, and nothing else. -/
theorem run_of_namingFails (h : s.NamingFails env schedule fs e) :
    ∃ surveyed, surveyed ≠ [] ∧ s.run env schedule fs = ⟨.error e, surveyed, [], fs⟩ := by
  obtain ⟨p, g, found, surveyed, hstages, hsurvey, hnaming⟩ := h
  have hrun := run_of_ok hstages hsurvey
  dsimp only at hrun
  rw [Generator.generateIn_of_namingFails hnaming] at hrun
  exact ⟨surveyed, Project.reported_of_survey hsurvey, hrun⟩

/-- Once the stages stand, the function that names the files is what finds fault. -/
theorem namingFails_of_stages {p : Project} {g : Generator} (h : s.stages env fs = .ok (p, g))
    (he : (s.run env schedule fs).result = .error e) (hconfiguration : e.isConfiguration = true) :
    s.NamingFails env schedule fs e := by
  rcases hsurvey : ((p.survey schedule.survey).run []).1 with ⟨fault | found, surveyed⟩
  · have hunconfigured := @Project.unconfigured_survey p schedule.survey []
    rw [hsurvey] at hunconfigured
    rw [run_of_error h hsurvey] at he
    cases he
    rw [hunconfigured e rfl] at hconfiguration
    cases hconfiguration
  · rw [run_of_ok h hsurvey] at he
    dsimp only at he
    cases hresult : (g.generateIn (schedule.generation found.entities.length) found.entities
        fs).1.result with
    | ok written =>
      rw [hresult] at he
      cases he
    | error fault =>
      rw [hresult] at he
      cases he
      exact ⟨p, g, found, surveyed, h, hsurvey, (Generator.namingFails_iff hconfiguration).mp hresult⟩

/-- The errors of the configuration that a run ends with come early, exactly if an imported function
gives none of them for the name of a surveyed entity.  If it does, no model is begun and the files stay
as they are.  A survey gives no such error, and a generation gives one through this function only.
Formats that cannot be built let the run end early. -/
theorem configuration_error_early_iff (env : Environment) (schedule : Schedule) (s : Settings)
    (fs : FileSystem) :
    ((∀ e, (s.run env schedule fs).result = .error e → e.isConfiguration = true →
        s.EndsEarly env e) ↔
      ∀ e, e.isConfiguration = true → ¬s.NamingFails env schedule fs e) ∧
    (∀ e, s.NamingFails env schedule fs e →
      ∃ surveyed, s.run env schedule fs = ⟨.error e, surveyed, [], fs⟩) ∧
    (∀ (p : Project) order cache, Unconfigured ((p.survey order).run cache).1.result) ∧
    (∀ (p : Project) order files cache,
      Unconfigured ((p.surveyIn order files).run cache).1.result) ∧
    (∀ (g : Generator) order entities e, e.isConfiguration = true →
      ((g.generateIn order entities fs).1.result = .error e ↔ g.NamingFails entities e)) ∧
    (∀ e, Generator.ofSettings env.library s.model = .error e → ∃ e', s.EndsEarly env e') := by
  refine ⟨⟨fun hearly e hconfiguration hnaming => ?_, fun hnone e he hconfiguration => ?_⟩,
    fun e hnaming => ?_, fun p order cache => Project.unconfigured_survey order cache,
    fun p order files cache => Project.unconfigured_surveyIn order files cache,
    fun g order entities e hconfiguration => Generator.namingFails_iff hconfiguration,
    fun e he => ?_⟩
  · -- A run that ends early has reported nothing, but this one has reported on its sources.
    obtain ⟨surveyed, hreported, hrun⟩ := run_of_namingFails hnaming
    have hended := hearly e (by rw [hrun]) hconfiguration schedule fs
    rw [hrun] at hended
    exact hreported (RunOutcome.mk.inj hended).2.1
  · cases hstages : s.stages env fs with
    | error fault =>
      have hrun := endsEarly_of_stages hstages
      rw [hrun schedule fs] at he
      cases he
      exact hrun
    | ok stages =>
      exact absurd (namingFails_of_stages hstages he hconfiguration) (hnone e hconfiguration)
  · obtain ⟨surveyed, -, hrun⟩ := run_of_namingFails hnaming
    exact ⟨surveyed, hrun⟩
  · have hstages : ∃ e', s.stages env fs = .error e' := by
      unfold stages
      cases Project.ofSettings env fs s.source with
      | error fault => exact ⟨fault, rfl⟩
      | ok p =>
        rw [ok_bind, he]
        exact ⟨e, rfl⟩
    obtain ⟨e', hstages⟩ := hstages
    exact ⟨e', endsEarly_of_stages hstages⟩

/-- A format of file names that does not exist, whatever the files are. -/
theorem configuration_error_early_iff_shout :
    (named "shout").EndsEarly parsing (.unknownFormat "shout") := by
  have hstages : (named "shout").stages parsing pair.files = .error (.unknownFormat "shout") := rfl
  have hresult : ((named "shout").run parsing .inTurn pair.files).result =
      .error (.unknownFormat "shout") := by
    unfold run
    rw [hstages]
  refine (configuration_error_early_iff parsing .inTurn (named "shout") pair.files).1.mpr ?_ _ hresult
    rfl
  rintro e - ⟨p, g, -, -, hpair, -⟩
  cases hstages.symm.trans hpair

/-- The generator of files named by the function that reads an options file. -/
def loader : Generator :=
  ⟨(named "darmogen:load_config").model, .function (Library.loadFunction pair.files),
    .casing .pascal⟩

/-- Files are named by the function that reads an options file.  The stages stand and the file with the
classes is surveyed; only then an options file with the name of the first class is missed. -/
theorem configuration_error_late :
    (named "darmogen:load_config").stages (.standard pair.files) pair.files = .ok (pair, loader) ∧
      ∃ surveyed, (named "darmogen:load_config").run (.standard pair.files) .inTurn pair.files =
        ⟨.error (.noOptionsFile "Ab"), .started 1 ["a.ts"] :: surveyed, [], pair.files⟩ := by
  have hstages : (named "darmogen:load_config").stages (.standard pair.files) pair.files =
      .ok (pair, loader) := rfl
  obtain ⟨found, hfound, hrun⟩ := @Project.surveyIn_outcome pair "/" [] rfl rfl rfl
    (List.range ["a.ts"].length) ["a.ts"] (.refl _)
  have hmissing : Library.loadFunction pair.files "Ab" = .error (.noOptionsFile "Ab") := by
    decide +kernel
  have hname : loader.filenames.apply "Ab" = .error (.noOptionsFile "Ab") := hmissing
  have hdecorated : loader.decorate found.entities = .error (.noOptionsFile "Ab") := by
    unfold Generator.decorate
    rw [hfound.entities.trans entities_pair, List.mapM_cons, Generator.target_result rfl, hname]
    rfl
  have hended := @run_of_ok _ .inTurn _ _ _ _ hstages _ _
    ((congrArg Prod.fst (Project.survey_of_ok _ discover_pair)).trans hrun)
  dsimp only at hended
  rw [generateIn_of_error hdecorated] at hended
  exact ⟨hstages, _, hended⟩

end Settings

end DartModels
