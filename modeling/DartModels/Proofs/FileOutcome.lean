import DartModels.Proofs.DescribedTypes
import DartModels.Proofs.Sessions

/-!
# The outcome of a file

Where the source directory is a text, a file gives its entities or one failure, and the failure bears
the file's own path.  A file that is reached from another one is never reported as missing.

    the entities of a source, or the file is missing                              (parseFile_result)
    the path of a failure is that of the file                                         (failure_path)
    files that stand at one path fail alike                                           (failure_congr)
-/

namespace DartModels

open Syntax

/-! ## Results that report no missing source -/

/-- A result that does not report a source as missing. -/
abbrev Quiet {α : Type} (r : Except Error α) : Prop :=
  OnlyErrors (fun e => ∀ path, e ≠ .missingSource path) r

section

variable {α β : Type}

theorem quiet_wrongKind (fault : KindFault) : Quiet (wrongKind fault : Except Error α) :=
  OnlyErrors.error fun _ h => by cases h

theorem quiet_result_bind {x : Loading α} {f : α → Loading β} {cache : SourceCache}
    (hx : Quiet (x.result cache)) (hf : ∀ a other, Quiet ((f a).result other)) :
    Quiet ((x >>= f).result cache) := by
  cases hr : x.result cache with
  | error e =>
    rw [Loading.result_bind_error hr]
    exact OnlyErrors.error (hx e hr)
  | ok a =>
    rw [Loading.result_bind_ok hr]
    exact hf a _

theorem quiet_asPath (v : Json) : Quiet v.asPath := by
  unfold Json.asPath
  split
  · exact OnlyErrors.ok _
  · exact quiet_wrongKind _

end

namespace Modules

theorem quiet_resolve (m : Modules) (specifier : String) (base : Option String) :
    Quiet (m.resolve specifier base) := by
  have hstart : Quiet (m.startDirectory base) := by
    unfold startDirectory
    split
    · split
      · exact quiet_asPath _
      · exact OnlyErrors.ok _
    · exact quiet_asPath _
  unfold resolve
  dsimp only
  split
  · exact OnlyErrors.bind (quiet_asPath _) fun _ => OnlyErrors.ok _
  · split
    · exact OnlyErrors.bind hstart fun _ => OnlyErrors.ok _
    · exact OnlyErrors.bind (quiet_asPath _) fun _ => OnlyErrors.ok _

theorem quiet_resolveFile (m : Modules) (fs : FileSystem) (specifier : String)
    (base : Option String) : Quiet (m.resolveFile fs specifier base) := by
  refine OnlyErrors.bind (quiet_resolve m specifier base) fun path => ?_
  dsimp only
  split
  · split
    · exact OnlyErrors.ok _
    · split <;> exact OnlyErrors.ok _
  · exact quiet_wrongKind _

end Modules

namespace Project

variable {p : Project} {dir : String}

theorem quiet_load (key : String) : Quiet (p.load key) := by
  refine OnlyErrors.bind ?_ fun text => ?_
  · unfold readText
    split
    · split <;> exact OnlyErrors.ok _
    · exact OnlyErrors.error fun _ h => by cases h
    · exact OnlyErrors.ok _
  · cases text with
    | none => exact OnlyErrors.ok _
    | some text =>
      refine OnlyErrors.bind (OnlyErrors.foldlM (fun table entry => ?_) _ _) fun imports =>
        OnlyErrors.bind ?_ fun _ => OnlyErrors.ok _
      · exact OnlyErrors.bind (Modules.quiet_resolveFile _ _ _ _) fun _ => OnlyErrors.ok _
      · refine OnlyErrors.bind (OnlyErrors.mapM (fun declared => ?_) _) fun _ => OnlyErrors.ok _
        exact OnlyErrors.bind (Origin.onlyErrors_heritageNames nofun _) fun _ => OnlyErrors.ok _

theorem quiet_importSource (path : String) : Quiet ((p.importSource path).result []) := by
  rw [importSource_result]
  exact quiet_load _

theorem quiet_findClass (c : EntityClass) (name : String) :
    Quiet ((p.findClass c name).result []) := by
  rw [findClass_result, shown_nil]
  split
  · next e hload => exact OnlyErrors.error (quiet_load _ e hload)
  · exact OnlyErrors.ok _
  · split
    · next e hload => exact OnlyErrors.error (quiet_load _ e hload)
    · exact OnlyErrors.ok _
    · exact OnlyErrors.ok _

theorem quiet_ancestors (c : EntityClass) : Quiet ((p.ancestors c).result []) := by
  intro e h
  have hex := explored_ancestors (p := p) c []
  rw [h] at hex
  obtain ⟨d, -, name, -, hfails⟩ := hex
  exact quiet_findClass d name e hfails

/-! ## Fields -/

theorem quiet_addProperty (d : EntityClass) (source : Source) (fields : List Field) (m : Node) :
    Quiet (p.addProperty d source fields m) := by
  refine OnlyErrors.bind ?_ fun f => ?_
  · unfold field?
    split
    · exact OnlyErrors.bind (Origin.onlyErrors_describe? nofun (fun _ => nofun) _) fun _ =>
        OnlyErrors.ok _
    · exact OnlyErrors.ok _
  · cases f <;> exact OnlyErrors.ok _

theorem quiet_addClass (fields : List Field) (d : EntityClass) :
    Quiet ((p.addClass fields d).result []) := by
  refine quiet_result_bind (quiet_importSource _) fun source cache => ?_
  cases source with
  | none => exact OnlyErrors.ok _
  | some source =>
    dsimp only
    split
    · exact quiet_wrongKind _
    · exact OnlyErrors.foldlM (quiet_addProperty d source) _ fields

theorem quiet_fields (c : EntityClass) : Quiet ((p.fields c).result []) := by
  rw [fields_result]
  exact OnlyErrors.bind (quiet_ancestors c) fun _ => OnlyErrors.foldlM quiet_addClass _ _

/-! ## Entities -/

/-- The entity of a class of a file. -/
def entityOf (p : Project) (file : String) (c : EntityClass) : Except Error SourceEntity :=
  ((p.fields c).result []).map fun fields => ⟨file, c.name, fields⟩

theorem quiet_entityOf (file : String) (c : EntityClass) : Quiet (p.entityOf file c) := by
  unfold entityOf
  cases hfields : (p.fields c).result [] with
  | error e => exact OnlyErrors.error (quiet_fields c e hfields)
  | ok fields => exact OnlyErrors.ok _

theorem parseFile_result (hcwd : p.settings.cwd = .str dir) (file : String) :
    (p.parseFile file).result [] =
      match p.load (p.files.absolute (Path.join dir file)) with
      | .error e => .error e
      | .ok none => .error (.missingSource (Path.join dir file))
      | .ok (some source) => source.entities.mapM (p.entityOf file) := by
  have hdir : (liftM p.settings.cwd.asPath : Loading String).result [] = .ok dir := by
    rw [hcwd]
    rfl
  have hload := p.importSource_result (Path.join dir file) []
  rw [shown_nil] at hload
  unfold parseFile
  rw [Loading.result_bind_ok hdir]
  show ((p.importSource (Path.join dir file)) >>= _ : Loading (List SourceEntity)).result [] = _
  cases hsource : p.load (p.files.absolute (Path.join dir file)) with
  | error e => exact Loading.result_bind_error (hload.trans hsource) _
  | ok source =>
    rw [Loading.result_bind_ok (hload.trans hsource)]
    cases source with
    | none => rfl
    | some source =>
      have hsteady (c : EntityClass) : p.Steady (do
          return (⟨file, c.name, ← p.fields c⟩ : SourceEntity)) :=
        steady_bind (steady_fields c) fun _ => steady_pure _
      show (source.entities.mapM fun c => do
        return (⟨file, c.name, ← p.fields c⟩ : SourceEntity)).result _ = _
      rw [(steady_mapM hsteady _).agrees [] _ (p.shown_importSource _ _), result_mapM hsteady]
      refine congrArg (fun f => List.mapM f source.entities) (funext fun c => ?_)
      rw [result_bind (steady_fields c) fun _ => steady_pure _]
      unfold entityOf
      cases (p.fields c).result [] <;> rfl

theorem mapM_entityOf_congr (file file' : String) {classes : List EntityClass} {e : Error}
    (h : classes.mapM (p.entityOf file) = .error e) :
    classes.mapM (p.entityOf file') = .error e := by
  induction classes with
  | nil => cases h
  | cons c classes ih =>
    rw [List.mapM_cons] at h ⊢
    unfold entityOf at h ⊢
    cases hfields : (p.fields c).result [] with
    | error e' =>
      rw [hfields] at h
      cases h
      rfl
    | ok fields =>
      rw [hfields] at h
      change (classes.mapM (p.entityOf file) >>= _) = _ at h
      show (classes.mapM (p.entityOf file') >>= _) = _
      cases hrest : classes.mapM (p.entityOf file) with
      | error e' =>
        rw [hrest] at h
        cases h
        rw [ih hrest]
        rfl
      | ok entities =>
        rw [hrest] at h
        cases h

/-! ## Failures -/

/-- The failure of a file from an empty cache, if it fails. -/
def failureAlone (p : Project) (file : String) : Option FailedFile :=
  match p.outcomeOf [] file with
  | .ok (.error f) => some f
  | _ => none

/-- The only source that is reported as missing is the file itself. -/
theorem parseFile_missing (hcwd : p.settings.cwd = .str dir) {file path : String}
    (h : (p.parseFile file).result [] = .error (.missingSource path)) :
    path = Path.join dir file := by
  rw [parseFile_result hcwd] at h
  split at h
  · next e hload =>
    cases h
    exact absurd rfl (quiet_load _ _ hload path)
  · cases h
    rfl
  · next source _ =>
    exact absurd rfl (OnlyErrors.mapM (quiet_entityOf file) source.entities _ h path)

theorem parseFile_error_congr (hcwd : p.settings.cwd = .str dir) {file file' : String}
    (hpath : Path.join dir file = Path.join dir file') {e : Error}
    (h : (p.parseFile file).result [] = .error e) : (p.parseFile file').result [] = .error e := by
  rw [parseFile_result hcwd] at h ⊢
  rw [← hpath]
  split at h
  · exact h
  · exact h
  · exact mapM_entityOf_congr file file' h

/-- The error of the file at a path as it is reported. -/
def reported (path : String) : Error → Error
  | .missingSource _ => .missingSource path
  | e => .unresolvedSource path e.message

theorem failure_eq (hcwd : p.settings.cwd = .str dir) {file : String} {e : Error}
    (h : (p.parseFile file).result [] = .error e) :
    p.failure file e = .ok ⟨Path.join dir file, reported (Path.join dir file) e⟩ := by
  have hother : (p.settings.cwd.asPath >>= fun base =>
      (.ok ⟨Path.join base file, .unresolvedSource (Path.join base file) e.message⟩ :
        Except Error FailedFile)) =
      .ok ⟨Path.join dir file, .unresolvedSource (Path.join dir file) e.message⟩ := by
    rw [hcwd]
    rfl
  cases e with
  | missingSource path => rw [parseFile_missing hcwd h]; rfl
  | _ => exact hother

theorem failureAlone_of_ok {file : String} {entities : List SourceEntity}
    (h : (p.parseFile file).result [] = .ok entities) : p.failureAlone file = none := by
  unfold failureAlone outcomeOf
  rw [h]

theorem failureAlone_of_error (hcwd : p.settings.cwd = .str dir) {file : String} {e : Error}
    (h : (p.parseFile file).result [] = .error e) :
    ∃ f, p.failureAlone file = some f ∧ p.failure file e = .ok f := by
  have hf := failure_eq hcwd h
  refine ⟨_, ?_, hf⟩
  unfold failureAlone outcomeOf
  rw [h]
  dsimp only
  rw [hf]
  rfl

theorem failure_path (hcwd : p.settings.cwd = .str dir) {file : String} {f : FailedFile}
    (h : p.failureAlone file = some f) : f.path = Path.join dir file := by
  cases hr : (p.parseFile file).result [] with
  | ok entities =>
    rw [failureAlone_of_ok hr] at h
    cases h
  | error e =>
    obtain ⟨g, hg, hfailure⟩ := failureAlone_of_error hcwd hr
    rw [hg] at h
    cases h
    rw [failure_eq hcwd hr] at hfailure
    cases hfailure
    rfl

/-- Files that stand at one path fail alike. -/
theorem failure_congr (hcwd : p.settings.cwd = .str dir) {file file' : String}
    {f f' : FailedFile} (hf : p.failureAlone file = some f) (hf' : p.failureAlone file' = some f')
    (hpath : f.path = f'.path) : f = f' := by
  have hjoin := failure_path hcwd hf
  rw [hpath, failure_path hcwd hf'] at hjoin
  cases hr : (p.parseFile file).result [] with
  | ok entities =>
    rw [failureAlone_of_ok hr] at hf
    cases hf
  | error e =>
    have hr' := parseFile_error_congr hcwd hjoin.symm hr
    obtain ⟨g, hg, hfailure⟩ := failureAlone_of_error hcwd hr
    obtain ⟨g', hg', hfailure'⟩ := failureAlone_of_error hcwd hr'
    rw [failure_eq hcwd hr] at hfailure
    rw [failure_eq hcwd hr', hjoin] at hfailure'
    rw [hg] at hf
    rw [hg'] at hf'
    cases hf
    cases hf'
    exact Except.ok.inj (hfailure.symm.trans hfailure')

end Project

end DartModels
