import Mathlib.Data.List.Perm.Basic
import DartModels.Proofs.FileOutcome

/-!
# The order of a survey

The tasks of a survey finish in any order.  It first reports its files, then each finished one with a
running count.  What it gives does not depend on the order: the entities follow the files, and the
failures are sorted.

    the entities of each file, in the order of the files; one failure for each that fails     (Surveyed)
    a survey in any order                                                             (surveyIn_ordered)
-/

namespace DartModels

namespace Project

variable {p : Project} {dir : String} {cache : SourceCache}

/-! ## Outcomes -/

/-- The failure that an outcome is. -/
def failureOf : Except FailedFile (List SourceEntity) → Option FailedFile
  | .error f => some f
  | .ok _ => none

/-- The names of the entities that a file gives alone, as they are reported. -/
def namesAlone (p : Project) (file : String) : String :=
  ", ".intercalate ((p.entitiesAlone file).map (·.name))

theorem failureOf_outcomeOf (h : p.shown cache = p.shown []) {file : String}
    {o : Except FailedFile (List SourceEntity)} (ho : p.outcomeOf cache file = .ok o) :
    failureOf o = p.failureAlone file := by
  unfold failureAlone
  rw [outcomeOf_congr h] at ho
  rw [ho]
  cases o <;> rfl

theorem failed_collect (files : List String) {outcomes : List FileOutcome}
    {failure : String → Option FailedFile} (h : ∀ o ∈ outcomes, failureOf o.2 = failure o.1) :
    (collect files outcomes).failed.Perm ((outcomes.map Prod.fst).filterMap failure) := by
  refine (List.mergeSort_perm _ _).trans (.of_eq ?_)
  rw [List.filterMap_map]
  refine List.filterMap_congr fun o ho => ?_
  rw [Function.comp_apply, ← h o ho]
  cases o.2 <;> rfl

theorem sorted_collect (files : List String) (outcomes : List FileOutcome) :
    (collect files outcomes).failed.Pairwise fun a b => ¬b.path < a.path :=
  Progress.sorted_mergeSort FailedFile.path _

/-! ## Surveys -/

/-- What a survey of files gives: the entities of each file alone in the order of the files, and the
failure of each file that fails alone, sorted by path. -/
structure Surveyed (p : Project) (files : List String) (r : SurveyResult) : Prop where
  entities : r.entities = files.flatMap p.entitiesAlone
  failed : r.failed.Perm (files.filterMap p.failureAlone)
  sorted : r.failed.Pairwise fun a b => ¬b.path < a.path
  /-- A file has either entities or a failure. -/
  either : ∀ file ∈ files,
    match (p.parseFile file).result [] with
    | .ok entities => p.entitiesAlone file = entities ∧ p.failureAlone file = none
    | .error e => p.entitiesAlone file = [] ∧
        ∃ f, p.failureAlone file = some f ∧ p.failure file e = .ok f

/-- No two results fit the same files. -/
theorem Surveyed.unique (hcwd : p.settings.cwd = .str dir) {files : List String}
    {r r' : SurveyResult} (h : p.Surveyed files r) (h' : p.Surveyed files r') : r = r' := by
  have hentities : r.entities = r'.entities := h.entities.trans h'.entities.symm
  have hmem {f : FailedFile} (hf : f ∈ r.failed) : ∃ file, p.failureAlone file = some f := by
    obtain ⟨file, -, hfile⟩ := List.mem_filterMap.mp (h.failed.mem_iff.mp hf)
    exact ⟨file, hfile⟩
  have hperm : r.failed.Perm r'.failed := h.failed.trans h'.failed.symm
  have hfailed : r.failed = r'.failed := by
    refine hperm.eq_of_pairwise (fun a b ha hb hab hba => ?_) h.sorted h'.sorted
    obtain ⟨file, hfile⟩ := hmem ha
    obtain ⟨file', hfile'⟩ := hmem (hperm.mem_iff.mpr hb)
    exact failure_congr hcwd hfile hfile'
      (String.le_antisymm (String.not_lt.mp hab) (String.not_lt.mp hba))
  cases r
  cases r'
  cases hentities
  cases hfailed
  rfl

theorem surveyed_collect (hcwd : p.settings.cwd = .str dir) (hcache : p.shown cache = p.shown [])
    {files : List String} {outcomes : List FileOutcome}
    (hfiles : (outcomes.map Prod.fst).Perm files)
    (houtcomes : ∀ o ∈ outcomes, p.outcomeOf cache o.1 = .ok o.2) :
    p.Surveyed files (collect files outcomes) where
  entities := entities_collect (fun _ hfile => hfiles.mem_iff.mpr hfile)
    fun o ho => entitiesOf_outcomeOf hcache (houtcomes o ho)
  failed := (failed_collect files fun o ho => failureOf_outcomeOf hcache (houtcomes o ho)).trans
    (hfiles.filterMap _)
  sorted := sorted_collect files outcomes
  either := by
    intro file _
    unfold entitiesAlone
    cases hr : (p.parseFile file).result [] with
    | ok entities => exact ⟨rfl, failureAlone_of_ok hr⟩
    | error e => exact ⟨rfl, failureAlone_of_error hcwd hr⟩

theorem reportedNames {outcomes : List FileOutcome} (hcache : p.shown cache = p.shown [])
    (houtcomes : ∀ o ∈ outcomes, p.outcomeOf cache o.1 = .ok o.2) :
    outcomes.map reportedName = (outcomes.map Prod.fst).map p.namesAlone := by
  rw [List.map_map]
  refine List.map_congr_left fun o ho => ?_
  unfold reportedName
  rw [entitiesOf_outcomeOf hcache (houtcomes o ho)]
  rfl

theorem surveyIn_outcome (hcwd : p.settings.cwd = .str dir)
    (hworkers : checkWorkers p.settings.workers = .ok ()) (hcache : p.shown cache = p.shown [])
    {order : List Nat} {files : List String} (horder : order.Perm (List.range files.length)) :
    ∃ r, p.Surveyed files r ∧ ((p.surveyIn order files).run cache).1 = ⟨.ok r,
      .started files.length files ::
        ((tasks order files).zipIdx 1).map fun (file, n) => .advanced n (p.namesAlone file)⟩ := by
  obtain ⟨-, houtcomes, hfault⟩ := p.parseFiles_outcomes (tasks order files) cache
  rw [surveyIn_run, hworkers]
  dsimp only
  revert houtcomes hfault
  rcases (p.parseFiles (tasks order files)).run cache with ⟨⟨outcomes, fault⟩, s⟩
  cases fault with
  | some e =>
    rintro - ⟨file, -, he⟩
    have hdir := outcomeOf_eq_error he
    rw [hcwd] at hdir
    cases hdir
  | none =>
    intro houtcomes hfiles
    change outcomes.map Prod.fst = tasks order files at hfiles
    refine ⟨_, surveyed_collect hcwd hcache (hfiles ▸ perm_tasks horder) houtcomes, ?_⟩
    dsimp only
    rw [reportedNames hcache houtcomes, hfiles, Progress.counted_map]

/-- A survey reports its files first, then each finished one with a running count.  After any session
and in any order of its tasks it gives the entities of the files in their order, and each file that
fails as one failure, sorted by path: two runs that differ in the order only give the same. -/
theorem surveyIn_ordered (hcwd : p.settings.cwd = .str dir) (ops : List Operation)
    {order : List Nat} {files : List String} (horder : order.Perm (List.range files.length)) :
    match checkWorkers p.settings.workers with
    | .error e => ((p.surveyIn order files).run (p.session ops)).1 =
        ⟨.error e, [.started files.length files]⟩
    | .ok () => ∃ r, p.Surveyed files r ∧
        ((p.surveyIn order files).run (p.session ops)).1 = ⟨.ok r,
          .started files.length files ::
            ((tasks order files).zipIdx 1).map fun (file, n) => .advanced n (p.namesAlone file)⟩ ∧
        ∀ (ops' : List Operation) (order' : List Nat), order'.Perm (List.range files.length) →
          ((p.surveyIn order' files).run (p.session ops')).1.result = .ok r := by
  split
  · next e hworkers => rw [surveyIn_run, hworkers]
  · next hworkers =>
    obtain ⟨r, hr, hrun⟩ := surveyIn_outcome hcwd hworkers (shown_session ops) horder
    refine ⟨r, hr, hrun, fun ops' order' horder' => ?_⟩
    obtain ⟨r', hr', hrun'⟩ := surveyIn_outcome hcwd hworkers (shown_session ops') horder'
    rw [hrun', hr.unique hcwd hr']

/-! ## A file that is not there -/

/-- A source tree of one entity. -/
def marked : Project := ofText "@Entity() class A{}"

theorem names_marked : marked.namesAlone "a.ts" = "A" ∧ marked.namesAlone "b.ts" = "" := by
  constructor <;> cbv

/-- The missing file is finished first and listed last. -/
theorem surveyIn_backwards :
    ∃ r, marked.Surveyed ["a.ts", "b.ts"] r ∧
      ((marked.surveyIn [1, 0] ["a.ts", "b.ts"]).run []).1 =
        ⟨.ok r, [.started 2 ["a.ts", "b.ts"], .advanced 1 "", .advanced 2 "A"]⟩ ∧
      ((marked.surveyIn [0, 1] ["a.ts", "b.ts"]).run []).1.result = .ok r := by
  have horder : [1, 0].Perm (List.range ["a.ts", "b.ts"].length) := by decide
  obtain ⟨r, hr, hrun, hother⟩ := @surveyIn_ordered marked "/" rfl [] [1, 0] ["a.ts", "b.ts"] horder
  refine ⟨r, hr, ?_, hother [] [0, 1] (by decide)⟩
  rw [show marked.session [] = [] from rfl] at hrun
  rw [hrun]
  show (⟨.ok r, [.started 2 ["a.ts", "b.ts"], .advanced 1 (marked.namesAlone "b.ts"),
    .advanced 2 (marked.namesAlone "a.ts")]⟩ : StageOutcome SurveyResult) = _
  rw [names_marked.1, names_marked.2]

end Project

end DartModels
