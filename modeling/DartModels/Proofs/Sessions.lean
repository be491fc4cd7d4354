import DartModels.Survey
import DartModels.Proofs.VisibleFields

/-!
# Sessions

A session is any sequence of operations on one cache that starts empty.  Every operation leaves what
the cache shows as it was, so a file gives the same entities or the same error at any point of a
session as it gives alone, and a survey puts together what its files give alone.

    p.shown (p.session ops) = p.load                                                (shown_session)
    parseFile gives the same after a session as at its start; a survey in any order of its tasks
    lists the entities of each file alone, in the order of the files
-/

namespace DartModels

namespace Project

variable {p : Project} {cache : SourceCache}

/-! ## One file -/

theorem steady_parseFile (file : String) : p.Steady (p.parseFile file) := by
  refine steady_bind (steady_lift _) fun dir => steady_bind (steady_importSource _) fun source => ?_
  cases source with
  | none => exact steady_throw _
  | some source =>
    exact steady_mapM (fun c => steady_bind (steady_fields c) fun _ => steady_pure _) _

/-- What a file contributes to a survey: its entities, its failure, or the error of reporting it. -/
def outcomeOf (p : Project) (cache : SourceCache) (file : String) :
    Except Error (Except FailedFile (List SourceEntity)) :=
  match (p.parseFile file).result cache with
  | .ok entities => .ok (.ok entities)
  | .error e => (p.failure file e).map .error

/-- The entities that a file gives from an empty cache; one that fails gives none. -/
def entitiesAlone (p : Project) (file : String) : List SourceEntity :=
  match (p.parseFile file).result [] with
  | .ok entities => entities
  | .error _ => []

theorem outcomeOf_congr {other : SourceCache} (h : p.shown other = p.shown cache) :
    p.outcomeOf other = p.outcomeOf cache := by
  funext file
  unfold outcomeOf
  rw [(steady_parseFile file).agrees cache other h]

theorem entitiesOf_outcomeOf (h : p.shown cache = p.shown []) {file : String}
    {o : Except FailedFile (List SourceEntity)} (ho : p.outcomeOf cache file = .ok o) :
    entitiesOf o = p.entitiesAlone file := by
  unfold outcomeOf at ho
  unfold entitiesAlone
  rw [(steady_parseFile file).agrees [] cache h] at ho
  split at ho
  · cases ho
    rfl
  · next e hr =>
    cases hf : p.failure file e with
    | error _ =>
      rw [hf] at ho
      cases ho
    | ok failed =>
      rw [hf] at ho
      cases ho
      rfl

/-- A failure can be reported unless the source directory is no path. -/
theorem outcomeOf_eq_error {file : String} {e : Error} (h : p.outcomeOf cache file = .error e) :
    p.settings.cwd.asPath = .error e := by
  unfold outcomeOf at h
  split at h
  · cases h
  · next cause _ =>
    unfold failure at h
    split at h
    · cases h
    · cases hc : p.settings.cwd.asPath with
      | error e' =>
        rw [hc] at h
        cases h
        rfl
      | ok dir =>
        rw [hc] at h
        cases h

/-! ## Several files -/

theorem parseFiles_cons (file : String) (rest : List String) (cache : SourceCache) :
    (p.parseFiles (file :: rest)).run cache =
      match p.outcomeOf cache file with
      | .error fault => (([], some fault), (p.parseFile file).after cache)
      | .ok o =>
        let run := (p.parseFiles rest).run ((p.parseFile file).after cache)
        (((file, o) :: run.1.1, run.1.2), run.2) := by
  unfold outcomeOf Loading.result Loading.after Loading.exec
  rw [parseFiles, StateT.run_bind]
  show (fun (pair : Except Error (List SourceEntity) × SourceCache) => _)
    ((ExceptT.run (p.parseFile file)).run cache) = _
  rcases (ExceptT.run (p.parseFile file)).run cache with ⟨r, s⟩
  cases r with
  | ok entities => rfl
  | error e =>
    change StateT.run _ s = _
    dsimp only
    cases p.failure file e <;> rfl

/-- What files give one after another: the outcomes of all of them, or of those before the first one
whose failure cannot be reported. -/
theorem parseFiles_outcomes (files : List String) (cache : SourceCache) :
    let run := (p.parseFiles files).run cache
    p.shown run.2 = p.shown cache ∧ (∀ o ∈ run.1.1, p.outcomeOf cache o.1 = .ok o.2) ∧
      match run.1.2 with
      | none => run.1.1.map Prod.fst = files
      | some e => ∃ file ∈ files, p.outcomeOf cache file = .error e := by
  induction files generalizing cache with
  | nil => exact ⟨rfl, nofun, rfl⟩
  | cons file rest ih =>
    have hkeeps := (steady_parseFile (p := p) file).keeps cache
    rw [parseFiles_cons]
    cases ho : p.outcomeOf cache file with
    | error fault => exact ⟨hkeeps, nofun, file, List.mem_cons_self, ho⟩
    | ok o =>
      obtain ⟨hshown, houtcomes, hfault⟩ := ih ((p.parseFile file).after cache)
      rw [outcomeOf_congr hkeeps] at houtcomes
      refine ⟨hshown.trans hkeeps, List.forall_mem_cons.mpr ⟨ho, houtcomes⟩, ?_⟩
      revert hfault
      dsimp only
      split
      · rintro hfiles
        rw [List.map_cons, hfiles]
      · rintro ⟨f, hf, he⟩
        rw [outcomeOf_congr hkeeps] at he
        exact ⟨f, List.mem_cons_of_mem _ hf, he⟩

/-- The files of the tasks of a survey, in the order of the tasks. -/
def tasks (order : List Nat) (files : List String) : List String :=
  order.filterMap fun i => files[i]?

theorem surveyIn_run (order : List Nat) (files : List String) (cache : SourceCache) :
    (p.surveyIn order files).run cache =
      match checkWorkers p.settings.workers with
      | .error e => (⟨.error e, [.started files.length files]⟩, cache)
      | .ok () =>
        let run := (p.parseFiles (tasks order files)).run cache
        let progress := .started files.length files :: Progress.counted (run.1.1.map reportedName)
        match run.1.2 with
        | some e => (⟨.error e, progress⟩, run.2)
        | none => (⟨.ok (collect files run.1.1), progress⟩, run.2) := by
  unfold surveyIn
  cases checkWorkers p.settings.workers with
  | error e => rfl
  | ok _ =>
    show StateT.run ((p.parseFiles (tasks order files)) >>= _) cache = _
    simp only [StateT.run_bind]
    rcases (p.parseFiles (tasks order files)).run cache with ⟨⟨outcomes, fault⟩, s⟩
    cases fault <;> rfl

theorem shown_surveyIn (order : List Nat) (files : List String) (cache : SourceCache) :
    p.shown ((p.surveyIn order files).run cache).2 = p.shown cache := by
  have h := (p.parseFiles_outcomes (tasks order files) cache).1
  rw [surveyIn_run]
  split
  · rfl
  · dsimp only at h ⊢
    split <;> exact h

theorem perm_tasks {order : List Nat} {files : List String}
    (h : order.Perm (List.range files.length)) : (tasks order files).Perm files :=
  Progress.perm_items h

theorem entities_collect {files : List String} {outcomes : List FileOutcome}
    {entities : String → List SourceEntity}
    (hfiles : ∀ file ∈ files, file ∈ outcomes.map Prod.fst)
    (houtcomes : ∀ o ∈ outcomes, entitiesOf o.2 = entities o.1) :
    (collect files outcomes).entities = files.flatMap entities := by
  unfold collect
  dsimp only
  rw [List.flatMap_def, List.flatMap_def]
  refine congrArg List.flatten (List.map_congr_left fun file hfile => ?_)
  have hsome : (outcomes.lookup file).isSome := by
    obtain ⟨o, ho, rfl⟩ := List.mem_map.mp (hfiles file hfile)
    exact List.lookup_isSome_iff.mpr ⟨o, ho, beq_self_eq_true o.1⟩
  obtain ⟨o, ho⟩ := Option.isSome_iff_exists.mp hsome
  rw [ho]
  exact houtcomes _ (mem_of_lookup ho)

/-- The entities of a survey, whatever was cached before and whatever the order of its tasks. -/
theorem entities_surveyIn (hcache : p.shown cache = p.shown []) {order : List Nat}
    {files : List String} (horder : order.Perm (List.range files.length)) :
    match ((p.surveyIn order files).run cache).1.result with
    | .ok r => r.entities = files.flatMap p.entitiesAlone
    | .error e => checkWorkers p.settings.workers = .error e ∨
        files ≠ [] ∧ p.settings.cwd.asPath = .error e := by
  obtain ⟨-, houtcomes, hfault⟩ := p.parseFiles_outcomes (tasks order files) cache
  rw [surveyIn_run]
  cases hworkers : checkWorkers p.settings.workers with
  | error e => exact Or.inl rfl
  | ok _ =>
    dsimp only
    revert houtcomes hfault
    rcases (p.parseFiles (tasks order files)).run cache with ⟨⟨outcomes, fault⟩, s⟩
    cases fault with
    | some e =>
      rintro - ⟨file, hfile, he⟩
      refine Or.inr ⟨?_, outcomeOf_eq_error he⟩
      exact List.ne_nil_of_mem ((perm_tasks horder).mem_iff.mp hfile)
    | none =>
      intro houtcomes hfiles
      refine entities_collect (fun file hfile => ?_) fun o ho =>
        entitiesOf_outcomeOf hcache (houtcomes o ho)
      rw [show outcomes.map Prod.fst = tasks order files from hfiles]
      exact (perm_tasks horder).mem_iff.mpr hfile

/-! ## Sessions -/

/-- What a session can do with the cache. -/
inductive Operation where
  | importSource (path : String)
  | cached (path : String)
  | parseFile (file : String)
  | surveyIn (order : List Nat) (files : List String)
  | survey (order : Nat → List Nat)
  | ancestors (c : EntityClass)
  | fields (c : EntityClass)

/-- The cache after an operation. -/
def operate (p : Project) (cache : SourceCache) : Operation → SourceCache
  | .importSource path => (p.importSource path).after cache
  | .cached _ => cache
  | .parseFile file => (p.parseFile file).after cache
  | .surveyIn order files => ((p.surveyIn order files).run cache).2
  | .survey order => ((p.survey order).run cache).2
  | .ancestors c => (p.ancestors c).after cache
  | .fields c => (p.fields c).after cache

/-- The cache after operations, empty before them. -/
def session (p : Project) (ops : List Operation) : SourceCache := ops.foldl p.operate []

theorem shown_operate (cache : SourceCache) (op : Operation) :
    p.shown (p.operate cache op) = p.shown cache := by
  cases op with
  | importSource path => exact p.shown_importSource path cache
  | cached path => rfl
  | parseFile file => exact (steady_parseFile file).keeps cache
  | surveyIn order files => exact shown_surveyIn order files cache
  | survey order =>
    show p.shown ((p.survey order).run cache).2 = p.shown cache
    unfold survey
    split
    · rfl
    · exact shown_surveyIn _ _ cache
  | ancestors c => exact (steady_ancestors c).keeps cache
  | fields c => exact (steady_fields c).keeps cache

theorem shown_session (ops : List Operation) : p.shown (p.session ops) = p.shown [] := by
  refine List.foldlRecOn (motive := fun cache => p.shown cache = p.shown []) ops _ rfl ?_
  intro cache ih op _
  exact (shown_operate cache op).trans ih

/-- After any session a file gives what it gives at first, and a survey, which only an unusable
number of workers or source directory can end, gives the entities of each file alone. -/
theorem session_independent (p : Project) (ops : List Operation) :
    (∀ file, (p.parseFile file).result (p.session ops) = (p.parseFile file).result []) ∧
    ∀ (order : List Nat) (files : List String), order.Perm (List.range files.length) →
      match ((p.surveyIn order files).run (p.session ops)).1.result with
      | .ok r => r.entities = files.flatMap p.entitiesAlone
      | .error e => checkWorkers p.settings.workers = .error e ∨
          files ≠ [] ∧ p.settings.cwd.asPath = .error e :=
  ⟨fun file => (steady_parseFile file).agrees [] _ (shown_session ops),
    fun _ _ horder => entities_surveyIn (shown_session ops) horder⟩

/-- A survey whose tasks run in the other order, after its first file and a whole survey. -/
theorem session_swapped :
    ∃ r, ((cycle.surveyIn [1, 0] ["a.ts", "b.ts"]).run
        (cycle.session [.parseFile "a.ts", .survey List.range])).1.result = .ok r ∧
      r.entities = cycle.entitiesAlone "a.ts" ++ (cycle.entitiesAlone "b.ts" ++ []) := by
  have h := (session_independent cycle [.parseFile "a.ts", .survey List.range]).2 [1, 0] ["a.ts", "b.ts"]
    (by decide)
  cases hr : ((cycle.surveyIn [1, 0] ["a.ts", "b.ts"]).run
      (cycle.session [.parseFile "a.ts", .survey List.range])).1.result with
  | error e =>
    rw [hr] at h
    rcases h with h | ⟨-, h⟩
    · cases h
    · cases h
  | ok r =>
    rw [hr] at h
    exact ⟨r, rfl, h⟩

end Project

end DartModels
