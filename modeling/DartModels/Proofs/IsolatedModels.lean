import DartModels.Proofs.IsolatedWrites
import DartModels.Proofs.WrittenModels

/-!
# Isolated models

The tasks of a run share one tree and one catalog.  Where their targets lie apart, each task ends as it
would have ended alone, in the tree that the run has started from: it reports the same model or fails
in the same way, and its target holds the same.  The order in which tasks run or finish does not matter,
nor does it matter which of them fail.

    a task in a tree where others have written                              (writeEntityUnder_beside)
    all tasks, one after another                                            (writeAllUnder_isolated)
    a run, and each of its tasks alone                                       (generateUnder_isolated)

A failure because of a name that is too long above a target may name another directory.
-/

namespace DartModels

open FileSystem AtomicWrite

namespace Generator

variable (g : Generator) (c : Catalog)

/-! ## Runs where steps are refused -/

/-- The report of an entity whose model fails. -/
def failure (e : ModelEntity) (error : Error) : FailedModel :=
  ⟨e.target, .emission e.name e.target error.message⟩

/-- Writes the model of one entity where steps are refused. -/
def writeEntityUnder (refuse : Refusals) (e : ModelEntity) (fs : FileSystem) :
    Except FailedModel WrittenModel × FileSystem :=
  match (c.emit g.settings fs e).exec [] with
  | (.error error, _) => (.error (failure e error), fs)
  | (.ok text, met) =>
    match (writeUnder refuse e.target text true).exec fs with
    | (.error error, fs) => (.error (failure e error), fs)
    | (.ok (), fs) => (.ok ⟨e, met⟩, fs)

/-- Writes models one after another, where the task of place `i` is refused the steps `refuse i`. -/
def writeAllUnder (refuse : Nat → Refusals) :
    List (Nat × ModelEntity) → FileSystem →
      List (Nat × Except FailedModel WrittenModel) × FileSystem
  | [], fs => ([], fs)
  | (i, e) :: rest, fs =>
    let (outcome, fs) := g.writeEntityUnder c (refuse i) e fs
    let (outcomes, fs) := writeAllUnder refuse rest fs
    ((i, outcome) :: outcomes, fs)

/-- The tasks of entities, in the order `order` of their places. -/
def tasks (order : List Nat) (decorated : List ModelEntity) : List (Nat × ModelEntity) :=
  order.filterMap fun i => (decorated[i]?).map (i, ·)

/-- Outcomes in the order `completed` in which their tasks finish. -/
def finished (completed : List Nat) (outcomes : List (Nat × Except FailedModel WrittenModel)) :
    List (Nat × Except FailedModel WrittenModel) :=
  completed.filterMap fun i => (outcomes.lookup i).map (i, ·)

/-- Writes a model for every entity where steps are refused.  The tasks run in the order `order` of
their places and finish in the order `completed`. -/
def generateUnder (refuse : Nat → Refusals) (order completed : List Nat)
    (entities : List SourceEntity) (fs : FileSystem) :
    StageOutcome GenerationResult × FileSystem :=
  match g.decorate entities with
  | .error e => (⟨.error e, []⟩, fs)
  | .ok decorated =>
    let started := ProgressEvent.started decorated.length (decorated.map (·.name))
    match checkWorkers g.settings.workers with
    | .error e => (⟨.error e, [started]⟩, fs)
    | .ok () =>
      let (outcomes, fs) := g.writeAllUnder (g.catalog decorated) refuse (tasks order decorated) fs
      (⟨.ok (collect decorated.length (finished completed outcomes)),
        started :: Progress.counted ((tasks completed decorated).map (·.2.name))⟩, fs)

variable {g c} {refuse : Refusals} {fs fs₁ fs' : FileSystem}

theorem writeEntityUnder_none (e : ModelEntity) (fs : FileSystem) :
    g.writeEntityUnder c Refusals.none e fs = g.writeEntity c e fs := rfl

theorem writeAllUnder_none (ts : List (Nat × ModelEntity)) (fs : FileSystem) :
    g.writeAllUnder c (fun _ => Refusals.none) ts fs = g.writeAll c ts fs := by
  induction ts generalizing fs with
  | nil => rfl
  | cons t ts ih =>
    obtain ⟨i, e⟩ := t
    rw [writeAllUnder, writeAll, writeEntityUnder_none]
    dsimp only
    rw [ih]

/-! ## Outcomes -/

/-- Both outcomes are the model of `e`, or both are its failure.  The errors agree unless a name above
its target is too long. -/
def SameOutcome (e : ModelEntity) :
    Except FailedModel WrittenModel → Except FailedModel WrittenModel → Prop
  | .ok w, .ok w₁ => w₁ = w ∧ w.entity = e
  | .error f, .error f₁ => ∃ error error₁, f = failure e error ∧ f₁ = failure e error₁ ∧
      (error₁ = error ∨ LongAbove (Path.Tidy.ofString e.target).parent error error₁)
  | _, _ => False

theorem SameOutcome.refl_failure (e : ModelEntity) (error : Error) :
    SameOutcome e (.error (failure e error)) (.error (failure e error)) :=
  ⟨error, error, rfl, rfl, Or.inl rfl⟩

/-- The target of an entity leads to `place`. -/
def LeadsTo (workdir : Location) (e : ModelEntity) (place : Location) : Prop :=
  ∃ base names, Way workdir (Path.Tidy.ofString e.target) base names ∧ place = base ++ names

theorem decorate_leadsTo {entities : List SourceEntity} {decorated : List ModelEntity}
    (hfs : fs.WellFormed) (h : g.decorate entities = .ok decorated) :
    ∀ e ∈ decorated, LeadsTo fs.workdir e (fs.destination e.target) := by
  intro e he
  obtain ⟨source, -, hsource⟩ := (mem_of_mapM_eq_ok h).mp he
  obtain ⟨target, htarget, hsource⟩ := exists_of_bind_eq_ok hsource
  cases hsource
  have htidy := target_tidy htarget
  unfold Generator.target at htarget
  obtain ⟨filename, -, htarget⟩ := exists_of_bind_eq_ok htarget
  obtain ⟨out, -, htarget⟩ := exists_of_bind_eq_ok htarget
  replace htarget := Except.ok.inj htarget
  subst htarget
  obtain ⟨base, names, hway⟩ := exists_way_normalize fs.workdir
    (Path.join (Path.join out (Path.dirname source.path)) filename)
  refine ⟨base, names, hway, ?_⟩
  rw [← hway.destination_eq hfs]
  exact congrArg fs.destination htidy.symm

/-! ## One model -/

variable {denied : Location → Option OsCause} {place other : Location} {e : ModelEntity}

/-- The model of an entity whose text is rendered and valid stands or falls with its write. -/
theorem writeEntityUnder_of_valid {text : String} {met : List ModelEntity}
    (hemit : (c.emit g.settings fs e).exec [] = (.ok text, met))
    (hvalid : Dart.validate text = .ok ()) :
    g.writeEntityUnder c refuse e fs =
      match (replaceFile refuse e.target text).exec fs with
      | (.error error, fs) => (.error (failure e error), fs)
      | (.ok (), fs) => (.ok ⟨e, met⟩, fs) := by
  unfold writeEntityUnder
  rw [hemit]
  dsimp only
  rw [writeUnder_of_valid fun _ => hvalid]

/-- An entity that has no valid text fails, and the tree stays as it is. -/
theorem writeEntityUnder_of_invalid
    (h : ∀ text met, (c.emit g.settings fs e).exec [] = (.ok text, met) →
      Dart.validate text ≠ .ok ()) :
    ∃ error, ∀ fs₁ : FileSystem, fs₁.workdir = fs.workdir →
      g.writeEntityUnder c refuse e fs₁ = (.error (failure e error), fs₁) := by
  rcases hemit : (c.emit g.settings fs e).exec [] with ⟨error | text, met⟩
  · refine ⟨error, fun fs₁ hworkdir => ?_⟩
    unfold writeEntityUnder
    rw [c.emit_congr g.settings hworkdir, hemit]
  · cases hvalid : Dart.validate text with
    | ok _ => exact absurd hvalid (h text met hemit)
    | error error =>
      refine ⟨error, fun fs₁ hworkdir => ?_⟩
      unfold writeEntityUnder
      rw [c.emit_congr g.settings hworkdir, hemit]
      dsimp only
      rw [writeUnder_of_invalid hvalid]

theorem writeEntityUnder_written (hfs : fs.WellFormed) (hplace : LeadsTo fs.workdir e place)
    (hdenies : Denies denied fs.workdir refuse) :
    Written denied place fs (g.writeEntityUnder c refuse e fs).2 := by
  obtain ⟨base, names, hway, rfl⟩ := hplace
  by_cases hvalid : ∃ text met, (c.emit g.settings fs e).exec [] = (.ok text, met) ∧
      Dart.validate text = .ok ()
  · obtain ⟨text, met, hemit, hvalid⟩ := hvalid
    have hwritten := @replaceFile_written denied base names fs refuse _ e.target text hfs rfl hway
      hdenies
    rw [writeEntityUnder_of_valid hemit hvalid]
    rcases hrun : (replaceFile refuse e.target text).exec fs with ⟨error | _, fs'⟩ <;>
      rwa [hrun] at hwritten
  · have hinvalid : ∀ text met, (c.emit g.settings fs e).exec [] = (.ok text, met) →
        Dart.validate text ≠ .ok () := fun text met hemit hok => hvalid ⟨text, met, hemit, hok⟩
    obtain ⟨error, hfailed⟩ := @writeEntityUnder_of_invalid g c refuse fs e hinvalid
    rw [hfailed fs rfl]
    exact ⟨hfs, rfl, fun l => Or.inr (Or.inl rfl)⟩

/-- A task ends in a tree where others have written as it does alone. -/
theorem writeEntityUnder_beside (hplace : LeadsTo fs.workdir e place)
    (hdenies : Denies denied fs.workdir refuse) (hside : Beside denied place fs fs₁) :
    SameOutcome e (g.writeEntityUnder c refuse e fs).1 (g.writeEntityUnder c refuse e fs₁).1 ∧
      Beside denied place (g.writeEntityUnder c refuse e fs).2
        (g.writeEntityUnder c refuse e fs₁).2 := by
  obtain ⟨base, names, hway, rfl⟩ := hplace
  by_cases hvalid : ∃ text met, (c.emit g.settings fs e).exec [] = (.ok text, met) ∧
      Dart.validate text = .ok ()
  · obtain ⟨text, met, hemit, hvalid⟩ := hvalid
    have hemit₁ := hemit
    rw [← c.emit_congr g.settings hside.workdir] at hemit₁
    obtain ⟨hresult, hside'⟩ :=
      @replaceFile_beside denied base names fs fs₁ refuse _ e.target text rfl hway hdenies hside
    rw [writeEntityUnder_of_valid hemit hvalid, writeEntityUnder_of_valid hemit₁ hvalid]
    rcases hrun : (replaceFile refuse e.target text).exec fs with ⟨error | _, fs'⟩ <;>
    rcases hrun₁ : (replaceFile refuse e.target text).exec fs₁ with ⟨error₁ | _, fs₁'⟩ <;>
    rw [hrun, hrun₁] at hresult hside'
    · exact ⟨⟨error, error₁, rfl, rfl, hresult⟩, hside'⟩
    · exact hresult.elim
    · exact hresult.elim
    · exact ⟨⟨rfl, rfl⟩, hside'⟩
  · have hinvalid : ∀ text met, (c.emit g.settings fs e).exec [] = (.ok text, met) →
        Dart.validate text ≠ .ok () := fun text met hemit hok => hvalid ⟨text, met, hemit, hok⟩
    obtain ⟨error, hfailed⟩ := @writeEntityUnder_of_invalid g c refuse fs e hinvalid
    rw [hfailed fs rfl, hfailed fs₁ hside.workdir]
    exact ⟨SameOutcome.refl_failure e error, hside⟩

/-- A task that fails leaves the file of its target as it was. -/
theorem writeEntityUnder_error {f : FailedModel}
    (h : g.writeEntityUnder c refuse e fs = (.error f, fs')) : SameFiles fs fs' := by
  unfold writeEntityUnder at h
  split at h
  · cases h
    exact fun _ _ => Iff.rfl
  · next text met hemit =>
    have hwrite := @writeUnder_allOrNothing refuse e.target text true fs
    rcases hrun : (writeUnder refuse e.target text true).exec fs with ⟨error | _, fs₁⟩
    · rw [hrun] at h hwrite
      cases h
      exact hwrite.1
    · rw [hrun] at h
      cases h

/-! ## All models -/

/-- What the tasks `ts` leave apart from their targets. -/
theorem writeAllUnder_apart {refuse : Nat → Refusals} {ts : List (Nat × ModelEntity)}
    {dest : ModelEntity → Location} (hside : Beside denied place fs fs₁)
    (hdest : ∀ t ∈ ts, LeadsTo fs.workdir t.2 (dest t.2))
    (hdenies : ∀ i, Denies denied fs.workdir (refuse i))
    (hapart : ∀ t ∈ ts, Apart place (dest t.2)) :
    Beside denied place fs (g.writeAllUnder c refuse ts fs₁).2 := by
  induction ts generalizing fs₁ with
  | nil => exact hside
  | cons t ts ih =>
    obtain ⟨i, e⟩ := t
    obtain ⟨hhere, hdest⟩ := List.forall_mem_cons.mp hdest
    obtain ⟨hfirst, hapart⟩ := List.forall_mem_cons.mp hapart
    have hwritten : Written denied (dest e) fs₁ (g.writeEntityUnder c (refuse i) e fs₁).2 :=
      writeEntityUnder_written hside.right (by rwa [hside.workdir]) (by rw [hside.workdir]; exact hdenies i)
    exact ih (hside.of_written hwritten hfirst) hdest hapart

/-- Each task of a run ends as it does alone in the tree `fs` that the run starts from. -/
theorem writeAllUnder_isolated {refuse : Nat → Refusals} {ts : List (Nat × ModelEntity)}
    {dest : ModelEntity → Location}
    (hdest : ∀ t ∈ ts, LeadsTo fs.workdir t.2 (dest t.2))
    (hdenies : ∀ i, Denies denied fs.workdir (refuse i))
    (hapart : ts.Pairwise fun t u => Apart (dest t.2) (dest u.2))
    (hside : ∀ t ∈ ts, Beside denied (dest t.2) fs fs₁) :
    ∀ t ∈ ts, ∃ o, (t.1, o) ∈ (g.writeAllUnder c refuse ts fs₁).1 ∧
      SameOutcome t.2 (g.writeEntityUnder c (refuse t.1) t.2 fs).1 o ∧
      (g.writeAllUnder c refuse ts fs₁).2.lookup (dest t.2) =
        (g.writeEntityUnder c (refuse t.1) t.2 fs).2.lookup (dest t.2) := by
  induction ts generalizing fs₁ with
  | nil => exact nofun
  | cons t ts ih =>
    obtain ⟨i, e⟩ := t
    obtain ⟨hhere, hdest⟩ := List.forall_mem_cons.mp hdest
    obtain ⟨hfirst, hapart⟩ := List.pairwise_cons.mp hapart
    obtain ⟨hside, hlater⟩ := List.forall_mem_cons.mp hside
    obtain ⟨hsame, hafter⟩ := writeEntityUnder_beside (g := g) (c := c) hhere (hdenies i) hside
    have hworkdir := (writeEntityUnder_written (g := g) (c := c) hside.left hhere (hdenies i)).workdir
    have hwritten : Written denied (dest e) fs₁ (g.writeEntityUnder c (refuse i) e fs₁).2 :=
      writeEntityUnder_written hside.right (by rwa [hside.workdir]) (by rw [hside.workdir]; exact hdenies i)
    refine List.forall_mem_cons.mpr ⟨⟨_, List.mem_cons_self, hsame, ?_⟩, fun t ht => ?_⟩
    · -- The later tasks do not touch this target.
      refine (writeAllUnder_apart hafter (fun t ht => ?_) (fun j => ?_) hfirst).lookup_place
      · rw [hworkdir]
        exact hdest t ht
      · rw [hworkdir]
        exact hdenies j
    · obtain ⟨o, ho, hrest⟩ := ih hdest hapart
        (fun u hu => (hlater u hu).of_written hwritten (hfirst u hu).symm) t ht
      exact ⟨o, List.mem_cons_of_mem _ ho, hrest⟩

/-! ## Results -/

/-- The failure that an outcome is. -/
def failureOf : Except FailedModel WrittenModel → Option FailedModel
  | .error f => some f
  | .ok _ => none

/-- Outcomes of distinct tasks are given by a function of their places. -/
theorem exists_outcome {outcomes : List (Nat × Except FailedModel WrittenModel)}
    (h : (outcomes.map (·.1)).Nodup) :
    ∃ outcome : Nat → Except FailedModel WrittenModel,
      outcomes = (outcomes.map (·.1)).map fun i => (i, outcome i) := by
  refine ⟨fun i => (outcomes.lookup i).getD default, ?_⟩
  rw [List.map_map]
  refine (List.map_id'' (fun _ => rfl) outcomes).symm.trans (List.map_congr_left fun o ho => ?_)
  obtain ⟨v, hv⟩ := Option.isSome_iff_exists.mp
    (List.lookup_isSome_iff.mpr ⟨o, ho, beq_self_eq_true o.1⟩)
  obtain ⟨before, after, hsplit, -⟩ := List.lookup_eq_some_iff.mp hv
  have hmem : (o.1, v) ∈ outcomes := hsplit ▸ List.mem_append_right _ List.mem_cons_self
  have hsame := List.inj_on_of_nodup_map h ho hmem rfl
  show o = (o.1, (outcomes.lookup o.1).getD default)
  rw [hv]
  exact hsame

theorem lookup_map_outcome (outcome : Nat → Except FailedModel WrittenModel) (places : List Nat)
    (i : Nat) : (places.map fun j => (j, outcome j)).lookup i =
      if i ∈ places then some (outcome i) else none := by
  induction places with
  | nil => rfl
  | cons j places ih =>
    rw [List.map_cons, List.lookup_cons]
    by_cases hij : i = j
    · rw [hij, beq_self_eq_true, if_pos List.mem_cons_self]
    · rw [beq_false_of_ne hij, ih]
      simp only [List.mem_cons, hij, false_or]

theorem finished_map (outcome : Nat → Except FailedModel WrittenModel) (completed places : List Nat) :
    finished completed (places.map fun j => (j, outcome j)) =
      (completed.filter (· ∈ places)).map fun i => (i, outcome i) := by
  unfold finished
  conv_rhs => rw [← List.filterMap_eq_map, List.filterMap_filter]
  refine List.filterMap_congr fun i _ => ?_
  rw [lookup_map_outcome]
  by_cases hi : i ∈ places <;> simp [hi]

theorem places_tasks (order : List Nat) (decorated : List ModelEntity) :
    (tasks order decorated).map (·.1) = order.filter (· < decorated.length) := by
  unfold tasks
  rw [List.map_filterMap, ← List.filterMap_eq_filter]
  refine List.filterMap_congr fun i _ => ?_
  by_cases hi : i < decorated.length
  · rw [List.getElem?_eq_getElem hi]
    simp [hi]
  · rw [List.getElem?_eq_none (Nat.le_of_not_lt hi)]
    simp [Option.guard, hi]

theorem places_writeAllUnder (refuse : Nat → Refusals) (ts : List (Nat × ModelEntity))
    (fs : FileSystem) : (g.writeAllUnder c refuse ts fs).1.map (·.1) = ts.map (·.1) := by
  induction ts generalizing fs with
  | nil => rfl
  | cons t ts ih =>
    obtain ⟨i, e⟩ := t
    rw [List.map_cons, ← ih (g.writeEntityUnder c (refuse i) e fs).2]
    rfl

/-- The outcomes of tasks in an order of all places, each told by its place. -/
theorem exists_outcomes {order : List Nat} {decorated : List ModelEntity}
    (horder : order.Perm (List.range decorated.length)) (fs : FileSystem) :
    ∃ outcome : Nat → Except FailedModel WrittenModel,
      (g.writeAll c (tasks order decorated) fs).1 = order.map fun i => (i, outcome i) := by
  have hplaces := places_writeAllUnder (g := g) (c := c) (fun _ => Refusals.none)
    (tasks order decorated) fs
  have hall : order.filter (· < decorated.length) = order := List.filter_eq_self.mpr fun i hi =>
    decide_eq_true (List.mem_range.mp (horder.mem_iff.mp hi))
  rw [writeAllUnder_none, places_tasks, hall] at hplaces
  obtain ⟨outcome, houtcome⟩ := exists_outcome (hplaces ▸ horder.nodup_iff.mpr List.nodup_range)
  exact ⟨outcome, by rw [houtcome, hplaces]⟩

/-- Where no step is refused and tasks finish as they run, the run is that of the program. -/
theorem generateUnder_none {order : List Nat} (h : order.Nodup) (entities : List SourceEntity)
    (fs : FileSystem) :
    g.generateUnder (fun _ => Refusals.none) order order entities fs =
      g.generateIn order entities fs := by
  have hfinished : ∀ (decorated : List ModelEntity) (c : Catalog),
      finished order (g.writeAll c (tasks order decorated) fs).1 =
        (g.writeAll c (tasks order decorated) fs).1 := by
    intro decorated c
    have hplaces := places_writeAllUnder (g := g) (c := c) (fun _ => Refusals.none)
      (tasks order decorated) fs
    rw [writeAllUnder_none, places_tasks] at hplaces
    obtain ⟨outcome, houtcome⟩ := exists_outcome (hplaces ▸ h.filter _)
    rw [hplaces] at houtcome
    rw [houtcome, finished_map]
    congr 1
    refine List.filter_congr fun i hi => ?_
    simp [List.mem_filter, hi]
  unfold generateUnder generateIn
  cases g.decorate entities with
  | error e => rfl
  | ok decorated =>
    dsimp only
    cases checkWorkers g.settings.workers with
    | error e => rfl
    | ok _ =>
      dsimp only
      rw [writeAllUnder_none, hfinished]
      rfl

/-- The result `result` and the tree `fs'` of a run give to each task the outcome that it has alone in
`fs`. -/
structure Isolated (g : Generator) (refuse : Nat → Refusals) (decorated : List ModelEntity)
    (fs fs' : FileSystem) (result : GenerationResult)
    (outcome : Nat → Except FailedModel WrittenModel) : Prop where
  same : ∀ i e, decorated[i]? = some e →
    SameOutcome e (g.writeEntityUnder (g.catalog decorated) (refuse i) e fs).1 (outcome i)
  written : result.written =
    (List.range decorated.length).filterMap fun i => (outcome i).toOption
  failed : result.failed.Perm
    ((List.range decorated.length).filterMap fun i => failureOf (outcome i))
  sorted : result.failed.Pairwise fun a b => ¬b.target < a.target
  content : ∀ i e, decorated[i]? = some e →
    fs'.lookup (fs.destination e.target) =
      (g.writeEntityUnder (g.catalog decorated) (refuse i) e fs).2.lookup (fs.destination e.target)
  /-- The file of a model that failed is as it was. -/
  kept : ∀ i e f, decorated[i]? = some e → outcome i = .error f → ∀ bytes,
    fs'.lookup (fs.destination e.target) = some (.file bytes) ↔
      fs.lookup (fs.destination e.target) = some (.file bytes)

theorem collect_written {outcome : Nat → Except FailedModel WrittenModel} {completed : List Nat}
    {count : Nat} (h : completed.Perm (List.range count)) :
    (collect count (completed.map fun i => (i, outcome i))).written =
      (List.range count).filterMap fun i => (outcome i).toOption := by
  unfold collect
  refine List.filterMap_congr fun i hi => ?_
  rw [lookup_map_outcome, if_pos (h.mem_iff.mpr hi)]
  cases outcome i <;> rfl

theorem collect_failed {outcome : Nat → Except FailedModel WrittenModel} {completed : List Nat}
    {count : Nat} (h : completed.Perm (List.range count)) :
    (collect count (completed.map fun i => (i, outcome i))).failed.Perm
      ((List.range count).filterMap fun i => failureOf (outcome i)) := by
  refine (List.mergeSort_perm _ _).trans ?_
  rw [List.filterMap_map]
  refine .trans (.of_eq (List.filterMap_congr fun i _ => ?_)) (h.filterMap _)
  show _ = failureOf (outcome i)
  simp only [Function.comp]
  cases outcome i <;> rfl

theorem collect_sorted (count : Nat) (outcomes : List (Nat × Except FailedModel WrittenModel)) :
    (collect count outcomes).failed.Pairwise fun a b => ¬b.target < a.target :=
  Progress.sorted_mergeSort FailedModel.target _

theorem names_tasks {completed : List Nat} {decorated : List ModelEntity}
    (h : completed.Perm (List.range decorated.length)) :
    ((tasks completed decorated).map (·.2.name)).Perm (decorated.map (·.name)) := by
  have hnames : (tasks completed decorated).map (·.2.name) =
      (completed.filterMap fun i => decorated[i]?).map (·.name) := by
    unfold tasks
    rw [List.map_filterMap, List.map_filterMap]
    simp only [Option.map_map]
    rfl
  rw [hnames]
  exact (Progress.perm_items h).map _

/-- Where the targets of a run lie apart, each task ends as it does alone: it reports the same, and its
target holds the same.  Neither the order in which tasks run nor that in which they finish matters. -/
theorem generateUnder_isolated {refuse : Nat → Refusals} {order completed : List Nat}
    {entities : List SourceEntity} {decorated : List ModelEntity} (hfs : fs.WellFormed)
    (hdecorated : g.decorate entities = .ok decorated)
    (hworkers : checkWorkers g.settings.workers = .ok ())
    (hdenies : ∀ i, Denies denied fs.workdir (refuse i))
    (hapart : decorated.Pairwise fun a b =>
      Apart (fs.destination a.target) (fs.destination b.target))
    (horder : order.Perm (List.range decorated.length))
    (hcompleted : completed.Perm (List.range decorated.length)) :
    ∃ result outcome names fs', g.generateUnder refuse order completed entities fs =
        (⟨.ok result, .started decorated.length (decorated.map (·.name)) :: Progress.counted names⟩,
          fs') ∧
      names.Perm (decorated.map (·.name)) ∧
      g.Isolated refuse decorated fs fs' result outcome := by
  have hleads := decorate_leadsTo hfs hdecorated
  have hentity : ∀ t ∈ tasks order decorated, decorated[t.1]? = some t.2 :=
    fun t ht => getElem?_of_mem_tasks ht
  have hplaces : (tasks order decorated).map (·.1) = order := by
    rw [places_tasks, List.filter_eq_self]
    exact fun i hi => decide_eq_true (List.mem_range.mp (horder.mem_iff.mp hi))
  have hnodup : order.Nodup := horder.nodup_iff.mpr List.nodup_range
  have hpairwise : (tasks order decorated).Pairwise fun t u =>
      Apart (fs.destination t.2.target) (fs.destination u.2.target) := by
    have hperm : ((tasks order decorated).map (·.2)).Perm decorated := by
      unfold tasks
      rw [List.map_filterMap]
      simpa using Progress.perm_items horder
    have hmapped : ((tasks order decorated).map (·.2)).Pairwise fun a b =>
        Apart (fs.destination a.target) (fs.destination b.target) :=
      hapart.perm hperm.symm fun h => h.symm
    rwa [List.pairwise_map] at hmapped
  have hisolated := @writeAllUnder_isolated g (g.catalog decorated) fs fs denied refuse
    (tasks order decorated) (fun e => fs.destination e.target)
    (fun t ht => hleads t.2 (List.mem_of_getElem? (hentity t ht))) hdenies hpairwise
    fun _ _ => Beside.refl hfs
  have hsame := places_writeAllUnder (g := g) (c := g.catalog decorated) refuse
    (tasks order decorated) fs
  rcases hrun : g.writeAllUnder (g.catalog decorated) refuse (tasks order decorated) fs with
    ⟨outcomes, fs'⟩
  rw [hrun] at hisolated hsame
  dsimp only at hisolated hsame
  rw [hplaces] at hsame
  obtain ⟨outcome, houtcome⟩ := exists_outcome (hsame ▸ hnodup)
  replace houtcome : outcomes = order.map fun i => (i, outcome i) := by rw [houtcome, hsame]
  have hfinished : finished completed outcomes = completed.map fun i => (i, outcome i) := by
    rw [houtcome, finished_map, List.filter_eq_self.mpr]
    exact fun i hi => decide_eq_true (horder.mem_iff.mpr (hcompleted.mem_iff.mp hi))
  have htask : ∀ i e, decorated[i]? = some e →
      SameOutcome e (g.writeEntityUnder (g.catalog decorated) (refuse i) e fs).1 (outcome i) ∧
        fs'.lookup (fs.destination e.target) =
          (g.writeEntityUnder (g.catalog decorated) (refuse i) e fs).2.lookup
            (fs.destination e.target) := by
    intro i e he
    have hi : i ∈ order := horder.mem_iff.mpr (List.mem_range.mpr (List.getElem?_eq_some_iff.mp he).1)
    have htask : (i, e) ∈ tasks order decorated := List.mem_filterMap.mpr ⟨i, hi, by rw [he]; rfl⟩
    obtain ⟨o, ho, hrest⟩ := hisolated (i, e) htask
    rw [houtcome] at ho
    obtain ⟨j, -, hj⟩ := List.mem_map.mp ho
    cases hj
    exact hrest
  refine ⟨collect decorated.length (finished completed outcomes), outcome, _, fs', ?_,
    names_tasks hcompleted, ?_⟩
  · unfold generateUnder
    rw [hdecorated]
    dsimp only
    rw [hworkers]
    dsimp only
    rw [hrun]
  · rw [hfinished]
    refine ⟨fun i e he => (htask i e he).1, collect_written hcompleted, collect_failed hcompleted,
      collect_sorted _ _, fun i e he => (htask i e he).2, fun i e f he hf bytes => ?_⟩
    obtain ⟨hout, hcontent⟩ := htask i e he
    rw [hcontent]
    rcases halone : g.writeEntityUnder (g.catalog decorated) (refuse i) e fs with ⟨f | w, fs₁⟩
    · exact writeEntityUnder_error halone _ bytes
    · rw [halone, hf] at hout
      exact hout.elim

/-! ## A name that is too long -/

/-- A name that no entry can have. -/
def long : Path.Part := List.replicate 256 'x'

/-- The path of a source below a directory of that name. -/
def buried : String := String.ofList (Path.joinSlash [['d'], long, ['b'], "a.ts".toList])

/-- Two classes that share the directory `d`. -/
def sharers : List SourceEntity := [⟨"d/a.ts", "A", []⟩, ⟨buried, "A", []⟩]

/-- The target below the directory of the long name. -/
def deep : Path.Tidy := ⟨1, [['d'], long, ['b'], ['a']]⟩

/-- The first of the sharers. -/
def near : ModelEntity := ⟨"d/a.ts", "A", [], "/d/a"⟩

/-- The second of the sharers. -/
def far : ModelEntity := ⟨buried, "A", [], deep.toString⟩

theorem plain_long : Path.Plain long :=
  ⟨⟨by decide, by decide⟩, by decide⟩

theorem isTooLong_long : isTooLong long = true := by decide +kernel

theorem plain_deep : ∀ q ∈ deep.parts, Path.Plain q := by
  have hd : Path.Plain ['d'] := ⟨⟨rfl, by decide⟩, by decide⟩
  have hb : Path.Plain ['b'] := ⟨⟨rfl, by decide⟩, by decide⟩
  have ha : Path.Plain ['a'] := ⟨⟨rfl, by decide⟩, by decide⟩
  simp [deep, hd, hb, ha, plain_long]

theorem ofString_deep : Path.Tidy.ofString deep.toString = deep :=
  ofString_toString (fun q hq => (plain_deep q hq).toProper) (by decide)

theorem target_far : plain.target ⟨buried, "A", []⟩ = .ok deep.toString := by
  have hdir : Path.dirnameChars (Path.joinSlash [['d'], long, ['b'], "a.ts".toList]) =
    Path.joinSlash [['d'], long, ['b']] := by decide +kernel
  have hbelow : Path.joinChars "/".toList (Path.joinSlash [['d'], long, ['b']]) =
    Path.rooted 1 [['d'], long, ['b']] := by decide +kernel
  have hjoin : Path.joinChars (Path.rooted 1 [['d'], long, ['b']]) "a".toList =
    Path.rooted 1 deep.parts := by decide +kernel
  have hnormal : Path.normalizeChars (Path.rooted 1 deep.parts) = Path.rooted 1 deep.parts := by
    decide +kernel
  have hname : plain.filenames.apply "A" = .ok "a" := by cbv
  unfold Generator.target
  rw [hname]
  show Except.ok (Path.normalize (Path.join (Path.join "/" (Path.dirname buried)) "a")) = _
  unfold Path.normalize Path.join Path.dirname buried
  simp only [String.toList_ofList]
  rw [hdir, hbelow, hjoin, hnormal]
  rfl

theorem decorate_sharers : plain.decorate sharers = .ok [near, far] := by
  have hnear : plain.target ⟨"d/a.ts", "A", []⟩ = .ok "/d/a" := by cbv
  unfold decorate sharers
  rw [List.mapM_cons, hnear, List.mapM_cons, target_far]
  rfl

/-- The tree with the directory `d`. -/
def opened : FileSystem := ⟨[([['d']], .directory)], []⟩

/-- The tree with the model of `near`. -/
def shared : FileSystem := opened.set [['d'], ['a']] (.file (Utf8.encode (String.join firstLines)))

theorem replaceFile_near (content : String) :
    (replaceFile Refusals.none "/d/a" content).exec ⟨[], []⟩ =
      (.ok (), opened.set [['d'], ['a']] (.file (Utf8.encode content))) := by
  rfl

theorem way_deep : Way [] deep [] [['d'], long, ['b'], ['a']] :=
  ⟨plain_deep, Or.inr ⟨Or.inl rfl, rfl, rfl⟩⟩

/-- The way to the directory of the target. -/
theorem way_parent : Way [] deep.parent [] [['d'], long, ['b']] :=
  @Way.parent [] [] deep [['d'], long, ['b']] ['a'] way_deep

/-- The way to the directory of the long name. -/
theorem way_long : Way [] deep.parent.parent [] [['d'], long] :=
  @Way.parent [] [] deep.parent [['d'], long] ['b'] way_parent

theorem hasNul_parent : hasNul deep.parent.toString = false := by
  unfold hasNul
  rw [toList_toString way_parent.proper]
  decide

theorem size_parent : ¬maxPath < deep.parent.toString.utf8ByteSize := by decide +kernel

theorem createDirectory_missing {dir : Path.Tidy} {rest : List Path.Part}
    (hway : Way [] dir [] (['d'] :: rest)) (hne : rest ≠ [])
    (hsize : ¬maxPath < dir.toString.utf8ByteSize) :
    createDirectory Refusals.none ⟨[], []⟩ dir.toString = .error .noEntry := by
  rw [createDirectory_of_locate rfl, hway.locate_eq rfl, if_neg hsize,
    walk_cons (hway.plain _ List.mem_cons_self) hne]
  rfl

/-- Below the directory `d` stands no directory of the long name. -/
theorem locate_long {fs : FileSystem} {dir : Path.Tidy} {rest : List Path.Part}
    (hway : Way [] dir [] (['d'] :: long :: rest)) (hworkdir : fs.workdir = [])
    (hsize : ¬maxPath < dir.toString.utf8ByteSize) (hd : fs.lookup [['d']] = some .directory) :
    fs.locate dir.toString = .error .nameTooLong := by
  have hshort : isTooLong ['d'] = false := by decide
  have hwalk : fs.walk [['d']] (long :: rest) = .error .nameTooLong := by
    cases rest with
    | nil => rw [walk_singleton plain_long, isTooLong_long, if_pos rfl]
    | cons q rest => rw [walk_cons plain_long (by simp), isTooLong_long, if_pos rfl]
  rw [hway.locate_eq hworkdir, if_neg hsize, walk_cons (hway.plain _ List.mem_cons_self) (by simp),
    hshort, if_neg Bool.false_ne_true, List.nil_append, hd]
  exact hwalk

theorem createDirectory_long {fs : FileSystem} {dir : Path.Tidy}
    (hlocate : fs.locate dir.toString = .error .nameTooLong) :
    createDirectory Refusals.none fs dir.toString = .error .nameTooLong := by
  rw [createDirectory_of_locate rfl, hlocate]

/-- Where the directory `d` stands, the directory above the target cannot be made. -/
theorem makeDirectories_far {fs : FileSystem} (hworkdir : fs.workdir = [])
    (hd : fs.lookup [['d']] = some .directory) :
    (makeDirectories Refusals.none 3 deep.parent).exec fs =
      (.error (.os .nameTooLong deep.parent.toString), fs) := by
  have hlocate := locate_long way_parent hworkdir size_parent hd
  exact makeDirectories_of_error 3 hasNul_parent (createDirectory_long hlocate) nofun
    (isDirectory_of_locate_error hlocate)

theorem makeDirectories_opened :
    (makeDirectories Refusals.none 1 ⟨1, [['d']]⟩).exec ⟨[], []⟩ = (.ok (), opened) := rfl

/-- Where nothing stands, `d` is made first, and then the directory of the long name is tried. -/
theorem makeDirectories_long :
    (makeDirectories Refusals.none 2 deep.parent.parent).exec ⟨[], []⟩ =
      (.error (.os .nameTooLong deep.parent.parent.toString), opened) := by
  have hnul : hasNul deep.parent.parent.toString = false := way_parent.hasNul_parent hasNul_parent
  have hsize := way_parent.size_parent size_parent
  have hparts : deep.parent.parent.parts ≠ [] := List.cons_ne_nil ['d'] [long]
  have htop : deep.parent.parent.parent = ⟨1, [['d']]⟩ := rfl
  have hlocate : opened.locate deep.parent.parent.toString = .error .nameTooLong :=
    locate_long way_long rfl hsize rfl
  rw [makeDirectories_succ 1 hparts, makeDirectory_of_noEntry hnul
    (createDirectory_missing way_long (List.cons_ne_nil _ _) hsize)]
  unfold makeAbove
  rw [htop, FileAction.exec_bind_ok makeDirectories_opened,
    makeDirectory_of_error hnul (createDirectory_long hlocate) nofun,
    isDirectory_of_locate_error hlocate, if_neg Bool.false_ne_true]

theorem makeDirectories_alone :
    (makeDirectories Refusals.none 3 deep.parent).exec ⟨[], []⟩ =
      (.error (.os .nameTooLong deep.parent.parent.toString), opened) := by
  have hparts : deep.parent.parts ≠ [] := List.cons_ne_nil ['d'] [long, ['b']]
  rw [makeDirectories_succ 2 hparts, makeDirectory_of_noEntry hasNul_parent
    (createDirectory_missing way_parent (List.cons_ne_nil _ _) size_parent)]
  exact FileAction.exec_bind_error makeDirectories_long _

/-- A write whose directories cannot be made fails with their error. -/
theorem replaceFile_of_error {fs fs₁ : FileSystem} {path content : String} {error : Error}
    {target : Path.Tidy} (htarget : Path.Tidy.ofString path = target)
    (h : (makeDirectories Refusals.none target.parent.parts.length target.parent).exec fs =
      (.error error, fs₁)) :
    (replaceFile Refusals.none path content).exec fs = (.error error, fs₁) := by
  unfold replaceFile
  rw [htarget]
  exact FileAction.exec_bind_error h _

theorem writeEntity_far {fs fs₁ : FileSystem} {error : Error} (entities : List ModelEntity)
    (h : (makeDirectories Refusals.none 3 deep.parent).exec fs = (.error error, fs₁)) :
    plain.writeEntity (plain.catalog entities) far fs = (.error (failure far error), fs₁) := by
  have hemit := emit_empty (e := far) entities rfl rfl fs
  have hwrite : (replaceFile Refusals.none far.target (String.join firstLines)).exec fs = _ :=
    replaceFile_of_error ofString_deep h
  rw [← writeEntityUnder_none, writeEntityUnder_of_valid hemit validate_first, hwrite]

theorem writeEntity_near (entities : List ModelEntity) :
    plain.writeEntity (plain.catalog entities) near ⟨[], []⟩ = (.ok ⟨near, []⟩, shared) := by
  have hemit := emit_empty (e := near) entities rfl rfl ⟨[], []⟩
  exact writeEntity_of_ok hemit validate_first (replaceFile_near _)

theorem generate_sharers : ∃ progress, plain.generateIn [0, 1] sharers ⟨[], []⟩ =
    (⟨.ok ⟨[⟨near, []⟩], [failure far (.os .nameTooLong deep.parent.toString)]⟩, progress⟩,
      shared) := by
  have htasks : (List.range sharers.length).filterMap (fun i => ([near, far][i]?).map (i, ·)) =
    [(0, near), (1, far)] := rfl
  have hall := writeAll_cons 0 (writeEntity_near [near, far])
    (writeAll_cons 1 (writeEntity_far [near, far] (makeDirectories_far rfl rfl)) (writeAll_nil _))
  rw [← htasks] at hall
  have hcollect : collect [near, far].length
      [(0, .ok ⟨near, []⟩), (1, .error (failure far (.os .nameTooLong deep.parent.toString)))] =
        ⟨[⟨near, []⟩], [failure far (.os .nameTooLong deep.parent.toString)]⟩ := by
    unfold collect
    rw [GenerationResult.mk.injEq]
    exact ⟨rfl, List.mergeSort_singleton _⟩
  obtain ⟨progress, hrun⟩ := generateIn_of_writeAll decorate_sharers rfl hall
  rw [hcollect] at hrun
  exact ⟨progress, hrun⟩

theorem wellFormed_empty : (⟨[], []⟩ : FileSystem).WellFormed := by
  have hnothing : ∀ l q, (⟨[], []⟩ : FileSystem).lookup (l ++ [q]) = none := by
    intro l q
    unfold lookup
    rw [if_neg (by simp)]
    rfl
  exact ⟨rfl, fun l q h => absurd (hnothing l q) h, fun l q h => absurd (hnothing l q) h⟩

theorem apart_sharers : [near, far].Pairwise fun a b =>
    Apart ((⟨[], []⟩ : FileSystem).destination a.target)
      ((⟨[], []⟩ : FileSystem).destination b.target) := by
  have hnear : (⟨[], []⟩ : FileSystem).destination near.target = [['d'], ['a']] := by
    show (⟨[], []⟩ : FileSystem).destination "/d/a" = _
    decide
  have hfar : (⟨[], []⟩ : FileSystem).destination far.target = [['d'], long, ['b'], ['a']] := by
    have htarget : far.target = deep.toString := rfl
    rw [htarget, way_deep.destination_eq wellFormed_empty, List.nil_append]
  simp only [List.pairwise_cons, List.mem_singleton, forall_eq, hnear, hfar]
  refine ⟨⟨?_, ?_⟩, nofun, List.Pairwise.nil⟩ <;> decide

theorem message_of_failure {e : ModelEntity} {error error₁ : Error}
    (h : failure e error = failure e error₁) : error.message = error₁.message := by
  simp only [failure, FailedModel.mk.injEq, Error.emission.injEq, true_and] at h
  exact h

theorem enclose_of_message {cause : OsCause} {path path₁ : String}
    (h : (Error.os cause path).message = (Error.os cause path₁).message) :
    Quoted.enclose isPrintable path.toList = Quoted.enclose isPrintable path₁.toList := by
  have htext (p : String) : (Error.os cause p).message.toList =
      (cause.text ++ ": ").toList ++ Quoted.enclose isPrintable p.toList := by
    show (cause.text ++ ": " ++ Quoted.encode p).toList = _
    rw [String.toList_append, Quoted.encode, String.toList_ofList]
  have hlists := congrArg String.toList h
  rw [htext, htext] at hlists
  exact List.append_cancel_left hlists

/-- The error names the directory above the target in the run, and one further up alone. -/
theorem failure_far_ne : failure far (.os .nameTooLong deep.parent.toString) ≠
    failure far (.os .nameTooLong deep.parent.parent.toString) := by
  intro h
  have hpaths := enclose_of_message (message_of_failure h)
  rw [toList_toString way_parent.proper, toList_toString way_long.proper] at hpaths
  revert hpaths
  decide +kernel

/-- The targets of the sharers lie apart, but the error of the second one names another directory than
it does alone. -/
theorem sharer_differs : ∃ result progress fs' f f₁,
    plain.decorate sharers = .ok [near, far] ∧
      ([near, far].Pairwise fun a b => Apart ((⟨[], []⟩ : FileSystem).destination a.target)
        ((⟨[], []⟩ : FileSystem).destination b.target)) ∧
      plain.generateIn [0, 1] sharers ⟨[], []⟩ = (⟨.ok result, progress⟩, fs') ∧ result.failed = [f] ∧
      (plain.writeEntity (plain.catalog [near, far]) far ⟨[], []⟩).1 = .error f₁ ∧
      f ≠ f₁ := by
  obtain ⟨progress, hrun⟩ := generate_sharers
  have halone := congrArg Prod.fst (writeEntity_far [near, far] makeDirectories_alone)
  exact ⟨_, progress, _, _, _, decorate_sharers, apart_sharers, hrun, rfl, halone, failure_far_ne⟩

/-- The sharers in the other order: the second one fails as alone, up to the directory that its error
names, and the first one is written. -/
theorem generateUnder_isolated_sharers : ∃ result outcome names fs',
    plain.generateUnder (fun _ => Refusals.none) [1, 0] [0, 1] sharers ⟨[], []⟩ =
        (⟨.ok result, .started 2 ["A", "A"] :: Progress.counted names⟩, fs') ∧
      names.Perm ["A", "A"] ∧
      plain.Isolated (fun _ => Refusals.none) [near, far] ⟨[], []⟩ fs' result outcome :=
  @generateUnder_isolated plain ⟨[], []⟩ (fun _ => none) (fun _ => Refusals.none) [1, 0] [0, 1] sharers
    [near, far] wellFormed_empty decorate_sharers rfl (fun _ => ⟨fun _ _ _ _ => rfl, fun _ _ => rfl⟩)
    apart_sharers (by decide) (by decide)

end Generator

end DartModels
