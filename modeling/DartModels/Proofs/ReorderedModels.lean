import DartModels.Proofs.IsolatedModels

/-!
# Reordered models

The entities of a run are looked up by name and by file, and each model is written on its own.  So
their order does not matter where names and targets are distinct, as long as the entities of one
file stay in their order: the first of them stands in for a name that the file does not have.

    catalogs that find the same entities write the same      (Catalog.SameFinds.writeEntity_eq)
    a reordered catalog finds the same entities                             (sameFinds_catalog)
    a run reports what each task reports alone               (Isolated.written_eq, perm_failed)
    reordered entities leave the same files and reports                   (generateUnder_reordered)
    two targets may be written differently and be one file         (generateUnder_reordered_differs)
-/

namespace DartModels

open FileSystem AtomicWrite

namespace Catalog

/-- Both catalogs find the same entities, by their names and by their files. -/
structure SameFinds (c c' : Catalog) : Prop where
  format : c'.format = c.format
  byName : ∀ name, c'.find? name = c.find? name
  byPath : ∀ path name, c'.findByPath? path name = c.findByPath? path name

namespace SameFinds

variable {c c' : Catalog} (h : SameFinds c c')

include h

theorem className_eq (e : ModelEntity) : c'.className e = c.className e := by
  unfold className
  rw [h.format]

theorem relation_eq (t : Option TypeDescriptor) : c'.relation t = c.relation t := by
  unfold relation
  simp only [h.byName]

/-- The recursion is that of `typeName`: into the items of a list and the index of an access. -/
theorem typeName_eq (t : TypeDescriptor) : c'.typeName t = c.typeName t := by
  match t with
  | .mk kind name element objectType indexType arguments importFile relativePath =>
    rw [typeName.eq_def, typeName.eq_def]
    by_cases hdate : Dart.dateTypes.contains name
    · simp only [hdate, if_true]
    · by_cases hnumber : Dart.numericTypes.contains name
      · simp only [hdate, hnumber, if_true]
      · simp only [hdate, hnumber]
        cases kind with
        | primitive => rfl
        | unknown => rfl
        | reference => simp only [h.relation_eq, h.className_eq]
        | array =>
          cases element with
          | none => rfl
          | some e => simp only [typeName_eq e]
        | indexedAccess =>
          cases indexType with
          | none => rfl
          | some i => exact typeName_eq i
termination_by sizeOf t

theorem toJson_eq (name : String) (t : TypeDescriptor) : c'.toJson name t = c.toJson name t := by
  unfold toJson
  simp only [h.relation_eq]

theorem fromJson_eq (name : String) (t : TypeDescriptor) :
    c'.fromJson name t = c.fromJson name t := by
  unfold fromJson
  simp only [h.relation_eq, h.className_eq, h.typeName_eq]

theorem bodyText_eq (s : ModelSettings) (e : ModelEntity) : c'.bodyText s e = c.bodyText s e := by
  have hfield : c'.fieldText = c.fieldText := by
    funext f
    unfold fieldText
    rw [h.typeName_eq, h.toJson_eq]
    simp only [h.fromJson_eq]
  unfold bodyText
  rw [hfield]
  simp only [h.className_eq]

theorem headerLines_eq (s : ModelSettings) (fs : FileSystem) (e : ModelEntity)
    (met : List ModelEntity) : c'.headerLines s fs e met = c.headerLines s fs e met := by
  unfold headerLines fieldTargets
  simp only [h.byPath]

theorem emit_eq (s : ModelSettings) (fs : FileSystem) (e : ModelEntity) :
    c'.emit s fs e = c.emit s fs e := by
  unfold emit
  rw [h.bodyText_eq]
  simp only [h.headerLines_eq]

/-- Catalogs that find the same entities write the same model. -/
theorem writeEntity_eq (g : Generator) (e : ModelEntity) (fs : FileSystem) :
    g.writeEntity c' e fs = g.writeEntity c e fs := by
  unfold Generator.writeEntity
  rw [h.emit_eq]

end SameFinds

end Catalog

/-! ## Lists -/

/-- Where keys are distinct, a search by key finds the item with the key. -/
theorem find?_key_eq_some {α : Type} {key : α → String} {items : List α}
    (hkeys : (items.map key).Nodup) (name : String) (a : α) :
    (items.find? fun a => key a == name) = some a ↔ a ∈ items ∧ key a = name := by
  constructor
  · intro h
    exact ⟨List.mem_of_find?_eq_some h, by simpa using List.find?_some h⟩
  · rintro ⟨ha, rfl⟩
    cases hfound : items.find? fun b => key b == key a with
    | none =>
      rw [List.find?_eq_none] at hfound
      exact absurd (beq_self_eq_true (key a)) (hfound a ha)
    | some b =>
      have hb : key b = key a := by simpa using List.find?_some hfound
      rw [List.inj_on_of_nodup_map hkeys (List.mem_of_find?_eq_some hfound) ha hb]

/-- The order of a list does not matter to such a search. -/
theorem find?_key_of_perm {α : Type} {key : α → String} {items items' : List α}
    (hperm : items'.Perm items) (hkeys : (items.map key).Nodup) (name : String) :
    (items'.find? fun a => key a == name) = items.find? fun a => key a == name := by
  apply Option.ext
  intro a
  have hkeys' : (items'.map key).Nodup := (hperm.map key).nodup_iff.mpr hkeys
  rw [find?_key_eq_some hkeys, find?_key_eq_some hkeys', hperm.mem_iff]

/-- What is said of each place is said of the item at that place. -/
theorem filterMap_range {α β : Type} {items : List α} {f : Nat → Option β} {g : α → Option β}
    (h : ∀ i a, items[i]? = some a → f i = g a) :
    (List.range items.length).filterMap f = items.filterMap g := by
  induction items generalizing f with
  | nil => rfl
  | cons a items ih =>
    have hrest := @ih (f ∘ Nat.succ) fun i b hb => h (i + 1) b hb
    have hfirst : f 0 = g a := h 0 a rfl
    rw [List.length_cons, List.range_succ_eq_map, List.filterMap_cons, List.filterMap_cons,
      List.filterMap_map, hrest, hfirst]

/-! ## The entities of a run -/

/-- The same entities in another order, where those of one file keep their order. -/
structure Reordered (entities entities' : List SourceEntity) : Prop where
  perm : entities'.Perm entities
  sameFile : ∀ file, (entities'.filter fun e => Path.normalize e.path == file) =
    entities.filter fun e => Path.normalize e.path == file

namespace Generator

variable {g : Generator} {fs fs' : FileSystem} {entities entities' : List SourceEntity}
  {decorated : List ModelEntity}

variable (g) in
/-- An entity with the file of its model, if it has one. -/
def placed (e : SourceEntity) : ModelEntity :=
  ⟨e.path, e.name, e.fields, (g.target e).toOption.getD ""⟩

theorem decorate_eq_map (h : g.decorate entities = .ok decorated) :
    decorated = entities.map g.placed := by
  have hstep : ∀ e d,
      (do return ⟨e.path, e.name, e.fields, ← g.target e⟩ : Except Error ModelEntity) = .ok d →
      g.placed e = d := by
    intro e d hd
    obtain ⟨target, htarget, hd⟩ := exists_of_bind_eq_ok hd
    cases hd
    unfold placed
    rw [htarget]
    rfl
  have hpairs := (forall₂_of_mapM_eq_ok h).imp hstep
  rw [← List.forall₂_map_left_iff, List.forall₂_eq_eq_eq] at hpairs
  exact hpairs.symm

theorem decorate_reordered (hreordered : Reordered entities entities')
    (h : g.decorate entities = .ok decorated) :
    g.decorate entities' = .ok (entities'.map g.placed) := by
  have hall := exists_mapM_eq_ok.mp ⟨decorated, h⟩
  obtain ⟨decorated', h'⟩ := exists_mapM_eq_ok.mpr fun e he =>
    hall e (hreordered.perm.mem_iff.mp he)
  rw [← decorate_eq_map h']
  exact h'

/-- A reordered catalog finds the same entities. -/
theorem sameFinds_catalog (hreordered : Reordered entities entities')
    (hnames : (entities.map (·.name)).Nodup) :
    Catalog.SameFinds (g.catalog (entities.map g.placed)) (g.catalog (entities'.map g.placed)) := by
  refine ⟨rfl, fun name => ?_, fun path name => ?_⟩
  · have hkeys : ((entities.map g.placed).map (·.name)).Nodup := by
      rw [List.map_map]
      exact hnames
    exact find?_key_of_perm (hreordered.perm.map g.placed) hkeys name
  · have hcandidates : ∀ file,
        ((entities'.map g.placed).filter fun e => Path.normalize e.path == file) =
          (entities.map g.placed).filter fun e => Path.normalize e.path == file := by
      intro file
      rw [List.filter_map, List.filter_map]
      exact congrArg (List.map g.placed) (hreordered.sameFile file)
    unfold Catalog.findByPath? catalog
    simp only [hcandidates]

/-! ## Reports -/

/-- Two failures of one task are alike when each is like a third one. -/
theorem SameOutcome.of_common {e : ModelEntity} {o : Except FailedModel WrittenModel}
    {f f' : FailedModel} (h : SameOutcome e o (.error f)) (h' : SameOutcome e o (.error f')) :
    SameOutcome e (.error f) (.error f') := by
  cases o with
  | ok w => exact h.elim
  | error f₀ =>
    obtain ⟨a, a₁, ha, rfl, hsame⟩ := h
    obtain ⟨b, b₁, hb, rfl, hsame'⟩ := h'
    rcases hsame with rfl | hlong
    · -- The report of `f` is that of `b`.
      refine ⟨b, b₁, ?_, rfl, hsame'⟩
      rw [← ha, hb]
    · rcases hsame' with rfl | hlong'
      · refine ⟨a₁, a, rfl, ?_, Or.inr ⟨hlong.long, hlong.right, hlong.left⟩⟩
        rw [← ha, hb]
      · exact ⟨a₁, b₁, rfl, rfl, Or.inr ⟨hlong.long, hlong.right, hlong'.right⟩⟩

theorem SameOutcome.target_eq {e : ModelEntity} {o : Except FailedModel WrittenModel}
    {f : FailedModel} (h : SameOutcome e o (.error f)) : f.target = e.target := by
  cases o with
  | ok w => exact h.elim
  | error f₀ =>
    obtain ⟨a, a₁, -, rfl, -⟩ := h
    rfl

theorem SameOutcome.toOption_eq {e : ModelEntity} {o o' : Except FailedModel WrittenModel}
    (h : SameOutcome e o o') : o'.toOption = o.toOption := by
  rcases o with f | w <;> rcases o' with f' | w'
  · rfl
  · exact h.elim
  · exact h.elim
  · rw [h.1]

/-- The target of an outcome that is a failure. -/
def failedTarget (o : Except FailedModel WrittenModel) : Option String :=
  (failureOf o).map (·.target)

theorem SameOutcome.failedTarget_eq {e : ModelEntity} {o o' : Except FailedModel WrittenModel}
    (h : SameOutcome e o o') : failedTarget o' = failedTarget o := by
  rcases o with f | w <;> rcases o' with f' | w'
  · obtain ⟨a, a₁, rfl, rfl, -⟩ := h
    rfl
  · exact h.elim
  · exact h.elim
  · rfl

namespace Isolated

variable {result : GenerationResult} {outcome : Nat → Except FailedModel WrittenModel}
  (h : g.Isolated (fun _ => Refusals.none) decorated fs fs' result outcome)

include h

/-- The models that are reported are those that the tasks write alone. -/
theorem written_eq : result.written =
    decorated.filterMap fun e => (g.writeEntity (g.catalog decorated) e fs).1.toOption := by
  rw [h.written]
  exact filterMap_range fun i e he => (h.same i e he).toOption_eq

theorem perm_failed : (result.failed.map (·.target)).Perm
    (decorated.filterMap fun e => failedTarget (g.writeEntity (g.catalog decorated) e fs).1) := by
  refine (h.failed.map _).trans (List.Perm.of_eq ?_)
  rw [List.map_filterMap]
  exact filterMap_range fun i e he => (h.same i e he).failedTarget_eq

theorem exists_same {f : FailedModel} (hf : f ∈ result.failed) :
    ∃ e ∈ decorated, SameOutcome e (g.writeEntity (g.catalog decorated) e fs).1 (.error f) := by
  obtain ⟨i, hi, hfailure⟩ := List.mem_filterMap.mp (h.failed.mem_iff.mp hf)
  have hlt := List.mem_range.mp hi
  have hsame := h.same i _ (List.getElem?_eq_getElem hlt)
  refine ⟨decorated[i], List.getElem_mem hlt, ?_⟩
  cases ho : outcome i with
  | ok w =>
    rw [ho] at hfailure
    cases hfailure
  | error f' =>
    rw [ho] at hfailure hsame
    cases hfailure
    exact hsame

end Isolated

/-- Two results report the same models, and failures of the same entities.  The errors of a failure
agree unless a name above its target is too long. -/
structure SameModels (decorated : List ModelEntity) (result result' : GenerationResult) : Prop where
  written : result'.written.Perm result.written
  failed : List.Forall₂ (fun f f' => ∃ e ∈ decorated, SameOutcome e (.error f) (.error f'))
    result.failed result'.failed

/-- Two runs report the same, or do not start because of the same error. -/
def SameReports (decorated : List ModelEntity) :
    Except Error GenerationResult → Except Error GenerationResult → Prop
  | .ok result, .ok result' => SameModels decorated result result'
  | .error e, .error e' => e' = e
  | _, _ => False

variable {decorated' : List ModelEntity} {result result' : GenerationResult}
  {outcome outcome' : Nat → Except FailedModel WrittenModel}

/-- Each of two runs reports what its tasks report alone, so both report the same. -/
theorem sameModels_of_isolated {fs₁ fs₁' : FileSystem} (hperm : decorated'.Perm decorated)
    (htargets : (decorated.map (·.target)).Nodup)
    (hfinds : Catalog.SameFinds (g.catalog decorated) (g.catalog decorated'))
    (h : g.Isolated (fun _ => Refusals.none) decorated fs fs₁ result outcome)
    (h' : g.Isolated (fun _ => Refusals.none) decorated' fs fs₁' result' outcome') :
    SameModels decorated result result' := by
  have halone (e : ModelEntity) : g.writeEntity (g.catalog decorated') e fs =
      g.writeEntity (g.catalog decorated) e fs := hfinds.writeEntity_eq g e fs
  refine ⟨?_, ?_⟩
  · rw [h.written_eq, h'.written_eq]
    simp only [halone]
    exact hperm.filterMap _
  · have hsorted : (result.failed.map (·.target)).Pairwise fun a b => ¬b < a :=
      List.pairwise_map.mpr h.sorted
    have hsorted' : (result'.failed.map (·.target)).Pairwise fun a b => ¬b < a :=
      List.pairwise_map.mpr h'.sorted
    have hfailed : (result.failed.map (·.target)).Perm (result'.failed.map (·.target)) := by
      refine h.perm_failed.trans (.trans ?_ h'.perm_failed.symm)
      simp only [halone]
      exact hperm.symm.filterMap _
    have hsame : result.failed.map (·.target) = result'.failed.map (·.target) := by
      refine hfailed.eq_of_pairwise (fun a b _ _ hab hba => ?_) hsorted hsorted'
      exact String.le_antisymm hab hba
    rw [← List.forall₂_eq_eq_eq, List.forall₂_map_left_iff, List.forall₂_map_right_iff,
      List.forall₂_iff_zip] at hsame
    rw [List.forall₂_iff_zip]
    refine ⟨hsame.1, fun {f f'} hpair => ?_⟩
    obtain ⟨hf, hf'⟩ := List.of_mem_zip hpair
    obtain ⟨e, he, hout⟩ := h.exists_same hf
    obtain ⟨e', he', hout'⟩ := h'.exists_same hf'
    rw [halone] at hout'
    have hee : e' = e := by
      refine List.inj_on_of_nodup_map htargets (hperm.mem_iff.mp he') he ?_
      rw [← hout'.target_eq, ← hout.target_eq]
      exact (hsame.2 hpair).symm
    rw [hee] at hout'
    exact ⟨e, he, hout.of_common hout'⟩

/-! ## Files -/

/-- Apart from the targets of its entities, a run leaves every file as it was. -/
theorem generateUnder_others {order completed : List Nat} (hfs : fs.WellFormed)
    (h : g.decorate entities = .ok decorated) {l : Location}
    (hl : ∀ e ∈ decorated, l ≠ fs.destination e.target) (bytes : List UInt8) :
    (g.generateUnder (fun _ => Refusals.none) order completed entities fs).2.lookup l =
      some (.file bytes) ↔ fs.lookup l = some (.file bytes) := by
  unfold generateUnder
  rw [h]
  dsimp only
  cases checkWorkers g.settings.workers with
  | error e => rfl
  | ok _ =>
    dsimp only
    rw [writeAllUnder_none]
    rcases hrun : g.writeAll (g.catalog decorated) (tasks order decorated) fs with ⟨outcomes, fs'⟩
    have hentity : ∀ t ∈ tasks order decorated, t.2 ∈ decorated :=
      fun t ht => List.mem_of_getElem? (getElem?_of_mem_tasks ht)
    obtain ⟨hleaves, -, hwritten⟩ := writeAll_leaves
      (fun t ht => decorate_tidy h t.2 (hentity t ht)) hrun
    refine hleaves.others l (fun w hw hplace => ?_) bytes
    obtain ⟨⟨i, o⟩, ho, htoOption⟩ := List.mem_filterMap.mp hw
    obtain rfl : o = .ok w := by
      cases o with
      | error f => cases htoOption
      | ok v => exact congrArg Except.ok (Option.some.inj htoOption)
    have hmem := hentity _ (hwritten i w ho)
    obtain ⟨base, names, hway, hdestination⟩ := decorate_leadsTo hfs h w.entity hmem
    rw [← hleaves.keeps.workdir] at hway
    rw [← decorate_tidy h w.entity hmem] at hplace
    exact hl w.entity hmem ((hway.locate_eq_ok hplace).1.trans hdestination.symm)

/-- Each of two runs leaves at a target what its task leaves there alone, and other files as they
were. -/
theorem sameFiles_of_isolated {fs₁ fs₁' : FileSystem} (hperm : decorated'.Perm decorated)
    (hfinds : Catalog.SameFinds (g.catalog decorated) (g.catalog decorated'))
    (h : g.Isolated (fun _ => Refusals.none) decorated fs fs₁ result outcome)
    (h' : g.Isolated (fun _ => Refusals.none) decorated' fs fs₁' result' outcome')
    (hothers : ∀ l, (∀ e ∈ decorated, l ≠ fs.destination e.target) → ∀ bytes,
      fs₁.lookup l = some (.file bytes) ↔ fs.lookup l = some (.file bytes))
    (hothers' : ∀ l, (∀ e ∈ decorated', l ≠ fs.destination e.target) → ∀ bytes,
      fs₁'.lookup l = some (.file bytes) ↔ fs.lookup l = some (.file bytes)) :
    SameFiles fs₁ fs₁' := by
  intro l bytes
  by_cases hl : ∃ e ∈ decorated, l = fs.destination e.target
  · obtain ⟨e, he, hplace⟩ := hl
    obtain ⟨i, hi⟩ := List.mem_iff_getElem?.mp he
    obtain ⟨j, hj⟩ := List.mem_iff_getElem?.mp (hperm.mem_iff.mpr he)
    rw [hplace, h.content i e hi, h'.content j e hj, writeEntityUnder_none, writeEntityUnder_none,
      hfinds.writeEntity_eq]
  · have haway : ∀ e ∈ decorated, l ≠ fs.destination e.target := fun e he heq => hl ⟨e, he, heq⟩
    have haway' : ∀ e ∈ decorated', l ≠ fs.destination e.target :=
      fun e he => haway e (hperm.mem_iff.mp he)
    exact (hothers' l haway' bytes).trans (hothers l haway bytes).symm

/-! ## The run -/

/-- The same entities in another order leave the same files and report the same models and failures,
where names are distinct and targets lie apart. -/
theorem generateUnder_reordered {order completed order' completed' : List Nat} (hfs : fs.WellFormed)
    (hreordered : Reordered entities entities') (hnames : (entities.map (·.name)).Nodup)
    (hdecorated : g.decorate entities = .ok decorated)
    (hapart : decorated.Pairwise fun a b =>
      Apart (fs.destination a.target) (fs.destination b.target))
    (horder : order.Perm (List.range entities.length))
    (hcompleted : completed.Perm (List.range entities.length))
    (horder' : order'.Perm (List.range entities'.length))
    (hcompleted' : completed'.Perm (List.range entities'.length)) :
    SameFiles (g.generateUnder (fun _ => Refusals.none) order completed entities fs).2
        (g.generateUnder (fun _ => Refusals.none) order' completed' entities' fs).2 ∧
      SameReports decorated
        (g.generateUnder (fun _ => Refusals.none) order completed entities fs).1.result
        (g.generateUnder (fun _ => Refusals.none) order' completed' entities' fs).1.result := by
  have hdecorated' := decorate_reordered hreordered hdecorated
  have hfinds := @sameFinds_catalog g _ _ hreordered hnames
  have hlisted := decorate_eq_map hdecorated
  rw [← hlisted] at hfinds
  have hperm : (entities'.map g.placed).Perm decorated := by
    rw [hlisted]
    exact hreordered.perm.map g.placed
  generalize entities'.map g.placed = decorated' at hdecorated' hfinds hperm
  have hapart' : decorated'.Pairwise fun a b =>
      Apart (fs.destination a.target) (fs.destination b.target) := hapart.perm hperm.symm Apart.symm
  have htargets : (decorated.map (·.target)).Nodup := by
    refine List.pairwise_map.mpr (hapart.imp fun hab heq => hab.1 ?_)
    rw [heq]
  cases hworkers : checkWorkers g.settings.workers with
  | error e =>
    unfold generateUnder
    rw [hdecorated, hdecorated']
    dsimp only
    rw [hworkers]
    exact ⟨fun _ _ => Iff.rfl, rfl⟩
  | ok _ =>
    have hallowed : ∀ _ : Nat, Denies (fun _ => none) fs.workdir Refusals.none :=
      fun _ => ⟨fun _ _ _ _ => rfl, fun _ _ => rfl⟩
    have hlength : entities.length = decorated.length := by rw [hlisted, List.length_map]
    have hlength' : entities'.length = decorated'.length := by
      rw [hreordered.perm.length_eq, hlength, hperm.length_eq]
    have hothers := fun l => @generateUnder_others g fs entities decorated order completed hfs
      hdecorated l
    have hothers' := fun l => @generateUnder_others g fs entities' decorated' order' completed' hfs
      hdecorated' l
    rw [hlength] at horder hcompleted
    rw [hlength'] at horder' hcompleted'
    obtain ⟨result, outcome, names, fs₁, hrun, -, hisolated⟩ :=
      generateUnder_isolated hfs hdecorated hworkers hallowed hapart horder hcompleted
    obtain ⟨result', outcome', names', fs₁', hrun', -, hisolated'⟩ :=
      generateUnder_isolated hfs hdecorated' hworkers hallowed hapart' horder' hcompleted'
    rw [hrun] at hothers ⊢
    rw [hrun'] at hothers' ⊢
    exact ⟨sameFiles_of_isolated hperm hfinds hisolated hisolated' hothers hothers',
      sameModels_of_isolated hperm htargets hfinds hisolated hisolated'⟩

/-- Three classes, two of them in one file. -/
def neighbours : List SourceEntity := [⟨"a.ts", "A", []⟩, ⟨"b.ts", "B", []⟩, ⟨"a.ts", "C", []⟩]

/-- The class of the other file first. -/
def swapped : List SourceEntity := [⟨"b.ts", "B", []⟩, ⟨"a.ts", "A", []⟩, ⟨"a.ts", "C", []⟩]

/-- The neighbours with their targets. -/
def neighbourModels : List ModelEntity :=
  [⟨"a.ts", "A", [], "/a"⟩, ⟨"b.ts", "B", [], "/b"⟩, ⟨"a.ts", "C", [], "/c"⟩]

theorem reordered_swapped : Reordered neighbours swapped := by
  have ha : Path.normalize "a.ts" = "a.ts" := by cbv
  have hb : Path.normalize "b.ts" = "b.ts" := by cbv
  refine ⟨List.Perm.swap _ _ _, fun file => ?_⟩
  unfold neighbours swapped
  simp only [List.filter_cons, ha, hb]
  by_cases hfile : file = "b.ts"
  · subst hfile
    rfl
  · have hne : ("b.ts" == file) = false := beq_false_of_ne fun h => hfile h.symm
    simp only [hne, Bool.false_eq_true, if_false]

theorem decorate_neighbours : plain.decorate neighbours = .ok neighbourModels := by
  have ha : plain.target ⟨"a.ts", "A", []⟩ = .ok "/a" := by cbv
  have hb : plain.target ⟨"b.ts", "B", []⟩ = .ok "/b" := by cbv
  have hc : plain.target ⟨"a.ts", "C", []⟩ = .ok "/c" := by cbv
  unfold decorate neighbours
  rw [List.mapM_cons, ha, List.mapM_cons, hb, List.mapM_cons, hc]
  rfl

theorem apart_neighbours : neighbourModels.Pairwise fun a b =>
    Apart ((⟨[], []⟩ : FileSystem).destination a.target)
      ((⟨[], []⟩ : FileSystem).destination b.target) := by
  have ha : (⟨[], []⟩ : FileSystem).destination "/a" = [['a']] := by decide +kernel
  have hb : (⟨[], []⟩ : FileSystem).destination "/b" = [['b']] := by decide +kernel
  have hc : (⟨[], []⟩ : FileSystem).destination "/c" = [['c']] := by decide +kernel
  have hapart : ∀ p q : Path.Part, p ≠ q → Apart [p] [q] := by
    intro p q hne
    constructor
    · intro habove
      exact hne (List.cons.inj (habove.eq_of_length rfl)).1
    · intro habove
      exact hne (List.cons.inj (habove.eq_of_length rfl)).1.symm
  unfold neighbourModels
  simp only [List.pairwise_cons, List.forall_mem_cons, ha, hb, hc]
  exact ⟨⟨hapart _ _ (by decide), hapart _ _ (by decide), nofun⟩, ⟨hapart _ _ (by decide), nofun⟩,
    nofun, List.Pairwise.nil⟩

/-- The neighbours in either order, the tasks of the second run from the last one to the first. -/
theorem generateUnder_reordered_neighbours :
    SameFiles
        (plain.generateUnder (fun _ => Refusals.none) [0, 1, 2] [0, 1, 2] neighbours ⟨[], []⟩).2
        (plain.generateUnder (fun _ => Refusals.none) [2, 1, 0] [1, 2, 0] swapped ⟨[], []⟩).2 ∧
      SameReports neighbourModels
        (plain.generateUnder (fun _ => Refusals.none) [0, 1, 2] [0, 1, 2] neighbours
          ⟨[], []⟩).1.result
        (plain.generateUnder (fun _ => Refusals.none) [2, 1, 0] [1, 2, 0] swapped
          ⟨[], []⟩).1.result :=
  generateUnder_reordered wellFormed_empty reordered_swapped (by decide) decorate_neighbours
    apart_neighbours (by decide) (by decide) (by decide) (by decide)

/-- Two classes with paths that differ in a slash in front. -/
def slashes : List SourceEntity := [⟨"/x", "A", []⟩, ⟨"//x", "a", [⟨"x", .primitive "String", "a"⟩]⟩]

/-- The class with two slashes first. -/
def slashesSwapped : List SourceEntity :=
  [⟨"//x", "a", [⟨"x", .primitive "String", "a"⟩]⟩, ⟨"/x", "A", []⟩]

/-- The class with one slash in front, with its target. -/
def oneSlash : ModelEntity := ⟨"/x", "A", [], "/a"⟩

/-- The class with two slashes in front, with its target. -/
def twoSlashes : ModelEntity := ⟨"//x", "a", [⟨"x", .primitive "String", "a"⟩], "//a"⟩

theorem reordered_slashes : Reordered slashes slashesSwapped := by
  have hone : Path.normalize "/x" = "/x" := by cbv
  have htwo : Path.normalize "//x" = "//x" := by cbv
  refine ⟨List.Perm.swap _ _ _, fun file => ?_⟩
  unfold slashes slashesSwapped
  simp only [List.filter_cons, hone, htwo]
  by_cases hfile : file = "/x"
  · subst hfile
    rfl
  · have hne : ("/x" == file) = false := beq_false_of_ne fun h => hfile h.symm
    simp only [hne, Bool.false_eq_true, if_false]

theorem decorate_slashes : plain.decorate slashes = .ok [oneSlash, twoSlashes] ∧
    plain.decorate slashesSwapped = .ok [twoSlashes, oneSlash] := by
  constructor <;> cbv

theorem emit_twoSlashes (entities : List ModelEntity) (fs : FileSystem) :
    ((plain.catalog entities).emit plain.settings fs twoSlashes).exec [] =
      (.ok (String.join secondLines), []) := by
  have hbody : ((plain.catalog entities).bodyText plain.settings twoSlashes).exec [] =
    (.ok secondClass, []) := by cbv
  have hlines : (plain.catalog entities).headerLines plain.settings fs twoSlashes [] =
    .ok [] := by cbv
  rw [Catalog.emit_of_ok hbody hlines, ← classText_second]
  rfl

theorem replaceFile_twoSlashes (bytes : List UInt8) (content : String) :
    (replaceFile Refusals.none "//a" content).exec (single bytes) =
      (.ok (), single (Utf8.encode content)) := by
  have hdir : (single bytes).absolute (Path.Tidy.ofString "//a").parent.toString = "//" := by
    show Path.absolute (workdirPath ⟨[], []⟩) (Path.Tidy.ofString "//a").parent.toString = "//"
    decide
  have hcreated : (createFile Refusals.none (Path.join "//" ".a.********.tmp")).exec (single bytes) =
    (.ok (spare []), (single bytes).set (spare []) (.file [])) := rfl
  have hplace : moveTarget ((single bytes).set (spare []) (.file [])) (Path.Tidy.ofString "//a") =
    .ok [['a']] := rfl
  rw [← hdir] at hcreated
  exact replaceFile_of_steps content rfl hcreated hplace rfl

/-- Both targets are the file `/a`, and the class that comes last stands in it. -/
theorem generate_slashes :
    (plain.generateIn [0, 1] slashes ⟨[], []⟩).2 =
        single (Utf8.encode (String.join secondLines)) ∧
      (plain.generateIn [0, 1] slashesSwapped ⟨[], []⟩).2 =
        single (Utf8.encode (String.join firstLines)) := by
  have hone (entities : List ModelEntity) (fs : FileSystem) :=
    emit_empty (e := oneSlash) entities rfl rfl fs
  obtain ⟨hdecorated, hswapped⟩ := decorate_slashes
  constructor
  · have hfirst := writeEntity_of_ok (hone [oneSlash, twoSlashes] ⟨[], []⟩) validate_first
      (replaceFile_empty _)
    have hlast := writeEntity_of_ok
      (emit_twoSlashes [oneSlash, twoSlashes] (single (Utf8.encode (String.join firstLines))))
      validate_second (replaceFile_twoSlashes _ _)
    exact files_of_writeAll hdecorated rfl
      (writeAll_cons 0 hfirst (writeAll_cons 1 hlast (writeAll_nil _)))
  · have hwrite : (replaceFile Refusals.none "//a" (String.join secondLines)).exec ⟨[], []⟩ =
      (.ok (), single (Utf8.encode (String.join secondLines))) := rfl
    have hfirst := writeEntity_of_ok (emit_twoSlashes [twoSlashes, oneSlash] ⟨[], []⟩)
      validate_second hwrite
    have hlast := writeEntity_of_ok
      (hone [twoSlashes, oneSlash] (single (Utf8.encode (String.join secondLines)))) validate_first
      (replaceFile_single _ _)
    exact files_of_writeAll hswapped rfl
      (writeAll_cons 0 hfirst (writeAll_cons 1 hlast (writeAll_nil _)))

/-- Targets may be distinct, and neither above the other, and yet be one file: paths that differ in a
slash in front are.  The order of the entities shows in it. -/
theorem generateUnder_reordered_differs :
    Reordered slashes slashesSwapped ∧ (slashes.map (·.name)).Nodup ∧
      plain.decorate slashes = .ok [oneSlash, twoSlashes] ∧
      oneSlash.target = "/a" ∧ twoSlashes.target = "//a" ∧
      ¬SameFiles (plain.generateUnder (fun _ => Refusals.none) [0, 1] [0, 1] slashes ⟨[], []⟩).2
        (plain.generateUnder (fun _ => Refusals.none) [0, 1] [0, 1] slashesSwapped ⟨[], []⟩).2 := by
  refine ⟨reordered_slashes, by decide, decorate_slashes.1, rfl, rfl, fun hsame => ?_⟩
  obtain ⟨hslashes, hswapped⟩ := generate_slashes
  rw [generateUnder_none (by decide), generateUnder_none (by decide), hslashes, hswapped] at hsame
  have hdiffer : String.join secondLines ≠ String.join firstLines := by decide +kernel
  have hheld (content : List UInt8) : (single content).lookup [['a']] = some (.file content) := rfl
  have hkept := (hsame [['a']] (Utf8.encode (String.join firstLines))).mp (hheld _)
  rw [hheld] at hkept
  exact hdiffer (Utf8.encode_inj (Entry.file.inj (Option.some.inj hkept)))

end Generator

end DartModels
