import DartModels.Proofs.ModelForm

/-!
# The file that declares a type

An imported type has an origin, the file that its source imports it from.  The header of a model
imports the entity that the origin declares, but the text of the model uses the first entity of the
run with the name, wherever it is declared.

    header: the first entity with the name in the file            (findByPath?_of_declaredIn)
    text: the first entity with the name                          (find?_of_declaredIn)
    both are one entity ↔ the first with the name is declared in the file          (relation_origin)
-/

namespace DartModels

namespace Catalog

open Dart

variable {c : Catalog} {path name : String} {d e : ModelEntity}

/-- The run has the entity `e`, which the file `path` declares as `name`. -/
structure DeclaredIn (c : Catalog) (path name : String) (e : ModelEntity) : Prop where
  mem : e ∈ c.entities
  file : Path.normalize e.path = Path.normalize path
  named : e.name = name

/-- Whether a file declares an entity as `name`. -/
def isDeclared (path name : String) (e : ModelEntity) : Bool :=
  decide (Path.normalize e.path = Path.normalize path ∧ e.name = name)

theorem DeclaredIn.isDeclared (h : c.DeclaredIn path name e) : isDeclared path name e = true := by
  exact decide_eq_true ⟨h.file, h.named⟩

theorem find?_of_declaredIn (h : c.DeclaredIn path name d) :
    ∃ used ∈ c.entities, c.find? name = some used ∧ used.name = name := by
  have hsome : (c.entities.find? fun e => e.name == name).isSome :=
    List.find?_isSome.mpr ⟨d, h.mem, by simp [h.named]⟩
  obtain ⟨used, hused⟩ := Option.isSome_iff_exists.mp hsome
  exact ⟨used, List.mem_of_find?_eq_some hused, hused, by simpa using List.find?_some hused⟩

/-- An entity that is declared in the file is found before those with other names. -/
theorem findByPath?_of_declaredIn (h : c.DeclaredIn path name d) :
    ∃ origin, c.findByPath? path (some name) = some origin ∧ c.DeclaredIn path name origin ∧
      c.entities.find? (isDeclared path name) = some origin := by
  have hsome : (c.entities.find? (isDeclared path name)).isSome :=
    List.find?_isSome.mpr ⟨d, h.mem, h.isDeclared⟩
  obtain ⟨origin, horigin⟩ := Option.isSome_iff_exists.mp hsome
  have hfound : isDeclared path name origin = true := List.find?_some horigin
  have hdeclared := of_decide_eq_true hfound
  refine ⟨origin, ?_, ⟨List.mem_of_find?_eq_some horigin, hdeclared.1, hdeclared.2⟩, horigin⟩
  have hcandidate : ((c.entities.filter fun e => Path.normalize e.path == Path.normalize path).find?
      fun e => some e.name == some name) = some origin := by
    rw [List.find?_filter, ← horigin]
    refine congrArg (List.find? · c.entities) (funext fun e => ?_)
    simp [isDeclared]
  unfold findByPath?
  dsimp only
  rw [hcandidate]

/-- What comes first among more comes first among less. -/
theorem find?_eq_of_imp {α : Type} {p q : α → Bool} {l : List α} {a : α}
    (h : l.find? q = some a) (hp : p a = true) (hpq : ∀ b, p b = true → q b = true) :
    l.find? p = some a := by
  obtain ⟨-, before, after, rfl, hbefore⟩ := List.find?_eq_some_iff_append.mp h
  refine List.find?_eq_some_iff_append.mpr ⟨hp, before, after, rfl, fun b hb => ?_⟩
  cases hb' : p b with
  | false => rfl
  | true => simpa [hpq b hb'] using hbefore b hb

theorem mem_fieldTargets_of_origin {origin : ModelEntity} {f : Field}
    (hf : f ∈ e.fields) (hpath : f.type.relativePath = some path) (hne : path ≠ "")
    (h : c.findByPath? path (some f.type.name) = some origin) :
    origin.target ∈ c.fieldTargets e := by
  unfold fieldTargets
  refine List.mem_filterMap.mpr ⟨f, hf, ?_⟩
  rw [hpath]
  dsimp only
  rw [if_neg (by simpa using hne), h]
  rfl

/-- If the file that a type is imported from declares an entity of its name, then the header imports
that entity.  The text refers to an entity of the same name, which is the same one exactly if the
first entity with the name is declared in the file. -/
theorem relation_origin {t : TypeDescriptor} (hkind : t.kind = .reference)
    (hpath : t.relativePath = some path) (hdeclared : c.DeclaredIn path t.name d)
    (met : List ModelEntity) :
    ∃ origin used, c.findByPath? path (some t.name) = some origin ∧
      c.DeclaredIn path t.name origin ∧
      (c.relation (some t)).exec met = (.ok (some used), record used met) ∧
      c.className used = c.className origin ∧
      (used = origin ↔ Path.normalize used.path = Path.normalize path) ∧
      ∀ (e : ModelEntity) (f : Field), f ∈ e.fields → f.type = t → path ≠ "" →
        origin.target ∈ c.fieldTargets e := by
  obtain ⟨origin, horigin, hin, hfirst⟩ := findByPath?_of_declaredIn hdeclared
  obtain ⟨used, -, hused, hname⟩ := find?_of_declaredIn hdeclared
  have hrelated : c.related (some t) = some used := by
    obtain ⟨kind, name, element, objectType, indexType, arguments, importFile, relativePath⟩ := t
    cases hkind
    exact hused
  refine ⟨origin, used, horigin, hin, ?_, ?_, ⟨fun h => ?_, fun h => ?_⟩, ?_⟩
  · rw [relation_exec, hrelated]
    rfl
  · unfold className
    rw [hname, hin.named]
  · rw [h, hin.file]
  · have hboth := find?_eq_of_imp hused (p := isDeclared path t.name)
      (decide_eq_true ⟨h, hname⟩) fun e he => by simpa using (of_decide_eq_true he).2
    rw [hboth] at hfirst
    exact Option.some.inj hfirst
  · rintro e f hf rfl hne
    exact mem_fieldTargets_of_origin hf hpath hne horigin

/-! ## Two entities of one name -/

/-- The first of two entities named `User`. -/
def customer : ModelEntity := ⟨"a.ts", "User", [], "/m/a.dart"⟩

/-- The second of two entities named `User`. -/
def operator : ModelEntity := ⟨"b.ts", "User", [], "/m/b.dart"⟩

/-- Both entities. -/
def users : Catalog := ⟨[customer, operator], .casing .pascal⟩

/-- The type `User`, imported from the file of `operator`. -/
def imported : TypeDescriptor := .reference "User" [] (some "/s/b.ts") (some "b.ts")

theorem declaredIn_operator : users.DeclaredIn "b.ts" "User" operator :=
  ⟨List.mem_cons_of_mem _ List.mem_cons_self, rfl, rfl⟩

/-- The text refers to the other entity, although the header imports the declared one. -/
theorem relation_other :
    users.DeclaredIn "b.ts" "User" operator ∧
      users.findByPath? "b.ts" (some "User") = some operator ∧
      (users.relation (some imported)).exec [] = (.ok (some customer), [customer]) ∧
      customer ≠ operator := by
  refine ⟨declaredIn_operator, rfl, rfl, fun h => ?_⟩
  exact absurd (congrArg ModelEntity.path h) (by decide)

/-- The origin of the type is not the entity that the text refers to. -/
theorem relation_origin_users :
    ∃ origin used, users.findByPath? "b.ts" (some "User") = some origin ∧
      (users.relation (some imported)).exec [] = (.ok (some used), [used]) ∧ used ≠ origin := by
  obtain ⟨origin, used, horigin, -, hused, -, hsame, -⟩ :=
    relation_origin (t := imported) rfl rfl declaredIn_operator []
  have hcustomer : customer = used := Option.some.inj (Except.ok.inj (congrArg Prod.fst hused))
  refine ⟨origin, used, horigin, hused, fun h => ?_⟩
  have hpath := hsame.mp h
  rw [← hcustomer] at hpath
  exact absurd hpath (by decide)

end Catalog

end DartModels
