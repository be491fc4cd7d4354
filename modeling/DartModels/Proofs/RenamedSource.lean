import DartModels.Proofs.AncestryOrder
import DartModels.Proofs.EditedFile
import DartModels.Proofs.RenamedType
import DartModels.Proofs.VisibleFields

/-!
# Sources with a renamed import

A file that binds an import to another local name, `import { B as L }` in place of `import { B }`,
and writes `L` for `B` in heritage clauses and property types.  It is loaded as before, with `L` in
place of `B` in the table of its imports, and every other file is loaded as it was.

    tables of imports: the same files, under respelled names                   (importTable_renamed)
    tables of classes: the same names, each class with respelled references      (classTable_renamed)
    p.RenamedIn files … → each path is loaded to twins, or fails alike                  (load_renamed)
-/

namespace DartModels

open Syntax

/-! ## Trees -/

/-- The names that a source binds or declares. -/
def Syntax.Node.knownNames (tree : Node) : List String :=
  tree.imports.flatMap (·.2) ++ tree.classes.map fun c => c.1.className

/-- All names in the heritage of a class. -/
def Syntax.Node.references (cls : Node) : Except Error (List String) :=
  cls.heritageNames.map fun names => names.1 ++ names.2

/-- Two results: the same failure, or values that are related. -/
inductive Alike {α β : Type} (R : α → β → Prop) : Except Error α → Except Error β → Prop where
  | error (e : Error) : Alike R (.error e) (.error e)
  | ok {a : α} {b : β} (h : R a b) : Alike R (.ok a) (.ok b)

theorem Alike.mapM {α β γ δ : Type} {R : γ → δ → Prop} {f : α → Except Error γ}
    {g : β → Except Error δ} {l : List α} {l' : List β}
    (h : List.Forall₂ (fun a b => Alike R (f a) (g b)) l l') :
    Alike (List.Forall₂ R) (l.mapM f) (l'.mapM g) := by
  induction h with
  | nil => exact .ok .nil
  | @cons a b l l' hab _ ih =>
    rw [List.mapM_cons, List.mapM_cons]
    generalize f a = r at hab
    generalize g b = r' at hab
    cases hab with
    | error e => exact .error e
    | ok hab =>
      rw [ok_bind, ok_bind]
      generalize l.mapM f = rs at ih
      generalize l'.mapM g = rs' at ih
      cases ih with
      | error e => exact .error e
      | ok ih => exact .ok (.cons hab ih)

/-- A reference and the same with `old` written `new`: as a name of its own, after a dot, where it
stays, or in an expression, which is no name of the file. -/
inductive RenamedReference (old new : String) (known : List String) : String → String → Prop where
  | name {r : String} (hfresh : r ≠ new) : RenamedReference old new known r (respell old new r)
  | dotted {r : String} (hfresh : r ≠ new) : RenamedReference old new known r r
  | expression {r r' : String} (h : r ∉ known) (h' : r' ∉ known) (hfresh' : r' ≠ new) :
      RenamedReference old new known r r'

/-- A property and the same with `old` written `new` in its type. -/
structure RenamedProperty (old new : String) (m m' : Node) : Prop where
  name : m'.propertyName = m.propertyName
  decorators : m'.decorators.map Node.decoratorName = m.decorators.map Node.decoratorName
  type : Option.Rel (Renamed old new) m.propertyType? m'.propertyType?

/-- A class and the same with `old` written `new` in its heritage and in the types of its
properties. -/
structure RenamedClass (old new : String) (known : List String) (cls cls' : Node) : Prop where
  name : cls'.className = cls.className
  references : Alike (List.Forall₂ (RenamedReference old new known)) cls.references cls'.references
  properties : List.Forall₂ (RenamedProperty old new) cls.properties cls'.properties

/-- The tree of a source, which declares no class of an imported name, and the same with `old` bound
and written as `new`, a name that the source did not use. -/
structure RenamedTree (old new : String) (tree tree' : Node) : Prop where
  imports : tree'.imports = tree.imports.map fun i => (i.1, i.2.map (respell old new))
  classes : List.Forall₂ (fun c c' => RenamedClass old new tree.knownNames c.1 c'.1)
    tree.classes tree'.classes
  unbound : ∀ i ∈ tree.imports, new ∉ i.2
  undeclared : ∀ c ∈ tree.classes, c.1.className ≠ old

/-! ## Tables -/

variable {old new : String}

theorem setEntry_respellKeys {α : Type} {table : List (String × α)}
    (hfresh : ∀ e ∈ table, e.1 ≠ new) {name : String} (hname : name ≠ new) (value : α) :
    setEntry (respell old new name) value (respellKeys old new table) =
      respellKeys old new (setEntry name value table) := by
  induction table with
  | nil => rfl
  | cons entry table ih =>
    obtain ⟨k, v⟩ := entry
    obtain ⟨hk, hrest⟩ := List.forall_mem_cons.mp hfresh
    show setEntry _ value ((respell old new k, v) :: respellKeys old new table) = _
    rw [setEntry, setEntry, ih hrest]
    by_cases he : k = name
    · rw [if_pos he, if_pos ((respell_inj hk hname).mpr he)]
      rfl
    · rw [if_neg he, if_neg fun h => he ((respell_inj hk hname).mp h)]
      rfl

theorem fresh_setEntry {α : Type} {table : List (String × α)} (hfresh : ∀ e ∈ table, e.1 ≠ new)
    {name : String} (hname : name ≠ new) (value : α) :
    ∀ e ∈ setEntry name value table, e.1 ≠ new := by
  intro e he
  rcases mem_setEntry he with rfl | he
  · exact hname
  · exact hfresh e he

/-- The same names set in two tables, the one respelled. -/
theorem foldl_setEntry_respell {names : List String} (hnames : new ∉ names) (file : String)
    {table : List (String × String)} (hfresh : ∀ e ∈ table, e.1 ≠ new) :
    (names.map (respell old new)).foldl (fun t n => setEntry n file t) (respellKeys old new table) =
      respellKeys old new (names.foldl (fun t n => setEntry n file t) table) ∧
    ∀ e ∈ names.foldl (fun t n => setEntry n file t) table, e.1 ≠ new := by
  induction names generalizing table with
  | nil => exact ⟨rfl, hfresh⟩
  | cons name names ih =>
    obtain ⟨hname, hrest⟩ := not_or.mp (List.mem_cons.not.mp hnames)
    have hne : name ≠ new := fun h => hname h.symm
    rw [List.map_cons, List.foldl_cons, List.foldl_cons, setEntry_respellKeys hfresh hne]
    exact ih hrest (fresh_setEntry hfresh hne file)

/-- Tables of the same names, with related values. -/
abbrev SameKeys {α β : Type} (R : α → β → Prop) :
    List (String × α) → List (String × β) → Prop :=
  List.Forall₂ fun e e' => e'.1 = e.1 ∧ R e.2 e'.2

theorem SameKeys.setEntry {α β : Type} {R : α → β → Prop} {t : List (String × α)}
    {t' : List (String × β)} (h : SameKeys R t t') {v : α} {v' : β} (hv : R v v') (name : String) :
    SameKeys R (setEntry name v t) (setEntry name v' t') := by
  induction h with
  | nil => exact .cons ⟨rfl, hv⟩ .nil
  | @cons e e' t t' he ht ih =>
    obtain ⟨k, w⟩ := e
    obtain ⟨k', w'⟩ := e'
    obtain ⟨rfl, hw⟩ := he
    rw [DartModels.setEntry, DartModels.setEntry]
    by_cases hk : k' = name
    · rw [if_pos hk, if_pos hk]
      exact .cons ⟨rfl, hv⟩ ht
    · rw [if_neg hk, if_neg hk]
      exact .cons ⟨rfl, hw⟩ ih

theorem SameKeys.lookup {α β : Type} {R : α → β → Prop} {t : List (String × α)}
    {t' : List (String × β)} (h : SameKeys R t t') (name : String) :
    Option.Rel R (t.lookup name) (t'.lookup name) := by
  induction h with
  | nil => exact .none
  | @cons e e' t t' he ht ih =>
    obtain ⟨k, w⟩ := e
    obtain ⟨k', w'⟩ := e'
    obtain ⟨rfl, hw⟩ := he
    rw [List.lookup_cons, List.lookup_cons]
    dsimp only
    cases name == k' with
    | true => exact .some hw
    | false => exact ih

/-! ## Sources -/

/-- A class and the same with `old` written `new` in its heritage and in the types of its
properties. -/
structure RenamedEntity (old new : String) (known : List String) (c c' : EntityClass) : Prop where
  key : c'.key = c.key
  declared : c'.declaration.isSome = c.declaration.isSome
  references : List.Forall₂ (RenamedReference old new known) c.heritage c'.heritage
  properties : List.Forall₂ (RenamedProperty old new) c.properties c'.properties

/-- The source of a tree and that of the renamed tree. -/
structure RenamedSource (old new : String) (known : List String) (s s' : Source) : Prop where
  path : s'.path = s.path
  imports : s'.imports = respellKeys old new s.imports
  fresh : ∀ e ∈ s.imports, e.1 ≠ new
  classes : SameKeys (RenamedEntity old new known) s.classes s'.classes
  undeclared : s.classes.lookup old = none
  known : ∀ r ∉ known, s.imports.lookup r = none ∧ s.classes.lookup r = none

/-- Two outcomes of loading a file: the same failure, or sources that are related. -/
inductive SameOutcome (R : Source → Source → Prop) : LoadOutcome → LoadOutcome → Prop where
  | error (e : Error) : SameOutcome R (.error e) (.error e)
  | missing : SameOutcome R (.ok none) (.ok none)
  | loaded {s s' : Source} (h : R s s') : SameOutcome R (.ok (some s)) (.ok (some s'))

namespace Project

variable {p : Project}

/-- The names of one import bound to its file. -/
def bindNames (resolve : String → Except Error String) (table : List (String × String))
    (i : String × List String) : Except Error (List (String × String)) := do
  let file ← resolve i.1
  return i.2.foldl (fun t n => setEntry n file t) table

theorem importTable_eq (tree : Node) (dir : String) :
    p.importTable tree dir =
      tree.imports.foldlM (bindNames fun s => p.modules.resolveFile p.files s (some dir)) [] := rfl

theorem mem_keys_bindNames {resolve : String → Except Error String}
    {imports : List (String × List String)} {table table' : List (String × String)}
    (h : imports.foldlM (bindNames resolve) table = .ok table') :
    ∀ e ∈ table', e ∈ table ∨ e.1 ∈ imports.flatMap (·.2) := by
  induction imports generalizing table with
  | nil =>
    cases h
    exact fun e he => Or.inl he
  | cons i imports ih =>
    rw [List.foldlM_cons] at h
    obtain ⟨bound, hbind, h⟩ := exists_of_bind_eq_ok h
    obtain ⟨file, -, hbind⟩ := exists_of_bind_eq_ok hbind
    cases hbind
    intro e he
    rw [List.flatMap_cons, List.mem_append]
    rcases ih h e he with he | he
    · refine (List.foldlRecOn (motive := fun t => ∀ e ∈ t, e ∈ table ∨ e.1 ∈ i.2) i.2 _
        (fun e he => Or.inl he) (fun t ht n hn e he => ?_) e he).imp_right Or.inl
      rcases mem_setEntry he with rfl | he
      · exact Or.inr hn
      · exact ht e he
    · exact Or.inr (Or.inr he)

theorem foldlM_bindNames_respell (resolve : String → Except Error String)
    {imports : List (String × List String)} (hunbound : ∀ i ∈ imports, new ∉ i.2)
    {table : List (String × String)} (hfresh : ∀ e ∈ table, e.1 ≠ new) :
    (imports.map fun i => (i.1, i.2.map (respell old new))).foldlM (bindNames resolve)
        (respellKeys old new table) =
      (imports.foldlM (bindNames resolve) table).map (respellKeys old new) := by
  induction imports generalizing table with
  | nil => rfl
  | cons i imports ih =>
    obtain ⟨hi, hrest⟩ := List.forall_mem_cons.mp hunbound
    rw [List.map_cons, List.foldlM_cons, List.foldlM_cons]
    unfold bindNames
    dsimp only
    cases resolve i.1 with
    | error e => rfl
    | ok file =>
      obtain ⟨hnames, hfresh'⟩ := @foldl_setEntry_respell old new _ hi file _ hfresh
      have hrest := ih hrest hfresh'
      rw [← hnames] at hrest
      exact hrest

theorem importTable_renamed {tree tree' : Node} (h : RenamedTree old new tree tree') (dir : String) :
    p.importTable tree' dir = (p.importTable tree dir).map (respellKeys old new) := by
  rw [importTable_eq, importTable_eq, h.imports]
  exact foldlM_bindNames_respell _ h.unbound (List.forall_mem_nil _)

theorem entityClass_renamed {known : List String} {cls cls' : Node}
    (h : RenamedClass old new known cls cls') (path : String) (around around' : Surroundings) :
    Alike (RenamedEntity old new known) (p.entityClass path cls around)
      (p.entityClass path cls' around') := by
  have hreferences := h.references
  unfold Node.references at hreferences
  unfold entityClass
  generalize cls.heritageNames = r at hreferences
  generalize cls'.heritageNames = r' at hreferences
  rcases r with e | names <;> rcases r' with e' | names' <;> cases hreferences
  · exact .error e
  · next hreferences =>
    exact .ok ⟨congrArg (Prod.mk path) h.name, rfl, hreferences, h.properties⟩

theorem nameTable_renamed {known : List String} {classes classes' : List EntityClass}
    (h : List.Forall₂ (RenamedEntity old new known) classes classes') :
    SameKeys (RenamedEntity old new known) (nameTable classes) (nameTable classes') := by
  have hfold : ∀ {table table' : List (String × EntityClass)},
      SameKeys (RenamedEntity old new known) table table' →
      SameKeys (RenamedEntity old new known)
        (classes.foldl (fun t c => setEntry c.name c t) table)
        (classes'.foldl (fun t c => setEntry c.name c t) table') := by
    induction h with
    | nil => exact id
    | @cons c c' classes classes' hc _ ih =>
      intro table table' htable
      have hname : c'.name = c.name := congrArg Prod.snd hc.key
      rw [List.foldl_cons, List.foldl_cons, hname]
      exact ih (htable.setEntry hc _)
  exact hfold .nil

theorem classTable_renamed {tree tree' : Node} (h : RenamedTree old new tree tree') (path : String) :
    Alike (SameKeys (RenamedEntity old new tree.knownNames)) (p.classTable path tree)
      (p.classTable path tree') := by
  have hclasses := Alike.mapM (h.classes.imp fun c c' hc =>
    entityClass_renamed (p := p) hc path c.2 c'.2)
  unfold classTable
  generalize tree.classes.mapM (fun c => p.entityClass path c.1 c.2) = r at hclasses
  generalize tree'.classes.mapM (fun c => p.entityClass path c.1 c.2) = r' at hclasses
  cases hclasses with
  | error e => exact .error e
  | ok hclasses => exact .ok (nameTable_renamed hclasses)

theorem mem_keys_classTable {path : String} {tree : Node} {table : List (String × EntityClass)}
    (htable : p.classTable path tree = .ok table) {e : String × EntityClass} (h : e ∈ table) :
    ∃ c ∈ tree.classes, c.1.className = e.1 := by
  obtain ⟨hname, c, hc, hclass⟩ := exists_of_mem_classTable htable h
  refine ⟨c, hc, ?_⟩
  rw [hname]
  exact (congrArg Prod.snd (entityClass_eq_ok hclass).2.1).symm

theorem sourceOf_renamed {tree tree' : Node} (h : RenamedTree old new tree tree') (path : String) :
    SameOutcome (RenamedSource old new tree.knownNames) (p.sourceOf path tree)
      (p.sourceOf path tree') := by
  unfold sourceOf
  rw [importTable_renamed h]
  cases htable : p.importTable tree (Path.dirname path) with
  | error e => exact .error e
  | ok imports =>
    have hkeys : ∀ e ∈ imports, e.1 ∈ tree.imports.flatMap (·.2) := by
      intro e he
      rw [importTable_eq] at htable
      exact (mem_keys_bindNames htable e he).resolve_left List.not_mem_nil
    have hclasses := classTable_renamed (p := p) h path
    show SameOutcome _ (p.classTable path tree >>= fun classes =>
        pure (some (⟨path, imports, classes⟩ : Source)))
      (p.classTable path tree' >>= fun classes =>
        pure (some (⟨path, respellKeys old new imports, classes⟩ : Source)))
    cases hclassTable : p.classTable path tree with
    | error e =>
      rw [hclassTable] at hclasses
      generalize p.classTable path tree' = r at hclasses
      cases hclasses
      exact .error e
    | ok classes =>
      rw [hclassTable] at hclasses
      generalize p.classTable path tree' = r at hclasses
      cases hclasses with
      | ok hclasses =>
        refine .loaded ⟨rfl, rfl, fun e he hnew => ?_, hclasses, ?_, fun r hr => ?_⟩
        · obtain ⟨i, hi, hmem⟩ := List.mem_flatMap.mp (hkeys e he)
          exact h.unbound i hi (hnew ▸ hmem)
        · rw [List.lookup_eq_none_iff]
          intro e he
          obtain ⟨c, hc, hname⟩ := mem_keys_classTable hclassTable he
          exact bne_iff_ne.mpr fun ho => h.undeclared c hc (hname.trans ho.symm)
        · obtain ⟨hbound, hdeclared⟩ := not_or.mp (List.mem_append.not.mp hr)
          rw [List.lookup_eq_none_iff, List.lookup_eq_none_iff]
          refine ⟨fun e he => bne_iff_ne.mpr fun hre => hbound ?_,
            fun e he => bne_iff_ne.mpr fun hre => ?_⟩
          · rw [hre]
            exact hkeys e he
          · obtain ⟨c, hc, hname⟩ := mem_keys_classTable hclassTable he
            exact hdeclared (List.mem_map.mpr ⟨c, hc, hname.trans hre.symm⟩)

/-! ## Projects -/

/-- The project of which the file at `loc` is read as `tree` becomes the one of `files`, where this
file is read as `tree'`: the same with `old` bound and written as `new`, the name of no class. -/
structure RenamedIn (p : Project) (files : FileSystem) (loc : Location) (tree tree' : Node)
    (old new : String) : Prop where
  ordinary : Ordinary old new
  edited : ∃ content content', FileSystem.EditedAt loc content content' p.files files ∧
    p.ReadsAs content tree ∧ p.ReadsAs content' tree'
  renamed : RenamedTree old new tree tree'
  unused : ∀ path s, p.load path = .ok (some s) → s.classes.lookup new = none

/-- A class of the one project and the same class of the other one. -/
structure Twin (p : Project) (loc : Location) (tree : Node) (old new : String)
    (c c' : EntityClass) : Prop where
  inside : p.files.leadsTo c.sourcePath loc = true → RenamedEntity old new tree.knownNames c c'
  outside : ¬p.files.leadsTo c.sourcePath loc = true → c' = c

variable {files : FileSystem} {loc : Location} {tree tree' : Node}

/-- A source of the one project and the one of the same path of the other one. -/
structure SourceTwin (p : Project) (loc : Location) (tree : Node) (old new : String)
    (s s' : Source) : Prop where
  inside : p.files.leadsTo s.path loc = true → RenamedSource old new tree.knownNames s s'
  outside : ¬p.files.leadsTo s.path loc = true → s' = s

theorem Twin.key_eq {c c' : EntityClass} (h : p.Twin loc tree old new c c') : c'.key = c.key := by
  by_cases hin : p.files.leadsTo c.sourcePath loc = true
  · exact (h.inside hin).key
  · rw [h.outside hin]

theorem SourceTwin.path_eq {s s' : Source} (h : p.SourceTwin loc tree old new s s') :
    s'.path = s.path := by
  by_cases hin : p.files.leadsTo s.path loc = true
  · exact (h.inside hin).path
  · rw [h.outside hin]

theorem SourceTwin.lookup {s s' : Source} (h : p.SourceTwin loc tree old new s s') (hs : s.Keyed)
    (name : String) :
    Option.Rel (p.Twin loc tree old new) (s.classes.lookup name) (s'.classes.lookup name) := by
  by_cases hin : p.files.leadsTo s.path loc = true
  · have hrel := (h.inside hin).classes.lookup name
    generalize hd : s.classes.lookup name = d at hrel
    generalize s'.classes.lookup name = d' at hrel
    cases hrel with
    | none => exact .none
    | some hrel =>
      have hpath := (hs _ (mem_of_lookup hd)).2
      exact .some ⟨fun _ => hrel, fun hout => absurd (hpath ▸ hin) hout⟩
  · rw [h.outside hin]
    cases hd : s.classes.lookup name with
    | none => exact .none
    | some d =>
      have hpath := (hs _ (mem_of_lookup hd)).2
      exact .some ⟨fun hin' => absurd (hpath ▸ hin') hin, fun _ => rfl⟩

theorem RenamedIn.sameShape (h : p.RenamedIn files loc tree tree' old new) :
    p.files.SameShape files := by
  obtain ⟨content, content', hedited, -⟩ := h.edited
  exact hedited.sameShape

theorem load_renamed (h : p.RenamedIn files loc tree tree' old new) (path : String) :
    SameOutcome (p.SourceTwin loc tree old new) (p.load path) ({ p with files }.load path) := by
  obtain ⟨content, content', hedited, htree, htree'⟩ := h.edited
  by_cases hin : p.files.leadsTo path loc = true
  · rcases load_there hedited hin htree htree' with ⟨hload, hload'⟩ | ⟨hload, hload'⟩
    · have hout := sourceOf_renamed (p := p) h.renamed path
      rw [← hload, ← hload'] at hout
      generalize hx : p.load path = x at hout
      generalize { p with files }.load path = x' at hout
      cases hout with
      | error e => exact .error e
      | missing => exact .missing
      | loaded hs =>
        have hpath := (load_keyed hx).1
        exact .loaded ⟨fun _ => hs, fun hout => absurd (hpath ▸ hin) hout⟩
    · rw [hload, hload']
      exact .error _
  · rw [load_elsewhere hedited hin]
    cases hx : p.load path with
    | error e => exact .error e
    | ok o =>
      cases o with
      | none => exact .missing
      | some s =>
        have hpath := (load_keyed hx).1
        exact .loaded ⟨fun hin' => absurd (hpath ▸ hin') hin, fun _ => rfl⟩

end Project

end DartModels
