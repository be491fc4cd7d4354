import DartModels.Ancestry
import DartModels.Proofs.NormalPath
import DartModels.Proofs.SourceView

/-!
# What a loaded source holds

A source that was loaded under a path lists its classes by their own names, each with that path as
its file, and no more of them than the reader says beforehand.  A file has two absolute paths, one
for each number of root slashes.

    p.load key = .ok (some s) → s.path = key ∧ s.Keyed                              (load_keyed)
    p.load key = .ok (some s) → s.classes.length ≤ size of the file at key       (length_classes)
    fs.absolute (fs.absolute path) = fs.absolute path                        (absolute_absolute)
-/

namespace DartModels

/-! ## Tables -/

theorem length_setEntry {α : Type} (name : String) (value : α) (table : List (String × α)) :
    (setEntry name value table).length ≤ table.length + 1 := by
  induction table with
  | nil => exact Nat.le_refl _
  | cons entry table ih =>
    obtain ⟨k, v⟩ := entry
    rw [setEntry]
    split
    · simp
    · simpa using ih

theorem mem_setEntry {α : Type} {name : String} {value : α} {table : List (String × α)}
    {entry : String × α} (h : entry ∈ setEntry name value table) :
    entry = (name, value) ∨ entry ∈ table := by
  induction table with
  | nil => exact Or.inl (List.mem_singleton.mp h)
  | cons first table ih =>
    obtain ⟨k, v⟩ := first
    rw [setEntry] at h
    split at h
    · next hk =>
      rcases List.mem_cons.mp h with h | h
      · exact Or.inl (by rw [h, hk])
      · exact Or.inr (List.mem_cons_of_mem _ h)
    · rcases List.mem_cons.mp h with h | h
      · exact Or.inr (h ▸ List.mem_cons_self)
      · rcases ih h with h | h
        · exact Or.inl h
        · exact Or.inr (List.mem_cons_of_mem _ h)

theorem nodup_setEntry {α : Type} (name : String) (value : α) {table : List (String × α)}
    (h : (table.map Prod.fst).Nodup) : ((setEntry name value table).map Prod.fst).Nodup := by
  induction table with
  | nil => exact List.nodup_cons.mpr ⟨List.not_mem_nil, List.nodup_nil⟩
  | cons entry table ih =>
    obtain ⟨k, v⟩ := entry
    rw [List.map_cons, List.nodup_cons] at h
    rw [setEntry]
    split
    · exact List.nodup_cons.mpr h
    · next hk =>
      rw [List.map_cons]
      refine List.nodup_cons.mpr ⟨fun hmem => ?_, ih h.2⟩
      obtain ⟨e, he, hek⟩ := List.mem_map.mp hmem
      rcases mem_setEntry he with rfl | he
      · exact hk hek.symm
      · exact h.1 (List.mem_map.mpr ⟨e, he, hek⟩)

theorem lookup_setEntry {α : Type} (name other : String) (value : α) (table : List (String × α)) :
    (setEntry name value table).lookup other =
      if other = name then some value else table.lookup other := by
  induction table with
  | nil =>
    rw [setEntry, List.lookup_cons]
    by_cases hname : other = name
    · rw [if_pos hname, beq_iff_eq.mpr hname]
    · rw [if_neg hname, beq_false_of_ne hname]
  | cons entry table ih =>
    obtain ⟨k, v⟩ := entry
    rw [setEntry]
    by_cases hk : k = name
    · rw [if_pos hk, List.lookup_cons, List.lookup_cons, hk]
      by_cases hname : other = name
      · rw [if_pos hname, beq_iff_eq.mpr hname]
      · rw [if_neg hname, beq_false_of_ne hname]
    · rw [if_neg hk, List.lookup_cons, List.lookup_cons]
      by_cases hother : other = k
      · rw [beq_iff_eq.mpr hother, if_neg (hother ▸ hk)]
      · rw [beq_false_of_ne hother, ih]

theorem lookup_of_mem {α : Type} {name : String} {value : α} {table : List (String × α)}
    (hnodup : (table.map Prod.fst).Nodup) (h : (name, value) ∈ table) :
    table.lookup name = some value := by
  induction table with
  | nil => cases h
  | cons entry table ih =>
    obtain ⟨k, v⟩ := entry
    rw [List.map_cons, List.nodup_cons] at hnodup
    rw [List.lookup_cons]
    rcases List.mem_cons.mp h with h | h
    · cases h
      rw [beq_self_eq_true]
    · have hne : (name == k) = false := by
        refine beq_false_of_ne fun hname => hnodup.1 (List.mem_map.mpr ⟨(name, value), h, hname⟩)
      rw [hne]
      exact ih hnodup.2 h

theorem mem_of_lookup {α : Type} {name : String} {value : α} {table : List (String × α)}
    (h : table.lookup name = some value) : (name, value) ∈ table := by
  induction table with
  | nil => cases h
  | cons entry table ih =>
    obtain ⟨k, v⟩ := entry
    rw [List.lookup_cons] at h
    split at h
    · next hk =>
      cases h
      rw [beq_iff_eq] at hk
      rw [hk]
      exact List.mem_cons_self
    · exact List.mem_cons_of_mem _ (ih h)

/-- Classes listed by their own names, all of the file of the source. -/
def Source.Keyed (s : Source) : Prop :=
  ∀ entry ∈ s.classes, entry.2.name = entry.1 ∧ entry.2.sourcePath = s.path

/-! ## Absolute paths -/

namespace FileSystem

variable (fs : FileSystem)

theorem isRooted_workdirPath : Path.isRooted fs.workdirPath.toList = true := by
  simp [workdirPath, Path.isRooted]

/-- An absolute path has one or two root slashes and plain components. -/
theorem exists_rooted_absolute (path : String) :
    ∃ root parts, (root = 1 ∨ root = 2) ∧ (∀ q ∈ parts, Path.Plain q) ∧
      fs.absolute path = String.ofList (Path.rooted root parts) :=
  Path.exists_rooted_normalize (Path.isRooted_join fs.isRooted_workdirPath path)

theorem absolute_absolute (path : String) : fs.absolute (fs.absolute path) = fs.absolute path := by
  obtain ⟨root, parts, hr, h, e⟩ := fs.exists_rooted_absolute path
  rw [e, absolute, Path.absolute_rooted _ hr h]

theorem walk_plain {fs : FileSystem} {parts : List Path.Part} (h : ∀ q ∈ parts, Path.Plain q)
    {current loc : Location} (hw : fs.walk current parts = .ok loc) : loc = current ++ parts := by
  induction parts generalizing current with
  | nil =>
    cases hw
    simp
  | cons q parts ih =>
    have hq := h q List.mem_cons_self
    rw [walk] at hw
    simp only [hq.named, Bool.not_true, Bool.false_eq_true, if_false, hq.ne_dotDot] at hw
    split at hw
    · cases hw
    · split at hw
      · next hnil =>
        cases hw
        rw [List.isEmpty_iff.mp hnil]
      · split at hw
        · have := ih (fun s hs => h s (List.mem_cons_of_mem _ hs)) hw
          rw [this, List.append_assoc, List.singleton_append]
        · cases hw
        · cases hw

/-- The root slashes of a path are walked over. -/
theorem walk_root (fs : FileSystem) (current : Location) (root : Nat) (parts : List Path.Part) :
    fs.walk current (List.replicate root [] ++ parts) = fs.walk current parts := by
  induction root with
  | zero => rfl
  | succ root ih => exact ih

/-- An absolute path leads to the location that its components are, if it leads anywhere. -/
theorem locate_rooted {fs : FileSystem} {root : Nat} (hr : root = 1 ∨ root = 2)
    {parts : List Path.Part} (h : ∀ q ∈ parts, Path.Plain q) {loc : Location}
    (hl : fs.locate (String.ofList (Path.rooted root parts)) = .ok loc) : loc = parts := by
  have hrooted : Path.isRooted (Path.rooted root parts) = true := by
    rcases hr with rfl | rfl <;> rfl
  unfold locate at hl
  split at hl
  · cases hl
  · split at hl
    · cases hl
    · rw [String.toList_ofList, if_pos hrooted, Path.splitSlash_rooted, walk_root] at hl
      cases parts with
      | nil =>
        cases hl
        rfl
      | cons q qs =>
        rw [Path.splitSlash_joinSlash (List.cons_ne_nil _ _) fun s hs => (h s hs).noSlash] at hl
        exact walk_plain h hl

theorem stat_eq_ok {fs : FileSystem} {path : String} {entry : Entry}
    (h : fs.stat path = .ok entry) :
    ∃ loc, fs.locate path = .ok loc ∧ fs.lookup loc = some entry := by
  unfold stat at h
  cases hl : fs.locate path with
  | error e =>
    rw [hl] at h
    cases h
  | ok loc =>
    rw [hl] at h
    refine ⟨loc, rfl, ?_⟩
    cases he : fs.lookup loc with
    | none =>
      simp only [bind, Except.bind, he] at h
      cases h
    | some found =>
      simp only [bind, Except.bind, he] at h
      cases h
      rfl

theorem mem_of_find {loc : Location} {entry : Entry} {es : List (Location × Entry)}
    (h : find loc es = some entry) : (loc, entry) ∈ es := by
  induction es with
  | nil => cases h
  | cons e es ih =>
    obtain ⟨l, e'⟩ := e
    rw [find] at h
    split at h
    · next hl =>
      cases h
      rw [hl]
      exact List.mem_cons_self
    · exact List.mem_cons_of_mem _ (ih h)

theorem mem_of_lookup_file {fs : FileSystem} {loc : Location} {content : List UInt8}
    (h : fs.lookup loc = some (.file content)) : (loc, .file content) ∈ fs.entries := by
  unfold lookup at h
  split at h
  · cases h
  · exact mem_of_find h

end FileSystem

/-! ## Loading -/

namespace Project

variable {p : Project}

theorem mem_nameTable {classes : List EntityClass} {entry : String × EntityClass}
    (h : entry ∈ nameTable classes) : entry.2 ∈ classes ∧ entry.1 = entry.2.name := by
  refine List.foldlRecOn
    (motive := fun table => entry ∈ table → entry.2 ∈ classes ∧ entry.1 = entry.2.name)
    classes _ List.not_mem_nil.elim ?_ h
  rintro table ih c hc he
  rcases mem_setEntry he with rfl | he
  · exact ⟨hc, rfl⟩
  · exact ih he

theorem nodup_nameTable (classes : List EntityClass) :
    ((nameTable classes).map Prod.fst).Nodup := by
  refine List.foldlRecOn
    (motive := fun table : List (String × EntityClass) => (table.map Prod.fst).Nodup)
    classes _ List.nodup_nil ?_
  intro table ih c _
  exact nodup_setEntry _ _ ih

theorem length_nameTable (classes : List EntityClass) :
    (nameTable classes).length ≤ classes.length := by
  have key : ∀ (found : List EntityClass) (table : List (String × EntityClass)),
      (found.foldl (fun t c => setEntry c.name c t) table).length ≤ table.length + found.length := by
    intro found
    induction found with
    | nil => exact fun _ => Nat.le_refl _
    | cons c found ih =>
      intro table
      have hc := length_setEntry c.name c table
      refine Nat.le_trans (ih (setEntry c.name c table)) ?_
      rw [List.length_cons]
      omega
  have h := key classes []
  rwa [List.length_nil, Nat.zero_add] at h

theorem entityClass_eq_ok {path : String} {cls : Syntax.Node} {around : Syntax.Surroundings}
    {c : EntityClass} (h : p.entityClass path cls around = .ok c) :
    cls.heritageNames = .ok (c.bases, c.interfaces) ∧ c.key = (path, cls.className) ∧
      c.declaration = some cls ∧ c.decorators = cls.decoratorNames around ∧
      c.isEntity = p.rule.approves c.decorators c.bases c.interfaces := by
  obtain ⟨⟨bases, interfaces⟩, hnames, h⟩ := exists_of_bind_eq_ok h
  cases h
  exact ⟨hnames, rfl, rfl, rfl, rfl⟩

section

variable {path : String} {tree : Syntax.Node} {table : List (String × EntityClass)}

/-- The classes of a table are declared in the tree. -/
theorem exists_of_mem_classTable (h : p.classTable path tree = .ok table)
    {entry : String × EntityClass} (he : entry ∈ table) :
    entry.1 = entry.2.name ∧ ∃ declared ∈ tree.classes,
      p.entityClass path declared.1 declared.2 = .ok entry.2 := by
  obtain ⟨classes, hclasses, h⟩ := exists_of_bind_eq_ok h
  cases h
  obtain ⟨hmem, hname⟩ := mem_nameTable he
  exact ⟨hname, (mem_of_mapM_eq_ok hclasses).mp hmem⟩

theorem mem_classTable (h : p.classTable path tree = .ok table) {entry : String × EntityClass}
    (he : entry ∈ table) : entry.2.name = entry.1 ∧ entry.2.sourcePath = path := by
  obtain ⟨hname, declared, -, hclass⟩ := exists_of_mem_classTable h he
  exact ⟨hname.symm, congrArg Prod.fst (entityClass_eq_ok hclass).2.1⟩

theorem nodup_classTable (h : p.classTable path tree = .ok table) :
    (table.map Prod.fst).Nodup := by
  obtain ⟨classes, -, h⟩ := exists_of_bind_eq_ok h
  cases h
  exact nodup_nameTable classes

theorem length_classTable (h : p.classTable path tree = .ok table) :
    table.length ≤ tree.classes.length := by
  obtain ⟨classes, hclasses, h⟩ := exists_of_bind_eq_ok h
  cases h
  exact Nat.le_trans (length_nameTable classes) (Nat.le_of_eq (length_of_mapM_eq_ok hclasses))

end

theorem load_eq_ok {key : String} {s : Source} (h : p.load key = .ok (some s)) :
    ∃ text, p.readText key = .ok (some text) ∧ s.path = key ∧
      p.importTable (p.reader.read text) (Path.dirname key) = .ok s.imports ∧
      p.classTable key (p.reader.read text) = .ok s.classes := by
  obtain ⟨text, htext, h⟩ := exists_of_bind_eq_ok h
  cases text with
  | none => cases h
  | some text =>
    obtain ⟨imports, himports, h⟩ := exists_of_bind_eq_ok h
    obtain ⟨classes, hclasses, h⟩ := exists_of_bind_eq_ok h
    cases h
    exact ⟨text, htext, rfl, himports, hclasses⟩

theorem load_keyed {key : String} {s : Source} (h : p.load key = .ok (some s)) :
    s.path = key ∧ s.Keyed := by
  obtain ⟨text, -, hp, -, hc⟩ := load_eq_ok h
  refine ⟨hp, fun entry he => ?_⟩
  rw [hp]
  exact mem_classTable hc he

theorem readText_eq_ok {path : String} {text : List Char}
    (h : p.readText path = .ok (some text)) :
    ∃ content cs, p.files.stat path = .ok (.file content) ∧ Utf8.decode content = .ok cs ∧
      text = Utf8.universalLines cs := by
  unfold readText at h
  cases hf : p.files.readFile path with
  | error e =>
    rw [hf] at h
    cases e <;> cases h
  | ok bytes =>
    rw [hf] at h
    dsimp only at h
    cases hd : Utf8.decode bytes with
    | error e =>
      rw [hd] at h
      cases h
    | ok cs =>
      rw [hd] at h
      cases h
      refine ⟨bytes, cs, ?_, hd, rfl⟩
      unfold FileSystem.readFile at hf
      split at hf
      · cases hf
      · split at hf
        · next hs =>
          cases hf
          exact hs
        · cases hf
        · cases hf

/-- A source has no more classes than its file is bound to have. -/
theorem length_classes {key : String} {s : Source} (h : p.load key = .ok (some s)) :
    ∃ content, p.files.stat key = .ok (.file content) ∧
      s.classes.length ≤ p.entrySize (.file content) := by
  obtain ⟨text, hr, -, -, hc⟩ := load_eq_ok h
  obtain ⟨content, cs, hs, hd, rfl⟩ := readText_eq_ok hr
  refine ⟨content, hs, Nat.le_trans (length_classTable hc) ?_⟩
  have hsize : p.entrySize (.file content) = p.reader.classBound (Utf8.universalLines cs) := by
    simp only [entrySize, hd]
  rw [hsize]
  exact p.reader.length_classes_le _

end Project

end DartModels
