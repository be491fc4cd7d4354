import DartModels.Proofs.LoadedSource

/-!
# Editing a file

Where paths lead, and whether they name files or directories, depends on the shape of a file system
and not on what its files hold.  So another text in one file changes what is loaded from this file,
and nothing else.

    fs.SameShape fs' → fs'.locate path = fs.locate path                         (SameShape.locate_eq)
    fs.SameShape fs' → modules are resolved to the same files              (SameShape.resolveFile_eq)
    fs.EditedAt loc fs' → a path that does not lead to `loc` has the same text  (readText_elsewhere)
-/

namespace DartModels

/-- Whether a directory stands there. -/
def Entry.isDirectory : Entry → Bool
  | .directory => true
  | .file _ => false

namespace FileSystem

variable {fs fs' : FileSystem}

/-! ## Shapes -/

/-- The same directories and files stand in both file systems, whatever the files hold. -/
structure SameShape (fs fs' : FileSystem) : Prop where
  workdir : fs'.workdir = fs.workdir
  entry : ∀ l, (fs'.lookup l).map Entry.isDirectory = (fs.lookup l).map Entry.isDirectory

theorem SameShape.walk_eq (h : fs.SameShape fs') (current : Location) (parts : List Path.Part) :
    fs'.walk current parts = fs.walk current parts := by
  fun_induction fs.walk current parts with
  | case1 current => rw [walk]
  | case2 current p rest hunnamed ih => rw [walk, if_pos hunnamed, ih]
  | case3 current rest hnamed ih => rw [walk, if_neg hnamed, if_pos rfl, ih]
  | case4 current p rest hnamed hdots hlong => rw [walk, if_neg hnamed, if_neg hdots, if_pos hlong]
  | case5 current p rest hnamed hdots hlong hlast =>
    rw [walk, if_neg hnamed, if_neg hdots, if_neg hlong, if_pos hlast]
  | case6 current p rest hnamed hdots hlong hlast hentry ih =>
    rw [walk, if_neg hnamed, if_neg hdots, if_neg hlong, if_neg hlast]
    have hkind := h.entry (current ++ [p])
    rw [hentry] at hkind
    cases hentry' : fs'.lookup (current ++ [p]) with
    | none => simp [hentry'] at hkind
    | some entry =>
      cases entry with
      | directory => exact ih
      | file => simp [hentry', Entry.isDirectory] at hkind
  | case7 current p rest hnamed hdots hlong hlast content hentry =>
    rw [walk, if_neg hnamed, if_neg hdots, if_neg hlong, if_neg hlast]
    have hkind := h.entry (current ++ [p])
    rw [hentry] at hkind
    cases hentry' : fs'.lookup (current ++ [p]) with
    | none => simp [hentry'] at hkind
    | some entry =>
      cases entry with
      | directory => simp [hentry', Entry.isDirectory] at hkind
      | file => rfl
  | case8 current p rest hnamed hdots hlong hlast hentry =>
    rw [walk, if_neg hnamed, if_neg hdots, if_neg hlong, if_neg hlast]
    have hkind := h.entry (current ++ [p])
    rw [hentry, Option.map_none, Option.map_eq_none_iff] at hkind
    rw [hkind]

theorem SameShape.locate_eq (h : fs.SameShape fs') (path : String) :
    fs'.locate path = fs.locate path := by
  unfold locate
  rw [h.workdir, h.walk_eq]

theorem SameShape.absolute_eq (h : fs.SameShape fs') (path : String) :
    fs'.absolute path = fs.absolute path := by
  unfold absolute workdirPath
  rw [h.workdir]

theorem SameShape.isFile_eq (h : fs.SameShape fs') (path : String) :
    fs'.isFile path = fs.isFile path := by
  unfold isFile stat
  rw [h.locate_eq]
  cases fs.locate path with
  | error e => rfl
  | ok l =>
    have hkind := h.entry l
    simp only [bind, Except.bind]
    cases hentry : fs.lookup l with
    | none =>
      rw [hentry, Option.map_none, Option.map_eq_none_iff] at hkind
      rw [hkind]
    | some entry =>
      cases hentry' : fs'.lookup l with
      | none => simp [hentry, hentry'] at hkind
      | some entry' =>
        rw [hentry, hentry', Option.map_some, Option.map_some, Option.some_inj] at hkind
        cases entry <;> cases entry' <;> first | rfl | cases hkind

theorem SameShape.resolveFile_eq (h : fs.SameShape fs') (m : Modules) (specifier : String)
    (base : Option String) : m.resolveFile fs' specifier base = m.resolveFile fs specifier base := by
  unfold Modules.resolveFile
  simp only [h.isFile_eq]

/-! ## One file -/

/-- Another content in the file at one location. -/
structure EditedAt (loc : Location) (content content' : List UInt8) (fs fs' : FileSystem) :
    Prop where
  workdir : fs'.workdir = fs.workdir
  before : fs.lookup loc = some (.file content)
  after : fs'.lookup loc = some (.file content')
  elsewhere : ∀ l, l ≠ loc → fs'.lookup l = fs.lookup l

variable {loc : Location} {content content' : List UInt8}

theorem EditedAt.sameShape (h : EditedAt loc content content' fs fs') : fs.SameShape fs' := by
  refine ⟨h.workdir, fun l => ?_⟩
  by_cases hl : l = loc
  · rw [hl, h.before, h.after]
    rfl
  · rw [h.elsewhere l hl]

/-- A path leads to a location. -/
def leadsTo (fs : FileSystem) (path : String) (loc : Location) : Bool :=
  match fs.locate path with
  | .ok l => l == loc
  | .error _ => false

theorem leadsTo_iff {path : String} : fs.leadsTo path loc = true ↔ fs.locate path = .ok loc := by
  unfold leadsTo
  cases fs.locate path <;> simp

theorem EditedAt.readFile_elsewhere (h : EditedAt loc content content' fs fs') {path : String}
    (hpath : ¬fs.leadsTo path loc = true) : fs'.readFile path = fs.readFile path := by
  have hstat : fs'.stat path = fs.stat path := by
    unfold stat
    rw [h.sameShape.locate_eq]
    cases hl : fs.locate path with
    | error e => rfl
    | ok l =>
      have hne : l ≠ loc := fun he => hpath (leadsTo_iff.mpr (he ▸ hl))
      simp only [bind, Except.bind, h.elsewhere l hne]
  unfold readFile
  rw [hstat]

/-- A path to the file is read in both file systems, or it holds a NUL and is read in neither. -/
theorem EditedAt.readFile_there (h : EditedAt loc content content' fs fs') {path : String}
    (hpath : fs.leadsTo path loc = true) :
    (fs.readFile path = .ok content ∧ fs'.readFile path = .ok content') ∨
      (fs.readFile path = .error .nulInPath ∧ fs'.readFile path = .error .nulInPath) := by
  have hl := leadsTo_iff.mp hpath
  unfold readFile
  by_cases hnul : hasNul path
  · rw [if_pos hnul, if_pos hnul]
    exact Or.inr ⟨rfl, rfl⟩
  · rw [if_neg hnul, if_neg hnul]
    have hstat : fs.stat path = .ok (.file content) := by
      simp only [stat, hl, bind, Except.bind, h.before]
      rfl
    have hstat' : fs'.stat path = .ok (.file content') := by
      simp only [stat, h.sameShape.locate_eq, hl, bind, Except.bind, h.after]
      rfl
    rw [hstat, hstat']
    exact Or.inl ⟨rfl, rfl⟩

/-- What a file holds that is read. -/
theorem exists_mem_of_readFile {path : String} {content : List UInt8}
    (h : fs.readFile path = .ok content) : ∃ loc, (loc, .file content) ∈ fs.entries := by
  unfold readFile at h
  split at h
  · cases h
  · split at h
    · next hstat =>
      cases h
      obtain ⟨loc, -, hlook⟩ := stat_eq_ok hstat
      exact ⟨loc, mem_of_lookup_file hlook⟩
    · cases h
    · cases h

end FileSystem

namespace Project

variable {p : Project} {files : FileSystem} {loc : Location} {content content' : List UInt8}

theorem importTable_edited (h : p.files.SameShape files) (tree : Syntax.Node) (dir : String) :
    { p with files }.importTable tree dir = p.importTable tree dir := by
  unfold importTable
  simp only [h.resolveFile_eq]

theorem load_elsewhere (h : FileSystem.EditedAt loc content content' p.files files) {path : String}
    (hpath : ¬p.files.leadsTo path loc = true) : { p with files }.load path = p.load path := by
  have htext : { p with files }.readText path = p.readText path := by
    unfold readText
    rw [h.readFile_elsewhere hpath]
  unfold load
  rw [htext]
  simp only [importTable_edited h.sameShape]
  rfl

/-- A content is read as a syntax tree. -/
def ReadsAs (p : Project) (content : List UInt8) (tree : Syntax.Node) : Prop :=
  ∃ text, Utf8.decode content = .ok text ∧ tree = p.reader.read (Utf8.universalLines text)

/-- The source of a tree. -/
def sourceOf (p : Project) (path : String) (tree : Syntax.Node) : LoadOutcome := do
  let imports ← p.importTable tree (Path.dirname path)
  return some ⟨path, imports, ← p.classTable path tree⟩

theorem load_of_readFile {path : String} {tree : Syntax.Node}
    (hfile : p.files.readFile path = .ok content) (htree : p.ReadsAs content tree) :
    p.load path = p.sourceOf path tree := by
  obtain ⟨text, htext, rfl⟩ := htree
  have hread : p.readText path = .ok (some (Utf8.universalLines text)) := by
    simp only [readText, hfile, htext]
  unfold load
  rw [hread]
  rfl

theorem load_there (h : FileSystem.EditedAt loc content content' p.files files) {path : String}
    (hpath : p.files.leadsTo path loc = true) {tree tree' : Syntax.Node}
    (htree : p.ReadsAs content tree) (htree' : p.ReadsAs content' tree') :
    (p.load path = p.sourceOf path tree ∧ { p with files }.load path = p.sourceOf path tree') ∨
      (p.load path = .error .nulInPath ∧ { p with files }.load path = .error .nulInPath) := by
  rcases h.readFile_there hpath with ⟨hfile, hfile'⟩ | ⟨hnul, hnul'⟩
  · refine Or.inl ⟨load_of_readFile hfile htree, ?_⟩
    rw [load_of_readFile (p := { p with files }) hfile' htree']
    unfold sourceOf
    rw [importTable_edited h.sameShape]
    rfl
  · refine Or.inr ⟨?_, ?_⟩
    · simp only [load, readText, hnul]
      rfl
    · simp only [load, readText, hnul']
      rfl

theorem exists_readsAs {path : String} {s : Source} (h : p.load path = .ok (some s)) :
    ∃ content tree, p.files.readFile path = .ok content ∧ p.ReadsAs content tree ∧
      p.classTable path tree = .ok s.classes := by
  obtain ⟨text, htext, -, -, hclasses⟩ := load_eq_ok h
  unfold readText at htext
  cases hfile : p.files.readFile path with
  | error e =>
    rw [hfile] at htext
    cases e <;> cases htext
  | ok content =>
    rw [hfile] at htext
    dsimp only at htext
    cases hdecode : Utf8.decode content with
    | error e =>
      rw [hdecode] at htext
      cases htext
    | ok chars =>
      rw [hdecode] at htext
      cases htext
      exact ⟨content, _, rfl, ⟨chars, hdecode, rfl⟩, hclasses⟩

theorem ReadsAs.unique {tree tree' : Syntax.Node} (h : p.ReadsAs content tree)
    (h' : p.ReadsAs content tree') : tree' = tree := by
  obtain ⟨text, htext, rfl⟩ := h
  obtain ⟨text', htext', rfl⟩ := h'
  rw [Except.ok.inj (htext'.symm.trans htext)]

end Project

end DartModels
