import DartModels.Proofs.KeptSources

/-!
# Paths of modules

Sources are kept under absolute paths.  A specifier resolves to such a path: a suffix after a
normalised path lengthens its last component, or is the only one below the root, so it brings in no
empty component and no dots.  Imports and classes therefore name sources by the paths they are kept
under, and the key of a class holds no other spelling of its path.

    what is absolute in one tree is in all                                               (isKey_iff)
    resolve, resolveFile = .ok file, and file is absolute             (resolve_key, resolveFile_key)
    the imports of a source are absolute                                               (imports_key)
    classes have one key ↔ they are of one source and have one name               (module_paths_key)
-/

namespace DartModels

/-! ## Absolute paths -/

/-- A path under which a source can be kept: it is its own absolute path in every tree. -/
def IsKey (path : String) : Prop := ∀ fs : FileSystem, fs.absolute path = path

namespace Path

variable {root : Nat} {parts : List Part} {e : List Char}

theorem isKey_rooted (hr : root = 1 ∨ root = 2) (hparts : ∀ q ∈ parts, Plain q) :
    IsKey (String.ofList (rooted root parts)) := fun _ => absolute_rooted _ hr hparts

/-- A path and a name after it. -/
theorem exists_rooted_append_plain (he : Plain e) (hparts : ∀ q ∈ parts, Plain q) :
    ∃ parts', (∀ q ∈ parts', Plain q) ∧ rooted root parts ++ e = rooted root parts' := by
  cases parts using List.reverseRecOn with
  | nil =>
    refine ⟨[e], List.forall_mem_singleton.mpr he, ?_⟩
    unfold rooted
    rw [List.append_assoc]
    rfl
  | append_singleton init q =>
    refine ⟨init ++ [q ++ e], List.forall_mem_append.mpr ⟨?_, ?_⟩, ?_⟩
    · exact fun r hr => hparts r (List.mem_append_left _ hr)
    · exact List.forall_mem_singleton.mpr (plain_append (hparts q (by simp)) he.noSlash)
    · unfold rooted
      rw [List.append_assoc]
      exact congrArg _ (joinSlash_append_text init [] q e)

theorem isKey_rooted_append {suffix : String} (hsuffix : Plain suffix.toList)
    (hr : root = 1 ∨ root = 2) (hparts : ∀ q ∈ parts, Plain q) :
    IsKey (String.ofList (rooted root parts) ++ suffix) := by
  obtain ⟨parts', hparts', htext⟩ :
      ∃ parts', (∀ q ∈ parts', Plain q) ∧
        rooted root parts ++ suffix.toList = rooted root parts' :=
    exists_rooted_append_plain hsuffix hparts
  have hpath : String.ofList (rooted root parts) ++ suffix = String.ofList (rooted root parts') := by
    rw [← htext, String.ofList_append, String.ofList_toList]
  rw [hpath]
  exact isKey_rooted hr hparts'

/-- A text without slashes that has more than dots in it is a name. -/
theorem plain_of_not_dots (hslash : '/' ∉ e) (hname : ∃ c ∈ e, c ≠ '.') : Plain e := by
  obtain ⟨c, hc, hne⟩ := hname
  have hdots : ∀ q : Part, (∀ d ∈ q, d = '.') → e ≠ q := by
    rintro q hq rfl
    exact hne (hq c hc)
  have hempty : e ≠ [] := List.ne_nil_of_mem hc
  refine ⟨⟨?_, hslash⟩, hdots dotDot (by simp [dotDot])⟩
  unfold isNamed
  rw [Bool.and_eq_true, Bool.not_eq_true', List.isEmpty_eq_false_iff, bne_iff_ne]
  exact ⟨hempty, hdots dot (by simp [dot])⟩

end Path

/-- The working directory plays no part in a path that is absolute already. -/
theorem isKey_iff (fs : FileSystem) {path : String} : IsKey path ↔ fs.absolute path = path := by
  refine ⟨fun h => h fs, fun h => ?_⟩
  obtain ⟨root, parts, hr, hparts, habsolute⟩ := fs.exists_rooted_absolute path
  rw [← h, habsolute]
  exact Path.isKey_rooted hr hparts

namespace Project

variable {p : Project} {dir top suffix : String}

/-! ## Specifiers -/

theorem resolve_key (hp : p.Typed dir top suffix) (hdir : Path.isRooted dir.toList = true)
    (htop : Path.isRooted top.toList = true) (specifier : String) {base : Option String}
    (hbase : ∀ b, base = some b → Path.isRooted b.toList = true) :
    ∃ path, p.modules.resolve specifier base = .ok path ∧ IsKey path := by
  obtain ⟨path, hpath⟩ := resolve_ok hp specifier base
  obtain ⟨root, parts, hr, hparts, rfl⟩ := resolve_rooted hp hdir htop hbase hpath
  exact ⟨_, hpath, Path.isKey_rooted hr hparts⟩

/-- The suffix is put after a path, or after the index file of a directory. -/
theorem resolveFile_key (hp : p.Typed dir top suffix) (hdir : Path.isRooted dir.toList = true)
    (htop : Path.isRooted top.toList = true) (hsuffix : Path.Plain suffix.toList)
    (files : FileSystem) (specifier : String) {base : Option String}
    (hbase : ∀ b, base = some b → Path.isRooted b.toList = true) :
    ∃ file, p.modules.resolveFile files specifier base = .ok file ∧ IsKey file := by
  obtain ⟨path, hpath⟩ := resolve_ok hp specifier base
  obtain ⟨root, parts, hr, hparts, rfl⟩ := resolve_rooted hp hdir htop hbase hpath
  have hfile := Path.isKey_rooted_append hsuffix hr hparts
  obtain ⟨hindexParts, hindex⟩ := join_index suffix hr hparts
  unfold Modules.resolveFile
  rw [hpath, hp.suffix, ok_bind]
  dsimp only
  split
  · exact ⟨_, rfl, Path.isKey_rooted hr hparts⟩
  · split
    · exact ⟨_, rfl, hfile⟩
    · refine ⟨_, rfl, ?_⟩
      split
      · rw [hindex]
        exact Path.isKey_rooted_append hsuffix hr hindexParts
      · exact hfile

/-! ## Sources -/

/-- The imports of a source start from its directory, which is absolute as the path of the source. -/
theorem imports_key (hp : p.Typed dir top suffix) (hdir : Path.isRooted dir.toList = true)
    (htop : Path.isRooted top.toList = true) (hsuffix : Path.Plain suffix.toList) {path : String}
    {s : Source} (h : p.load (p.files.absolute path) = .ok (some s)) :
    ∀ entry ∈ s.imports, IsKey entry.2 := by
  obtain ⟨text, -, -, himports, -⟩ := load_eq_ok h
  obtain ⟨root, parts, hr, -, hpath⟩ := p.files.exists_rooted_absolute path
  have hrooted : Path.isRooted (p.files.absolute path).toList = true := by
    rw [hpath, String.toList_ofList]
    exact Path.isRooted_rooted (by omega) parts
  have hbase : ∀ b, some (Path.dirname (p.files.absolute path)) = some b →
      Path.isRooted b.toList = true := by
    intro b hb
    rw [← Option.some.inj hb]
    exact Path.isRooted_dirname hrooted
  intro entry hentry
  obtain ⟨specifier, hfile⟩ := exists_of_mem_importTable himports entry hentry
  obtain ⟨file, hresolve, hkey⟩ := resolveFile_key hp hdir htop hsuffix p.files specifier hbase
  rw [hfile, Except.ok.injEq] at hresolve
  rw [hresolve]
  exact hkey

theorem importSource_session (path : String) (ops : List Operation) :
    (p.importSource path).result (p.session ops) = p.load (p.files.absolute path) := by
  rw [importSource_result, shown_session, shown_nil]

/-- A class of a source has the key that the source is kept under, with its own name. -/
theorem key_of_mem_classes {path : String} {s : Source}
    (h : p.load (p.files.absolute path) = .ok (some s)) {entry : String × EntityClass}
    (hentry : entry ∈ s.classes) : entry.2.key = (p.files.absolute path, entry.1) := by
  obtain ⟨hpath, hkeyed⟩ := load_keyed h
  obtain ⟨hname, hsource⟩ := hkeyed entry hentry
  exact Prod.ext (hsource.trans hpath) hname

/-- Where the source directory and the root are absolute and the suffix has no slash and more than dots,
every specifier resolves to an absolute path, with any aliases and any files.  So do the imports and
the classes of every source that a session gives, and two classes have one key exactly if they are
kept under one path and have one name. -/
theorem module_paths_key (hp : p.Typed dir top suffix) (hdir : Path.isRooted dir.toList = true)
    (htop : Path.isRooted top.toList = true) (hslash : '/' ∉ suffix.toList)
    (hname : ∃ c ∈ suffix.toList, c ≠ '.') :
    (∀ specifier base, (∀ b, base = some b → Path.isRooted b.toList = true) →
      (∃ path, p.modules.resolve specifier base = .ok path ∧ IsKey path) ∧
      ∀ files, ∃ file, p.modules.resolveFile files specifier base = .ok file ∧ IsKey file) ∧
    ∀ ops path s, (p.importSource path).result (p.session ops) = .ok (some s) →
      (∀ entry ∈ s.imports, IsKey entry.2) ∧
      (∀ entry ∈ s.classes, IsKey entry.2.sourcePath) ∧
      ∀ path' s', (p.importSource path').result (p.session ops) = .ok (some s') →
        ∀ entry ∈ s.classes, ∀ entry' ∈ s'.classes, (entry.2.key = entry'.2.key ↔
          p.files.absolute path = p.files.absolute path' ∧ entry.1 = entry'.1) := by
  have hsuffix := Path.plain_of_not_dots hslash hname
  refine ⟨fun specifier base hbase => ⟨resolve_key hp hdir htop specifier hbase, fun files =>
    resolveFile_key hp hdir htop hsuffix files specifier hbase⟩, fun ops path s hs => ?_⟩
  rw [importSource_session] at hs
  refine ⟨imports_key hp hdir htop hsuffix hs, fun entry hentry => ?_,
    fun path' s' hs' entry hentry entry' hentry' => ?_⟩
  · have hkey := congrArg Prod.fst (key_of_mem_classes hs hentry)
    rw [show entry.2.sourcePath = p.files.absolute path from hkey, isKey_iff p.files]
    exact p.files.absolute_absolute path
  · rw [importSource_session] at hs'
    rw [key_of_mem_classes hs hentry, key_of_mem_classes hs' hentry', Prod.mk.injEq]

/-! ## An alias -/

/-- The tree of an orphan with an alias that climbs above the root. -/
def climbing : Project :=
  { orphan with modules := ⟨⟨[("/b", "../l//./../b")]⟩, .str "/", .str "//", .str ".ts"⟩ }

theorem resolve_climbing : climbing.modules.resolve "/b" (some "/") = .ok "/b" := by
  have h : climbing.modules.aliases.substitute "/b".toList = (true, "../l//./../b".toList) := by cbv
  unfold Modules.resolve
  rw [h]
  dsimp only
  rw [if_neg (by decide), if_pos (by decide)]
  cbv

theorem resolveFile_climbing :
    climbing.modules.resolveFile climbing.files "/b" (some "/") = .ok "/b.ts" := by
  have hsuffix : ("/b".endsWith ".ts") = false := by cbv
  have hfile : climbing.files.isFile ("/b" ++ ".ts") = false := by cbv
  have hindex : climbing.files.isFile (Path.join "/b" ("index" ++ ".ts")) = false := by cbv
  unfold Modules.resolveFile
  rw [resolve_climbing, ok_bind]
  show (if "/b".endsWith ".ts" = true then Except.ok "/b" else if _ = true then _ else _) = _
  rw [hsuffix, if_neg Bool.false_ne_true, hfile, if_neg Bool.false_ne_true]
  dsimp only
  rw [hindex]
  rfl

theorem importTable_climbing :
    climbing.importTable (Syntax.ModuleReader.read orphanText.toList) (Path.dirname "/a.ts") =
      .ok [("B", "/b.ts")] := by
  have hdir : Path.dirname "/a.ts" = "/" := by decide
  unfold importTable
  rw [imports_orphan, hdir, List.foldlM_cons]
  dsimp only
  rw [resolveFile_climbing, ok_bind]
  rfl

theorem readText_climbing : climbing.readText "/a.ts" = .ok (some orphanText.toList) := by
  cbv

theorem classNames_climbing :
    (climbing.classTable "/a.ts" (Syntax.ModuleReader.read orphanText.toList)).map
      (fun table => table.map (·.1)) = .ok ["A"] := by
  cbv

theorem load_climbing :
    ∃ c, climbing.load "/a.ts" = .ok (some ⟨"/a.ts", [("B", "/b.ts")], [("A", c)]⟩) := by
  obtain ⟨table, htable, hnames⟩ := exists_of_mapped_eq_ok classNames_climbing
  obtain ⟨⟨_, c⟩, rfl, rfl⟩ := List.map_eq_singleton_iff.mp hnames
  refine ⟨c, ?_⟩
  unfold load
  rw [readText_climbing, ok_bind]
  show (climbing.importTable (Syntax.ModuleReader.read orphanText.toList) _ >>= _) = _
  rw [importTable_climbing, ok_bind]
  show (climbing.classTable _ (Syntax.ModuleReader.read orphanText.toList) >>= _) = _
  rw [htable]
  rfl

/-- The alias leads above the root, and the import to a file beside the source.  The source is kept
twice if it is asked for with one root slash and with two. -/
theorem module_paths_climbing :
    (∃ path, climbing.modules.resolve "pkg" none = .ok path ∧ IsKey path) ∧
    ∃ c, (climbing.importSource "./a.ts").result (climbing.session [.parseFile "a.ts"]) =
        .ok (some ⟨"/a.ts", [("B", "/b.ts")], [("A", c)]⟩) ∧
      IsKey "/b.ts" ∧ IsKey c.sourcePath ∧
      ∀ s', (climbing.importSource "//../a.ts").result (climbing.session [.parseFile "a.ts"]) =
          .ok (some s') → ∀ entry ∈ s'.classes, c.key ≠ entry.2.key := by
  have hp : climbing.Typed "/" "//" ".ts" := ⟨rfl, rfl, rfl, rfl⟩
  have hname : ∃ c ∈ ".ts".toList, c ≠ '.' := ⟨'t', by decide, by decide⟩
  obtain ⟨hresolve, hsource⟩ :=
    module_paths_key hp (by decide) (by decide) (by decide) hname
  have hone : climbing.files.absolute "./a.ts" = "/a.ts" := by cbv
  have htwo : climbing.files.absolute "//../a.ts" = "//a.ts" := by cbv
  obtain ⟨c, hload⟩ := load_climbing
  have hresult : (climbing.importSource "./a.ts").result (climbing.session [.parseFile "a.ts"]) =
      .ok (some ⟨"/a.ts", [("B", "/b.ts")], [("A", c)]⟩) := by
    rw [importSource_session, hone]
    exact hload
  obtain ⟨himports, hclasses, hkeys⟩ := hsource [.parseFile "a.ts"] "./a.ts" _ hresult
  have hpkg := (hresolve "pkg" none fun b hb => absurd hb (Option.some_ne_none b).symm).1
  have himport : IsKey "/b.ts" := himports ("B", "/b.ts") List.mem_cons_self
  have hclass : IsKey c.sourcePath := hclasses ("A", c) List.mem_cons_self
  refine ⟨hpkg, c, hresult, himport, hclass, fun s' hs' entry hentry hkey => ?_⟩
  have hsame := ((hkeys "//../a.ts" s' hs' _ List.mem_cons_self entry hentry).mp hkey).1
  rw [hone, htwo] at hsame
  exact absurd hsame (by decide)

end Project

end DartModels
