import DartModels.Proofs.FileOutcome
import DartModels.Proofs.FinishedRuns
import DartModels.Proofs.FoundFiles
import DartModels.Proofs.InnerPaths
import DartModels.Proofs.ModelImports
import DartModels.Proofs.RenamedSource
import DartModels.Proofs.RepeatedRuns
import DartModels.Proofs.ReorderedModels
import DartModels.Proofs.TypeOrigin

/-!
# Listed files

A search lists a file by the way down to it, and an import leads to a file by its absolute path.  A
type that is imported from a listed file is told by the way from the source directory to the file,
which is the way that the search has listed, so the entities of the file are found by it.

    a search lists inner paths                                                       (inner_of_mem_glob)
    the last import of a name tells its file                                          (lookup_imports)
    a type imported from a listed file has the listed path                        (describe?_of_inner)
    an entity is found by the path of its file and its name, if there is one    (findByPath?_of_inner)
-/

namespace DartModels

open FileSystem

/-! ## Searches -/

namespace FileSystem

variable {fs : FileSystem} {dir : Path.Tidy}

/-- A search by a pattern that does not climb goes down through names. -/
theorem plain_of_mem_select (hfs : fs.WellFormed) {parts : List PatternPart}
    (hparts : ∀ name, .fixed name ∈ parts → Path.Plain name) {here : Location}
    {way : List Path.Part} (hway : ∀ q ∈ way, Path.Plain q) {ways : List (List Path.Part)}
    (h : fs.select dir parts here way = .ok ways) : ∀ w ∈ ways, ∀ q ∈ w, Path.Plain q := by
  induction parts generalizing here way ways with
  | nil =>
    cases h
    exact List.forall_mem_singleton.mpr hway
  | cons part parts ih =>
    have hrest : ∀ name, .fixed name ∈ parts → Path.Plain name :=
      fun name hname => hparts name (List.mem_cons_of_mem _ hname)
    have hnext : ∀ {name}, Path.Plain name → ∀ q ∈ way ++ [name], Path.Plain q :=
      fun hname => List.forall_mem_append.mpr ⟨hway, List.forall_mem_singleton.mpr hname⟩
    intro w hw
    cases part with
    | recursive =>
      obtain ⟨down, hdown, below, hselect, hw⟩ := exists_of_mem_recursive h hw
      have hplain : ∀ q ∈ down, Path.Plain q := by
        rcases mem_directoriesFrom.mp hdown with rfl | ⟨-, hmem⟩
        · exact List.forall_mem_nil _
        · exact fun q hq => (hfs.plain_of_mem (lookup_ne_none_of_mem hmem)
            (List.mem_append_right _ hq)).1
      exact ih hrest (List.forall_mem_append.mpr ⟨hway, hplain⟩) hselect w hw
    | pattern items =>
      obtain ⟨name, hname, below, hselect, hw⟩ := exists_of_mem_pattern h hw
      obtain ⟨entry, hmem⟩ := mem_namesIn.mp hname
      exact ih hrest (hnext (hfs.name _ _ (lookup_ne_none_of_mem hmem)).1) hselect w hw
    | fixed name =>
      have hplain := hnext (hparts name List.mem_cons_self)
      obtain ⟨next, hselect⟩ | ⟨-, rfl⟩ | rfl := select_fixed_cases h
      · exact ih hrest hplain hselect w hw
      · rw [List.mem_singleton.mp hw]
        exact hplain
      · cases hw

/-- The names of a pattern that stand for themselves are components of it. -/
theorem mem_named_of_fixed {pattern : String} {parts : List PatternPart}
    (h : readPattern pattern = .ok parts) {name : Path.Part} (hname : .fixed name ∈ parts) :
    name ∈ Path.named pattern.toList := by
  obtain ⟨q, hq, hread⟩ := (mem_of_mapM_eq_ok h).mp hname
  unfold readPart at hread
  split at hread
  · cases hread
  · split at hread
    · cases hread
    · split at hread
      · cases hread
      · cases hread
        exact hq

/-- A file that is found is told by a way of the selection. -/
theorem exists_way_of_mem_glob {start pattern : String} {listed : List String}
    (h : fs.glob start pattern = .ok listed) {f : String} (hf : f ∈ listed) :
    ∃ parts here ways way, readPattern pattern = .ok parts ∧
      fs.select (.ofString start) (.recursive :: parts) here [] = .ok ways ∧ way ∈ ways ∧
      way ≠ [] ∧ f = String.ofList (Path.joinSlash way) := by
  obtain ⟨parts, hparts, h⟩ := exists_of_bind_eq_ok h
  dsimp only at h
  obtain ⟨entry, hentry, h⟩ := exists_of_bind_eq_ok h
  split at h
  · obtain ⟨here, -, h⟩ := exists_of_bind_eq_ok h
    obtain ⟨ways, hways, h⟩ := exists_of_bind_eq_ok h
    split at h
    · cases h
      exact absurd hf List.not_mem_nil
    · obtain ⟨looked, hlooked, h⟩ := exists_of_bind_eq_ok h
      have hpaths : pathsOf looked = listed := Except.ok.inj h
      rw [← hpaths] at hf
      obtain ⟨way, content, hmem, hf⟩ := mem_pathsOf.mp hf
      obtain ⟨hway, hlook⟩ := (mem_looked hlooked).mp hmem
      refine ⟨parts, here, ways, way, hparts, hways, hway, ?_, hf⟩
      rintro rfl
      rw [hentry] at hlook
      cases hlook
  · cases h
    exact absurd hf List.not_mem_nil

/-- A search lists inner paths. -/
theorem inner_of_mem_glob (hfs : fs.WellFormed) {start pattern : String}
    (hpattern : Path.dotDot ∉ Path.splitSlash pattern.toList) {listed : List String}
    (h : fs.glob start pattern = .ok listed) {f : String} (hf : f ∈ listed) : Path.Inner f := by
  obtain ⟨parts, here, ways, way, hparts, hways, hway, hne, rfl⟩ := exists_way_of_mem_glob h hf
  have hfixed : ∀ name, .fixed name ∈ PatternPart.recursive :: parts → Path.Plain name := by
    intro name hname
    obtain ⟨hsplit, hnamed⟩ := List.mem_filter.mp
      (mem_named_of_fixed hparts ((List.mem_cons.mp hname).resolve_left nofun))
    exact ⟨⟨hnamed, Path.notMem_of_mem_splitSlash hsplit⟩, fun hdots => hpattern (hdots ▸ hsplit)⟩
  exact Path.inner_joinSlash hne
    (plain_of_mem_select hfs hfixed (List.forall_mem_nil _) hways way hway)

end FileSystem

/-! ## Imports -/

namespace Project

variable {p : Project} {dir path specifier name f : String} {listed : List String}

/-- The file `path` imports `name` by a specifier, and by no other one after it. -/
def Binds (p : Project) (path specifier name : String) : Prop :=
  ∃ text before names after, p.readText path = .ok (some text) ∧
    (p.reader.read text).imports = before ++ (specifier, names) :: after ∧
    name ∈ names ∧ ∀ i ∈ after, name ∉ i.2

theorem lookup_foldl_setEntry (names : List String) (file : String)
    (table : List (String × String)) :
    (names.foldl (fun table name => setEntry name file table) table).lookup name =
      if name ∈ names then some file else table.lookup name := by
  induction names generalizing table with
  | nil => rfl
  | cons n names ih =>
    rw [List.foldl_cons, ih, lookup_setEntry]
    by_cases hmem : name ∈ names
    · rw [if_pos hmem, if_pos (List.mem_cons_of_mem _ hmem)]
    · rw [if_neg hmem]
      by_cases hn : name = n
      · rw [if_pos hn, if_pos (hn ▸ List.mem_cons_self)]
      · rw [if_neg hn, if_neg (by simp [hn, hmem])]

theorem lookup_bindNames {resolve : String → Except Error String}
    {table table' : List (String × String)} {i : String × List String}
    (h : bindNames resolve table i = .ok table') (name : String) :
    ∃ file, resolve i.1 = .ok file ∧
      table'.lookup name = if name ∈ i.2 then some file else table.lookup name := by
  obtain ⟨file, hfile, h⟩ := exists_of_bind_eq_ok h
  cases h
  exact ⟨file, hfile, lookup_foldl_setEntry i.2 file table⟩

theorem lookup_foldlM_bindNames {resolve : String → Except Error String}
    {imports : List (String × List String)} {table table' : List (String × String)}
    (h : imports.foldlM (bindNames resolve) table = .ok table')
    (hname : ∀ i ∈ imports, name ∉ i.2) : table'.lookup name = table.lookup name := by
  induction imports generalizing table with
  | nil =>
    cases h
    rfl
  | cons i imports ih =>
    obtain ⟨hi, hrest⟩ := List.forall_mem_cons.mp hname
    rw [List.foldlM_cons] at h
    obtain ⟨next, hnext, h⟩ := exists_of_bind_eq_ok h
    obtain ⟨file, -, hlookup⟩ := lookup_bindNames hnext name
    rw [ih h hrest, hlookup, if_neg hi]

/-- The last import of a name tells the file that it is looked for in. -/
theorem lookup_imports {s : Source} (hload : p.load path = .ok (some s))
    (hbinds : p.Binds path specifier name) :
    ∃ file, p.modules.resolveFile p.files specifier (some (Path.dirname path)) = .ok file ∧
      s.imports.lookup name = some file := by
  obtain ⟨text, before, names, after, htext, himports, hname, hafter⟩ := hbinds
  obtain ⟨text', htext', -, htable, -⟩ := load_eq_ok hload
  cases htext.symm.trans htext'
  rw [importTable_eq, himports, List.foldlM_append] at htable
  obtain ⟨table, -, htable⟩ := exists_of_bind_eq_ok htable
  rw [List.foldlM_cons] at htable
  obtain ⟨next, hnext, htable⟩ := exists_of_bind_eq_ok htable
  obtain ⟨file, hfile, hlookup⟩ := lookup_bindNames hnext name
  refine ⟨file, hfile, ?_⟩
  rw [lookup_foldlM_bindNames htable hafter, hlookup, if_pos hname]

/-! ## Origins of types -/

/-- What the names in the types of a source are resolved with. -/
def origin (p : Project) (s : Source) : Origin := ⟨p.files, p.settings.cwd, s.imports⟩

/-- A listed file is told by the way to it from the source directory. -/
theorem relativePath_listed (hcwd : p.settings.cwd = .str dir) (hdir : Path.Anchored dir)
    (hf : Path.Inner f) (s : Source) :
    (p.origin s).relativePath (Path.normalize (Path.join dir f)) = .ok f := by
  unfold Origin.relativePath origin
  rw [hcwd]
  exact congrArg Except.ok (hdir.relative_inner hf _)

theorem reference_listed (hcwd : p.settings.cwd = .str dir) (hdir : Path.Anchored dir)
    (hf : Path.Inner f) {s : Source}
    (hlookup : s.imports.lookup name = some (Path.normalize (Path.join dir f)))
    (arguments : List TypeDescriptor) : (p.origin s).reference name arguments =
      .ok (.reference name arguments (some (Path.normalize (Path.join dir f))) (some f)) := by
  have hempty : ¬(Path.normalize (Path.join dir f)).isEmpty = true := by
    have hchars := Path.normalize_ne_nil (Path.join dir f).toList
    rw [String.isEmpty_iff]
    intro h
    exact hchars (String.ofList_injective h)
  unfold Origin.reference
  rw [show (p.origin s).imports.lookup name = _ from hlookup]
  dsimp only
  rw [if_neg hempty, relativePath_listed hcwd hdir hf]
  rfl

/-! ## Entities of listed files -/

theorem exists_of_mem_entitiesAlone (hcwd : p.settings.cwd = .str dir) {file : String}
    {e : SourceEntity} (he : e ∈ p.entitiesAlone file) :
    ∃ s, p.load (p.files.absolute (Path.join dir file)) = .ok (some s) ∧
      ∃ c ∈ s.entities, p.entityOf file c = .ok e := by
  unfold entitiesAlone at he
  rw [parseFile_result hcwd] at he
  cases hload : p.load (p.files.absolute (Path.join dir file)) with
  | error error =>
    rw [hload] at he
    exact absurd he List.not_mem_nil
  | ok source =>
    rw [hload] at he
    cases source with
    | none => exact absurd he List.not_mem_nil
    | some s =>
      dsimp only at he
      split at he
      · next entities hentities =>
        exact ⟨s, rfl, (mem_of_mapM_eq_ok hentities).mp he⟩
      · exact absurd he List.not_mem_nil

theorem entityOf_eq_ok {file : String} {c : EntityClass} {e : SourceEntity}
    (h : p.entityOf file c = .ok e) : e.path = file ∧ e.name = c.name := by
  unfold entityOf at h
  cases hfields : (p.fields c).result [] with
  | error error =>
    rw [hfields] at h
    cases h
  | ok fields =>
    rw [hfields] at h
    cases h
    exact ⟨rfl, rfl⟩

theorem path_of_mem_entitiesAlone (hcwd : p.settings.cwd = .str dir) {file : String}
    {e : SourceEntity} (he : e ∈ p.entitiesAlone file) : e.path = file := by
  obtain ⟨s, -, c, -, hentity⟩ := exists_of_mem_entitiesAlone hcwd he
  exact (entityOf_eq_ok hentity).1

/-- The classes of a source have different names. -/
theorem eq_of_mem_entities {key : String} {s : Source} (h : p.load key = .ok (some s))
    {c d : EntityClass} (hc : c ∈ s.entities) (hd : d ∈ s.entities) (hname : c.name = d.name) :
    c = d := by
  obtain ⟨text, -, -, -, hclasses⟩ := load_eq_ok h
  have hkeyed := (load_keyed h).2
  have hnodup := nodup_classTable hclasses
  have hlookup : ∀ c ∈ s.entities, s.classes.lookup c.name = some c := by
    intro c hc
    obtain ⟨⟨key, c⟩, hentry, rfl⟩ := List.mem_map.mp (List.mem_filter.mp hc).1
    have hkey : c.name = key := (hkeyed _ hentry).1
    rw [hkey]
    exact lookup_of_mem hnodup hentry
  have hboth := hlookup c hc
  rw [hname, hlookup d hd] at hboth
  exact (Option.some.inj hboth).symm

/-- An entity is told by its file and its name. -/
theorem eq_of_mem_entitiesAlone (hcwd : p.settings.cwd = .str dir) {file : String}
    {e d : SourceEntity} (he : e ∈ p.entitiesAlone file) (hd : d ∈ p.entitiesAlone file)
    (hname : e.name = d.name) : e = d := by
  obtain ⟨s, hs, c, hc, hce⟩ := exists_of_mem_entitiesAlone hcwd he
  obtain ⟨s', hs', c', hc', hcd⟩ := exists_of_mem_entitiesAlone hcwd hd
  cases hs.symm.trans hs'
  rw [(entityOf_eq_ok hce).2, (entityOf_eq_ok hcd).2] at hname
  rw [eq_of_mem_entities hs hc hc' hname, hcd] at hce
  exact (Except.ok.inj hce).symm

end Project

namespace Catalog

variable {c : Catalog} {path : String} {name : Option String}

/-- An entity is found by a file that declares one. -/
theorem exists_findByPath?_iff : (∃ e, c.findByPath? path name = some e) ↔
    ∃ e ∈ c.entities, Path.normalize e.path = Path.normalize path := by
  constructor
  · rintro ⟨e, he⟩
    exact ⟨e, mem_of_findByPath? he⟩
  · rintro ⟨e, hmem, hfile⟩
    have hcandidate : e ∈ c.entities.filter fun e => Path.normalize e.path == Path.normalize path :=
      List.mem_filter.mpr ⟨hmem, beq_iff_eq.mpr hfile⟩
    unfold findByPath?
    dsimp only
    split
    · next e _ => exact ⟨e, rfl⟩
    · exact Option.isSome_iff_exists.mp
        (List.isSome_head?.mpr (List.ne_nil_of_mem hcandidate))

end Catalog

namespace Project

variable {p : Project} {dir f : String} {listed : List String}

/-- A type that is imported from a file below the source directory has the way to the file as its
path, wherever in a descriptor it stands. -/
theorem describe?_of_inner (hcwd : p.settings.cwd = .str dir) (hdir : Path.Anchored dir)
    (hf : Path.Inner f) {path specifier name : String} {s : Source}
    (hload : p.load path = .ok (some s)) (hbinds : p.Binds path specifier name)
    (hresolve : p.modules.resolveFile p.files specifier (some (Path.dirname path)) =
      .ok (Path.normalize (Path.join dir f))) :
    (∀ arguments, (p.origin s).reference name arguments =
      .ok (.reference name arguments (some (Path.normalize (Path.join dir f))) (some f))) ∧
    ∀ (n : Option Syntax.Node) (t r : TypeDescriptor), (p.origin s).describe? n = .ok t →
      r.Inside t → r.kind = .reference → r.name = name → r.relativePath = some f := by
  obtain ⟨file, hfile, hlookup⟩ := lookup_imports hload hbinds
  cases hfile.symm.trans hresolve
  have hreference := reference_listed hcwd hdir hf hlookup
  refine ⟨hreference, fun n t r ht hr hkind hname => ?_⟩
  obtain ⟨arguments, harguments⟩ := (Origin.built_describe? ht).reference_inside hr hkind
  rw [hname, hreference] at harguments
  rw [← Except.ok.inj harguments]
  rfl

section

variable {g : Generator} {entities : List SourceEntity} {decorated : List ModelEntity}

theorem mem_entitiesAlone (hcwd : p.settings.cwd = .str dir)
    (hentities : ∀ e ∈ entities, ∃ file ∈ listed, e ∈ p.entitiesAlone file) {e : SourceEntity}
    (he : e ∈ entities) (hef : e.path = f) : e ∈ p.entitiesAlone f := by
  obtain ⟨file, -, halone⟩ := hentities e he
  rwa [← hef, path_of_mem_entitiesAlone hcwd halone]

/-- An entity that is written is told by its path as it stands, its file having an inner path. -/
theorem normalize_path_iff (hcwd : p.settings.cwd = .str dir)
    (hlisted : ∀ file ∈ listed, Path.Inner file) (hf : Path.Inner f)
    (hentities : ∀ e ∈ entities, ∃ file ∈ listed, e ∈ p.entitiesAlone file)
    (hdecorated : g.decorate entities = .ok decorated) {d : ModelEntity} (hd : d ∈ decorated) :
    Path.normalize d.path = Path.normalize f ↔ d.path = f := by
  rw [Generator.decorate_eq_map hdecorated] at hd
  obtain ⟨e, he, rfl⟩ := List.mem_map.mp hd
  obtain ⟨file, hfile, he⟩ := hentities e he
  have hsame : (g.placed e).path = file := path_of_mem_entitiesAlone hcwd he
  rw [hsame, (hlisted file hfile).normal, hf.normal]

/-- By an inner path an entity is found exactly if one has the path. -/
theorem findByPath?_iff_of_inner (hcwd : p.settings.cwd = .str dir)
    (hlisted : ∀ file ∈ listed, Path.Inner file) (hf : Path.Inner f)
    (hentities : ∀ e ∈ entities, ∃ file ∈ listed, e ∈ p.entitiesAlone file)
    (hdecorated : g.decorate entities = .ok decorated) (name : Option String) :
    (∃ e, (g.catalog decorated).findByPath? f name = some e) ↔ ∃ e ∈ entities, e.path = f := by
  have hplaced := Generator.decorate_eq_map hdecorated
  rw [Catalog.exists_findByPath?_iff]
  constructor
  · rintro ⟨d, hd, hfile⟩
    have hdf := (normalize_path_iff hcwd hlisted hf hentities hdecorated hd).mp hfile
    rw [show (g.catalog decorated).entities = decorated from rfl, hplaced] at hd
    obtain ⟨e, he, rfl⟩ := List.mem_map.mp hd
    exact ⟨e, he, hdf⟩
  · rintro ⟨e, he, rfl⟩
    have hmem : g.placed e ∈ decorated := by
      rw [hplaced]
      exact List.mem_map_of_mem he
    exact ⟨g.placed e, hmem, rfl⟩

/-- What is found by an inner path and a name has the path, and is the entity of that name in its
file if there is one. -/
theorem eq_of_findByPath? (hcwd : p.settings.cwd = .str dir)
    (hlisted : ∀ file ∈ listed, Path.Inner file) (hf : Path.Inner f)
    (hentities : ∀ e ∈ entities, ∃ file ∈ listed, e ∈ p.entitiesAlone file)
    (hdecorated : g.decorate entities = .ok decorated) {name : Option String} {e : ModelEntity}
    (he : (g.catalog decorated).findByPath? f name = some e) :
    e ∈ decorated ∧ e.path = f ∧ ∀ d ∈ decorated, d.path = f → some d.name = name → e = d := by
  obtain ⟨hmem, hfile⟩ := Catalog.mem_of_findByPath? he
  have hef := (normalize_path_iff hcwd hlisted hf hentities hdecorated hmem).mp hfile
  refine ⟨hmem, hef, fun d hd hdf hname => ?_⟩
  subst hname
  obtain ⟨origin, horigin, hdeclared, -⟩ := Catalog.findByPath?_of_declaredIn
    (⟨hd, congrArg Path.normalize hdf, rfl⟩ : (g.catalog decorated).DeclaredIn f d.name d)
  cases he.symm.trans horigin
  rw [show (g.catalog decorated).entities = decorated from rfl] at hmem
  rw [Generator.decorate_eq_map hdecorated] at hmem hd
  obtain ⟨a, ha, rfl⟩ := List.mem_map.mp hmem
  obtain ⟨b, hb, rfl⟩ := List.mem_map.mp hd
  rw [eq_of_mem_entitiesAlone hcwd (mem_entitiesAlone hcwd hentities ha hef)
    (mem_entitiesAlone hcwd hentities hb hdf) hdeclared.named]

/-- By an inner path and a name an entity is found among any that were resolved from files with inner
paths exactly if one of them is declared in the file, and it is the one of that name if there is one. -/
theorem findByPath?_of_inner (hcwd : p.settings.cwd = .str dir)
    (hlisted : ∀ file ∈ listed, Path.Inner file) (hf : Path.Inner f)
    (hentities : ∀ e ∈ entities, ∃ file ∈ listed, e ∈ p.entitiesAlone file)
    (hdecorated : g.decorate entities = .ok decorated) (name : Option String) :
    ((∃ e, (g.catalog decorated).findByPath? f name = some e) ↔ ∃ e ∈ entities, e.path = f) ∧
    ((∀ e ∈ p.entitiesAlone f, e ∈ entities) →
      ((∃ e, (g.catalog decorated).findByPath? f name = some e) ↔ ∃ e, e ∈ p.entitiesAlone f)) ∧
    ∀ e, (g.catalog decorated).findByPath? f name = some e →
      e ∈ decorated ∧ e.path = f ∧ ∀ d ∈ decorated, d.path = f → some d.name = name → e = d := by
  have hfound := findByPath?_iff_of_inner hcwd hlisted hf hentities hdecorated name
  refine ⟨hfound, fun hwhole => hfound.trans ⟨?_, ?_⟩,
    fun e he => eq_of_findByPath? hcwd hlisted hf hentities hdecorated he⟩
  · rintro ⟨e, he, hef⟩
    exact ⟨e, mem_entitiesAlone hcwd hentities he hef⟩
  · rintro ⟨e, he⟩
    exact ⟨e, hwhole e he, path_of_mem_entitiesAlone hcwd he⟩

end

/-- A type that is imported from a listed file has the path that the search has listed.  By this path
and a name an entity is found among any that were resolved from listed files exactly if one of them is
declared in the file, never one of another file, and the one of that name if there is one. -/
theorem origin_of_listed (hcwd : p.settings.cwd = .str dir) (hdir : Path.Anchored dir)
    (hfs : p.files.WellFormed)
    (hext : Path.dotDot ∉ Path.splitSlash ("*" ++ p.settings.ext.text).toList)
    (hlisted : p.discover = .ok listed) (hf : f ∈ listed) :
    (∀ path s specifier name, p.load path = .ok (some s) → p.Binds path specifier name →
      p.modules.resolveFile p.files specifier (some (Path.dirname path)) =
        .ok (Path.normalize (Path.join dir f)) →
      (∀ arguments, (p.origin s).reference name arguments =
        .ok (.reference name arguments (some (Path.normalize (Path.join dir f))) (some f))) ∧
      ∀ (n : Option Syntax.Node) (t r : TypeDescriptor), (p.origin s).describe? n = .ok t →
        r.Inside t → r.kind = .reference → r.name = name → r.relativePath = some f) ∧
    ∀ (g : Generator) entities decorated,
      (∀ e ∈ entities, ∃ file ∈ listed, e ∈ p.entitiesAlone file) →
      g.decorate entities = .ok decorated → ∀ name : Option String,
        ((∃ e, (g.catalog decorated).findByPath? f name = some e) ↔ ∃ e ∈ entities, e.path = f) ∧
        ((∀ e ∈ p.entitiesAlone f, e ∈ entities) →
          ((∃ e, (g.catalog decorated).findByPath? f name = some e) ↔
            ∃ e, e ∈ p.entitiesAlone f)) ∧
        ∀ e, (g.catalog decorated).findByPath? f name = some e →
          e ∈ decorated ∧ e.path = f ∧
            ∀ d ∈ decorated, d.path = f → some d.name = name → e = d := by
  rw [discover_glob hcwd] at hlisted
  have hinner : ∀ file ∈ listed, Path.Inner file := fun file => inner_of_mem_glob hfs hext hlisted
  exact ⟨fun path s specifier name hload => describe?_of_inner hcwd hdir (hinner f hf) hload,
    fun g entities decorated => findByPath?_of_inner hcwd hinner (hinner f hf)⟩

/-! ## An import of a neighbour -/

/-- The text of a file that declares a class. -/
def neighbourText : String := "@Entity()class B{}"

/-- The text of a file that imports the class. -/
def importText : String := "import{B}from'./x'"

/-- A directory, a file that declares a class, and a file that imports it. -/
def neighbours : FileSystem where
  entries := [([['a']], .directory),
    (["x.ts".toList], .file (neighbourText.toList.map fun c => UInt8.ofNat c.toNat)),
    (["y.ts".toList], .file (importText.toList.map fun c => UInt8.ofNat c.toNat))]
  workdir := []

theorem wellFormed_neighbours : neighbours.WellFormed := by
  have hx : Path.Plain "x.ts".toList ∧ isTooLong "x.ts".toList = false :=
    ⟨⟨⟨by decide, by decide⟩, by decide⟩, by decide⟩
  have hy : Path.Plain "y.ts".toList ∧ isTooLong "y.ts".toList = false :=
    ⟨⟨⟨by decide, by decide⟩, by decide⟩, by decide⟩
  have hdirectory : (FileSystem.set ⟨[], []⟩ ([] ++ [['a']]) .directory).WellFormed :=
    Generator.wellFormed_empty.set rfl (Settings.plain_letter 'a' (by decide)) (Or.inl rfl)
  have hfile : (FileSystem.set ⟨[([['a']], .directory)], []⟩ ([] ++ ["x.ts".toList])
      (.file (neighbourText.toList.map fun c => UInt8.ofNat c.toNat))).WellFormed :=
    hdirectory.set rfl hx (Or.inr nofun)
  exact hfile.set (l := []) rfl hy (Or.inr nofun)

section

variable (ext : String)

theorem binds_neighbours : (Settings.reader ext neighbours).Binds "/y.ts" "./x" "B" := by
  have htext : (Settings.reader ext neighbours).readText "/y.ts" =
    .ok (some importText.toList) := by cbv
  have himports : ((Settings.reader ext neighbours).reader.read importText.toList).imports =
    [("./x", ["B"])] := by cbv
  exact ⟨_, [], ["B"], [], htext, himports, List.mem_singleton.mpr rfl, List.forall_mem_nil _⟩

theorem resolve_neighbours :
    (Settings.reader ext neighbours).modules.resolveFile neighbours "./x"
      (some (Path.dirname "/y.ts")) = .ok "/x.ts" := by
  have hdir : Path.dirname "/y.ts" = "/" := by decide
  rw [hdir]
  cbv

theorem load_neighbours : ∃ s, (Settings.reader ext neighbours).load "/y.ts" = .ok (some s) := by
  have hload : ((Settings.reader ext neighbours).load "/y.ts").map
      (fun o => o.map (·.imports)) = .ok (some [("B", "/x.ts")]) := by cbv
  obtain ⟨s, hs, -⟩ := exists_of_map_eq_ok hload
  exact ⟨s, hs⟩

end

/-- The class is found by the path that its file is listed with. -/
theorem origin_of_listed_neighbour :
    (Settings.reader "x.ts" neighbours).discover = .ok ["x.ts"] ∧
      ∃ s, (Settings.reader "x.ts" neighbours).load "/y.ts" = .ok (some s) ∧
        ((Settings.reader "x.ts" neighbours).origin s).reference "B" [] =
          .ok (.reference "B" [] (some "/x.ts") (some "x.ts")) ∧
        (Settings.writer.catalog [⟨"x.ts", "B", [], "/m/b"⟩]).findByPath? "x.ts" (some "B") =
          some ⟨"x.ts", "B", [], "/m/b"⟩ := by
  have hlisted : (Settings.reader "x.ts" neighbours).discover = .ok ["x.ts"] := by cbv
  have hfile : Path.normalize (Path.join "/" "x.ts") = "/x.ts" := by decide
  have halone : (Settings.reader "x.ts" neighbours).entitiesAlone "x.ts" = [⟨"x.ts", "B", []⟩] := by
    cbv
  have hdecorated : Settings.writer.decorate [⟨"x.ts", "B", []⟩] =
    .ok [⟨"x.ts", "B", [], "/m/b"⟩] := by cbv
  obtain ⟨s, hs⟩ := load_neighbours "x.ts"
  obtain ⟨horigin, hentities⟩ := @origin_of_listed (Settings.reader "x.ts" neighbours) "/" "x.ts"
    ["x.ts"] rfl ⟨by decide, by decide⟩ wellFormed_neighbours (by decide) hlisted
    (List.mem_singleton.mpr rfl)
  obtain ⟨hreference, -⟩ := horigin "/y.ts" s "./x" "B" hs (binds_neighbours "x.ts")
    ((resolve_neighbours "x.ts").trans (congrArg Except.ok hfile.symm))
  obtain ⟨hfound, -, hunique⟩ := hentities Settings.writer _ _
    (List.forall_mem_singleton.mpr ⟨"x.ts", List.mem_singleton.mpr rfl, by
      rw [halone]
      exact List.mem_singleton.mpr rfl⟩) hdecorated (some "B")
  obtain ⟨e, he⟩ := hfound.mpr ⟨_, List.mem_singleton.mpr rfl, rfl⟩
  have hsame := (hunique e he).2.2 _ (List.mem_singleton.mpr rfl) rfl rfl
  rw [hsame] at he
  rw [hfile] at hreference
  exact ⟨hlisted, s, hs, hreference [], he⟩

/-! ## A detour -/

theorem discover_detour : (Settings.reader "/../x.ts" neighbours).discover = .ok ["a/../x.ts"] := by
  have hparts : readPattern ("*" ++ "/../x.ts") =
    .ok [.pattern [.star], .fixed Path.dotDot, .fixed "x.ts".toList] := rfl
  have hroot : neighbours.selectBelow (.ofString "/") [.star]
      [.fixed Path.dotDot, .fixed "x.ts".toList] [] [] =
        .ok [[['a'], Path.dotDot, "x.ts".toList]] := by
    unfold selectBelow
    rw [namesAt_star]
    rfl
  have hbelow : neighbours.selectBelow (.ofString "/") [.star]
      [.fixed Path.dotDot, .fixed "x.ts".toList] [] [['a']] = .ok [] := by
    unfold selectBelow
    rw [namesAt_star]
    rfl
  have hselect : neighbours.select (.ofString "/")
      [.recursive, .pattern [.star], .fixed Path.dotDot, .fixed "x.ts".toList] [] [] =
        .ok [[['a'], Path.dotDot, "x.ts".toList]] := by
    rw [select_eq, show neighbours.directoriesFrom [] = [[], [['a']]] from rfl, List.mapM_cons,
      hroot, List.mapM_cons, hbelow]
    rfl
  have hpaths (content : List UInt8) :
      pathsOf [([['a'], Path.dotDot, "x.ts".toList], some (.file content))] = ["a/../x.ts"] := by
    cbv
  rw [Settings.discover_reader,
    glob_eq (Settings.start_root _) wellFormed_neighbours hparts (by decide), hselect]
  exact congrArg Except.ok (hpaths _)

/-- A search that climbs lists a file with its detour, and the path of a type has none. -/
theorem origin_of_detour :
    (Settings.reader "/../x.ts" neighbours).settings.cwd = .str "/" ∧ Path.Anchored "/" ∧
      neighbours.WellFormed ∧
      (Settings.reader "/../x.ts" neighbours).discover = .ok ["a/../x.ts"] ∧
      ∃ s, (Settings.reader "/../x.ts" neighbours).load "/y.ts" = .ok (some s) ∧
        (Settings.reader "/../x.ts" neighbours).Binds "/y.ts" "./x" "B" ∧
        (Settings.reader "/../x.ts" neighbours).modules.resolveFile neighbours "./x"
          (some (Path.dirname "/y.ts")) =
            .ok (Path.normalize (Path.join "/" "a/../x.ts")) ∧
        ((Settings.reader "/../x.ts" neighbours).origin s).reference "B" [] =
          .ok (.reference "B" [] (some "/x.ts") (some "x.ts")) ∧
        "x.ts" ≠ "a/../x.ts" := by
  have hfile : Path.normalize (Path.join "/" "a/../x.ts") = "/x.ts" := by decide
  have hnext : Path.normalize (Path.join "/" "x.ts") = "/x.ts" := by decide
  have hinner : Path.Inner "x.ts" := ⟨by decide, by decide, by decide⟩
  have hanchored : Path.Anchored "/" := ⟨by decide, by decide⟩
  have hresolve := resolve_neighbours "/../x.ts"
  obtain ⟨s, hs⟩ := load_neighbours "/../x.ts"
  obtain ⟨hreference, -⟩ := @describe?_of_inner (Settings.reader "/../x.ts" neighbours) "/" "x.ts"
    rfl hanchored hinner "/y.ts" "./x" "B" s hs (binds_neighbours "/../x.ts")
    (hresolve.trans (congrArg Except.ok hnext.symm))
  rw [hnext] at hreference
  rw [hfile]
  exact ⟨rfl, hanchored, wellFormed_neighbours, discover_detour, s, hs,
    binds_neighbours "/../x.ts", hresolve, hreference [], by decide⟩

end Project

end DartModels
