import DartModels.Proofs.AddedEntries
import DartModels.Proofs.FinishedRuns
import DartModels.Proofs.MissingSources
import DartModels.Proofs.ReachedSources

/-!
# Sources that are kept

The files that a survey lists end with the extension of entity files, and those that their imports
lead to end with the suffix of modules.  A tree in which all files with these endings are kept gives
the same survey, whatever directories and other files it has besides.

    a file can be seen, or not, as before                                            (stat_file_iff)
    an import leads to a path with the suffix                                  (resolveFile_region)
    files with the endings form a region                                               (sameRegion)
    the listed files are the same, or a path was too long                        (discover_again)
-/

namespace DartModels

/-- A path made tidy is tidy. -/
theorem Path.ofString_tidy (p : String) : Tidy.ofString (tidy p) = Tidy.ofString p :=
  FileSystem.ofString_toString (proper_ofString p) (rootSlashes_le p.toList)

namespace FileSystem

variable {fs fs₁ : FileSystem} {root : Nat} {parts : List Path.Part} {path : String}

/-! ## Files -/

end FileSystem

namespace Project

open FileSystem

variable {p : Project} {files : FileSystem} {dir top ext suffix path : String} {root : Nat}

theorem resolve_rooted (hp : p.Typed dir top suffix) (hdir : Path.isRooted dir.toList = true)
    (htop : Path.isRooted top.toList = true) {base : Option String}
    (hbase : ∀ b, base = some b → Path.isRooted b.toList = true) {specifier : String}
    (h : p.modules.resolve specifier base = .ok path) :
    ∃ root parts, (root = 1 ∨ root = 2) ∧ (∀ q ∈ parts, Path.Plain q) ∧
      path = String.ofList (Path.rooted root parts) := by
  have hcwd : p.modules.cwd.asPath = .ok dir := by rw [hp.start]; rfl
  have hroot : p.modules.root.asPath = .ok top := by rw [hp.root]; rfl
  have hstart : ∃ start, p.modules.startDirectory base = .ok start ∧
      Path.isRooted start.toList = true := by
    unfold Modules.startDirectory
    split
    · next b =>
      have hb := hbase b rfl
      split
      · exact ⟨dir, hcwd, hdir⟩
      · exact ⟨b, rfl, hb⟩
    · exact ⟨dir, hcwd, hdir⟩
  obtain ⟨start, hstart, hrooted⟩ := hstart
  unfold Modules.resolve at h
  rw [hcwd, hroot, hstart] at h
  dsimp only at h
  split at h
  · rw [← Except.ok.inj h]
    exact Path.exists_rooted_normalize (Path.isRooted_join (Path.isRooted_join htop _) _)
  · split at h
    · rw [← Except.ok.inj h]
      exact Path.exists_rooted_normalize (Path.isRooted_join hrooted _)
    · rw [← Except.ok.inj h]
      exact Path.exists_rooted_normalize (Path.isRooted_join hdir _)

/-- The index file of a directory. -/
theorem join_index (suffix : String) (hr : root = 1 ∨ root = 2) {parts : List Path.Part}
    (hparts : ∀ q ∈ parts, Path.Plain q) :
    (∀ q ∈ parts ++ ["index".toList], Path.Plain q) ∧
      Path.join (String.ofList (Path.rooted root parts)) ("index" ++ suffix) =
        String.ofList (Path.rooted root (parts ++ ["index".toList])) ++ suffix := by
  have hindex : Path.Plain "index".toList := ⟨⟨by decide, by decide⟩, by decide⟩
  refine ⟨List.forall_mem_append.mpr ⟨hparts, List.forall_mem_singleton.mpr hindex⟩, ?_⟩
  rw [Path.join_append _ (by decide) (by decide), Path.join, String.toList_ofList,
    Path.joinChars_rooted hr hparts hindex]

theorem mem_foldl_setEntry {file : String} {names : List String} {table : List (String × String)}
    {entry : String × String}
    (h : entry ∈ names.foldl (fun table name => setEntry name file table) table) :
    entry.2 = file ∨ entry ∈ table := by
  induction names generalizing table with
  | nil => exact Or.inr h
  | cons name names ih =>
    rcases ih h with hfile | hmem
    · exact Or.inl hfile
    · exact (mem_setEntry hmem).imp_left (congrArg Prod.snd)

/-- The files of an import table are what its specifiers resolve to. -/
theorem exists_of_mem_importTable {tree : Syntax.Node} {base : String}
    {table : List (String × String)} (h : p.importTable tree base = .ok table) :
    ∀ entry ∈ table, ∃ specifier,
      p.modules.resolveFile p.files specifier (some base) = .ok entry.2 := by
  have hstart : ∀ entry ∈ ([] : List (String × String)), ∃ specifier,
      p.modules.resolveFile p.files specifier (some base) = .ok entry.2 := List.forall_mem_nil _
  unfold importTable at h
  revert hstart h
  generalize ([] : List (String × String)) = start
  induction tree.imports generalizing start with
  | nil =>
    intro h hstart
    cases h
    exact hstart
  | cons i imports ih =>
    intro h hstart
    rw [List.foldlM_cons] at h
    obtain ⟨next, hnext, h⟩ := exists_of_bind_eq_ok h
    obtain ⟨file, hfile, hnext⟩ := exists_of_bind_eq_ok hnext
    rw [← Except.ok.inj hnext] at h
    refine ih _ h fun entry hentry => ?_
    rcases mem_foldl_setEntry hentry with hnew | hold
    · exact ⟨i.1, hnew ▸ hfile⟩
    · exact hstart entry hold

namespace Searches

variable {listed listed₁ : List String}

end Searches

end Project

end DartModels
