import DartModels.Proofs.SourceDirectory

/-!
# Absolute directories

A path is anchored if it is rooted and in normal form.  An anchored path stays as it is wherever it is
taken from, so settings whose directories were made absolute once are not changed when that is done
again from another directory.

    anchored paths are root slashes and names                                       (anchored_iff)
    normalize (join base p) = p                                         (Anchored.normalize_join)
    the directories of settings are anchored and stay so                   (resolvePaths_anchored)
-/

namespace DartModels

/-! ## Anchored paths -/

namespace Path

/-- A rooted path in normal form. -/
structure Anchored (p : String) : Prop where
  rooted : isRooted p.toList = true
  normal : normalize p = p

theorem anchored_rooted {root : Nat} (hr : root = 1 ∨ root = 2) {parts : List Part}
    (h : ∀ q ∈ parts, Plain q) : Anchored (String.ofList (rooted root parts)) := by
  constructor
  · rw [String.toList_ofList]
    exact isRooted_rooted (by omega) parts
  · unfold normalize
    rw [String.toList_ofList, normalizeChars_of_plain hr h]

theorem anchored_normalize {p : String} (h : isRooted p.toList = true) :
    Anchored (normalize p) := by
  obtain ⟨root, parts, hr, hparts, hnormal⟩ := exists_rooted_normalize h
  rw [hnormal]
  exact anchored_rooted hr hparts

/-- The anchored paths are those of one or two root slashes and names. -/
theorem anchored_iff {p : String} : Anchored p ↔
    ∃ root parts, (root = 1 ∨ root = 2) ∧ (∀ q ∈ parts, Plain q) ∧
      p = String.ofList (rooted root parts) := by
  constructor
  · rintro ⟨hrooted, hnormal⟩
    obtain ⟨root, parts, hr, hparts, h⟩ := exists_rooted_normalize hrooted
    exact ⟨root, parts, hr, hparts, hnormal.symm.trans h⟩
  · rintro ⟨root, parts, hr, hparts, rfl⟩
    exact anchored_rooted hr hparts

/-- A path below an anchored one leads to an anchored one. -/
theorem Anchored.below {base : String} (h : Anchored base) (p : String) :
    Anchored (normalize (join base p)) :=
  anchored_normalize (isRooted_join h.rooted p)

/-- An anchored path is the same from every directory. -/
theorem Anchored.normalize_join {p : String} (h : Anchored p) (base : String) :
    normalize (join base p) = p := by
  rw [join_of_isRooted base h.rooted, h.normal]

end Path

theorem FileSystem.anchored_absolute (fs : FileSystem) (path : String) :
    Path.Anchored (fs.absolute path) :=
  Path.anchored_normalize (Path.isRooted_join fs.isRooted_workdirPath path)

/-! ## Directories of settings -/

namespace Settings

variable {s : Settings} {cwd root out : String}

/-- The package root is taken from the source directory as it was just made absolute. -/
theorem resolvePaths_eq (hcwd : s.source.cwd = .str cwd) (hroot : s.source.root = .str root)
    (hout : s.model.out = .str out) (base : String) :
    s.resolvePaths base = .ok (s.located (Path.normalize (Path.join base cwd))
      (Path.normalize (Path.join (Path.normalize (Path.join base cwd)) root))
      (Path.normalize (Path.join base out))) := by
  unfold resolvePaths
  rw [hcwd, hroot, hout]
  rfl

/-- Anchored directories are the same from every directory. -/
theorem resolvePaths_located (hcwd : Path.Anchored cwd) (hroot : Path.Anchored root)
    (hout : Path.Anchored out) (base : String) :
    (s.located cwd root out).resolvePaths base = .ok (s.located cwd root out) := by
  rw [@resolvePaths_eq (s.located cwd root out) cwd root out rfl rfl rfl base,
    hcwd.normalize_join, hroot.normalize_join, hout.normalize_join]
  rfl

/-- From any base directory the directories of settings become absolute and normalised, the package
root from the source directory, and from no other base directory do they change again. -/
theorem resolvePaths_anchored (hcwd : s.source.cwd = .str cwd) (hroot : s.source.root = .str root)
    (hout : s.model.out = .str out) (fs : FileSystem) (base : String) :
    ∃ cwd' root' out',
      cwd' = Path.normalize (Path.join (fs.absolute base) cwd) ∧
      root' = Path.normalize (Path.join cwd' root) ∧
      out' = Path.normalize (Path.join (fs.absolute base) out) ∧
      s.resolvePaths (fs.absolute base) = .ok (s.located cwd' root' out') ∧
      Path.Anchored cwd' ∧ Path.Anchored root' ∧ Path.Anchored out' ∧
      ∀ (fs' : FileSystem) (base' : String),
        (s.located cwd' root' out').resolvePaths (fs'.absolute base') =
          .ok (s.located cwd' root' out') := by
  have hbase := fs.anchored_absolute base
  have hcwd' := hbase.below cwd
  have hroot' := hcwd'.below root
  have hout' := hbase.below out
  exact ⟨_, _, _, rfl, rfl, rfl, resolvePaths_eq hcwd hroot hout _, hcwd', hroot', hout',
    fun fs' base' => resolvePaths_located hcwd' hroot' hout' _⟩

/-- Settings whose paths hold dots, detours and repeated slashes. -/
def winding : Settings where
  source := { SourceSettings.default with cwd := .str "./app//src/x/..", root := .str "../../.." }
  model := { ModelSettings.default with out := .str "//lib/./models/" }

/-- The package root climbs from the source directory, and the two slashes of a path stay. -/
theorem resolvePaths_winding :
    winding.resolvePaths (FileSystem.absolute ⟨[], [['w']]⟩ "a/../b") =
        .ok (winding.located "/w/b/app/src" "/w" "//lib/models") ∧
      (winding.located "/w/b/app/src" "/w" "//lib/models").resolvePaths
        (FileSystem.absolute ⟨[], []⟩ "..") =
          .ok (winding.located "/w/b/app/src" "/w" "//lib/models") := by
  obtain ⟨cwd, root, out, hcwd, hroot, hout, hresolved, -, -, -, hagain⟩ :=
    @resolvePaths_anchored winding "./app//src/x/.." "../../.." "//lib/./models/" rfl rfl rfl
      ⟨[], [['w']]⟩ "a/../b"
  have hcwd : cwd = "/w/b/app/src" := hcwd.trans (by decide)
  have hroot : root = "/w" := by
    rw [hroot, hcwd]
    decide
  have hout : out = "//lib/models" := hout.trans (by decide)
  rw [hcwd, hroot, hout] at hresolved hagain
  exact ⟨hresolved, hagain _ _⟩

end Settings

end DartModels
