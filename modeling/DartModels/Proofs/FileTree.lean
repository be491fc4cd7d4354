import DartModels.FileSystem

/-!
# Trees that grow

A step that makes directories and touches no file lets every path that leads somewhere lead there
still.  What such steps did can be told from the tree before and the tree after.

    fs.KeepsDirectories fs' → fs.locate path = .ok l → fs'.locate path = .ok l         (locate_mono)
    fs.Furnished ways fs' → fs and fs' have the same files                        (Furnished.sameFiles)
-/

namespace DartModels

namespace FileSystem

variable {fs fs₁ fs₂ : FileSystem}

/-! ## Entries -/

theorem ne_nil_of_lookup (fs : FileSystem) {l : Location} (h : fs.lookup l ≠ some .directory) :
    l ≠ [] := by
  intro e
  rw [e] at h
  exact h rfl

theorem filter_put {loc : Location} {es : List (Location × Entry)} (entry : Entry)
    (h : find loc es = none) :
    (put loc entry es).filter (fun e => e.1 ≠ loc) = es := by
  induction es with
  | nil => simp [put]
  | cons e es ih =>
    obtain ⟨l, e'⟩ := e
    by_cases hl : l = loc
    · simp [find, hl] at h
    · have hrest : find loc es = none := by simpa [find, hl] using h
      rw [put, if_neg hl, List.filter_cons_of_pos (by simpa using hl), ih hrest]

/-- An entry that is set where nothing stands leaves no trace once it is erased. -/
theorem erase_set {loc : Location} (entry : Entry) (h : fs.lookup loc = none) :
    (fs.set loc entry).erase loc = fs := by
  have hne : loc ≠ [] := ne_nil_of_lookup fs (by simp [h])
  have hfind : find loc fs.entries = none := by
    unfold lookup at h
    rwa [if_neg hne] at h
  unfold set erase
  rw [filter_put entry hfind]

/-! ## Walking -/

/-- The working directory and every directory of `fs` are those of `fs'` too. -/
structure KeepsDirectories (fs fs' : FileSystem) : Prop where
  workdir : fs'.workdir = fs.workdir
  directory : ∀ l, fs.lookup l = some .directory → fs'.lookup l = some .directory

theorem KeepsDirectories.refl (fs : FileSystem) : fs.KeepsDirectories fs := ⟨rfl, fun _ h => h⟩

theorem KeepsDirectories.trans (h₁ : fs.KeepsDirectories fs₁) (h₂ : fs₁.KeepsDirectories fs₂) :
    fs.KeepsDirectories fs₂ :=
  ⟨h₂.workdir.trans h₁.workdir, fun l h => h₂.directory l (h₁.directory l h)⟩

/-- Setting a file changes no directory, unless it takes the place of one. -/
theorem keepsDirectories_set {l : Location} (content : List UInt8)
    (h : fs.lookup l ≠ some .directory) : fs.KeepsDirectories (fs.set l (.file content)) := by
  refine ⟨rfl, fun l' hl' => ?_⟩
  rw [lookup_set fs l' l _ (ne_nil_of_lookup fs h)]
  have hne : l' ≠ l := fun e => h (e ▸ hl')
  rw [if_neg hne, hl']

theorem keepsDirectories_of_set {l : Location} (content : List UInt8)
    (h : fs.lookup l ≠ some .directory) : (fs.set l (.file content)).KeepsDirectories fs := by
  refine ⟨rfl, fun l' hl' => ?_⟩
  rw [lookup_set fs l' l _ (ne_nil_of_lookup fs h)] at hl'
  split at hl'
  · cases hl'
  · exact hl'

/-- A walk only asks which locations are directories. -/
theorem walk_mono (h : fs.KeepsDirectories fs₁) {parts : List Path.Part} {current l : Location}
    (hw : fs.walk current parts = .ok l) : fs₁.walk current parts = .ok l := by
  fun_induction fs.walk current parts with
  | case1 current => exact hw
  | case2 current p rest hunnamed ih =>
    rw [walk, if_pos hunnamed]
    exact ih hw
  | case3 current rest hnamed ih =>
    rw [walk, if_neg hnamed, if_pos rfl]
    exact ih hw
  | case4 current p rest hnamed hdots hlong => cases hw
  | case5 current p rest hnamed hdots hlong hlast =>
    rw [walk, if_neg hnamed, if_neg hdots, if_neg hlong, if_pos hlast]
    exact hw
  | case6 current p rest hnamed hdots hlong hlast hentry ih =>
    rw [walk, if_neg hnamed, if_neg hdots, if_neg hlong, if_neg hlast, h.directory _ hentry]
    exact ih hw
  | case7 current p rest hnamed hdots hlong hlast content hentry => cases hw
  | case8 current p rest hnamed hdots hlong hlast hentry => cases hw

theorem locate_mono (h : fs.KeepsDirectories fs₁) {path : String} {l : Location}
    (hl : fs.locate path = .ok l) : fs₁.locate path = .ok l := by
  unfold locate at hl ⊢
  by_cases hempty : path.isEmpty = true
  · rw [if_pos hempty] at hl
    cases hl
  · rw [if_neg hempty] at hl ⊢
    by_cases hlong : maxPath < path.utf8ByteSize
    · rw [if_pos hlong] at hl
      cases hl
    · rw [if_neg hlong] at hl ⊢
      rw [h.workdir]
      exact walk_mono h hl

theorem stat_of_lookup {path : String} {l : Location} {entry : Entry}
    (hl : fs.locate path = .ok l) (h : fs.lookup l = some entry) : fs.stat path = .ok entry := by
  unfold stat
  rw [hl]
  simp only [bind, Except.bind, h]
  rfl

/-! ## Directories that were missing -/

/-- Nothing stood at `l`, and now a directory does, which one of the paths `ways` leads to. -/
structure Made (ways : Path.Tidy → Prop) (fs fs' : FileSystem) (l : Location) : Prop where
  missing : fs.lookup l = none
  made : fs'.lookup l = some .directory
  way : ∃ d, ways d ∧ fs'.locate d.toString = .ok l

/-- `fs'` is `fs` with some of the directories `ways` made that were missing. -/
structure Furnished (ways : Path.Tidy → Prop) (fs fs' : FileSystem) : Prop where
  workdir : fs'.workdir = fs.workdir
  entry : ∀ l, fs'.lookup l = fs.lookup l ∨ Made ways fs fs' l

/-- The same regular files stand in both file systems, with the same contents. -/
def SameFiles (fs fs' : FileSystem) : Prop :=
  ∀ l content, fs'.lookup l = some (.file content) ↔ fs.lookup l = some (.file content)

namespace Furnished

variable {ways ways' : Path.Tidy → Prop}

theorem keeps (h : Furnished ways fs fs₁) : fs.KeepsDirectories fs₁ := by
  refine ⟨h.workdir, fun l hl => ?_⟩
  rcases h.entry l with he | he
  · rw [he, hl]
  · exact he.made

theorem refl (fs : FileSystem) : Furnished ways fs fs := ⟨rfl, fun _ => Or.inl rfl⟩

theorem mono (hways : ∀ d, ways d → ways' d) (h : Furnished ways fs fs₁) :
    Furnished ways' fs fs₁ := by
  refine ⟨h.workdir, fun l => (h.entry l).imp_right fun hm => ?_⟩
  obtain ⟨d, hd, hl⟩ := hm.way
  exact ⟨hm.missing, hm.made, d, hways d hd, hl⟩

theorem trans (h₁ : Furnished ways fs fs₁) (h₂ : Furnished ways fs₁ fs₂) :
    Furnished ways fs fs₂ := by
  refine ⟨h₂.workdir.trans h₁.workdir, fun l => ?_⟩
  rcases h₂.entry l with he₂ | hm₂
  · rcases h₁.entry l with he₁ | hm₁
    · exact Or.inl (he₂.trans he₁)
    · obtain ⟨d, hd, hl⟩ := hm₁.way
      exact Or.inr ⟨hm₁.missing, he₂.trans hm₁.made, d, hd, locate_mono h₂.keeps hl⟩
  · rcases h₁.entry l with he₁ | hm₁
    · exact Or.inr ⟨he₁ ▸ hm₂.missing, hm₂.made, hm₂.way⟩
    · have hmissing := hm₂.missing
      rw [hm₁.made] at hmissing
      cases hmissing

theorem sameFiles (h : Furnished ways fs fs₁) : SameFiles fs fs₁ := by
  intro l content
  rcases h.entry l with he | hm
  · rw [he]
  · rw [hm.missing, hm.made]
    simp

/-- Making one missing directory furnishes. -/
theorem set_directory {d : Path.Tidy} {l : Location} (hd : ways d)
    (hl : fs.locate d.toString = .ok l) (hmissing : fs.lookup l = none) :
    Furnished ways fs (fs.set l .directory) := by
  have hne : l ≠ [] := ne_nil_of_lookup fs (by simp [hmissing])
  have hlookup (l' : Location) := lookup_set fs l' l .directory hne
  have hkeeps : fs.KeepsDirectories (fs.set l .directory) := by
    refine ⟨rfl, fun l' hl' => ?_⟩
    rw [hlookup]
    split
    · rfl
    · exact hl'
  refine ⟨rfl, fun l' => ?_⟩
  by_cases he : l' = l
  · subst he
    exact Or.inr ⟨hmissing, by rw [hlookup, if_pos rfl], d, hd, locate_mono hkeeps hl⟩
  · exact Or.inl (by rw [hlookup, if_neg he])

end Furnished

end FileSystem

end DartModels
