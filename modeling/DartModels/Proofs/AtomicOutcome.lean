import DartModels.AtomicWrite
import DartModels.Proofs.FileTree
import Mathlib.Logic.Relation

/-!
# What an atomic write leaves behind

A write makes the directories above its target, fills a temporary file and moves it.  Each of these
steps may fail, because of what stands in the tree or because it is refused.  The temporary file is
created where nothing stood, so removing it gives back the tree with the directories made.

    directories made = one after the other, at or above one path             (makeDirectories_makes)
    so some that were missing                                            (makeDirectories_furnished)
    a write = directories made, then the target set or nothing more             (replaceFile_exec)
    a write that returns sets its target and no other file, and one that fails none
                                                                              (write_allOrNothing)
-/

namespace DartModels

/-! ## Runs of file actions -/

namespace FileAction

variable {α β : Type}

theorem exec_bind (x : FileAction α) (f : α → FileAction β) (fs : FileSystem) :
    (x >>= f).exec fs =
      match x.exec fs with
      | (.ok a, fs) => (f a).exec fs
      | (.error e, fs) => (.error e, fs) := by
  show (match x.exec fs with | (r, s) => (ExceptT.bindCont f r).run s) = _
  rcases x.exec fs with ⟨r, s⟩
  cases r <;> rfl

theorem exec_bind_ok {x : FileAction α} {fs fs' : FileSystem} {a : α}
    (h : x.exec fs = (.ok a, fs')) (f : α → FileAction β) : (x >>= f).exec fs = (f a).exec fs' := by
  rw [exec_bind, h]

theorem exec_bind_error {x : FileAction α} {fs fs' : FileSystem} {e : Error}
    (h : x.exec fs = (.error e, fs')) (f : α → FileAction β) :
    (x >>= f).exec fs = (.error e, fs') := by
  rw [exec_bind, h]

theorem exec_get_bind (f : FileSystem → FileAction β) (fs : FileSystem) :
    (get >>= f : FileAction β).exec fs = (f fs).exec fs := rfl

theorem exec_lift_bind (r : Except Error α) (f : α → FileAction β) (fs : FileSystem) :
    (liftM r >>= f : FileAction β).exec fs =
      match r with
      | .ok a => (f a).exec fs
      | .error e => (.error e, fs) := by
  cases r <;> rfl

end FileAction

open FileSystem

namespace AtomicWrite

variable {refuse : Refusals} {fs fs' : FileSystem} {ways : Path.Tidy → Prop} {dir : Path.Tidy}

/-! ## Directories -/

theorem allow_eq_ok {step : Step} {u : Unit} (h : refuse.allow step = .ok u) :
    refuse step = Option.none := by
  unfold Refusals.allow at h
  cases hstep : refuse step with
  | none => rfl
  | some cause =>
    rw [hstep] at h
    cases h

theorem createDirectory_eq_ok {path : String} (h : createDirectory refuse fs path = .ok fs') :
    refuse (.createDirectory path) = Option.none ∧
      ∃ l, fs.locate path = .ok l ∧ fs.lookup l = none ∧ fs' = fs.set l .directory := by
  unfold createDirectory at h
  obtain ⟨_, hallowed, h⟩ := exists_of_bind_eq_ok h
  obtain ⟨l, hl, h⟩ := exists_of_bind_eq_ok h
  refine ⟨allow_eq_ok hallowed, l, hl, ?_⟩
  cases he : fs.lookup l with
  | some entry =>
    rw [he] at h
    cases h
  | none =>
    rw [he] at h
    cases h
    exact ⟨rfl, rfl⟩

theorem acceptExisting_exec (cause : OsCause) (path : String) (fs : FileSystem) :
    ((acceptExisting cause path).exec fs).2 = fs := by
  unfold acceptExisting
  rw [FileAction.exec_get_bind]
  split <;> rfl

/-- A directory is made at one of the ways, where nothing stood. -/
def MakesDirectory (ways : Path.Tidy → Prop) (fs fs' : FileSystem) : Prop :=
  ∃ d l, ways d ∧ fs.locate d.toString = .ok l ∧ fs.lookup l = none ∧ fs' = fs.set l .directory

/-- Directories are made at the ways, one after the other. -/
abbrev MakesDirectories (ways : Path.Tidy → Prop) : FileSystem → FileSystem → Prop :=
  Relation.ReflTransGen (MakesDirectory ways)

theorem MakesDirectories.furnished (h : MakesDirectories ways fs fs') : Furnished ways fs fs' := by
  induction h with
  | refl => exact Furnished.refl fs
  | tail _ hlast ih =>
    obtain ⟨d, l, hd, hl, hmissing, rfl⟩ := hlast
    exact ih.trans (Furnished.set_directory hd hl hmissing)

theorem makeDirectory_makes (hdir : refuse (.createDirectory dir.toString) = none → ways dir)
    {above : FileAction Unit}
    (habove : ∀ fs, MakesDirectories ways fs (above.exec fs).2) (fs : FileSystem) :
    MakesDirectories ways fs ((makeDirectory refuse dir above).exec fs).2 := by
  unfold makeDirectory
  dsimp only
  split
  · exact .refl
  · rw [FileAction.exec_get_bind]
    split
    · next made hmade =>
      obtain ⟨hallowed, l, hl, hmissing, rfl⟩ := createDirectory_eq_ok hmade
      exact .single ⟨dir, l, hdir hallowed, hl, hmissing, rfl⟩
    · exact habove fs
    · rw [acceptExisting_exec]

/-- The directory `p` itself or one above it. -/
def AtOrAbove (p d : Path.Tidy) : Prop := d.root = p.root ∧ d.parts <+: p.parts

theorem AtOrAbove.refl (dir : Path.Tidy) : AtOrAbove dir dir := ⟨rfl, List.prefix_refl _⟩

theorem atOrAbove_parent {d : Path.Tidy} (h : AtOrAbove dir.parent d) : AtOrAbove dir d :=
  ⟨h.1, h.2.trans (List.dropLast_prefix _)⟩

/-- A directory at or above another one, and its creation is not refused. -/
structure Granted (refuse : Refusals) (p d : Path.Tidy) : Prop where
  above : AtOrAbove p d
  allowed : refuse (.createDirectory d.toString) = none

theorem makeDirectories_makes (fuel : Nat) (dir : Path.Tidy) (fs : FileSystem) :
    MakesDirectories (Granted refuse dir) fs ((makeDirectories refuse fuel dir).exec fs).2 := by
  induction fuel generalizing dir fs with
  | zero =>
    rw [makeDirectories]
    exact makeDirectory_makes (Granted.mk (AtOrAbove.refl dir)) (fun _ => .refl) fs
  | succ fuel ih =>
    have hdir : refuse (.createDirectory dir.toString) = Option.none → Granted refuse dir dir :=
      Granted.mk (AtOrAbove.refl dir)
    rw [makeDirectories]
    refine makeDirectory_makes hdir (fun fs => ?_) fs
    split
    · exact .refl
    · have hparent : MakesDirectories (Granted refuse dir) fs
          ((makeDirectories refuse fuel dir.parent).exec fs).2 := by
        refine Relation.ReflTransGen.mono ?_ _ _ (ih dir.parent fs)
        rintro fs fs' ⟨d, l, hd, hmade⟩
        exact ⟨d, l, ⟨atOrAbove_parent hd.above, hd.allowed⟩, hmade⟩
      rw [FileAction.exec_bind]
      rcases hrun : (makeDirectories refuse fuel dir.parent).exec fs with ⟨r, fs₁⟩
      rw [hrun] at hparent
      cases r with
      | error e => exact hparent
      | ok _ => exact hparent.trans (makeDirectory_makes hdir (fun _ => .refl) fs₁)

theorem makeDirectories_furnished (fuel : Nat) (dir : Path.Tidy) (fs : FileSystem) :
    Furnished (Granted refuse dir) fs ((makeDirectories refuse fuel dir).exec fs).2 :=
  (makeDirectories_makes fuel dir fs).furnished

/-! ## The temporary file -/

/-- A file is created where nothing stands. -/
theorem createFile_exec {path : String} {r : Except Error Location}
    (h : (createFile refuse path).exec fs = (r, fs')) :
    match r with
    | .ok l => fs.lookup l = none ∧ fs' = fs.set l (.file [])
    | .error _ => fs' = fs := by
  unfold createFile at h
  rw [FileAction.exec_get_bind] at h
  by_cases hnul : hasNul path = true
  · rw [if_pos hnul] at h
    cases h
    rfl
  · rw [if_neg hnul] at h
    cases hl : (do refuse.allow .createFile; fs.locate path : Except OsCause Location) with
    | error cause =>
      rw [hl] at h
      cases h
      rfl
    | ok l =>
      rw [hl] at h
      dsimp only at h
      by_cases htaken : (fs.lookup (spare l.dropLast)).isSome = true
      · rw [if_pos htaken] at h
        cases h
        rfl
      · rw [if_neg htaken] at h
        cases h
        exact ⟨by simpa using htaken, rfl⟩

theorem moveTarget_eq_ok {target : Path.Tidy} {place : Location}
    (h : moveTarget fs target = .ok place) :
    fs.locate target.toString = .ok place ∧ fs.lookup place ≠ some .directory := by
  unfold moveTarget at h
  obtain ⟨l, hl, h⟩ := exists_of_bind_eq_ok h
  dsimp only [bind, Except.bind] at h
  split at h
  · cases h
  · split at h
    · cases h
    · next hfree =>
      cases h
      exact ⟨hl, hfree⟩

/-- A file is moved to where no directory stands, or removed. -/
theorem moveInto_exec {temporary : String} {l : Location} {content : List UInt8}
    {target : Path.Tidy} {r : Except Error Unit}
    (h : (moveInto refuse temporary l content target).exec fs = (r, fs')) :
    match r with
    | .ok _ => ∃ place, fs.locate target.toString = .ok place ∧
        fs.lookup place ≠ some .directory ∧ fs' = (fs.erase l).set place (.file content)
    | .error _ => fs' = fs.erase l := by
  unfold moveInto at h
  rw [FileAction.exec_get_bind] at h
  cases hplace : (do refuse.allow .fillFile; refuse.allow .moveFile; moveTarget fs target :
    Except OsCause Location) with
  | error cause =>
    rw [hplace] at h
    cases h
    rfl
  | ok place =>
    rw [hplace] at h
    cases h
    obtain ⟨-, -, hplace⟩ := exists_of_bind_eq_ok hplace
    obtain ⟨-, -, hplace⟩ := exists_of_bind_eq_ok hplace
    obtain ⟨hlocate, hfree⟩ := moveTarget_eq_ok hplace
    exact ⟨place, hlocate, hfree, rfl⟩

/-! ## The whole write -/

/-- The tree in which the directories above a target have been made, as far as they can be. -/
def furnishedFor (refuse : Refusals) (target : Path.Tidy) (fs : FileSystem) : FileSystem :=
  ((makeDirectories refuse target.parent.parts.length target.parent).exec fs).2

theorem furnishedFor_furnished (target : Path.Tidy) (fs : FileSystem) :
    Furnished (Granted refuse target.parent) fs (furnishedFor refuse target fs) :=
  makeDirectories_furnished _ _ fs

/-- Directories are made, and then the target is set or nothing more happens. -/
theorem replaceFile_exec {path content : String} {r : Except Error Unit}
    (h : (replaceFile refuse path content).exec fs = (r, fs')) :
    match r with
    | .ok _ => ∃ place,
        (furnishedFor refuse (.ofString path) fs).locate (Path.tidy path) = .ok place ∧
          (furnishedFor refuse (.ofString path) fs).lookup place ≠ some .directory ∧
          fs' = (furnishedFor refuse (.ofString path) fs).set place (.file (Utf8.encode content))
    | .error _ => fs' = furnishedFor refuse (.ofString path) fs := by
  unfold replaceFile at h
  unfold furnishedFor
  dsimp only at h
  rw [FileAction.exec_bind] at h
  rcases hdirs : (makeDirectories refuse (Path.Tidy.ofString path).parent.parts.length
    (Path.Tidy.ofString path).parent).exec fs with ⟨made, fs₁⟩
  rw [hdirs] at h
  dsimp only
  cases made with
  | error e =>
    cases h
    rfl
  | ok _ =>
    dsimp only at h
    rw [FileAction.exec_get_bind, FileAction.exec_bind] at h
    generalize Path.join _ _ = temporary at h
    rcases hfile : (createFile refuse temporary).exec fs₁ with ⟨created, fs₂⟩
    rw [hfile] at h
    cases created with
    | error e =>
      cases h
      exact createFile_exec hfile
    | ok l =>
      obtain ⟨hfree, rfl⟩ := createFile_exec hfile
      have hmoved := moveInto_exec h
      rw [erase_set _ hfree] at hmoved
      cases r with
      | error e => exact hmoved
      | ok _ =>
        obtain ⟨place, hplace, hnot, hfs'⟩ := hmoved
        -- The temporary file is no directory, so it is on the way to none.
        have hempty : fs₁.lookup l ≠ some .directory := by simp [hfree]
        have hlocate := locate_mono (keepsDirectories_of_set [] hempty) hplace
        have hkeeps := keepsDirectories_set [] hempty
        exact ⟨place, hlocate, fun hdir => hnot (hkeeps.directory place hdir), hfs'⟩

/-- `fs'` is `fs` with the file `target`, which stands at `place`, set to `content`.  All else that is
new are directories above the target that were missing. -/
structure Replaced (target : Path.Tidy) (content : List UInt8) (fs fs' : FileSystem)
    (place : Location) : Prop where
  located : fs'.locate target.toString = .ok place
  free : fs.lookup place ≠ some .directory
  files : ∀ l bytes, fs'.lookup l = some (.file bytes) ↔
    if l = place then bytes = content else fs.lookup l = some (.file bytes)
  others : ∀ l, l ≠ place →
    fs'.lookup l = fs.lookup l ∨ Made (AtOrAbove target.parent) fs fs' l
  workdir : fs'.workdir = fs.workdir

/-- What a write of `content` to `target` may leave of `fs`, whether it returns or fails. -/
def AllOrNothing (target : Path.Tidy) (content : List UInt8) (fs : FileSystem) :
    Except Error Unit → FileSystem → Prop
  | .ok _, fs' => ∃ place, Replaced target content fs fs' place
  | .error _, fs' => SameFiles fs fs' ∧ Furnished (AtOrAbove target.parent) fs fs'

theorem replaced_set {target : Path.Tidy} {fs₁ : FileSystem} {place : Location}
    (content : List UInt8) (hmade : Furnished (AtOrAbove target.parent) fs fs₁)
    (hplace : fs₁.locate target.toString = .ok place) (hfree : fs₁.lookup place ≠ some .directory) :
    Replaced target content fs (fs₁.set place (.file content)) place := by
  have hlookup (l : Location) := lookup_set fs₁ l place (.file content) (ne_nil_of_lookup fs₁ hfree)
  have hkeeps := keepsDirectories_set content hfree
  refine ⟨locate_mono hkeeps hplace, fun hdir => hfree (hmade.keeps.directory place hdir),
    fun l bytes => ?_, fun l hl => ?_, hmade.workdir⟩
  · rw [hlookup]
    split
    · simp [eq_comm]
    · exact hmade.sameFiles l bytes
  · rw [hlookup, if_neg hl]
    refine (hmade.entry l).imp_right fun hm => ?_
    obtain ⟨d, hd, hway⟩ := hm.way
    exact ⟨hm.missing, by rw [hlookup, if_neg hl, hm.made], d, hd, locate_mono hkeeps hway⟩

theorem replaceFile_allOrNothing (path content : String) (fs : FileSystem) :
    AllOrNothing (Path.Tidy.ofString path) (Utf8.encode content) fs
      ((replaceFile refuse path content).exec fs).1
      ((replaceFile refuse path content).exec fs).2 := by
  rcases hrun : (replaceFile refuse path content).exec fs with ⟨r, fs'⟩
  have hrest := replaceFile_exec hrun
  have hmade := (@furnishedFor_furnished refuse (.ofString path) fs).mono
    fun d (hd : Granted refuse _ d) => hd.above
  cases r with
  | error e =>
    have hsame : fs' = furnishedFor refuse (.ofString path) fs := hrest
    rw [hsame]
    exact ⟨hmade.sameFiles, hmade⟩
  | ok _ =>
    obtain ⟨place, hplace, hfree, hset⟩ := hrest
    rw [hset]
    exact ⟨place, replaced_set _ hmade hplace hfree⟩

theorem writeUnder_of_valid {path content : String} {check : Bool}
    (h : check = true → Dart.validate content = .ok ()) :
    (writeUnder refuse path content check).exec fs =
      (replaceFile refuse path content).exec fs := by
  unfold writeUnder
  cases check with
  | false => rfl
  | true =>
    rw [if_pos rfl, FileAction.exec_lift_bind, h rfl]

theorem writeUnder_of_invalid {path content : String} {e : Error}
    (h : Dart.validate content = .error e) :
    (writeUnder refuse path content true).exec fs = (.error e, fs) := by
  unfold writeUnder
  rw [if_pos rfl, FileAction.exec_lift_bind, h]

theorem writeUnder_allOrNothing (path content : String) (check : Bool) (fs : FileSystem) :
    AllOrNothing (Path.Tidy.ofString path) (Utf8.encode content) fs
      ((writeUnder refuse path content check).exec fs).1
      ((writeUnder refuse path content check).exec fs).2 := by
  have hreplace := @replaceFile_allOrNothing refuse path content fs
  by_cases hvalid : check = true → Dart.validate content = .ok ()
  · rw [writeUnder_of_valid hvalid]
    exact hreplace
  · obtain ⟨rfl, hinvalid⟩ := Classical.not_imp.mp hvalid
    cases hcause : Dart.validate content with
    | ok _ => exact absurd hcause hinvalid
    | error e =>
      rw [writeUnder_of_invalid hcause]
      exact ⟨fun _ _ => Iff.rfl, Furnished.refl fs⟩

/-- Whatever steps are refused, a write either sets its target and no other file, or leaves all files
as they were.  A text that does not pass its check leaves the whole tree as it was. -/
theorem write_allOrNothing (refuse : Refusals) (path content : String) (check : Bool)
    (fs : FileSystem) :
    AllOrNothing (Path.Tidy.ofString path) (Utf8.encode content) fs
        ((writeUnder refuse path content check).exec fs).1
        ((writeUnder refuse path content check).exec fs).2 ∧
      ∀ e, check = true → Dart.validate content = .error e →
        (writeUnder refuse path content check).exec fs = (.error e, fs) := by
  refine ⟨writeUnder_allOrNothing path content check fs, fun e hcheck hvalid => ?_⟩
  rw [hcheck]
  exact writeUnder_of_invalid hvalid

end AtomicWrite

end DartModels
