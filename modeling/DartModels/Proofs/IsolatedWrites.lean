import DartModels.Proofs.SharedDirectories

/-!
# Isolated writes

A write touches its target, and the directories above it that were missing.  So writes whose targets
lie apart do not see each other, but for the directories that they share: a write ends in a tree where
others have written as it does in the tree that it would have found alone.

    what a write touches                                                   (replaceFile_written)
    trees stay beside each other when others write                              (Beside.of_written)
    a file takes its place from a temporary one, or the tree is as it was           (placeFile_exec)
    a write ends alike in trees beside each other                            (replaceFile_beside)
-/

namespace DartModels

open FileSystem

/-! ## What a write touches -/

namespace FileSystem

variable {denied : Location → Option OsCause} {place other : Location} {fs fs₁ fs₂ : FileSystem}

/-- A write to `place` has taken `fs` to `fs'`. -/
structure Written (denied : Location → Option OsCause) (place : Location) (fs fs' : FileSystem) :
    Prop where
  wellFormed : fs'.WellFormed
  workdir : fs'.workdir = fs.workdir
  entry : ∀ l, l = place ∨ fs'.lookup l = fs.lookup l ∨ l <+: place ∧ Opened denied fs fs' l

/-- Neither of two places lies at or below the other one. -/
def Apart (place other : Location) : Prop := ¬place <+: other ∧ ¬other <+: place

theorem Apart.symm (h : Apart place other) : Apart other place := ⟨h.2, h.1⟩

/-- What is written apart from a place adds at most directories above it. -/
theorem Beside.of_written (h : Beside denied place fs fs₁) (hw : Written denied other fs₁ fs₂)
    (hapart : Apart place other) : Beside denied place fs fs₂ := by
  refine ⟨h.left, hw.wellFormed, hw.workdir.trans h.workdir, fun l hl => ?_⟩
  rcases hw.entry l with rfl | hsame | ⟨hother, hopened⟩
  · exact absurd hl hapart.2
  · rw [hsame]
    refine (h.entry l hl).imp_right fun ⟨hne, hbefore⟩ => ⟨hne, hbefore.missing, ?_, hbefore.allowed⟩
    rw [hsame, hbefore.made]
  · have hne : l ≠ place := by
      rintro rfl
      exact hapart.1 hother
    refine Or.inr ⟨hne, ?_, hopened.made, hopened.allowed⟩
    rcases h.entry l hl with hsame | ⟨-, hbefore⟩
    · rw [← hsame, hopened.missing]
    · have hmade := hbefore.made
      rw [hopened.missing] at hmade
      cases hmade

end FileSystem

namespace AtomicWrite

variable {denied : Location → Option OsCause} {place base base' : Location}
  {names names' : List Path.Part} {fs fs₁ fs' : FileSystem} {refuse : Refusals} {dir target : Path.Tidy}

/-- Directories that are made lie at or above the one that is asked for. -/
theorem written_of_furnished (hfs : fs.WellFormed) (hway : Way fs.workdir dir base names)
    (hplace : Beside.OnWay place base names) (hdenies : Denies denied fs.workdir refuse)
    (h : Furnished (Granted refuse dir) fs fs') : Written denied place fs fs' := by
  -- Each directory that was made has a way, with at least one name.
  have hmade : ∀ l, Made (Granted refuse dir) fs fs' l → ∃ init q, l = base ++ (init ++ [q]) ∧
      init ++ [q] <+: names ∧ Path.Plain q ∧ fs'.lookup (base ++ init) = some .directory ∧
        isTooLong q = false ∧ denied l = none := by
    intro l hl
    obtain ⟨d, hd, hlocate⟩ := hl.way
    obtain ⟨base', names', hwayAbove, hnames⟩ := hway.above hd.above
    have hway' : Way fs'.workdir d base' names' := by rwa [h.workdir]
    obtain ⟨rfl, -, hwalk⟩ := hway'.locate_eq_ok hlocate
    obtain ⟨init, q, rfl⟩ := hwayAbove.exists_concat hfs (by rw [hl.missing]; exact nofun)
    obtain ⟨rfl, hwithin⟩ := hnames.resolve_left (by simp)
    have hbase := h.keeps.directory base' (hwayAbove.lookup_base hfs)
    obtain ⟨hinit, hshort⟩ := walk_concat_eq_ok hwayAbove.plain hbase hwalk
    exact ⟨init, q, rfl, hwithin, hwayAbove.plain q (by simp), hinit, hshort,
      (hdenies.refuse_eq _ _ _ hwayAbove).symm.trans hd.allowed⟩
  have hstands : ∀ l q, fs'.lookup (l ++ [q]) ≠ none →
      fs'.lookup l = some .directory ∧ Path.Plain q ∧ isTooLong q = false := by
    intro l q hq
    rcases h.entry (l ++ [q]) with hsame | hl
    · rw [hsame] at hq
      exact ⟨h.keeps.directory l (hfs.above l q hq), hfs.name l q hq⟩
    · obtain ⟨init, r, hlr, -, hplain, hinit, hshort, -⟩ := hmade _ hl
      rw [← List.append_assoc] at hlr
      obtain ⟨rfl, hqr⟩ := List.append_inj' hlr rfl
      cases hqr
      exact ⟨hinit, hplain, hshort⟩
  refine ⟨⟨h.keeps.workdir ▸ h.keeps.directory _ hfs.workdir, fun l q hq => (hstands l q hq).1,
    fun l q hq => (hstands l q hq).2⟩, h.workdir, fun l => Or.inr ?_⟩
  refine (h.entry l).imp_right fun hl => ?_
  obtain ⟨init, q, hlq, hwithin, -, -, -, hallowed⟩ := hmade l hl
  refine ⟨?_, hl.missing, hl.made, hallowed⟩
  rcases hplace with hnil | hbelow
  · rw [hnil, List.prefix_nil] at hwithin
    simp at hwithin
  · rw [hlq]
    exact ((List.prefix_append_right_inj base).mpr hwithin).trans hbelow

theorem replaceFile_written {path content : String} (hfs : fs.WellFormed)
    (htarget : Path.Tidy.ofString path = target) (hway : Way fs.workdir target base names)
    (hdenies : Denies denied fs.workdir refuse) :
    Written denied (base ++ names) fs ((replaceFile refuse path content).exec fs).2 := by
  have hplace : Beside.OnWay (base ++ names) base names := Or.inr (List.prefix_refl _)
  obtain ⟨base', names', hwayParent, hplaceParent⟩ := exists_way_parent hway hplace
  rcases hrun : (replaceFile refuse path content).exec fs with ⟨r, fs'⟩
  have hrest := replaceFile_exec hrun
  rw [htarget] at hrest
  have hdirs := written_of_furnished hfs hwayParent hplaceParent hdenies
    (furnishedFor_furnished target fs)
  generalize furnishedFor refuse target fs = fs₁ at hdirs hrest
  cases r with
  | error e =>
    have hsame : fs' = fs₁ := hrest
    rw [hsame]
    exact hdirs
  | ok _ =>
    obtain ⟨l, hlocate, hfree, rfl⟩ := hrest
    rw [Path.tidy, htarget] at hlocate
    have hway₁ : Way fs₁.workdir target base names := by rwa [hdirs.workdir]
    obtain ⟨rfl, -⟩ := hway₁.locate_eq_ok hlocate
    obtain ⟨init, q, rfl⟩ := hway₁.exists_concat hdirs.wellFormed hfree
    obtain ⟨hinit, hq⟩ := hway₁.open_of_locate hdirs.wellFormed hlocate
    have hlookup (l : Location) :=
      lookup_set fs₁ l (base ++ (init ++ [q])) (.file (Utf8.encode content)) (by simp)
    refine ⟨?_, hdirs.workdir, fun l => ?_⟩
    · rw [← List.append_assoc] at hfree ⊢
      exact hdirs.wellFormed.set hinit hq (Or.inr hfree)
    · by_cases hl : l = base ++ (init ++ [q])
      · exact Or.inl hl
      · rw [hlookup, if_neg hl]
        refine (hdirs.entry l).imp_right (Or.imp_right fun ⟨hbelow, hopened⟩ => ⟨hbelow, ?_⟩)
        exact ⟨hopened.missing, by rw [hlookup, if_neg hl, hopened.made], hopened.allowed⟩

/-! ## The temporary file -/

theorem createFile_of_nul {path : String} (h : hasNul path = true) :
    (createFile refuse path).exec fs = (.error .nulInPath, fs) := by
  unfold createFile
  rw [FileAction.exec_get_bind, if_pos h]
  rfl

theorem createFile_of_error {path : String} {cause : OsCause} (hnul : hasNul path = false)
    (h : (do refuse.allow .createFile; fs.locate path : Except OsCause Location) = .error cause) :
    (createFile refuse path).exec fs = (.error (.os cause path), fs) := by
  unfold createFile
  rw [FileAction.exec_get_bind, if_neg (by simp [hnul]), h]
  rfl

theorem createFile_of_ok {path : String} {l : Location} (hnul : hasNul path = false)
    (h : (do refuse.allow .createFile; fs.locate path : Except OsCause Location) = .ok l)
    (hfree : fs.lookup (spare l.dropLast) = none) :
    (createFile refuse path).exec fs =
      (.ok (spare l.dropLast), fs.set (spare l.dropLast) (.file [])) := by
  unfold createFile
  rw [FileAction.exec_get_bind, if_neg (by simp [hnul]), h]
  dsimp only
  rw [if_neg (by simp [hfree])]
  rfl

/-- No entry stands at a spare place. -/
theorem lookup_spare (hfs : fs.WellFormed) (l : Location) : fs.lookup (spare l) = none := by
  by_contra hsome
  exact (hfs.name l ['/'] hsome).1.noSlash List.mem_cons_self

/-- No way leads past a spare place. -/
theorem not_spare_prefix (hfs : fs.WellFormed) (hway : Way fs.workdir dir base names) (l : Location) :
    ¬spare l <+: base ++ names := by
  intro hwithin
  have hmem : ['/'] ∈ base ++ names := hwithin.mem (List.mem_append_right l List.mem_cons_self)
  have hplain : Path.Plain ['/'] := by
    rcases List.mem_append.mp hmem with hbase | hnames
    · exact hfs.plain_workdir _ (hway.base_prefix.mem hbase)
    · exact hway.plain _ hnames
  exact hplain.noSlash List.mem_cons_self

theorem plain_temporaryName {name : String} (h : '/' ∉ name.toList) :
    Path.Plain (temporaryName name).toList := by
  have htext : (temporaryName name).toList = '.' :: (name.toList ++ ".********.tmp".toList) := by
    unfold temporaryName
    rw [String.toList_append, String.toList_append]
    rfl
  have hlength : 13 ≤ (name.toList ++ ".********.tmp".toList).length := by
    rw [List.length_append]
    exact Nat.le_add_left 13 _
  refine ⟨⟨?_, ?_⟩, ?_⟩
  · rw [htext]
    cases htail : name.toList ++ ".********.tmp".toList with
    | nil =>
      rw [htail] at hlength
      cases hlength
    | cons c cs => rfl
  · rw [htext, List.mem_cons, List.mem_append]
    rintro (hdot | hname | hstars)
    · cases hdot
    · exact h hname
    · revert hstars
      decide
  · intro hdots
    rw [htext] at hdots
    have htail := congrArg List.length (List.cons.inj hdots).2
    rw [htail] at hlength
    exact absurd hlength (by decide)

/-- The temporary file stands beside the target, under a name of its own. -/
theorem exists_way_temporary (hfs : fs.WellFormed) (hway : Way fs.workdir dir base names)
    {name : String} (hname : '/' ∉ name.toList) :
    ∃ t : Path.Tidy, Path.join (fs.absolute dir.toString) (temporaryName name) = t.toString ∧
      Way fs.workdir t [] (base ++ names ++ [(temporaryName name).toList]) := by
  obtain ⟨root, hroot, habsolute⟩ := hway.absolute_eq hfs
  have hplain : ∀ q ∈ base ++ names, Path.Plain q := by
    intro q hq
    rcases List.mem_append.mp hq with hq | hq
    · exact hfs.plain_workdir q (hway.base_prefix.mem hq)
    · exact hway.plain q hq
  have htemporary := plain_temporaryName hname
  refine ⟨⟨root, base ++ names ++ [(temporaryName name).toList]⟩, ?_, ?_, Or.inr ⟨hroot, rfl, rfl⟩⟩
  · rw [← String.toList_inj, toList_toString, if_neg]
    · show (Path.join _ _).toList = Path.rooted root (base ++ names ++ [_])
      unfold Path.join
      rw [habsolute, String.toList_ofList, String.toList_ofList,
        Path.joinChars_rooted hroot hplain htemporary]
    · simp
    · intro q hq
      rcases List.mem_append.mp hq with hq | hq
      · exact (hplain q hq).toProper
      · rw [List.mem_singleton.mp hq]
        exact htemporary.toProper
  · intro q hq
    rcases List.mem_append.mp hq with hq | hq
    · exact hplain q hq
    · rw [List.mem_singleton.mp hq]
      exact htemporary

/-! ## The move -/

theorem moveTarget_congr (hlocate : fs₁.locate target.toString = fs.locate target.toString)
    (hentry : ∀ l, fs.locate target.toString = .ok l → fs₁.lookup l = fs.lookup l) :
    moveTarget fs₁ target = moveTarget fs target := by
  unfold moveTarget
  rw [hlocate]
  cases hl : fs.locate target.toString with
  | error cause => rfl
  | ok l =>
    simp only [bind, Except.bind]
    rw [hentry l hl]

/-- The temporary file does not stand in the way of its target. -/
theorem moveTarget_spare (hfs : fs.WellFormed) (hway : Way fs.workdir target base names)
    (l : Location) (content : List UInt8) :
    moveTarget (fs.set (spare l) (.file content)) target = moveTarget fs target := by
  have hentry : ∀ l', l' <+: base ++ names →
      (fs.set (spare l) (.file content)).lookup l' = fs.lookup l' := by
    intro l' hl'
    have hne : l' ≠ spare l := by
      rintro rfl
      exact not_spare_prefix hfs hway l hl'
    rw [lookup_set _ _ _ _ (by simp [spare]), if_neg hne]
  refine moveTarget_congr ?_ fun l' hl' => ?_
  · have hlocate : (fs.set (spare l) (.file content)).locate target.toString = _ := hway.locate_eq rfl
    rw [hlocate, walk_congr hway.plain hentry, hway.locate_eq rfl]
  · rw [(hway.locate_eq_ok hl').1]
    exact hentry _ (List.prefix_refl _)

/-- A temporary file is moved to its target, or is gone. -/
theorem moveInto_spare {temporary : String} {content : List UInt8} (hfs : fs.WellFormed)
    (hway : Way fs.workdir target base names) (l : Location) :
    (moveInto refuse temporary (spare l) content target).exec (fs.set (spare l) (.file [])) =
      match (do refuse.allow .fillFile; refuse.allow .moveFile; moveTarget fs target :
        Except OsCause Location) with
      | .ok place => (.ok (), fs.set place (.file content))
      | .error cause => (.error (.osPair cause temporary target.toString), fs) := by
  unfold moveInto
  rw [FileAction.exec_get_bind, moveTarget_spare hfs hway, erase_set _ (lookup_spare hfs l)]
  split
  · next place hplace =>
    rw [hplace]
    rfl
  · next cause hcause =>
    rw [hcause]
    rfl

/-! ## Placing a file -/

/-- The place that a file takes from a temporary one, or why it does not take it. -/
def placing (refuse : Refusals) (fs : FileSystem) (t target : Path.Tidy) : Except Error Location := do
  if hasNul t.toString then throw .nulInPath
  let _ ← (do refuse.allow .createFile; fs.locate t.toString).mapError (Error.os · t.toString)
  (do refuse.allow .fillFile; refuse.allow .moveFile; moveTarget fs target).mapError
    (Error.osPair · t.toString target.toString)

theorem placing_eq_ok_iff {t : Path.Tidy} {place : Location} :
    placing refuse fs t target = .ok place ↔
      hasNul t.toString = false ∧
        (∃ l, (do refuse.allow .createFile; fs.locate t.toString : Except OsCause Location) = .ok l) ∧
        refuse.allow .fillFile = .ok () ∧ refuse.allow .moveFile = .ok () ∧
        moveTarget fs target = .ok place := by
  unfold placing
  cases hasNul t.toString with
  | true => exact iff_of_false nofun fun h => nomatch h.1
  | false =>
    cases (do refuse.allow .createFile; fs.locate t.toString : Except OsCause Location) with
    | error cause => exact iff_of_false nofun fun h => nomatch h.2.1
    | ok l =>
      cases refuse.allow .fillFile with
      | error cause => exact iff_of_false nofun fun h => nomatch h.2.2.1
      | ok _ =>
        cases refuse.allow .moveFile with
        | error cause => exact iff_of_false nofun fun h => nomatch h.2.2.2.1
        | ok _ =>
          cases moveTarget fs target with
          | error cause => exact iff_of_false nofun fun h => nomatch h.2.2.2.2
          | ok place' =>
            constructor
            · intro h
              cases h
              exact ⟨rfl, ⟨l, rfl⟩, rfl, rfl, rfl⟩
            · rintro ⟨-, -, -, -, hmove⟩
              cases hmove
              rfl

/-- A temporary file is made and moved, or the tree is as it was. -/
theorem placeFile_exec {t : Path.Tidy} {content : List UInt8} (hfs : fs.WellFormed)
    (hway : Way fs.workdir target base names) :
    (createFile refuse t.toString >>= fun l => moveInto refuse t.toString l content target).exec fs =
      match placing refuse fs t target with
      | .ok place => (.ok (), fs.set place (.file content))
      | .error e => (.error e, fs) := by
  unfold placing
  cases hnul : hasNul t.toString with
  | true =>
    rw [FileAction.exec_bind, createFile_of_nul hnul]
    rfl
  | false =>
    cases hcreate : (do refuse.allow .createFile; fs.locate t.toString : Except OsCause Location) with
    | error cause =>
      rw [FileAction.exec_bind, createFile_of_error hnul hcreate]
      rfl
    | ok l =>
      rw [FileAction.exec_bind_ok (createFile_of_ok hnul hcreate (lookup_spare hfs _)),
        moveInto_spare hfs hway]
      cases (do refuse.allow .fillFile; refuse.allow .moveFile; moveTarget fs target :
        Except OsCause Location) <;> rfl

/-- Where the directory of the target stands in both trees, the file is placed in both or in
neither. -/
theorem placeFile_beside {t : Path.Tidy} {name : Path.Part} {content : List UInt8}
    (hway : Way fs.workdir target base names) (hparent : Way fs.workdir target.parent base' names')
    (htemporary : Way fs.workdir t [] (base' ++ names' ++ [name]))
    (hside : Beside denied (base ++ names) fs fs₁)
    (hdir : fs.isDirectory target.parent.toString = true)
    (hdir₁ : fs₁.isDirectory target.parent.toString = true) :
    Alike denied (base ++ names) target.parent
      ((createFile refuse t.toString >>= fun l =>
        moveInto refuse t.toString l content target).exec fs)
      ((createFile refuse t.toString >>= fun l =>
        moveInto refuse t.toString l content target).exec fs₁) := by
  have hway₁ : Way fs₁.workdir target base names := by rwa [hside.workdir]
  have hparent₁ : Way fs₁.workdir target.parent base' names' := by rwa [hside.workdir]
  have htemporary₁ : Way fs₁.workdir t [] (base' ++ names' ++ [name]) := by rwa [hside.workdir]
  obtain ⟨-, -, hstands⟩ := (hparent.isDirectory_iff hside.left).mp hdir
  obtain ⟨-, -, hstands₁⟩ := (hparent₁.isDirectory_iff hside.right).mp hdir₁
  have hlocate : fs₁.locate t.toString = fs.locate t.toString := by
    rw [htemporary.locate_open hside.left hstands, htemporary₁.locate_open hside.right hstands₁]
  have hmove : moveTarget fs₁ target = moveTarget fs target := by
    refine moveTarget_congr
      (locate_eq_of_parent hway (Or.inr (List.prefix_refl _)) hside hdir) fun l hl => ?_
    rw [(hway.locate_eq_ok hl).1]
    exact hside.lookup_place
  have hsame : placing refuse fs₁ t target = placing refuse fs t target := by
    unfold placing
    rw [hlocate, hmove]
  rw [placeFile_exec hside.left hway, placeFile_exec hside.right hway₁, hsame]
  cases hplaced : placing refuse fs t target with
  | error e => exact .error _ hside
  | ok place =>
    obtain ⟨-, -, -, -, hmoved⟩ := placing_eq_ok_iff.mp hplaced
    obtain ⟨hto, hfree⟩ := moveTarget_eq_ok hmoved
    obtain ⟨hto₁, hfree₁⟩ := moveTarget_eq_ok (hmove.trans hmoved)
    obtain ⟨rfl, -⟩ := hway.locate_eq_ok hto
    obtain ⟨init, q, rfl⟩ := hway.exists_concat hside.left hfree
    obtain ⟨hinit, hq⟩ := hway.open_of_locate hside.left hto
    obtain ⟨hinit₁, -⟩ := hway₁.open_of_locate hside.right hto₁
    rw [← List.append_assoc] at hfree hfree₁ hside ⊢
    exact .ok (hside.set_both hinit hinit₁ hq (Or.inr hfree) (Or.inr hfree₁))

/-! ## The whole write -/

/-- A write ends alike in trees beside each other. -/
theorem replaceFile_beside {path content : String} (htarget : Path.Tidy.ofString path = target)
    (hway : Way fs.workdir target base names)
    (hdenies : Denies denied fs.workdir refuse) (hside : Beside denied (base ++ names) fs fs₁) :
    Alike denied (base ++ names) target.parent ((replaceFile refuse path content).exec fs)
      ((replaceFile refuse path content).exec fs₁) := by
  obtain ⟨base', names', hparent, hplace⟩ := exists_way_parent hway (Or.inr (List.prefix_refl _))
  have hdirs := makeDirectories_beside _ rfl hparent hplace hdenies hside
  have hworkdir :=
    (@makeDirectories_furnished refuse target.parent.parts.length target.parent fs).workdir
  unfold replaceFile
  dsimp only
  rw [htarget, FileAction.exec_bind, FileAction.exec_bind]
  obtain ⟨hresult, hside'⟩ := hdirs
  rcases hrun : (makeDirectories refuse target.parent.parts.length target.parent).exec fs with ⟨r, fs'⟩
  rcases hrun₁ : (makeDirectories refuse target.parent.parts.length target.parent).exec fs₁ with
    ⟨r₁, fs₁'⟩
  rw [hrun, hrun₁] at hresult hside'
  rw [hrun] at hworkdir
  cases r with
  | error e =>
    cases r₁ with
    | error e₁ => exact ⟨hresult, hside'⟩
    | ok _ => exact hresult.elim
  | ok _ =>
    cases r₁ with
    | error e₁ => exact hresult.elim
    | ok _ =>
      have hdirectory := makeDirectories_isDirectory _ hrun
      have hdirectory₁ := makeDirectories_isDirectory _ hrun₁
      rw [← hworkdir] at hway hparent
      obtain ⟨t, htext, htemporary⟩ := exists_way_temporary hside'.left hparent hway.noSlash_name
      have habsolute : fs₁'.absolute target.parent.toString = fs'.absolute target.parent.toString := by
        unfold absolute workdirPath
        rw [hside'.workdir]
      dsimp only
      rw [FileAction.exec_get_bind, FileAction.exec_get_bind, habsolute, htext]
      exact placeFile_beside hway hparent htemporary hside' hdirectory hdirectory₁

end AtomicWrite

end DartModels
