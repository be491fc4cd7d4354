import DartModels.Proofs.Ways

/-!
# Directories that other tasks made

Tasks that write to different places share the directories above their targets, so a task may find
directories that it would have made itself.  It makes the same directories in the end: a tree in which
some of them stand already is taken to one that agrees with the tree of the task on its own.

    walks in both trees end alike, or one of them comes further                       (walk_beside)
    one directory is made in both trees, or in neither                       (makeDirectory_beside)
    all directories above a target are made in both trees, or the task fails in both
                                                                           (makeDirectories_beside)

The reasons for a failure agree but for one case: of a directory with a name that is too long, the
system names the first path that it was asked to create, which depends on what stood there.
-/

namespace DartModels

open FileSystem

namespace AtomicWrite

variable {refuse : Refusals} {dir : Path.Tidy} {above : FileAction Unit}
  {fs fs₁ : FileSystem} {cause : OsCause}

/-! ## One directory -/

theorem createDirectory_of_refused {path : String}
    (h : refuse (.createDirectory path) = some cause) :
    createDirectory refuse fs path = .error cause := by
  unfold createDirectory Refusals.allow
  rw [h]
  rfl

theorem createDirectory_of_locate {path : String} (h : refuse (.createDirectory path) = none) :
    createDirectory refuse fs path =
      match fs.locate path with
      | .error cause => .error cause
      | .ok l => if (fs.lookup l).isSome then .error .fileExists else .ok (fs.set l .directory) := by
  unfold createDirectory Refusals.allow
  rw [h]
  cases fs.locate path with
  | error cause => rfl
  | ok l =>
    simp only [bind, Except.bind]
    cases fs.lookup l with
    | none => rfl
    | some entry => rfl

theorem makeDirectory_of_nul (h : hasNul dir.toString = true) :
    (makeDirectory refuse dir above).exec fs = (.error .nulInPath, fs) := by
  unfold makeDirectory
  dsimp only
  rw [if_pos h]
  rfl

theorem makeDirectory_of_ok (hnul : hasNul dir.toString = false)
    (h : createDirectory refuse fs dir.toString = .ok fs₁) :
    (makeDirectory refuse dir above).exec fs = (.ok (), fs₁) := by
  unfold makeDirectory
  dsimp only
  rw [if_neg (by simp [hnul]), FileAction.exec_get_bind, h]
  rfl

theorem makeDirectory_of_noEntry (hnul : hasNul dir.toString = false)
    (h : createDirectory refuse fs dir.toString = .error .noEntry) :
    (makeDirectory refuse dir above).exec fs = above.exec fs := by
  unfold makeDirectory
  dsimp only
  rw [if_neg (by simp [hnul]), FileAction.exec_get_bind, h]

theorem makeDirectory_of_error (hnul : hasNul dir.toString = false)
    (h : createDirectory refuse fs dir.toString = .error cause) (hne : cause ≠ .noEntry) :
    (makeDirectory refuse dir above).exec fs =
      if fs.isDirectory dir.toString then (.ok (), fs)
      else (.error (.os cause dir.toString), fs) := by
  have haccept : (makeDirectory refuse dir above).exec fs =
      (acceptExisting cause dir.toString).exec fs := by
    unfold makeDirectory
    dsimp only
    rw [if_neg (by simp [hnul]), FileAction.exec_get_bind, h]
    cases cause <;> first | rfl | exact absurd rfl hne
  rw [haccept]
  unfold acceptExisting
  rw [FileAction.exec_get_bind]
  split <;> rfl

end AtomicWrite

/-! ## Two trees -/

namespace FileSystem

variable {denied : Location → Option OsCause} {place l : Location} {fs fs₁ : FileSystem}

/-- A directory that was missing stands, and its creation is not denied. -/
structure Opened (denied : Location → Option OsCause) (fs fs' : FileSystem) (l : Location) : Prop where
  missing : fs.lookup l = none
  made : fs'.lookup l = some .directory
  allowed : denied l = none

/-- On the way to `place`, the tree `fs₁` differs from `fs` by directories that others made.  The entry
at `place` itself is the same. -/
structure Beside (denied : Location → Option OsCause) (place : Location) (fs fs₁ : FileSystem) :
    Prop where
  left : fs.WellFormed
  right : fs₁.WellFormed
  workdir : fs₁.workdir = fs.workdir
  entry : ∀ l, l <+: place → fs₁.lookup l = fs.lookup l ∨ l ≠ place ∧ Opened denied fs fs₁ l

namespace Beside

theorem refl (h : fs.WellFormed) : Beside denied place fs fs := ⟨h, h, rfl, fun _ _ => Or.inl rfl⟩

theorem lookup_place (h : Beside denied place fs fs₁) : fs₁.lookup place = fs.lookup place := by
  rcases h.entry place (List.prefix_refl place) with hsame | ⟨hne, -⟩
  · exact hsame
  · exact absurd rfl hne

theorem directory (h : Beside denied place fs fs₁) (hl : l <+: place)
    (hd : fs.lookup l = some .directory) : fs₁.lookup l = some .directory := by
  rcases h.entry l hl with hsame | ⟨-, hopened⟩
  · rw [hsame, hd]
  · exact hopened.made

/-- The same directory in both trees. -/
theorem set_both {q : Path.Part} {entry : Entry} (h : Beside denied place fs fs₁)
    (hl : fs.lookup l = some .directory) (hl₁ : fs₁.lookup l = some .directory)
    (hq : Path.Plain q ∧ isTooLong q = false)
    (hfree : entry = .directory ∨ fs.lookup (l ++ [q]) ≠ some .directory)
    (hfree₁ : entry = .directory ∨ fs₁.lookup (l ++ [q]) ≠ some .directory) :
    Beside denied place (fs.set (l ++ [q]) entry) (fs₁.set (l ++ [q]) entry) := by
  have hne : l ++ [q] ≠ [] := by simp
  refine ⟨h.left.set hl hq hfree, h.right.set hl₁ hq hfree₁, h.workdir, fun l' hl' => ?_⟩
  by_cases hsame : l' = l ++ [q]
  · rw [lookup_set _ _ _ _ hne, lookup_set _ _ _ _ hne, if_pos hsame, if_pos hsame]
    exact Or.inl rfl
  · have hlookup : (fs.set (l ++ [q]) entry).lookup l' = fs.lookup l' := by
      rw [lookup_set _ _ _ _ hne, if_neg hsame]
    have hlookup₁ : (fs₁.set (l ++ [q]) entry).lookup l' = fs₁.lookup l' := by
      rw [lookup_set _ _ _ _ hne, if_neg hsame]
    rw [hlookup, hlookup₁]
    refine (h.entry l' hl').imp_right fun ⟨hplace, hopened⟩ => ⟨hplace, ?_⟩
    exact ⟨hlookup.trans hopened.missing, hlookup₁.trans hopened.made, hopened.allowed⟩

/-- A directory is made in `fs` that stands in `fs₁` already. -/
theorem set_left {q : Path.Part} (h : Beside denied place fs fs₁)
    (hl : fs.lookup l = some .directory) (hq : Path.Plain q ∧ isTooLong q = false)
    (hmade : fs₁.lookup (l ++ [q]) = some .directory) :
    Beside denied place (fs.set (l ++ [q]) .directory) fs₁ := by
  have hne : l ++ [q] ≠ [] := by simp
  refine ⟨h.left.set hl hq (Or.inl rfl), h.right, h.workdir, fun l' hl' => ?_⟩
  by_cases hsame : l' = l ++ [q]
  · rw [lookup_set _ _ _ _ hne, if_pos hsame, hsame, hmade]
    exact Or.inl rfl
  · have hlookup : (fs.set (l ++ [q]) .directory).lookup l' = fs.lookup l' := by
      rw [lookup_set _ _ _ _ hne, if_neg hsame]
    rw [hlookup]
    refine (h.entry l' hl').imp_right fun ⟨hplace, hopened⟩ => ⟨hplace, ?_⟩
    exact ⟨hlookup.trans hopened.missing, hopened.made, hopened.allowed⟩

/-! ### Walks -/

/-- Below a directory that others made there are only such directories. -/
theorem walk_below_missing (h : Beside denied place fs fs₁) {current : Location}
    {names : List Path.Part} (hplain : ∀ q ∈ names, Path.Plain q) (hway : current ++ names <+: place)
    (hmissing : fs.lookup current = none) :
    fs₁.walk current names = .ok (current ++ names) ∨ fs₁.walk current names = .error .noEntry ∨
      fs₁.walk current names = .error .nameTooLong := by
  induction names generalizing current with
  | nil =>
    rw [walk, List.append_nil]
    exact Or.inl rfl
  | cons q names ih =>
    obtain ⟨hq, hplain⟩ := List.forall_mem_cons.mp hplain
    cases hlong : isTooLong q with
    | true =>
      refine Or.inr (Or.inr ?_)
      by_cases hnames : names = []
      · rw [hnames, walk_singleton hq, hlong]
        rfl
      · rw [walk_cons hq hnames, hlong]
        rfl
    | false =>
      by_cases hnames : names = []
      · rw [hnames, walk_singleton hq, hlong]
        exact Or.inl rfl
      · rw [walk_cons hq hnames, hlong]
        have hrest : current ++ [q] ++ names <+: place := by rwa [List.append_assoc]
        have hnext : fs.lookup (current ++ [q]) = none := by
          by_contra hsome
          have hhere := h.left.above current q hsome
          rw [hmissing] at hhere
          cases hhere
        rcases h.entry (current ++ [q]) ((List.prefix_append _ names).trans hrest) with
          hsame | ⟨-, hopened⟩
        · rw [hsame, hnext]
          exact Or.inr (Or.inl rfl)
        · rw [hopened.made]
          have hwalk := ih hplain hrest hopened.missing
          rwa [List.append_assoc] at hwalk

/-- A walk ends in both trees alike, or it stops in `fs` where others made a directory. -/
theorem walk_beside (h : Beside denied place fs fs₁) {current : Location}
    {names : List Path.Part} (hplain : ∀ q ∈ names, Path.Plain q)
    (hway : current ++ names <+: place) :
    fs₁.walk current names = fs.walk current names ∨
      fs.walk current names = .error .noEntry ∧
        (fs₁.walk current names = .ok (current ++ names) ∨
          fs₁.walk current names = .error .nameTooLong) := by
  induction names generalizing current with
  | nil => exact Or.inl rfl
  | cons q names ih =>
    obtain ⟨hq, hplain⟩ := List.forall_mem_cons.mp hplain
    by_cases hnames : names = []
    · rw [hnames, walk_singleton hq, walk_singleton hq]
      exact Or.inl rfl
    · rw [walk_cons hq hnames, walk_cons hq hnames]
      cases hlong : isTooLong q with
      | true => exact Or.inl rfl
      | false =>
        have hrest : current ++ [q] ++ names <+: place := by rwa [List.append_assoc]
        rcases h.entry (current ++ [q]) ((List.prefix_append _ names).trans hrest) with
          hsame | ⟨-, hopened⟩
        · rw [hsame]
          cases fs.lookup (current ++ [q]) with
          | none => exact Or.inl rfl
          | some entry =>
            cases entry with
            | file content => exact Or.inl rfl
            | directory =>
              have hwalk := ih hplain hrest
              rwa [List.append_assoc] at hwalk
        · rw [hopened.missing, hopened.made]
          have hwalk := h.walk_below_missing hplain hrest hopened.missing
          rw [List.append_assoc] at hwalk
          rcases hwalk with hok | hnone | hfar
          · exact Or.inr ⟨rfl, Or.inl hok⟩
          · exact Or.inl hnone
          · exact Or.inr ⟨rfl, Or.inr hfar⟩

/-! ### Ways -/

variable {dir : Path.Tidy} {base : Location} {names : List Path.Part}

/-- On the way to `place`, or above the working directory. -/
def OnWay (place base : Location) (names : List Path.Part) : Prop :=
  names = [] ∨ base ++ names <+: place

theorem entry_way (h : Beside denied place fs fs₁) (hway : Way fs.workdir dir base names)
    (hplace : OnWay place base names) :
    fs₁.lookup (base ++ names) = fs.lookup (base ++ names) ∨ Opened denied fs fs₁ (base ++ names) := by
  rcases hplace with hnil | hbelow
  · left
    have hway₁ : Way fs₁.workdir dir base names := by rwa [h.workdir]
    rw [hnil, List.append_nil, hway.lookup_base h.left, hway₁.lookup_base h.right]
  · exact (h.entry _ hbelow).imp_right fun hopened => hopened.2

theorem locate_beside (h : Beside denied place fs fs₁) (hway : Way fs.workdir dir base names)
    (hplace : OnWay place base names) :
    fs₁.locate dir.toString = fs.locate dir.toString ∨
      names ≠ [] ∧ ¬maxPath < dir.toString.utf8ByteSize ∧
        fs.locate dir.toString = .error .noEntry ∧
        (fs₁.locate dir.toString = .ok (base ++ names) ∨
          fs₁.locate dir.toString = .error .nameTooLong) := by
  rw [hway.locate_eq rfl, hway.locate_eq h.workdir]
  by_cases hsize : maxPath < dir.toString.utf8ByteSize
  · rw [if_pos hsize, if_pos hsize]
    exact Or.inl rfl
  · rw [if_neg hsize, if_neg hsize]
    rcases hplace with hnil | hbelow
    · rw [hnil]
      exact Or.inl rfl
    · refine (h.walk_beside hway.plain hbelow).imp_right fun ⟨hmissing, hfar⟩ => ?_
      refine ⟨fun hnil => ?_, hsize, hmissing, hfar⟩
      rw [hnil] at hmissing
      cases hmissing

theorem isDirectory_of_same (h : Beside denied place fs fs₁) (hway : Way fs.workdir dir base names)
    (hsame : fs₁.lookup (base ++ names) = fs.lookup (base ++ names)) :
    fs₁.isDirectory dir.toString = fs.isDirectory dir.toString := by
  have hway₁ : Way fs₁.workdir dir base names := by rwa [h.workdir]
  rw [Bool.eq_iff_iff, hway.isDirectory_iff h.left, hway₁.isDirectory_iff h.right, hsame]

end Beside

end FileSystem

namespace AtomicWrite

variable {denied : Location → Option OsCause} {place base : Location} {names : List Path.Part}
  {fs fs₁ fs' : FileSystem} {refuse : Refusals} {dir : Path.Tidy} {above : FileAction Unit}

/-! ## Outcomes -/

/-- Both errors blame a directory at or above `dir` for a name that is too long, and `dir` has such a
name. -/
structure LongAbove (dir : Path.Tidy) (e e₁ : Error) : Prop where
  long : ∃ q ∈ dir.parts, isTooLong q = true
  left : ∃ d, AtOrAbove dir d ∧ e = .os .nameTooLong d.toString
  right : ∃ d, AtOrAbove dir d ∧ e₁ = .os .nameTooLong d.toString

/-- Both results are fine, or both are errors, the same one unless a name above is too long. -/
def SameResult (dir : Path.Tidy) : Except Error Unit → Except Error Unit → Prop
  | .ok _, .ok _ => True
  | .error e, .error e₁ => e₁ = e ∨ LongAbove dir e e₁
  | _, _ => False

/-- An action has ended alike in two trees, and left them beside each other. -/
structure Alike (denied : Location → Option OsCause) (place : Location) (dir : Path.Tidy)
    (x x₁ : Except Error Unit × FileSystem) : Prop where
  result : SameResult dir x.1 x₁.1
  beside : Beside denied place x.2 x₁.2

/-- What `refuse` says of directories is the same for all paths that lead to one place.  A place that
has a name that is too long is not looked at. -/
structure Denies (denied : Location → Option OsCause) (workdir : Location) (refuse : Refusals) :
    Prop where
  refuse_eq : ∀ p base names, Way workdir p base names →
    refuse (.createDirectory p.toString) = denied (base ++ names)
  long : ∀ l, (∃ q ∈ l, isTooLong q = true) → denied l = none

namespace Alike

theorem error (e : Error) (h : Beside denied place fs fs₁) :
    Alike denied place dir (.error e, fs) (.error e, fs₁) := ⟨Or.inl rfl, h⟩

theorem ok (h : Beside denied place fs fs₁) : Alike denied place dir (.ok (), fs) (.ok (), fs₁) :=
  ⟨trivial, h⟩

end Alike

theorem LongAbove.of_parent {e e₁ : Error} (h : LongAbove dir.parent e e₁) : LongAbove dir e e₁ := by
  obtain ⟨q, hq, hlong⟩ := h.long
  obtain ⟨d, hd, he⟩ := h.left
  obtain ⟨d₁, hd₁, he₁⟩ := h.right
  exact ⟨⟨q, (List.dropLast_prefix dir.parts).mem hq, hlong⟩, ⟨d, atOrAbove_parent hd, he⟩,
    ⟨d₁, atOrAbove_parent hd₁, he₁⟩⟩

/-! ## One directory in two trees -/

/-- The creation of a directory fails in both trees alike. -/
theorem makeDirectory_beside_error {cause : OsCause} (hside : Beside denied place fs fs₁)
    (h : createDirectory refuse fs dir.toString = .error cause)
    (h₁ : createDirectory refuse fs₁ dir.toString = .error cause)
    (hdir : fs₁.isDirectory dir.toString = fs.isDirectory dir.toString)
    (habove : Alike denied place dir (above.exec fs) (above.exec fs₁)) :
    Alike denied place dir ((makeDirectory refuse dir above).exec fs)
      ((makeDirectory refuse dir above).exec fs₁) := by
  cases hnul : hasNul dir.toString with
  | true =>
    rw [makeDirectory_of_nul hnul, makeDirectory_of_nul hnul]
    exact .error _ hside
  | false =>
    by_cases hcause : cause = .noEntry
    · rw [hcause] at h h₁
      rw [makeDirectory_of_noEntry hnul h, makeDirectory_of_noEntry hnul h₁]
      exact habove
    · rw [makeDirectory_of_error hnul h hcause, makeDirectory_of_error hnul h₁ hcause, hdir]
      split
      · exact .ok hside
      · exact .error _ hside

/-- Where nothing stands, a directory is made, unless the other tree has it already. -/
theorem makeDirectory_beside_missing (hway : Way fs.workdir dir base names)
    (hplace : Beside.OnWay place base names) (hside : Beside denied place fs fs₁)
    (hrefuse : refuse (.createDirectory dir.toString) = none) {l : Location}
    (hlocate : fs.locate dir.toString = .ok l) (hlocate₁ : fs₁.locate dir.toString = .ok l)
    (hmissing : fs.lookup (base ++ names) = none) :
    Alike denied place dir ((makeDirectory refuse dir above).exec fs)
      ((makeDirectory refuse dir above).exec fs₁) := by
  have hway₁ : Way fs₁.workdir dir base names := by rwa [hside.workdir]
  obtain ⟨hl, hsize, -⟩ := hway.locate_eq_ok hlocate
  have hcreate := @createDirectory_of_locate refuse fs _ hrefuse
  have hcreate₁ := @createDirectory_of_locate refuse fs₁ _ hrefuse
  rw [hlocate, hl] at hcreate
  rw [hlocate₁, hl] at hcreate₁
  dsimp only at hcreate hcreate₁
  rw [hmissing] at hcreate
  cases hnul : hasNul dir.toString with
  | true =>
    rw [makeDirectory_of_nul hnul, makeDirectory_of_nul hnul]
    exact .error _ hside
  | false =>
    obtain ⟨init, q, rfl⟩ := hway.exists_concat hside.left (by rw [hmissing]; exact nofun)
    obtain ⟨hinit, hq⟩ := hway.open_of_locate hside.left hlocate
    obtain ⟨hinit₁, -⟩ := hway₁.open_of_locate hside.right hlocate₁
    rw [makeDirectory_of_ok hnul hcreate]
    rcases hside.entry_way hway hplace with hentry | hopened
    · rw [hentry, hmissing] at hcreate₁
      rw [makeDirectory_of_ok hnul hcreate₁, ← List.append_assoc]
      exact .ok (hside.set_both hinit hinit₁ hq (Or.inl rfl) (Or.inl rfl))
    · have hdirectory : fs₁.isDirectory dir.toString = true :=
        (hway₁.isDirectory_iff hside.right).mpr ⟨hnul, hsize, hopened.made⟩
      have hmade := hopened.made
      rw [hmade] at hcreate₁
      rw [makeDirectory_of_error hnul hcreate₁ nofun, hdirectory]
      rw [← List.append_assoc] at hmade ⊢
      exact .ok (hside.set_left hinit hq hmade)

/-- Where both trees lead alike, a directory is made in both or in neither. -/
theorem makeDirectory_beside (hway : Way fs.workdir dir base names)
    (hplace : Beside.OnWay place base names) (hdenies : Denies denied fs.workdir refuse)
    (hside : Beside denied place fs fs₁)
    (hsame : refuse (.createDirectory dir.toString) = none →
      fs₁.locate dir.toString = fs.locate dir.toString)
    (habove : Alike denied place dir (above.exec fs) (above.exec fs₁)) :
    Alike denied place dir ((makeDirectory refuse dir above).exec fs)
      ((makeDirectory refuse dir above).exec fs₁) := by
  cases hrefuse : refuse (.createDirectory dir.toString) with
  | some cause =>
    have hentry : fs₁.lookup (base ++ names) = fs.lookup (base ++ names) := by
      rcases hside.entry_way hway hplace with hentry | hopened
      · exact hentry
      · rw [hdenies.refuse_eq dir base names hway, hopened.allowed] at hrefuse
        cases hrefuse
    exact makeDirectory_beside_error hside (createDirectory_of_refused hrefuse)
      (createDirectory_of_refused hrefuse) (hside.isDirectory_of_same hway hentry) habove
  | none =>
    have hcreate := @createDirectory_of_locate refuse fs _ hrefuse
    have hcreate₁ := @createDirectory_of_locate refuse fs₁ _ hrefuse
    rw [hsame hrefuse] at hcreate₁
    cases hlocate : fs.locate dir.toString with
    | error cause =>
      have hdir : fs₁.isDirectory dir.toString = fs.isDirectory dir.toString := by
        rw [isDirectory_of_locate_error hlocate,
          isDirectory_of_locate_error ((hsame hrefuse).trans hlocate)]
      rw [hlocate] at hcreate hcreate₁
      exact makeDirectory_beside_error hside hcreate hcreate₁ hdir habove
    | ok l =>
      cases hstands : fs.lookup (base ++ names) with
      | none =>
        exact makeDirectory_beside_missing hway hplace hside hrefuse hlocate
          ((hsame hrefuse).trans hlocate) hstands
      | some entry =>
        have hentry : fs₁.lookup (base ++ names) = fs.lookup (base ++ names) := by
          rcases hside.entry_way hway hplace with hentry | hopened
          · exact hentry
          · rw [hopened.missing] at hstands
            cases hstands
        rw [hlocate, (hway.locate_eq_ok hlocate).1] at hcreate hcreate₁
        dsimp only at hcreate hcreate₁
        rw [hentry] at hcreate₁
        rw [hstands] at hcreate hcreate₁
        exact makeDirectory_beside_error hside hcreate hcreate₁
          (hside.isDirectory_of_same hway hentry) habove

/-! ## All directories above a target -/

theorem parent_ne (hne : dir.parts ≠ []) : dir.parent ≠ dir := by
  intro hsame
  have hparts : dir.parts.dropLast.length = dir.parts.length :=
    congrArg (fun p : Path.Tidy => p.parts.length) hsame
  have hpos := List.length_pos_iff.mpr hne
  rw [List.length_dropLast] at hparts
  omega

/-- What is done where the directory above is missing. -/
def makeAbove (refuse : Refusals) (fuel : Nat) (dir : Path.Tidy) : FileAction Unit := do
  makeDirectories refuse fuel dir.parent
  makeDirectory refuse dir (throw (.os .noEntry dir.toString))

theorem makeDirectories_succ (fuel : Nat) (hne : dir.parts ≠ []) :
    makeDirectories refuse (fuel + 1) dir = makeDirectory refuse dir (makeAbove refuse fuel dir) := by
  rw [makeDirectories, if_neg (parent_ne hne)]
  rfl

/-- A directory stands once it is made. -/
theorem makeDirectory_isDirectory
    (habove : ∀ fs', above.exec fs = (.ok (), fs') → fs'.isDirectory dir.toString = true)
    (h : (makeDirectory refuse dir above).exec fs = (.ok (), fs')) :
    fs'.isDirectory dir.toString = true := by
  cases hnul : hasNul dir.toString with
  | true =>
    rw [makeDirectory_of_nul hnul] at h
    cases h
  | false =>
    cases hcreate : createDirectory refuse fs dir.toString with
    | ok made =>
      rw [makeDirectory_of_ok hnul hcreate] at h
      cases h
      obtain ⟨-, l, hlocate, hmissing, rfl⟩ := createDirectory_eq_ok hcreate
      have hne : l ≠ [] := ne_nil_of_lookup fs (by simp [hmissing])
      have hkeeps : fs.KeepsDirectories (fs.set l .directory) :=
        (@Furnished.set_directory fs (fun _ => True) dir l trivial hlocate hmissing).keeps
      unfold isDirectory
      rw [hnul, stat_of_lookup (locate_mono hkeeps hlocate)
        ((lookup_set fs l l .directory hne).trans (if_pos rfl))]
      rfl
    | error cause =>
      by_cases hcause : cause = .noEntry
      · rw [hcause] at hcreate
        rw [makeDirectory_of_noEntry hnul hcreate] at h
        exact habove fs' h
      · rw [makeDirectory_of_error hnul hcreate hcause] at h
        split at h
        · next hdirectory =>
          cases h
          exact hdirectory
        · cases h

theorem makeDirectories_isDirectory (fuel : Nat)
    (h : (makeDirectories refuse fuel dir).exec fs = (.ok (), fs')) :
    fs'.isDirectory dir.toString = true := by
  have hlast : ∀ fs fs', (makeDirectory refuse dir (throw (.os .noEntry dir.toString))).exec fs =
      (.ok (), fs') → fs'.isDirectory dir.toString = true :=
    fun fs fs' => makeDirectory_isDirectory fun fs' hthrow => by cases hthrow
  cases fuel with
  | zero => exact hlast fs fs' h
  | succ fuel =>
    rw [makeDirectories] at h
    refine makeDirectory_isDirectory (fun fs' habove => ?_) h
    split at habove
    · cases habove
    · rw [FileAction.exec_bind] at habove
      rcases hrun : (makeDirectories refuse fuel dir.parent).exec fs with ⟨r, fs₁⟩
      rw [hrun] at habove
      cases r with
      | error e => cases habove
      | ok _ => exact hlast fs₁ fs' habove

/-- Nothing is made where a directory stands. -/
theorem makeDirectories_of_directory (fuel : Nat)
    (hrefuse : refuse (.createDirectory dir.toString) = none)
    (h : fs.isDirectory dir.toString = true) :
    (makeDirectories refuse fuel dir).exec fs = (.ok (), fs) := by
  have hnul : hasNul dir.toString = false := by
    unfold isDirectory at h
    rw [Bool.and_eq_true, Bool.not_eq_true'] at h
    exact h.1
  have hcreate : createDirectory refuse fs dir.toString = .error .fileExists := by
    rw [createDirectory_of_locate hrefuse]
    cases hlocate : fs.locate dir.toString with
    | error cause =>
      rw [isDirectory_of_locate_error hlocate] at h
      cases h
    | ok l =>
      dsimp only
      have hstands : (fs.lookup l).isSome = true := by
        unfold isDirectory stat at h
        rw [hlocate] at h
        simp only [bind, Except.bind] at h
        cases hl : fs.lookup l with
        | none =>
          rw [hl, Bool.and_eq_true] at h
          cases h.2
        | some entry => rfl
      rw [if_pos hstands]
  cases fuel with
  | zero => rw [makeDirectories, makeDirectory_of_error hnul hcreate (by decide), if_pos h]
  | succ fuel => rw [makeDirectories, makeDirectory_of_error hnul hcreate (by decide), if_pos h]

/-- Nothing is made where the creation fails for a reason other than what is missing above. -/
theorem makeDirectories_of_error {cause : OsCause} (fuel : Nat)
    (hnul : hasNul dir.toString = false)
    (hcreate : createDirectory refuse fs dir.toString = .error cause) (hne : cause ≠ .noEntry)
    (hdir : fs.isDirectory dir.toString = false) :
    (makeDirectories refuse fuel dir).exec fs = (.error (.os cause dir.toString), fs) := by
  cases fuel with
  | zero => rw [makeDirectories, makeDirectory_of_error hnul hcreate hne, hdir, if_neg Bool.false_ne_true]
  | succ fuel => rw [makeDirectories, makeDirectory_of_error hnul hcreate hne, hdir, if_neg Bool.false_ne_true]

theorem makeDirectory_congr {above' : FileAction Unit}
    (h : createDirectory refuse fs dir.toString ≠ .error .noEntry) :
    (makeDirectory refuse dir above).exec fs = (makeDirectory refuse dir above').exec fs := by
  cases hnul : hasNul dir.toString with
  | true => rw [makeDirectory_of_nul hnul, makeDirectory_of_nul hnul]
  | false =>
    cases hcreate : createDirectory refuse fs dir.toString with
    | ok made => rw [makeDirectory_of_ok hnul hcreate, makeDirectory_of_ok hnul hcreate]
    | error cause =>
      have hne : cause ≠ .noEntry := fun hcause => h (hcause ▸ hcreate)
      rw [makeDirectory_of_error hnul hcreate hne, makeDirectory_of_error hnul hcreate hne]

theorem onWay_parent {q : Path.Part} (h : Beside.OnWay place base (names ++ [q])) :
    Beside.OnWay place base names := by
  rcases h with hnil | hbelow
  · simp at hnil
  · have hwithin : base ++ names <+: base ++ (names ++ [q]) := ⟨[q], by simp⟩
    exact Or.inr (hwithin.trans hbelow)

/-- The way to the directory above. -/
theorem exists_way_parent (hway : Way fs.workdir dir base names)
    (hplace : Beside.OnWay place base names) :
    ∃ base' names', Way fs.workdir dir.parent base' names' ∧ Beside.OnWay place base' names' := by
  cases names using List.reverseRecOn with
  | nil =>
    obtain ⟨base', hway'⟩ := hway.parent_nil
    exact ⟨base', [], hway', Or.inl rfl⟩
  | append_singleton init q => exact ⟨base, init, hway.parent, onWay_parent hplace⟩

/-- The directory above stands, so both trees lead alike. -/
theorem locate_eq_of_parent (hway : Way fs.workdir dir base names)
    (hplace : Beside.OnWay place base names) (hside : Beside denied place fs fs₁)
    (h : fs.isDirectory dir.parent.toString = true) :
    fs₁.locate dir.toString = fs.locate dir.toString := by
  rcases hside.locate_beside hway hplace with hsame | ⟨hne, -, hmissing, -⟩
  · exact hsame
  · cases names using List.reverseRecOn with
    | nil => exact absurd rfl hne
    | append_singleton init q =>
      obtain ⟨-, -, hstands⟩ := (hway.parent.isDirectory_iff hside.left).mp h
      exact absurd hmissing (hway.locate_ne_noEntry hside.left hstands)

/-- The directory above is made in both trees, and then the directory itself. -/
theorem makeAbove_beside (fuel : Nat) (hway : Way fs.workdir dir base names)
    (hplace : Beside.OnWay place base names) (hdenies : Denies denied fs.workdir refuse)
    (hparent : Alike denied place dir.parent ((makeDirectories refuse fuel dir.parent).exec fs)
      ((makeDirectories refuse fuel dir.parent).exec fs₁)) :
    Alike denied place dir ((makeAbove refuse fuel dir).exec fs)
      ((makeAbove refuse fuel dir).exec fs₁) := by
  have hworkdir := (@makeDirectories_furnished refuse fuel dir.parent fs).workdir
  unfold makeAbove
  rw [FileAction.exec_bind, FileAction.exec_bind]
  obtain ⟨hresult, hside⟩ := hparent
  rcases hrun : (makeDirectories refuse fuel dir.parent).exec fs with ⟨r, fs'⟩
  rcases hrun₁ : (makeDirectories refuse fuel dir.parent).exec fs₁ with ⟨r₁, fs₁'⟩
  rw [hrun, hrun₁] at hresult hside
  rw [hrun] at hworkdir
  cases r with
  | error e =>
    cases r₁ with
    | error e₁ => exact ⟨hresult.imp_right LongAbove.of_parent, hside⟩
    | ok _ => exact hresult.elim
  | ok _ =>
    cases r₁ with
    | error e₁ => exact hresult.elim
    | ok _ =>
      rw [← hworkdir] at hway hdenies
      have hdirectory := makeDirectories_isDirectory fuel hrun
      exact makeDirectory_beside hway hplace hdenies hside
        (fun _ => locate_eq_of_parent hway hplace hside hdirectory) (.error _ hside)

/-- The directory above was made by others, so making it again changes nothing. -/
theorem makeAbove_of_opened (fuel : Nat) {q : Path.Part} (hway : Way fs.workdir dir base (names ++ [q]))
    (hdenies : Denies denied fs.workdir refuse) (hside : Beside denied place fs fs₁)
    (hnul : hasNul dir.toString = false) (hsize : ¬maxPath < dir.toString.utf8ByteSize)
    (hopened : Opened denied fs fs₁ (base ++ names)) :
    (makeAbove refuse fuel dir).exec fs₁ =
      (makeDirectory refuse dir (throw (.os .noEntry dir.toString))).exec fs₁ := by
  have hway₁ : Way fs₁.workdir dir base (names ++ [q]) := by rwa [hside.workdir]
  have hrefuse : refuse (.createDirectory dir.parent.toString) = none :=
    (hdenies.refuse_eq _ _ _ hway.parent).trans hopened.allowed
  have hdirectory : fs₁.isDirectory dir.parent.toString = true :=
    (hway₁.parent.isDirectory_iff hside.right).mpr
      ⟨hway₁.hasNul_parent hnul, hway₁.size_parent hsize, hopened.made⟩
  exact FileAction.exec_bind_ok (makeDirectories_of_directory fuel hrefuse hdirectory) _

/-- Where a name above is too long, the task fails in `fs₁` at once, and in `fs` further up. -/
theorem longAbove_of_makeAbove (fuel : Nat) {q : Path.Part}
    (hway : Way fs.workdir dir base (names ++ [q])) (hdenies : Denies denied fs.workdir refuse)
    (hside : Beside denied place fs fs₁) (hnul : hasNul dir.toString = false)
    (hsize : ¬maxPath < dir.toString.utf8ByteSize)
    (hlast : fs₁.lookup (base ++ names) ≠ some .directory)
    (hlong : fs₁.walk base (names ++ [q]) = .error .nameTooLong)
    (habove : Alike denied place dir ((makeAbove refuse fuel dir).exec fs)
      ((makeAbove refuse fuel dir).exec fs₁)) :
    Alike denied place dir ((makeAbove refuse fuel dir).exec fs)
      (.error (.os .nameTooLong dir.toString), fs₁) := by
  have hway₁ : Way fs₁.workdir dir base (names ++ [q]) := by rwa [hside.workdir]
  have hwalk := walk_above_tooLong hway.plain (hway₁.lookup_base hside.right) hlong hlast
  obtain ⟨r, hr, hrLong⟩ := exists_tooLong hway.parent.plain hwalk
  have hrefuse : refuse (.createDirectory dir.parent.toString) = none :=
    (hdenies.refuse_eq _ _ _ hway.parent).trans
      (hdenies.long _ ⟨r, List.mem_append_right _ hr, hrLong⟩)
  have hlocate : fs₁.locate dir.parent.toString = .error .nameTooLong := by
    rw [hway₁.parent.locate_eq rfl, if_neg (hway₁.size_parent hsize), hwalk]
  have hcreate : createDirectory refuse fs₁ dir.parent.toString = .error .nameTooLong := by
    rw [createDirectory_of_locate hrefuse, hlocate]
  have hrun : (makeAbove refuse fuel dir).exec fs₁ =
      (.error (.os .nameTooLong dir.parent.toString), fs₁) := by
    unfold makeAbove
    rw [FileAction.exec_bind, makeDirectories_of_error fuel (hway.hasNul_parent hnul) hcreate nofun
      (isDirectory_of_locate_error hlocate)]
  rw [hrun] at habove
  refine ⟨?_, habove.beside⟩
  have hresult := habove.result
  have hparent : AtOrAbove dir dir.parent := ⟨rfl, List.dropLast_prefix dir.parts⟩
  rcases hfs : ((makeAbove refuse fuel dir).exec fs).1 with e | _
  · rw [hfs] at hresult
    refine Or.inr ⟨⟨r, hway.mem_parts (List.mem_append_left _ hr), hrLong⟩, ?_,
      ⟨dir, AtOrAbove.refl dir, rfl⟩⟩
    rcases hresult with hsame | hboth
    · exact ⟨dir.parent, hparent, hsame.symm⟩
    · exact hboth.left
  · rw [hfs] at hresult
    exact hresult.elim

/-- A walk in `fs₁` comes further than one in `fs`. -/
theorem makeDirectory_beside_far (fuel : Nat) {q : Path.Part}
    (hway : Way fs.workdir dir base (names ++ [q]))
    (hplace : Beside.OnWay place base (names ++ [q]))
    (hdenies : Denies denied fs.workdir refuse) (hside : Beside denied place fs fs₁)
    (hrefuse : refuse (.createDirectory dir.toString) = none)
    (hsize : ¬maxPath < dir.toString.utf8ByteSize) (hmissing : fs.locate dir.toString = .error .noEntry)
    (hfar : fs₁.locate dir.toString = .ok (base ++ (names ++ [q])) ∨
      fs₁.locate dir.toString = .error .nameTooLong)
    (habove : Alike denied place dir ((makeAbove refuse fuel dir).exec fs)
      ((makeAbove refuse fuel dir).exec fs₁)) :
    Alike denied place dir ((makeDirectory refuse dir (makeAbove refuse fuel dir)).exec fs)
      ((makeDirectory refuse dir (makeAbove refuse fuel dir)).exec fs₁) := by
  have hway₁ : Way fs₁.workdir dir base (names ++ [q]) := by rwa [hside.workdir]
  cases hnul : hasNul dir.toString with
  | true =>
    rw [makeDirectory_of_nul hnul, makeDirectory_of_nul hnul]
    exact .error _ hside
  | false =>
    have hcreate : createDirectory refuse fs dir.toString = .error .noEntry := by
      rw [createDirectory_of_locate hrefuse, hmissing]
    have hcreate₁ := @createDirectory_of_locate refuse fs₁ _ hrefuse
    rw [makeDirectory_of_noEntry hnul hcreate]
    by_cases hlast : fs₁.lookup (base ++ names) = some .directory
    · have hopened : Opened denied fs fs₁ (base ++ names) := by
        refine (hside.entry_way hway.parent (onWay_parent hplace)).resolve_left fun hsame => ?_
        -- Otherwise the directory stands in `fs` as well, and the walk does not stop above it.
        exact hway.locate_ne_noEntry hside.left (hsame.symm.trans hlast) hmissing
      have hne : createDirectory refuse fs₁ dir.toString ≠ .error .noEntry := by
        rw [hcreate₁]
        rcases hfar with hok | hlong
        · rw [hok]
          dsimp only
          split <;> exact nofun
        · rw [hlong]
          exact nofun
      rw [makeDirectory_congr hne, ← makeAbove_of_opened fuel hway hdenies hside hnul hsize hopened]
      exact habove
    · rcases hfar with hok | hlong
      · exact absurd (hway₁.open_of_locate hside.right hok).1 hlast
      · rw [hlong] at hcreate₁
        rw [makeDirectory_of_error hnul hcreate₁ nofun, isDirectory_of_locate_error hlong]
        rw [hway₁.locate_eq rfl, if_neg hsize] at hlong
        exact longAbove_of_makeAbove fuel hway hdenies hside hnul hsize hlast hlong habove

/-- All directories above a target are made in both trees, or the task fails in both. -/
theorem makeDirectories_beside (fuel : Nat) (hfuel : dir.parts.length = fuel)
    (hway : Way fs.workdir dir base names) (hplace : Beside.OnWay place base names)
    (hdenies : Denies denied fs.workdir refuse) (hside : Beside denied place fs fs₁) :
    Alike denied place dir ((makeDirectories refuse fuel dir).exec fs)
      ((makeDirectories refuse fuel dir).exec fs₁) := by
  induction fuel generalizing dir base names with
  | zero =>
    have hparts : dir.parts = [] := List.length_eq_zero_iff.mp hfuel
    have hnil : names = [] := by
      rw [List.eq_nil_iff_forall_not_mem]
      intro q hq
      have hmem := hway.mem_parts hq
      rw [hparts] at hmem
      cases hmem
    have hsame : fs₁.locate dir.toString = fs.locate dir.toString :=
      (hside.locate_beside hway hplace).resolve_right fun hfar => hfar.1 hnil
    rw [makeDirectories]
    exact makeDirectory_beside hway hplace hdenies hside (fun _ => hsame) (.error _ hside)
  | succ fuel ih =>
    have hne : dir.parts ≠ [] := by
      intro hnil
      rw [hnil] at hfuel
      cases hfuel
    have hlength : dir.parent.parts.length = fuel := by
      show dir.parts.dropLast.length = fuel
      rw [List.length_dropLast, hfuel]
      rfl
    obtain ⟨base', names', hwayParent, hplaceParent⟩ := exists_way_parent hway hplace
    have hparent := ih hlength hwayParent hplaceParent
    have habove := makeAbove_beside fuel hway hplace hdenies hparent
    rw [makeDirectories_succ fuel hne]
    cases hrefuse : refuse (.createDirectory dir.toString) with
    | some cause =>
      refine makeDirectory_beside hway hplace hdenies hside (fun hnone => ?_) habove
      rw [hrefuse] at hnone
      cases hnone
    | none =>
      rcases hside.locate_beside hway hplace with hsame | ⟨hnames, hsize, hmissing, hfar⟩
      · exact makeDirectory_beside hway hplace hdenies hside (fun _ => hsame) habove
      · cases names using List.reverseRecOn with
        | nil => exact absurd rfl hnames
        | append_singleton init q =>
          exact makeDirectory_beside_far fuel hway hplace hdenies hside hrefuse hsize hmissing hfar
            habove

end AtomicWrite

end DartModels
