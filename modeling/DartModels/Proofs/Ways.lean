import DartModels.Proofs.AtomicOutcome
import DartModels.Proofs.LoadedSource
import DartModels.Proofs.RelativePath
import Mathlib.Data.List.Induction

/-!
# Ways through a tree

A normalised path climbs from the working directory, or starts at the root, and then goes down
through names.  Where it starts and which names it goes through can be read off the path, so where it
leads is known before anything stands there.

    names whose last directory stands are walked to their end                        (walk_through)
    fs.locate p.toString = the walk down through the names of p                    (Way.locate_eq)
    fs.destination p.toString = where p starts, and the names of p             (Way.destination_eq)
    a normalised path has a way                                                 (exists_way_normalize)
-/

namespace DartModels

/-! ## Normalised components -/

namespace Path

theorem proper_dotDot : Proper dotDot := ⟨rfl, by decide⟩

/-- A stack with plain components on top of those that climb. -/
def Climbing (rooted : Bool) (stack : List Part) : Prop :=
  ∃ top ups, stack = top ++ List.replicate ups dotDot ∧ (∀ q ∈ top, Plain q) ∧
    (rooted = true → ups = 0)

theorem climbing_push (r : Bool) {stack : List Part} {q : Part} (hs : Climbing r stack)
    (hq : '/' ∉ q) : Climbing r (push r stack q) := by
  obtain ⟨top, ups, rfl, htop, hups⟩ := hs
  by_cases hnamed : isNamed q = true
  · by_cases hdots : q = dotDot
    · rw [hdots]
      cases top with
      | cons t top =>
        obtain ⟨ht, htop⟩ := List.forall_mem_cons.mp htop
        exact ⟨top, ups, push_dotDot r _ ht, htop, hups⟩
      | nil =>
        cases r with
        | true =>
          rw [hups rfl]
          exact ⟨[], 0, rfl, nofun, fun _ => rfl⟩
        | false =>
          refine ⟨[], ups + 1, ?_, nofun, nofun⟩
          cases ups with
          | zero => rfl
          | succ ups => rfl
    · have hplain : Plain q := ⟨⟨hnamed, hq⟩, hdots⟩
      exact ⟨q :: top, ups, push_plain r _ hplain, List.forall_mem_cons.mpr ⟨hplain, htop⟩, hups⟩
  · rw [push_unnamed r _ (by simpa using hnamed)]
    exact ⟨top, ups, rfl, htop, hups⟩

theorem climbing_foldl_push (r : Bool) {parts : List Part} (h : ∀ q ∈ parts, '/' ∉ q)
    {stack : List Part} (hs : Climbing r stack) : Climbing r (parts.foldl (push r) stack) := by
  induction parts generalizing stack with
  | nil => exact hs
  | cons q parts ih =>
    obtain ⟨hq, hparts⟩ := List.forall_mem_cons.mp h
    exact ih hparts (climbing_push r hs hq)

/-- A reduced path first climbs and then goes down.  Below a root it does not climb. -/
theorem exists_reduce_eq (r : Bool) {parts : List Part} (h : ∀ q ∈ parts, '/' ∉ q) :
    ∃ ups names, reduce r parts = List.replicate ups dotDot ++ names ∧ (∀ q ∈ names, Plain q) ∧
      (r = true → ups = 0) := by
  obtain ⟨top, ups, hstack, htop, hups⟩ :=
    @climbing_foldl_push r _ h [] ⟨[], 0, rfl, nofun, fun _ => rfl⟩
  refine ⟨ups, top.reverse, ?_, fun q hq => htop q (List.mem_reverse.mp hq), hups⟩
  unfold reduce
  rw [hstack, List.reverse_append, List.reverse_replicate]

/-- Climbing takes the last components away, and stays at the root. -/
theorem foldl_push_climb {stack : List Part} (hs : ∀ q ∈ stack, Plain q) (ups : Nat) :
    (List.replicate ups dotDot).foldl (push true) stack = stack.drop ups := by
  induction ups generalizing stack with
  | zero => rfl
  | succ ups ih =>
    rw [List.replicate_succ, List.foldl_cons]
    cases stack with
    | nil => exact (ih hs).trans List.drop_nil
    | cons q stack =>
      obtain ⟨hq, hs⟩ := List.forall_mem_cons.mp hs
      rw [push_dotDot true stack hq, ih hs]
      rfl

theorem reduce_climb {start names : List Part} (hs : ∀ q ∈ start, Plain q)
    (hn : ∀ q ∈ names, Plain q) (ups : Nat) :
    reduce true (start ++ (List.replicate ups dotDot ++ names)) =
      start.take (start.length - ups) ++ names := by
  have hreverse : ∀ q ∈ start.reverse, Plain q := fun q hq => hs q (List.mem_reverse.mp hq)
  unfold reduce
  rw [List.foldl_append, List.foldl_append, foldl_push_plain true hs, List.append_nil,
    foldl_push_climb hreverse, foldl_push_plain true hn, List.drop_reverse, ← List.reverse_append,
    List.reverse_reverse]

/-- A path below a rooted one. -/
theorem joinChars_rooted {root : Nat} (hr : root = 1 ∨ root = 2) {parts : List Part}
    (h : ∀ q ∈ parts, Plain q) {q : Part} (hq : Plain q) :
    joinChars (rooted root parts) q = rooted root (parts ++ [q]) := by
  have hrelative : isRooted q = false := by
    rw [Bool.eq_false_iff]
    intro hrooted
    exact hq.noSlash (List.mem_of_head? (beq_iff_eq.mp hrooted))
  unfold joinChars
  rw [hrelative, if_neg Bool.false_ne_true]
  by_cases hparts : parts = []
  · rw [hparts]
    rcases hr with rfl | rfl <;> rfl
  · have hlast := getLast_joinSlash h
    have hne : joinSlash parts ≠ [] := by
      obtain ⟨p, ps, rfl⟩ := List.exists_cons_of_ne_nil hparts
      exact joinSlash_ne_nil (h p List.mem_cons_self).toProper ps
    have hbody : (rooted root parts).getLast? = (joinSlash parts).getLast? := by
      unfold rooted
      rw [List.getLast?_append]
      cases hl : (joinSlash parts).getLast? with
      | none => exact absurd (List.getLast?_eq_none_iff.mp hl) hne
      | some c => rfl
    rw [if_neg]
    · unfold rooted
      rw [joinSlash_concat hparts, List.append_assoc]
    · rw [hbody, Bool.or_eq_true, beq_iff_eq]
      rintro (hempty | hslash)
      · unfold rooted at hempty
        rw [List.isEmpty_iff, List.append_eq_nil_iff] at hempty
        exact hne hempty.2
      · exact hlast hslash

end Path

/-! ## Trees -/

namespace FileSystem

/-- A tree in which each entry stands in a directory, under a name that an entry can have. -/
structure WellFormed (fs : FileSystem) : Prop where
  workdir : fs.lookup fs.workdir = some .directory
  above : ∀ l q, fs.lookup (l ++ [q]) ≠ none → fs.lookup l = some .directory
  name : ∀ l q, fs.lookup (l ++ [q]) ≠ none → Path.Plain q ∧ isTooLong q = false

namespace WellFormed

variable {fs : FileSystem} (h : fs.WellFormed) {l l' : Location}

include h

/-- Directories stand all the way down to an entry. -/
theorem lookup_above (names : List Path.Part) (hne : names ≠ []) (hl : fs.lookup (l ++ names) ≠ none) :
    fs.lookup l = some .directory := by
  induction names using List.reverseRecOn with
  | nil => exact absurd rfl hne
  | append_singleton names q ih =>
    rw [← List.append_assoc] at hl
    have hlast := h.above _ q hl
    cases names with
    | nil => rwa [List.append_nil] at hlast
    | cons r names =>
      refine ih (List.cons_ne_nil r names) ?_
      rw [hlast]
      exact nofun

theorem lookup_prefix (hl : fs.lookup l' = some .directory) (hp : l <+: l') :
    fs.lookup l = some .directory := by
  obtain ⟨names, rfl⟩ := hp
  by_cases hne : names = []
  · rwa [hne, List.append_nil] at hl
  · exact h.lookup_above names hne (by rw [hl]; exact nofun)

theorem plain_of_mem (hl : fs.lookup l ≠ none) {q : Path.Part} (hq : q ∈ l) :
    Path.Plain q ∧ isTooLong q = false := by
  induction l using List.reverseRecOn with
  | nil => cases hq
  | append_singleton l r ih =>
    rcases List.mem_append.mp hq with hq | hq
    · refine ih ?_ hq
      rw [h.above l r hl]
      exact nofun
    · rw [List.mem_singleton.mp hq]
      exact h.name l r hl

theorem plain_workdir : ∀ q ∈ fs.workdir, Path.Plain q := by
  have hworkdir : fs.lookup fs.workdir ≠ none := by
    rw [h.workdir]
    exact nofun
  exact fun q hq => (h.plain_of_mem hworkdir hq).1

/-- A new entry in a directory, which takes the place of no directory. -/
theorem set {q : Path.Part} {entry : Entry} (hl : fs.lookup l = some .directory)
    (hq : Path.Plain q ∧ isTooLong q = false)
    (hfree : entry = .directory ∨ fs.lookup (l ++ [q]) ≠ some .directory) :
    (fs.set (l ++ [q]) entry).WellFormed := by
  have hlookup (l' : Location) := lookup_set fs l' (l ++ [q]) entry (by simp)
  have hkeeps : ∀ l', fs.lookup l' = some .directory →
      (fs.set (l ++ [q]) entry).lookup l' = some .directory := by
    intro l' hl'
    rw [hlookup]
    split
    · next hsame =>
      rcases hfree with rfl | hfree
      · rfl
      · exact absurd (hsame ▸ hl') hfree
    · exact hl'
  refine ⟨hkeeps _ h.workdir, fun l' r hr => ?_, fun l' r hr => ?_⟩
  · rw [hlookup] at hr
    split at hr
    · next hsame => exact hkeeps l' ((List.append_inj_left' hsame rfl) ▸ hl)
    · exact hkeeps l' (h.above l' r hr)
  · rw [hlookup] at hr
    split at hr
    · next hsame =>
      have hr : r = q := by simpa using List.append_inj_right' hsame rfl
      exact hr ▸ hq
    · exact h.name l' r hr

end WellFormed

/-! ## Walking down -/

section

variable {fs : FileSystem} {current l : Location} {names rest : List Path.Part} {q : Path.Part}

theorem walk_cons (hq : Path.Plain q) (hne : rest ≠ []) :
    fs.walk current (q :: rest) =
      if isTooLong q then .error .nameTooLong
      else
        match fs.lookup (current ++ [q]) with
        | some .directory => fs.walk (current ++ [q]) rest
        | some (.file _) => .error .notDirectory
        | none => .error .noEntry := by
  have hempty : rest.isEmpty = false := by simpa using hne
  rw [walk, if_neg (by simp [hq.named]), if_neg hq.ne_dotDot, hempty]
  rfl

theorem walk_singleton (hq : Path.Plain q) :
    fs.walk current [q] = if isTooLong q then .error .nameTooLong else .ok (current ++ [q]) := by
  rw [walk, if_neg (by simp [hq.named]), if_neg hq.ne_dotDot]
  rfl

/-- A walk looks only at what stands on its way. -/
theorem walk_congr {fs₁ : FileSystem} (hnames : ∀ r ∈ names, Path.Plain r)
    (h : ∀ l, l <+: current ++ names → fs₁.lookup l = fs.lookup l) :
    fs₁.walk current names = fs.walk current names := by
  induction names generalizing current with
  | nil => rw [walk, walk]
  | cons r names ih =>
    obtain ⟨hr, hnames⟩ := List.forall_mem_cons.mp hnames
    by_cases hne : names = []
    · rw [hne, walk_singleton hr, walk_singleton hr]
    · have hhere : current ++ [r] <+: current ++ r :: names := ⟨names, by simp⟩
      have hrest : fs₁.walk (current ++ [r]) names = fs.walk (current ++ [r]) names :=
        ih hnames fun l hl => h l (by simpa using hl)
      rw [walk_cons hr hne, walk_cons hr hne, h _ hhere, hrest]

/-- A directory that stands is walked through. -/
theorem walk_through (h : fs.WellFormed) (hd : fs.lookup (current ++ names) = some .directory)
    (hne : rest ≠ []) : fs.walk current (names ++ rest) = fs.walk (current ++ names) rest := by
  induction names generalizing current with
  | nil => rw [List.nil_append, List.append_nil]
  | cons q names ih =>
    have hsome : fs.lookup (current ++ q :: names) ≠ none := by
      rw [hd]
      exact nofun
    obtain ⟨hq, hshort⟩ := h.plain_of_mem hsome (q := q) (by simp)
    have hhere : fs.lookup (current ++ [q]) = some .directory :=
      h.lookup_prefix hd ⟨names, by simp⟩
    rw [List.cons_append, walk_cons hq (by simp [hne]), hshort, hhere]
    show fs.walk (current ++ [q]) (names ++ rest) = _
    rw [ih (by simpa using hd), List.append_assoc]
    rfl

/-- A directory that stands is reached. -/
theorem walk_directory (h : fs.WellFormed) (hd : fs.lookup (current ++ names) = some .directory) :
    fs.walk current names = .ok (current ++ names) := by
  induction names using List.reverseRecOn with
  | nil => rw [walk, List.append_nil]
  | append_singleton names q ih =>
    have hsome : fs.lookup (current ++ (names ++ [q])) ≠ none := by
      rw [hd]
      exact Option.some_ne_none _
    obtain ⟨hq, hshort⟩ := h.plain_of_mem hsome (q := q) (by simp)
    have habove : fs.lookup (current ++ names) = some .directory :=
      h.lookup_prefix hd ⟨[q], by simp⟩
    rw [walk_through h habove (by simp), walk_singleton hq, hshort, List.append_assoc]
    rfl

/-- A walk that ends has come through directories, and the last name is one that an entry can have. -/
theorem walk_concat_eq_ok (hnames : ∀ r ∈ names ++ [q], Path.Plain r)
    (hcurrent : fs.lookup current = some .directory)
    (hw : fs.walk current (names ++ [q]) = .ok l) :
    fs.lookup (current ++ names) = some .directory ∧ isTooLong q = false := by
  induction names generalizing current with
  | nil =>
    rw [List.nil_append, walk_singleton (hnames q (by simp))] at hw
    rw [List.append_nil]
    refine ⟨hcurrent, ?_⟩
    cases hlong : isTooLong q with
    | false => rfl
    | true =>
      rw [hlong] at hw
      cases hw
  | cons r names ih =>
    obtain ⟨hr, hnames⟩ := List.forall_mem_cons.mp hnames
    rw [List.cons_append, walk_cons hr (by simp)] at hw
    split at hw
    · cases hw
    · split at hw
      · next hhere =>
        have hrest := ih hnames hhere hw
        rwa [List.append_assoc] at hrest
      · cases hw
      · cases hw

/-- Only a name that is too long ends a walk for that reason. -/
theorem exists_tooLong (hnames : ∀ r ∈ names, Path.Plain r)
    (hw : fs.walk current names = .error .nameTooLong) : ∃ r ∈ names, isTooLong r = true := by
  induction names generalizing current with
  | nil => cases hw
  | cons r names ih =>
    obtain ⟨hr, hnames⟩ := List.forall_mem_cons.mp hnames
    cases hlong : isTooLong r with
    | true => exact ⟨r, List.mem_cons_self, hlong⟩
    | false =>
      by_cases hne : names = []
      · rw [hne, walk_singleton hr, hlong] at hw
        cases hw
      · rw [walk_cons hr hne, hlong, if_neg Bool.false_ne_true] at hw
        split at hw
        · obtain ⟨s, hs, hsLong⟩ := ih hnames hw
          exact ⟨s, List.mem_cons_of_mem r hs, hsLong⟩
        · cases hw
        · cases hw

/-- A walk that meets a name that is too long meets it above the last name already, unless the last
directory stands. -/
theorem walk_above_tooLong (hnames : ∀ r ∈ names ++ [q], Path.Plain r)
    (hcurrent : fs.lookup current = some .directory)
    (hw : fs.walk current (names ++ [q]) = .error .nameTooLong)
    (hlast : fs.lookup (current ++ names) ≠ some .directory) :
    fs.walk current names = .error .nameTooLong := by
  induction names generalizing current with
  | nil =>
    rw [List.append_nil] at hlast
    exact absurd hcurrent hlast
  | cons r names ih =>
    obtain ⟨hr, hnames⟩ := List.forall_mem_cons.mp hnames
    rw [List.cons_append, walk_cons hr (by simp)] at hw
    cases hlong : isTooLong r with
    | true =>
      by_cases hne : names = []
      · rw [hne, walk_singleton hr, hlong]
        rfl
      · rw [walk_cons hr hne, hlong]
        rfl
    | false =>
      rw [hlong, if_neg Bool.false_ne_true] at hw
      cases hhere : fs.lookup (current ++ [r]) with
      | none =>
        rw [hhere] at hw
        cases hw
      | some entry =>
        rw [hhere] at hw
        cases entry with
        | file content => cases hw
        | directory =>
          have hbelow : fs.lookup (current ++ [r] ++ names) ≠ some .directory := by
            rwa [List.append_assoc]
          have hne : names ≠ [] := by
            intro hnil
            rw [hnil, List.append_nil] at hbelow
            exact hbelow hhere
          rw [walk_cons hr hne, hlong, hhere]
          exact ih hnames hhere hw hbelow

end

theorem isDirectory_of_locate_error {fs : FileSystem} {path : String} {cause : OsCause}
    (h : fs.locate path = .error cause) : fs.isDirectory path = false := by
  unfold isDirectory stat
  rw [h]
  exact Bool.and_false _

/-! ## The way of a path -/

/-- Where a path leads, whether or not anything stands there. -/
def destination (fs : FileSystem) (path : String) : Location := Path.named (fs.absolute path).toList

/-- A tidy path starts at the directory `base`, which is the root, the working directory or one above
it, and goes down through `names`. -/
structure Way (workdir : Location) (p : Path.Tidy) (base : Location) (names : List Path.Part) :
    Prop where
  plain : ∀ q ∈ names, Path.Plain q
  form : (p.root = 0 ∧ ∃ ups, p.parts = List.replicate ups Path.dotDot ++ names ∧
      base = workdir.take (workdir.length - ups)) ∨
    ((p.root = 1 ∨ p.root = 2) ∧ p.parts = names ∧ base = [])

theorem toList_toString {p : Path.Tidy} (h : ∀ q ∈ p.parts, Path.Proper q) :
    p.toString.toList =
      if p.root = 0 ∧ p.parts = [] then Path.dot else Path.rooted p.root p.parts := by
  unfold Path.Tidy.toString Path.rooted
  split
  · next hempty =>
    obtain ⟨hroot, hparts⟩ := List.append_eq_nil_iff.mp hempty
    have hroot : p.root = 0 := by simpa using hroot
    have hparts : p.parts = [] := by
      cases hp : p.parts with
      | nil => rfl
      | cons q parts =>
        rw [hp] at h hparts
        exact absurd hparts (Path.joinSlash_ne_nil (h q List.mem_cons_self) parts)
    rw [if_pos ⟨hroot, hparts⟩]
    rfl
  · next cs hne =>
    rw [String.toList_ofList, if_neg]
    rintro ⟨hroot, hparts⟩
    rw [hroot, hparts] at hne
    exact hne rfl

/-- The text of a tidy path is tidy. -/
theorem ofString_toString {p : Path.Tidy} (h : ∀ q ∈ p.parts, Path.Proper q) (hle : p.root ≤ 2) :
    Path.Tidy.ofString p.toString = p := by
  obtain ⟨root, parts⟩ := p
  unfold Path.Tidy.ofString
  rw [toList_toString h]
  split
  · next hempty =>
    obtain ⟨rfl, rfl⟩ := hempty
    rfl
  · rw [Path.rootSlashes_rooted hle h, Path.named_rooted root h]

theorem walk_climb (fs : FileSystem) (current : Location) (ups : Nat) (names : List Path.Part) :
    fs.walk current (List.replicate ups Path.dotDot ++ names) =
      fs.walk (current.take (current.length - ups)) names := by
  induction ups generalizing current with
  | zero =>
    show fs.walk current names = fs.walk (current.take current.length) names
    rw [List.take_length]
  | succ ups ih =>
    show fs.walk current.dropLast (List.replicate ups Path.dotDot ++ names) = _
    have hlength : min (current.length - 1 - ups) (current.length - 1) =
      current.length - (ups + 1) := by omega
    rw [ih, List.length_dropLast, List.dropLast_eq_take, List.take_take, hlength]

/-- A tidy path is walked from the working directory or from the root. -/
theorem walk_tidy (fs : FileSystem) {p : Path.Tidy} (h : ∀ q ∈ p.parts, Path.Proper q) :
    fs.walk (if Path.isRooted p.toString.toList then [] else fs.workdir)
        (Path.splitSlash p.toString.toList) =
      fs.walk (if p.root = 0 then fs.workdir else []) p.parts := by
  have hnoSlash : ∀ q ∈ p.parts, '/' ∉ q := fun q hq => (h q hq).noSlash
  have htext := toList_toString h
  obtain ⟨root, parts⟩ := p
  cases root with
  | zero =>
    cases parts with
    | nil =>
      rw [if_pos ⟨rfl, rfl⟩] at htext
      rw [htext]
      rfl
    | cons q parts =>
      rw [if_neg (by simp)] at htext
      have hhead : Path.isRooted (Path.joinSlash (q :: parts)) = false := by
        simpa [Path.isRooted] using Path.joinSlash_head h
      have htext : (Path.Tidy.toString ⟨0, q :: parts⟩).toList = Path.joinSlash (q :: parts) := htext
      rw [htext, hhead, Path.splitSlash_joinSlash (List.cons_ne_nil q parts) hnoSlash]
      rfl
  | succ root =>
    rw [if_neg (by simp)] at htext
    have hrooted : Path.isRooted (Path.rooted (root + 1) parts) = true := rfl
    rw [htext, hrooted, Path.splitSlash_rooted, walk_root]
    cases parts with
    | nil => rfl
    | cons q parts =>
      rw [Path.splitSlash_joinSlash (List.cons_ne_nil q parts) hnoSlash]
      rfl

/-- A tidy path leads where the walk down through its components leads, unless it is too long. -/
theorem locate_tidy {fs : FileSystem} {p : Path.Tidy} (h : ∀ q ∈ p.parts, Path.Proper q) :
    fs.locate p.toString =
      if maxPath < p.toString.utf8ByteSize then .error .nameTooLong
      else fs.walk (if p.root = 0 then fs.workdir else []) p.parts := by
  have hne : p.toString.isEmpty = false := by
    rw [Bool.eq_false_iff]
    intro hempty
    have htext : p.toString.toList = [] := by rw [String.isEmpty_iff.mp hempty, String.toList_empty]
    unfold Path.Tidy.toString at htext
    split at htext
    · cases htext
    · next hcons =>
      rw [String.toList_ofList] at htext
      exact hcons htext
  unfold locate
  rw [hne, walk_tidy fs h]
  rfl

namespace Way

variable {fs : FileSystem} {workdir base : Location} {p : Path.Tidy} {names : List Path.Part}

theorem base_prefix (h : Way workdir p base names) : base <+: workdir := by
  rcases h.form with ⟨-, ups, -, hbase⟩ | ⟨-, -, hbase⟩
  · rw [hbase]
    exact List.take_prefix _ _
  · rw [hbase]
    exact List.nil_prefix

/-- The start of a way is a directory. -/
theorem lookup_base (h : Way fs.workdir p base names) (hfs : fs.WellFormed) :
    fs.lookup base = some .directory := hfs.lookup_prefix hfs.workdir h.base_prefix

theorem proper (h : Way workdir p base names) : ∀ q ∈ p.parts, Path.Proper q := by
  intro q hq
  rcases h.form with ⟨-, ups, hparts, -⟩ | ⟨-, hparts, -⟩
  · rw [hparts] at hq
    rcases List.mem_append.mp hq with hq | hq
    · rw [List.eq_of_mem_replicate hq]
      exact Path.proper_dotDot
    · exact (h.plain q hq).toProper
  · exact (h.plain q (hparts ▸ hq)).toProper

theorem mem_parts (h : Way workdir p base names) {q : Path.Part} (hq : q ∈ names) : q ∈ p.parts := by
  rcases h.form with ⟨-, ups, hparts, -⟩ | ⟨-, hparts, -⟩
  · rw [hparts]
    exact List.mem_append_right _ hq
  · rwa [hparts]

/-- A path leads where the walk down through its names leads, unless it is too long. -/
theorem locate_eq (h : Way workdir p base names) (hworkdir : fs.workdir = workdir) :
    fs.locate p.toString =
      if maxPath < p.toString.utf8ByteSize then .error .nameTooLong else fs.walk base names := by
  rw [locate_tidy h.proper]
  rcases h.form with ⟨hroot, ups, hparts, hbase⟩ | ⟨hroot, hparts, hbase⟩
  · rw [if_pos hroot, hparts, walk_climb, hworkdir, hbase]
  · have hne : p.root ≠ 0 := by omega
    rw [if_neg hne, hparts, hbase]

/-- A path below the working directory is absolute with the names on the way. -/
theorem absolute_eq (h : Way fs.workdir p base names) (hfs : fs.WellFormed) :
    ∃ root, (root = 1 ∨ root = 2) ∧
      fs.absolute p.toString = String.ofList (Path.rooted root (base ++ names)) := by
  have hproper := h.proper
  have htext := toList_toString hproper
  rcases h.form with ⟨hroot, ups, hparts, hbase⟩ | ⟨hroot, hparts, hbase⟩
  · refine ⟨1, Or.inl rfl, ?_⟩
    have hway : p.toString.toList.head? ≠ some '/' ∧ Path.named p.toString.toList = p.parts := by
      rw [htext]
      by_cases hp : p.parts = []
      · rw [if_pos ⟨hroot, hp⟩, hp]
        exact ⟨by decide, rfl⟩
      · rw [if_neg (fun hempty => hp hempty.2), hroot]
        exact ⟨Path.joinSlash_head hproper, Path.named_rooted 0 hproper⟩
    obtain ⟨hnamed, hone⟩ := Path.named_joinChars hfs.plain_workdir hway.1
    have hworkdir : fs.workdirPath.toList = Path.rooted 1 fs.workdir := String.toList_ofList
    unfold absolute Path.absolute Path.normalize Path.join
    rw [String.toList_ofList, hworkdir, Path.normalizeChars_rooted (by omega), hone, hnamed, hway.2,
      hparts, Path.reduce_climb hfs.plain_workdir h.plain, hbase]
  · have hne : ¬(p.root = 0 ∧ p.parts = []) := by
      rintro ⟨hzero, -⟩
      omega
    rw [if_neg hne, hparts] at htext
    refine ⟨p.root, hroot, ?_⟩
    rw [← String.ofList_toList (s := p.toString), htext, hbase]
    exact Path.absolute_rooted _ hroot h.plain

/-- Where a path leads can be read off it. -/
theorem destination_eq (h : Way fs.workdir p base names) (hfs : fs.WellFormed) :
    fs.destination p.toString = base ++ names := by
  obtain ⟨root, -, habsolute⟩ := h.absolute_eq hfs
  have hproper : ∀ q ∈ base ++ names, Path.Proper q := by
    intro q hq
    rcases List.mem_append.mp hq with hq | hq
    · exact (hfs.plain_workdir q (h.base_prefix.mem hq)).toProper
    · exact (h.plain q hq).toProper
  unfold destination
  rw [habsolute, String.toList_ofList, Path.named_rooted root hproper]

/-! ### Ways above a way -/

/-- A directory above is reached through the first of the names, or above the start. -/
theorem above (h : Way workdir p base names) {d : Path.Tidy} (hd : AtomicWrite.AtOrAbove p d) :
    ∃ base' names', Way workdir d base' names' ∧ (names' = [] ∨ base' = base ∧ names' <+: names) := by
  obtain ⟨hroot, hwithin⟩ := hd
  rcases h.form with ⟨hzero, ups, hparts, hbase⟩ | ⟨hslashes, hparts, hbase⟩
  · rw [hparts] at hwithin
    rcases List.prefix_or_prefix_of_prefix hwithin
      (List.prefix_append (List.replicate ups Path.dotDot) names) with hshort | hlong
    · have hclimb := (List.prefix_replicate_iff.mp hshort).2
      refine ⟨workdir.take (workdir.length - d.parts.length), [],
        ⟨nofun, Or.inl ⟨hroot.trans hzero, d.parts.length, ?_, rfl⟩⟩, Or.inl rfl⟩
      rwa [List.append_nil]
    · obtain ⟨names', hnames'⟩ := hlong
      rw [← hnames'] at hwithin
      have hbelow : names' <+: names := (List.prefix_append_right_inj _).mp hwithin
      refine ⟨base, names', ⟨fun q hq => h.plain q (hbelow.mem hq),
        Or.inl ⟨hroot.trans hzero, ups, hnames'.symm, hbase⟩⟩, Or.inr ⟨rfl, hbelow⟩⟩
  · rw [hparts] at hwithin
    exact ⟨base, d.parts, ⟨fun q hq => h.plain q (hwithin.mem hq),
      Or.inr ⟨by rwa [hroot], rfl, hbase⟩⟩, Or.inr ⟨rfl, hwithin⟩⟩

/-- The directory of a path stands above its last name. -/
theorem parent {q : Path.Part} (h : Way workdir p base (names ++ [q])) :
    Way workdir p.parent base names := by
  refine ⟨fun r hr => h.plain r (List.mem_append_left _ hr), ?_⟩
  unfold Path.Tidy.parent
  rcases h.form with ⟨hroot, ups, hparts, hbase⟩ | ⟨hroot, hparts, hbase⟩
  · refine Or.inl ⟨hroot, ups, ?_, hbase⟩
    rw [hparts, ← List.append_assoc, List.dropLast_concat]
  · refine Or.inr ⟨hroot, ?_, hbase⟩
    rw [hparts, List.dropLast_concat]

theorem parent_nil (h : Way workdir p base []) : ∃ base', Way workdir p.parent base' [] := by
  obtain ⟨base', names', hway, hnames⟩ := h.above
    (show AtomicWrite.AtOrAbove p p.parent from ⟨rfl, List.dropLast_prefix p.parts⟩)
  rcases hnames with rfl | ⟨-, hnil⟩
  · exact ⟨base', hway⟩
  · rw [List.prefix_nil.mp hnil] at hway
    exact ⟨base', hway⟩

/-- The text of a directory is the start of the text of what stands in it. -/
theorem text_parent (h : Way workdir p base names) :
    p.parent.toString = "." ∨ ∃ rest, p.toString = p.parent.toString ++ rest := by
  have hproper := h.proper
  have hproperParent : ∀ q ∈ p.parent.parts, Path.Proper q :=
    fun q hq => hproper q ((List.dropLast_prefix p.parts).mem hq)
  have htext := toList_toString hproper
  have htextParent := toList_toString hproperParent
  by_cases hempty : p.parent.root = 0 ∧ p.parent.parts = []
  · rw [if_pos hempty] at htextParent
    exact Or.inl (String.toList_inj.mp htextParent)
  · rw [if_neg hempty] at htextParent
    have hne : ¬(p.root = 0 ∧ p.parts = []) := by
      rintro ⟨hroot, hparts⟩
      refine hempty ⟨hroot, ?_⟩
      unfold Path.Tidy.parent
      rw [hparts]
      rfl
    rw [if_neg hne] at htext
    obtain ⟨rest, hrest⟩ : ∃ rest, Path.joinSlash p.parts =
        Path.joinSlash p.parent.parts ++ rest := by
      show ∃ rest, Path.joinSlash p.parts = Path.joinSlash p.parts.dropLast ++ rest
      cases hp : p.parts using List.reverseRecOn with
      | nil => exact ⟨[], rfl⟩
      | append_singleton parts q =>
        rw [List.dropLast_concat]
        by_cases hparts : parts = []
        · rw [hparts]
          exact ⟨q, rfl⟩
        · exact ⟨'/' :: q, Path.joinSlash_concat hparts q⟩
    refine Or.inr ⟨String.ofList rest, String.toList_inj.mp ?_⟩
    rw [String.toList_append, htext, htextParent, String.toList_ofList]
    unfold Path.rooted
    rw [hrest, ← List.append_assoc]
    rfl

theorem hasNul_parent (h : Way workdir p base names) (hnul : hasNul p.toString = false) :
    hasNul p.parent.toString = false := by
  rcases h.text_parent with hdot | ⟨rest, hrest⟩
  · rw [hdot]
    rfl
  · rw [hrest] at hnul
    unfold hasNul at hnul ⊢
    rw [String.toList_append] at hnul
    simp only [List.contains_eq_mem, List.mem_append, decide_eq_false_iff_not, not_or] at hnul ⊢
    exact hnul.1

theorem size_parent (h : Way workdir p base names) (hsize : ¬maxPath < p.toString.utf8ByteSize) :
    ¬maxPath < p.parent.toString.utf8ByteSize := by
  rcases h.text_parent with hdot | ⟨rest, hrest⟩
  · rw [hdot]
    decide
  · rw [hrest, String.utf8ByteSize_append] at hsize
    omega

theorem locate_eq_ok (h : Way fs.workdir p base names) {l : Location}
    (hl : fs.locate p.toString = .ok l) :
    l = base ++ names ∧ ¬maxPath < p.toString.utf8ByteSize ∧ fs.walk base names = .ok l := by
  rw [h.locate_eq rfl] at hl
  split at hl
  · cases hl
  · next hsize => exact ⟨walk_plain h.plain hl, hsize, hl⟩

/-- Where the directory of a path stands, the path leads to its last name. -/
theorem locate_open {q : Path.Part} (h : Way fs.workdir p base (names ++ [q])) (hfs : fs.WellFormed)
    (hd : fs.lookup (base ++ names) = some .directory) :
    fs.locate p.toString =
      if maxPath < p.toString.utf8ByteSize then .error .nameTooLong
      else if isTooLong q then .error .nameTooLong
      else .ok (base ++ (names ++ [q])) := by
  rw [h.locate_eq rfl, walk_through hfs hd (by simp), walk_singleton (h.plain q (by simp)),
    List.append_assoc]

theorem locate_ne_noEntry {q : Path.Part} (h : Way fs.workdir p base (names ++ [q]))
    (hfs : fs.WellFormed) (hd : fs.lookup (base ++ names) = some .directory) :
    fs.locate p.toString ≠ .error .noEntry := by
  rw [h.locate_open hfs hd]
  split
  · exact nofun
  · split <;> exact nofun

/-- A path that leads somewhere has come through its directory. -/
theorem open_of_locate {q : Path.Part} (h : Way fs.workdir p base (names ++ [q]))
    (hfs : fs.WellFormed) {l : Location} (hl : fs.locate p.toString = .ok l) :
    fs.lookup (base ++ names) = some .directory ∧ Path.Plain q ∧ isTooLong q = false := by
  obtain ⟨-, -, hw⟩ := h.locate_eq_ok hl
  obtain ⟨habove, hshort⟩ := walk_concat_eq_ok h.plain (h.lookup_base hfs) hw
  exact ⟨habove, h.plain q (by simp), hshort⟩

/-- Only a way with a name leads to where no directory stands. -/
theorem exists_concat (h : Way fs.workdir p base names) (hfs : fs.WellFormed)
    (hl : fs.lookup (base ++ names) ≠ some .directory) : ∃ init q, names = init ++ [q] := by
  cases names using List.reverseRecOn with
  | nil =>
    rw [List.append_nil] at hl
    exact absurd (h.lookup_base hfs) hl
  | append_singleton init q => exact ⟨init, q, rfl⟩

/-- A path names a directory exactly if one stands where its way leads. -/
theorem isDirectory_iff (h : Way fs.workdir p base names) (hfs : fs.WellFormed) :
    fs.isDirectory p.toString = true ↔ hasNul p.toString = false ∧
      ¬maxPath < p.toString.utf8ByteSize ∧ fs.lookup (base ++ names) = some .directory := by
  have hlocate : fs.locate p.toString = _ := h.locate_eq rfl
  unfold isDirectory stat
  rw [Bool.and_eq_true, Bool.not_eq_true', hlocate]
  refine and_congr_right fun _ => ?_
  by_cases hsize : maxPath < p.toString.utf8ByteSize
  · rw [if_pos hsize]
    constructor
    · intro hfalse
      cases hfalse
    · rintro ⟨hshort, -⟩
      exact absurd hsize hshort
  · rw [if_neg hsize]
    constructor
    · intro hstat
      refine ⟨hsize, ?_⟩
      cases hw : fs.walk base names with
      | error cause =>
        rw [hw] at hstat
        cases hstat
      | ok l =>
        rw [hw, walk_plain h.plain hw] at hstat
        simp only [bind, Except.bind] at hstat
        cases hl : fs.lookup (base ++ names) with
        | none =>
          rw [hl] at hstat
          cases hstat
        | some entry =>
          rw [hl] at hstat
          cases entry with
          | directory => rfl
          | file content => cases hstat
    · rintro ⟨-, hl⟩
      rw [walk_directory hfs hl]
      simp only [bind, Except.bind, hl]
      rfl

end Way

/-- The last name of a way holds no slash. -/
theorem Way.noSlash_name {workdir base : Location} {p : Path.Tidy} {names : List Path.Part}
    (h : Way workdir p base names) : '/' ∉ p.name.toList := by
  unfold Path.Tidy.name
  rw [String.toList_ofList, List.getLastD_eq_getLast?]
  cases hlast : p.parts.getLast? with
  | none => exact List.not_mem_nil
  | some q => exact (h.proper q (List.mem_of_getLast? hlast)).noSlash

/-- A normalised path has a way. -/
theorem exists_way_normalize (workdir : Location) (path : String) :
    ∃ base names, Way workdir (Path.Tidy.ofString (Path.normalize path)) base names := by
  have hslash : ∀ q ∈ Path.splitSlash path.toList, '/' ∉ q :=
    fun q hq => Path.notMem_of_mem_splitSlash hq
  obtain ⟨ups, names, hparts, hplain, hups⟩ :=
    Path.exists_reduce_eq (Path.rootSlashes path.toList != 0) hslash
  have hle := Path.rootSlashes_le path.toList
  have htidy := Path.ofString_normalize path
  rw [htidy]
  by_cases hroot : Path.rootSlashes path.toList = 0
  · exact ⟨_, names, hplain, Or.inl ⟨hroot, ups, hparts, rfl⟩⟩
  · have hslashes : Path.rootSlashes path.toList = 1 ∨ Path.rootSlashes path.toList = 2 := by omega
    refine ⟨[], names, hplain, Or.inr ⟨hslashes, ?_, rfl⟩⟩
    rw [hparts, hups (by simpa using hroot)]
    rfl

end FileSystem

end DartModels
