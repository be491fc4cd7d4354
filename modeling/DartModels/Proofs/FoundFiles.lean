import DartModels.Progress
import DartModels.Proofs.Discovery
import DartModels.Proofs.Endings
import DartModels.Proofs.Ways
import Mathlib.Data.List.Basic

/-!
# Files that are found

A search for the names that end with a text finds the files with such a name below a directory, each
once and in order.  What it finds is told by the files that stand there, not by the table that lists
them, and it ends well if no path that it looks at is too long.

    strictly sorted texts are told by their members                           (eq_of_increasing)
    what stands at the end of a way                                              (Start.look_eq)
    a file is found if it stands below the directory and its name matches             (mem_glob)
    a search that succeeds in one tree succeeds in another one                     (exists_glob)
    a star and a text without slashes are one part of a pattern              (readPattern_name)
-/

namespace DartModels

/-! ## Sorted texts -/

section

variable {l r : List String}

theorem mem_eraseReps_loop {a b : String} {kept : List String} :
    b ∈ List.eraseRepsBy.loop (· == ·) a l kept ↔ b ∈ kept ∨ b = a ∨ b ∈ l := by
  induction l generalizing a kept with
  | nil => simp [List.eraseRepsBy.loop, or_comm]
  | cons c l ih =>
    rw [List.eraseRepsBy.loop]
    split
    · next hsame =>
      rw [ih, beq_iff_eq.mp hsame, List.mem_cons, ← or_assoc (a := b = c), or_self]
    · rw [ih, List.mem_cons, List.mem_cons, or_assoc, or_left_comm]

theorem mem_eraseReps {b : String} : b ∈ l.eraseReps ↔ b ∈ l := by
  cases l with
  | nil => exact Iff.rfl
  | cons a l => simp [List.eraseReps, List.eraseRepsBy, mem_eraseReps_loop]

theorem increasing_eraseReps_loop {a : String} {kept : List String}
    (hkept : (kept.reverse ++ [a]).Pairwise (· < ·)) (h : (a :: l).Pairwise fun a b => ¬b < a) :
    (List.eraseRepsBy.loop (· == ·) a l kept).Pairwise (· < ·) := by
  induction l generalizing a kept with
  | nil =>
    rw [List.eraseRepsBy.loop, List.reverse_cons]
    exact hkept
  | cons c l ih =>
    obtain ⟨hfirst, hrest⟩ := List.pairwise_cons.mp h
    rw [List.eraseRepsBy.loop]
    split
    · next hsame =>
      rw [beq_iff_eq.mp hsame] at hkept ⊢
      exact ih hkept hrest
    · next hdiffers =>
      have hlt : a < c := by
        refine String.not_le.mp fun hle => ?_
        have hsame := String.le_antisymm hle (String.not_lt.mp (hfirst c List.mem_cons_self))
        rw [hsame, beq_self_eq_true] at hdiffers
        cases hdiffers
      refine ih ?_ hrest
      rw [List.reverse_cons, List.pairwise_append]
      refine ⟨hkept, List.pairwise_singleton _ _, fun b hb d hd => ?_⟩
      rw [List.mem_singleton.mp hd]
      rcases List.mem_append.mp hb with hb | hb
      · exact String.lt_trans
          ((List.pairwise_append.mp hkept).2.2 b hb a List.mem_cons_self) hlt
      · rwa [List.mem_singleton.mp hb]

theorem increasing_eraseReps (h : l.Pairwise fun a b => ¬b < a) :
    l.eraseReps.Pairwise (· < ·) := by
  cases l with
  | nil => exact .nil
  | cons a l => exact increasing_eraseReps_loop (List.pairwise_singleton _ _) h

theorem nodup_of_increasing (hl : l.Pairwise (· < ·)) : l.Nodup := by
  refine hl.imp ?_
  intro a b hlt heq
  exact String.lt_irrefl b (heq ▸ hlt)

end

namespace Path

variable {parts : List Part}

theorem mem_joinSlash {c : Char} (hc : c ≠ '/') : c ∈ joinSlash parts ↔ ∃ q ∈ parts, c ∈ q := by
  induction parts with
  | nil => exact ⟨nofun, nofun⟩
  | cons p parts ih =>
    cases parts with
    | nil => simp [joinSlash]
    | cons q parts =>
      have hjoin : joinSlash (p :: q :: parts) = p ++ '/' :: joinSlash (q :: parts) := rfl
      rw [hjoin, List.mem_append, List.mem_cons, or_iff_right hc, ih]
      simp only [List.mem_cons, exists_eq_or_imp]

theorem mem_rooted {c : Char} (hc : c ≠ '/') {root : Nat} :
    c ∈ rooted root parts ↔ ∃ q ∈ parts, c ∈ q := by
  unfold rooted
  rw [List.mem_append, mem_joinSlash hc]
  exact or_iff_right fun h => hc (List.eq_of_mem_replicate h)

theorem proper_ofString (p : String) : ∀ q ∈ (Tidy.ofString p).parts, Proper q := fun _ hq =>
  ⟨(List.mem_filter.mp hq).2, notMem_of_mem_splitSlash (List.mem_filter.mp hq).1⟩

end Path

namespace FileSystem

variable {fs fs₁ : FileSystem} {dir : Path.Tidy} {here current : Location}
  {way names rest : List Path.Part} {items : List Wildcard.Item}

/-! ## Walking on -/

/-- A walk goes on from a directory that it has come to. -/
theorem walk_append (hw : fs.walk current names = .ok here)
    (hd : fs.lookup here = some .directory) (hne : rest ≠ []) :
    fs.walk current (names ++ rest) = fs.walk here rest := by
  fun_induction fs.walk current names with
  | case1 current =>
    cases hw
    rfl
  | case2 current p names hunnamed ih =>
    rw [List.cons_append, walk, if_pos hunnamed]
    exact ih hw
  | case3 current names hnamed ih =>
    rw [List.cons_append, walk, if_neg hnamed, if_pos rfl]
    exact ih hw
  | case4 current p names hnamed hdots hlong => cases hw
  | case5 current p names hnamed hdots hlong hlast =>
    cases hw
    have hlast' : ¬(names ++ rest).isEmpty = true := by simp [hne]
    rw [List.cons_append, walk, if_neg hnamed, if_neg hdots, if_neg hlong, if_neg hlast', hd,
      List.isEmpty_iff.mp hlast]
    rfl
  | case6 current p names hnamed hdots hlong hlast hentry ih =>
    have hlast' : ¬(names ++ rest).isEmpty = true := by simp [hne]
    rw [List.cons_append, walk, if_neg hnamed, if_neg hdots, if_neg hlong, if_neg hlast', hentry]
    exact ih hw
  | case7 current p names hnamed hdots hlong hlast content hentry => cases hw
  | case8 current p names hnamed hdots hlong hlast hentry => cases hw

/-- What stands is reached. -/
theorem walk_entry (hfs : fs.WellFormed) (h : fs.lookup (current ++ names) ≠ none) :
    fs.walk current names = .ok (current ++ names) := by
  cases names using List.reverseRecOn with
  | nil => rw [walk, List.append_nil]
  | append_singleton names q =>
    rw [← List.append_assoc] at h ⊢
    obtain ⟨hq, hshort⟩ := hfs.name _ q h
    rw [walk_through hfs (hfs.above _ q h) (List.cons_ne_nil q []), walk_singleton hq, hshort]
    rfl

/-- A path leads to a directory that stands. -/
structure Start (fs : FileSystem) (dir : Path.Tidy) (here : Location) : Prop where
  proper : ∀ q ∈ dir.parts, Path.Proper q
  located : fs.locate dir.toString = .ok here
  stands : fs.lookup here = some .directory

/-- A tidy path holds the character NUL in one of its components. -/
theorem hasNul_toString {p : Path.Tidy} (h : ∀ q ∈ p.parts, Path.Proper q) :
    hasNul p.toString = true ↔ ∃ q ∈ p.parts, '\x00' ∈ q := by
  unfold hasNul
  rw [List.contains_iff_mem, toList_toString h]
  split
  · next hempty =>
    rw [hempty.2]
    decide
  · exact Path.mem_rooted (by decide)

namespace Start

theorem proper_down (h : Start fs dir here) (hway : ∀ q ∈ way, Path.Proper q) :
    ∀ q ∈ (dir.down way).parts, Path.Proper q :=
  List.forall_mem_append.mpr ⟨h.proper, hway⟩

/-- A directory keeps its path in a tree that has grown. -/
theorem mono (h : Start fs dir here) (hkeeps : fs.KeepsDirectories fs₁) : Start fs₁ dir here :=
  ⟨h.proper, locate_mono hkeeps h.located, hkeeps.directory _ h.stands⟩

theorem down_nil (dir : Path.Tidy) : dir.down [] = dir := by
  unfold Path.Tidy.down
  rw [List.append_nil]

/-- What stands at the end of a way can be seen, unless its path is too long. -/
theorem locate_down (h : Start fs dir here) (hway : ∀ q ∈ way, Path.Proper q) (hne : way ≠ []) :
    fs.locate (dir.down way).toString =
      if maxPath < (dir.down way).toString.utf8ByteSize then .error .nameTooLong
      else fs.walk here way := by
  have hwalk : fs.walk (if dir.root = 0 then fs.workdir else []) dir.parts = .ok here := by
    have hlocated := h.located
    rw [locate_tidy h.proper] at hlocated
    split at hlocated
    · cases hlocated
    · exact hlocated
  rw [locate_tidy (h.proper_down hway), ← walk_append hwalk h.stands hne]
  rfl

/-- What stands at the end of a way. -/
theorem look_eq (h : Start fs dir here) (hfs : fs.WellFormed)
    (hentry : fs.lookup (here ++ way) ≠ none) :
    fs.look dir way =
      if hasNul (dir.down way).toString then .ok none
      else if maxPath < (dir.down way).toString.utf8ByteSize then
        .error (.os .nameTooLong (dir.down way).toString)
      else .ok (fs.lookup (here ++ way)) := by
  obtain ⟨entry, hentry'⟩ := Option.ne_none_iff_exists'.mp hentry
  have hlocate : fs.locate (dir.down way).toString =
      if maxPath < (dir.down way).toString.utf8ByteSize then .error .nameTooLong
      else .ok (here ++ way) := by
    by_cases hway : way = []
    · rw [hway, down_nil, List.append_nil, h.located, if_neg]
      intro hlong
      have hlocated := h.located
      unfold locate at hlocated
      rw [if_pos hlong] at hlocated
      split at hlocated <;> cases hlocated
    · have hplain : ∀ q ∈ way, Path.Proper q := fun q hq =>
        (hfs.plain_of_mem hentry (List.mem_append_right here hq)).1.toProper
      rw [h.locate_down hplain hway, walk_entry hfs hentry]
  have hstat : fs.stat (dir.down way).toString =
      if maxPath < (dir.down way).toString.utf8ByteSize then .error .nameTooLong
      else .ok entry := by
    unfold stat
    rw [hlocate]
    split
    · rfl
    · simp only [bind, Except.bind, hentry']
      rfl
  unfold look
  dsimp only
  rw [hstat, hentry']
  by_cases hlong : maxPath < (dir.down way).toString.utf8ByteSize
  · rw [if_pos hlong, if_pos hlong]
  · rw [if_neg hlong, if_neg hlong]

/-- What is seen at the end of a way stands there. -/
theorem lookup_of_look (h : Start fs dir here) (hway : ∀ q ∈ way, Path.Plain q) {entry : Entry}
    (hlook : fs.look dir way = .ok (some entry)) : fs.lookup (here ++ way) = some entry := by
  obtain ⟨-, hstat⟩ := stat_of_look hlook
  obtain ⟨l, hlocate, hl⟩ := stat_eq_ok hstat
  by_cases hnil : way = []
  · rw [hnil, down_nil, h.located] at hlocate
    cases hlocate
    rw [hnil, List.append_nil, hl]
  · rw [h.locate_down (fun q hq => (hway q hq).toProper) hnil] at hlocate
    split at hlocate
    · cases hlocate
    · rw [← walk_plain hway hlocate, hl]

/-- A way without the character NUL is a part of one without. -/
theorem hasNul_down (h : Start fs dir here) (hway : ∀ q ∈ way ++ rest, Path.Proper q)
    (hnul : hasNul (dir.down (way ++ rest)).toString = false) :
    hasNul (dir.down way).toString = false := by
  rw [Bool.eq_false_iff, ne_eq, hasNul_toString (h.proper_down hway)] at hnul
  rw [Bool.eq_false_iff, ne_eq,
    hasNul_toString (h.proper_down fun q hq => hway q (List.mem_append_left rest hq))]
  rintro ⟨q, hq, hmem⟩
  refine hnul ⟨q, ?_, hmem⟩
  show q ∈ dir.parts ++ (way ++ rest)
  rw [← List.append_assoc]
  exact List.mem_append_left rest hq

end Start

/-! ## Selecting -/

theorem mem_namesIn {l : Location} {name : Path.Part} :
    name ∈ fs.namesIn l ↔ ∃ entry, (l ++ [name], entry) ∈ fs.entries := by
  unfold namesIn
  rw [List.mem_filterMap]
  constructor
  · rintro ⟨⟨loc, entry⟩, hmem, hname⟩
    dsimp only at hname
    split at hname
    · next hdir =>
      refine ⟨entry, ?_⟩
      rwa [← hdir, List.dropLast_append_getLast? name hname]
    · cases hname
  · rintro ⟨entry, hmem⟩
    refine ⟨_, hmem, ?_⟩
    dsimp only
    rw [List.dropLast_concat, if_pos rfl, List.getLast?_concat]

theorem mem_directoriesFrom {l down : Location} :
    down ∈ fs.directoriesFrom l ↔ down = [] ∨ down ≠ [] ∧ (l ++ down, .directory) ∈ fs.entries := by
  unfold directoriesFrom
  rw [List.mem_cons, List.mem_filterMap]
  refine or_congr_right ?_
  constructor
  · rintro ⟨⟨loc, entry⟩, hmem, hdown⟩
    dsimp only at hdown
    split at hdown
    · next hbelow =>
      simp only [Bool.and_eq_true, decide_eq_true_eq, List.isPrefixOf_iff_prefix] at hbelow
      obtain ⟨⟨rfl, rest, rfl⟩, hlength⟩ := hbelow
      rw [List.drop_left] at hdown
      cases hdown
      refine ⟨?_, hmem⟩
      rintro rfl
      simp at hlength
    · cases hdown
  · rintro ⟨hne, hmem⟩
    refine ⟨_, hmem, ?_⟩
    dsimp only
    rw [if_pos, List.drop_left]
    simp [List.length_pos_iff.mpr hne]

/-- A part for directories at any depth goes on below each of them. -/
theorem exists_of_mem_recursive {parts : List PatternPart} {ways : List (List Path.Part)}
    {l : Location} (h : fs.select dir (.recursive :: parts) l way = .ok ways) {w : List Path.Part}
    (hw : w ∈ ways) :
    ∃ down ∈ fs.directoriesFrom l, ∃ below,
      fs.select dir parts (l ++ down) (way ++ down) = .ok below ∧ w ∈ below := by
  rw [select] at h
  obtain ⟨found, hfound, h⟩ := exists_of_bind_eq_ok h
  cases h
  obtain ⟨below, hbelow, hw⟩ := List.mem_flatten.mp hw
  obtain ⟨down, hdown, hselect⟩ := (mem_of_mapM_eq_ok hfound).mp hbelow
  obtain ⟨entry, -, hselect⟩ := exists_of_bind_eq_ok hselect
  exact ⟨down, hdown, below, hselect, hw⟩

/-- A part with wildcards goes on below names of the directory. -/
theorem exists_of_mem_pattern {items : List Wildcard.Item} {parts : List PatternPart}
    {ways : List (List Path.Part)} {l : Location}
    (h : fs.select dir (.pattern items :: parts) l way = .ok ways) {w : List Path.Part}
    (hw : w ∈ ways) :
    ∃ name ∈ fs.namesIn l, ∃ below,
      fs.select dir parts (l ++ [name]) (way ++ [name]) = .ok below ∧ w ∈ below := by
  rw [select] at h
  obtain ⟨entry, -, h⟩ := exists_of_bind_eq_ok h
  obtain ⟨found, hfound, h⟩ := exists_of_bind_eq_ok h
  cases h
  obtain ⟨below, hbelow, hw⟩ := List.mem_flatten.mp hw
  obtain ⟨name, hname, hselect⟩ := (mem_of_mapM_eq_ok hfound).mp hbelow
  exact ⟨name, (List.mem_filter.mp hname).1, below, hselect, hw⟩

/-- A fixed name is gone through, or is the last part and selected, or selects nothing. -/
theorem select_fixed_cases {name : Path.Part} {parts : List PatternPart}
    {ways : List (List Path.Part)} {l : Location}
    (h : fs.select dir (.fixed name :: parts) l way = .ok ways) :
    (∃ next, fs.select dir parts next (way ++ [name]) = .ok ways) ∨
      (parts = [] ∧ ways = [way ++ [name]]) ∨ ways = [] := by
  rw [select] at h
  obtain ⟨entry, -, h⟩ := exists_of_bind_eq_ok h
  split at h
  · exact Or.inl ⟨_, h⟩
  · split at h
    · next hlast =>
      cases h
      exact Or.inr (Or.inl ⟨List.isEmpty_iff.mp hlast, rfl⟩)
    · cases h
      exact Or.inr (Or.inr rfl)
  · cases h
    exact Or.inr (Or.inr rfl)

/-- Fixed names are selected one below the other. -/
theorem eq_of_select_fixed {ways : List (List Path.Part)} {l : Location}
    (h : fs.select dir (names.map .fixed) l way = .ok ways) : ∀ w ∈ ways, w = way ++ names := by
  induction names generalizing l way ways with
  | nil =>
    cases h
    exact List.forall_mem_singleton.mpr (List.append_nil way).symm
  | cons name names ih =>
    obtain ⟨next, hnext⟩ | ⟨hlast, rfl⟩ | rfl := select_fixed_cases h
    · intro w hw
      rw [ih hnext w hw, List.append_assoc]
      rfl
    · rw [List.map_eq_nil_iff.mp hlast]
      exact List.forall_mem_singleton.mpr rfl
    · exact List.forall_mem_nil _

/-- A file below fixed names is selected. -/
theorem mem_select_fixed (hs : Start fs dir here) (hfs : fs.WellFormed) {content : List UInt8}
    (hfile : fs.lookup (here ++ (way ++ names)) = some (.file content))
    (hnul : hasNul (dir.down (way ++ names)).toString = false)
    {ways : List (List Path.Part)} {l : Location}
    (h : fs.select dir (names.map .fixed) l way = .ok ways) : way ++ names ∈ ways := by
  induction names generalizing l way ways with
  | nil =>
    cases h
    rw [List.append_nil]
    exact List.mem_cons_self
  | cons name names ih =>
    have hsplit : way ++ name :: names = (way ++ [name]) ++ names := by simp
    have hplain : ∀ q ∈ (way ++ [name]) ++ names, Path.Proper q := fun q hq =>
      (hfs.plain_of_mem (l := here ++ (way ++ name :: names)) (by rw [hfile]; exact nofun)
        (List.mem_append_right here (hsplit ▸ hq))).1.toProper
    rw [hsplit] at hfile hnul ⊢
    have hnul' := hs.hasNul_down hplain hnul
    rw [List.map_cons, select] at h
    obtain ⟨entry, hlook, h⟩ := exists_of_bind_eq_ok h
    by_cases hlast : names = []
    · rw [hlast, List.append_nil] at hfile ⊢
      rw [hs.look_eq hfs (by rw [hfile]; exact nofun), hnul', hfile] at hlook
      rw [if_neg Bool.false_ne_true] at hlook
      split at hlook
      · cases hlook
      · cases hlook
        rw [hlast] at h
        cases h
        exact List.mem_cons_self
    · have hdirectory : fs.lookup (here ++ (way ++ [name])) = some .directory := by
        refine hfs.lookup_above names hlast ?_
        rw [List.append_assoc, hfile]
        exact nofun
      rw [hs.look_eq hfs (by rw [hdirectory]; exact nofun), hnul', hdirectory] at hlook
      rw [if_neg Bool.false_ne_true] at hlook
      split at hlook
      · cases hlook
      · cases hlook
        exact ih hfile hnul h

/-- The names in a directory that are selected: they match, and lead to a directory if the pattern
goes on. -/
def namesAt (fs : FileSystem) (items : List Wildcard.Item) (parts : List PatternPart)
    (l : Location) : List Path.Part :=
  (fs.namesIn l).filter fun name =>
    Wildcard.matchItems items name &&
      (parts.isEmpty || fs.lookup (l ++ [name]) = some .directory)

theorem namesAt_star (fs : FileSystem) (parts : List PatternPart) (l : Location) :
    fs.namesAt [.star] parts l = (fs.namesIn l).filter fun name =>
      parts.isEmpty || fs.lookup (l ++ [name]) = some .directory := by
  unfold namesAt
  simp only [Wildcard.matchItems_star, Bool.true_and]

/-- What is selected below one directory. -/
def selectBelow (fs : FileSystem) (dir : Path.Tidy) (items : List Wildcard.Item)
    (parts : List PatternPart) (here : Location) (down : List Path.Part) :
    Except Error (List (List Path.Part)) := do
  let _ ← fs.look dir down
  let below ← (fs.namesAt items parts (here ++ down)).mapM fun name =>
    fs.select dir parts (here ++ down ++ [name]) (down ++ [name])
  return below.flatten

section

variable {parts : List PatternPart} {ways : List (List Path.Part)}

theorem select_eq (fs : FileSystem) (dir : Path.Tidy) (items : List Wildcard.Item)
    (parts : List PatternPart) (here : Location) :
    fs.select dir (.recursive :: .pattern items :: parts) here [] = do
      let ways ← (fs.directoriesFrom here).mapM (fs.selectBelow dir items parts here)
      return ways.flatten := by
  have hbelow : (fun down => do
      let _ ← fs.look dir ([] ++ down)
      fs.select dir (.pattern items :: parts) (here ++ down) ([] ++ down)) =
        fs.selectBelow dir items parts here := by
    funext down
    unfold selectBelow
    rw [List.nil_append]
    cases hlook : fs.look dir down with
    | error e => rfl
    | ok entry =>
      rw [ok_bind, ok_bind, select, hlook, ok_bind]
      rfl
  rw [select, hbelow]

theorem selectBelow_eq_ok {down : List Path.Part}
    (h : fs.selectBelow dir items parts here down = .ok ways) :
    (∃ entry, fs.look dir down = .ok entry) ∧
      (∀ name ∈ fs.namesAt items parts (here ++ down),
        ∃ below, fs.select dir parts (here ++ down ++ [name]) (down ++ [name]) = .ok below) ∧
      ∀ w, w ∈ ways ↔ ∃ name ∈ fs.namesAt items parts (here ++ down),
        ∃ below, fs.select dir parts (here ++ down ++ [name]) (down ++ [name]) = .ok below ∧
          w ∈ below := by
  obtain ⟨entry, hentry, h⟩ := exists_of_bind_eq_ok h
  obtain ⟨named, hnamed, h⟩ := exists_of_bind_eq_ok h
  cases h
  refine ⟨⟨entry, hentry⟩, exists_mapM_eq_ok.mp ⟨named, hnamed⟩, fun w => ?_⟩
  rw [List.mem_flatten]
  simp only [mem_of_mapM_eq_ok hnamed]
  constructor
  · rintro ⟨below, ⟨name, hname, hbelow⟩, hw⟩
    exact ⟨name, hname, below, hbelow, hw⟩
  · rintro ⟨name, hname, below, hbelow, hw⟩
    exact ⟨below, ⟨name, hname, hbelow⟩, hw⟩

/-- A selection succeeds if it can look at each directory and go on below its names. -/
theorem exists_select_iff :
    (∃ ways, fs.select dir (.recursive :: .pattern items :: parts) here [] = .ok ways) ↔
      ∀ down ∈ fs.directoriesFrom here, (∃ entry, fs.look dir down = .ok entry) ∧
        ∀ name ∈ fs.namesAt items parts (here ++ down),
          ∃ below, fs.select dir parts (here ++ down ++ [name]) (down ++ [name]) = .ok below := by
  rw [select_eq]
  constructor
  · rintro ⟨ways, h⟩ down hdown
    obtain ⟨found, hfound, -⟩ := exists_of_bind_eq_ok h
    obtain ⟨level, hlevel⟩ := exists_mapM_eq_ok.mp ⟨found, hfound⟩ down hdown
    obtain ⟨hlook, hbelow, -⟩ := selectBelow_eq_ok hlevel
    exact ⟨hlook, hbelow⟩
  · intro h
    have hall : ∀ down ∈ fs.directoriesFrom here,
        ∃ level, fs.selectBelow dir items parts here down = .ok level := by
      intro down hdown
      obtain ⟨⟨entry, hentry⟩, hbelow⟩ := h down hdown
      obtain ⟨named, hnamed⟩ := exists_mapM_eq_ok.mpr hbelow
      unfold selectBelow
      rw [hentry, ok_bind, hnamed]
      exact ⟨_, rfl⟩
    obtain ⟨found, hfound⟩ := exists_mapM_eq_ok.mpr hall
    rw [hfound]
    exact ⟨_, rfl⟩

/-- The ways that are selected, each below a name that matches. -/
theorem mem_select_iff
    (h : fs.select dir (.recursive :: .pattern items :: parts) here [] = .ok ways)
    {w : List Path.Part} :
    w ∈ ways ↔ ∃ down ∈ fs.directoriesFrom here, ∃ name ∈ fs.namesAt items parts (here ++ down),
      ∃ below, fs.select dir parts (here ++ down ++ [name]) (down ++ [name]) = .ok below ∧
        w ∈ below := by
  rw [select_eq] at h
  obtain ⟨found, hfound, h⟩ := exists_of_bind_eq_ok h
  cases h
  rw [List.mem_flatten]
  simp only [mem_of_mapM_eq_ok hfound]
  constructor
  · rintro ⟨level, ⟨down, hdown, hlevel⟩, hw⟩
    exact ⟨down, hdown, ((selectBelow_eq_ok hlevel).2.2 w).mp hw⟩
  · rintro ⟨down, hdown, hw⟩
    obtain ⟨level, hlevel⟩ := exists_mapM_eq_ok.mp ⟨found, hfound⟩ down hdown
    exact ⟨level, ⟨down, hdown, hlevel⟩, ((selectBelow_eq_ok hlevel).2.2 w).mpr hw⟩

end

/-! ### Entries -/

theorem find_ne_none_of_mem {l : Location} {entry : Entry} {entries : List (Location × Entry)}
    (h : (l, entry) ∈ entries) : find l entries ≠ none := by
  induction entries with
  | nil => cases h
  | cons e entries ih =>
    rw [find]
    by_cases heq : e.1 = l
    · rw [if_pos heq]
      exact Option.some_ne_none _
    · rw [if_neg heq]
      refine ih ((List.mem_cons.mp h).resolve_left fun hhead => heq ?_)
      exact (congrArg Prod.fst hhead).symm

theorem lookup_ne_none_of_mem {l : Location} {entry : Entry} (h : (l, entry) ∈ fs.entries) :
    fs.lookup l ≠ none := by
  rw [lookup]
  by_cases hroot : l = []
  · rw [if_pos hroot]
    exact Option.some_ne_none _
  · rw [if_neg hroot]
    exact find_ne_none_of_mem h

theorem mem_of_lookup {l : Location} {entry : Entry} (hne : l ≠ [])
    (h : fs.lookup l = some entry) : (l, entry) ∈ fs.entries := by
  unfold lookup at h
  rw [if_neg hne] at h
  exact mem_of_find h

/-- The directories at or below a directory stand there, if anything stands in them. -/
theorem lookup_down (hs : Start fs dir here) {down : List Path.Part}
    (h : down ∈ fs.directoriesFrom here) : fs.lookup (here ++ down) ≠ none := by
  rcases mem_directoriesFrom.mp h with rfl | ⟨-, hmem⟩
  · rw [List.append_nil, hs.stands]
    exact nofun
  · exact lookup_ne_none_of_mem hmem

theorem mem_directoriesFrom_of_lookup {l down : Location}
    (h : fs.lookup (l ++ down) = some .directory) : down ∈ fs.directoriesFrom l := by
  rw [mem_directoriesFrom]
  by_cases hne : down = []
  · exact Or.inl hne
  · exact Or.inr ⟨hne, mem_of_lookup (by simp [hne]) h⟩

theorem lookup_name {items : List Wildcard.Item} {parts : List PatternPart} {l : Location}
    {name : Path.Part} (h : name ∈ fs.namesAt items parts l) : fs.lookup (l ++ [name]) ≠ none := by
  obtain ⟨entry, hmem⟩ := mem_namesIn.mp (List.mem_filter.mp h).1
  exact lookup_ne_none_of_mem hmem

/-! ## Searching -/

/-- The paths of the files among what was looked at, each once and in increasing order. -/
def pathsOf (looked : List (List Path.Part × Option Entry)) : List String :=
  (((looked.filter fun (_, entry) => entry matches some (.file _)).map fun (way, _) =>
    String.ofList (Path.joinSlash way)).mergeSort fun a b => !decide (b < a)).eraseReps

theorem increasing_pathsOf (looked : List (List Path.Part × Option Entry)) :
    (pathsOf looked).Pairwise (· < ·) :=
  increasing_eraseReps (Progress.sorted_mergeSort id _)

theorem mem_pathsOf {looked : List (List Path.Part × Option Entry)} {text : String} :
    text ∈ pathsOf looked ↔
      ∃ way content, (way, some (.file content)) ∈ looked ∧
        text = String.ofList (Path.joinSlash way) := by
  unfold pathsOf
  rw [mem_eraseReps, List.mem_mergeSort, List.mem_map]
  constructor
  · rintro ⟨⟨way, entry⟩, hmem, rfl⟩
    obtain ⟨hmem, hfile⟩ := List.mem_filter.mp hmem
    rcases entry with _ | _ | content
    · cases hfile
    · cases hfile
    · exact ⟨way, content, hmem, rfl⟩
  · rintro ⟨way, content, hmem, rfl⟩
    exact ⟨(way, some (.file content)), List.mem_filter.mpr ⟨hmem, rfl⟩, rfl⟩

section

variable {start pattern : String} {parts : List PatternPart}

/-- A search from a directory that stands. -/
theorem glob_eq (hs : Start fs (.ofString start) here) (hfs : fs.WellFormed)
    (hparts : readPattern pattern = .ok parts) (hslash : pattern.toList.getLast? ≠ some '/') :
    fs.glob start pattern =
      if hasNul (Path.Tidy.ofString start).toString then .ok []
      else do
        let ways ← fs.select (.ofString start) (.recursive :: parts) here []
        let looked ← ways.mapM fun way => do return (way, ← fs.look (.ofString start) way)
        return pathsOf looked := by
  have hstands : fs.lookup (here ++ []) = some .directory := by
    rw [List.append_nil]
    exact hs.stands
  have hsize : ¬maxPath < (Path.Tidy.ofString start).toString.utf8ByteSize := by
    intro hlong
    have hlocated := hs.located
    unfold locate at hlocated
    rw [if_pos hlong] at hlocated
    split at hlocated <;> cases hlocated
  have hlook := @Start.look_eq _ _ _ [] hs hfs (by rw [hstands]; exact nofun)
  rw [hstands, Start.down_nil, if_neg hsize] at hlook
  have hlast : ¬(pattern.toList.getLast? == some '/') = true := by
    rw [beq_iff_eq]
    exact hslash
  unfold glob
  rw [hparts, ok_bind]
  dsimp only
  rw [hlook]
  split
  · rfl
  · rw [ok_bind]
    dsimp only
    rw [hs.located]
    rfl

/-- The file at the end of a way is found: the way ends with a name that matches and the names below
it. -/
structure Finds (fs : FileSystem) (dir : Path.Tidy) (here : Location) (items : List Wildcard.Item)
    (names way : List Path.Part) : Prop where
  noNul : hasNul (dir.down way).toString = false
  file : ∃ content, fs.lookup (here ++ way) = some (.file content)
  ends : ∃ down name, way = down ++ name :: names ∧ Wildcard.matchItems items name = true

theorem Finds.mem_select (hway : Finds fs dir here items names way) (hs : Start fs dir here)
    (hfs : fs.WellFormed) {ways : List (List Path.Part)}
    (h : fs.select dir (.recursive :: .pattern items :: names.map .fixed) here [] = .ok ways) :
    way ∈ ways := by
  obtain ⟨hnul, ⟨content, hfile⟩, down, name, rfl, hmatches⟩ := hway
  have hsplit : down ++ name :: names = (down ++ [name]) ++ names := by simp
  have hbelow (hlast : names ≠ []) :=
    hfs.lookup_above (l := here ++ down ++ [name]) names hlast (by simp [hfile])
  have hhere : fs.lookup (here ++ down ++ [name]) ≠ none := by
    by_cases hlast : names = []
    · rw [List.append_assoc, ← hlast, hfile]
      exact nofun
    · rw [hbelow hlast]
      exact nofun
  obtain ⟨entry, hentry⟩ := Option.ne_none_iff_exists'.mp hhere
  have hname : name ∈ fs.namesAt items (names.map .fixed) (here ++ down) := by
    refine List.mem_filter.mpr ⟨mem_namesIn.mpr ⟨entry, mem_of_lookup (by simp) hentry⟩, ?_⟩
    rw [hmatches, Bool.true_and]
    by_cases hlast : names = []
    · rw [hlast]
      rfl
    · rw [hbelow hlast]
      simp
  have hdown := mem_directoriesFrom_of_lookup (hfs.above _ _ hhere)
  obtain ⟨level, hlevel⟩ := (exists_select_iff.mp ⟨ways, h⟩ _ hdown).2 name hname
  refine (mem_select_iff h).mpr ⟨down, hdown, name, hname, level, hlevel, ?_⟩
  rw [hsplit] at hfile hnul ⊢
  exact mem_select_fixed hs hfs hfile hnul hlevel

theorem finds_of_mem_select (hs : Start fs dir here) (hfs : fs.WellFormed)
    (hnames : ∀ q ∈ names, Path.Plain q) {ways : List (List Path.Part)}
    (h : fs.select dir (.recursive :: .pattern items :: names.map .fixed) here [] = .ok ways)
    (hway : way ∈ ways) {content : List UInt8}
    (hlook : fs.look dir way = .ok (some (.file content))) :
    Finds fs dir here items names way := by
  obtain ⟨down, hdown, name, hname, level, hlevel, hw⟩ := (mem_select_iff h).mp hway
  have hends : way = down ++ name :: names := by
    rw [eq_of_select_fixed hlevel way hw, List.append_assoc]
    rfl
  have hplain : ∀ q ∈ way, Path.Plain q := by
    intro q hq
    rw [hends] at hq
    rcases List.mem_append.mp hq with hq | hq
    · exact (hfs.plain_of_mem (lookup_down hs hdown) (List.mem_append_right here hq)).1
    · rcases List.mem_cons.mp hq with rfl | hq
      · exact (hfs.name _ _ (lookup_name hname)).1
      · exact hnames q hq
  refine ⟨(stat_of_look hlook).1, ⟨content, hs.lookup_of_look hplain hlook⟩, down, name, hends, ?_⟩
  exact (Bool.and_eq_true _ _ ▸ (List.mem_filter.mp hname).2).1

/-- A file is found exactly if its way is selected and the file can be seen at the end of it. -/
theorem finds_iff (hs : Start fs dir here) (hfs : fs.WellFormed)
    (hnames : ∀ q ∈ names, Path.Plain q) {ways : List (List Path.Part)}
    (h : fs.select dir (.recursive :: .pattern items :: names.map .fixed) here [] = .ok ways)
    (hlooked : ∀ way ∈ ways, ∃ entry, fs.look dir way = .ok entry) :
    Finds fs dir here items names way ↔
      way ∈ ways ∧ ∃ content, fs.look dir way = .ok (some (.file content)) := by
  constructor
  · intro hfinds
    have hway := hfinds.mem_select hs hfs h
    obtain ⟨hnul, ⟨content, hfile⟩, -⟩ := hfinds
    obtain ⟨entry, hentry⟩ := hlooked way hway
    have hlook := hs.look_eq hfs (by rw [hfile]; exact nofun)
    rw [hnul, hfile, if_neg Bool.false_ne_true] at hlook
    refine ⟨hway, content, ?_⟩
    split at hlook
    · rw [hlook] at hentry
      cases hentry
    · exact hlook
  · rintro ⟨hway, content, hlook⟩
    exact finds_of_mem_select hs hfs hnames h hway hlook

theorem mem_looked {ways : List (List Path.Part)} {looked : List (List Path.Part × Option Entry)}
    (h : (ways.mapM fun way => do return (way, ← fs.look dir way)) = .ok looked)
    {entry : Option Entry} :
    (way, entry) ∈ looked ↔ way ∈ ways ∧ fs.look dir way = .ok entry := by
  rw [mem_of_mapM_eq_ok h]
  constructor
  · rintro ⟨w, hw, hpair⟩
    obtain ⟨e, he, hpair⟩ := exists_of_bind_eq_ok hpair
    cases hpair
    exact ⟨hw, he⟩
  · rintro ⟨hw, he⟩
    exact ⟨way, hw, by rw [he]; rfl⟩

theorem exists_looked {ways : List (List Path.Part)} :
    (∃ looked, (ways.mapM fun way => do return (way, ← fs.look dir way)) = .ok looked) ↔
      ∀ way ∈ ways, ∃ entry, fs.look dir way = .ok entry := by
  rw [exists_mapM_eq_ok]
  refine forall₂_congr fun way _ => ⟨?_, ?_⟩
  · rintro ⟨pair, hpair⟩
    obtain ⟨entry, hentry, -⟩ := exists_of_bind_eq_ok hpair
    exact ⟨entry, hentry⟩
  · rintro ⟨entry, hentry⟩
    exact ⟨(way, entry), by rw [hentry]; rfl⟩

/-- The path of what stands below a directory holds the NUL of the directory's path. -/
theorem Start.hasNul_below (hs : Start fs dir here) (hfs : fs.WellFormed)
    (hnul : hasNul dir.toString = true) (hentry : fs.lookup (here ++ way) ≠ none) :
    hasNul (dir.down way).toString = true := by
  by_contra hfree
  have hproper : ∀ q ∈ [] ++ way, Path.Proper q := fun q hq =>
    (hfs.plain_of_mem hentry (List.mem_append_right here hq)).1.toProper
  have hstart := @Start.hasNul_down _ _ _ [] way hs hproper (by simpa using hfree)
  rw [Start.down_nil, hnul] at hstart
  cases hstart

/-- A search finds the files that stand below the directory under a name that matches. -/
theorem mem_glob (hs : Start fs (.ofString start) here) (hfs : fs.WellFormed)
    (hnames : ∀ q ∈ names, Path.Plain q)
    (hparts : readPattern pattern = .ok (.pattern items :: names.map .fixed))
    (hslash : pattern.toList.getLast? ≠ some '/') {found : List String}
    (h : fs.glob start pattern = .ok found) {text : String} :
    text ∈ found ↔ ∃ way, Finds fs (.ofString start) here items names way ∧
      text = String.ofList (Path.joinSlash way) := by
  rw [glob_eq hs hfs hparts hslash] at h
  split at h
  · next hnul =>
    cases h
    refine ⟨nofun, ?_⟩
    rintro ⟨way, ⟨hfree, ⟨content, hfile⟩, -⟩, -⟩
    have hstands : fs.lookup (here ++ way) ≠ none := by
      rw [hfile]
      exact nofun
    have hbelow := hs.hasNul_below hfs hnul hstands
    rw [hfree] at hbelow
    cases hbelow
  · obtain ⟨ways, hways, h⟩ := exists_of_bind_eq_ok h
    obtain ⟨looked, hlooked, h⟩ := exists_of_bind_eq_ok h
    cases h
    rw [mem_pathsOf]
    simp only [finds_iff hs hfs hnames hways (exists_looked.mp ⟨looked, hlooked⟩),
      mem_looked hlooked]
    constructor
    · rintro ⟨way, content, hlook, rfl⟩
      exact ⟨way, ⟨hlook.1, content, hlook.2⟩, rfl⟩
    · rintro ⟨way, ⟨hway, content, hlook⟩, rfl⟩
      exact ⟨way, content, ⟨hway, hlook⟩, rfl⟩

/-- What a search finds is strictly sorted. -/
theorem increasing_glob (hs : Start fs (.ofString start) here) (hfs : fs.WellFormed)
    (hparts : readPattern pattern = .ok parts) (hslash : pattern.toList.getLast? ≠ some '/')
    {found : List String} (h : fs.glob start pattern = .ok found) : found.Pairwise (· < ·) := by
  rw [glob_eq hs hfs hparts hslash] at h
  split at h
  · cases h
    exact .nil
  · obtain ⟨ways, -, h⟩ := exists_of_bind_eq_ok h
    obtain ⟨looked, -, h⟩ := exists_of_bind_eq_ok h
    cases h
    exact increasing_pathsOf looked

/-- A directory that is seen at a path. -/
theorem start_of_look (h : fs.look (.ofString start) [] = .ok (some .directory)) :
    ∃ here, Start fs (.ofString start) here := by
  obtain ⟨-, hstat⟩ := stat_of_look h
  rw [Start.down_nil] at hstat
  obtain ⟨here, hlocate, hl⟩ := stat_eq_ok hstat
  exact ⟨here, Path.proper_ofString start, hlocate, hl⟩

/-- A way whose path can be looked at. -/
def Fits (dir : Path.Tidy) (way : List Path.Part) : Prop :=
  hasNul (dir.down way).toString = true ∨ ¬maxPath < (dir.down way).toString.utf8ByteSize

theorem look_ok_iff (hs : Start fs dir here) (hfs : fs.WellFormed)
    (hentry : fs.lookup (here ++ way) ≠ none) :
    (∃ entry, fs.look dir way = .ok entry) ↔ Fits dir way := by
  rw [hs.look_eq hfs hentry]
  unfold Fits
  by_cases hnul : hasNul (dir.down way).toString = true
  · rw [if_pos hnul]
    exact ⟨fun _ => Or.inl hnul, fun _ => ⟨none, rfl⟩⟩
  · rw [if_neg hnul, or_iff_right hnul]
    by_cases hlong : maxPath < (dir.down way).toString.utf8ByteSize
    · rw [if_pos hlong]
      exact ⟨nofun, fun hshort => absurd hlong hshort⟩
    · rw [if_neg hlong]
      exact ⟨fun _ => hlong, fun _ => ⟨_, rfl⟩⟩

/-- A search for one name succeeds exactly if it can look at the directories and at the names that
match. -/
theorem exists_glob_iff (hs : Start fs (.ofString start) here) (hfs : fs.WellFormed)
    (hparts : readPattern pattern = .ok [.pattern items])
    (hslash : pattern.toList.getLast? ≠ some '/') :
    (∃ found, fs.glob start pattern = .ok found) ↔
      ∀ down ∈ fs.directoriesFrom here, Fits (.ofString start) down ∧
        ∀ name ∈ fs.namesAt items [] (here ++ down), Fits (.ofString start) (down ++ [name]) := by
  have hname : ∀ down name, name ∈ fs.namesAt items [] (here ++ down) →
      fs.lookup (here ++ (down ++ [name])) ≠ none := by
    intro down name hname
    rw [← List.append_assoc]
    exact lookup_name hname
  rw [glob_eq hs hfs hparts hslash]
  by_cases hnul : hasNul (Path.Tidy.ofString start).toString = true
  · rw [if_pos hnul]
    refine ⟨fun _ down hdown => ⟨?_, fun name hmem => ?_⟩, fun _ => ⟨[], rfl⟩⟩
    · exact Or.inl (hs.hasNul_below hfs hnul (lookup_down hs hdown))
    · exact Or.inl (hs.hasNul_below hfs hnul (hname down name hmem))
  · rw [if_neg hnul]
    constructor
    · rintro ⟨found, h⟩ down hdown
      obtain ⟨ways, hways, h⟩ := exists_of_bind_eq_ok h
      obtain ⟨looked, hlooked, -⟩ := exists_of_bind_eq_ok h
      have hlook := (exists_select_iff.mp ⟨ways, hways⟩ down hdown).1
      refine ⟨(look_ok_iff hs hfs (lookup_down hs hdown)).mp hlook, fun name hmem => ?_⟩
      have hway : down ++ [name] ∈ ways :=
        (mem_select_iff hways).mpr ⟨down, hdown, name, hmem, _, rfl, List.mem_cons_self⟩
      exact (look_ok_iff hs hfs (hname down name hmem)).mp
        (exists_looked.mp ⟨looked, hlooked⟩ _ hway)
    · intro hfits
      obtain ⟨ways, hways⟩ := exists_select_iff.mpr fun down hdown =>
        ⟨(look_ok_iff hs hfs (lookup_down hs hdown)).mpr (hfits down hdown).1,
          fun name _ => ⟨[down ++ [name]], by rw [select]; rfl⟩⟩
      have hall : ∀ way ∈ ways, ∃ entry, fs.look (.ofString start) way = .ok entry := by
        intro way hway
        obtain ⟨down, hdown, name, hmem, level, hlevel, hw⟩ := (mem_select_iff hways).mp hway
        rw [select] at hlevel
        cases hlevel
        rw [List.mem_singleton.mp hw]
        exact (look_ok_iff hs hfs (hname down name hmem)).mpr ((hfits down hdown).2 name hmem)
      obtain ⟨looked, hlooked⟩ := exists_looked.mpr hall
      rw [hways, ok_bind, hlooked]
      exact ⟨_, rfl⟩

end

/-! ## Names that end with a text -/

theorem readPart_fixed {q : Path.Part} (h : Wildcard.isPattern q = false) :
    readPart q = .ok (.fixed q) := by
  have hstar := Wildcard.star_notMem h
  unfold readPart
  rw [if_neg, if_neg, if_neg]
  · rw [h]
    exact Bool.false_ne_true
  · rw [hasDoubleStar_of_notMem hstar]
    exact Bool.false_ne_true
  · rintro rfl
    exact hstar List.mem_cons_self

theorem mapM_readPart_fixed {names : List Path.Part}
    (h : ∀ q ∈ names, Wildcard.isPattern q = false) :
    names.mapM readPart = .ok (names.map .fixed) := by
  induction names with
  | nil => rfl
  | cons q names ih =>
    obtain ⟨hq, hnames⟩ := List.forall_mem_cons.mp h
    rw [List.mapM_cons, readPart_fixed hq, ih hnames]
    rfl

/-- A star before a text that holds names reads as the names that end with its first part, and the
other parts below them. -/
theorem readPattern_ending {ext : String} (hplain : Wildcard.isPattern ext.toList = false)
    (htail : Path.tailNamed ext.toList = true) :
    ∃ first names, ext.toList = Path.joinSlash (first :: names) ∧
      Wildcard.isPattern first = false ∧ (∀ q ∈ names, Path.Plain q) ∧
      readPattern ("*" ++ ext) =
        .ok (.pattern (Wildcard.parse ('*' :: first)) :: names.map .fixed) ∧
      ("*" ++ ext).toList.getLast? ≠ some '/' := by
  obtain ⟨first, names, hsplit, hext, hfirst, hnames⟩ := Path.exists_ending htail
  have hstar : ("*" ++ ext).toList = '*' :: ext.toList := String.toList_append
  have hparts : Path.splitSlash ("*" ++ ext).toList = ('*' :: first) :: names := by
    rw [hstar]
    show splitAtChar '/' ('*' :: ext.toList) = _
    rw [splitAtChar, if_neg (by decide),
      show splitAtChar '/' ext.toList = first :: names from hsplit]
  have hname : Path.Plain ('*' :: first) :=
    ⟨⟨by simp [Path.isNamed, Path.dot], by simp [hfirst]⟩, by simp [Path.dotDot]⟩
  have hall : ∀ q ∈ ('*' :: first) :: names, Path.Plain q :=
    List.forall_mem_cons.mpr ⟨hname, hnames⟩
  have hpart : ∀ q ∈ first :: names, Wildcard.isPattern q = false := by
    intro q hq
    unfold Wildcard.isPattern at hplain ⊢
    rw [List.any_eq_false] at hplain ⊢
    exact fun c hc => hplain c (Path.mem_of_mem_splitSlash (hsplit ▸ hq) hc)
  obtain ⟨hpartFirst, hpartNames⟩ := List.forall_mem_cons.mp hpart
  have hread : readPart ('*' :: first) = .ok (.pattern (Wildcard.parse ('*' :: first))) := by
    have hstars := Wildcard.star_notMem hpartFirst
    unfold readPart
    rw [if_neg, if_neg, if_pos]
    · rfl
    · rw [hasDoubleStar_cons_star hstars]
      exact Bool.false_ne_true
    · intro hsame
      rw [(List.cons.inj hsame).2] at hstars
      exact hstars List.mem_cons_self
  refine ⟨first, names, hext, hpartFirst, hnames, ?_, ?_⟩
  · unfold readPattern Path.named
    rw [hparts, List.filter_eq_self.mpr fun q hq => (hall q hq).named, List.mapM_cons, hread,
      mapM_readPart_fixed hpartNames]
    rfl
  · rw [← Path.joinSlash_splitSlash ("*" ++ ext).toList, hparts]
    exact Path.getLast_joinSlash hall

/-- A star before a text without slashes is one part of a pattern. -/
theorem readPattern_name (hplain : Wildcard.isPattern ext.toList = false)
    (hslash : '/' ∉ ext.toList) :
    readPattern ("*" ++ ext) = .ok [.pattern (Wildcard.parse ('*' :: ext.toList))] ∧
      ("*" ++ ext).toList.getLast? ≠ some '/' := by
  have hsplit : Path.splitSlash ext.toList = [ext.toList] :=
    Path.splitSlash_joinSlash (List.cons_ne_nil _ _) (List.forall_mem_singleton.mpr hslash)
  have htail : Path.tailNamed ext.toList = true := by
    unfold Path.tailNamed
    rw [hsplit]
    rfl
  obtain ⟨first, names, hjoin, -, -, hparts, hlast⟩ := readPattern_ending hplain htail
  have hnone : names = [] := by
    cases names with
    | nil => rfl
    | cons name names =>
      refine absurd ?_ hslash
      rw [hjoin]
      exact List.mem_append_right first List.mem_cons_self
  subst hnone
  have hfirst : ext.toList = first := hjoin
  rw [hfirst]
  exact ⟨hparts, hlast⟩

end FileSystem

end DartModels
