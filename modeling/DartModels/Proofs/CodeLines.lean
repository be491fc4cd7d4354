import Mathlib.Data.List.Induction
import DartModels.Dart.Validation

/-!
# Code and comment lines

The check of a generated text takes comments out of the whole text, and a comment may be found some
blank lines above its own.  Line by line it is simpler: lines whose first two characters after blanks
are slashes are comments, and the braces of all other lines are counted.

    count b (withoutComments cs) = count b of the code lines of cs           (count_withoutComments)
    a class is declared ↔ a declaration follows the start of some line           (declaresClass_iff)
    balanced code lines, one of them a class → validate = .ok ()                  (validate_unlines)
-/

namespace DartModels

/-- A code point that is found lies in one of the ranges. -/
theorem CharRanges.exists_of_has {ranges : CharRanges} {n : Nat} (h : ranges.has n = true) :
    ∃ r ∈ ranges, r.1 ≤ n ∧ n ≤ r.2 := by
  induction ranges with
  | nil => cases h
  | cons r ranges ih =>
    rw [CharRanges.has] at h
    split at h
    · cases h
    · next hlow =>
      split at h
      · next hhigh => exact ⟨r, List.mem_cons_self, Nat.le_of_not_lt hlow, hhigh⟩
      · obtain ⟨r', hr', hin⟩ := ih h
        exact ⟨r', List.mem_cons_of_mem _ hr', hin⟩

/-- A word character is not blank. -/
theorem not_isBlank_of_isWordChar {c : Char} (h : isWordChar c = true) : isBlank c = false := by
  -- there are few blanks, and each of them is looked up
  have hpoints : ∀ r ∈ blankRanges, ∀ i ∈ List.range (r.2 + 1 - r.1),
      isWordChar (Char.ofNat (r.1 + i)) = false := by
    decide +kernel
  rw [Bool.eq_false_iff]
  intro hc
  obtain ⟨r, hr, hlow, hhigh⟩ := CharRanges.exists_of_has hc
  have hpoint := hpoints r hr (c.toNat - r.1) (List.mem_range.mpr (by omega))
  rw [Nat.add_sub_cancel' hlow, Char.ofNat_toNat, h] at hpoint
  cases hpoint

namespace Dart

variable {b : Char} {cs : List Char}

/-! ## Lines -/

/-- The lines of a text. -/
def lines (cs : List Char) : List (List Char) := splitAtChar '\n' cs

/-- Whether a line is a comment. -/
def isCommentLine (line : List Char) : Bool := (afterComment? line).isSome

/-- Lines without the comments among them, one after another. -/
def codeOf (ls : List (List Char)) : List Char := (ls.filter fun l => !isCommentLine l).flatten

theorem lines_newline (cs : List Char) : lines ('\n' :: cs) = [] :: lines cs := by
  simp [lines, splitAtChar]

theorem exists_lines (cs : List Char) : ∃ line rest, lines cs = line :: rest :=
  List.exists_cons_of_ne_nil (splitAtChar_ne_nil '\n' cs)

/-- A character lengthens the first line. -/
theorem lines_cons {c : Char} (hc : c ≠ '\n') {line : List Char} {rest : List (List Char)}
    (h : lines cs = line :: rest) : lines (c :: cs) = (c :: line) :: rest := by
  unfold lines at h ⊢
  rw [splitAtChar, if_neg hc, h]

theorem codeOf_nil_cons (ls : List (List Char)) : codeOf ([] :: ls) = codeOf ls := rfl

theorem codeOf_cons_comment {line : List Char} (h : isCommentLine line = true)
    (ls : List (List Char)) : codeOf (line :: ls) = codeOf ls := by
  rw [codeOf, List.filter_cons_of_neg (by simp [h]), codeOf]

theorem codeOf_cons_code {line : List Char} (h : isCommentLine line = false)
    (ls : List (List Char)) : codeOf (line :: ls) = line ++ codeOf ls := by
  rw [codeOf, List.filter_cons_of_pos (by simp [h]), List.flatten_cons, codeOf]

/-! ## Comments -/

theorem isCommentLine_blank {c : Char} (hc : isBlank c = true) (line : List Char) :
    isCommentLine (c :: line) = isCommentLine line := by
  rw [isCommentLine, isCommentLine, afterComment?, List.dropWhile_cons_of_pos hc, afterComment?]

/-- A text that starts with a comment line starts with a comment. -/
theorem isSome_afterComment {line : List Char} {rest : List (List Char)}
    (h : lines cs = line :: rest) (hline : isCommentLine line = true) :
    (afterComment? cs).isSome = true := by
  induction cs generalizing line rest with
  | nil =>
    cases h
    cases hline
  | cons c cs ih =>
    by_cases hend : c = '\n'
    · rw [hend, lines_newline] at h
      cases h
      cases hline
    · obtain ⟨line', rest', hlines⟩ := exists_lines cs
      rw [lines_cons hend hlines] at h
      cases h
      by_cases hc : isBlank c = true
      · rw [isCommentLine_blank hc] at hline
        rw [afterComment?, List.dropWhile_cons_of_pos hc]
        exact ih hlines hline
      · rw [isCommentLine, afterComment?, List.dropWhile_cons_of_neg hc] at hline
        rw [afterComment?, List.dropWhile_cons_of_neg hc]
        split at hline
        · next more heq =>
          cases heq
          -- the second slash stands in the text as well
          cases cs with
          | nil => cases hlines
          | cons d cs =>
            by_cases hd : d = '\n'
            · rw [hd, lines_newline] at hlines
              cases hlines
            · obtain ⟨line', rest', hmore⟩ := exists_lines cs
              rw [lines_cons hd hmore] at hlines
              cases hlines
              rfl
        · cases hline

/-- The rest of a line is no line of its own. -/
theorem tail_lines_dropWhile (cs : List Char) :
    (lines (cs.dropWhile (· != '\n'))).tail = (lines cs).tail := by
  induction cs with
  | nil => rfl
  | cons c cs ih =>
    by_cases hc : c = '\n'
    · rw [List.dropWhile_cons_of_neg (by simp [hc])]
    · obtain ⟨line, rest, h⟩ := exists_lines cs
      rw [List.dropWhile_cons_of_pos (by simpa using hc), ih, lines_cons hc h, h]
      rfl

/-- A comment takes at least its slashes, and ends with its line. -/
theorem afterComment_eq_some {after : List Char} (h : afterComment? cs = some after) :
    after.length < cs.length ∧ (lines after).headD [] = [] := by
  have hhead : ∀ r : List Char, (lines (r.dropWhile (· != '\n'))).headD [] = [] := by
    intro r
    induction r with
    | nil => rfl
    | cons c r ih =>
      by_cases hc : c = '\n'
      · rw [List.dropWhile_cons_of_neg (by simp [hc]), hc, lines_newline]
        rfl
      · rw [List.dropWhile_cons_of_pos (by simpa using hc)]
        exact ih
  unfold afterComment? at h
  split at h
  · next r heq =>
    cases h
    have hblank : (cs.dropWhile isBlank).length ≤ cs.length := (List.dropWhile_sublist _).length_le
    have hrest : (r.dropWhile (· != '\n')).length ≤ r.length := (List.dropWhile_sublist _).length_le
    rw [heq, List.length_cons, List.length_cons] at hblank
    exact ⟨by omega, hhead r⟩
  · cases h

/-- A comment takes its line out of the code, and blank lines before it. -/
theorem count_codeOf_comment (hb : isBlank b = false) {after : List Char}
    (h : afterComment? cs = some after) :
    (codeOf (lines cs)).count b = (codeOf (lines after).tail).count b := by
  induction cs with
  | nil => cases h
  | cons c cs ih =>
    by_cases hc : isBlank c = true
    · have h : afterComment? cs = some after := by
        rwa [afterComment?, List.dropWhile_cons_of_pos hc] at h
      rw [← ih h]
      by_cases hline : c = '\n'
      · rw [hline, lines_newline, codeOf_nil_cons]
      · obtain ⟨line, rest, hlines⟩ := exists_lines cs
        rw [lines_cons hline hlines, hlines]
        cases hcomment : isCommentLine line with
        | true =>
          rw [codeOf_cons_comment hcomment,
            codeOf_cons_comment ((isCommentLine_blank hc line).trans hcomment)]
        | false =>
          have hne : c ≠ b := by
            rintro rfl
            rw [hc] at hb
            cases hb
          rw [codeOf_cons_code hcomment,
            codeOf_cons_code ((isCommentLine_blank hc line).trans hcomment), List.cons_append,
            List.count_cons_of_ne hne]
    · unfold afterComment? at h
      rw [List.dropWhile_cons_of_neg hc] at h
      split at h
      · next r heq =>
        cases heq
        cases h
        obtain ⟨line, rest, hlines⟩ := exists_lines r
        have hfirst : lines ('/' :: '/' :: r) = ('/' :: '/' :: line) :: rest :=
          lines_cons (by decide) (lines_cons (by decide) hlines)
        rw [tail_lines_dropWhile, hlines, hfirst, codeOf_cons_comment rfl]
        rfl
      · cases h

/-- A line with no comment at its start is code. -/
theorem isCommentLine_of_afterComment_eq_none {line : List Char} {rest : List (List Char)}
    (hlines : lines cs = line :: rest) (h : afterComment? cs = none) :
    isCommentLine line = false := by
  rw [Bool.eq_false_iff]
  intro hline
  have hsome := isSome_afterComment hlines hline
  rw [h] at hsome
  cases hsome

/-- A character that is kept is counted in its line: a newline ends it, any other goes on in it. -/
theorem count_kept (hb : isBlank b = false) (c : Char) {atStart : List Char} {inLine : List Char}
    (hstart : atStart.count b = (codeOf (lines cs)).count b)
    (hinside : inLine.count b =
      ((lines cs).headD []).count b + (codeOf (lines cs).tail).count b) :
    (c :: if c == '\n' then atStart else inLine).count b =
      ((lines (c :: cs)).headD []).count b + (codeOf (lines (c :: cs)).tail).count b := by
  by_cases hc : c = '\n'
  · have hne : '\n' ≠ b := by
      rintro rfl
      cases hb
    rw [hc, if_pos (beq_self_eq_true _), List.count_cons_of_ne hne, hstart, lines_newline]
    exact (Nat.zero_add _).symm
  · obtain ⟨line, rest, hlines⟩ := exists_lines cs
    rw [if_neg (by simpa using hc), List.count_cons, hinside, lines_cons hc hlines, hlines]
    show line.count b + _ + _ = (c :: line).count b + _
    rw [List.count_cons, Nat.add_right_comm]
    rfl

theorem count_withoutCommentsFrom (hb : isBlank b = false) (fuel : Nat) {cs : List Char}
    (hfuel : cs.length ≤ fuel) :
    (withoutCommentsFrom fuel true cs).count b = (codeOf (lines cs)).count b ∧
      (withoutCommentsFrom fuel false cs).count b =
        ((lines cs).headD []).count b + (codeOf (lines cs).tail).count b := by
  induction fuel generalizing cs with
  | zero =>
    obtain rfl := List.length_eq_zero_iff.mp (Nat.le_zero.mp hfuel)
    exact ⟨rfl, rfl⟩
  | succ fuel ih =>
    cases cs with
    | nil => exact ⟨rfl, rfl⟩
    | cons c cs =>
      obtain ⟨hstart, hinside⟩ := ih (Nat.le_of_succ_le_succ hfuel)
      have hkept : (c :: withoutCommentsFrom fuel (c == '\n') cs).count b =
          ((lines (c :: cs)).headD []).count b + (codeOf (lines (c :: cs)).tail).count b := by
        rw [← count_kept hb c hstart hinside]
        cases c == '\n' <;> rfl
      refine ⟨?_, ?_⟩
      · rw [withoutCommentsFrom]
        cases hcomment : afterComment? (c :: cs) with
        | some after =>
          obtain ⟨hshorter, hhead⟩ := afterComment_eq_some hcomment
          rw [List.length_cons] at hshorter hfuel
          show (withoutCommentsFrom fuel false after).count b = _
          rw [(ih (by omega)).2, hhead, count_codeOf_comment hb hcomment]
          exact Nat.zero_add _
        | none =>
          show (c :: withoutCommentsFrom fuel (c == '\n') cs).count b = _
          obtain ⟨line, rest, hlines⟩ := exists_lines (c :: cs)
          rw [hkept, hlines, codeOf_cons_code (isCommentLine_of_afterComment_eq_none hlines hcomment),
            List.count_append]
          rfl
      · rw [withoutCommentsFrom]
        exact hkept

/-- What is not blank is counted line by line. -/
theorem count_withoutComments (hb : isBlank b = false) (cs : List Char) :
    (withoutComments cs).count b = (codeOf (lines cs)).count b :=
  (count_withoutCommentsFrom hb cs.length (Nat.le_refl _)).1

/-! ## Declarations -/

/-- Whether a line starts after some text, which may be empty. -/
def startsLine (lineStart : Bool) (before : List Char) : Bool :=
  before.getLast?.elim lineStart (· == '\n')

theorem startsLine_cons (lineStart : Bool) (c : Char) (before : List Char) :
    startsLine lineStart (c :: before) = startsLine (c == '\n') before := by
  unfold startsLine
  rw [List.getLast?_cons]
  cases before.getLast? <;> rfl

theorem declaresClassFrom_iff (lineStart : Bool) (cs : List Char) :
    declaresClassFrom lineStart cs = true ↔ ∃ before rest, cs = before ++ rest ∧
      startsLine lineStart before = true ∧ startsDeclaration rest = true := by
  induction cs generalizing lineStart with
  | nil =>
    rw [declaresClassFrom, Bool.or_false, Bool.and_eq_true]
    constructor
    · rintro ⟨hstart, hrest⟩
      exact ⟨[], [], rfl, hstart, hrest⟩
    · rintro ⟨before, rest, hsplit, hstart, hrest⟩
      obtain ⟨rfl, rfl⟩ := List.append_eq_nil_iff.mp hsplit.symm
      exact ⟨hstart, hrest⟩
  | cons c cs ih =>
    rw [declaresClassFrom, Bool.or_eq_true, Bool.and_eq_true, ih]
    constructor
    · rintro (⟨hstart, hrest⟩ | ⟨before, rest, rfl, hstart, hrest⟩)
      · exact ⟨[], c :: cs, rfl, hstart, hrest⟩
      · exact ⟨c :: before, rest, rfl, (startsLine_cons _ c before).trans hstart, hrest⟩
    · rintro ⟨before, rest, hsplit, hstart, hrest⟩
      cases before with
      | nil =>
        obtain rfl : c :: cs = rest := hsplit
        exact Or.inl ⟨hstart, hrest⟩
      | cons d before =>
        obtain ⟨rfl, rfl⟩ := List.cons.inj hsplit
        exact Or.inr ⟨before, rest, rfl, (startsLine_cons _ c before).symm.trans hstart, hrest⟩

/-- A text declares a class if a declaration follows the start of one of its lines. -/
theorem declaresClass_iff (cs : List Char) :
    declaresClass cs = true ↔ ∃ before rest, cs = before ++ rest ∧
      startsLine true before = true ∧ startsDeclaration rest = true :=
  declaresClassFrom_iff true cs

/-- A class whose name starts with a word character. -/
theorem startsDeclaration_class {c : Char} (hc : isWordChar c = true) (rest : List Char) :
    startsDeclaration ("class ".toList ++ c :: rest) = true := by
  have hblank := not_isBlank_of_isWordChar hc
  have hbody : ("class ".toList ++ c :: rest).dropWhile isBlank = "class ".toList ++ c :: rest := rfl
  have hword : afterWord? "class" ("class ".toList ++ c :: rest) = some (' ' :: c :: rest) := rfl
  have hname : afterBlanks? (' ' :: c :: rest) = some (c :: rest) := by
    unfold afterBlanks?
    rw [List.dropWhile_cons_of_pos (by decide), List.dropWhile_cons_of_neg (by simp [hblank])]
    exact if_pos (Nat.lt_succ_self _)
  have hstarts : startsClass ("class ".toList ++ c :: rest) = true := by
    unfold startsClass
    rw [hword, Option.bind_some, hname]
    exact hc
  unfold startsDeclaration
  dsimp only
  rw [hbody, hstarts, Bool.true_or]

/-! ## Texts of whole lines -/

/-- Lines as a text. -/
def unlines (ls : List String) : String := String.join (ls.map fun l => l ++ "\n")

theorem unlines_append (ls ms : List String) : unlines (ls ++ ms) = unlines ls ++ unlines ms := by
  unfold unlines
  rw [List.map_append, String.join_append]

theorem lines_append_newline (line cs : List Char) (h : '\n' ∉ line) :
    lines (line ++ '\n' :: cs) = line :: lines cs := by
  induction line with
  | nil => exact lines_newline cs
  | cons c line ih =>
    rw [List.mem_cons, not_or] at h
    exact lines_cons (Ne.symm h.1) (ih h.2)

theorem lines_unlines {ls : List String} (h : ∀ l ∈ ls, '\n' ∉ l.toList) :
    lines (unlines ls).toList = ls.map String.toList ++ [[]] := by
  induction ls with
  | nil => rfl
  | cons l ls ih =>
    obtain ⟨hl, hrest⟩ := List.forall_mem_cons.mp h
    have htext : (unlines (l :: ls)).toList = l.toList ++ '\n' :: (unlines ls).toList := by
      unfold unlines
      rw [List.map_cons, String.join_cons]
      simp
    rw [htext, lines_append_newline _ _ hl, ih hrest]
    rfl

/-- Whole lines with `opened` and `closed` braces, none of them in comments. -/
structure Tallied (ls : List String) (opened closed : Nat) : Prop where
  whole : ∀ l ∈ ls, '\n' ∉ l.toList
  opened : (codeOf (ls.map String.toList)).count '\x7b' = opened
  closed : (codeOf (ls.map String.toList)).count '\x7d' = closed

namespace Tallied

variable {ls ms : List String} {l : String} {m n m' n' : Nat}

theorem nil : Tallied [] 0 0 := ⟨List.forall_mem_nil _, rfl, rfl⟩

theorem append (h : Tallied ls m n) (h' : Tallied ms m' n') :
    Tallied (ls ++ ms) (m + m') (n + n') := by
  have hcode : codeOf ((ls ++ ms).map String.toList) =
      codeOf (ls.map String.toList) ++ codeOf (ms.map String.toList) := by
    unfold codeOf
    rw [List.map_append, List.filter_append, List.flatten_append]
  refine ⟨List.forall_mem_append.mpr ⟨h.whole, h'.whole⟩, ?_, ?_⟩
  · rw [hcode, List.count_append, h.opened, h'.opened]
  · rw [hcode, List.count_append, h.closed, h'.closed]

/-- A line that is no comment. -/
theorem code (hwhole : '\n' ∉ l.toList) (hcode : isCommentLine l.toList = false) :
    Tallied [l] (l.toList.count '\x7b') (l.toList.count '\x7d') := by
  have hline : codeOf ([l].map String.toList) = l.toList := by
    rw [List.map_singleton, codeOf_cons_code hcode]
    exact List.append_nil _
  exact ⟨List.forall_mem_singleton.mpr hwhole, by rw [hline], by rw [hline]⟩

end Tallied

theorem startsLine_unlines (ls : List String) : startsLine true (unlines ls).toList = true := by
  cases ls using List.reverseRecOn with
  | nil => rfl
  | append_singleton ls l =>
    have hlast : (unlines (ls ++ [l])).toList = (unlines ls ++ l).toList ++ ['\n'] := by
      rw [unlines_append, unlines, unlines]
      simp
    unfold startsLine
    rw [hlast, List.getLast?_append]
    rfl

theorem validate_of_balanced {content : String} (hclass : declaresClass content.toList = true)
    (hbraces : (codeOf (lines content.toList)).count '\x7b' =
      (codeOf (lines content.toList)).count '\x7d') : validate content = .ok () := by
  unfold validate
  dsimp only
  rw [hclass, Bool.not_true, if_neg Bool.false_ne_true]
  exact if_pos ((count_withoutComments (by decide) _).trans
    (hbraces.trans (count_withoutComments (by decide) _).symm))

/-- Lines whose braces match in number and one of which starts a class. -/
theorem validate_unlines {before after : List String} {l : String} {n : Nat} {c : Char}
    {rest : List Char} (htally : Tallied (before ++ l :: after) n n)
    (hl : l.toList = "class ".toList ++ c :: rest) (hc : isWordChar c = true) :
    validate (unlines (before ++ l :: after)) = .ok () := by
  have hcode : codeOf (lines (unlines (before ++ l :: after)).toList) =
      codeOf ((before ++ l :: after).map String.toList) := by
    rw [lines_unlines htally.whole]
    unfold codeOf
    rw [List.filter_append, List.flatten_append]
    exact List.append_nil _
  refine validate_of_balanced ((declaresClass_iff _).mpr
    ⟨(unlines before).toList, (unlines (l :: after)).toList, ?_, startsLine_unlines before, ?_⟩) ?_
  · rw [unlines_append, String.toList_append]
  · have hstart : (unlines (l :: after)).toList =
        "class ".toList ++ c :: (rest ++ '\n' :: (unlines after).toList) := by
      unfold unlines
      rw [List.map_cons, String.join_cons, String.toList_append, String.toList_append, hl]
      simp
    rw [hstart]
    exact startsDeclaration_class hc _
  · rw [hcode, htally.opened, htally.closed]

end Dart

end DartModels
