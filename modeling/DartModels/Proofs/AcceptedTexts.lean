import Mathlib.Data.List.Basic
import Mathlib.Data.List.TakeWhile
import DartModels.Proofs.CodeLines

/-!
# Texts that pass the check

The check of a generated text looks for a class declaration from the start of each line, and takes
comments out of the text as a whole before it counts braces.  Said without either search, a text
passes exactly if

* from the start of some line there are blanks, line ends or not, then `class`, or `abstract`,
  blanks and `class`, and then blanks and a word character;
* as many braces open as close in the lines whose first characters after blanks are not two slashes.

    startsDeclaration cs = true ↔ HasDeclaration cs                         (startsDeclaration_iff)
    count b (withoutComments cs) = countInCode b cs                       (count_withoutComments_eq)
    validate content = .ok () ↔ a class is declared and the braces match             (validate_iff)
-/

namespace DartModels

namespace Dart

variable {cs rest : List Char}

/-! ## What starts a declaration -/

/-- A text of blanks alone. -/
def Blanks (cs : List Char) : Prop := ∀ c ∈ cs, isBlank c = true

/-- `class`, blanks and a word character at the start of a text. -/
def HasClass (cs : List Char) : Prop :=
  ∃ gap c rest, gap ≠ [] ∧ Blanks gap ∧ isWordChar c = true ∧
    cs = "class".toList ++ (gap ++ c :: rest)

/-- A class at the start of a text after blanks, or after blanks, `abstract` and blanks. -/
def HasDeclaration (cs : List Char) : Prop :=
  ∃ before body, Blanks before ∧ cs = before ++ body ∧
    (HasClass body ∨ ∃ gap rest, gap ≠ [] ∧ Blanks gap ∧ body = "abstract".toList ++ (gap ++ rest) ∧
      HasClass rest)

/-- A declaration from the start of a line. -/
def DeclaresClass (cs : List Char) : Prop :=
  ∃ before rest, cs = before ++ rest ∧ (before = [] ∨ ∃ above, before = above ++ ['\n']) ∧
    HasDeclaration rest

/-! ## The search for a declaration -/

theorem dropWhile_blanks {gap : List Char} (hgap : Blanks gap) (cs : List Char) :
    (gap ++ cs).dropWhile isBlank = cs.dropWhile isBlank :=
  List.dropWhile_append_of_pos hgap

theorem afterWord?_eq_some_iff {word : String} :
    afterWord? word cs = some rest ↔ cs = word.toList ++ rest := by
  rw [afterWord?, Option.ite_none_right_eq_some, List.isPrefixOf_iff_prefix]
  constructor
  · rintro ⟨⟨after, rfl⟩, h⟩
    rw [← String.length_toList, List.drop_left] at h
    rw [Option.some.inj h]
  · rintro rfl
    refine ⟨List.prefix_append _ _, ?_⟩
    rw [← String.length_toList, List.drop_left]

theorem exists_of_afterBlanks? (h : afterBlanks? cs = some rest) :
    ∃ gap, gap ≠ [] ∧ Blanks gap ∧ cs = gap ++ rest := by
  rw [afterBlanks?, Option.ite_none_right_eq_some] at h
  obtain ⟨hshorter, h⟩ := h
  have hsplit : cs = cs.takeWhile isBlank ++ rest := by
    rw [← Option.some.inj h, List.takeWhile_append_dropWhile]
  refine ⟨cs.takeWhile isBlank, ?_, fun c hc => List.mem_takeWhile_imp hc, hsplit⟩
  intro hnone
  rw [hnone, List.nil_append] at hsplit
  rw [Option.some.inj h, ← hsplit] at hshorter
  exact Nat.lt_irrefl _ hshorter

theorem afterBlanks?_append {gap : List Char} (hne : gap ≠ []) (hgap : Blanks gap) {c : Char}
    (hc : isBlank c = false) (cs : List Char) : afterBlanks? (gap ++ c :: cs) = some (c :: cs) := by
  have hlength := List.length_pos_iff.mpr hne
  rw [afterBlanks?, dropWhile_blanks hgap, List.dropWhile_cons_of_neg (by simp [hc])]
  refine if_pos ?_
  rw [List.length_append]
  omega

theorem startsClass_iff (cs : List Char) : startsClass cs = true ↔ HasClass cs := by
  constructor
  · intro h
    unfold startsClass at h
    split at h
    · next c rest heq =>
      obtain ⟨after, hword, hblanks⟩ := Option.bind_eq_some_iff.mp heq
      obtain ⟨gap, hne, hgap, rfl⟩ := exists_of_afterBlanks? hblanks
      exact ⟨gap, c, rest, hne, hgap, h, afterWord?_eq_some_iff.mp hword⟩
    · cases h
  · rintro ⟨gap, c, rest, hne, hgap, hc, rfl⟩
    rw [startsClass, afterWord?_eq_some_iff.mpr rfl, Option.bind_some,
      afterBlanks?_append hne hgap (not_isBlank_of_isWordChar hc)]
    exact hc

/-- A class starts with a letter, so that blanks before it end where it starts. -/
theorem HasClass.exists_cons (h : HasClass cs) : ∃ rest, cs = 'c' :: rest := by
  obtain ⟨gap, c, rest, -, -, -, rfl⟩ := h
  exact ⟨_, rfl⟩

theorem startsDeclaration_iff (cs : List Char) :
    startsDeclaration cs = true ↔ HasDeclaration cs := by
  unfold startsDeclaration
  dsimp only
  rw [Bool.or_eq_true, startsClass_iff]
  constructor
  · intro h
    refine ⟨cs.takeWhile isBlank, cs.dropWhile isBlank, fun c hc => List.mem_takeWhile_imp hc,
      List.takeWhile_append_dropWhile.symm, h.imp_right fun h => ?_⟩
    split at h
    · next rest heq =>
      obtain ⟨after, hword, hblanks⟩ := Option.bind_eq_some_iff.mp heq
      obtain ⟨gap, hne, hgap, rfl⟩ := exists_of_afterBlanks? hblanks
      exact ⟨gap, rest, hne, hgap, afterWord?_eq_some_iff.mp hword, (startsClass_iff rest).mp h⟩
    · cases h
  · rintro ⟨before, body, hbefore, rfl, h⟩
    rw [dropWhile_blanks hbefore]
    rcases h with h | ⟨gap, rest, hne, hgap, rfl, h⟩
    · obtain ⟨rest, rfl⟩ := h.exists_cons
      exact Or.inl h
    · right
      obtain ⟨after, rfl⟩ := h.exists_cons
      have hbody : ("abstract".toList ++ (gap ++ 'c' :: after)).dropWhile isBlank =
          "abstract".toList ++ (gap ++ 'c' :: after) := rfl
      rw [hbody, afterWord?_eq_some_iff.mpr rfl, Option.bind_some,
        afterBlanks?_append hne hgap (by decide)]
      exact (startsClass_iff _).mpr h

theorem startsLine_iff (before : List Char) :
    startsLine true before = true ↔ before = [] ∨ ∃ above, before = above ++ ['\n'] := by
  rcases before.eq_nil_or_concat' with rfl | ⟨above, c, rfl⟩
  · exact iff_of_true rfl (Or.inl rfl)
  · rw [startsLine, List.getLast?_concat]
    simp

theorem declaresClass_iff_declares (cs : List Char) :
    declaresClass cs = true ↔ DeclaresClass cs := by
  rw [declaresClass_iff]
  simp only [startsLine_iff, startsDeclaration_iff]
  rfl

/-! ## Braces in lines of code -/

/-- How often a character stands in the lines whose first characters after blanks are not two
slashes. -/
def countInCode (b : Char) (cs : List Char) : Nat :=
  let code := (lines cs).filter fun l => !"//".toList.isPrefixOf (l.dropWhile isBlank)
  code.flatten.count b

theorem isCommentLine_eq (line : List Char) :
    isCommentLine line = "//".toList.isPrefixOf (line.dropWhile isBlank) := by
  unfold isCommentLine afterComment?
  split
  · next rest heq => rw [heq]; rfl
  · next hother =>
    symm
    rw [Option.isSome_none, Bool.eq_false_iff]
    intro hprefix
    obtain ⟨rest, hsplit⟩ := List.isPrefixOf_iff_prefix.mp hprefix
    exact hother rest hsplit.symm

theorem count_withoutComments_eq {b : Char} (hb : isBlank b = false) (cs : List Char) :
    (withoutComments cs).count b = countInCode b cs := by
  rw [count_withoutComments hb, codeOf, countInCode]
  simp only [isCommentLine_eq]

/-! ## The check -/

/-- A text passes the check exactly if it declares a class and the braces in its lines of code match
in number; a class that is missing is reported first. -/
theorem validate_iff (content : String) :
    (validate content = .ok () ↔ DeclaresClass content.toList ∧
        countInCode '\x7b' content.toList = countInCode '\x7d' content.toList) ∧
      (validate content = .error .noClassDeclaration ↔ ¬ DeclaresClass content.toList) ∧
      (validate content = .error (.unbalancedBraces (countInCode '\x7b' content.toList)
          (countInCode '\x7d' content.toList)) ↔ DeclaresClass content.toList ∧
        countInCode '\x7b' content.toList ≠ countInCode '\x7d' content.toList) := by
  unfold validate
  dsimp only
  rw [← declaresClass_iff_declares, count_withoutComments_eq (by decide),
    count_withoutComments_eq (by decide)]
  cases declaresClass content.toList with
  | false => simp
  | true =>
    by_cases hbraces : countInCode '\x7b' content.toList = countInCode '\x7d' content.toList
    · simp [hbraces]
    · simp [hbraces]

end Dart

end DartModels
