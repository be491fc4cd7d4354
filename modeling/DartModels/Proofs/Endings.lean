import DartModels.Text.Wildcard
import DartModels.Proofs.RelativePath
import Mathlib.Data.List.Induction

/-!
# Paths that end with a text

A text whose components are names can be put at the end of a normalised path, and the path stays
normalised.  The components of the path then end with the text as the path does.

    tailNamed e, isEnding e: the components of e are names      (exists_ending, exists_isEnding)
    a path and a text after it                                            (exists_rooted_append)
    a pattern of a star and a text matches the names that end with it    (matchItems_ending_iff)
-/

namespace DartModels

namespace Path

/-! ## Joining -/

theorem joinSlash_splitSlash (p : List Char) : joinSlash (splitSlash p) = p := by
  unfold splitSlash
  induction p with
  | nil => rfl
  | cons c p ih =>
    rw [splitAtChar]
    obtain ⟨q, qs, hsplit⟩ := List.exists_cons_of_ne_nil (splitAtChar_ne_nil '/' p)
    rw [hsplit] at ih ⊢
    split
    · next hc =>
      rw [hc]
      exact congrArg (List.cons '/') ih
    · cases qs with
      | nil => exact congrArg (List.cons c) ih
      | cons r rs => exact congrArg (List.cons c) ih

/-- What is written after a relative path is written after the joined path. -/
theorem join_append (base : String) {q : String} (hne : q.toList ≠ [])
    (hrel : isRooted q.toList = false) (e : String) : join base (q ++ e) = join base q ++ e := by
  have hrel' : isRooted (q ++ e).toList = false := by
    obtain ⟨c, cs, hq⟩ := List.exists_cons_of_ne_nil hne
    rw [String.toList_append, hq]
    rwa [hq] at hrel
  rw [← String.toList_inj, String.toList_append]
  unfold join joinChars
  rw [String.toList_ofList, String.toList_ofList, hrel, hrel', if_neg Bool.false_ne_true,
    if_neg Bool.false_ne_true, String.toList_append]
  split
  · exact (List.append_assoc _ _ _).symm
  · exact (List.append_assoc _ ('/' :: q.toList) _).symm

theorem joinSlash_append {ps qs : List Part} (hp : ps ≠ []) (hq : qs ≠ []) :
    joinSlash (ps ++ qs) = joinSlash ps ++ '/' :: joinSlash qs := by
  obtain ⟨q, qs, rfl⟩ := List.exists_cons_of_ne_nil hq
  induction ps with
  | nil => exact absurd rfl hp
  | cons p ps ih =>
    cases ps with
    | nil => rfl
    | cons p' ps =>
      show p ++ '/' :: joinSlash (p' :: ps ++ q :: qs) = p ++ '/' :: joinSlash (p' :: ps) ++ _
      rw [ih (List.cons_ne_nil p' ps), List.append_assoc, List.cons_append]

/-- What is written after joined components lengthens the last one. -/
theorem joinSlash_append_text (init rest : List Part) (q first : Part) :
    joinSlash (init ++ [q]) ++ joinSlash (first :: rest) =
      joinSlash (init ++ (q ++ first) :: rest) := by
  have hlast (q : Part) : joinSlash (init ++ [q]) =
      (if init = [] then [] else joinSlash init ++ ['/']) ++ q := by
    by_cases hinit : init = []
    · rw [if_pos hinit, hinit]
      rfl
    · rw [if_neg hinit, joinSlash_concat hinit, List.append_assoc]
      rfl
  cases rest with
  | nil =>
    show joinSlash (init ++ [q]) ++ first = _
    rw [hlast, hlast, List.append_assoc]
  | cons r rest =>
    have hsplit : init ++ (q ++ first) :: r :: rest = (init ++ [q ++ first]) ++ r :: rest := by
      rw [List.append_assoc]
      rfl
    rw [hsplit, joinSlash_append (by simp) (List.cons_ne_nil r rest), hlast, hlast]
    show _ ++ (first ++ '/' :: joinSlash (r :: rest)) = _
    simp only [List.append_assoc]

/-- Whether the components of a text after the first one are names. -/
def tailNamed (e : List Char) : Bool :=
  (splitSlash e).tail.all fun q => isNamed q && q != dotDot

variable {e : List Char} {root : Nat} {parts : List Part}

theorem exists_ending (h : tailNamed e = true) :
    ∃ first rest, splitSlash e = first :: rest ∧ e = joinSlash (first :: rest) ∧ '/' ∉ first ∧
      ∀ q ∈ rest, Plain q := by
  obtain ⟨first, rest, hsplit⟩ := List.exists_cons_of_ne_nil (splitAtChar_ne_nil '/' e)
  have hsplit : splitSlash e = first :: rest := hsplit
  have hslash : ∀ q ∈ first :: rest, '/' ∉ q := fun q hq => notMem_of_mem_splitSlash (hsplit ▸ hq)
  refine ⟨first, rest, hsplit, ?_, hslash first List.mem_cons_self, fun q hq => ?_⟩
  · rw [← hsplit, joinSlash_splitSlash]
  · unfold tailNamed at h
    rw [hsplit, List.tail_cons, List.all_eq_true] at h
    have hq' := h q hq
    rw [Bool.and_eq_true, bne_iff_ne] at hq'
    exact ⟨⟨hq'.1, hslash q (List.mem_cons_of_mem _ hq)⟩, hq'.2⟩

/-- A text that is put at the end of a name. -/
theorem plain_append {q first : Part} (hq : Plain q) (hfirst : '/' ∉ first) :
    Plain (q ++ first) := by
  have hne := hq.ne_nil
  refine ⟨⟨?_, ?_⟩, ?_⟩
  · have hdot : q ++ first ≠ dot := by
      intro h
      rcases List.append_eq_singleton_iff.mp h with ⟨rfl, -⟩ | ⟨rfl, -⟩
      · exact hne rfl
      · exact absurd hq.named (by decide)
    have hempty : q ++ first ≠ [] := List.append_ne_nil_of_left_ne_nil hne first
    unfold isNamed
    rw [Bool.and_eq_true, Bool.not_eq_true', List.isEmpty_eq_false_iff, bne_iff_ne]
    exact ⟨hempty, hdot⟩
  · rw [List.mem_append]
    rintro (h | h)
    · exact hq.noSlash h
    · exact hfirst h
  · intro h
    cases q with
    | nil => exact hne rfl
    | cons c q =>
      obtain ⟨rfl, htail⟩ := List.cons.inj h
      rcases List.append_eq_singleton_iff.mp htail with ⟨rfl, -⟩ | ⟨rfl, -⟩
      · exact absurd hq.named (by decide)
      · exact hq.ne_dotDot rfl

end Path

/-! ## Patterns -/

namespace Wildcard

theorem star_notMem {cs : List Char} (h : isPattern cs = false) : '*' ∉ cs := by
  intro hmem
  unfold isPattern at h
  rw [List.any_eq_false] at h
  exact h '*' hmem rfl

theorem parseFrom_plain {cs : List Char} (h : isPattern cs = false) :
    parseFrom cs.length cs = cs.map .char := by
  induction cs with
  | nil => rfl
  | cons c cs ih =>
    unfold isPattern at h ih
    rw [List.any_cons, Bool.or_eq_false_iff] at h
    have hstar : c ≠ '*' := by
      rintro rfl
      cases h.1
    have hany : c ≠ '?' := by
      rintro rfl
      cases h.1
    have hset : c ≠ '[' := by
      rintro rfl
      cases h.1
    rw [List.length_cons, parseFrom, ih h.2, List.map_cons]
    all_goals assumption

theorem eq_of_matchItems_char {cs name : List Char} (h : matchItems (cs.map .char) name = true) :
    name = cs := by
  induction cs generalizing name with
  | nil =>
    cases name with
    | nil => rfl
    | cons d name => simp [matchItems] at h
  | cons c cs ih =>
    cases name with
    | nil => simp [matchItems] at h
    | cons d name =>
      simp only [List.map_cons, matchItems, Bool.and_eq_true, beq_iff_eq] at h
      rw [h.1, ih h.2]

theorem matchItems_star (name : List Char) : matchItems [.star] name = true := by
  induction name with
  | nil => simp [matchItems]
  | cons c name ih => simp [matchItems, ih]

theorem exists_suffix_of_star {items : List Item} {name : List Char}
    (h : matchItems (.star :: items) name = true) :
    ∃ t, t <:+ name ∧ matchItems items t = true := by
  induction name with
  | nil =>
    rw [matchItems] at h
    exact ⟨[], List.suffix_refl _, h⟩
  | cons c name ih =>
    rw [matchItems, Bool.or_eq_true] at h
    rcases h with h | h
    · exact ⟨_, List.suffix_refl _, h⟩
    · obtain ⟨t, ht, h⟩ := ih h
      exact ⟨t, ht.trans (List.suffix_cons c name), h⟩

theorem matchItems_chars (cs : List Char) : matchItems (cs.map .char) cs = true := by
  induction cs with
  | nil => simp [matchItems]
  | cons c cs ih => simp [matchItems, ih]

/-- A star matches all before what the items after it match. -/
theorem matchItems_star_append {items : List Item} {t : List Char} (h : matchItems items t = true)
    (above : List Char) : matchItems (.star :: items) (above ++ t) = true := by
  induction above with
  | nil =>
    cases t with
    | nil => rwa [List.nil_append, matchItems]
    | cons c t => rw [List.nil_append, matchItems, h, Bool.true_or]
  | cons c above ih => rw [List.cons_append, matchItems, ih, Bool.or_true]

theorem parse_ending {cs : List Char} (hcs : isPattern cs = false) :
    parse ('*' :: cs) = .star :: cs.map .char := by
  unfold parse
  rw [List.length_cons, parseFrom, parseFrom_plain hcs]

/-- What a star and a text match ends with the text. -/
theorem suffix_of_matchItems {cs name : List Char} (hcs : isPattern cs = false)
    (h : matchItems (parse ('*' :: cs)) name = true) : cs <:+ name := by
  rw [parse_ending hcs] at h
  obtain ⟨t, ht, h⟩ := exists_suffix_of_star h
  rwa [eq_of_matchItems_char h] at ht

/-- A star and a text match exactly the names that end with the text. -/
theorem matchItems_ending_iff {cs name : List Char} (hcs : isPattern cs = false) :
    matchItems (parse ('*' :: cs)) name = true ↔ cs <:+ name := by
  refine ⟨suffix_of_matchItems hcs, ?_⟩
  rintro ⟨above, rfl⟩
  rw [parse_ending hcs]
  exact matchItems_star_append (matchItems_chars cs) above

end Wildcard

end DartModels
