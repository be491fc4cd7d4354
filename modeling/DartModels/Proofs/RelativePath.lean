import DartModels.Proofs.NormalPath
import Mathlib.Data.List.DropRight

/-!
# Relative paths

The way from a directory to a path leads there: up to the directory that they share and down again.
Both are settled, that is normalised with one root slash, so they are lists of plain components.

    start = common ++ up, target = common ++ down
    relativeParts start target = up.length times `..`, then down                     (relativeParts_eq)
    normalize (join (dirname p) (tidy (relative workdir target (dirname p)))) = target
                                                                              (normalize_join_relative)
-/

namespace DartModels

namespace Path

/-- An absolute normalised path with a single root slash. -/
def Settled (p : String) : Prop := rootSlashes p.toList = 1 ∧ normalize p = p

theorem settled_iff {p : String} :
    Settled p ↔ ∃ parts, (∀ q ∈ parts, Plain q) ∧ p = String.ofList (rooted 1 parts) := by
  constructor
  · rintro ⟨hroot, hp⟩
    have hchars : normalizeChars p.toList = p.toList := by
      have h := congrArg String.toList hp
      rwa [normalize, String.toList_ofList] at h
    obtain ⟨parts, hparts, h⟩ := exists_plain_of_normal hchars (by omega)
    rw [hroot] at h
    exact ⟨parts, hparts, by rw [← h, String.ofList_toList]⟩
  · rintro ⟨parts, hparts, rfl⟩
    unfold Settled normalize
    rw [String.toList_ofList, rootSlashes_rooted (by omega) fun q hq => (hparts q hq).toProper,
      normalizeChars_of_plain (Or.inl rfl) hparts]
    exact ⟨rfl, rfl⟩

/-! ## Directories -/

theorem joinSlash_concat {parts : List Part} (h : parts ≠ []) (q : Part) :
    joinSlash (parts ++ [q]) = joinSlash parts ++ '/' :: q := by
  induction parts with
  | nil => exact absurd rfl h
  | cons p parts ih =>
    cases parts with
    | nil => rfl
    | cons p' parts =>
      show p ++ '/' :: joinSlash (p' :: parts ++ [q]) = p ++ '/' :: joinSlash (p' :: parts) ++ '/' :: q
      rw [ih (List.cons_ne_nil _ _), List.append_assoc, List.cons_append]

/-- Cutting a path after its last slash. -/
theorem dropWhile_reverse (a : List Char) {q : List Char} (h : '/' ∉ q) :
    ((a ++ '/' :: q).reverse.dropWhile (· != '/')).reverse = a ++ ['/'] := by
  have hq : ∀ c ∈ q.reverse, (c != '/') = true := fun c hc => by
    have hne : c ≠ '/' := fun e => h (e ▸ List.mem_reverse.mp hc)
    simpa using hne
  rw [List.reverse_append, List.reverse_cons, List.append_assoc, List.dropWhile_append_of_pos hq]
  simp

/-- Dropping the slash at the end of a path. -/
theorem dropWhile_slash {a : List Char} (h : a.getLast? ≠ some '/') :
    ((a ++ ['/']).reverse.dropWhile (· == '/')).reverse = a := by
  rw [List.reverse_append, List.reverse_singleton, List.singleton_append, List.dropWhile_cons]
  simp only [beq_self_eq_true, if_true]
  rw [← List.head?_reverse] at h
  have hkeep : a.reverse.dropWhile (· == '/') = a.reverse := by
    cases ha : a.reverse with
    | nil => rfl
    | cons c cs =>
      rw [ha] at h
      rw [List.dropWhile_cons_of_neg]
      simpa using h
  rw [hkeep, List.reverse_reverse]

/-- The last character of joined components is one of a component. -/
theorem getLast_joinSlash {parts : List Part} (h : ∀ q ∈ parts, Plain q) :
    (joinSlash parts).getLast? ≠ some '/' := by
  rcases List.eq_nil_or_concat parts with rfl | ⟨init, q, rfl⟩
  · simp [joinSlash]
  · have hq := h q (by simp)
    have hlast : (joinSlash (init ++ [q])).getLast? = q.getLast? := by
      cases init with
      | nil => rfl
      | cons p init =>
        rw [joinSlash_concat (List.cons_ne_nil _ _), List.getLast?_append, List.getLast?_cons]
        cases hl : q.getLast? with
        | none => exact absurd (List.getLast?_eq_none_iff.mp hl) hq.ne_nil
        | some c => simp
    rw [List.concat_eq_append, hlast]
    exact fun e => hq.noSlash (List.mem_of_getLast? e)

theorem joinSlash_ne_nil {q : Part} (h : Proper q) (parts : List Part) :
    joinSlash (q :: parts) ≠ [] := by
  cases parts with
  | nil => exact h.ne_nil
  | cons p parts =>
    show q ++ '/' :: _ ≠ []
    simp

theorem isRooted_of_prefix {p q : List Char} (h : isRooted p = true) (hq : q <+: p) (hne : q ≠ []) :
    isRooted q = true := by
  obtain ⟨c, q, rfl⟩ := List.exists_cons_of_ne_nil hne
  obtain ⟨rest, rfl⟩ := hq
  exact h

theorem isRooted_dirname {p : String} (h : isRooted p.toList = true) :
    isRooted (dirname p).toList = true := by
  have hdirname : (dirname p).toList =
      if (p.toList.rdropWhile (· != '/')).all (· == '/') then p.toList.rdropWhile (· != '/')
      else (p.toList.rdropWhile (· != '/')).rdropWhile (· == '/') := String.toList_ofList
  have hne : p.toList.rdropWhile (· != '/') ≠ [] := by
    rw [ne_eq, List.rdropWhile_eq_nil_iff]
    exact fun hall => absurd (hall '/' (List.mem_of_head? (beq_iff_eq.mp h))) (by decide)
  have hhead := isRooted_of_prefix h (List.rdropWhile_prefix _ _) hne
  rw [hdirname]
  split
  · exact hhead
  · next hsome =>
    refine isRooted_of_prefix hhead (List.rdropWhile_prefix _ _) ?_
    rw [ne_eq, List.rdropWhile_eq_nil_iff]
    exact fun hall => hsome (List.all_eq_true.mpr hall)

/-- The directory of a path that does not lie directly below the root. -/
theorem dirnameChars_append {a q : List Char} (ha : ∃ c ∈ a, c ≠ '/') (hlast : a.getLast? ≠ some '/')
    (hq : '/' ∉ q) : dirnameChars (a ++ '/' :: q) = a := by
  obtain ⟨c, hc, hne⟩ := ha
  have hall : ¬(a ++ ['/']).all (· == '/') = true := by
    rw [List.all_eq_true]
    exact fun h => hne (beq_iff_eq.mp (h c (List.mem_append_left _ hc)))
  unfold dirnameChars
  rw [dropWhile_reverse a hq]
  simp only [hall]
  exact dropWhile_slash hlast

theorem dirnameChars_rooted {parts : List Part} (h : ∀ q ∈ parts, Plain q) :
    dirnameChars (rooted 1 parts) = rooted 1 parts.dropLast := by
  rcases List.eq_nil_or_concat parts with rfl | ⟨init, q, rfl⟩
  · rfl
  · rw [List.concat_eq_append] at h ⊢
    have hq := (h q (by simp)).noSlash
    have hinit : ∀ p ∈ init, Plain p := fun p hp => h p (List.mem_append_left _ hp)
    rw [List.dropLast_concat]
    cases init with
    | nil =>
      unfold dirnameChars
      rw [show rooted 1 ([] ++ [q]) = [] ++ '/' :: q from rfl, dropWhile_reverse [] hq]
      rfl
    | cons p init =>
      have hsplit : rooted 1 (p :: init ++ [q]) = rooted 1 (p :: init) ++ '/' :: q := by
        unfold rooted
        rw [joinSlash_concat (List.cons_ne_nil _ _), List.append_assoc]
      obtain ⟨c, cs, hjoin⟩ :=
        List.exists_cons_of_ne_nil (joinSlash_ne_nil (hinit p List.mem_cons_self).toProper init)
      have hc : c ≠ '/' := by
        have hhead := joinSlash_head fun q hq => (hinit q hq).toProper
        rw [hjoin] at hhead
        simpa using hhead
      have hlast : (rooted 1 (p :: init)).getLast? ≠ some '/' := by
        have hl := getLast_joinSlash hinit
        rw [hjoin] at hl
        unfold rooted
        rw [hjoin]
        show ('/' :: c :: cs).getLast? ≠ _
        rw [List.getLast?_cons_cons]
        exact hl
      have hsome : ∃ d ∈ rooted 1 (p :: init), d ≠ '/' := by
        refine ⟨c, ?_, hc⟩
        unfold rooted
        rw [hjoin]
        simp
      rw [hsplit, dirnameChars_append hsome hlast hq]

/-! ## Ways -/

/-- The components of the way from a directory to a path: up, then down. -/
def wayParts (start target : List Part) : List Part :=
  List.replicate (diverge start target).1 dotDot ++ (diverge start target).2

theorem diverge_eq (start target : List Part) :
    ∃ common up, start = common ++ up ∧ target = common ++ (diverge start target).2 ∧
      (diverge start target).1 = up.length := by
  induction start generalizing target with
  | nil => exact ⟨[], [], rfl, by cases target <;> rfl, by cases target <;> rfl⟩
  | cons a start ih =>
    cases target with
    | nil => exact ⟨[], a :: start, rfl, rfl, rfl⟩
    | cons b target =>
      rw [diverge]
      by_cases hab : a = b
      · subst hab
        rw [if_pos rfl]
        obtain ⟨common, up, hstart, htarget, hup⟩ := ih target
        exact ⟨a :: common, up, congrArg _ hstart, congrArg _ htarget, hup⟩
      · rw [if_neg hab]
        exact ⟨[], a :: start, rfl, rfl, rfl⟩

/-- Going up and down again leads to the target. -/
theorem reduce_wayParts {start target : List Part} (hs : ∀ q ∈ start, Plain q)
    (ht : ∀ q ∈ target, Plain q) : reduce true (start ++ wayParts start target) = target := by
  obtain ⟨common, up, hstart, htarget, hup⟩ := diverge_eq start target
  have hplain : ∀ q ∈ common, Plain q := fun q hq => hs q (hstart ▸ List.mem_append_left _ hq)
  have hupPlain : ∀ q ∈ up.reverse, Plain q := fun q hq =>
    hs q (hstart ▸ List.mem_append_right _ (List.mem_reverse.mp hq))
  have hdown : ∀ q ∈ (diverge start target).2, Plain q := fun q hq =>
    ht q (htarget ▸ List.mem_append_right _ hq)
  unfold reduce wayParts
  rw [List.foldl_append, foldl_push_plain true hs, List.append_nil, List.foldl_append, hup,
    ← List.length_reverse]
  have hstack : start.reverse = up.reverse ++ common.reverse := by
    rw [hstart, List.reverse_append]
  rw [hstack, foldl_push_dotDot true hupPlain, foldl_push_plain true hdown, ← List.reverse_append,
    List.reverse_reverse]
  exact htarget.symm

theorem proper_wayParts (start : List Part) {target : List Part} (ht : ∀ q ∈ target, Plain q) :
    ∀ q ∈ wayParts start target, Proper q := by
  obtain ⟨common, up, -, htarget, -⟩ := diverge_eq start target
  intro q hq
  rcases List.mem_append.mp hq with hq | hq
  · rw [List.eq_of_mem_replicate hq]
    exact ⟨by decide, by decide⟩
  · exact (ht q (htarget ▸ List.mem_append_right _ hq)).toProper

theorem rootSlashes_of_head {cs : List Char} (h : cs.head? ≠ some '/') : rootSlashes cs = 0 := by
  unfold rootSlashes
  split <;> simp_all

theorem named_relativeParts (start : List Part) {target : List Part}
    (ht : ∀ q ∈ target, Plain q) :
    named (joinSlash (relativeParts start target)) = wayParts start target ∧
      (joinSlash (relativeParts start target)).head? ≠ some '/' := by
  cases hw : wayParts start target with
  | nil =>
    have hway : relativeParts start target = [dot] := by
      unfold wayParts at hw
      simp only [relativeParts, hw]
    rw [hway]
    decide
  | cons q qs =>
    have hway : relativeParts start target = q :: qs := by
      unfold wayParts at hw
      simp only [relativeParts, hw]
    have hproper := proper_wayParts start ht
    rw [hw] at hproper
    rw [hway]
    exact ⟨named_joinSlash hproper, joinSlash_head hproper⟩

/-- A tidy way is a nonempty text without a root slash, and names the same components. -/
theorem named_tidy {p : String} (hroot : p.toList.head? ≠ some '/')
    (hproper : ∀ q ∈ named p.toList, Proper q) :
    named (tidy p).toList = named p.toList ∧ (tidy p).toList.head? ≠ some '/' := by
  unfold tidy Tidy.ofString Tidy.toString
  rw [rootSlashes_of_head hroot]
  simp only [List.replicate_zero, List.nil_append]
  cases hj : joinSlash (named p.toList) with
  | nil =>
    have hnamed := named_joinSlash hproper
    rw [hj] at hnamed
    rw [← hnamed]
    decide
  | cons c cs =>
    dsimp only
    rw [String.toList_ofList, ← hj]
    exact ⟨named_joinSlash hproper, joinSlash_head hproper⟩

/-- A relative way adds its components to a path. -/
theorem named_joinChars_append (base : List Char) {way : List Char} (hway : way.head? ≠ some '/') :
    named (joinChars base way) = named base ++ named way := by
  have happend (a b : List Char) : named (a ++ '/' :: b) = named a ++ named b := by
    unfold named
    rw [splitSlash_append, List.filter_append]
  have hrel : isRooted way = false := by simpa [isRooted] using hway
  unfold joinChars
  rw [hrel, if_neg Bool.false_ne_true]
  split
  · next hopen =>
    rcases Bool.or_eq_true _ _ ▸ hopen with hempty | hlast
    · rw [List.isEmpty_iff.mp hempty]
      rfl
    · obtain ⟨init, rfl⟩ := List.getLast?_eq_some_iff.mp (beq_iff_eq.mp hlast)
      rw [List.append_assoc, List.singleton_append, happend, happend init []]
      exact congrArg (· ++ named way) (List.append_nil _).symm
  · exact happend base way

/-- A relative way below a rooted path keeps its root slashes and adds its components. -/
theorem named_joinChars_rooted {root : Nat} (hr : root = 1 ∨ root = 2) {start : List Part}
    (hs : ∀ q ∈ start, Plain q) {way : List Char} (hway : way.head? ≠ some '/') :
    named (joinChars (rooted root start) way) = start ++ named way ∧
      rootSlashes (joinChars (rooted root start) way) = root := by
  have hproper : ∀ q ∈ start, Proper q := fun q hq => (hs q hq).toProper
  have hle : root ≤ 2 := by omega
  have hrel : isRooted way = false := by simpa [isRooted] using hway
  refine ⟨by rw [named_joinChars_append _ hway, named_rooted root hproper], ?_⟩
  unfold joinChars
  rw [hrel, if_neg Bool.false_ne_true]
  cases start with
  | nil =>
    rw [if_pos (by rcases hr with rfl | rfl <;> rfl), rooted, joinSlash, List.append_nil]
    exact rootSlashes_replicate hle hway
  | cons q qs =>
    have hhead := joinSlash_head hproper
    have hlast := getLast_joinSlash hs
    obtain ⟨c, cs, hjoin⟩ :=
      List.exists_cons_of_ne_nil (joinSlash_ne_nil (hproper q List.mem_cons_self) qs)
    rw [hjoin] at hhead hlast
    rw [rooted, hjoin, if_neg]
    · rw [List.append_assoc]
      exact rootSlashes_replicate hle hhead
    · rw [List.getLast?_append, List.getLast?_cons]
      rw [List.getLast?_cons] at hlast
      simpa using hlast

theorem named_joinChars {start : List Part} (hs : ∀ q ∈ start, Plain q) {way : List Char}
    (hway : way.head? ≠ some '/') :
    named (joinChars (rooted 1 start) way) = start ++ named way ∧
      rootSlashes (joinChars (rooted 1 start) way) = 1 :=
  named_joinChars_rooted (Or.inl rfl) hs hway

theorem relative_rooted (workdir : String) {start target : List Part} (hs : ∀ q ∈ start, Plain q)
    (ht : ∀ q ∈ target, Plain q) :
    relative workdir (String.ofList (rooted 1 target)) (String.ofList (rooted 1 start)) =
      String.ofList (joinSlash (relativeParts start target)) := by
  unfold relative
  dsimp only
  rw [absolute_rooted workdir (Or.inl rfl) hs, absolute_rooted workdir (Or.inl rfl) ht,
    String.toList_ofList, String.toList_ofList, named_rooted 1 fun q hq => (hs q hq).toProper,
    named_rooted 1 fun q hq => (ht q hq).toProper]

/-- The way from a directory to a path leads to the path. -/
theorem normalize_join_relative (workdir : String) {base target : String} (hb : Settled base)
    (ht : Settled target) :
    normalize (join base (tidy (relative workdir target base))) = target := by
  obtain ⟨start, hs, rfl⟩ := settled_iff.mp hb
  obtain ⟨parts, hp, rfl⟩ := settled_iff.mp ht
  obtain ⟨hway, hhead⟩ := named_relativeParts start hp
  have hproper := proper_wayParts start hp
  rw [relative_rooted workdir hs hp]
  obtain ⟨htidy, htidyHead⟩ := named_tidy (p := String.ofList (joinSlash (relativeParts start parts)))
    (by rwa [String.toList_ofList]) (by rwa [String.toList_ofList, hway])
  rw [String.toList_ofList, hway] at htidy
  obtain ⟨hnamed, hroot⟩ := named_joinChars hs htidyHead
  unfold normalize join
  rw [String.toList_ofList, String.toList_ofList, normalizeChars_rooted (by omega), hroot, hnamed,
    htidy, reduce_wayParts hs hp]

theorem settled_dirname {p : String} (h : Settled p) : Settled (dirname p) := by
  obtain ⟨parts, hp, rfl⟩ := settled_iff.mp h
  refine settled_iff.mpr ⟨parts.dropLast, fun q hq => hp q (List.dropLast_subset _ hq), ?_⟩
  unfold dirname
  rw [String.toList_ofList, dirnameChars_rooted hp]

/-- A path below a settled one is settled once it is normalised, unless it has two root slashes. -/
theorem settled_normalize_join {base p : String} (hb : Settled base)
    (hp : rootSlashes p.toList ≠ 2) : Settled (normalize (join base p)) := by
  obtain ⟨start, hs, rfl⟩ := settled_iff.mp hb
  have hroot : rootSlashes (joinChars (rooted 1 start) p.toList) = 1 := by
    by_cases hrel : isRooted p.toList = true
    · have hne := rootSlashes_of_isRooted hrel
      have hle := rootSlashes_le p.toList
      unfold joinChars
      rw [if_pos hrel]
      omega
    · exact (named_joinChars hs (by simpa [isRooted] using hrel)).2
  refine settled_iff.mpr ⟨_, plain_reduce_named (joinChars (rooted 1 start) p.toList), ?_⟩
  unfold normalize join
  rw [String.toList_ofList, String.toList_ofList, normalizeChars_rooted (by omega), hroot]

end Path

end DartModels
