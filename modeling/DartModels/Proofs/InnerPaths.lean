import DartModels.Proofs.AbsoluteDirectories
import DartModels.Proofs.Ways

/-!
# Inner paths

An inner path leads from a directory to something below it: it is relative, in normal form and does
not climb.  Below an anchored directory it adds its names to those of the directory, and the way from
the directory to what it leads to is the inner path again.

    an inner path is names with slashes between them                              (Inner.joinSlash_eq)
    its directory is the names without the last                                    (Inner.dirname_eq)
    normalize (join base p) = the names of base, then those of p           (Anchored.normalize_join_inner)
    relative workdir (normalize (join base p)) base = p                      (Anchored.relative_inner)
-/

namespace DartModels

/-! ## Inner paths -/

namespace Path

/-- A relative path in normal form without `..`, as a search below a directory lists it. -/
structure Inner (p : String) : Prop where
  relative : isRooted p.toList = false
  normal : normalize p = p
  inside : dotDot ∉ splitSlash p.toList

/-- A path of names. -/
theorem inner_joinSlash {parts : List Part} (hne : parts ≠ []) (h : ∀ q ∈ parts, Plain q) :
    Inner (String.ofList (joinSlash parts)) := by
  have hproper : ∀ q ∈ parts, Proper q := fun q hq => (h q hq).toProper
  have hsplit : splitSlash (joinSlash parts) = parts :=
    splitSlash_joinSlash hne fun q hq => (hproper q hq).noSlash
  have hhead := joinSlash_head hproper
  obtain ⟨q, rest, rfl⟩ := List.exists_cons_of_ne_nil hne
  refine ⟨?_, ?_, ?_⟩
  · rw [String.toList_ofList]
    simpa [isRooted] using hhead
  · have hchars : normalizeChars (joinSlash (q :: rest)) = joinSlash (q :: rest) := by
      unfold normalizeChars
      rw [rootSlashes_of_head hhead, hsplit]
      dsimp only
      rw [reduce_plain _ h, List.replicate_zero, List.nil_append]
      split
      · next hnil => exact absurd hnil (joinSlash_ne_nil (hproper q List.mem_cons_self) rest)
      · rfl
    unfold normalize
    rw [String.toList_ofList, hchars]
  · rw [String.toList_ofList, hsplit]
    exact fun hmem => (h _ hmem).ne_dotDot rfl

/-- An inner path is the directory itself or leads down through names. -/
theorem Inner.cases {p : String} (h : Inner p) :
    p = String.ofList dot ∨
      ∃ parts, parts ≠ [] ∧ (∀ q ∈ parts, Plain q) ∧ p = String.ofList (joinSlash parts) := by
  have hroot : rootSlashes p.toList = 0 :=
    rootSlashes_of_head (by simpa [isRooted] using h.relative)
  have hnormal : normalizeChars p.toList = p.toList := by
    have htext := congrArg String.toList h.normal
    rwa [normalize, String.toList_ofList] at htext
  obtain ⟨ups, names, hreduce, hnames, -⟩ :=
    exists_reduce_eq false fun q (hq : q ∈ splitSlash p.toList) => notMem_of_mem_splitSlash hq
  unfold normalizeChars at hnormal
  rw [hroot] at hnormal
  dsimp only at hnormal
  split at hnormal
  · left
    rw [hnormal, String.ofList_toList]
  · next hjoin =>
    have hparts : p.toList = joinSlash (reduce false (splitSlash p.toList)) := hnormal.symm
    have hproper := proper_reduce false fun q (hq : q ∈ splitSlash p.toList) =>
      notMem_of_mem_splitSlash hq
    have hne : reduce false (splitSlash p.toList) ≠ [] := by
      intro hnil
      exact hjoin (congrArg joinSlash hnil)
    have hsplit : splitSlash p.toList = reduce false (splitSlash p.toList) := by
      conv_lhs => rw [hparts]
      exact splitSlash_joinSlash hne fun q hq => (hproper q hq).noSlash
    -- the normal form has its `..` in front, and there is none
    have hups : ups = 0 := by
      by_contra hups
      apply h.inside
      rw [hsplit, hreduce]
      exact List.mem_append_left _ (List.mem_replicate.mpr ⟨hups, rfl⟩)
    right
    rw [hups, List.replicate_zero, List.nil_append] at hreduce
    rw [hreduce] at hne hparts
    exact ⟨names, hne, hnames, by rw [← hparts, String.ofList_toList]⟩

theorem Inner.plain {p : String} (h : Inner p) : ∀ q ∈ named p.toList, Plain q := by
  rcases h.cases with rfl | ⟨parts, -, hparts, rfl⟩
  · have hnone : named (String.ofList dot).toList = [] := by decide
    rw [hnone]
    exact List.forall_mem_nil _
  · rw [String.toList_ofList, named_joinSlash fun q hq => (hparts q hq).toProper]
    exact hparts

theorem dirnameChars_joinSlash {parts : List Part} (h : ∀ q ∈ parts, Plain q) :
    dirnameChars (joinSlash parts) = joinSlash parts.dropLast := by
  rcases List.eq_nil_or_concat parts with rfl | ⟨init, q, rfl⟩
  · rfl
  · rw [List.concat_eq_append] at h ⊢
    have hq := (h q (by simp)).noSlash
    have hinit : ∀ p ∈ init, Plain p := fun p hp => h p (List.mem_append_left _ hp)
    rw [List.dropLast_concat]
    cases init with
    | nil =>
      have hdrop : q.reverse.dropWhile (· != '/') = [] := by
        rw [List.dropWhile_eq_nil_iff]
        intro c hc
        have hne : c ≠ '/' := fun e => hq (e ▸ List.mem_reverse.mp hc)
        simpa using hne
      show dirnameChars q = []
      unfold dirnameChars
      rw [hdrop]
      rfl
    | cons p init =>
      have hproper : ∀ q ∈ p :: init, Proper q := fun q hq => (hinit q hq).toProper
      obtain ⟨c, cs, hjoin⟩ :=
        List.exists_cons_of_ne_nil (joinSlash_ne_nil (hproper p List.mem_cons_self) init)
      have hhead := joinSlash_head hproper
      rw [hjoin] at hhead
      rw [joinSlash_concat (List.cons_ne_nil _ _)]
      refine dirnameChars_append ⟨c, ?_, by simpa using hhead⟩ (getLast_joinSlash hinit) hq
      rw [hjoin]
      exact List.mem_cons_self

theorem joinSlash_inj {parts parts' : List Part} (h : ∀ q ∈ parts, Plain q)
    (h' : ∀ q ∈ parts', Plain q) : joinSlash parts = joinSlash parts' ↔ parts = parts' := by
  refine ⟨fun heq => ?_, congrArg joinSlash⟩
  have hnamed := congrArg named heq
  rwa [named_joinSlash fun q hq => (h q hq).toProper,
    named_joinSlash fun q hq => (h' q hq).toProper] at hnamed

/-- An inner path is told by its names. -/
theorem Inner.joinSlash_eq {p : String} (h : Inner p) :
    p = String.ofList (if named p.toList = [] then dot else joinSlash (named p.toList)) := by
  rcases h.cases with rfl | ⟨parts, hne, hparts, rfl⟩
  · decide
  · rw [String.toList_ofList, named_joinSlash fun q hq => (hparts q hq).toProper, if_neg hne]

/-- The directory of an inner path has its components without the last. -/
theorem Inner.dirname_eq {p : String} (h : Inner p) :
    dirname p = String.ofList (joinSlash (named p.toList).dropLast) := by
  unfold dirname
  rcases h.cases with rfl | ⟨parts, -, hparts, rfl⟩
  · decide
  · rw [String.toList_ofList, dirnameChars_joinSlash hparts,
      named_joinSlash fun q hq => (hparts q hq).toProper]

/-! ## Paths below a rooted one -/

theorem rootSlashes_joinChars {base : List Char} (h : isRooted base = true) {way : List Char}
    (hway : way.head? ≠ some '/') : rootSlashes (joinChars base way) = rootSlashes base := by
  have hrelative : isRooted way = false := by simpa [isRooted] using hway
  obtain ⟨cs, rfl⟩ : ∃ cs, base = '/' :: cs := List.head?_eq_some_iff.mp (beq_iff_eq.mp h)
  have hone : rootSlashes (['/'] ++ way) = 1 := rootSlashes_replicate (show 1 ≤ 2 by decide) hway
  have htwo : rootSlashes (['/', '/'] ++ way) = 2 :=
    rootSlashes_replicate (show 2 ≤ 2 by decide) hway
  unfold joinChars
  rw [hrelative, if_neg Bool.false_ne_true]
  rcases cs with _ | ⟨c, cs⟩
  · exact hone
  · by_cases hc : c = '/'
    · rw [hc]
      rcases cs with _ | ⟨d, cs⟩
      · exact htwo
      · by_cases hd : d = '/'
        · rw [hd]
          split <;> rfl
        · split <;> simp [rootSlashes, hd]
    · split <;> simp [rootSlashes, hc]

/-- The normal form of a relative way below a rooted path keeps its root slashes. -/
theorem normalize_join_way {base way : String} (hbase : isRooted base.toList = true)
    (hway : way.toList.head? ≠ some '/') :
    normalize (join base way) = String.ofList
      (rooted (rootSlashes base.toList) (reduce true (named base.toList ++ named way.toList))) := by
  rw [normalize_of_isRooted (isRooted_join hbase way)]
  unfold join
  rw [String.toList_ofList, rootSlashes_joinChars hbase hway, named_joinChars_append _ hway]

/-- The way down to what lies below. -/
theorem relativeParts_append (start way : List Part) :
    relativeParts start (start ++ way) = if way = [] then [dot] else way := by
  have hdiverge : diverge start (start ++ way) = (0, way) := by
    induction start with
    | nil => cases way <;> rfl
    | cons q start ih =>
      rw [List.cons_append, diverge, if_pos rfl]
      exact ih
  unfold relativeParts
  rw [hdiverge]
  cases way <;> rfl

theorem Settled.anchored {p : String} (h : Settled p) : Anchored p := by
  obtain ⟨parts, hparts, rfl⟩ := settled_iff.mp h
  exact anchored_rooted (Or.inl rfl) hparts

theorem Anchored.plain {p : String} (h : Anchored p) : ∀ q ∈ named p.toList, Plain q := by
  obtain ⟨root, parts, -, hparts, rfl⟩ := anchored_iff.mp h
  rw [String.toList_ofList, named_rooted root fun q hq => (hparts q hq).toProper]
  exact hparts

section

variable {base : String} (hbase : Anchored base)

include hbase

/-- Names below an anchored directory. -/
theorem Anchored.normalize_join_names {way : String} (hhead : way.toList.head? ≠ some '/')
    (hway : ∀ q ∈ named way.toList, Plain q) : normalize (join base way) =
      String.ofList (Path.rooted (rootSlashes base.toList)
        (named base.toList ++ named way.toList)) := by
  rw [normalize_join_way hbase.rooted hhead,
    reduce_plain true (List.forall_mem_append.mpr ⟨hbase.plain, hway⟩)]

theorem Anchored.normalize_join_inner {p : String} (hp : Inner p) : normalize (join base p) =
    String.ofList (Path.rooted (rootSlashes base.toList)
      (named base.toList ++ named p.toList)) :=
  hbase.normalize_join_names (by simpa [isRooted] using hp.relative) hp.plain

/-- The way from a directory to what an inner path leads to. -/
theorem Anchored.relative_inner {p : String} (hp : Inner p) (workdir : String) :
    relative workdir (normalize (join base p)) base = p := by
  have hparts := List.forall_mem_append.mpr ⟨hbase.plain, hp.plain⟩
  have hproper : ∀ q ∈ named base.toList ++ named p.toList, Proper q :=
    fun q hq => (hparts q hq).toProper
  have hnamed : named (normalize (join base p)).toList = named base.toList ++ named p.toList := by
    rw [hbase.normalize_join_inner hp, String.toList_ofList, named_rooted _ hproper]
  have hsame (a : String) (ha : Anchored a) : absolute workdir a = a := ha.normalize_join workdir
  unfold relative
  dsimp only
  rw [hsame base hbase, hsame _ (hbase.below p), hnamed, relativeParts_append]
  conv_rhs => rw [hp.joinSlash_eq]
  cases named p.toList <;> rfl

end

end Path

end DartModels
