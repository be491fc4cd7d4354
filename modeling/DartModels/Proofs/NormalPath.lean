import DartModels.Path

/-!
# Normal forms of paths

A normalised path is tidy, and a normalised rooted path is its root slashes and plain components: none
is empty, a dot or `..`, and none holds a slash.

    rootSlashes p ≠ 0 → normalizeChars p = rooted (rootSlashes p) (reduce true (splitSlash p))
    normalizeChars (rooted root parts) = rooted root parts     (for plain parts, root 1 or 2)
    tidy (normalize p) = normalize p

So a normalised rooted path and the list of its components determine each other.
-/

namespace DartModels

namespace Path

/-! ## Splitting and joining -/

theorem splitSlash_cons_slash (cs : List Char) : splitSlash ('/' :: cs) = [] :: splitSlash cs := by
  simp [splitSlash, splitAtChar]

theorem splitSlash_append (a b : List Char) :
    splitSlash (a ++ '/' :: b) = splitSlash a ++ splitSlash b := splitAtChar_append '/' a b

theorem splitSlash_of_notMem {q : Part} (h : '/' ∉ q) : splitSlash q = [q] :=
  splitAtChar_of_notMem h

theorem mem_of_mem_splitSlash {p : List Char} {q : Part} (h : q ∈ splitSlash p) {c : Char}
    (hc : c ∈ q) : c ∈ p := by
  unfold splitSlash at h
  induction p generalizing q with
  | nil =>
    rw [splitAtChar, List.mem_singleton] at h
    rwa [h] at hc
  | cons d p ih =>
    rw [splitAtChar] at h
    by_cases hd : d = '/'
    · rw [if_pos hd] at h
      rcases List.mem_cons.mp h with rfl | h
      · cases hc
      · exact List.mem_cons_of_mem _ (ih h hc)
    · rw [if_neg hd] at h
      cases hs : splitAtChar '/' p with
      | nil => exact absurd hs (splitAtChar_ne_nil _ _)
      | cons r rs =>
        rw [hs] at h ih
        rcases List.mem_cons.mp h with rfl | h
        · rcases List.mem_cons.mp hc with rfl | hc
          · exact List.mem_cons_self
          · exact List.mem_cons_of_mem _ (ih List.mem_cons_self hc)
        · exact List.mem_cons_of_mem _ (ih (List.mem_cons_of_mem _ h) hc)

theorem notMem_of_mem_splitSlash {p : List Char} {q : Part} (h : q ∈ splitSlash p) : '/' ∉ q := by
  unfold splitSlash at h
  induction p generalizing q with
  | nil =>
    rw [splitAtChar, List.mem_singleton] at h
    simp [h]
  | cons c p ih =>
    rw [splitAtChar] at h
    by_cases hc : c = '/'
    · rw [if_pos hc] at h
      rcases List.mem_cons.mp h with rfl | h
      · simp
      · exact ih h
    · rw [if_neg hc] at h
      cases hs : splitAtChar '/' p with
      | nil => exact absurd hs (splitAtChar_ne_nil _ _)
      | cons r rs =>
        rw [hs] at h ih
        rcases List.mem_cons.mp h with rfl | h
        · have hr := ih List.mem_cons_self
          rw [List.mem_cons]
          rintro (he | he)
          · exact hc he.symm
          · exact hr he
        · exact ih (List.mem_cons_of_mem _ h)

theorem splitSlash_joinSlash {parts : List Part} (hne : parts ≠ []) (h : ∀ q ∈ parts, '/' ∉ q) :
    splitSlash (joinSlash parts) = parts := by
  induction parts with
  | nil => exact absurd rfl hne
  | cons q qs ih =>
    have hq := splitSlash_of_notMem (h q List.mem_cons_self)
    cases qs with
    | nil => exact hq
    | cons r rs =>
      show splitSlash (q ++ '/' :: joinSlash (r :: rs)) = _
      rw [splitSlash_append, hq, ih (List.cons_ne_nil _ _) fun s hs => h s (List.mem_cons_of_mem _ hs)]
      rfl

/-! ## Plain components -/

/-- A component that names something: an entry of the directory it stands in or the one above. -/
structure Proper (q : Part) : Prop where
  named : isNamed q = true
  noSlash : '/' ∉ q

/-- A component that names an entry of the directory it stands in. -/
structure Plain (q : Part) : Prop extends Proper q where
  ne_dotDot : q ≠ dotDot

theorem Proper.ne_nil {q : Part} (h : Proper q) : q ≠ [] := by
  intro e
  have := h.named
  simp [e, isNamed] at this

theorem isNamed_dotDot : isNamed dotDot = true := rfl

theorem push_unnamed (r : Bool) (stack : List Part) {q : Part} (h : isNamed q = false) :
    push r stack q = stack := by
  simp [push, h]

theorem push_plain (r : Bool) (stack : List Part) {q : Part} (h : Plain q) :
    push r stack q = q :: stack := by
  simp [push, h.named, h.ne_dotDot]

theorem push_dotDot (r : Bool) (stack : List Part) {q : Part} (h : Plain q) :
    push r (q :: stack) dotDot = stack := by
  simp [push, isNamed_dotDot, h.ne_dotDot]

theorem foldl_push_plain (r : Bool) {qs : List Part} (h : ∀ q ∈ qs, Plain q) (stack : List Part) :
    qs.foldl (push r) stack = qs.reverse ++ stack := by
  induction qs generalizing stack with
  | nil => rfl
  | cons q qs ih =>
    rw [List.foldl_cons, push_plain r stack (h q List.mem_cons_self),
      ih fun s hs => h s (List.mem_cons_of_mem _ hs)]
    simp

/-- Each `..` takes the top of a stack of plain components away. -/
theorem foldl_push_dotDot (r : Bool) {top : List Part} (h : ∀ q ∈ top, Plain q)
    (stack : List Part) :
    (List.replicate top.length dotDot).foldl (push r) (top ++ stack) = stack := by
  induction top with
  | nil => rfl
  | cons q top ih =>
    rw [List.length_cons, List.replicate_succ, List.foldl_cons, List.cons_append,
      push_dotDot r _ (h q List.mem_cons_self)]
    exact ih fun s hs => h s (List.mem_cons_of_mem _ hs)

/-- Below a root only plain components stay on the stack. -/
theorem plain_push {stack : List Part} {q : Part} (hs : ∀ s ∈ stack, Plain s) (hq : '/' ∉ q) :
    ∀ s ∈ push true stack q, Plain s := by
  unfold push
  split
  · exact hs
  · next hn =>
    split
    · cases stack with
      | nil => simp
      | cons t below =>
        have ht := hs t List.mem_cons_self
        simp only [ht.ne_dotDot, if_false]
        exact fun s h => hs s (List.mem_cons_of_mem _ h)
    · next hd =>
      intro s h
      rcases List.mem_cons.mp h with rfl | h
      · exact ⟨⟨by simpa using hn, hq⟩, hd⟩
      · exact hs s h

/-- Only components that name something stay on the stack. -/
theorem proper_push (r : Bool) {stack : List Part} {q : Part} (hs : ∀ s ∈ stack, Proper s)
    (hq : '/' ∉ q) : ∀ s ∈ push r stack q, Proper s := by
  have hdots : Proper dotDot := ⟨rfl, by decide⟩
  unfold push
  split
  · exact hs
  · next hn =>
    split
    · cases stack with
      | nil => cases r <;> simp [hdots]
      | cons t below =>
        dsimp only
        split
        · exact List.forall_mem_cons.mpr ⟨hdots, hs⟩
        · exact fun s h => hs s (List.mem_cons_of_mem _ h)
    · exact List.forall_mem_cons.mpr ⟨⟨by simpa using hn, hq⟩, hs⟩

/-- What each step keeps of the components on the stack holds of a reduced path. -/
theorem forall_mem_reduce {P : Part → Prop} {r : Bool}
    (hpush : ∀ {stack q}, (∀ s ∈ stack, P s) → '/' ∉ q → ∀ s ∈ push r stack q, P s)
    {parts : List Part} (h : ∀ q ∈ parts, '/' ∉ q) : ∀ q ∈ reduce r parts, P q := by
  have key : ∀ (qs stack : List Part), (∀ q ∈ qs, '/' ∉ q) → (∀ s ∈ stack, P s) →
      ∀ s ∈ qs.foldl (push r) stack, P s := by
    intro qs
    induction qs with
    | nil => exact fun _ _ hs => hs
    | cons q qs ih =>
      intro stack hq hs
      exact ih _ (fun s h => hq s (List.mem_cons_of_mem _ h))
        (hpush hs (hq q List.mem_cons_self))
  intro q hq
  exact key parts [] h (fun _ h => nomatch h) q (List.mem_reverse.mp hq)

theorem plain_reduce {parts : List Part} (h : ∀ q ∈ parts, '/' ∉ q) :
    ∀ q ∈ reduce true parts, Plain q := forall_mem_reduce plain_push h

theorem proper_reduce (r : Bool) {parts : List Part} (h : ∀ q ∈ parts, '/' ∉ q) :
    ∀ q ∈ reduce r parts, Proper q := forall_mem_reduce (proper_push r) h

/-! ## Normal forms -/

/-- The path with given root slashes and components. -/
def rooted (root : Nat) (parts : List Part) : List Char :=
  List.replicate root '/' ++ joinSlash parts

theorem joinSlash_head {parts : List Part} (h : ∀ q ∈ parts, Proper q) :
    (joinSlash parts).head? ≠ some '/' := by
  cases parts with
  | nil => simp [joinSlash]
  | cons q qs =>
    obtain ⟨c, cs, rfl⟩ := List.exists_cons_of_ne_nil (h q List.mem_cons_self).ne_nil
    have hc : c ≠ '/' := fun e => (h _ List.mem_cons_self).noSlash (by simp [e])
    have hhead : (joinSlash ((c :: cs) :: qs)).head? = some c := by cases qs <;> rfl
    rw [hhead]
    simpa using hc

theorem rootSlashes_replicate {root : Nat} (hr : root ≤ 2) {cs : List Char}
    (h : cs.head? ≠ some '/') : rootSlashes (List.replicate root '/' ++ cs) = root := by
  have hcases : root = 0 ∨ root = 1 ∨ root = 2 := by omega
  cases cs with
  | nil => rcases hcases with rfl | rfl | rfl <;> rfl
  | cons c cs =>
    have hne : c ≠ '/' := by simpa using h
    rcases hcases with rfl | rfl | rfl <;> simp [List.replicate, rootSlashes, hne]

theorem rootSlashes_rooted {root : Nat} (hr : root ≤ 2) {parts : List Part}
    (h : ∀ q ∈ parts, Proper q) : rootSlashes (rooted root parts) = root :=
  rootSlashes_replicate hr (joinSlash_head h)

theorem rootSlashes_le (p : List Char) : rootSlashes p ≤ 2 := by
  unfold rootSlashes
  split <;> omega

theorem splitSlash_rooted (root : Nat) (parts : List Part) :
    splitSlash (rooted root parts) = List.replicate root [] ++ splitSlash (joinSlash parts) := by
  unfold rooted
  induction root with
  | zero => rfl
  | succ n ih => rw [List.replicate_succ, List.cons_append, splitSlash_cons_slash, ih]; rfl

theorem named_joinSlash {parts : List Part} (h : ∀ q ∈ parts, Proper q) :
    named (joinSlash parts) = parts := by
  unfold named
  cases parts with
  | nil => rfl
  | cons q qs =>
    rw [splitSlash_joinSlash (List.cons_ne_nil _ _) fun s hs => (h s hs).noSlash]
    exact List.filter_eq_self.mpr fun s hs => (h s hs).named

theorem named_rooted (root : Nat) {parts : List Part} (h : ∀ q ∈ parts, Proper q) :
    named (rooted root parts) = parts := by
  have hroot : (List.replicate root ([] : Part)).filter isNamed = [] := by
    rw [List.filter_eq_nil_iff]
    intro q hq
    rw [List.eq_of_mem_replicate hq]
    decide
  have hparts := named_joinSlash h
  unfold named at hparts ⊢
  rw [splitSlash_rooted, List.filter_append, hroot, List.nil_append, hparts]

theorem foldl_push_filter (r : Bool) (qs stack : List Part) :
    qs.foldl (push r) stack = (qs.filter isNamed).foldl (push r) stack := by
  induction qs generalizing stack with
  | nil => rfl
  | cons q qs ih =>
    rw [List.foldl_cons, ih]
    cases hq : isNamed q with
    | true => rw [List.filter_cons_of_pos hq, List.foldl_cons]
    | false => rw [List.filter_cons_of_neg (by simp [hq]), push_unnamed r stack hq]

theorem reduce_named (r : Bool) (p : List Char) : reduce r (named p) = reduce r (splitSlash p) := by
  unfold reduce named
  rw [← foldl_push_filter]

theorem reduce_plain (r : Bool) {parts : List Part} (h : ∀ q ∈ parts, Plain q) :
    reduce r parts = parts := by
  unfold reduce
  rw [foldl_push_plain r h]
  simp

theorem normalizeChars_rooted {p : List Char} (h : rootSlashes p ≠ 0) :
    normalizeChars p = rooted (rootSlashes p) (reduce true (named p)) := by
  have hb : (rootSlashes p != 0) = true := by simpa using h
  rw [reduce_named]
  unfold normalizeChars rooted
  simp only [hb]
  obtain ⟨n, hn⟩ := Nat.exists_eq_succ_of_ne_zero h
  rw [hn]
  rfl

/-- A path of plain components is normalised. -/
theorem normalizeChars_of_plain {root : Nat} (hr : root = 1 ∨ root = 2) {parts : List Part}
    (h : ∀ q ∈ parts, Plain q) : normalizeChars (rooted root parts) = rooted root parts := by
  have hproper : ∀ q ∈ parts, Proper q := fun q hq => (h q hq).toProper
  have hroot := @rootSlashes_rooted root (by omega) _ hproper
  rw [normalizeChars_rooted (by omega), hroot]
  rw [named_rooted root hproper, reduce_plain true h]

theorem ofString_normalize (p : String) :
    Tidy.ofString (normalize p) =
      ⟨rootSlashes p.toList, reduce (rootSlashes p.toList != 0) (splitSlash p.toList)⟩ := by
  have hproper := proper_reduce (rootSlashes p.toList != 0) fun q hq =>
    notMem_of_mem_splitSlash (p := p.toList) hq
  have hroot := rootSlashes_rooted (rootSlashes_le p.toList) hproper
  have hnamed := named_rooted (rootSlashes p.toList) hproper
  unfold rooted at hroot hnamed
  unfold Tidy.ofString normalize normalizeChars
  rw [String.toList_ofList]
  dsimp only
  split
  · next hempty =>
    rw [hempty] at hroot hnamed
    rw [← hnamed, ← hroot]
    rfl
  · rw [hroot, hnamed]

/-- A normalised path is tidy. -/
theorem tidy_normalize (p : String) : tidy (normalize p) = normalize p := by
  unfold tidy
  rw [ofString_normalize]
  unfold Tidy.toString normalize normalizeChars
  dsimp only
  split <;> rfl

/-- A path of plain components is absolute from any directory. -/
theorem absolute_rooted (workdir : String) {root : Nat} (hr : root = 1 ∨ root = 2)
    {parts : List Part} (h : ∀ q ∈ parts, Plain q) :
    absolute workdir (String.ofList (rooted root parts)) = String.ofList (rooted root parts) := by
  have hrooted : isRooted (rooted root parts) = true := by
    rcases hr with rfl | rfl <;> rfl
  unfold absolute normalize join joinChars
  rw [String.toList_ofList, String.toList_ofList, if_pos hrooted, normalizeChars_of_plain hr h]

theorem rootSlashes_of_isRooted {cs : List Char} (h : isRooted cs = true) :
    rootSlashes cs ≠ 0 := by
  cases cs with
  | nil => cases h
  | cons c cs =>
    have hc : c = '/' := by simpa [isRooted] using h
    subst hc
    unfold rootSlashes
    split <;> simp_all

theorem plain_reduce_named (p : List Char) : ∀ q ∈ reduce true (named p), Plain q :=
  plain_reduce fun _ hq => notMem_of_mem_splitSlash (List.mem_filter.mp hq).1

theorem normalize_of_isRooted {p : String} (h : isRooted p.toList = true) :
    normalize p = String.ofList (rooted (rootSlashes p.toList) (reduce true (named p.toList))) :=
  congrArg String.ofList (normalizeChars_rooted (rootSlashes_of_isRooted h))

theorem join_of_isRooted (base : String) {p : String} (h : isRooted p.toList = true) :
    join base p = p := by
  unfold join joinChars
  rw [if_pos h, String.ofList_toList]

/-- A rooted path has a normal form with one or two root slashes and plain components. -/
theorem exists_rooted_normalize {p : String} (h : isRooted p.toList = true) :
    ∃ root parts, (root = 1 ∨ root = 2) ∧ (∀ q ∈ parts, Plain q) ∧
      normalize p = String.ofList (rooted root parts) := by
  have hne := rootSlashes_of_isRooted h
  have hle := rootSlashes_le p.toList
  exact ⟨_, _, by omega, plain_reduce_named p.toList, normalize_of_isRooted h⟩

theorem rooted_inj {root root' : Nat} (hr : root ≤ 2) (hr' : root' ≤ 2) {parts parts' : List Part}
    (h : ∀ q ∈ parts, Proper q) (h' : ∀ q ∈ parts', Proper q) :
    rooted root parts = rooted root' parts' ↔ root = root' ∧ parts = parts' := by
  constructor
  · intro heq
    have hroot := congrArg rootSlashes heq
    have hparts := congrArg named heq
    rw [rootSlashes_rooted hr h, rootSlashes_rooted hr' h'] at hroot
    rw [named_rooted root h, named_rooted root' h'] at hparts
    exact ⟨hroot, hparts⟩
  · rintro ⟨rfl, rfl⟩
    rfl

theorem isRooted_join {base : String} (h : isRooted base.toList = true) (p : String) :
    isRooted (join base p).toList = true := by
  unfold join joinChars
  rw [String.toList_ofList]
  split
  · assumption
  · obtain ⟨cs, hcs⟩ : ∃ cs, base.toList = '/' :: cs :=
      List.head?_eq_some_iff.mp (beq_iff_eq.mp h)
    rw [hcs]
    split <;> rfl

theorem isRooted_rooted {root : Nat} (hr : 1 ≤ root) (parts : List Part) :
    isRooted (rooted root parts) = true := by
  obtain ⟨n, rfl⟩ := Nat.exists_eq_add_of_le' hr
  rfl

/-- A rooted path that is normalised has plain components. -/
theorem exists_plain_of_normal {p : List Char} (h : normalizeChars p = p)
    (hr : rootSlashes p ≠ 0) :
    ∃ parts, (∀ q ∈ parts, Plain q) ∧ p = rooted (rootSlashes p) parts :=
  ⟨reduce true (named p), plain_reduce_named p, h.symm.trans (normalizeChars_rooted hr)⟩

end Path

end DartModels
