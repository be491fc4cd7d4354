import DartModels.Proofs.NormalPath
import DartModels.FileSystem

/-!
# Discovery

The files below a directory are found by a pattern, and only a path that is too long to be looked at
ends the search.

    no star → the pattern can be read                                             (readPattern_star)
    a search fails because of a path that is too long, if at all                      (tooLong_glob)
-/

namespace DartModels

/-- The refusal of a path that is too long. -/
def Error.TooLong (e : Error) : Prop := ∃ path, e = .os .nameTooLong path

namespace FileSystem

variable {fs : FileSystem} {dir : Path.Tidy}

/-! ## Patterns -/

theorem hasDoubleStar_of_notMem {p : List Char} (h : '*' ∉ p) : hasDoubleStar p = false := by
  induction p with
  | nil => rfl
  | cons c p ih =>
    have hc : c ≠ '*' := fun e => h (e ▸ List.mem_cons_self)
    rw [hasDoubleStar.eq_def]
    split
    · next heq => exact absurd (List.cons.inj heq).1 hc
    · next heq =>
      obtain ⟨-, rfl⟩ := List.cons.inj heq
      exact ih fun hm => h (List.mem_cons_of_mem _ hm)
    · rfl

theorem hasDoubleStar_cons_star {p : List Char} (h : '*' ∉ p) : hasDoubleStar ('*' :: p) = false := by
  cases p with
  | nil => rfl
  | cons c p =>
    have hc : c ≠ '*' := fun e => h (e ▸ List.mem_cons_self)
    rw [hasDoubleStar.eq_def]
    split
    · next heq => exact absurd (List.cons.inj (List.cons.inj heq).2).1 hc
    · next heq =>
      obtain ⟨-, rfl⟩ := List.cons.inj heq
      exact hasDoubleStar_of_notMem h
    · next heq => cases heq

theorem exists_readPart {q : Path.Part} (h : hasDoubleStar q = false) :
    ∃ part, readPart q = .ok part := by
  have hne : q ≠ ['*', '*'] := by
    rintro rfl
    cases h
  unfold readPart
  rw [if_neg hne, if_neg (by rw [h]; exact Bool.false_ne_true)]
  split <;> exact ⟨_, rfl⟩

/-- A star before a text without stars is a pattern. -/
theorem readPattern_star {ext : String} (h : '*' ∉ ext.toList) :
    ∃ parts, readPattern ("*" ++ ext) = .ok parts := by
  obtain ⟨first, rest, hsplit⟩ := List.exists_cons_of_ne_nil (splitAtChar_ne_nil '/' ext.toList)
  have hstar : Path.splitSlash ("*" ++ ext).toList = ('*' :: first) :: rest := by
    rw [String.toList_append]
    show splitAtChar '/' ('*' :: ext.toList) = _
    rw [splitAtChar, if_neg (by decide), hsplit]
  have hparts : ∀ q ∈ first :: rest, '*' ∉ q := by
    intro q hq hmem
    have hmem' : q ∈ Path.splitSlash ext.toList := by
      rw [Path.splitSlash, hsplit]
      exact hq
    exact h (Path.mem_of_mem_splitSlash hmem' hmem)
  refine exists_mapM_eq_ok.mpr fun q hq => exists_readPart ?_
  rw [Path.named, hstar] at hq
  rcases List.mem_cons.mp (List.mem_filter.mp hq).1 with rfl | hq
  · exact hasDoubleStar_cons_star (hparts first List.mem_cons_self)
  · exact hasDoubleStar_of_notMem (hparts q (List.mem_cons_of_mem _ hq))

/-! ## Searches -/

theorem tooLong_look (way : List Path.Part) : OnlyErrors Error.TooLong (fs.look dir way) := by
  unfold look
  dsimp only
  split
  · exact OnlyErrors.ok _
  · split
    · exact OnlyErrors.ok _
    · exact OnlyErrors.error ⟨_, rfl⟩
    · exact OnlyErrors.ok _

/-- What is seen at the end of a way is there, and its path holds no NUL. -/
theorem stat_of_look {way : List Path.Part} {entry : Entry}
    (h : fs.look dir way = .ok (some entry)) :
    hasNul (dir.down way).toString = false ∧ fs.stat (dir.down way).toString = .ok entry := by
  unfold look at h
  dsimp only at h
  split at h
  · cases h
  · next hnul =>
    split at h
    · next found hstat =>
      cases h
      exact ⟨Bool.not_eq_true _ ▸ hnul, hstat⟩
    · cases h
    · cases h

theorem tooLong_select (parts : List PatternPart) (here : Location) (way : List Path.Part) :
    OnlyErrors Error.TooLong (fs.select dir parts here way) := by
  induction parts generalizing here way with
  | nil => exact OnlyErrors.ok _
  | cons part parts ih =>
    cases part with
    | recursive =>
      refine OnlyErrors.bind (OnlyErrors.mapM (fun down => ?_) _) fun _ => OnlyErrors.ok _
      exact OnlyErrors.bind (tooLong_look _) fun _ => ih _ _
    | pattern items =>
      refine OnlyErrors.bind (tooLong_look _) fun _ => ?_
      exact OnlyErrors.bind (OnlyErrors.mapM (fun name => ih _ _) _) fun _ => OnlyErrors.ok _
    | fixed name =>
      refine OnlyErrors.bind (tooLong_look _) fun entry => ?_
      split
      · exact ih _ _
      · split <;> exact OnlyErrors.ok _
      · exact OnlyErrors.ok _

theorem locate_of_look {entry : Entry} (h : fs.look dir [] = .ok (some entry)) :
    ∃ here, fs.locate dir.toString = .ok here := by
  obtain ⟨-, hstat⟩ := stat_of_look h
  unfold Path.Tidy.down at hstat
  rw [List.append_nil] at hstat
  obtain ⟨here, hlocate, -⟩ := exists_of_bind_eq_ok hstat
  exact ⟨here, hlocate⟩

/-- A search fails because of a path that is too long, if at all. -/
theorem tooLong_glob {start pattern : String} {parts : List PatternPart}
    (h : readPattern pattern = .ok parts) :
    OnlyErrors Error.TooLong (fs.glob start pattern) := by
  unfold glob
  rw [h, ok_bind]
  dsimp only
  cases hlook : fs.look (Path.Tidy.ofString start) [] with
  | error e => exact OnlyErrors.error (tooLong_look [] e hlook)
  | ok entry =>
    rw [ok_bind]
    split
    · obtain ⟨here, hhere⟩ := locate_of_look hlook
      have hstart : (fs.locate (Path.Tidy.ofString start).toString).mapError (Error.os · start) =
          .ok here := by
        rw [hhere]
        rfl
      rw [hstart, ok_bind]
      refine OnlyErrors.bind (tooLong_select _ _ _) fun ways => ?_
      split
      · exact OnlyErrors.ok _
      · refine OnlyErrors.bind (OnlyErrors.mapM (fun way => ?_) _) fun _ => OnlyErrors.ok _
        exact OnlyErrors.bind (tooLong_look _) fun _ => OnlyErrors.ok _
    · exact OnlyErrors.ok _

end FileSystem

end DartModels
