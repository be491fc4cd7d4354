/-!
# Splitting text

* `splitAtChar`: the parts of a text between the occurrences of a character, empty ones included.
* `splitAtChar_ne_nil`: there is always a part.
* `splitAtChar_append`: what stands before an occurrence is split by itself.
-/

namespace DartModels

/-- The parts of a text between the occurrences of a character. -/
def splitAtChar (sep : Char) : List Char → List (List Char)
  | [] => [[]]
  | c :: cs =>
    if c = sep then [] :: splitAtChar sep cs
    else
      match splitAtChar sep cs with
      | [] => [[c]]
      | p :: ps => (c :: p) :: ps

theorem splitAtChar_ne_nil (sep : Char) (cs : List Char) : splitAtChar sep cs ≠ [] := by
  cases cs with
  | nil => simp [splitAtChar]
  | cons c cs =>
    unfold splitAtChar
    split
    · simp
    · split <;> simp

theorem splitAtChar_append (sep : Char) (a b : List Char) :
    splitAtChar sep (a ++ sep :: b) = splitAtChar sep a ++ splitAtChar sep b := by
  induction a with
  | nil => simp [splitAtChar]
  | cons c a ih =>
    rw [List.cons_append]
    by_cases hc : c = sep
    · simp [splitAtChar, hc, ih]
    · rw [splitAtChar, splitAtChar, if_neg hc, if_neg hc, ih]
      cases ha : splitAtChar sep a with
      | nil => exact absurd ha (splitAtChar_ne_nil _ _)
      | cons q qs => rfl

theorem splitAtChar_of_notMem {sep : Char} {cs : List Char} (h : sep ∉ cs) :
    splitAtChar sep cs = [cs] := by
  induction cs with
  | nil => rfl
  | cons c cs ih =>
    have hc : c ≠ sep := fun e => h (by simp [e])
    rw [splitAtChar, if_neg hc, ih fun hm => h (List.mem_cons_of_mem _ hm)]

end DartModels
