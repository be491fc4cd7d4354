/-!
# Similarity of texts

Two texts are compared by the characters they share: the longest common run, and then the same to
its left and to its right.  The similarity is twice their number by the sum of the lengths.

* `Similarity.common`: the number of shared characters.
* `Similarity.closest`: the candidates most similar to a text.
-/

namespace DartModels

namespace Similarity

/-- A common run of two texts: where it starts in each, and its length. -/
structure Run where
  left : Nat
  right : Nat
  size : Nat
  deriving DecidableEq, Inhabited

/-- The length of the common beginning of two texts. -/
def agreement : List Char → List Char → Nat
  | a :: as, b :: bs => if a = b then agreement as bs + 1 else 0
  | _, _ => 0

/-- The longest common run, the first of several in the first text and then in the second. -/
def longestRun (a b : List Char) : Run :=
  (List.range a.length).foldl (fun best i =>
    (List.range b.length).foldl (fun best j =>
      let size := agreement (a.drop i) (b.drop j)
      if best.size < size then ⟨i, j, size⟩ else best) best) ⟨0, 0, 0⟩

/-- The number of characters that two texts share. -/
def common (a b : List Char) : Nat :=
  match longestRun a b with
  | ⟨i, j, size⟩ =>
    if i < a.length ∧ 0 < size then
      common (a.take i) (b.take j) + size + common (a.drop (i + size)) (b.drop (j + size))
    else 0
termination_by a.length
decreasing_by
  all_goals simp only [List.length_take, List.length_drop]
  all_goals omega

/-- The similarity of a candidate to a text as a fraction. -/
structure Score where
  shared : Nat
  total : Nat
  candidate : String
  deriving Inhabited

/-- The similarity of a candidate to a text. -/
def score (text candidate : String) : Score :=
  ⟨2 * common candidate.toList text.toList, candidate.length + text.length, candidate⟩

/-- Whether a candidate is similar enough to be meant: three fifths or more. -/
def Score.suffices (s : Score) : Bool := 3 * s.total ≤ 5 * s.shared

/-- Whether a candidate comes before another: the more similar first, then the later in order. -/
def Score.precedes (s t : Score) : Bool :=
  let (x, y) := (s.shared * t.total, t.shared * s.total)
  y < x || (x == y && !decide (s.candidate < t.candidate))

/-- The at most `count` candidates most similar to a text, in order. -/
def closest (count : Nat) (text : String) (candidates : List String) : List String :=
  let scores := (candidates.map (score text)).filter (·.suffices)
  (((scores.mergeSort Score.precedes).take count).map (·.candidate)).mergeSort
    fun a b => !decide (b < a)

end Similarity

end DartModels
