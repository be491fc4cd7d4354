import DartModels.Syntax.ModuleReader
import DartModels.Syntax.Reader

/-!
# The reader of the program

Reads a source by its tokens.  It goes on over what it does not know, and tells no errors.  Each step
of reading makes no more items than it is given: tokens, trees, statements.

    (ModuleReader.read text).classes.length ≤ text.length + 1                  (length_classes_read)
-/

namespace DartModels

namespace Syntax

/-! ## Tokens and trees -/

theorem length_withoutInterpreterLine (cs : List Char) :
    (withoutInterpreterLine cs).length ≤ cs.length := by
  have hline (l : List Char) : (afterLine l).length ≤ l.length :=
    (List.dropWhile_suffix _).length_le
  unfold withoutInterpreterLine
  split
  · next rest =>
    have := hline rest
    simp only [List.length_cons]
    omega
  · next rest =>
    have := hline rest
    simp only [List.length_cons]
    omega
  · exact Nat.le_refl _

theorem length_tokensFrom (fuel : Nat) (previous : Option Token) (cs : List Char) :
    (tokensFrom fuel previous cs).length ≤ fuel := by
  induction fuel generalizing previous cs with
  | zero => simp [tokensFrom]
  | succ fuel ih =>
    rw [tokensFrom]
    split
    · simp
    · rw [List.length_cons]
      exact Nat.succ_le_succ (ih _ _)

theorem length_tokens (source : List Char) : (tokens source).length ≤ source.length + 1 := by
  have h := length_tokensFrom ((withoutInterpreterLine source).length + 1) none
    (withoutInterpreterLine source)
  have := length_withoutInterpreterLine source
  unfold tokens
  dsimp only
  omega

namespace Tree

/-- The trees before the open groups and the groups themselves. -/
def pending (groups : Open) : Nat := groups.foldr (fun g n => g.2.length + 1 + n) 0

theorem length_closeAll (groups : Open) (trees : List Tree) :
    (closeAll groups trees).length ≤ pending groups + trees.length := by
  induction groups generalizing trees with
  | nil => simp [closeAll, pending]
  | cons g groups ih =>
    obtain ⟨opening, before⟩ := g
    have := ih (.group opening trees.reverse none :: before)
    rw [closeAll]
    simp only [pending, List.foldr_cons, List.length_cons] at this ⊢
    omega

theorem length_build (groups : Open) (trees : List Tree) (ts : List Token) :
    (build groups trees ts).length ≤ pending groups + trees.length + ts.length := by
  fun_induction build groups trees ts with
  | case1 groups trees => simpa using length_closeAll groups trees
  | case2 groups trees t rest _ ih =>
    simp only [pending, List.foldr_cons, List.length_cons, List.length_nil] at ih ⊢
    omega
  | case3 trees t rest _ _ ih =>
    simp only [List.length_cons] at ih ⊢
    omega
  | case4 trees t rest _ _ opening before groups ih =>
    simp only [pending, List.foldr_cons, List.length_cons] at ih ⊢
    omega
  | case5 groups trees t rest _ _ ih =>
    simp only [List.length_cons] at ih ⊢
    omega

theorem length_ofTokens (ts : List Token) : (ofTokens ts).length ≤ ts.length := by
  have := length_build [] [] ts
  simpa [pending, ofTokens] using this

end Tree

/-! ## Statements -/

namespace ModuleReader

theorem length_readStatements (fuel depth : Nat) (ts : List Tree) :
    (readStatements fuel depth ts).length ≤ ts.length := by
  induction fuel generalizing ts with
  | zero => simp [readStatements]
  | succ fuel ih =>
    have hskip : (Tree.skipComments ts).length ≤ ts.length :=
      (List.dropWhile_suffix _).length_le
    rw [readStatements]
    split
    · simp
    · next t rest hts =>
      rw [hts, List.length_cons] at hskip
      rw [List.length_cons]
      refine Nat.le_trans (Nat.succ_le_succ (ih _)) ?_
      split <;> omega

theorem length_read (source : List Char) :
    (read source).children.length ≤ source.length + 1 := by
  have htokens := length_tokens source
  have htrees := Tree.length_ofTokens (tokens source)
  have hread := length_readStatements ((Tree.ofTokens (tokens source)).length + 1)
    (3 * (Tree.ofTokens (tokens source)).length + 6) (Tree.ofTokens (tokens source))
  show (readStatements _ _ _).length ≤ _
  omega

theorem length_classes_read (source : List Char) :
    (read source).classes.length ≤ source.length + 1 :=
  calc (read source).classes.length
    _ ≤ (read source).children.zipIdx.length := List.length_filterMap_le _ _
    _ = (read source).children.length := List.length_zipIdx
    _ ≤ source.length + 1 := length_read source

end ModuleReader

/-- The reader of sources by their tokens. -/
def textReader : Reader where
  read := ModuleReader.read
  hasError := fun _ => false
  classBound := fun text => text.length + 1
  length_classes_le := ModuleReader.length_classes_read

end Syntax

end DartModels
