import DartModels.Text.CharRanges

/-!
# Blank characters

The characters that count as white space in text: Unicode white space together with the four
information separators.

* `isBlank_of_isWhitespace`: every ASCII blank of the core library is one.
-/

namespace DartModels

/-- The ranges of white space. -/
def blankRanges : CharRanges := [
  (9, 13), (28, 32), (133, 133), (160, 160), (5760, 5760), (8192, 8202), (8232, 8233),
  (8239, 8239), (8287, 8287), (12288, 12288)]

/-- Whether a character is white space. -/
def isBlank (c : Char) : Bool := blankRanges.contains c

theorem isBlank_of_isWhitespace (c : Char) (h : c.isWhitespace = true) : isBlank c = true := by
  simp only [Char.isWhitespace, Bool.or_eq_true, decide_eq_true_eq] at h
  rcases h with ((h | h) | h) | h <;> subst h <;> decide

end DartModels
