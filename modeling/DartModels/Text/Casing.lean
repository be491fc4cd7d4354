/-!
# Words and casings

A name consists of words of ASCII letters and digits.  A word is an acronym (`HTTP` in
`HTTPServer`), a capitalised or lower-case word, or a run of digits; all other characters only
separate.

* `wordAt`: the word at the start of a text, empty if there is none.
* `words`: all words of a text.
* `Casing.apply`: a name written in one of the four casings.
-/

namespace DartModels

/-! ## Words -/

/-- The word at the start of a text.  A run of capitals before a lower-case letter gives its last
capital to the word that follows. -/
def wordAt (cs : List Char) : List Char :=
  let capitals := cs.takeWhile Char.isUpper
  let after := cs.dropWhile Char.isUpper
  let small := after.takeWhile Char.isLower
  match capitals, small with
  | [], [] => cs.takeWhile Char.isDigit
  | [], _ => small
  | _, [] => capitals
  | [c], _ => c :: small
  | _, _ => capitals.dropLast

/-- The words of a text, from left to right. -/
def words : List Char → List (List Char)
  | [] => []
  | c :: rest =>
    match wordAt (c :: rest) with
    | [] => words rest
    | w => w :: words (rest.drop (w.length - 1))
termination_by cs => cs.length
decreasing_by all_goals simp_wf; try omega

/-- The words of a name. -/
def splitWords (name : String) : List String := (words name.toList).map String.ofList

/-! ## Casings -/

/-- How the words of a name are joined. -/
inductive Casing where
  | pascal
  | camel
  | kebab
  | snake
  deriving DecidableEq, Inhabited

namespace Casing

/-- All casings, in the order in which a name format lists them. -/
def all : List Casing := [.pascal, .camel, .kebab, .snake]

/-- The name of a casing in a name format. -/
def name : Casing → String
  | .pascal => "pascal"
  | .camel => "camel"
  | .kebab => "kebab"
  | .snake => "snake"

/-- The casing with a name. -/
def ofName? (s : String) : Option Casing := all.find? fun c => c.name == s

end Casing

/-- A word with a capital first letter and small letters after it. -/
def capitalize : List Char → List Char
  | [] => []
  | c :: rest => c.toUpper :: rest.map Char.toLower

/-- A text with a small first letter. -/
def uncapitalize : List Char → List Char
  | [] => []
  | c :: rest => c.toLower :: rest

/-- Words in small letters with a character between them. -/
def joinLower (separator : Char) (ws : List (List Char)) : List Char :=
  [separator].intercalate (ws.map (·.map Char.toLower))

namespace Casing

/-- Words joined in a casing. -/
def join : Casing → List (List Char) → List Char
  | .pascal, ws => (ws.map capitalize).flatten
  | .camel, ws => uncapitalize (ws.map capitalize).flatten
  | .kebab, ws => joinLower '-' ws
  | .snake, ws => joinLower '_' ws

/-- A text written in a casing. -/
def applyList (c : Casing) (cs : List Char) : List Char := c.join (words cs)

/-- A name written in a casing. -/
def apply (c : Casing) (name : String) : String := String.ofList (c.applyList name.toList)

end Casing

end DartModels
