import DartModels.Error
import DartModels.Text.Blank
import DartModels.Text.Split
import DartModels.Text.WordChar

/-!
# Checking generated code

A generated text has to declare a class, and its braces outside of line comments have to match in
number.

* `Dart.declaresClass`: whether some line starts a class declaration.
* `Dart.withoutComments`: the text without the comments that start a line.
* `Dart.validate`: both checks, the missing class reported first.
-/

namespace DartModels

namespace Dart

/-! ## Class declarations -/

/-- What follows a word at the start of a text. -/
def afterWord? (word : String) (cs : List Char) : Option (List Char) :=
  if word.toList.isPrefixOf cs then some (cs.drop word.length) else none

/-- What follows one or more blanks at the start of a text. -/
def afterBlanks? (cs : List Char) : Option (List Char) :=
  let rest := cs.dropWhile isBlank
  if rest.length < cs.length then some rest else none

/-- Whether a text starts with `class`, blanks and a word character. -/
def startsClass (cs : List Char) : Bool :=
  match (afterWord? "class" cs).bind afterBlanks? with
  | some (c :: _) => isWordChar c
  | _ => false

/-- Whether a text starts with a class declaration after blanks, `abstract` or not. -/
def startsDeclaration (cs : List Char) : Bool :=
  let body := cs.dropWhile isBlank
  startsClass body ||
    match (afterWord? "abstract" body).bind afterBlanks? with
    | some rest => startsClass rest
    | none => false

/-- Whether a class declaration starts at the start of a line. -/
def declaresClassFrom : Bool → List Char → Bool
  | lineStart, cs =>
    (lineStart && startsDeclaration cs) ||
      match cs with
      | [] => false
      | c :: rest => declaresClassFrom (c == '\n') rest
termination_by structural _ cs => cs

/-- Whether a text declares a class. -/
def declaresClass (cs : List Char) : Bool := declaresClassFrom true cs

/-! ## Comments -/

/-- What follows the comment at the start of a line: blanks, line ends included, then `//` and the
rest of its line. -/
def afterComment? (cs : List Char) : Option (List Char) :=
  match cs.dropWhile isBlank with
  | '/' :: '/' :: rest => some (rest.dropWhile (· != '\n'))
  | _ => none

/-- A text without the comments that start a line, with one unit of fuel a step. -/
def withoutCommentsFrom : Nat → Bool → List Char → List Char
  | 0, _, cs => cs
  | _, _, [] => []
  | fuel + 1, lineStart, c :: rest =>
    match if lineStart then afterComment? (c :: rest) else none with
    | some after => withoutCommentsFrom fuel false after
    | none => c :: withoutCommentsFrom fuel (c == '\n') rest

/-- A text without the comments that start a line. -/
def withoutComments (cs : List Char) : List Char := withoutCommentsFrom cs.length true cs

/-! ## Both checks -/

/-- Checks a generated text. -/
def validate (content : String) : Except Error Unit :=
  let cs := content.toList
  if !declaresClass cs then .error .noClassDeclaration
  else
    let code := withoutComments cs
    let opened := code.count '{'
    let closed := code.count '}'
    if opened = closed then .ok () else .error (.unbalancedBraces opened closed)

end Dart

end DartModels
