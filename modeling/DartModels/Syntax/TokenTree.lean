import DartModels.Syntax.Token

/-!
# Token trees

Tokens are grouped by round, square and curly brackets, so that a reader steps over a whole body or
argument list at once.

* `Tree.ofTokens`: the trees of a token list.
* `Tree.written`: the text of trees, as the source has it.
-/

namespace DartModels

namespace Syntax

/-- A token, or what stands between two brackets. -/
inductive Tree where
  | leaf (t : Token)
  | group (opening : Token) (content : List Tree) (closing : Option Token)
  deriving Inhabited

namespace Tree

/-! ## Grouping -/

/-- Whether a token opens a group. -/
def opens (t : Token) : Bool := t.isMark "(" || t.isMark "[" || t.isMark "\x7b"

/-- Whether a token closes a group. -/
def closes (t : Token) : Bool := t.isMark ")" || t.isMark "]" || t.isMark "\x7d"

/-- The groups that are open: each opening token with the trees before it, the last one first. -/
abbrev Open := List (Token × List Tree)

/-- Closes all open groups at the end of the tokens. -/
def closeAll : Open → List Tree → List Tree
  | [], trees => trees.reverse
  | (opening, before) :: rest, trees =>
    closeAll rest (.group opening trees.reverse none :: before)

/-- Groups tokens, the trees of the innermost open group in reverse. -/
def build : Open → List Tree → List Token → List Tree
  | groups, trees, [] => closeAll groups trees
  | groups, trees, t :: rest =>
    if opens t then build ((t, trees) :: groups) [] rest
    else if closes t then
      match groups with
      | [] => build [] (.leaf t :: trees) rest
      | (opening, before) :: groups =>
        build groups (.group opening trees.reverse (some t) :: before) rest
    else build groups (.leaf t :: trees) rest

/-- The trees of a token list. -/
def ofTokens (ts : List Token) : List Tree := build [] [] ts

/-! ## Text -/

/-- A token with the blanks before it. -/
def tokenText (t : Token) : List Char := t.blank ++ t.text

mutual

/-- The text of a tree with the blanks before it. -/
def chars : Tree → List Char
  | .leaf t => tokenText t
  | .group opening content closing =>
    tokenText opening ++ listChars content ++ (closing.map tokenText).getD []

/-- The text of trees with the blanks before them. -/
def listChars : List Tree → List Char
  | [] => []
  | t :: rest => chars t ++ listChars rest

end

mutual

/-- The number of tokens in a tree. -/
def size : Tree → Nat
  | .leaf _ => 1
  | .group _ content _ => 2 + listSize content

/-- The number of tokens in trees. -/
def listSize : List Tree → Nat
  | [] => 0
  | t :: rest => size t + listSize rest

end

/-- The first token of a tree. -/
def first : Tree → Token
  | .leaf t => t
  | .group opening _ _ => opening

/-- The text of trees without the blanks before the first one. -/
def written (ts : List Tree) : String :=
  match ts with
  | [] => ""
  | t :: _ => String.ofList ((listChars ts).drop t.first.blank.length)

/-! ## Looking at the next tree -/

/-- Whether a tree is a comment. -/
def isComment : Tree → Bool
  | .leaf t => t.kind == .comment
  | .group _ _ _ => false

/-- The comments that come first. -/
def comments (ts : List Tree) : List Tree := ts.takeWhile isComment

/-- What follows the comments that come first. -/
def skipComments (ts : List Tree) : List Tree := ts.dropWhile isComment

/-- Whether the next tree that is no comment is on a later line. -/
def opensLine (ts : List Tree) : Bool :=
  ((comments ts).any fun t => t.first.opensLine) ||
    match skipComments ts with
    | t :: _ => t.first.opensLine
    | [] => false

/-- What follows a word, if it comes next. -/
def afterWord? (w : String) (ts : List Tree) : Option (List Tree) :=
  match skipComments ts with
  | .leaf t :: rest => if t.isWord w then some rest else none
  | _ => none

/-- What follows a mark, if it comes next. -/
def afterMark? (m : String) (ts : List Tree) : Option (List Tree) :=
  match skipComments ts with
  | .leaf t :: rest => if t.isMark m then some rest else none
  | _ => none

/-- The content of a group with a given opening bracket, if it comes next, and what follows it. -/
def afterGroup? (bracket : String) (ts : List Tree) : Option (List Tree × List Tree) :=
  match skipComments ts with
  | .group opening content _ :: rest =>
    if opening.isMark bracket then some (content, rest) else none
  | _ => none

/-- The next token that is no comment, if it is no bracket. -/
def nextToken? (ts : List Tree) : Option Token :=
  match skipComments ts with
  | .leaf t :: _ => some t
  | _ => none

/-- The next word with what follows it. -/
def nextWord? (ts : List Tree) : Option (String × List Tree) :=
  match skipComments ts with
  | .leaf t :: rest => if t.kind == .word then some (String.ofList t.text, rest) else none
  | _ => none

/-- Whether nothing but comments is left. -/
def isDone (ts : List Tree) : Bool := (skipComments ts).isEmpty

/-- Steps over trees between angle brackets whose opening one came before, `depth` more being
open. -/
def afterAngles : Nat → List Tree → Option (List Tree)
  | _, [] => none
  | depth, .leaf t :: rest =>
    if t.isMark ">" then
      match depth with
      | 0 => some rest
      | d + 1 => afterAngles d rest
    else afterAngles (if t.isMark "<" then depth + 1 else depth) rest
  | depth, .group _ _ _ :: rest => afterAngles depth rest

/-- Steps over angle brackets and what stands between them, if they come next. -/
def skipAngles (ts : List Tree) : List Tree :=
  match (afterMark? "<" ts).bind (afterAngles 0) with
  | some rest => rest
  | none => ts

end Tree

end Syntax

end DartModels
