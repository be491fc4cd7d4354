import DartModels.Syntax.TypeReader

/-!
# Stepping over expressions

An initial value or a statement is read only to find its end, so an expression is stepped over as
a row of operands and operators.  A new line ends it where the code before is complete and the code
after cannot go on.

* `Expression.skip`: what follows the expression at the start of trees.
* `Expression.skipFunction`: what follows a function after its keyword.
-/

namespace DartModels

namespace Syntax

namespace Expression

/-! ## Tokens -/

/-- Words before an operand. -/
def prefixWords : List String := ["typeof", "void", "delete", "await", "new", "yield"]

/-- Marks before an operand. -/
def prefixMarks : List String := ["+", "-", "!", "~", "++", "--", "...", "*"]

/-- Marks between two operands, angle brackets apart. -/
def binaryMarks : List String :=
  ["==", "===", "!=", "!==", "+", "-", "*", "/", "%", "**", "&", "&&", "|", "||", "^", "??", "=",
   "+=", "-=", "*=", "/=", "%=", "**=", "&=", "&&=", "|=", "||=", "^=", "??="]

/-- Words between two operands. -/
def binaryWords : List String := ["in", "instanceof"]

/-- Words between an operand and a type. -/
def castWords : List String := ["as", "satisfies"]

/-- The text of a token. -/
def textOf (t : Token) : String := String.ofList t.text

/-- The rest of an operator of angle brackets: marks without a blank before them. -/
def afterGlued : List Tree → List Tree
  | .leaf t :: rest =>
    if t.blank.isEmpty && (t.isMark "<" || t.isMark ">" || t.isMark "=" || t.isMark "==") then
      afterGlued rest
    else .leaf t :: rest
  | ts => ts

/-! ## Parts -/

/-- What follows the first group in curly brackets. -/
def afterBody : List Tree → List Tree
  | [] => []
  | .group opening content closing :: rest =>
    if opening.isMark "\x7b" then rest
    else if rest.isEmpty then [.group opening content closing] else afterBody rest
  | .leaf _ :: rest => afterBody rest

/-- What follows a result type, if one comes next. -/
def afterResult (line : Bool) (ts : List Tree) : List Tree :=
  match Tree.afterMark? ":" ts with
  | some after => (TypeReader.afterReturn? line after).getD ts
  | none => ts

/-- What follows a parameter list with the result type and the body after it, where they are. -/
def skipSignature (ts : List Tree) : List Tree :=
  match Tree.afterGroup? "(" (Tree.skipAngles ts) with
  | none => ts
  | some (_, rest) =>
    let rest := afterResult true rest
    match Tree.afterGroup? "\x7b" rest with
    | some (_, after) => after
    | none => rest

/-- What follows a function whose keyword came before. -/
def skipFunction (ts : List Tree) : List Tree :=
  let ts := (Tree.afterMark? "*" ts).getD ts
  let ts := ((Tree.nextWord? ts).map (·.2)).getD ts
  skipSignature ts

/-- Whether trees start with a result type and an arrow. -/
def arrowAfterResult? (ts : List Tree) : Option (List Tree) := do
  let after ← Tree.afterMark? ":" ts
  let rest ← TypeReader.afterReturn? false after
  if TypeReader.isArrow rest then some rest else none

/-- What follows type arguments of an expression, if they come next and are no comparison. -/
def afterTypeArguments? (ts : List Tree) : Option (List Tree) := do
  let (_, rest) ← TypeReader.arguments? ts
  match Tree.skipComments rest with
  | [] => some rest
  | .group opening _ _ :: _ => if opening.isMark "[" then none else some rest
  | .leaf t :: _ =>
    if t.kind == .template || t.opensLine then some rest
    else if t.kind == .punctuation && !prefixMarks.contains (textOf t) && !t.isMark "<" then
      some rest
    else none

/-! ## Expressions -/

/-- Steps over an expression.  The first flag tells that an operand comes next, `commaEnds` that a
comma ends the expression, and `conditions` counts the conditions whose second branch is to
come. -/
def skipFrom : Nat → Bool → Bool → Nat → List Tree → List Tree
  | 0, _, _, _, ts => ts
  | fuel + 1, true, commaEnds, conditions, ts =>
    match Tree.skipComments ts with
    | [] => []
    | .leaf t :: rest =>
      let text := textOf t
      match t.kind with
      | .word =>
        if prefixWords.contains text then skipFrom fuel true commaEnds conditions rest
        else if text = "function" then skipFrom fuel false commaEnds conditions (skipFunction rest)
        else if text = "async" && !Tree.opensLine rest && (Tree.nextWord? rest).isSome then
          skipFrom fuel true commaEnds conditions rest
        else if text = "class" then skipFrom fuel false commaEnds conditions (afterBody rest)
        else skipFrom fuel false commaEnds conditions rest
      | .punctuation =>
        if prefixMarks.contains text || text = "." then skipFrom fuel true commaEnds conditions rest
        else if text = "<" then
          match Tree.afterAngles 0 rest with
          | some after => skipFrom fuel true commaEnds conditions after
          | none => ts
        else if text = "@" then skipFrom fuel false commaEnds conditions (afterBody rest)
        else ts
      | _ => skipFrom fuel false commaEnds conditions rest
    | .group _ _ _ :: rest => skipFrom fuel false commaEnds conditions rest
  | fuel + 1, false, commaEnds, conditions, ts =>
    let line := Tree.opensLine ts
    match Tree.skipComments ts with
    | [] => []
    | .group opening _ _ :: rest =>
      if opening.isMark "\x7b" then ts else skipFrom fuel false commaEnds conditions rest
    | .leaf t :: rest =>
      let text := textOf t
      match t.kind with
      | .template => skipFrom fuel false commaEnds conditions rest
      | .word =>
        if binaryWords.contains text then skipFrom fuel true commaEnds conditions rest
        else if castWords.contains text && !line then
          match TypeReader.read? true (Tree.skipComments rest) with
          | some (_, after) => skipFrom fuel false commaEnds conditions after
          | none => ts
        else ts
      | .punctuation =>
        if text = "," then if commaEnds then ts else skipFrom fuel true commaEnds conditions rest
        else if text = "." || text = "?." then
          match Tree.nextWord? rest with
          | some (_, after) => skipFrom fuel false commaEnds conditions after
          | none => skipFrom fuel false commaEnds conditions rest
        else if text = "!" || text = "++" || text = "--" then
          if line then ts else skipFrom fuel false commaEnds conditions rest
        else if text = "<" then
          match afterTypeArguments? ts with
          | some after => skipFrom fuel false commaEnds conditions after
          | none => skipFrom fuel true commaEnds conditions (afterGlued rest)
        else if text = ">" then skipFrom fuel true commaEnds conditions (afterGlued rest)
        else if text = "?" then skipFrom fuel true commaEnds (conditions + 1) rest
        else if text = ":" then
          match conditions with
          | o + 1 => skipFrom fuel true commaEnds o rest
          | 0 =>
            match arrowAfterResult? ts with
            | some after => skipFrom fuel false commaEnds conditions after
            | none => ts
        else if text = "=>" then
          match Tree.afterGroup? "\x7b" rest with
          | some (_, after) => skipFrom fuel false commaEnds conditions after
          | none => skipFrom fuel true commaEnds conditions rest
        else if binaryMarks.contains text then skipFrom fuel true commaEnds conditions rest
        else ts
      | _ => ts

/-- What follows the expression at the start of trees. -/
def skip (commaEnds : Bool) (ts : List Tree) : List Tree :=
  skipFrom (2 * Tree.listSize ts + 2) true commaEnds 0 ts

end Expression

end Syntax

end DartModels
