import DartModels.Text.Blank

/-!
# Tokens of TypeScript

A source is cut into tokens, each with the blanks before it.  A comment is a token, and so is a
whole template with all that stands in its holes, which are themselves read token by token.  A slash
starts a regular expression where no operand came before it.

* `lexeme`: the token at the start of a text.
* `tokens`: the tokens of a source.
-/

namespace DartModels

namespace Syntax

/-! ## Character classes -/

/-- Whether a character only separates tokens. -/
def isLayout (c : Char) : Bool :=
  (isBlank c && !(28 ≤ c.toNat && c.toNat ≤ 31)) ||
    c == '\uFEFF' || c == '\u2060' || c == '\u200B'

/-- The characters that end a name. -/
def nameEnds : String := ":;\x60\"'@#.,|^&<=>+-*/\\%?!~()[]\x7b\x7d"

/-- Whether a character may stand in a name. -/
def isNameChar (c : Char) : Bool :=
  if c.isAlphanum || c == '_' || c == '$' then true
  else 32 ≤ c.toNat && !isLayout c && !nameEnds.contains c

/-- Whether a character may start a name. -/
def isNameStart (c : Char) : Bool := isNameChar c && !c.isDigit

/-- Whether a character ends a line of code. -/
def isLineEnd (c : Char) : Bool := c == '\n' || c == '\u2028' || c == '\u2029'

/-! ## Tokens -/

/-- The kind of a token. -/
inductive TokenKind where
  | word
  | number
  | string
  | template
  | regex
  | punctuation
  | comment
  deriving DecidableEq, Inhabited

/-- A token with the blanks before it. -/
structure Token where
  blank : List Char
  text : List Char
  kind : TokenKind
  deriving DecidableEq, Inhabited

/-- Whether a token starts on a later line than the one before it ends. -/
def Token.opensLine (t : Token) : Bool := t.blank.contains '\n'

/-- Whether a token is a word with a given text. -/
def Token.isWord (t : Token) (w : String) : Bool := t.kind == .word && String.ofList t.text == w

/-- Whether a token is a mark with a given text. -/
def Token.isMark (t : Token) (m : String) : Bool := t.kind == .punctuation && String.ofList t.text == m

/-! ## Names and numbers -/

/-- What follows the name at the start of a text.  A name may hold numbered escapes. -/
def afterName : List Char → List Char
  | '\\' :: 'u' :: rest => afterName rest
  | c :: rest => if isNameChar c then afterName rest else c :: rest
  | [] => []

/-- Whether a character may stand in the digits of a number. -/
def isNumeral (c : Char) : Bool := c.isAlphanum || c == '_'

/-- What follows the digits at the start of a text, with the sign of an exponent. -/
def afterDigits (signed : Bool) : List Char → List Char
  | c :: s :: rest =>
    if signed && (c == 'e' || c == 'E') && (s == '+' || s == '-') then afterDigits signed rest
    else if isNumeral c then afterDigits signed (s :: rest)
    else c :: s :: rest
  | [c] => if isNumeral c then [] else [c]
  | [] => []

/-- What follows the number at the start of a text. -/
def afterNumber (cs : List Char) : List Char :=
  let based :=
    match cs with
    | '0' :: c :: _ => "xXbBoO".contains c
    | _ => false
  match afterDigits (!based) cs with
  | '.' :: rest => if based then '.' :: rest else afterDigits true rest
  | rest => rest

/-! ## Quoted tokens -/

/-- What follows the string whose opening quote came before.  A string ends with its line. -/
def afterString (quote : Char) : List Char → List Char
  | '\\' :: _ :: rest => afterString quote rest
  | c :: rest =>
    if c == quote then rest else if c == '\n' then c :: rest else afterString quote rest
  | [] => []

/-- What follows a block comment whose opening mark came before. -/
def afterBlock : List Char → List Char
  | '*' :: '/' :: rest => rest
  | _ :: rest => afterBlock rest
  | [] => []

/-- What follows a line comment. -/
def afterLine (cs : List Char) : List Char := cs.dropWhile fun c => !isLineEnd c

/-- What follows the regular expression whose opening slash came before, if it is complete on its
line.  The flag tells whether a set of characters is open. -/
def afterRegex : Bool → List Char → Option (List Char)
  | inSet, '\\' :: c :: rest => if isLineEnd c then none else afterRegex inSet rest
  | inSet, c :: rest =>
    if isLineEnd c then none
    else if c == '[' then afterRegex true rest
    else if c == ']' then afterRegex false rest
    else if c == '/' && !inSet then some (afterName rest)
    else afterRegex inSet rest
  | _, [] => none

/-! ## The token at the start of a text -/

/-- Words after which an operand comes. -/
def operandWords : List String :=
  ["return", "typeof", "case", "in", "of", "delete", "void", "throw", "new", "instanceof", "else",
   "do", "yield", "await", "extends"]

/-- Whether a token may end an operand, so that a slash after it divides. -/
def Token.endsOperand (t : Token) : Bool :=
  match t.kind with
  | .word => !operandWords.contains (String.ofList t.text)
  | .punctuation => [")", "]", "++", "--"].contains (String.ofList t.text)
  | _ => true

/-- The marks of more than one character.  Angle brackets always stand alone. -/
def longMarks : List String :=
  ["...", "===", "!==", "**=", "&&=", "||=", "??=", "=>", "==", "!=", "**", "*=", "&&", "&=", "||",
   "|=", "??", "++", "+=", "--", "-=", "%=", "^=", "/="]

/-- What follows the mark at the start of a text. -/
def afterMark (cs : List Char) : List Char :=
  match cs with
  | '?' :: '.' :: c :: rest => if c.isDigit then '.' :: c :: rest else c :: rest
  | _ =>
    match longMarks.find? fun m => m.toList.isPrefixOf cs with
    | some m => cs.drop m.length
    | none => cs.drop 1

/-- Whether a slash starts a regular expression after a token. -/
def allowsRegex (previous : Option Token) : Bool :=
  match previous with
  | some t => !t.endsOperand
  | none => true

/-- The kind of the token at the start of a text, other than a template, and what follows it. -/
def plainLexeme (previous : Option Token) (cs : List Char) : TokenKind × List Char :=
  match cs with
  | [] => (.punctuation, [])
  | '/' :: '/' :: rest => (.comment, afterLine rest)
  | '/' :: '*' :: rest => (.comment, afterBlock rest)
  | '"' :: rest => (.string, afterString '"' rest)
  | '\'' :: rest => (.string, afterString '\'' rest)
  | '/' :: rest =>
    match if allowsRegex previous then afterRegex false rest else none with
    | some after => (.regex, after)
    | none => (.punctuation, afterMark cs)
  | '.' :: d :: rest =>
    if d.isDigit then (.number, afterDigits true (d :: rest)) else (.punctuation, afterMark cs)
  | '\\' :: 'u' :: _ => (.word, afterName cs)
  | '#' :: c :: rest =>
    if isNameStart c || c == '\\' then (.word, afterName (c :: rest)) else (.punctuation, c :: rest)
  | c :: _ =>
    if c.isDigit then (.number, afterNumber cs)
    else if isNameStart c then (.word, afterName cs)
    else (.punctuation, afterMark cs)

/-- The token that ends where `rest` starts. -/
def tokenUpTo (blank body rest : List Char) (kind : TokenKind) : Token :=
  ⟨blank, body.take (body.length - rest.length), kind⟩

/-- Where a place inside a template stands: in its text, or in a hole under a number of braces and
after a token. -/
inductive TemplatePlace where
  | text
  | hole (depth : Nat) (previous : Option Token)
  deriving DecidableEq

/-- What follows a template, from a place inside of it and the places around that one.  A hole is read
token by token. -/
def afterTemplate : Nat → List TemplatePlace → List Char → List Char
  | 0, _, cs => cs
  | _, [], cs => cs
  | fuel + 1, .text :: around, cs =>
    match cs with
    | '\\' :: _ :: rest => afterTemplate fuel (.text :: around) rest
    | '\x60' :: rest => afterTemplate fuel around rest
    | '$' :: '{' :: rest => afterTemplate fuel (.hole 0 none :: .text :: around) rest
    | _ :: rest => afterTemplate fuel (.text :: around) rest
    | [] => []
  | fuel + 1, .hole depth previous :: around, cs =>
    let body := cs.dropWhile isLayout
    let after (kind : TokenKind) (rest : List Char) : Option Token :=
      some (tokenUpTo [] body rest kind)
    match body with
    | '\x60' :: rest => afterTemplate fuel (.text :: .hole depth (after .template rest) :: around) rest
    | '{' :: rest => afterTemplate fuel (.hole (depth + 1) (after .punctuation rest) :: around) rest
    | '}' :: rest =>
      match depth with
      | 0 => afterTemplate fuel around rest
      | d + 1 => afterTemplate fuel (.hole d (after .punctuation rest) :: around) rest
    | [] => []
    | _ =>
      let (kind, rest) := plainLexeme previous body
      let previous := if kind = .comment then previous else after kind rest
      afterTemplate fuel (.hole depth previous :: around) rest

/-- The kind of the token at the start of a text, and what follows it. -/
def lexeme (previous : Option Token) (cs : List Char) : TokenKind × List Char :=
  match cs with
  | '\x60' :: rest => (.template, afterTemplate (rest.length + 1) [.text] rest)
  | _ => plainLexeme previous cs

/-- The tokens of a text after a token, with one unit of fuel a token. -/
def tokensFrom : Nat → Option Token → List Char → List Token
  | 0, _, _ => []
  | fuel + 1, previous, cs =>
    let blank := cs.takeWhile isLayout
    match cs.drop blank.length with
    | [] => []
    | body =>
      let (kind, rest) := lexeme previous body
      let t := tokenUpTo blank body rest kind
      t :: tokensFrom fuel (if kind = .comment then previous else some t) rest

/-- A source without the line at its start that names an interpreter. -/
def withoutInterpreterLine (cs : List Char) : List Char :=
  match cs with
  | '#' :: '!' :: rest => afterLine rest
  | '\uFEFF' :: '#' :: '!' :: rest => afterLine rest
  | _ => cs

/-- The tokens of a source. -/
def tokens (source : List Char) : List Token :=
  let cs := withoutInterpreterLine source
  tokensFrom (cs.length + 1) none cs

end Syntax

end DartModels
