import DartModels.Json.Value

/-!
# Reading documents

Reads a JSON text.  Besides the standard's grammar it takes the words `NaN`, `Infinity` and
`-Infinity`, and a repeated member name keeps its first place with the last value.  A whole number
of too many digits is refused, and so is half of a surrogate pair, which is no character.

* `Json.parse`: the value, or the first fault.
* `SyntaxFault.message`: the cause with line, column and offset, counted in characters.
-/

namespace DartModels

namespace Json

/-! ## Faults -/

/-- Why a text is no document. -/
inductive Cause where
  | value
  | memberName
  | colon
  | comma
  | extraData
  | unterminated
  | control
  | escape
  | numberedEscape
  | byteOrderMark
  deriving DecidableEq, Inhabited

/-- The wording of a cause. -/
def Cause.text : Cause → String
  | .value => "Expecting value"
  | .memberName => "Expecting property name enclosed in double quotes"
  | .colon => "Expecting ':' delimiter"
  | .comma => "Expecting ',' delimiter"
  | .extraData => "Extra data"
  | .unterminated => "Unterminated string starting at"
  | .control => "Invalid control character at"
  | .escape => "Invalid \\escape"
  | .numberedEscape => "Invalid \\uXXXX escape"
  | .byteOrderMark => "Unexpected UTF-8 BOM (decode using utf-8-sig)"

/-- Why the reading of a text ends. -/
inductive Fault where
  /-- The text is no document, as the character at an offset shows. -/
  | malformed (cause : Cause) (offset : Nat)
  /-- A whole number has more digits than are read. -/
  | digits (count : Nat)
  /-- An escape stands for half of a surrogate pair. -/
  | surrogate
  deriving DecidableEq, Inhabited

/-- A fault with its place in the text: line and column count from one. -/
structure SyntaxFault where
  cause : Cause
  line : Nat
  column : Nat
  offset : Nat
  deriving DecidableEq, Inhabited

/-- The wording of a fault. -/
def SyntaxFault.message (f : SyntaxFault) : String :=
  s!"{f.cause.text}: line {f.line} column {f.column} (char {f.offset})"

/-- The place of an offset in a text. -/
def SyntaxFault.atOffset (text : List Char) (cause : Cause) (offset : Nat) : SyntaxFault :=
  let before := text.take offset
  ⟨cause, before.count '\n' + 1, (before.reverse.takeWhile (· != '\n')).length + 1, offset⟩

/-- Why a text is not read. -/
inductive TextFault where
  | malformed (fault : SyntaxFault)
  | digits (count : Nat)
  | surrogate
  deriving DecidableEq, Inhabited

/-- A fault with its place in the text. -/
def Fault.locate (text : List Char) : Fault → TextFault
  | .malformed cause offset => .malformed (.atOffset text cause offset)
  | .digits count => .digits count
  | .surrogate => .surrogate

/-! ## Cursors -/

/-- What is left of a text, and how many characters came before. -/
structure Cursor where
  rest : List Char
  offset : Nat
  deriving Inhabited

/-- Steps over `n` characters. -/
def Cursor.skip (c : Cursor) (n : Nat) : Cursor := ⟨c.rest.drop n, c.offset + n⟩

/-- Whether a character may stand between tokens. -/
def isSpace (c : Char) : Bool := c == ' ' || c == '\t' || c == '\n' || c == '\r'

/-- Steps over spaces. -/
def Cursor.skipSpaces (c : Cursor) : Cursor := c.skip (c.rest.takeWhile isSpace).length

/-- Fails at a cursor. -/
def fail {α : Type} (cause : Cause) (c : Cursor) : Except Fault α :=
  .error (.malformed cause c.offset)

/-! ## Strings -/

/-- The value of a hexadecimal digit. -/
def hexValue? (c : Char) : Option Nat :=
  if '0' ≤ c ∧ c ≤ '9' then some (c.toNat - 48)
  else if 'a' ≤ c ∧ c ≤ 'f' then some (c.toNat - 87)
  else if 'A' ≤ c ∧ c ≤ 'F' then some (c.toNat - 55)
  else none

/-- The number of four hexadecimal digits. -/
def hexNumber? (cs : List Char) : Option Nat :=
  cs.foldl (fun acc c => acc.bind fun n => (hexValue? c).map (16 * n + ·)) (some 0)

/-- The character after a backslash, other than in a numbered escape. -/
def simpleEscape? : Char → Option Char
  | '"' => some '"'
  | '\\' => some '\\'
  | '/' => some '/'
  | 'b' => some '\x08'
  | 'f' => some '\x0c'
  | 'n' => some '\n'
  | 'r' => some '\r'
  | 't' => some '\t'
  | _ => none

/-- The code units of a string up to its closing quote; `start` is the place of the opening one. -/
def stringUnits (start : Nat) : Nat → Cursor → List Nat → Except Fault (List Nat × Cursor)
  | 0, c, _ => fail .value c
  | fuel + 1, c, acc =>
    match c.rest with
    | [] => .error (.malformed .unterminated start)
    | '"' :: _ => .ok (acc.reverse, c.skip 1)
    | '\\' :: [] => .error (.malformed .unterminated start)
    | '\\' :: 'u' :: more =>
      match if more.length ≤ 4 then none else hexNumber? (more.take 4) with
      | some n => stringUnits start fuel (c.skip 6) (n :: acc)
      | none => fail .numberedEscape (c.skip 1)
    | '\\' :: e :: _ =>
      match simpleEscape? e with
      | some x => stringUnits start fuel (c.skip 2) (x.toNat :: acc)
      | none => fail .escape c
    | x :: _ =>
      if x.toNat < 32 then fail .control c
      else stringUnits start fuel (c.skip 1) (x.toNat :: acc)

/-- Whether a code unit is half of a surrogate pair. -/
def isSurrogate (unit : Nat) : Bool := 0xD800 ≤ unit && unit < 0xE000

/-- Characters from code units, if there are such: a high surrogate and a low one after it make one
character, and a surrogate that stands alone makes none. -/
def ofUnits : List Nat → Option (List Char)
  | [] => some []
  | [a] => if isSurrogate a then none else some [Char.ofNat a]
  | a :: b :: rest =>
    if 0xD800 ≤ a ∧ a < 0xDC00 ∧ 0xDC00 ≤ b ∧ b < 0xE000 then
      (ofUnits rest).map (Char.ofNat (0x10000 + (a - 0xD800) * 0x400 + (b - 0xDC00)) :: ·)
    else if isSurrogate a then none
    else (ofUnits (b :: rest)).map (Char.ofNat a :: ·)

/-- A string whose opening quote is at the cursor. -/
def readString (c : Cursor) : Except Fault (String × Cursor) := do
  let (units, c') ← stringUnits c.offset (c.rest.length + 1) (c.skip 1) []
  match ofUnits units with
  | some cs => return (String.ofList cs, c')
  | none => throw .surrogate

/-! ## Numbers -/

/-- The most digits that a whole number may have. -/
def maxDigits : Nat := 4300

/-- The number that a run of digits writes. -/
def natOfDigits (cs : List Char) : Nat := cs.foldl (fun n c => 10 * n + (c.toNat - 48)) 0

/-- An exponent part at the start of a text: its value and length. -/
def exponentPart? : List Char → Option (Int × Nat)
  | e :: rest =>
    if e == 'e' || e == 'E' then
      let (sign, body) : List Char × List Char :=
        match rest with
        | '+' :: r => (['+'], r)
        | '-' :: r => (['-'], r)
        | r => ([], r)
      let ds := body.takeWhile Char.isDigit
      if ds.isEmpty then none
      else
        let n : Int := natOfDigits ds
        some (if sign == ['-'] then -n else n, 1 + sign.length + ds.length)
    else none
  | [] => none

/-- The digits after a point at the start of a text. -/
def fractionPart? : List Char → Option (List Char)
  | '.' :: rest =>
    let ds := rest.takeWhile Char.isDigit
    if ds.isEmpty then none else some ds
  | _ => none

/-- A number at the cursor. -/
def readNumber (c : Cursor) : Except Fault (Json × Cursor) :=
  let negative := c.rest.head? == some '-'
  let body := if negative then c.rest.drop 1 else c.rest
  let whole :=
    match body with
    | '0' :: _ => ['0']
    | cs => cs.takeWhile Char.isDigit
  if whole.isEmpty then fail .value c
  else
    let after := body.drop whole.length
    let frac := fractionPart? after
    let fracLength := (frac.map (·.length + 1)).getD 0
    let expo := exponentPart? (after.drop fracLength)
    let total := (if negative then 1 else 0) + whole.length + fracLength + (expo.map (·.2)).getD 0
    if frac.isNone && expo.isNone then
      let n : Int := natOfDigits whole
      if maxDigits < whole.length then .error (.digits whole.length)
      else .ok (.int (if negative then -n else n), c.skip total)
    else
      let fs := frac.getD []
      let x := Binary64.ofDecimal negative (natOfDigits (whole ++ fs))
        ((expo.map (·.1)).getD 0 - fs.length)
      .ok (.fraction x, c.skip total)

/-! ## Values -/

/-- The words that stand for a value. -/
def words : List (String × Json) :=
  [("null", .null), ("true", .bool true), ("false", .bool false), ("NaN", .fraction .nan),
   ("Infinity", .fraction (.infinite false)), ("-Infinity", .fraction (.infinite true))]

/-- A word or a number at the cursor. -/
def readAtom (c : Cursor) : Except Fault (Json × Cursor) :=
  match words.find? fun w => w.1.toList.isPrefixOf c.rest with
  | some (w, v) => .ok (v, c.skip w.length)
  | none => readNumber c

mutual

/-- A value at the cursor. -/
def readValue : Nat → Cursor → Except Fault (Json × Cursor)
  | 0, c => fail .value c
  | fuel + 1, c =>
    match c.rest with
    | '"' :: _ => do
      let (s, c') ← readString c
      return (.str s, c')
    | '[' :: _ =>
      let c' := (c.skip 1).skipSpaces
      if c'.rest.head? == some ']' then .ok (.arr [], c'.skip 1) else readItems fuel c' []
    | '{' :: _ =>
      let c' := (c.skip 1).skipSpaces
      if c'.rest.head? == some '}' then .ok (.obj [], c'.skip 1) else readMembers fuel c' []
    | _ => readAtom c

/-- The items of an array, from one item on. -/
def readItems : Nat → Cursor → List Json → Except Fault (Json × Cursor)
  | 0, c, _ => fail .value c
  | fuel + 1, c, acc => do
    let (v, c₁) ← readValue fuel c
    let c₂ := c₁.skipSpaces
    match c₂.rest with
    | ']' :: _ => return (.arr (v :: acc).reverse, c₂.skip 1)
    | ',' :: _ => readItems fuel (c₂.skip 1).skipSpaces (v :: acc)
    | _ => fail .comma c₂

/-- The members of an object, from one member on. -/
def readMembers : Nat → Cursor → List (String × Json) → Except Fault (Json × Cursor)
  | 0, c, _ => fail .value c
  | fuel + 1, c, acc =>
    match c.rest with
    | '"' :: _ => do
      let (k, c₁) ← readString c
      let c₂ := c₁.skipSpaces
      match c₂.rest with
      | ':' :: _ =>
        let (v, c₃) ← readValue fuel (c₂.skip 1).skipSpaces
        let c₄ := c₃.skipSpaces
        let acc' := setMember k v acc
        match c₄.rest with
        | '}' :: _ => return (.obj acc', c₄.skip 1)
        | ',' :: _ => readMembers fuel (c₄.skip 1).skipSpaces acc'
        | _ => fail .comma c₄
      | _ => fail .colon c₂
    | _ => fail .memberName c

end

/-- A whole text as one value with spaces around it. -/
def readText (text : List Char) : Except Fault Json := do
  let start : Cursor := ⟨text, 0⟩
  if text.head? == some '\uFEFF' then fail .byteOrderMark start
  else
    let (v, c) ← readValue (2 * text.length + 2) start.skipSpaces
    let c' := c.skipSpaces
    if c'.rest.isEmpty then return v else fail .extraData c'

/-- The value of a JSON text. -/
def parse (text : String) : Except TextFault Json :=
  (readText text.toList).mapError (Fault.locate text.toList)

end Json

end DartModels
