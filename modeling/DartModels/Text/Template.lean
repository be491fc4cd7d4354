import DartModels.Text.DecimalDigit
import DartModels.Text.Quoted

/-!
# Templates with replacement fields

A template is literal text with fields in braces.  A field names a text value, and may take a
character of it, quote it and pad or cut it: `{name[0]!r:>12}`.  A doubled
brace stands for itself.

* `Template.scan`: the pieces of a template, up to its first fault.
* `Template.expand`: the text of a template for given values.  Pieces are written from left to
  right, so a value that fails is reported before a fault that comes after it.
-/

namespace DartModels

namespace Template

/-! ## Faults -/

/-- Why a template or a format specification is malformed. -/
inductive Malformed where
  | loneOpening
  | loneClosing
  | openingInName
  | missingConversion
  | afterConversion
  | unclosedSpecification
  | unclosedField
  | missingBracket
  | emptyAttribute
  | afterBracket
  | manyDigits
  | nesting
  | conversion (c : Char)
  | specification (spec : String)
  | formatCode (c : Char)
  | missingPrecision
  | bothSeparators
  | separator (mark code : Char)
  | sign
  | space
  | negativeZero
  | alternate
  | alignment
  deriving DecidableEq, Inhabited

/-- A character as messages about formats show it. -/
def shownCode (c : Char) : String :=
  if 32 < c.toNat ∧ c.toNat < 128 then String.singleton c
  else
    let digits := (Quoted.hex 8 c.toNat).dropWhile (· == '0')
    "\\x" ++ String.ofList (if digits.isEmpty then ['0'] else digits)

/-- A conversion character as messages show it. -/
def shownConversion (c : Char) : String :=
  if c.toNat = 127 then "\\x7f" else shownCode c

/-- The wording of a fault. -/
def Malformed.message : Malformed → String
  | .loneOpening => "Single '\x7b' encountered in format string"
  | .loneClosing => "Single '\x7d' encountered in format string"
  | .openingInName => "unexpected '\x7b' in field name"
  | .missingConversion => "end of string while looking for conversion specifier"
  | .afterConversion => "expected ':' after conversion specifier"
  | .unclosedSpecification => "unmatched '\x7b' in format spec"
  | .unclosedField => "expected '\x7d' before end of string"
  | .missingBracket => "Missing ']' in format string"
  | .emptyAttribute => "Empty attribute in format string"
  | .afterBracket => "Only '.' or '[' may follow ']' in format field specifier"
  | .manyDigits => "Too many decimal digits in format string"
  | .nesting => "Max string recursion exceeded"
  | .conversion c => "Unknown conversion specifier " ++ shownConversion c
  | .specification spec => "Invalid format specifier '" ++ spec ++ "' for object of type 'str'"
  | .formatCode c => "Unknown format code '" ++ shownCode c ++ "' for object of type 'str'"
  | .missingPrecision => "Format specifier missing precision"
  | .bothSeparators => "Cannot specify both ',' and '_'."
  | .separator mark code =>
    "Cannot specify '" ++ String.singleton mark ++ "' with '" ++ shownCode code ++ "'."
  | .sign => "Sign not allowed in string format specifier"
  | .space => "Space not allowed in string format specifier"
  | .negativeZero => "Negative zero coercion (z) not allowed in string format specifier"
  | .alternate => "Alternate form (#) not allowed in string format specifier"
  | .alignment => "'=' alignment not allowed in string format specifier"

/-- Why a template has no text for given values. -/
inductive Fault where
  | malformed (cause : Malformed)
  | unknownName (name : String)
  | noPositional (index : Nat)
  | indexOutOfRange
  | indexNotNumber
  | noAttribute (name : String)
  deriving DecidableEq, Inhabited

/-- The wording of a fault. -/
def Fault.message : Fault → String
  | .malformed cause => cause.message
  | .unknownName name => Quoted.encode name
  | .noPositional index => s!"Replacement index {index} out of range for positional args tuple"
  | .indexOutOfRange => "string index out of range"
  | .indexNotNumber => "string indices must be integers, not 'str'"
  | .noAttribute name => "'str' object has no attribute '" ++ name ++ "'"

/-! ## Pieces -/

/-- A replacement field as written. -/
structure Field where
  name : List Char
  conversion : Option Char
  specification : List Char
  deriving DecidableEq, Inhabited

/-- A piece of a template. -/
inductive Piece where
  | literal (text : List Char)
  | field (f : Field)
  deriving DecidableEq, Inhabited

/-- The name of a field and what follows it, from the terminator on.  Brackets hide terminators. -/
def fieldName : List Char → Bool → List Char → Except Malformed (List Char × List Char)
  | [], _, _ => .error .unclosedField
  | c :: rest, true, acc => fieldName rest (c != ']') (c :: acc)
  | c :: rest, false, acc =>
    if c == '{' then .error .openingInName
    else if c == '}' || c == ':' || c == '!' then .ok (acc.reverse, c :: rest)
    else fieldName rest (c == '[') (c :: acc)

/-- The format specification up to the brace that closes its field, nested braces counted. -/
def specificationText : List Char → Nat → List Char → Except Malformed (List Char × List Char)
  | [], _, _ => .error .unclosedSpecification
  | c :: rest, depth, acc =>
    if c == '}' then
      match depth with
      | 0 => .ok (acc.reverse, rest)
      | d + 1 => specificationText rest d (c :: acc)
    else specificationText rest (if c == '{' then depth + 1 else depth) (c :: acc)

/-- A field after its opening brace, and what follows its closing one. -/
def readField (cs : List Char) : Except Malformed (Field × List Char) := do
  let (name, rest) ← fieldName cs false []
  let specified (conversion : Option Char) (body : List Char) :
      Except Malformed (Field × List Char) := do
    let (spec, after) ← specificationText body 0 []
    return (⟨name, conversion, spec⟩, after)
  match rest with
  | '}' :: after => return (⟨name, none, []⟩, after)
  | ':' :: body => specified none body
  | _ :: [] => throw .missingConversion
  | _ :: c :: [] => specified (some c) []
  | _ :: c :: '}' :: after => return (⟨name, some c, []⟩, after)
  | _ :: c :: ':' :: body => specified (some c) body
  | _ => throw .afterConversion

/-- Whether a character is a brace. -/
def isBrace (c : Char) : Bool := c == '{' || c == '}'

/-- The pieces of a template with the fault that ends them, one unit of fuel a piece. -/
def scanFrom : Nat → List Char → List Piece × Option Malformed
  | 0, _ => ([], none)
  | fuel + 1, cs =>
    let text := cs.takeWhile fun c => !isBrace c
    let step (p : Piece) (rest : List Char) : List Piece × Option Malformed :=
      let (ps, fault) := scanFrom fuel rest
      (p :: ps, fault)
    match cs.dropWhile fun c => !isBrace c with
    | [] => if text.isEmpty then ([], none) else ([.literal text], none)
    | [c] => ([], some (if c == '{' then .loneOpening else .loneClosing))
    | c :: d :: rest =>
      if c == d then step (.literal (text ++ [c])) rest
      else if c == '}' then ([], some .loneClosing)
      else
        match readField (d :: rest) with
        | .error e => ([], some e)
        | .ok (f, after) =>
          let (ps, fault) := scanFrom fuel after
          (.literal text :: .field f :: ps, fault)

/-- The pieces of a template, and the fault after them if there is one. -/
def scan (cs : List Char) : List Piece × Option Malformed := scanFrom (cs.length + 1) cs

/-! ## Values of fields -/

/-- The largest number a field may write. -/
def maxNumber : Nat := Nat.pow 2 63 - 1

/-- The number that a text writes, if it is all digits. -/
def number? (cs : List Char) : Except Malformed (Option Nat) :=
  let (n, length, rest) := readDigits cs
  if length = 0 ∨ !rest.isEmpty then
    if maxNumber < n then .error .manyDigits else .ok none
  else if maxNumber < n then .error .manyDigits
  else .ok (some n)

/-- A step into a value. -/
inductive Access where
  | member (name : List Char)
  | item (name : List Char)
  deriving DecidableEq

/-- The steps after a name, up to the first fault. -/
def accesses : Nat → List Char → List Access × Option Malformed
  | 0, _ => ([], none)
  | _, [] => ([], none)
  | fuel + 1, '.' :: rest =>
    let name := rest.takeWhile fun c => c != '.' && c != '['
    if name.isEmpty then ([], some .emptyAttribute)
    else
      let (more, fault) := accesses fuel (rest.drop name.length)
      (.member name :: more, fault)
  | fuel + 1, '[' :: rest =>
    let name := rest.takeWhile (· != ']')
    if name.length = rest.length then ([], some .missingBracket)
    else if name.isEmpty then ([], some .emptyAttribute)
    else
      let (more, fault) := accesses fuel (rest.drop (name.length + 1))
      (.item name :: more, fault)
  | _, _ => ([], some .afterBracket)

/-- Takes one step into a text value: only a character by its index is there. -/
def Access.apply (value : List Char) : Access → Except Fault (List Char)
  | .member name => .error (.noAttribute (String.ofList name))
  | .item name => do
    match ← (number? name).mapError Fault.malformed with
    | none => throw .indexNotNumber
    | some i =>
      match value[i]? with
      | some c => return [c]
      | none => throw .indexOutOfRange

/-- The value that a field's name stands for. -/
def fieldValue (values : List (String × String)) (name : List Char) : Except Fault (List Char) := do
  let first := name.takeWhile fun c => c != '.' && c != '['
  let rest := name.drop first.length
  if first.isEmpty then throw (.noPositional 0)
  match ← (number? first).mapError Fault.malformed with
  | some i => throw (.noPositional i)
  | none =>
    match values.lookup (String.ofList first) with
    | none => throw (.unknownName (String.ofList first))
    | some v =>
      let (steps, fault) := accesses (rest.length + 1) rest
      let value ← steps.foldlM Access.apply v.toList
      match fault with
      | some cause => throw (.malformed cause)
      | none => return value

/-- A value after its conversion. -/
def convert (value : List Char) : Option Char → Except Malformed (List Char)
  | none | some 's' => .ok value
  | some 'r' => .ok (Quoted.encode (String.ofList value)).toList
  | some 'a' => .ok (Quoted.encodeAscii (String.ofList value)).toList
  | some c => .error (.conversion c)

/-! ## Padding and cutting -/

/-- Where a text stands in its width. -/
inductive Align where
  | left
  | right
  | center
  | padded
  deriving DecidableEq, Inhabited

/-- The alignment that a character stands for. -/
def Align.ofChar? : Char → Option Align
  | '<' => some .left
  | '>' => some .right
  | '^' => some .center
  | '=' => some .padded
  | _ => none

/-- Fill character and alignment at the start of a specification; the flag tells a given fill. -/
def readAlign : List Char → Char × Align × Bool × List Char
  | c :: d :: rest =>
    match Align.ofChar? d, Align.ofChar? c with
    | some a, _ => (c, a, true, rest)
    | none, some a => (' ', a, false, d :: rest)
    | none, none => (' ', .left, false, c :: d :: rest)
  | [c] =>
    match Align.ofChar? c with
    | some a => (' ', a, false, [])
    | none => (' ', .left, false, [c])
  | [] => (' ', .left, false, [])

/-- Steps over a character if it comes next, and tells whether it did. -/
def accept (c : Char) : List Char → Bool × List Char
  | d :: rest => if d == c then (true, rest) else (false, d :: rest)
  | [] => (false, [])

/-- A text in a width. -/
def pad (fill : Char) (align : Align) (width : Nat) (value : List Char) : List Char :=
  let total := width - value.length
  let left :=
    match align with
    | .right => total
    | .center => total / 2
    | _ => 0
  List.replicate left fill ++ value ++ List.replicate (total - left) fill

/-- A text written by a format specification. -/
def format (spec value : List Char) : Except Malformed (List Char) := do
  if spec.isEmpty then return value
  let (fill, align, filled, s) := readAlign spec
  let (sign, s) : Option Char × List Char :=
    match s with
    | c :: rest => if c == ' ' || c == '+' || c == '-' then (some c, rest) else (none, s)
    | [] => (none, [])
  let (negativeZero, s) := accept 'z' s
  let (alternate, s) := accept '#' s
  let (zero, s) := if filled then (false, s) else accept '0' s
  let fill := if zero then '0' else fill
  let (width, _, s) := readDigits s
  if maxNumber < width then throw .manyDigits
  let (comma, s) := accept ',' s
  let (under, s) := accept '_' s
  if comma && under then throw .bothSeparators
  if under && s.head? == some ',' then throw .bothSeparators
  let (point, s) := accept '.' s
  let (precision, precisionLength, s) := if point then readDigits s else (0, 0, s)
  if maxNumber < precision then throw .manyDigits
  if point && precisionLength == 0 then throw .missingPrecision
  if 1 < s.length then throw (.specification (String.ofList spec))
  let code := s.headD 's'
  if comma && !"deEfgGF%".contains code then throw (.separator ',' code)
  if under && !"deEfgGF%boxX".contains code then throw (.separator '_' code)
  if code != 's' then throw (.formatCode code)
  match sign with
  | some ' ' => throw .space
  | some _ => throw .sign
  | none =>
    if negativeZero then throw .negativeZero
    if alternate then throw .alternate
    if align == .padded then throw .alignment
    return pad fill align width (if point then value.take precision else value)

/-! ## Expansion -/

/-- The text of a template, with `depth` levels of fields inside format specifications. -/
def expandAt (values : List (String × String)) : Nat → List Char → Except Fault (List Char)
  | 0, _ => .error (.malformed .nesting)
  | depth + 1, cs => do
    let (pieces, fault) := scan cs
    let texts ← pieces.mapM fun p =>
      match p with
      | .literal text => pure text
      | .field f => do
        let value ← fieldValue values f.name
        let value ← (convert value f.conversion).mapError Fault.malformed
        let spec ←
          if f.specification.contains '{' then expandAt values depth f.specification
          else pure f.specification
        (format spec value).mapError Fault.malformed
    match fault with
    | some cause => throw (.malformed cause)
    | none => return texts.flatten

/-- The text of a template for named values. -/
def expand (values : List (String × String)) (template : String) : Except Fault String :=
  (expandAt values 2 template.toList).map String.ofList

end Template

end DartModels
