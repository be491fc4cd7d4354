import DartModels.Text.Printable

/-!
# Quoted text

A text is shown between single quotes, or between double quotes if it holds a single quote and
no double one.  The quote in use, the backslash and unprintable characters are escaped.

* `Quoted.encode`: the quoted form.
* `Quoted.encodeAscii`: the same with every character above ASCII escaped.
-/

namespace DartModels

namespace Quoted

/-- The digit of a number below sixteen, in lower case. -/
def hexDigit (n : Nat) : Char :=
  if n < 10 then Char.ofNat (48 + n) else Char.ofNat (87 + n)

/-- A number in hexadecimal with exactly `width` digits. -/
def hex (width n : Nat) : List Char :=
  (List.range width).reverse.map fun i => hexDigit (n / Nat.pow 16 i % 16)

/-- The escape of a character by its number: two, four or eight digits, as many as it takes. -/
def numbered (c : Char) : List Char :=
  let n := c.toNat
  if n < 256 then '\\' :: 'x' :: hex 2 n
  else if n < 65536 then '\\' :: 'u' :: hex 4 n
  else '\\' :: 'U' :: hex 8 n

/-- One character inside the quotes `quote`. -/
def escape (quote : Char) (shown : Char → Bool) (c : Char) : List Char :=
  if c == quote || c == '\\' then ['\\', c]
  else if c == '\t' then ['\\', 't']
  else if c == '\n' then ['\\', 'n']
  else if c == '\r' then ['\\', 'r']
  else if shown c then [c]
  else numbered c

/-- The quote around a text. -/
def quoteOf (text : List Char) : Char :=
  if text.contains '\'' && !text.contains '"' then '"' else '\''

/-- The quoted form of a text, characters that are not `shown` escaped by number. -/
def enclose (shown : Char → Bool) (text : List Char) : List Char :=
  let quote := quoteOf text
  quote :: text.flatMap (escape quote shown) ++ [quote]

/-- The quoted form of a text. -/
def encode (s : String) : String := String.ofList (enclose isPrintable s.toList)

/-- The quoted form of a text in ASCII. -/
def encodeAscii (s : String) : String :=
  String.ofList (enclose (fun c => decide (c.toNat < 128) && isPrintable c) s.toList)

end Quoted

end DartModels
