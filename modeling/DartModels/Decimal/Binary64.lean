/-!
# Binary fractions

A fraction of a document is kept as the value of the binary64 format nearest to its decimal
text.  Such a value is written with the fewest digits that read back as the same value.

* `Binary64.ofDecimal`: the nearest value, ties to the even neighbour.
* `Binary64.digits`: the shortest decimal inside the interval that rounds to the value.
* `Binary64.text`: positional from `1e-4` up to below `1e16`, with an exponent outside.
-/

namespace DartModels

/-- A value of the binary64 format.  A finite value is `± mantissa · 2 ^ exponent` with
`mantissa < 2 ^ 53`, and the exponent is the least one possible unless the mantissa fills
53 bits. -/
inductive Binary64 where
  | finite (negative : Bool) (mantissa : Nat) (exponent : Int)
  | infinite (negative : Bool)
  | nan
  deriving DecidableEq, Inhabited

namespace Binary64

/-! ## Reading a decimal -/

/-- A power of two. -/
def twoTo (n : Nat) : Nat := Nat.pow 2 n

/-- A power of ten. -/
def tenTo (n : Nat) : Nat := Nat.pow 10 n

/-- `num / den` rounded to a whole number, a half going to the even neighbour. -/
def roundDiv (num den : Nat) : Nat :=
  let q := num / den
  let r := num % den
  if 2 * r < den then q
  else if den < 2 * r then q + 1
  else if q % 2 = 0 then q else q + 1

/-- `num / den` over `2 ^ e`, as a numerator and a denominator. -/
def scaleBy (num den : Nat) (e : Int) : Nat × Nat :=
  if 0 ≤ e then (num, den * twoTo e.toNat) else (num * twoTo (-e).toNat, den)

/-- The exponent at which `num / den` has a mantissa of 53 bits, never below `-1074`. -/
def exponentFor (num den : Nat) : Int :=
  let guess : Int := (num.log2 : Int) - (den.log2 : Int) - 52
  let scaled := scaleBy num den guess
  let exact := if scaled.1 < twoTo 52 * scaled.2 then guess - 1 else guess
  max exact (-1074)

/-- The value nearest to `num / den`. -/
def ofRatio (negative : Bool) (num den : Nat) : Binary64 :=
  if num = 0 then .finite negative 0 (-1074)
  else
    let e := exponentFor num den
    let scaled := scaleBy num den e
    let m := roundDiv scaled.1 scaled.2
    let (m, e) := if m = twoTo 53 then (twoTo 52, e + 1) else (m, e)
    if 971 < e then .infinite negative else .finite negative m e

/-- The value nearest to `± digits · 10 ^ exponent`. -/
def ofDecimal (negative : Bool) (digits : Nat) (exponent : Int) : Binary64 :=
  if digits = 0 then ofRatio negative 0 1
  else if 400 < exponent then .infinite negative
  else if (digits.log2 : Int) + 4 * exponent < -5000 then ofRatio negative 0 1
  else if 0 ≤ exponent then ofRatio negative (digits * tenTo exponent.toNat) 1
  else ofRatio negative digits (tenTo (-exponent).toNat)

/-! ## Writing -/

/-- The ends of the interval that rounds to `m · 2 ^ e`, over the power of two that is the last
component.  Below a power of two the neighbour is only half as far. -/
def interval (m : Nat) (e : Int) : Nat × Nat × Int :=
  let low := if m = twoTo 52 ∧ -1074 < e then 4 * m - 1 else 4 * m - 2
  (low, 4 * m + 2, e - 2)

/-- Whether `d · 10 ^ k` rounds to `m · 2 ^ e`. -/
def readsBack (m : Nat) (e : Int) (d : Nat) (k : Int) : Bool :=
  let (low, high, q) := interval m e
  let left := (if 0 ≤ k then d * tenTo k.toNat else d) * (if 0 ≤ q then 1 else twoTo (-q).toNat)
  let unit := (if 0 ≤ k then 1 else tenTo (-k).toNat) * (if 0 ≤ q then twoTo q.toNat else 1)
  if m % 2 = 0 then low * unit ≤ left && left ≤ high * unit
  else low * unit < left && left < high * unit

/-- The value `m · 2 ^ e` over `10 ^ k`, as a numerator and a denominator. -/
def overTen (m : Nat) (e k : Int) : Nat × Nat :=
  let num := m * (if 0 ≤ e then twoTo e.toNat else 1) * (if 0 ≤ k then 1 else tenTo (-k).toNat)
  let den := (if 0 ≤ e then 1 else twoTo (-e).toNat) * (if 0 ≤ k then tenTo k.toNat else 1)
  (num, den)

/-- Tries the decimal grids `10 ^ k`, coarse to fine, and takes the nearer neighbour of the
value on the first grid that has one that reads back. -/
def shortest (m : Nat) (e : Int) : Nat → Int → Nat × Int
  | 0, k => (m, k)
  | fuel + 1, k =>
    let (num, den) := overTen m e k
    let below := num / den
    let nearer := roundDiv num den
    let other := if nearer = below then below + 1 else below
    if readsBack m e nearer k then (nearer, k)
    else if readsBack m e other k then (other, k)
    else shortest m e fuel (k - 1)

/-- Decimal digits and exponent of a positive value, the fewest digits that read back. -/
def digits (m : Nat) (e : Int) : Nat × Int :=
  let top : Int := ((m.log2 : Int) + e) * 30103 / 100000 + 2
  shortest m e 24 top

/-- Drops the zeros at the end of a digit string; each moves the exponent up by one. -/
def trimZeros : Nat → Nat → Int → Nat × Int
  | 0, d, k => (d, k)
  | fuel + 1, d, k => if d ≠ 0 ∧ d % 10 = 0 then trimZeros fuel (d / 10) (k + 1) else (d, k)

/-- An exponent with its sign and at least two digits. -/
def exponentText (e : Int) : String :=
  let size := toString e.natAbs
  "e" ++ (if e < 0 then "-" else "+") ++ (if size.length < 2 then "0" ++ size else size)

/-- A positive decimal `d · 10 ^ k`.  From `1e-4` up to below `1e16` it is positional with at
least one digit after the point. -/
def decimalText (d : Nat) (k : Int) : String :=
  let ds := toString d
  let n := ds.length
  let point : Int := n + k
  if point ≤ -4 ∨ 16 < point then
    let tail := (ds.drop 1).toString
    (ds.take 1).toString ++ (if tail.isEmpty then "" else "." ++ tail) ++ exponentText (point - 1)
  else if point ≤ 0 then
    "0." ++ String.ofList (List.replicate (-point).toNat '0') ++ ds
  else if (n : Int) ≤ point then
    ds ++ String.ofList (List.replicate (point - n).toNat '0') ++ ".0"
  else
    (ds.take point.toNat).toString ++ "." ++ (ds.drop point.toNat).toString

/-- The text of a value. -/
def text : Binary64 → String
  | .nan => "nan"
  | .infinite negative => if negative then "-inf" else "inf"
  | .finite negative m e =>
    let size :=
      if m = 0 then "0.0"
      else
        let (d, k) := digits m e
        let (d, k) := trimZeros 20 d k
        decimalText d k
    if negative then "-" ++ size else size

/-! ## Comparing -/

/-- Whether the value is zero, of either sign. -/
def isZero : Binary64 → Bool
  | .finite _ m _ => m == 0
  | _ => false

/-- Equality as numbers: the zeros are equal, and a NaN equals nothing. -/
def same : Binary64 → Binary64 → Bool
  | .finite s m e, .finite s' m' e' => (m == 0 && m' == 0) || (s == s' && m == m' && e == e')
  | .infinite s, .infinite s' => s == s'
  | _, _ => false

/-- The whole number that the value is, if it is one. -/
def toInt? : Binary64 → Option Int
  | .finite s m e =>
    let size : Option Nat :=
      if 0 ≤ e then some (m * twoTo e.toNat)
      else if m % twoTo (-e).toNat = 0 then some (m / twoTo (-e).toNat) else none
    size.map fun n => if s then -(n : Int) else n
  | _ => none

/-- Whether the value is at most zero; a NaN is not. -/
def isNonPositive : Binary64 → Bool
  | .finite s m _ => s || m == 0
  | .infinite s => s
  | .nan => false

end Binary64

end DartModels
