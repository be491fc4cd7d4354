/-!
# Wildcards

A wildcard pattern matches a file name: `*` any text, `?` any character, `[..]` a character of a
set and `[!..]` one outside of it.  All else stands for itself, a bracket that is never closed too.

* `Wildcard.parse`: the items of a pattern.
* `Wildcard.matchItems`: whether the items match a whole name.
-/

namespace DartModels

namespace Wildcard

/-- A set of characters: single ones and closed ranges. -/
structure CharSet where
  negated : Bool
  singles : List Char
  ranges : List (Char × Char)
  deriving DecidableEq, Inhabited

/-- Whether a set holds a character. -/
def CharSet.contains (s : CharSet) (c : Char) : Bool :=
  let inside := s.singles.contains c || s.ranges.any fun r => decide (r.1 ≤ c) && decide (c ≤ r.2)
  inside != s.negated

/-- An item of a pattern. -/
inductive Item where
  | star
  | any
  | char (c : Char)
  | set (s : CharSet)
  deriving DecidableEq, Inhabited

/-! ## Sets -/

/-- The text of a set cut at its hyphens that stand between two characters, each next to be found
`skip` characters on. -/
def chunks : List Char → Nat → List Char → List (List Char)
  | [], _, acc => [acc.reverse]
  | c :: rest, skip, acc =>
    match skip with
    | k + 1 => chunks rest k (c :: acc)
    | 0 => if c == '-' then acc.reverse :: chunks rest 2 [] else chunks rest 0 (c :: acc)

/-- A hyphen at the end of a set stands for itself. -/
def closeChunks : List (List Char) → List (List Char)
  | [a, []] => [a ++ ['-']]
  | a :: rest => a :: closeChunks rest
  | [] => []

/-- Drops ranges whose ends are in the wrong order, from the last one on. -/
def dropEmptyRanges : List (List Char) → List (List Char)
  | [] => []
  | a :: rest =>
    match dropEmptyRanges rest with
    | [] => [a]
    | b :: more =>
      match a.getLast?, b.head? with
      | some x, some y => if y < x then (a.dropLast ++ b.drop 1) :: more else a :: b :: more
      | _, _ => a :: b :: more

/-- The ranges between neighbouring chunks. -/
def rangesOf : List (List Char) → List (Char × Char)
  | a :: b :: rest =>
    match a.getLast?, b.head? with
    | some x, some y => (x, y) :: rangesOf (b :: rest)
    | _, _ => rangesOf (b :: rest)
  | _ => []

/-- The set that the text between brackets writes. -/
def readSet (text : List Char) : CharSet :=
  let start := if text.head? == some '!' then 2 else 1
  let parts :=
    if text.contains '-' then dropEmptyRanges (closeChunks (chunks text start [])) else [text]
  let negated := parts.headD [] |>.head? |> (· == some '!')
  let parts :=
    match parts with
    | a :: rest => (if negated then a.drop 1 else a) :: rest
    | [] => []
  ⟨negated, parts.flatten, rangesOf parts⟩

/-- The text of a set after its opening bracket, and what follows the closing one.  A bracket that
comes first belongs to the set. -/
def setText (cs : List Char) : Option (List Char × List Char) :=
  let (sign, body) : List Char × List Char :=
    match cs with
    | '!' :: rest => (['!'], rest)
    | rest => ([], rest)
  let (first, body) : List Char × List Char :=
    match body with
    | ']' :: rest => ([']'], rest)
    | rest => ([], rest)
  let inner := body.takeWhile (· != ']')
  if inner.length = body.length then none
  else some (sign ++ first ++ inner, body.drop (inner.length + 1))

/-! ## Patterns -/

/-- The items of a pattern, with one unit of fuel an item. -/
def parseFrom : Nat → List Char → List Item
  | 0, _ => []
  | _, [] => []
  | fuel + 1, '*' :: rest => .star :: parseFrom fuel rest
  | fuel + 1, '?' :: rest => .any :: parseFrom fuel rest
  | fuel + 1, '[' :: rest =>
    match setText rest with
    | some (text, after) => .set (readSet text) :: parseFrom fuel after
    | none => .char '[' :: parseFrom fuel rest
  | fuel + 1, c :: rest => .char c :: parseFrom fuel rest

/-- The items of a pattern. -/
def parse (pattern : List Char) : List Item := parseFrom pattern.length pattern

/-- Whether items match a whole text. -/
def matchItems : List Item → List Char → Bool
  | [], [] => true
  | [], _ :: _ => false
  | .star :: items, [] => matchItems items []
  | .star :: items, c :: cs => matchItems items (c :: cs) || matchItems (.star :: items) cs
  | .any :: items, _ :: cs => matchItems items cs
  | .char d :: items, c :: cs => c == d && matchItems items cs
  | .set s :: items, c :: cs => s.contains c && matchItems items cs
  | _ :: _, [] => false
termination_by items cs => (items.length, cs.length)

/-- Whether a text has a character with a meaning in patterns. -/
def isPattern (text : List Char) : Bool := text.any fun c => c == '*' || c == '?' || c == '['

end Wildcard

end DartModels
