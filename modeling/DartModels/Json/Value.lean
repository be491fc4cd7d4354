import DartModels.Decimal.Binary64
import DartModels.Text.Quoted

/-!
# Document values

A document is a JSON value.  Whole numbers and fractions are kept apart, and an object keeps the
order of its members.

* `Json.text`: the text of a value inside another text.
* `Json.same`: equality of values, `true` being the number one and the order of an object's
  members without meaning.
-/

namespace DartModels

/-- A document value.  The names of an object's members are pairwise distinct in every value that
is read from text. -/
inductive Json where
  | null
  | bool (b : Bool)
  | int (n : Int)
  | fraction (x : Binary64)
  | str (s : String)
  | arr (items : List Json)
  | obj (members : List (String × Json))
  deriving Inhabited

namespace Json

/-! ## Kinds -/

/-- The name of a value's kind in messages. -/
def typeName : Json → String
  | .null => "NoneType"
  | .bool _ => "bool"
  | .int _ => "int"
  | .fraction _ => "float"
  | .str _ => "str"
  | .arr _ => "list"
  | .obj _ => "dict"

/-- Whether a value counts as true: all do but null, false, zero and what is empty. -/
def truthy : Json → Bool
  | .null => false
  | .bool b => b
  | .int n => n != 0
  | .fraction x => !x.isZero
  | .str s => !s.isEmpty
  | .arr items => !items.isEmpty
  | .obj members => !members.isEmpty

/-- The text of a value that is one. -/
def str? : Json → Option String
  | .str s => some s
  | _ => none

/-- The member of an object with a name. -/
def member? (name : String) : List (String × Json) → Option Json
  | [] => none
  | (k, v) :: rest => if k = name then some v else member? name rest

/-- Sets a member: a name keeps its first place and takes the last value. -/
def setMember (name : String) (value : Json) : List (String × Json) → List (String × Json)
  | [] => [(name, value)]
  | (k, v) :: rest => if k = name then (k, value) :: rest else (k, v) :: setMember name value rest

/-! ## Text -/

mutual

/-- The written form of a value: texts are quoted. -/
def literal : Json → String
  | .null => "None"
  | .bool b => if b then "True" else "False"
  | .int n => toString n
  | .fraction x => x.text
  | .str s => Quoted.encode s
  | .arr items => "[" ++ ", ".intercalate (literals items) ++ "]"
  | .obj members => "\x7b" ++ ", ".intercalate (memberLiterals members) ++ "\x7d"

/-- The written forms of the items of an array. -/
def literals : List Json → List String
  | [] => []
  | v :: rest => literal v :: literals rest

/-- The written forms of the members of an object. -/
def memberLiterals : List (String × Json) → List String
  | [] => []
  | (k, v) :: rest => (Quoted.encode k ++ ": " ++ literal v) :: memberLiterals rest

end

/-- The text of a value inside another text: a text stands for itself. -/
def text : Json → String
  | .str s => s
  | v => v.literal

/-! ## Equality -/

/-- The number that a value stands for, if it is a whole one. -/
def toInt? : Json → Option Int
  | .bool b => some (if b then 1 else 0)
  | .int n => some n
  | .fraction x => x.toInt?
  | _ => none

mutual

/-- Equality of values. -/
def same : Json → Json → Bool
  | .null, .null => true
  | .str a, .str b => a == b
  | .arr a, .arr b => sameItems a b
  | .obj a, .obj b => a.length == b.length && sameMembers a b
  | .fraction a, .fraction b => a.same b
  | .bool a, w => w.toInt? == some (if a then 1 else 0)
  | .int a, w => w.toInt? == some a
  | .fraction a, w => a.toInt?.isSome && a.toInt? == w.toInt?
  | _, _ => false

/-- Equality of arrays, item by item. -/
def sameItems : List Json → List Json → Bool
  | [], [] => true
  | v :: rest, w :: rest' => same v w && sameItems rest rest'
  | _, _ => false

/-- Whether every member of the first object is one of the second. -/
def sameMembers : List (String × Json) → List (String × Json) → Bool
  | [], _ => true
  | (k, v) :: rest, b =>
    (match member? k b with
      | some w => same v w
      | none => false) && sameMembers rest b

end

end Json

end DartModels
