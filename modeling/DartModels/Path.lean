import DartModels.Text.Split

/-!
# Paths

A path is a text whose components are separated by slashes.  A path is rooted by one leading
slash or by exactly two, which are kept apart; more count as one.

* `Path.normalize`: the path without empty components, dots and `x/..`.
* `Path.join`: a path below another one, unless it is rooted itself.
* `Path.relative`: the way from one directory to a path.
* `Path.normalize_ne_nil`: a normalised path is never empty.
-/

namespace DartModels

namespace Path

/-! ## Components -/

/-- A component of a path. -/
abbrev Part := List Char

/-- The directory itself. -/
def dot : Part := ['.']

/-- The directory above. -/
def dotDot : Part := ['.', '.']

/-- The parts between slashes, empty ones included. -/
def splitSlash (p : List Char) : List Part := splitAtChar '/' p

/-- Parts with slashes between them. -/
def joinSlash : List Part → List Char
  | [] => []
  | [p] => p
  | p :: ps => p ++ '/' :: joinSlash ps

/-- Whether a part names something: it is neither empty nor a dot. -/
def isNamed (p : Part) : Bool := !p.isEmpty && p != dot

/-- The number of slashes that root a path: none, one or two. -/
def rootSlashes : List Char → Nat
  | '/' :: '/' :: '/' :: _ => 1
  | '/' :: '/' :: _ => 2
  | '/' :: _ => 1
  | _ => 0

/-- Whether a path is rooted. -/
def isRooted (p : List Char) : Bool := p.head? == some '/'

/-! ## Normal form -/

/-- One component put on a stack of components, the top first.  A `..` takes the component below
it away; above a root it is dropped. -/
def push (rooted : Bool) (stack : List Part) (p : Part) : List Part :=
  if !isNamed p then stack
  else if p = dotDot then
    match stack with
    | [] => if rooted then [] else [dotDot]
    | q :: below => if q = dotDot then dotDot :: stack else below
  else p :: stack

/-- The components of a normalised path. -/
def reduce (rooted : Bool) (parts : List Part) : List Part :=
  (parts.foldl (push rooted) []).reverse

/-- A path without empty components, dots and `x/..`. -/
def normalizeChars (p : List Char) : List Char :=
  let root := rootSlashes p
  let body := joinSlash (reduce (root != 0) (splitSlash p))
  match List.replicate root '/' ++ body with
  | [] => dot
  | q => q

/-- A path without empty components, dots and `x/..`. -/
def normalize (p : String) : String := String.ofList (normalizeChars p.toList)

theorem normalize_ne_nil (p : List Char) : normalizeChars p ≠ [] := by
  unfold normalizeChars
  dsimp only
  split <;> simp_all [dot]

/-! ## Joining and taking apart -/

/-- A path below another one.  A rooted path replaces it. -/
def joinChars (base p : List Char) : List Char :=
  if isRooted p then p
  else if base.isEmpty || base.getLast? == some '/' then base ++ p
  else base ++ '/' :: p

/-- A path below another one.  A rooted path replaces it. -/
def join (base p : String) : String := String.ofList (joinChars base.toList p.toList)

/-- Everything up to the last slash, without the slashes at its end unless it is all slashes. -/
def dirnameChars (p : List Char) : List Char :=
  let head := (p.reverse.dropWhile (· != '/')).reverse
  if head.all (· == '/') then head else (head.reverse.dropWhile (· == '/')).reverse

/-- The directory part of a path. -/
def dirname (p : String) : String := String.ofList (dirnameChars p.toList)

/-- A path made absolute from a working directory, and normalised. -/
def absolute (workdir p : String) : String := normalize (join workdir p)

/-- The components of a path that name something. -/
def named (p : List Char) : List Part := (splitSlash p).filter isNamed

/-- What two component lists do not share: how many are left of the first, and the rest of the
second. -/
def diverge : List Part → List Part → Nat × List Part
  | a :: as, b :: bs => if a = b then diverge as bs else (as.length + 1, b :: bs)
  | as, bs => (as.length, bs)

/-- The way from a directory to a path, both as component lists. -/
def relativeParts (start target : List Part) : List Part :=
  let (up, down) := diverge start target
  match List.replicate up dotDot ++ down with
  | [] => [dot]
  | parts => parts

/-- The way from the directory `start` to `p`, both taken from a working directory. -/
def relative (workdir p start : String) : String :=
  let parts (q : String) := named (absolute workdir q).toList
  String.ofList (joinSlash (relativeParts (parts start) (parts p)))

/-! ## Tidy paths

A tidy path has no empty components and no dots, but keeps each `..`. -/

/-- A tidy path: the number of its root slashes and its components. -/
structure Tidy where
  root : Nat
  parts : List Part
  deriving DecidableEq, Inhabited

namespace Tidy

/-- A path made tidy. -/
def ofString (p : String) : Tidy := ⟨rootSlashes p.toList, named p.toList⟩

/-- The text of a tidy path. -/
def toString (p : Tidy) : String :=
  match List.replicate p.root '/' ++ joinSlash p.parts with
  | [] => "."
  | cs => String.ofList cs

/-- The path without its last component. -/
def parent (p : Tidy) : Tidy := ⟨p.root, p.parts.dropLast⟩

/-- The path of what lies a way below. -/
def down (p : Tidy) (way : List Part) : Tidy := ⟨p.root, p.parts ++ way⟩

/-- The last component, empty if there is none. -/
def name (p : Tidy) : String := String.ofList (p.parts.getLastD [])

end Tidy

/-- The text of a path made tidy. -/
def tidy (p : String) : String := (Tidy.ofString p).toString

/-- A path with all `x/..` taken away and one root slash, as the file system shows it. -/
def canonical (workdir p : String) : String :=
  let q := (absolute workdir p).toList
  String.ofList (if rootSlashes q = 2 then q.drop 1 else q)

end Path

end DartModels
