import DartModels.Error
import DartModels.Path
import DartModels.Text.Wildcard

/-!
# File systems

A file system is a finite tree of directories and regular files.  A path is walked component by
component from the root or from the working directory, and each component on the way has to be a
directory.

* `FileSystem.lookup`: the entry at a location.
* `FileSystem.stat`: the entry that a path names, or why it names none.
* `FileSystem.glob`: the paths below a directory that match a pattern.
* `FileSystem.lookup_set`: setting an entry changes that location alone.
-/

namespace DartModels

/-- What stands at a location. -/
inductive Entry where
  | directory
  | file (content : List UInt8)
  deriving DecidableEq, Inhabited

/-- A location: the names on the way down from the root. -/
abbrev Location := List Path.Part

/-- A tree of directories and files with a working directory. -/
structure FileSystem where
  entries : List (Location × Entry)
  workdir : Location
  deriving Inhabited

namespace FileSystem

/-! ## Entries -/

/-- The entry of a location in a table. -/
def find (loc : Location) : List (Location × Entry) → Option Entry
  | [] => none
  | (l, e) :: rest => if l = loc then some e else find loc rest

/-- The table with an entry set. -/
def put (loc : Location) (entry : Entry) : List (Location × Entry) → List (Location × Entry)
  | [] => [(loc, entry)]
  | (l, e) :: rest => if l = loc then (l, entry) :: rest else (l, e) :: put loc entry rest

/-- The entry at a location.  The root is always a directory. -/
def lookup (fs : FileSystem) (loc : Location) : Option Entry :=
  if loc = [] then some .directory else find loc fs.entries

/-- The file system with an entry set. -/
def set (fs : FileSystem) (loc : Location) (entry : Entry) : FileSystem :=
  { fs with entries := put loc entry fs.entries }

/-- The file system without the entry at a location. -/
def erase (fs : FileSystem) (loc : Location) : FileSystem :=
  { fs with entries := fs.entries.filter fun e => e.1 ≠ loc }

theorem find_put (l loc : Location) (entry : Entry) (es : List (Location × Entry)) :
    find l (put loc entry es) = if l = loc then some entry else find l es := by
  induction es with
  | nil => simp [put, find, eq_comm]
  | cons e rest ih =>
    obtain ⟨l', e'⟩ := e
    by_cases h : l' = loc <;> by_cases h' : l' = l <;> simp_all [put, find]
    intro h''
    exact absurd h''.symm h'

/-- Setting an entry changes that location alone. -/
theorem lookup_set (fs : FileSystem) (l loc : Location) (entry : Entry) (h : loc ≠ []) :
    (fs.set loc entry).lookup l = if l = loc then some entry else fs.lookup l := by
  unfold lookup set
  rw [find_put]
  by_cases hl : l = []
  · subst hl
    simp [Ne.symm h]
  · simp [hl]

/-! ## Walking -/

/-- The longest name of an entry in bytes. -/
def maxName : Nat := 255

/-- The longest path in bytes. -/
def maxPath : Nat := 4095

/-- Whether a name is longer than an entry's may be. -/
def isTooLong (name : Path.Part) : Bool := maxName < (String.ofList name).utf8ByteSize

/-- Walks down from a directory.  The last component need not exist. -/
def walk (fs : FileSystem) (current : Location) : List Path.Part → Except OsCause Location
  | [] => .ok current
  | p :: rest =>
    if !Path.isNamed p then walk fs current rest
    else if p = Path.dotDot then walk fs current.dropLast rest
    else if isTooLong p then .error .nameTooLong
    else if rest.isEmpty then .ok (current ++ [p])
    else
      match fs.lookup (current ++ [p]) with
      | some .directory => walk fs (current ++ [p]) rest
      | some (.file _) => .error .notDirectory
      | none => .error .noEntry

/-- The location that a path names, whether or not an entry is there. -/
def locate (fs : FileSystem) (path : String) : Except OsCause Location :=
  if path.isEmpty then .error .noEntry
  else if maxPath < path.utf8ByteSize then .error .nameTooLong
  else walk fs (if Path.isRooted path.toList then [] else fs.workdir) (Path.splitSlash path.toList)

/-- The entry that a path names. -/
def stat (fs : FileSystem) (path : String) : Except OsCause Entry := do
  let loc ← fs.locate path
  match fs.lookup loc with
  | some entry => return entry
  | none => throw .noEntry

/-- Whether a path holds the character NUL, which no path may. -/
def hasNul (path : String) : Bool := path.toList.contains '\x00'

/-- Whether a path names a regular file. -/
def isFile (fs : FileSystem) (path : String) : Bool :=
  !hasNul path &&
    match fs.stat path with
    | .ok (.file _) => true
    | _ => false

/-- Whether a path names a directory. -/
def isDirectory (fs : FileSystem) (path : String) : Bool :=
  !hasNul path &&
    match fs.stat path with
    | .ok .directory => true
    | _ => false

/-- Whether a path names an entry.  A name that is too long is an error. -/
def exists? (fs : FileSystem) (path : String) : Except Error Bool :=
  if hasNul path then .ok false
  else
    match fs.stat path with
    | .ok _ => .ok true
    | .error .noEntry | .error .notDirectory => .ok false
    | .error cause => .error (.os cause path)

/-- The content of the file that a path names. -/
def readFile (fs : FileSystem) (path : String) : Except Error (List UInt8) :=
  if hasNul path then .error .nulInPath
  else
    match fs.stat path with
    | .ok (.file content) => .ok content
    | .ok .directory => .error (.os .isDirectory path)
    | .error cause => .error (.os cause path)

/-- The working directory as a path. -/
def workdirPath (fs : FileSystem) : String := String.ofList ('/' :: Path.joinSlash fs.workdir)

/-- A path made absolute from the working directory. -/
def absolute (fs : FileSystem) (path : String) : String := Path.absolute fs.workdirPath path

/-- The way from the directory `start` to a path. -/
def relative (fs : FileSystem) (path start : String) : String :=
  Path.relative fs.workdirPath path start

/-! ## Whole trees -/

/-- Makes a location a directory together with all above it, where nothing is there yet. -/
def makeParents (fs : FileSystem) (loc : Location) : FileSystem :=
  (List.range loc.length).foldl (fun fs i =>
    let above := loc.take (i + 1)
    if (fs.lookup above).isSome then fs else fs.set above .directory) fs

/-- Places an entry at a path, with the directories above it. -/
def place (fs : FileSystem) (path : String) (entry : Entry) : FileSystem :=
  let loc := Path.named (fs.absolute path).toList
  let fs := fs.makeParents loc.dropLast
  match entry with
  | .directory => fs.makeParents loc
  | .file _ => if loc = [] then fs else fs.set loc entry

/-- Removes the file at a path. -/
def remove (fs : FileSystem) (path : String) : Except Error FileSystem := do
  let loc ← (fs.locate path).mapError (Error.os · path)
  match fs.lookup loc with
  | some (.file _) => return fs.erase loc
  | some .directory => throw (.os .isDirectory path)
  | none => throw (.os .noEntry path)

/-- The files below a directory with their paths relative to it, sorted by path. -/
def filesBelow (fs : FileSystem) (dir : Location) : List (String × List UInt8) :=
  let files := fs.entries.filterMap fun (loc, entry) =>
    match entry with
    | .file content =>
      if dir.isPrefixOf loc && dir.length < loc.length then
        some (String.ofList (Path.joinSlash (loc.drop dir.length)), content)
      else none
    | .directory => none
  files.mergeSort fun a b => !decide (b.1 < a.1)

/-- The entries of a file system that another one does not have, or has with other content. -/
def changesSince (fs before : FileSystem) : List (Location × Entry) :=
  fs.entries.filter fun (loc, entry) => before.lookup loc ≠ some entry

/-! ## Patterns -/

/-- The names in a directory. -/
def namesIn (fs : FileSystem) (dir : Location) : List Path.Part :=
  fs.entries.filterMap fun (loc, _) => if loc.dropLast = dir then loc.getLast? else none

/-- The ways down to all directories at or below a directory. -/
def directoriesFrom (fs : FileSystem) (dir : Location) : List Location :=
  [] :: fs.entries.filterMap fun (loc, entry) =>
    if entry = .directory && dir.isPrefixOf loc && dir.length < loc.length then
      some (loc.drop dir.length)
    else none

/-- A component of a path pattern. -/
inductive PatternPart where
  | recursive
  | pattern (items : List Wildcard.Item)
  | fixed (name : Path.Part)
  deriving DecidableEq, Inhabited

/-- Whether a text holds two stars in a row. -/
def hasDoubleStar : List Char → Bool
  | '*' :: '*' :: _ => true
  | _ :: rest => hasDoubleStar rest
  | [] => false

/-- A component of a path pattern. -/
def readPart (p : Path.Part) : Except Error PatternPart :=
  if p = ['*', '*'] then .ok .recursive
  else if hasDoubleStar p then .error .invalidPattern
  else if Wildcard.isPattern p then .ok (.pattern (Wildcard.parse p))
  else .ok (.fixed p)

/-- The components of a path pattern. -/
def readPattern (pattern : String) : Except Error (List PatternPart) :=
  (Path.named pattern.toList).mapM readPart

/-- What stands at the end of a way from the directory at a path. -/
def look (fs : FileSystem) (dir : Path.Tidy) (way : List Path.Part) :
    Except Error (Option Entry) :=
  let path := (dir.down way).toString
  if hasNul path then .ok none
  else
    match fs.stat path with
    | .ok entry => .ok (some entry)
    | .error .nameTooLong => .error (.os .nameTooLong path)
    | .error _ => .ok none

/-- The ways from the directory `dir` that match a pattern, below the way `way`, which leads to the
location `here`.  A path that is too long to be looked at is an error. -/
def select (fs : FileSystem) (dir : Path.Tidy) :
    List PatternPart → Location → List Path.Part → Except Error (List (List Path.Part))
  | [], _, way => return [way]
  | .recursive :: rest, here, way => do
    let ways ← (fs.directoriesFrom here).mapM fun down => do
      let _ ← fs.look dir (way ++ down)
      select fs dir rest (here ++ down) (way ++ down)
    return ways.flatten
  | .pattern items :: rest, here, way => do
    let _ ← fs.look dir way
    let names := (fs.namesIn here).filter fun name =>
      Wildcard.matchItems items name &&
        (rest.isEmpty || fs.lookup (here ++ [name]) = some .directory)
    let ways ← names.mapM fun name => select fs dir rest (here ++ [name]) (way ++ [name])
    return ways.flatten
  | .fixed name :: rest, here, way => do
    let next := if name = Path.dotDot then here.dropLast else here ++ [name]
    match ← fs.look dir (way ++ [name]) with
    | some .directory => select fs dir rest next (way ++ [name])
    | some (.file _) => if rest.isEmpty then return [way ++ [name]] else return []
    | none => return []

/-- The paths of the files at any depth below a directory that match a pattern, relative to the
directory, each once and in increasing order. -/
def glob (fs : FileSystem) (dir pattern : String) : Except Error (List String) := do
  let parts ← readPattern pattern
  let start := Path.Tidy.ofString dir
  match ← fs.look start [] with
  | some .directory =>
    let here ← (fs.locate start.toString).mapError (Error.os · dir)
    let ways ← fs.select start (.recursive :: parts) here []
    if pattern.toList.getLast? == some '/' then return []
    else
      let found ← ways.mapM fun way => do return (way, ← fs.look start way)
      let files := found.filter fun (_, entry) => entry matches some (.file _)
      let paths := files.map fun (way, _) => String.ofList (Path.joinSlash way)
      return (paths.mergeSort fun a b => !decide (b < a)).eraseReps
  | _ => return []

end FileSystem

end DartModels
