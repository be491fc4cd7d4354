import DartModels.Dart.Validation
import DartModels.FileSystem

/-!
# Atomic writes

A file is written to a temporary sibling that then takes the place of the target, so the target
is written completely or not at all.  Any step may be refused for a reason that lies outside of the
tree, such as a full disk or a missing permission.

* `AtomicWrite.write`: checks a text and writes it.
* `AtomicWrite.writeUnder`: the same where steps are refused; no temporary file is left.
* `AtomicWrite.makeDirectories`: creates a directory with all above it that are missing.
-/

namespace DartModels

/-- A step that may change the file system and may fail; what it changed before it failed stays. -/
abbrev FileAction := ExceptT Error (StateM FileSystem)

/-- The outcome of a step and the file system after it. -/
def FileAction.exec {α : Type} (action : FileAction α) (fs : FileSystem) :
    Except Error α × FileSystem :=
  (ExceptT.run action).run fs

namespace AtomicWrite

/-! ## Refusals -/

/-- What a write asks of the file system. -/
inductive Step where
  | createDirectory (path : String)
  | createFile
  | fillFile
  | moveFile
  deriving DecidableEq, Inhabited

/-- The steps that are refused whatever the tree holds, and why. -/
abbrev Refusals := Step → Option OsCause

/-- No step is refused. -/
def Refusals.none : Refusals := fun _ => Option.none

/-- Whether a step may be taken. -/
def Refusals.allow (refuse : Refusals) (step : Step) : Except OsCause Unit :=
  match refuse step with
  | some cause => .error cause
  | Option.none => .ok ()

/-! ## Directories -/

/-- The file system with a new directory. -/
def createDirectory (refuse : Refusals) (fs : FileSystem) (path : String) :
    Except OsCause FileSystem := do
  refuse.allow (.createDirectory path)
  let loc ← fs.locate path
  match fs.lookup loc with
  | some _ => throw .fileExists
  | none => return fs.set loc .directory

/-- Accepts a refusal to create a directory that is there already. -/
def acceptExisting (cause : OsCause) (path : String) : FileAction Unit := do
  if (← get).isDirectory path then return else throw (.os cause path)

/-- Creates a directory unless it is there already.  Where the directory above it is missing, `above`
decides. -/
def makeDirectory (refuse : Refusals) (dir : Path.Tidy) (above : FileAction Unit) :
    FileAction Unit := do
  let path := dir.toString
  if FileSystem.hasNul path then throw .nulInPath
  match createDirectory refuse (← get) path with
  | .ok fs => set fs
  | .error .noEntry => above
  | .error cause => acceptExisting cause path

/-- Creates a directory with all above it, the nearest `fuel` at most. -/
def makeDirectories (refuse : Refusals) : Nat → Path.Tidy → FileAction Unit
  | 0, dir => makeDirectory refuse dir (throw (.os .noEntry dir.toString))
  | fuel + 1, dir =>
    makeDirectory refuse dir do
      if dir.parent = dir then throw (.os .noEntry dir.toString)
      makeDirectories refuse fuel dir.parent
      makeDirectory refuse dir (throw (.os .noEntry dir.toString))

/-! ## Files -/

/-- The name of a temporary file, with stars for its random part. -/
def temporaryName (name : String) : String := "." ++ name ++ ".********.tmp"

/-- Where a temporary file stands in a directory.  Its random name is free, so it stands for one that
no entry can have. -/
def spare (dir : Location) : Location := dir ++ [['/']]

/-- Creates an empty temporary file. -/
def createFile (refuse : Refusals) (path : String) : FileAction Location := do
  let fs ← get
  if FileSystem.hasNul path then throw .nulInPath
  match (do refuse.allow .createFile; fs.locate path) with
  | .error cause => throw (.os cause path)
  | .ok loc =>
    let place := spare loc.dropLast
    if (fs.lookup place).isSome then throw (.os .fileExists path)
    set (fs.set place (.file []))
    return place

/-- Why a path cannot be the target of a move, or its location. -/
def moveTarget (fs : FileSystem) (target : Path.Tidy) : Except OsCause Location := do
  let loc ← fs.locate target.toString
  if target.parts.isEmpty || target.parts.getLast? == some Path.dotDot then throw .busy
  match fs.lookup loc with
  | some .directory => throw .isDirectory
  | _ => return loc

/-- Fills a temporary file and moves it to its target, or removes it. -/
def moveInto (refuse : Refusals) (temporary : String) (loc : Location) (content : List UInt8)
    (target : Path.Tidy) : FileAction Unit := do
  let fs ← get
  match (do refuse.allow .fillFile; refuse.allow .moveFile; moveTarget fs target) with
  | .ok place => set ((fs.erase loc).set place (.file content))
  | .error cause =>
    set (fs.erase loc)
    throw (.osPair cause temporary target.toString)

/-- Writes a text to a file where steps are refused. -/
def replaceFile (refuse : Refusals) (path content : String) : FileAction Unit := do
  let target := Path.Tidy.ofString path
  makeDirectories refuse target.parent.parts.length target.parent
  let dir := (← get).absolute target.parent.toString
  let temporary := Path.join dir (temporaryName target.name)
  let loc ← createFile refuse temporary
  moveInto refuse temporary loc (Utf8.encode content) target

/-- The same after the check of generated code if `check` is set. -/
def writeUnder (refuse : Refusals) (path content : String) (check : Bool) : FileAction Unit := do
  if check then liftM (Dart.validate content)
  replaceFile refuse path content

/-- Writes a text to a file, after the check of generated code if `check` is set. -/
def write (path content : String) (check : Bool) : FileAction Unit :=
  writeUnder Refusals.none path content check

end AtomicWrite

end DartModels
