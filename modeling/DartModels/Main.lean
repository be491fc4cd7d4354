import DartModels.CommandLine.Command
import DartModels.Standard

/-!
# The executable

Reads the options file and the directories that a call works in, makes the call on them, and then
writes what it changed and prints what it said.
-/

open DartModels

namespace Main

/-- The text of a location. -/
def pathOf (loc : Location) : String := String.ofList ('/' :: Path.joinSlash loc)

/-- The directories above a location. -/
def above (loc : Location) : List (Location × Entry) :=
  (List.range loc.length).map fun i => (loc.take i, .directory)

/-- What stands at a location, with everything below it if `deep` is set. -/
partial def entriesAt (deep : Bool) (loc : Location) : IO (List (Location × Entry)) := do
  try
    let path ← IO.FS.realPath (pathOf loc)
    if ← path.isDir then
      let found ← if deep then path.readDir else pure #[]
      let below ← found.toList.mapM fun entry => entriesAt deep (loc ++ [entry.fileName.toList])
      return (loc, .directory) :: below.flatten
    else
      let content ← IO.FS.readBinFile path
      return [(loc, .file content.toList)]
  catch _ => return []

/-- The file system with what stands at the given paths. -/
def snapshot (deep : Bool) (fs : FileSystem) (paths : List String) : IO FileSystem := do
  let found ← paths.mapM fun path => do
    let loc := Path.named (fs.absolute path).toList
    return above loc ++ (← entriesAt deep loc)
  return { fs with entries := fs.entries ++ found.flatten }

/-- Writes an entry. -/
def writeEntry (loc : Location) : Entry → IO Unit
  | .directory => IO.FS.createDirAll (pathOf loc)
  | .file content => IO.FS.writeBinFile (pathOf loc) ⟨content.toArray⟩

end Main

def main (arguments : List String) : IO UInt32 := do
  let here ← IO.currentDir
  let empty : FileSystem := ⟨[], Path.named here.toString.toList⟩
  let first ← Main.snapshot false empty
    (Settings.defaultFilename :: "." :: CommandLine.operands arguments)
  let fs ← Main.snapshot true first (CommandLine.directories first arguments)
  let outcome := CommandLine.command (.standard fs) .inTurn fs arguments
  for (loc, entry) in outcome.files.changesSince fs do
    Main.writeEntry loc entry
  IO.print outcome.out
  IO.eprint outcome.err
  if let some e := outcome.unhandled then IO.eprintln e.message
  return outcome.exitCode.toUInt32
