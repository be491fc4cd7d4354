import DartModels.FileSystem
import DartModels.Program
import DartModels.Settings

/-!
# Options files

* `Settings.load`: the settings of a JSON file, their directories made absolute from its directory.
-/

namespace DartModels

namespace Settings

/-- The name of the options file of a directory. -/
def defaultFilename : String := Program.name ++ ".json"

/-- Why an options file is not read.  Only a text that is no document is a matter of configuration. -/
def readingError (path : String) : Json.TextFault → Error
  | .malformed fault => .invalidOptionsFile path fault
  | .digits count => .longNumber count
  | .surrogate => .surrogate

/-- The document in a file. -/
def readDocument (fs : FileSystem) (path : String) : Except Error Json := do
  let bytes ← fs.readFile path
  let text ← (Utf8.decode bytes).mapError Error.encoding
  (Json.parse (String.ofList (Utf8.universalLines text))).mapError (readingError path)

/-- The settings of an options file. -/
def load (fs : FileSystem) (path : String) : Except Error Settings := do
  let file := Path.Tidy.ofString path
  if !(← fs.exists? file.toString) then throw (.noOptionsFile file.toString)
  let settings ← ofJson (← readDocument fs file.toString)
  settings.resolvePaths (fs.absolute file.parent.toString)

end Settings

end DartModels
