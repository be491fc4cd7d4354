import DartModels.CommandLine.Arguments
import DartModels.OptionsFile

/-!
# Help

The texts that the command shows about itself.

* `Help.text`: the whole help, one line for each option.
* `Help.usage`: what precedes the message of a wrong use.
-/

namespace DartModels

namespace CommandLine

namespace Help

/-- What an option does. -/
def purpose : OptionName → String
  | .config => s!"Options file (default: ./{Settings.defaultFilename})"
  | .cwd => "Override the parser source directory"
  | .out => "Override the output directory"
  | .verbose => "Log resolution details"
  | .quiet => "Hide progress bars and summary"
  | .version => "Show the version and exit."
  | .help => "Show this message and exit."

/-- An option as it is written, the short spelling first. -/
def spelling (o : OptionName) : String :=
  let names := (o.letter?.map shortSpelling).toList ++ [o.long]
  let operand := (o.operand?.map fun name => " " ++ name.toUpper).getD ""
  ", ".intercalate names ++ operand

/-- The width of the column of spellings. -/
def column : Nat := (OptionName.all.map fun o => (spelling o).length).foldl max 0 + 2

/-- The line of an option. -/
def line (o : OptionName) : String :=
  let first := spelling o
  "  " ++ first ++ "".pushn ' ' (column - first.length) ++ purpose o ++ "\n"

/-- How the command is called. -/
def synopsis : String := s!"Usage: {Program.name} [OPTIONS]\n"

/-- The whole help. -/
def text : String :=
  synopsis ++ "\n  Generate Dart models from TypeScript entities.\n\nOptions:\n" ++
    String.join (OptionName.all.map line)

/-- What precedes the message of a wrong use. -/
def usage : String := synopsis ++ s!"Try '{Program.name} --help' for help.\n\n"

/-- The version line. -/
def version : String := s!"{Program.name}, version {Program.version}\n"

end Help

end CommandLine

end DartModels
