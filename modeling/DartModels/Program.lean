/-!
# The program

The name and the version that the command, its files and its output carry.
-/

namespace DartModels

namespace Program

/-- The name of the command. -/
def name : String := "darmogen"

/-- The version of the command. -/
def version : String := "1.0.0"

end Program

end DartModels
