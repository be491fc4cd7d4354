import DartModels.Aliases
import DartModels.NameFormat
import DartModels.Syntax.Reader

/-!
# The environment

What a run takes from elsewhere: a parser, the modules that can be imported, and the attributes that
the language gives to its objects.

* `Environment`: the three of them.
-/

namespace DartModels

/-- What lies outside of the program. -/
structure Environment where
  reader : Syntax.Reader
  library : Library
  attributes : Attributes
  deriving Inhabited

end DartModels
