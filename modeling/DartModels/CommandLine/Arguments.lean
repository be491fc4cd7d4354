import DartModels.Error
import DartModels.Text.Similarity

/-!
# Arguments of the command

An argument is an option, the operand of the option before it, or extra.  A long option is spelled
in full and takes its operand after `=` or from the next argument.  Short options may stand in one
bundle, of which the first that takes an operand takes the rest.  After `--` all is extra.

* `Arguments.read`: the options that were given and the extra arguments.
* `UsageFault.message`: the wording of a wrong use.
-/

namespace DartModels

namespace CommandLine

/-! ## Options -/

/-- The options of the command. -/
inductive OptionName where
  | config
  | cwd
  | out
  | verbose
  | quiet
  | version
  | help
  deriving DecidableEq, Inhabited

namespace OptionName

/-- All options in the order of the help text. -/
def all : List OptionName := [config, cwd, out, verbose, quiet, version, help]

/-- The long spelling. -/
def long : OptionName → String
  | config => "--config"
  | cwd => "--cwd"
  | out => "--out"
  | verbose => "--verbose"
  | quiet => "--quiet"
  | version => "--version"
  | help => "--help"

/-- The letter of the short spelling. -/
def letter? : OptionName → Option Char
  | config => some 'c'
  | out => some 'o'
  | verbose => some 'v'
  | quiet => some 'q'
  | _ => none

/-- What the operand names, if the option takes one. -/
def operand? : OptionName → Option String
  | config => some "File"
  | cwd | out => some "Directory"
  | _ => none

/-- Whether the option takes an operand. -/
def takesOperand (o : OptionName) : Bool := o.operand?.isSome

/-- The option of a long spelling. -/
def ofLong? (spelled : String) : Option OptionName := all.find? (·.long == spelled)

/-- The option of a letter. -/
def ofLetter? (letter : Char) : Option OptionName := all.find? (·.letter? == some letter)

end OptionName

/-- The short spelling of a letter. -/
def shortSpelling (letter : Char) : String := String.ofList ['-', letter]

/-! ## Wrong use -/

/-- Why the operand of an option is refused. -/
inductive Refusal where
  | missing
  | isFile
  | isDirectory
  deriving DecidableEq, Inhabited

/-- The wording of a refusal. -/
def Refusal.text : Refusal → String
  | .missing => "does not exist"
  | .isFile => "is a file"
  | .isDirectory => "is a directory"

/-- A wrong use of the command. -/
inductive UsageFault where
  /-- An option that does not exist, with similar ones. -/
  | unknownOption (spelled : String) (similar : List String)
  /-- An option that lacks its operand. -/
  | missingOperand (spelled : String)
  /-- An option with an operand that it does not take. -/
  | unexpectedOperand (spelled : String)
  /-- An operand that the option cannot be given. -/
  | refusedOperand (option : OptionName) (operand : String) (refusal : Refusal)
  /-- Arguments that belong to no option. -/
  | extraArguments (arguments : List String)
  /-- Settings that cannot be used. -/
  | configuration (error : Error)
  deriving DecidableEq, Inhabited

namespace UsageFault

/-- The hint at similar options. -/
def hint : List String → String
  | [] => ""
  | [name] => " Did you mean " ++ Quoted.encode name ++ "?"
  | names => " (Did you mean one of: " ++ ", ".intercalate (names.map Quoted.encode) ++ "?)"

/-- The spellings of an option. -/
def spellings (o : OptionName) : String :=
  " / ".intercalate ((o.long :: (o.letter?.map shortSpelling).toList).map fun s => s!"'{s}'")

/-- The wording of a wrong use. -/
def message : UsageFault → String
  | .unknownOption spelled similar => s!"No such option {Quoted.encode spelled}." ++ hint similar
  | .missingOperand spelled => s!"Option {Quoted.encode spelled} requires an argument."
  | .unexpectedOperand spelled => s!"Option {Quoted.encode spelled} does not take a value."
  | .refusedOperand o operand refusal =>
    let named := o.operand?.getD ""
    s!"Invalid value for {spellings o}: {named} {Quoted.encode operand} {refusal.text}."
  | .extraArguments [a] => s!"Got unexpected extra argument ({a})"
  | .extraArguments as => "Got unexpected extra arguments (" ++ " ".intercalate as ++ ")"
  | .configuration e => e.message

/-- Whether the usage is shown with the message. -/
def showsUsage : UsageFault → Bool
  | .missingOperand _ | .unexpectedOperand _ => false
  | _ => true

end UsageFault

/-! ## Reading -/

/-- The options that were given with their operands, and the extra arguments, in order. -/
structure Arguments where
  given : List (OptionName × String)
  extra : List String
  deriving DecidableEq, Inhabited

namespace Arguments

/-- The state of reading: what was read, the option that waits for its operand with its spelling,
and whether the options have ended. -/
structure Reading where
  read : Arguments
  pending : Option (OptionName × String)
  ended : Bool
  deriving Inhabited

namespace Reading

/-- Nothing was read. -/
def start : Reading := ⟨⟨[], []⟩, none, false⟩

/-- Takes an option with its operand. -/
def give (s : Reading) (o : OptionName) (operand : String) : Reading :=
  { s with read := { s.read with given := s.read.given ++ [(o, operand)] }, pending := none }

/-- Takes an extra argument. -/
def addExtra (s : Reading) (argument : String) : Reading :=
  { s with read := { s.read with extra := s.read.extra ++ [argument] } }

/-- Takes an option whose operand is the next argument. -/
def await (s : Reading) (o : OptionName) (spelled : String) : Reading :=
  { s with pending := some (o, spelled) }

/-- Reads a bundle of short options. -/
def bundle (s : Reading) : List Char → Except UsageFault Reading
  | [] => .ok s
  | c :: rest =>
    match OptionName.ofLetter? c with
    | none => .error (.unknownOption (shortSpelling c) [])
    | some o =>
      if !o.takesOperand then bundle (s.give o "") rest
      else if rest.isEmpty then .ok (s.await o (shortSpelling c))
      else .ok (s.give o (String.ofList rest))

/-- Reads a long option with what follows its `=`, if it has one. -/
def longOption (s : Reading) (o : OptionName) (operand? : Option String) :
    Except UsageFault Reading :=
  match operand? with
  | some operand =>
    if o.takesOperand then .ok (s.give o operand) else .error (.unexpectedOperand o.long)
  | none => .ok (if o.takesOperand then s.await o o.long else s.give o "")

/-- Reads an argument that starts with a dash. -/
def option (s : Reading) (argument : List Char) : Except UsageFault Reading :=
  let spelled := String.ofList (argument.takeWhile (· != '='))
  match OptionName.ofLong? spelled with
  | some o =>
    let operand? :=
      match argument.dropWhile (· != '=') with
      | _ :: operand => some (String.ofList operand)
      | [] => none
    s.longOption o operand?
  | none =>
    if ['-', '-'].isPrefixOf argument then
      .error (.unknownOption spelled
        (Similarity.closest 3 spelled (OptionName.all.map (·.long))))
    else s.bundle argument.tail

/-- Reads an argument. -/
def step (s : Reading) (argument : String) : Except UsageFault Reading :=
  match s.pending with
  | some (o, _) => .ok (s.give o argument)
  | none =>
    if s.ended then .ok (s.addExtra argument)
    else if argument = "--" then .ok { s with ended := true }
    else if argument.toList.head? == some '-' && 1 < argument.length then s.option argument.toList
    else .ok (s.addExtra argument)

end Reading

/-- Reads the arguments of the command. -/
def read (arguments : List String) : Except UsageFault Arguments := do
  let s ← arguments.foldlM Reading.step Reading.start
  match s.pending with
  | some (_, spelled) => throw (.missingOperand spelled)
  | none => return s.read

end Arguments

end CommandLine

end DartModels
