import DartModels.Syntax.ClassReader

/-!
# Reading source files

Reads the statements of a source.  Class declarations, exports and imports become nodes of their
own; every other statement is stepped over as a whole, so that a class inside of it is not seen.

* `ModuleReader.readImport`: an import, after its keyword.
* `ModuleReader.readStatement`: the statement that comes next.
* `ModuleReader.read`: the tree of a source.
-/

namespace DartModels

namespace Syntax

namespace ModuleReader

/-! ## Ends of statements -/

/-- What follows a semicolon, if one comes next. -/
def afterSemicolon (ts : List Tree) : List Tree := (Tree.afterMark? ";" ts).getD ts

/-- What follows an expression that is a statement. -/
def skipExpression (ts : List Tree) : List Tree := afterSemicolon (Expression.skip false ts)

/-- What follows a group with a given opening bracket, if one comes next. -/
def skipGroup (bracket : String) (ts : List Tree) : List Tree :=
  ((Tree.afterGroup? bracket ts).map (·.2)).getD ts

/-- What follows a word, if it comes next. -/
def skipWord (w : String) (ts : List Tree) : List Tree := (Tree.afterWord? w ts).getD ts

/-- What follows the next word, if there is one. -/
def skipName (ts : List Tree) : List Tree := ((Tree.nextWord? ts).map (·.2)).getD ts

/-- What follows a dotted name or a string. -/
def skipDotted : Nat → List Tree → List Tree
  | 0, ts => ts
  | fuel + 1, ts =>
    match Tree.skipComments ts with
    | .leaf t :: rest =>
      if t.kind == .word || t.kind == .string then
        match Tree.afterMark? "." rest with
        | some after => skipDotted fuel after
        | none => rest
      else ts
    | _ => ts

/-! ## Imports -/

/-- The trees of a list between its commas. -/
def splitCommas : List Tree → List (List Tree)
  | [] => [[]]
  | t :: rest =>
    if t.first.isMark "," then [] :: splitCommas rest
    else
      match splitCommas rest with
      | [] => [[t]]
      | p :: ps => (t :: p) :: ps

/-- A name of an import list, with its local name if it has one. -/
def readSpecifier (ts : List Tree) : Option Node :=
  let parts := ts.filter fun t => !t.isComment
  let name (t : Tree) : Node := (Node.leaf .identifier [t]).labelled .name
  let alias_ (t : Tree) : Node := (Node.leaf .identifier [t]).labelled .alias
  let specifier (children : List Node) : Option Node :=
    some (.mk .importSpecifier .none (Tree.written parts) children)
  match parts with
  | [a] | [_, a] => specifier [name a]
  | [a, _, b] | [_, a, _, b] => specifier [name a, alias_ b]
  | _ => none

/-- The names of an import list. -/
def readNames (content : List Tree) : Node :=
  .mk .namedImports .none (Tree.written content) ((splitCommas content).filterMap readSpecifier)

/-- An import of the whole module under a name. -/
def readNamespace (ts : List Tree) : Option (Node × List Tree) := do
  let after ← Tree.afterMark? "*" ts
  let (w, rest) ← Tree.nextWord? (← Tree.afterWord? "as" after)
  return (.mk .namespaceImport .none "" [.mk .identifier .none w []], rest)

/-- Names after the default one, or instead of it. -/
def readBindings (ts : List Tree) : Option (Node × List Tree) :=
  match Tree.afterGroup? "\x7b" ts with
  | some (content, rest) => some (readNames content, rest)
  | none => readNamespace ts

/-- What an import binds. -/
def readClause (ts : List Tree) : Option (Node × List Tree) := do
  let start := Tree.skipComments ts
  match readBindings ts with
  | some (node, rest) => return (.covering .importClause start rest [node], rest)
  | none =>
    let (w, rest) ← Tree.nextWord? ts
    let default : Node := .mk .identifier .none w []
    match (Tree.afterMark? "," rest).bind readBindings with
    | some (node, after) => return (.covering .importClause start after [default, node], after)
    | none => return (.covering .importClause start rest [default], rest)

/-- The string that names a module. -/
def readSource (ts : List Tree) : Option (Node × List Tree) :=
  match Tree.skipComments ts with
  | .leaf t :: rest =>
    if t.kind == .string then some ((Node.leaf .string [.leaf t]).labelled .source, rest) else none
  | _ => none

/-- What follows the properties of an import and its semicolon. -/
def afterAttributes (ts : List Tree) : List Tree :=
  let rest :=
    match (Tree.afterWord? "with" ts).orElse fun _ => Tree.afterWord? "assert" ts with
    | some after => skipGroup "\x7b" after
    | none => ts
  afterSemicolon rest

/-- A clause with the module it imports from. -/
def readFrom (ts : List Tree) : Option (List Node × List Tree) := do
  let (clause, rest) ← readClause ts
  let (source, after) ← readSource (← Tree.afterWord? "from" rest)
  return ([clause, source], afterAttributes after)

/-- An import after its keyword: names from a module, a module alone, or another name for
something, which has no node. -/
def readImport (ts : List Tree) : List Node × List Tree :=
  match readSource ts with
  | some (source, rest) => ([source], afterAttributes rest)
  | none =>
    let unmarked := skipWord "typeof" (skipWord "type" ts)
    match (readFrom ts).orElse fun _ => readFrom unmarked with
    | some found => found
    | none => ([], skipExpression ts)

/-! ## Statements -/

/-- What follows a declaration of variables. -/
def skipVariables : Nat → List Tree → List Tree
  | 0, ts => ts
  | fuel + 1, ts =>
    let rest :=
      match Tree.skipComments ts with
      | _ :: rest => rest
      | [] => []
    let rest := (Tree.afterMark? "!" rest).getD rest
    let rest :=
      match Tree.afterMark? ":" rest with
      | some after =>
        ((TypeReader.read? true (Tree.skipComments after)).map (·.2)).getD after
      | none => rest
    let rest := ClassReader.skipInitial rest
    match Tree.afterMark? "," rest with
    | some after => skipVariables fuel after
    | none => afterSemicolon rest

/-- What follows the types after `extends` of an interface. -/
def skipBases (ts : List Tree) : List Tree :=
  match Tree.afterWord? "extends" ts with
  | some after => (ClassReader.readInterfaces after.length after).2
  | none => ts

/-- What follows a type alias after its name. -/
def skipAlias (ts : List Tree) : List Tree :=
  match Tree.afterMark? "=" (Tree.skipAngles ts) with
  | some after =>
    afterSemicolon (((TypeReader.read? true (Tree.skipComments after)).map (·.2)).getD after)
  | none => ts

/-- Whether a word comes next on the same line. -/
def wordFollows (ts : List Tree) : Bool := !Tree.opensLine ts && (Tree.nextWord? ts).isSome

/-- Whether a string comes next on the same line. -/
def stringFollows (ts : List Tree) : Bool :=
  !Tree.opensLine ts && ((Tree.nextToken? ts).any fun t => t.kind == .string)

/-- What follows an export of names or of a whole module. -/
def skipReexport (ts : List Tree) : List Tree :=
  let rest :=
    match Tree.afterMark? "*" ts with
    | some after =>
      match Tree.afterWord? "as" after with
      | some named => skipDotted 1 named
      | none => after
    | none => skipGroup "\x7b" ts
  match (Tree.afterWord? "from" rest).bind readSource with
  | some (_, after) => afterAttributes after
  | none => afterSemicolon rest

/-- A statement without a node of its own. -/
def plain (rest : List Tree) : Node × List Tree := (.mk .statement .none "" [], rest)

mutual

/-- The statement that comes next. -/
def readStatement : Nat → List Tree → Node × List Tree
  | 0, ts => plain (ts.drop 1)
  | fuel + 1, ts =>
    let start := Tree.skipComments ts
    let (decorators, after) := ClassReader.readDecorators start.length start
    match ClassReader.readClass? decorators after with
    | some (node, rest) => (node.labelled .none, rest)
    | none =>
      match Tree.afterWord? "export" after with
      | some rest => readExport fuel decorators start rest
      | none => readPlain fuel start

/-- An export after its keyword. -/
def readExport : Nat → List Node → List Tree → List Tree → Node × List Tree
  | 0, _, _, ts => plain ts
  | fuel + 1, before, start, ts =>
    let body := skipWord "default" ts
    let (decorators, after) := ClassReader.readDecorators body.length body
    match ClassReader.readClass? decorators after with
    | some (node, rest) =>
      let comments := Node.ofComments (Node.between ts (Tree.skipComments body))
      (.covering .exportStatement start rest (before ++ comments ++ [node.labelled .declaration]),
        rest)
    | none =>
      let rest :=
        if (Tree.afterWord? "default" ts).isSome then
          if (Tree.afterWord? "class" after).isSome then afterSemicolon (Expression.afterBody after)
          else (readPlain fuel body).2
        else
          let unmarked := skipWord "type" ts
          if (Tree.afterMark? "*" unmarked).isSome || (Tree.afterGroup? "\x7b" unmarked).isSome then
            skipReexport unmarked
          else
            match Tree.afterMark? "=" ts, Tree.afterWord? "as" ts with
            | some value, _ => skipExpression value
            | none, some named => afterSemicolon (skipName (skipWord "namespace" named))
            | none, none => (readPlain fuel ts).2
      (.covering .exportStatement start rest before, rest)

/-- A statement that is no class and no export. -/
def readPlain : Nat → List Tree → Node × List Tree
  | 0, ts => plain (ts.drop 1)
  | fuel + 1, ts =>
    let nested (rest : List Tree) : List Tree := (readStatement fuel rest).2
    match Tree.skipComments ts with
    | [] => plain []
    | .group opening _ _ :: rest =>
      if opening.isMark "\x7b" then plain rest else plain (skipExpression ts)
    | .leaf t :: rest =>
      if t.isMark ";" then plain rest
      else if t.kind != .word then plain (skipExpression ts)
      else if (Tree.afterMark? ":" rest).isSome then
        plain (nested ((Tree.afterMark? ":" rest).getD rest))
      else
        let w := Expression.textOf t
        match w with
        | "import" =>
          if (Tree.afterGroup? "(" rest).isSome || (Tree.afterMark? "." rest).isSome then
            plain (skipExpression ts)
          else
            let (children, after) := readImport rest
            (.covering .importStatement (Tree.skipComments ts) after children, after)
        | "function" => plain (afterSemicolon (Expression.skipFunction rest))
        | "async" =>
          match Tree.afterWord? "function" rest with
          | some after => plain (afterSemicolon (Expression.skipFunction after))
          | none => plain (skipExpression ts)
        | "const" =>
          match Tree.afterWord? "enum" rest with
          | some after => plain (skipGroup "\x7b" (skipName after))
          | none => plain (skipVariables rest.length rest)
        | "var" => plain (skipVariables rest.length rest)
        | "let" =>
          if wordFollows rest || (Tree.afterGroup? "[" rest).isSome ||
              (Tree.afterGroup? "\x7b" rest).isSome || Tree.opensLine rest then
            plain (skipVariables rest.length rest)
          else plain (skipExpression ts)
        | "enum" => plain (skipGroup "\x7b" (skipName rest))
        | "interface" =>
          if wordFollows rest then
            plain (skipGroup "\x7b" (skipBases (Tree.skipAngles (skipName rest))))
          else plain (skipExpression ts)
        | "type" =>
          if wordFollows rest then plain (skipAlias (skipName rest)) else plain (skipExpression ts)
        | "namespace" | "module" =>
          if wordFollows rest || stringFollows rest then
            plain (afterSemicolon (skipGroup "\x7b" (skipDotted rest.length rest)))
          else plain (skipExpression ts)
        | "global" =>
          if (Tree.afterGroup? "\x7b" rest).isSome then plain (skipGroup "\x7b" rest)
          else plain (skipExpression ts)
        | "declare" => if wordFollows rest then plain (nested rest) else plain (skipExpression ts)
        | "if" =>
          let branch := nested (skipGroup "(" rest)
          match Tree.afterWord? "else" branch with
          | some other => plain (nested other)
          | none => plain branch
        | "for" => plain (nested (skipGroup "(" (skipWord "await" rest)))
        | "while" | "with" => plain (nested (skipGroup "(" rest))
        | "do" =>
          let body := nested rest
          plain (afterSemicolon (skipGroup "(" (skipWord "while" body)))
        | "switch" => plain (skipGroup "\x7b" (skipGroup "(" rest))
        | "try" =>
          let body := skipGroup "\x7b" rest
          let caught :=
            match Tree.afterWord? "catch" body with
            | some after => skipGroup "\x7b" (skipGroup "(" after)
            | none => body
          match Tree.afterWord? "finally" caught with
          | some after => plain (skipGroup "\x7b" after)
          | none => plain caught
        | "return" | "throw" | "break" | "continue" | "debugger" =>
          if Tree.opensLine rest then plain rest else plain (skipExpression rest)
        | _ => plain (skipExpression ts)

end

/-- The statements of a source, with one unit of fuel a statement. -/
def readStatements : Nat → Nat → List Tree → List Node
  | 0, _, _ => []
  | fuel + 1, depth, ts =>
    match Tree.skipComments ts with
    | [] => []
    | t :: rest =>
      let (node, after) := readStatement depth (t :: rest)
      let after := if after.length < rest.length + 1 then after else rest
      node :: readStatements fuel depth after

/-- The tree of a source. -/
def read (source : List Char) : Node :=
  let trees := Tree.ofTokens (tokens source)
  .mk .program .none (String.ofList source)
    (readStatements (trees.length + 1) (3 * trees.length + 6) trees)

end ModuleReader

end Syntax

end DartModels
