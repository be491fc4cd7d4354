import DartModels.Source

/-!
# The source cache

A file is loaded once, under its absolute path, and its outcome is kept whatever happens to the
file later: the source, that it could not be read, or the error.

* `Project.importSource`: the outcome for a path, loaded if need be.
* `Project.cached`: the outcome for a path if there is one.
-/

namespace DartModels

/-- What loading a file gave. -/
abbrev LoadOutcome := Except Error (Option Source)

/-- The outcomes of all files that were asked for, by absolute path. -/
abbrev SourceCache := List (String × LoadOutcome)

/-- Work that may load sources and may fail; what it loaded before it failed stays. -/
abbrev Loading := ExceptT Error (StateM SourceCache)

/-- The outcome of work and the cache after it. -/
def Loading.exec {α : Type} (work : Loading α) (cache : SourceCache) :
    Except Error α × SourceCache :=
  (ExceptT.run work).run cache

namespace Project

/-- The outcome for a path, without loading.  A path that was not asked for has none. -/
def cached (p : Project) (cache : SourceCache) (path : String) : LoadOutcome :=
  match cache.lookup (p.files.absolute path) with
  | some outcome => outcome
  | none => .ok none

/-- Whether a path was asked for. -/
def isCached (p : Project) (cache : SourceCache) (path : String) : Bool :=
  (cache.lookup (p.files.absolute path)).isSome

/-- The source of a path, loaded the first time that any of its spellings is asked for. -/
def importSource (p : Project) (path : String) : Loading (Option Source) := do
  let key := p.files.absolute path
  match (← get).lookup key with
  | some outcome => liftM outcome
  | none =>
    let outcome := p.load key
    modify (· ++ [(key, outcome)])
    liftM outcome

end Project

end DartModels
