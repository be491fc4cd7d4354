import DartModels.Json.Reader
import DartModels.Text.Template
import DartModels.Text.Utf8

/-!
# Errors

Every way in which a run can fail, by cause.  A setting is checked where it is first used, so a
value of the wrong kind gives one of the errors of kind below at that place.

* `Error.message`: the wording of each cause.
* `exists_of_bind_eq_ok`: steps in a row succeed one by one.
-/

namespace DartModels

/-- What the file system refuses. -/
inductive OsCause where
  | noEntry
  | busy
  | fileExists
  | notDirectory
  | isDirectory
  | nameTooLong
  deriving DecidableEq, Inhabited

/-- The number and the wording of a refusal. -/
def OsCause.text : OsCause → String
  | .noEntry => "[Errno 2] No such file or directory"
  | .busy => "[Errno 16] Device or resource busy"
  | .fileExists => "[Errno 17] File exists"
  | .notDirectory => "[Errno 20] Not a directory"
  | .isDirectory => "[Errno 21] Is a directory"
  | .nameTooLong => "[Errno 36] File name too long"

/-- Why a value of a setting is of the wrong kind for its use.  The argument `kind` is the name of
the value's kind. -/
inductive KindFault where
  | noAttribute (kind name : String)
  | notIterable (kind : String)
  | notContainer (kind : String)
  | unhashable (kind : String)
  | unexpectedField (record field : String)
  | notPath (kind : String)
  | notJoinable (kind : String)
  | notSuffix (kind : String)
  | notText (kind : String)
  | notCallable (kind : String)
  | noLength (kind : String)
  | notConcatenable (kind : String)
  | notComparable (kind : String)
  | notIndexable
  | memberNotPair (index : Nat)
  | relativeModule (name : String)
  | notClass (kind : String)
  | notDictionary (kind : String)
  | notWritable (record name : String)
  deriving DecidableEq, Inhabited

/-- The wording of a wrong kind. -/
def KindFault.message : KindFault → String
  | .noAttribute kind name => s!"'{kind}' object has no attribute '{name}'"
  | .notIterable kind => s!"'{kind}' object is not iterable"
  | .notContainer kind => s!"argument of type '{kind}' is not iterable"
  | .unhashable kind => s!"unhashable type: '{kind}'"
  | .unexpectedField record field =>
    s!"{record}.__init__() got an unexpected keyword argument '{field}'"
  | .notPath kind => s!"expected str, bytes or os.PathLike object, not {kind}"
  | .notJoinable kind => s!"join() argument must be str, bytes, or os.PathLike object, not '{kind}'"
  | .notSuffix kind => s!"endswith first arg must be str or a tuple of str, not {kind}"
  | .notText kind => s!"expected string or bytes-like object, got '{kind}'"
  | .notCallable kind => s!"'{kind}' object is not callable"
  | .noLength kind => s!"object of type '{kind}' has no len()"
  | .notConcatenable kind => s!"can only concatenate str (not \"{kind}\") to str"
  | .notComparable kind => s!"'<=' not supported between instances of '{kind}' and 'int'"
  | .notIndexable => "string indices must be integers, not 'str'"
  | .memberNotPair index =>
    s!"cannot convert dictionary update sequence element #{index} to a sequence"
  | .relativeModule name =>
    s!"the 'package' argument is required to perform a relative import for '{name}'"
  | .notClass kind => s!"__class__ must be set to a class, not '{kind}' object"
  | .notDictionary kind => s!"__dict__ must be set to a dictionary, not a '{kind}'"
  | .notWritable record name => s!"attribute '{name}' of '{record}' objects is not writable"

/-- Why a run, or a part of it, fails. -/
inductive Error where
  /-- No rule tells which classes are entities. -/
  | noEntityRule
  /-- Several rules tell which classes are entities. -/
  | severalEntityRules (names : List String)
  /-- A name format is neither a casing, a template nor an imported function. -/
  | unknownFormat (value : String)
  /-- The function of a name format cannot be imported. -/
  | formatImport (path reason : String)
  /-- What a name format imports is no function. -/
  | formatNotFunction (path : String)
  /-- There is no options file. -/
  | noOptionsFile (path : String)
  /-- The options file is no JSON text. -/
  | invalidOptionsFile (path : String) (fault : Json.SyntaxFault)
  /-- A whole number of the options file has too many digits. -/
  | longNumber (digits : Nat)
  /-- A text of the options file holds half of a surrogate pair. -/
  | surrogate
  /-- A source file cannot be read. -/
  | missingSource (path : String)
  /-- The entities of a source file cannot be resolved. -/
  | unresolvedSource (path reason : String)
  /-- A model cannot be rendered or written. -/
  | emission (name target reason : String)
  /-- A model declares no class. -/
  | noClassDeclaration
  /-- The braces of a model are unbalanced. -/
  | unbalancedBraces (opened closed : Nat)
  /-- A value is of the wrong kind for its use. -/
  | kind (fault : KindFault)
  /-- A template has no text for a name. -/
  | template (fault : Template.Fault)
  /-- A key is not in a table. -/
  | missingKey (key : String)
  /-- A file is not UTF-8. -/
  | encoding (fault : Utf8.Fault)
  /-- The file system refuses an operation on a path. -/
  | os (cause : OsCause) (path : String)
  /-- The file system refuses an operation on two paths. -/
  | osPair (cause : OsCause) (path other : String)
  /-- A path holds the character NUL. -/
  | nulInPath
  /-- The number of workers is not positive. -/
  | noWorkers
  /-- A file pattern joins `**` with other characters. -/
  | invalidPattern
  /-- A name format imports from a module without a name. -/
  | emptyModuleName
  /-- A pair of an array that stands for an object has the wrong number of items. -/
  | pairLength (index length : Nat)
  /-- A relative path is asked of an empty path. -/
  | emptyPath
  /-- A kind of type does not exist. -/
  | unknownTypeKind (shown : String)
  /-- A list has no item at a place. -/
  | listIndex
  deriving DecidableEq, Inhabited

namespace Error

/-- The wording of an error. -/
def message : Error → String
  | .noEntityRule => "No source entity identifier specified"
  | .severalEntityRules names =>
    "Only one source entity identifier may be specified, got: " ++ ", ".intercalate names
  | .unknownFormat value =>
    s!"Unknown formatter '{value}', expected one of ['camel', 'kebab', 'pascal', 'snake'], " ++
      "a template or 'module:function'"
  | .formatImport path reason => s!"Cannot import formatter '{path}': {reason}"
  | .formatNotFunction path => s!"Formatter '{path}' is not callable"
  | .noOptionsFile path => s!"Could not find \"{path}\" options file."
  | .invalidOptionsFile path fault => s!"Invalid options file {path}: {fault.message}"
  | .longNumber digits =>
    s!"Exceeds the limit ({Json.maxDigits} digits) for integer string conversion: value has " ++
      s!"{digits} digits; use sys.set_int_max_str_digits() to increase the limit"
  | .surrogate => "surrogates not allowed"
  | .missingSource path => s!"File not found: {path}"
  | .unresolvedSource path reason => s!"Could not resolve {path}: {reason}"
  | .emission name target reason => s!"Could not generate '{name}' ({target}): {reason}"
  | .noClassDeclaration => "Generated Dart code has no class declaration"
  | .unbalancedBraces opened closed =>
    s!"Generated Dart code has unbalanced braces: {opened} open, {closed} close"
  | .kind fault => fault.message
  | .template fault => fault.message
  | .missingKey key => Quoted.encode key
  | .encoding fault => fault.message
  | .os cause path => cause.text ++ ": " ++ Quoted.encode path
  | .osPair cause path other =>
    cause.text ++ ": " ++ Quoted.encode path ++ " -> " ++ Quoted.encode other
  | .nulInPath => "embedded null byte"
  | .noWorkers => "max_workers must be greater than 0"
  | .invalidPattern => "Invalid pattern: '**' can only be an entire path component"
  | .emptyModuleName => "Empty module name"
  | .pairLength index length =>
    s!"dictionary update sequence element #{index} has length {length}; 2 is required"
  | .emptyPath => "no path specified"
  | .unknownTypeKind shown => s!"{shown} is not a valid TypeKind"
  | .listIndex => "list index out of range"

/-- Whether an error is one of the configuration, which ends the whole run. -/
def isConfiguration : Error → Bool
  | .noEntityRule | .severalEntityRules _ | .unknownFormat _ | .formatImport _ _
  | .formatNotFunction _ | .noOptionsFile _ | .invalidOptionsFile _ _ => true
  | _ => false

end Error

/-- A wrong kind of value as an error. -/
def wrongKind {α : Type} (fault : KindFault) : Except Error α := .error (.kind fault)

/-- The first item of a list that has to have one. -/
def firstOf {α : Type} : List α → Except Error α
  | [] => .error .listIndex
  | a :: _ => .ok a

/-- The last item of a list that has to have one. -/
def lastOf {α : Type} (l : List α) : Except Error α := firstOf l.reverse

theorem mem_of_firstOf {α : Type} {l : List α} {a : α} (h : firstOf l = .ok a) : a ∈ l := by
  cases l with
  | nil => cases h
  | cons b l =>
    cases h
    exact List.mem_cons_self

theorem exists_firstOf {α : Type} {l : List α} (h : l ≠ []) : ∃ a, firstOf l = .ok a := by
  cases l with
  | nil => exact absurd rfl h
  | cons a l => exact ⟨a, rfl⟩

theorem lastOf_of_getLast? {α : Type} {l : List α} {a : α} (h : l.getLast? = some a) :
    lastOf l = .ok a := by
  unfold lastOf
  rw [← List.head?_reverse] at h
  cases hrev : l.reverse with
  | nil =>
    rw [hrev] at h
    cases h
  | cons b rest =>
    rw [hrev] at h
    cases h
    rfl

theorem exists_lastOf {α : Type} {l : List α} (h : l ≠ []) : ∃ a, lastOf l = .ok a :=
  exists_firstOf fun hrev => h (List.reverse_eq_nil_iff.mp hrev)

/-! ## Steps in a row -/

theorem ok_bind {ε α β : Type} (a : α) (f : α → Except ε β) : (Except.ok a >>= f) = f a := rfl

/-- Steps in a row succeed one by one. -/
theorem exists_of_bind_eq_ok {ε α β : Type} {x : Except ε α} {f : α → Except ε β} {b : β}
    (h : x >>= f = .ok b) : ∃ a, x = .ok a ∧ f a = .ok b := by
  cases x with
  | error e => cases h
  | ok a => exact ⟨a, rfl, h⟩

/-- The image of a result comes from a result. -/
theorem exists_of_mapped_eq_ok {ε α β : Type} {x : Except ε α} {f : α → β} {b : β}
    (h : x.map f = .ok b) : ∃ a, x = .ok a ∧ f a = b := by
  cases x with
  | error e => cases h
  | ok a => exact ⟨a, rfl, Except.ok.inj h⟩

section

variable {ε α β : Type} {f : α → Except ε β} {l : List α}

/-- Steps over a list give what each of them gives. -/
theorem mem_of_mapM_eq_ok {r : List β} (h : l.mapM f = .ok r) {b : β} :
    b ∈ r ↔ ∃ a ∈ l, f a = .ok b := by
  induction l generalizing r with
  | nil =>
    cases h
    exact ⟨nofun, nofun⟩
  | cons a l ih =>
    rw [List.mapM_cons] at h
    obtain ⟨c, hc, h⟩ := exists_of_bind_eq_ok h
    obtain ⟨cs, hcs, h⟩ := exists_of_bind_eq_ok h
    cases h
    have hhead : f a = .ok b ↔ b = c := by rw [hc, Except.ok.injEq, eq_comm]
    simp only [List.mem_cons, exists_eq_or_imp, ih hcs, hhead]

theorem length_of_mapM_eq_ok {r : List β} (h : l.mapM f = .ok r) : r.length = l.length := by
  induction l generalizing r with
  | nil =>
    cases h
    rfl
  | cons a l ih =>
    rw [List.mapM_cons] at h
    obtain ⟨b, -, h⟩ := exists_of_bind_eq_ok h
    obtain ⟨bs, hbs, h⟩ := exists_of_bind_eq_ok h
    cases h
    rw [List.length_cons, List.length_cons, ih hbs]

/-- Steps over a list succeed if each of them does. -/
theorem exists_mapM_eq_ok : (∃ r, l.mapM f = .ok r) ↔ ∀ a ∈ l, ∃ b, f a = .ok b := by
  induction l with
  | nil => exact ⟨fun _ => List.forall_mem_nil _, fun _ => ⟨[], rfl⟩⟩
  | cons a l ih =>
    rw [List.mapM_cons, List.forall_mem_cons, ← ih]
    constructor
    · rintro ⟨r, h⟩
      obtain ⟨b, hb, h⟩ := exists_of_bind_eq_ok h
      obtain ⟨bs, hbs, -⟩ := exists_of_bind_eq_ok h
      exact ⟨⟨b, hb⟩, bs, hbs⟩
    · rintro ⟨⟨b, hb⟩, bs, hbs⟩
      rw [hb, hbs]
      exact ⟨b :: bs, rfl⟩

end

/-! ## The errors of steps -/

/-- The error of a result, if it is one, has a property. -/
def OnlyErrors {α : Type} (P : Error → Prop) (r : Except Error α) : Prop := ∀ e, r = .error e → P e

namespace OnlyErrors

variable {α β σ : Type} {P : Error → Prop}

theorem ok (a : α) : OnlyErrors P (.ok a) := by
  intro e h
  cases h

theorem error {e : Error} (h : P e) : OnlyErrors P (.error e : Except Error α) := by
  intro e' he
  cases he
  exact h

theorem bind {r : Except Error α} {f : α → Except Error β} (hr : OnlyErrors P r)
    (hf : ∀ a, OnlyErrors P (f a)) : OnlyErrors P (r >>= f) := by
  cases r with
  | error e => exact error (hr e rfl)
  | ok a => exact hf a

theorem map {r : Except Error α} (h : OnlyErrors P r) (f : α → β) : OnlyErrors P (r.map f) := by
  cases r with
  | error e => exact error (h e rfl)
  | ok a => exact ok (f a)

theorem foldlM {f : σ → α → Except Error σ} (hf : ∀ s a, OnlyErrors P (f s a)) (l : List α)
    (s : σ) : OnlyErrors P (l.foldlM f s) := by
  induction l generalizing s with
  | nil => exact ok s
  | cons a l ih =>
    rw [List.foldlM_cons]
    exact bind (hf s a) ih

theorem mapM {f : α → Except Error β} (hf : ∀ a, OnlyErrors P (f a)) (l : List α) :
    OnlyErrors P (l.mapM f) := by
  induction l with
  | nil => exact ok []
  | cons a l ih =>
    rw [List.mapM_cons]
    exact bind (hf a) fun _ => bind ih fun _ => ok _

end OnlyErrors

end DartModels
