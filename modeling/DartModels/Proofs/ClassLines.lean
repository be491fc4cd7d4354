import DartModels.Dart.ModelText
import DartModels.Proofs.CodeLines

/-!
# The lines of a class

The class of a model opens four blocks and closes them: the class, the parameters of its constructor,
the map of its serialiser and the body of its factory.  Whatever else stands in it comes from the
settings and the entities of a run.  If none of that has a brace or a newline, the braces of a class
are counted line by line, for any number of fields.

    classText t = unlines (headLine t :: bodyLines t)                         (classText_eq_unlines)
    code ++ a text without braces: the braces of the code                          (CodeLine.inline)
    the lines of a class: four braces opened, four closed                       (tallied_classLines)
    inline lines, then the lines of a class: validate = .ok ()              (Plain.validate_unlines)
-/

namespace DartModels

namespace Dart

/-! ## Texts within a line -/

/-- A text without braces and newlines. -/
def Inline (s : String) : Prop := ∀ ch ∈ s.toList, ch ≠ '\x7b' ∧ ch ≠ '\x7d' ∧ ch ≠ '\n'

instance (s : String) : Decidable (Inline s) := List.decidableBAll _ _

theorem inline_append {s t : String} : Inline (s ++ t) ↔ Inline s ∧ Inline t := by
  unfold Inline
  rw [String.toList_append, List.forall_mem_append]

/-- A text that stays within its line, with its braces. -/
structure Braces (s : String) (opened closed : Nat) : Prop where
  whole : '\n' ∉ s.toList
  opened : s.toList.count '\x7b' = opened
  closed : s.toList.count '\x7d' = closed

theorem Inline.braces {s : String} (h : Inline s) : Braces s 0 0 where
  whole hmem := (h _ hmem).2.2 rfl
  opened := List.count_eq_zero.mpr fun hmem => (h _ hmem).1 rfl
  closed := List.count_eq_zero.mpr fun hmem => (h _ hmem).2.1 rfl

theorem Braces.append {s t : String} {m n m' n' : Nat} (h : Braces s m n) (h' : Braces t m' n') :
    Braces (s ++ t) (m + m') (n + n') := by
  refine ⟨?_, ?_, ?_⟩
  · rw [String.toList_append, List.mem_append, not_or]
    exact ⟨h.whole, h'.whole⟩
  · rw [String.toList_append, List.count_append, h.opened, h'.opened]
  · rw [String.toList_append, List.count_append, h.closed, h'.closed]

/-- Whether a text starts with code: with a character other than a slash, after blanks. -/
def startsCode (cs : List Char) : Bool := (cs.dropWhile isBlank).head?.any (· != '/')

theorem startsCode_append {cs : List Char} (h : startsCode cs = true) (rest : List Char) :
    startsCode (cs ++ rest) = true := by
  unfold startsCode at h ⊢
  rw [List.dropWhile_append]
  cases hbody : cs.dropWhile isBlank with
  | nil =>
    rw [hbody] at h
    cases h
  | cons c body =>
    rw [hbody] at h
    exact h

theorem isCommentLine_of_startsCode {cs : List Char} (h : startsCode cs = true) :
    isCommentLine cs = false := by
  unfold startsCode at h
  unfold isCommentLine afterComment?
  split
  · next heq =>
    rw [heq] at h
    cases h
  · rfl

/-- A line of code with its braces. -/
structure CodeLine (s : String) (opened closed : Nat) : Prop extends Braces s opened closed where
  starts : startsCode s.toList = true

namespace CodeLine

variable {s t : String} {m n m' n' : Nat}

theorem append (h : CodeLine s m n) (h' : Braces t m' n') :
    CodeLine (s ++ t) (m + m') (n + n') where
  toBraces := h.toBraces.append h'
  starts := by
    rw [String.toList_append]
    exact startsCode_append h.starts _

theorem inline (h : CodeLine s m n) (ht : Inline t) : CodeLine (s ++ t) m n := h.append ht.braces

/-- The braces of a line of code count. -/
theorem tallied (h : CodeLine s m n) : Tallied [s] m n := by
  obtain ⟨⟨hwhole, rfl, rfl⟩, hstarts⟩ := h
  exact .code hwhole (isCommentLine_of_startsCode hstarts)

end CodeLine

/-- Without braces it does not matter whether a line is a comment. -/
theorem Tallied.inline {ls : List String} (h : ∀ l ∈ ls, Inline l) : Tallied ls 0 0 := by
  have hnone : ∀ ch ∈ codeOf (ls.map String.toList), ch ≠ '\x7b' ∧ ch ≠ '\x7d' ∧ ch ≠ '\n' := by
    intro ch hch
    obtain ⟨line, hline, hch⟩ := List.mem_flatten.mp hch
    obtain ⟨l, hl, rfl⟩ := List.mem_map.mp (List.mem_filter.mp hline).1
    exact h l hl ch hch
  exact ⟨fun l hl => (h l hl).braces.whole, List.count_eq_zero.mpr fun hmem => (hnone _ hmem).1 rfl,
    List.count_eq_zero.mpr fun hmem => (hnone _ hmem).2.1 rfl⟩

/-! ## The lines of a class -/

variable {t : ClassText}

/-- The line that starts a class. -/
def headLine (t : ClassText) : String := "class " ++ t.name ++ " extends " ++ t.base ++ " \x7b"

/-- The lines of the parameters that follow those on `line`, up to the end of the parameters. -/
def parameterLines (line : String) : List FieldText → List String
  | [] => [line ++ "\x7d)"]
  | f :: fields => (line ++ ",") :: parameterLines ("      this." ++ f.name) fields

/-- The lines of the constructor. -/
def constructorLines (t : ClassText) : List String :=
  ["", "  " ++ t.name ++ "("] ++
    parameterLines ("      \x7bString " ++ t.idField.text) t.parameters ++
    ["      : super(" ++ t.idField.text ++ ");"]

/-- The lines of the serialiser. -/
def serialiserLines (t : ClassText) : List String :=
  ["", "  @override"] ++ ["  Map<String, dynamic> toJson() => \x7b"] ++
    t.fields.map (fun f => "        '" ++ f.name ++ "': " ++ f.toJson ++ ",") ++ ["      \x7d;"]

/-- The lines of the factory. -/
def factoryLines (t : ClassText) : List String :=
  [""] ++ ["  factory " ++ t.name ++ ".fromJson(Map<String, dynamic> json) \x7b"] ++
    ["    if (json == null) return null;", "    return " ++ t.name ++ "("] ++
    t.fields.map (fun f => "      " ++ f.name ++ ": " ++ f.fromJson ++ ",") ++ ["    );"] ++
    ["  \x7d"]

/-- The lines of a class after its first. -/
def bodyLines (t : ClassText) : List String :=
  t.fields.map (fun f => "  " ++ f.type ++ " " ++ f.name ++ ";") ++
    constructorLines t ++ serialiserLines t ++ factoryLines t ++ ["\x7d"]

theorem unlines_cons (l : String) (ls : List String) :
    unlines (l :: ls) = l ++ "\n" ++ unlines ls := by
  unfold unlines
  rw [List.map_cons, String.join_cons]

/-- One line a field. -/
theorem unlines_fields (f : FieldText → String) {last ending : String} (h : last ++ "\n" = ending)
    (fields : List FieldText) :
    unlines (fields.map fun x => f x ++ last) = String.join (fields.map fun x => f x ++ ending) := by
  subst h
  unfold unlines
  simp only [List.map_map, Function.comp_def, String.append_assoc]

theorem unlines_parameterLines (line : String) (fields : List FieldText) :
    unlines (parameterLines line fields) =
      line ++ String.join (fields.map fun f => ",\n      this." ++ f.name) ++ "\x7d)\n" := by
  induction fields generalizing line with
  | nil =>
    apply String.toList_inj.mp
    simp [parameterLines, unlines]
  | cons f fields ih =>
    rw [parameterLines, unlines_cons, ih, List.map_cons, String.join_cons]
    apply String.toList_inj.mp
    simp

theorem unlines_constructorLines (t : ClassText) :
    unlines (constructorLines t) = "\n  " ++ t.name ++ "(\n      \x7bString " ++ t.idField.text ++
      String.join (t.parameters.map fun f => ",\n      this." ++ f.name) ++
      "\x7d)\n      : super(" ++ t.idField.text ++ ");\n" := by
  rw [constructorLines, unlines_append, unlines_append, unlines_parameterLines]
  apply String.toList_inj.mp
  simp [unlines]

theorem unlines_serialiserLines (t : ClassText) :
    unlines (serialiserLines t) = "\n  @override\n  Map<String, dynamic> toJson() => \x7b\n" ++
      String.join (t.fields.map fun f => "        '" ++ f.name ++ "': " ++ f.toJson ++ ",\n") ++
      "      \x7d;\n" := by
  have hentry : "," ++ "\n" = ",\n" := rfl
  rw [serialiserLines, unlines_append, unlines_append, unlines_fields _ hentry]
  apply String.toList_inj.mp
  simp [unlines]

theorem unlines_factoryLines (t : ClassText) :
    unlines (factoryLines t) =
      "\n  factory " ++ t.name ++ ".fromJson(Map<String, dynamic> json) \x7b\n" ++
      "    if (json == null) return null;\n    return " ++ t.name ++ "(\n" ++
      String.join (t.fields.map fun f => "      " ++ f.name ++ ": " ++ f.fromJson ++ ",\n") ++
      "    );\n  \x7d\n" := by
  have hargument : "," ++ "\n" = ",\n" := rfl
  rw [factoryLines, unlines_append, unlines_append, unlines_append, unlines_fields _ hargument]
  apply String.toList_inj.mp
  simp [unlines]

theorem classText_eq_unlines (t : ClassText) : classText t = unlines (headLine t :: bodyLines t) := by
  have hhead : " \x7b\n" = " \x7b" ++ "\n" := rfl
  have hvariable : ";" ++ "\n" = ";\n" := rfl
  have hend : "    );\n  \x7d\n\x7d\n" = "    );\n  \x7d\n" ++ unlines ["\x7d"] := rfl
  rw [bodyLines, unlines_cons, unlines_append, unlines_append, unlines_append, unlines_append,
    unlines_fields _ hvariable, unlines_constructorLines, unlines_serialiserLines,
    unlines_factoryLines]
  unfold classText headLine
  dsimp only
  rw [hend, hhead]
  simp only [String.append_assoc]

/-- What a class is made of stays within its lines. -/
structure ClassText.Plain (t : ClassText) : Prop where
  name : Inline t.name
  base : Inline t.base
  identity : Inline t.idField.text
  fields : ∀ f ∈ t.fields, Inline f.name ∧ Inline f.type ∧ Inline f.toJson ∧ Inline f.fromJson

/-- The parameters end with the brace that closes them. -/
theorem tallied_parameterLines {line : String} {n : Nat} (hline : CodeLine line n 0)
    {fields : List FieldText} (hnames : ∀ f ∈ fields, Inline f.name) :
    Tallied (parameterLines line fields) n 1 := by
  induction fields generalizing line n with
  | nil => exact (hline.append ⟨by decide, rfl, rfl⟩).tallied
  | cons f fields ih =>
    obtain ⟨hname, hnames⟩ := List.forall_mem_cons.mp hnames
    have hnext : CodeLine ("      this." ++ f.name) 0 0 :=
      CodeLine.inline ⟨⟨by decide, rfl, rfl⟩, by decide⟩ hname
    have hcomma : Inline "," := by decide
    have hthis := (hline.inline hcomma).tallied
    rw [parameterLines, ← Nat.add_zero n, ← Nat.zero_add 1]
    exact hthis.append (ih hnext hnames)

namespace ClassText.Plain

variable (h : t.Plain)

include h

theorem tallied_constructorLines : Tallied (constructorLines t) 1 1 := by
  have hfirst : ∀ l ∈ ["", "  " ++ t.name ++ "("], Inline l := by
    simp only [List.forall_mem_cons, inline_append, h.name]
    decide
  have hlast : ∀ l ∈ ["      : super(" ++ t.idField.text ++ ");"], Inline l := by
    simp only [List.forall_mem_cons, inline_append, h.identity]
    decide
  have hline : CodeLine ("      \x7bString " ++ t.idField.text) 1 0 :=
    CodeLine.inline ⟨⟨by decide, rfl, rfl⟩, by decide⟩ h.identity
  have hparameters := tallied_parameterLines hline fun f (hf : f ∈ t.parameters) =>
    (h.fields f (List.mem_filter.mp hf).1).1
  exact ((Tallied.inline hfirst).append hparameters).append (Tallied.inline hlast)

theorem tallied_serialiserLines : Tallied (serialiserLines t) 1 1 := by
  have hfirst : ∀ l ∈ ["", "  @override"], Inline l := by decide
  have hopening : CodeLine "  Map<String, dynamic> toJson() => \x7b" 1 0 :=
    ⟨⟨by decide, rfl, rfl⟩, by decide⟩
  have hentries : ∀ l ∈ t.fields.map (fun f => "        '" ++ f.name ++ "': " ++ f.toJson ++ ","),
      Inline l := by
    refine List.forall_mem_map.mpr fun f hf => ?_
    obtain ⟨hname, -, htoJson, -⟩ := h.fields f hf
    simp only [inline_append, hname, htoJson]
    decide
  have hclosing : CodeLine "      \x7d;" 0 1 := ⟨⟨by decide, rfl, rfl⟩, by decide⟩
  exact (((Tallied.inline hfirst).append hopening.tallied).append
    (Tallied.inline hentries)).append hclosing.tallied

theorem tallied_factoryLines : Tallied (factoryLines t) 1 1 := by
  have hopening : CodeLine
      ("  factory " ++ t.name ++ ".fromJson(Map<String, dynamic> json) \x7b") 1 0 :=
    (CodeLine.inline ⟨⟨by decide, rfl, rfl⟩, by decide⟩ h.name).append ⟨by decide, rfl, rfl⟩
  have hreturn : ∀ l ∈ ["    if (json == null) return null;", "    return " ++ t.name ++ "("],
      Inline l := by
    simp only [List.forall_mem_cons, inline_append, h.name]
    decide
  have harguments : ∀ l ∈ t.fields.map (fun f => "      " ++ f.name ++ ": " ++ f.fromJson ++ ","),
      Inline l := by
    refine List.forall_mem_map.mpr fun f hf => ?_
    obtain ⟨hname, -, -, hfromJson⟩ := h.fields f hf
    simp only [inline_append, hname, hfromJson]
    decide
  have hclosing : CodeLine "  \x7d" 0 1 := ⟨⟨by decide, rfl, rfl⟩, by decide⟩
  have hempty : ∀ l ∈ [""], Inline l := by decide
  have hend : ∀ l ∈ ["    );"], Inline l := by decide
  exact (((((Tallied.inline hempty).append hopening.tallied).append (Tallied.inline hreturn)).append
    (Tallied.inline harguments)).append (Tallied.inline hend)).append hclosing.tallied

/-- A class opens and closes itself, its parameters, its serialiser and its factory. -/
theorem tallied_classLines : Tallied (headLine t :: bodyLines t) 4 4 := by
  have hstart : CodeLine "class " 0 0 := ⟨⟨by decide, rfl, rfl⟩, by decide⟩
  have hopening : CodeLine (headLine t) 1 0 :=
    (((hstart.inline h.name).inline (by decide)).inline h.base).append ⟨by decide, rfl, rfl⟩
  have hvariables : ∀ l ∈ t.fields.map (fun f => "  " ++ f.type ++ " " ++ f.name ++ ";"),
      Inline l := by
    refine List.forall_mem_map.mpr fun f hf => ?_
    obtain ⟨hname, htype, -, -⟩ := h.fields f hf
    simp only [inline_append, hname, htype]
    decide
  have hclosing : CodeLine "\x7d" 0 1 := ⟨⟨by decide, rfl, rfl⟩, by decide⟩
  exact hopening.tallied.append (((((Tallied.inline hvariables).append
    h.tallied_constructorLines).append h.tallied_serialiserLines).append
    h.tallied_factoryLines).append hclosing.tallied)

/-- A class passes its check after inline lines, if its name starts with a word character. -/
theorem validate_unlines {before : List String} (hbefore : ∀ l ∈ before, Inline l) {c : Char}
    {rest : List Char} (hname : t.name.toList = c :: rest) (hc : isWordChar c = true) :
    validate (unlines (before ++ headLine t :: bodyLines t)) = .ok () := by
  have htally := (Tallied.inline hbefore).append h.tallied_classLines
  have hhead : (headLine t).toList = "class ".toList ++ c :: (rest ++
      (" extends " ++ t.base ++ " \x7b").toList) := by
    unfold headLine
    simp only [String.toList_append, hname, List.append_assoc, List.cons_append]
  exact Dart.validate_unlines htally hhead hc

end ClassText.Plain

end Dart

end DartModels
