import DartModels.Proofs.ModelImports
import DartModels.Proofs.TypeAgreement
import DartModels.Proofs.VisibleFields
import DartModels.Proofs.WrittenModels

/-!
# The parts of a class

The class of a model names its fields in four places: as variables, as parameters of the constructor, as
entries of the serialiser and as arguments of the factory.  The outline of a class keeps these apart,
and its text is the text of the class.

    the fields of a class have different names                             (nodup_names_of_fields)
    the text of a class = the text of its outline                             (exists_outline)
    both texts of a conversion tell which one it is              (writtenKind_toJson, readKind_fromJson)
    parameters = the identity field, then the other names; entries, arguments = all names
                                                                                    (emit_aligned)
-/

namespace DartModels

open Dart

/-! ## Names of fields -/

namespace Project

variable {p : Project}

theorem exists_new_of_addProperties {declaring : EntityClass} {source : Source}
    {properties : List Syntax.Node} {fields fields' : List Field}
    (h : properties.foldlM (p.addProperty declaring source) fields = .ok fields') :
    ∃ new : List Field, fields' = new.foldl addField fields := by
  induction properties generalizing fields with
  | nil =>
    cases h
    exact ⟨[], rfl⟩
  | cons property properties ih =>
    rw [List.foldlM_cons] at h
    obtain ⟨next, hnext, h⟩ := exists_of_bind_eq_ok h
    obtain ⟨new, rfl⟩ := ih h
    obtain ⟨f, -, hf⟩ := exists_of_bind_eq_ok hnext
    cases f with
    | none =>
      cases hf
      exact ⟨new, rfl⟩
    | some f =>
      cases hf
      exact ⟨f :: new, rfl⟩

theorem exists_new_of_addClass {cache : SourceCache} {declaring : EntityClass}
    {fields fields' : List Field}
    (h : (p.addClass fields declaring).result cache = .ok fields') :
    ∃ new : List Field, fields' = new.foldl addField fields := by
  unfold addClass at h
  cases hsource : (p.importSource declaring.sourcePath).result cache with
  | error e =>
    rw [Loading.result_bind_error hsource] at h
    cases h
  | ok source =>
    rw [Loading.result_bind_ok hsource] at h
    cases source with
    | none =>
      cases h
      exact ⟨[], rfl⟩
    | some source =>
      dsimp only at h
      cases hdeclaration : declaring.declaration with
      | none =>
        rw [hdeclaration] at h
        cases h
      | some cls =>
        rw [hdeclaration] at h
        exact exists_new_of_addProperties h

theorem exists_new_of_addClasses {cache : SourceCache} {classes : List EntityClass}
    {fields fields' : List Field}
    (h : (classes.foldlM p.addClass fields).result cache = .ok fields') :
    ∃ new : List Field, fields' = new.foldl addField fields := by
  induction classes generalizing fields cache with
  | nil =>
    cases h
    exact ⟨[], rfl⟩
  | cons d classes ih =>
    rw [List.foldlM_cons] at h
    cases hnext : (p.addClass fields d).result cache with
    | error e =>
      rw [Loading.result_bind_error hnext] at h
      cases h
    | ok next =>
      rw [Loading.result_bind_ok hnext] at h
      obtain ⟨first, rfl⟩ := exists_new_of_addClass hnext
      obtain ⟨rest, rfl⟩ := ih h
      exact ⟨first ++ rest, by rw [List.foldl_append]⟩

/-- Whatever class is asked for and whatever was loaded before, no two fields have the same name. -/
theorem nodup_names_of_fields {cache : SourceCache} {c : EntityClass} {fields : List Field}
    (h : (p.fields c).result cache = .ok fields) : (fields.map Field.name).Nodup := by
  unfold Project.fields at h
  cases habove : (p.ancestors c).result cache with
  | error e =>
    rw [Loading.result_bind_error habove] at h
    cases h
  | ok above =>
    rw [Loading.result_bind_ok habove] at h
    obtain ⟨new, rfl⟩ := exists_new_of_addClasses h
    exact nodup_names_foldl_addField new List.nodup_nil

end Project

/-! ## Outlines -/

/-- A value that a serialiser writes under a key. -/
structure SerialisedEntry where
  key : String
  value : String

/-- An argument that a factory passes: its name, and an expression around the value of a key. -/
structure FactoryArgument where
  name : String
  before : String
  key : String
  after : String

/-- The expression of an argument. -/
def FactoryArgument.value (a : FactoryArgument) : String := a.before ++ jsonField a.key ++ a.after

/-- The parts of a class. -/
structure ClassOutline where
  name : String
  base : String
  /-- The Dart type and the name of each variable. -/
  declared : List (String × String)
  /-- The parameter that the base class takes. -/
  identity : String
  /-- The parameters that set variables. -/
  initialised : List String
  entries : List SerialisedEntry
  arguments : List FactoryArgument

namespace ClassOutline

/-- The named parameters of the constructor. -/
def parameters (o : ClassOutline) : List String := o.identity :: o.initialised

/-- The text of a class with given parts. -/
def text (o : ClassOutline) : String :=
  "class " ++ o.name ++ " extends " ++ o.base ++ " \x7b\n" ++
    String.join (o.declared.map fun v => "  " ++ v.1 ++ " " ++ v.2 ++ ";\n") ++
    "\n  " ++ o.name ++ "(\n      \x7bString " ++ o.identity ++
    String.join (o.initialised.map fun n => ",\n      this." ++ n) ++
    "\x7d)\n      : super(" ++ o.identity ++ ");\n" ++
    "\n  @override\n  Map<String, dynamic> toJson() => \x7b\n" ++
    String.join (o.entries.map fun x => "        '" ++ x.key ++ "': " ++ x.value ++ ",\n") ++
    "      \x7d;\n" ++
    "\n  factory " ++ o.name ++ ".fromJson(Map<String, dynamic> json) \x7b\n" ++
    "    if (json == null) return null;\n    return " ++ o.name ++ "(\n" ++
    String.join (o.arguments.map fun a => "      " ++ a.name ++ ": " ++ a.value ++ ",\n") ++
    "    );\n  \x7d\n\x7d\n"

end ClassOutline

/-! ## What a conversion tells -/

/-- What a conversion does with a value. -/
inductive ConversionKind where
  | plain
  | date
  | dates
  | entity
  | entities
  deriving DecidableEq

namespace Conversion

variable {c : Catalog} {name text : String} {v : Conversion}

/-- What a conversion does. -/
def kind : Conversion → ConversionKind
  | none | items _ => .plain
  | date => .date
  | dates => .dates
  | model _ => .entity
  | models _ => .entities

/-- The kind of conversion that the serialisation of a field tells, by what stands after its name. -/
def writtenKind (name text : String) : ConversionKind :=
  let after := text.toList.drop name.toList.length
  if after = [] then .plain
  else if after[2]? = some 'm' then if after.reverse[13]? = some 'n' then .entities else .dates
  else if after[4]? = some 'J' then .entity
  else .date

/-- The kind of conversion that the expression of a rebuilt field tells, by how it ends. -/
def readKind (text : String) : ConversionKind :=
  match text.toList.reverse with
  | ']' :: _ => .plain
  | ')' :: ']' :: _ => .entity
  | ')' :: '(' :: '>' :: _ => .plain
  | ')' :: '(' :: rest => if rest[10]? = some 'a' then .entities else .dates
  | _ => .date

theorem writtenKind_toJson (v : Conversion) (name : String) :
    writtenKind name (v.toJson name) = v.kind := by
  have hdrop : (v.toJson name).toList.drop name.toList.length = v.suffix.toList := by
    rw [toJson_eq, String.toList_append, List.drop_left]
  unfold writtenKind
  rw [hdrop]
  cases v <;> simp [suffix, kind, eachToJson]

theorem readKind_fromJson (h : v.fromJson c name = .ok text) : readKind text = v.kind := by
  cases v with
  | none =>
    cases h
    simp [readKind, kind, jsonField]
  | date =>
    cases h
    simp [readKind, kind]
  | dates =>
    cases h
    simp [readKind, kind]
  | model e =>
    obtain ⟨cls, -, rfl⟩ := exists_of_mapped_eq_ok h
    simp [readKind, kind, jsonField]
  | models e =>
    obtain ⟨cls, -, rfl⟩ := exists_of_mapped_eq_ok h
    simp [readKind, kind]
  | items item =>
    obtain ⟨type, -, rfl⟩ := exists_of_mapped_eq_ok h
    simp [readKind, kind]

/-- What stands around the value of a field where it is rebuilt. -/
def around (c : Catalog) : Conversion → Except Error (String × String)
  | none => .ok ("", "")
  | date => .ok ("DateTime.tryParse(", " ?? '')")
  | dates =>
    .ok ("(", " as List<dynamic>)?.map((data) => DateTime.tryParse(data ?? ''))?.toList()")
  | model e => (c.className e).map fun cls => (cls ++ ".fromJson(", ")")
  | models e => (c.className e).map fun cls =>
    ("(", " as List<dynamic>)?.map((data) => " ++ cls ++ ".fromJson(data))?.toList()")
  | items item => (item.text c).map fun text => ("(", " as List<dynamic>)?.cast<" ++ text ++ ">()")

theorem fromJson_eq (c : Catalog) (name : String) (v : Conversion) :
    v.fromJson c name = (v.around c).map fun x => x.1 ++ jsonField name ++ x.2 := by
  cases v with
  | none => simp [fromJson, around, Except.map]
  | date => rfl
  | dates => simp [fromJson, around, Except.map, jsonList, String.append_assoc]
  | model e =>
    simp only [fromJson, around]
    cases c.className e <;> simp [Except.map, String.append_assoc]
  | models e =>
    simp only [fromJson, around]
    cases c.className e <;> simp [Except.map, jsonList, String.append_assoc]
  | items item =>
    simp only [fromJson, around]
    cases item.text c <;> simp [Except.map, jsonList, String.append_assoc]

end Conversion

/-! ## The outline of a written class -/

namespace Catalog

variable {c : Catalog} {s : ModelSettings} {fs : FileSystem} {e : ModelEntity}

/-- The entry and the argument of a field come from the same conversion, which each of them tells, and
whose entity both of them have recorded. -/
structure Converted (c : Catalog) (f : Field) (x : SerialisedEntry) (a : FactoryArgument)
    (v : Conversion) : Prop where
  written : ∀ met, (c.toJson f.name f.type).exec met = (.ok x.value, recordAll met v.written)
  read : ∀ met, (c.fromJson f.name f.type).exec met = (.ok a.value, recordAll met v.read)
  serialised : x.value = v.toJson f.name
  rebuilt : v.fromJson c f.name = .ok a.value
  writtenKind : Conversion.writtenKind f.name x.value = v.kind
  readKind : Conversion.readKind a.value = v.kind

/-- What a class with given fields names in its parts. -/
structure Aligned (c : Catalog) (s : ModelSettings) (fields : List Field) (o : ClassOutline) :
    Prop where
  parameters : o.parameters = s.idField.text ::
    (fields.map (·.name)).filter fun n => !(Json.str n).same s.idField
  apart : ∀ id, s.idField = .str id → o.parameters.Nodup
  written : o.entries.map (·.key) = fields.map (·.name)
  read : o.arguments.map (·.key) = fields.map (·.name)
  passed : o.arguments.map (·.name) = fields.map (·.name)
  accepted : ∀ a ∈ o.arguments, a.name ∈ o.parameters
  converted : List.Forall₂ (fun f y => ∃ v, c.Converted f y.1 y.2 v) fields
    (o.entries.zip o.arguments)

/-- Arguments that pass the written fields of a class. -/
structure Passes (c : Catalog) (fields : List Field) (texts : List FieldText)
    (arguments : List FactoryArgument) : Prop where
  names : texts.map (·.name) = fields.map (·.name)
  keys : arguments.map (·.key) = fields.map (·.name)
  values : arguments.map (fun a => (a.name, a.value)) = texts.map fun t => (t.name, t.fromJson)
  converted : List.Forall₂ (fun f y => ∃ v, c.Converted f ⟨y.1.name, y.1.toJson⟩ y.2 v) fields
    (texts.zip arguments)

theorem Passes.cons {f : Field} {t : FieldText} {a : FactoryArgument} {fields : List Field}
    {texts : List FieldText} {arguments : List FactoryArgument} {v : Conversion}
    (hname : t.name = f.name) (hkey : a.key = f.name)
    (hvalue : (a.name, a.value) = (t.name, t.fromJson))
    (hconverted : c.Converted f ⟨t.name, t.toJson⟩ a v) (h : c.Passes fields texts arguments) :
    c.Passes (f :: fields) (t :: texts) (a :: arguments) where
  names := congrArg₂ List.cons hname h.names
  keys := congrArg₂ List.cons hkey h.keys
  values := congrArg₂ List.cons hvalue h.values
  converted := .cons ⟨v, hconverted⟩ h.converted

/-- What is written of a field has one conversion, and around its key it is an argument. -/
theorem exists_argument {f : Field} {t : FieldText} (h : c.formText f = .ok t) :
    ∃ before after, before ++ jsonField f.name ++ after = t.fromJson ∧ t.name = f.name ∧
      c.Converted f ⟨t.name, t.toJson⟩ ⟨f.name, before, f.name, after⟩ (c.conversion f.type) := by
  obtain ⟨type, -, h⟩ := exists_of_bind_eq_ok h
  obtain ⟨expression, hexpression, h⟩ := exists_of_bind_eq_ok h
  cases h
  have haround := hexpression
  rw [Conversion.fromJson_eq] at haround
  cases hparts : (c.conversion f.type).around c with
  | error error =>
    rw [hparts] at haround
    cases haround
  | ok parts =>
    rw [hparts] at haround
    have hvalue : parts.1 ++ jsonField f.name ++ parts.2 = expression := Except.ok.inj haround
    refine ⟨parts.1, parts.2, hvalue, rfl, ?_⟩
    rw [← hvalue] at hexpression
    exact ⟨toJson_exec f.name f.type, fun met => by rw [fromJson_exec, hexpression]; rfl, rfl,
      hexpression, Conversion.writtenKind_toJson _ _, Conversion.readKind_fromJson hexpression⟩

theorem exists_arguments {fields : List Field} {texts : List FieldText}
    (h : fields.mapM c.formText = .ok texts) : ∃ arguments, c.Passes fields texts arguments := by
  induction fields generalizing texts with
  | nil =>
    cases h
    exact ⟨[], rfl, rfl, rfl, .nil⟩
  | cons f fields ih =>
    rw [List.mapM_cons] at h
    obtain ⟨t, ht, h⟩ := exists_of_bind_eq_ok h
    obtain ⟨rest, hrest, h⟩ := exists_of_bind_eq_ok h
    cases h
    obtain ⟨before, after, hvalue, hname, hconverted⟩ := exists_argument ht
    obtain ⟨arguments, harguments⟩ := ih hrest
    refine ⟨⟨f.name, before, f.name, after⟩ :: arguments, harguments.cons hname rfl ?_ hconverted⟩
    exact Prod.ext hname.symm hvalue

/-- The parts of a class with given arguments. -/
def outlineOf (t : ClassText) (arguments : List FactoryArgument) : ClassOutline where
  name := t.name
  base := t.base
  declared := t.fields.map fun f => (f.type, f.name)
  identity := t.idField.text
  initialised := t.parameters.map (·.name)
  entries := t.fields.map fun f => ⟨f.name, f.toJson⟩
  arguments := arguments

theorem classText_eq {t : ClassText} {fields : List Field} {arguments : List FactoryArgument}
    (h : c.Passes fields t.fields arguments) : classText t = (outlineOf t arguments).text := by
  have harguments := congrArg (List.map fun y : String × String =>
    "      " ++ y.1 ++ ": " ++ y.2 ++ ",\n") h.values
  rw [List.map_map, List.map_map] at harguments
  have harguments : arguments.map (fun a => "      " ++ a.name ++ ": " ++ a.value ++ ",\n") =
    t.fields.map (fun f => "      " ++ f.name ++ ": " ++ f.fromJson ++ ",\n") := harguments
  unfold classText ClassOutline.text outlineOf
  simp only [List.map_map, harguments]
  rfl

theorem text_of_same_str {v : Json} {n : String} (h : (Json.str n).same v = true) : v.text = n := by
  cases v with
  | str m => exact (beq_iff_eq.mp h).symm
  | _ => cases h

theorem aligned_of_passes {t : ClassText} {fields : List Field} {arguments : List FactoryArgument}
    (hid : t.idField = s.idField) (hnodup : (fields.map (·.name)).Nodup)
    (h : c.Passes fields t.fields arguments) : c.Aligned s fields (outlineOf t arguments) := by
  have hpassed : arguments.map (·.name) = fields.map (·.name) := by
    have hnames := congrArg (List.map Prod.fst) h.values
    rw [List.map_map, List.map_map] at hnames
    exact hnames.trans h.names
  have hparameters : (outlineOf t arguments).parameters = s.idField.text ::
      (fields.map (·.name)).filter fun n => !(Json.str n).same s.idField := by
    show t.idField.text :: t.parameters.map (·.name) = _
    unfold ClassText.parameters
    rw [hid, ← h.names, List.filter_map]
    rfl
  refine ⟨hparameters, fun id htext => ?_, ?_, h.keys, hpassed, fun a ha => ?_, ?_⟩
  · rw [hparameters, htext]
    refine List.nodup_cons.mpr ⟨fun hmem => ?_, hnodup.filter _⟩
    have hother := (List.mem_filter.mp hmem).2
    rw [Bool.not_eq_true', Bool.eq_false_iff] at hother
    exact hother (same_str.mpr rfl)
  · exact (List.map_map ..).trans h.names
  · have hname : a.name ∈ fields.map (·.name) := hpassed ▸ List.mem_map_of_mem ha
    rw [hparameters, List.mem_cons, List.mem_filter, Bool.not_eq_true']
    cases hsame : (Json.str a.name).same s.idField with
    | false => exact Or.inr ⟨hname, rfl⟩
    | true => exact Or.inl (text_of_same_str hsame).symm
  · show List.Forall₂ _ fields ((t.fields.map _).zip arguments)
    rw [List.zip_map_left, List.forall₂_map_right_iff]
    exact h.converted

/-- The parts of a written class agree.  The constructor takes the identity field and then every other
field, each once; the serialiser, the factory and its arguments go through the fields of the model in
their order; and a field is written and read by one conversion. -/
theorem emit_aligned {p : Project} {cache : SourceCache} {cls : EntityClass}
    (hfields : (p.fields cls).result cache = .ok e.fields) {text : String}
    {met met' : List ModelEntity} (h : (c.emit s fs e).exec met = (.ok text, met')) :
    ∃ header o, text = header ++ o.text ∧ c.Aligned s e.fields o := by
  obtain ⟨body, lines, hbody, -, rfl⟩ := emit_eq_ok h
  obtain ⟨htexts, -, -, hid, -⟩ := bodyText_eq_ok hbody
  obtain ⟨arguments, harguments⟩ := exists_arguments htexts
  have haligned := aligned_of_passes hid (Project.nodup_names_of_fields hfields) harguments
  unfold fileText
  rw [classText_eq harguments]
  dsimp only
  split
  · exact ⟨"", _, (String.empty_append).symm, haligned⟩
  · exact ⟨_, _, rfl, haligned⟩

/-! ## A class with its identity field -/

/-- A class with the identity field and a list of dates. -/
def visits : Project := Project.ofText "class A{@C()id:string;@C()days:Date[];}"

/-- The class as it is loaded. -/
def visitClass : EntityClass :=
  match visits.load "/a.ts" with
  | .ok (some source) => (source.classes.lookup "A").getD default
  | _ => default

/-- The entity of the class. -/
def visit : ModelEntity :=
  ⟨"a.ts", "A", [⟨"id", .primitive "String", "A"⟩,
    ⟨"days", .array (.reference "Date" [] none none), "A"⟩], "/m/a.dart"⟩

/-- The run of this entity. -/
def diary : Catalog := ⟨[visit], .casing .pascal⟩

theorem fields_visit : (visits.fields visitClass).result [] = .ok visit.fields := by
  cbv

theorem emit_visit : ∃ text, (diary.emit .default ⟨[], []⟩ visit).exec [] = (.ok text, []) := by
  have hbody : (diary.bodyText .default visit).exec [] = (.ok ⟨"A", "Model", .str "id",
      [⟨"id", "String", "id", "json['id']"⟩,
        ⟨"days", "List<DateTime>", "days?.map((date) => date?.toIso8601String())?.toList()",
          "(json['days'] as List<dynamic>)?.map((data) => DateTime.tryParse(data ?? ''))?.toList()"⟩]⟩,
      []) := by
    cbv
  have hlines : diary.headerLines .default ⟨[], []⟩ visit [] = .ok [] := by cbv
  exact ⟨_, emit_of_ok hbody hlines⟩

/-- The identity field is a parameter once, and the factory passes it as every other field. -/
theorem emit_aligned_visit :
    ∃ text header o, (diary.emit .default ⟨[], []⟩ visit).exec [] = (.ok text, []) ∧
      text = header ++ o.text ∧ diary.Aligned .default visit.fields o ∧
      o.parameters = ["id", "days"] ∧ o.arguments.map (·.name) = ["id", "days"] := by
  obtain ⟨text, hemit⟩ := emit_visit
  obtain ⟨header, o, htext, haligned⟩ := emit_aligned fields_visit hemit
  refine ⟨text, header, o, hemit, htext, haligned, ?_, haligned.passed⟩
  exact haligned.parameters.trans (by cbv)

end Catalog

end DartModels
