import DartModels.Dart.ModelText

/-!
# The form of a model

A model is written as text, and the entities it refers to are recorded on the way.  Its form keeps
both together: the Dart type and the conversion of each field, with the entities in them.

    typeName t = the text of dartType t, its entities recorded                       (typeName_exec)
    toJson, fromJson = the two texts of one conversion, its entities recorded
                                                                         (toJson_exec, fromJson_exec)
    a body that is written = the texts of the forms, all their entities recorded   (bodyText_eq_ok)
-/

namespace DartModels

open Dart

/-! ## Runs -/

namespace Rendering

variable {α β : Type}

/-- What rendering gives, and the recorded entities after it. -/
def exec (work : Rendering α) (met : List ModelEntity) : Except Error α × List ModelEntity :=
  (ExceptT.run work).run met

theorem exec_lift (r : Except Error α) (met : List ModelEntity) :
    (liftM r : Rendering α).exec met = (r, met) := by
  cases r <;> rfl

theorem exec_bind (x : Rendering α) (f : α → Rendering β) (met : List ModelEntity) :
    (x >>= f).exec met =
      match x.exec met with
      | (.ok a, met) => (f a).exec met
      | (.error e, met) => (.error e, met) := by
  show (match x.exec met with | (r, s) => (ExceptT.bindCont f r).run s) = _
  rcases x.exec met with ⟨r, s⟩
  cases r <;> rfl

end Rendering

/-! ## Types -/

theorem Dart.listOf_inj {i j : String} : listOf i = listOf j ↔ i = j := by
  rw [listOf, listOf, String.append_left_inj, String.append_right_inj]

/-- A Dart type. -/
inductive DartType where
  | date
  | number
  | anything
  | list (item : DartType)
  | model (e : ModelEntity)
  | plain (name : String)

namespace DartType

/-- How a type is written; an entity may have no class name. -/
def text (c : Catalog) : DartType → Except Error String
  | date => .ok "DateTime"
  | number => .ok "int"
  | anything => .ok anyType
  | list item => (item.text c).map listOf
  | model e => c.className e
  | plain name => .ok name

/-- The entities whose classes a type names. -/
def entities : DartType → List ModelEntity
  | list item => item.entities
  | model e => [e]
  | _ => []

end DartType

namespace Catalog

variable (c : Catalog)

/-- The entity that a type refers to. -/
def related : Option TypeDescriptor → Option ModelEntity
  | some (.mk .reference name _ _ _ _ _ _) => c.find? name
  | _ => none

/-- The Dart type of a field. -/
def dartType : TypeDescriptor → DartType
  | .mk kind name element _ indexType _ _ _ =>
    if dateTypes.contains name then .date
    else if numericTypes.contains name then .number
    else
      match kind, element, indexType with
      | .array, none, _ => .list .anything
      | .array, some e, _ => .list (dartType e)
      | .indexedAccess, _, none => .anything
      | .indexedAccess, _, some i => dartType i
      | .reference, _, _ => ((c.find? name).map .model).getD .anything
      | .unknown, _, _ => .anything
      | .primitive, _, _ => .plain ((primitiveTypes.lookup name).getD name)
termination_by t => sizeOf t

/-- The recorded entities with several more. -/
def recordAll (met es : List ModelEntity) : List ModelEntity :=
  es.foldl (fun met e => record e met) met

variable {c}

/-- Beyond dates and numbers the kind of a type decides. -/
theorem dartType_of_kind {kind : TypeKind} {name : String}
    {element object index : Option TypeDescriptor} {arguments : List TypeDescriptor}
    {file path : Option String}
    (h : dateTypes.contains name = false ∧ numericTypes.contains name = false) :
    c.dartType (.mk kind name element object index arguments file path) =
      match kind, element, index with
      | .array, none, _ => .list .anything
      | .array, some e, _ => .list (c.dartType e)
      | .indexedAccess, _, none => .anything
      | .indexedAccess, _, some i => c.dartType i
      | .reference, _, _ => ((c.find? name).map .model).getD .anything
      | .unknown, _, _ => .anything
      | .primitive, _, _ => .plain ((primitiveTypes.lookup name).getD name) := by
  rw [dartType.eq_def]
  dsimp only
  rw [h.1, h.2]
  rfl

theorem dartType_array (item : TypeDescriptor) :
    c.dartType (.array item) = .list (c.dartType item) := by
  rw [TypeDescriptor.array, dartType]
  rfl

theorem dartType_indexedAccess (object index : TypeDescriptor) :
    c.dartType (.indexedAccess object index) = c.dartType index := by
  rw [TypeDescriptor.indexedAccess, dartType]
  rfl

theorem recordAll_append (met es es' : List ModelEntity) :
    recordAll met (es ++ es') = recordAll (recordAll met es) es' := List.foldl_append

theorem relation_exec (t : Option TypeDescriptor) (met : List ModelEntity) :
    (c.relation t).exec met = (.ok (c.related t), recordAll met (c.related t).toList) := by
  unfold relation
  split
  · next name _ _ _ _ _ _ =>
    show _ = (Except.ok (c.find? name), recordAll met (c.find? name).toList)
    cases c.find? name <;> rfl
  · next h =>
    have hnone : c.related t = none := by
      unfold related
      split
      · next name _ _ _ _ _ _ => exact absurd rfl (h name _ _ _ _ _ _)
      · rfl
    rw [hnone]
    rfl

/-- The recursion is that of `typeName`: into the items of a list and the index of an access. -/
theorem typeName_exec (t : TypeDescriptor) (met : List ModelEntity) :
    (c.typeName t).exec met =
      ((c.dartType t).text c, recordAll met (c.dartType t).entities) := by
  match t with
  | .mk kind name element objectType indexType arguments importFile relativePath =>
    rw [typeName.eq_def, dartType.eq_def]
    dsimp only
    by_cases hdate : dateTypes.contains name = true
    · rw [if_pos hdate, if_pos hdate]
      rfl
    · rw [if_neg hdate, if_neg hdate]
      by_cases hnumber : numericTypes.contains name = true
      · rw [if_pos hnumber, if_pos hnumber]
        rfl
      · rw [if_neg hnumber, if_neg hnumber]
        cases kind with
        | primitive => rfl
        | unknown => rfl
        | reference =>
          dsimp only
          rw [Rendering.exec_bind, relation_exec]
          dsimp only [related]
          cases c.find? name with
          | none => rfl
          | some e => exact Rendering.exec_lift _ _
        | array =>
          cases element with
          | none => rfl
          | some e =>
            have ih := typeName_exec e met
            dsimp only
            rw [Rendering.exec_bind, ih]
            simp only [DartType.text, DartType.entities]
            cases (c.dartType e).text c <;> rfl
        | indexedAccess =>
          cases indexType with
          | none => rfl
          | some i => exact typeName_exec i met
termination_by sizeOf t

end Catalog

/-! ## Conversions -/

/-- How a field is converted from and to JSON. -/
inductive Conversion where
  | none
  | date
  | dates
  | model (e : ModelEntity)
  | models (e : ModelEntity)
  /-- A list that is only cast when it is read. -/
  | items (item : DartType)

namespace Conversion

/-- The expression that serialises a field. -/
def toJson (name : String) : Conversion → String
  | none | items _ => name
  | date => name ++ "?.toIso8601String()"
  | dates => name ++ "?.map((date) => date?.toIso8601String())?.toList()"
  | model _ => name ++ "?.toJson()"
  | models e =>
    name ++ "?.map((" ++ itemName e ++ ") => " ++ itemName e ++ ".toJson())?.toList()"

/-- The expression that rebuilds a field; an entity may have no class name. -/
def fromJson (c : Catalog) (name : String) : Conversion → Except Error String
  | none => .ok (jsonField name)
  | date => .ok ("DateTime.tryParse(" ++ jsonField name ++ " ?? '')")
  | dates =>
    .ok (jsonList (jsonField name) ++ "?.map((data) => DateTime.tryParse(data ?? ''))?.toList()")
  | model e => (c.className e).map fun cls => cls ++ ".fromJson(" ++ jsonField name ++ ")"
  | models e => (c.className e).map fun cls =>
    jsonList (jsonField name) ++ "?.map((data) => " ++ cls ++ ".fromJson(data))?.toList()"
  | items item => (item.text c).map fun text =>
    jsonList (jsonField name) ++ "?.cast<" ++ text ++ ">()"

/-- The entity whose `toJson` a conversion calls. -/
def written : Conversion → List ModelEntity
  | model e | models e => [e]
  | _ => []

/-- The entities whose classes a conversion names to rebuild a field. -/
def read : Conversion → List ModelEntity
  | model e | models e => [e]
  | items item => item.entities
  | _ => []

end Conversion

namespace Catalog

/-- The conversion of a field. -/
def conversion (c : Catalog) (t : TypeDescriptor) : Conversion :=
  if isDate t then .date
  else if t.kind = .array then
    match c.related t.element with
    | some e => .models e
    | none =>
      if t.element.any isDate then .dates
      else .items ((t.element.map c.dartType).getD .anything)
  else ((c.related (some t)).map .model).getD .none

variable {c : Catalog}

theorem toJson_exec (name : String) (t : TypeDescriptor) (met : List ModelEntity) :
    (c.toJson name t).exec met =
      (.ok ((c.conversion t).toJson name), recordAll met (c.conversion t).written) := by
  unfold toJson conversion
  split
  · rfl
  · split
    · rw [Rendering.exec_bind, relation_exec]
      dsimp only
      cases c.related t.element with
      | some e => rfl
      | none =>
        dsimp only
        by_cases hdates : t.element.any isDate = true
        · rw [if_pos hdates, if_pos hdates]
          rfl
        · rw [if_neg hdates, if_neg hdates]
          rfl
    · rw [Rendering.exec_bind, relation_exec]
      cases c.related (some t) <;> rfl

theorem fromJson_exec (name : String) (t : TypeDescriptor) (met : List ModelEntity) :
    (c.fromJson name t).exec met =
      ((c.conversion t).fromJson c name, recordAll met (c.conversion t).read) := by
  unfold fromJson conversion
  split
  · rfl
  · split
    · rw [Rendering.exec_bind, relation_exec]
      dsimp only
      cases c.related t.element with
      | some e =>
        dsimp only
        rw [Rendering.exec_bind, Rendering.exec_lift]
        simp only [Conversion.fromJson]
        cases c.className e <;> rfl
      | none =>
        dsimp only
        by_cases hdates : t.element.any isDate = true
        · rw [if_pos hdates, if_pos hdates]
          rfl
        · rw [if_neg hdates, if_neg hdates]
          simp only [Conversion.fromJson]
          cases t.element with
          | none => rfl
          | some e =>
            dsimp only [Option.map_some, Option.getD_some]
            rw [Rendering.exec_bind, typeName_exec]
            cases (c.dartType e).text c <;> rfl
    · rw [Rendering.exec_bind, relation_exec]
      cases c.related (some t) with
      | none => rfl
      | some e =>
        dsimp only
        rw [Rendering.exec_bind, Rendering.exec_lift]
        show _ = (Except.map _ (c.className e), _)
        cases c.className e <;> rfl

/-! ## Bodies -/

/-- A field as the texts of its type and of its conversion. -/
def formText (c : Catalog) (f : Field) : Except Error FieldText := do
  let type ← (c.dartType f.type).text c
  let fromJson ← (c.conversion f.type).fromJson c f.name
  return ⟨f.name, type, (c.conversion f.type).toJson f.name, fromJson⟩

/-- The entities that the text of a field uses: in its type, a `toJson` call or a `fromJson` call. -/
def usedBy (c : Catalog) (f : Field) : List ModelEntity :=
  (c.dartType f.type).entities ++ (c.conversion f.type).written ++ (c.conversion f.type).read

theorem fieldText_eq_ok {f : Field} {met met' : List ModelEntity} {text : FieldText}
    (h : (c.fieldText f).exec met = (.ok text, met')) :
    c.formText f = .ok text ∧ met' = recordAll met (c.usedBy f) := by
  unfold fieldText at h
  unfold formText usedBy
  rw [recordAll_append, recordAll_append]
  rw [Rendering.exec_bind, typeName_exec] at h
  cases htype : (c.dartType f.type).text c with
  | error e =>
    rw [htype] at h
    cases h
  | ok type =>
    rw [htype] at h
    dsimp only at h
    rw [Rendering.exec_bind, toJson_exec] at h
    dsimp only at h
    rw [Rendering.exec_bind, fromJson_exec] at h
    cases hfrom : (c.conversion f.type).fromJson c f.name with
    | error e =>
      rw [hfrom] at h
      cases h
    | ok fromJson =>
      rw [hfrom] at h
      cases h
      exact ⟨rfl, rfl⟩

theorem fieldTexts_eq_ok {fields : List Field} {met met' : List ModelEntity}
    {texts : List FieldText} (h : (fields.mapM c.fieldText).exec met = (.ok texts, met')) :
    fields.mapM c.formText = .ok texts ∧ met' = recordAll met (fields.flatMap c.usedBy) := by
  induction fields generalizing met texts with
  | nil =>
    cases h
    exact ⟨rfl, rfl⟩
  | cons f fields ih =>
    rw [List.mapM_cons, Rendering.exec_bind] at h
    rcases hf : (c.fieldText f).exec met with ⟨e | text, met₁⟩
    · rw [hf] at h
      cases h
    · rw [hf] at h
      dsimp only at h
      rw [Rendering.exec_bind] at h
      rcases hr : (fields.mapM c.fieldText).exec met₁ with ⟨e | rest, met₂⟩
      · rw [hr] at h
        cases h
      · rw [hr] at h
        cases h
        obtain ⟨htext, rfl⟩ := fieldText_eq_ok hf
        obtain ⟨hrest, rfl⟩ := ih hr
        rw [List.mapM_cons, htext, hrest, List.flatMap_cons, recordAll_append]
        exact ⟨rfl, rfl⟩

theorem bodyText_eq_ok {s : ModelSettings} {e : ModelEntity} {met met' : List ModelEntity}
    {text : ClassText} (h : (c.bodyText s e).exec met = (.ok text, met')) :
    e.fields.mapM c.formText = .ok text.fields ∧ c.className e = .ok text.name ∧
      text.base = s.baseClass.text ∧ text.idField = s.idField ∧
      met' = recordAll met (e.fields.flatMap c.usedBy) := by
  unfold bodyText at h
  rw [Rendering.exec_bind] at h
  rcases hf : (e.fields.mapM c.fieldText).exec met with ⟨fault | texts, met₁⟩
  · rw [hf] at h
    cases h
  · rw [hf] at h
    dsimp only at h
    rw [Rendering.exec_bind, Rendering.exec_lift] at h
    cases hname : c.className e with
    | error fault =>
      rw [hname] at h
      cases h
    | ok name =>
      rw [hname] at h
      cases h
      obtain ⟨htexts, hmet⟩ := fieldTexts_eq_ok hf
      exact ⟨htexts, rfl, rfl, rfl, hmet⟩

end Catalog

end DartModels
