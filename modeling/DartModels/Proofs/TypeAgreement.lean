import DartModels.Proofs.DescribedTypes
import DartModels.Proofs.ModelForm

/-!
# Types and conversions agree

The Dart type of a field, its serialisation and the expression that rebuilds it come from three case
splits.  For a described type that is not declared too deep they fall into the same case:

    type                conversion        serialisation
    DateTime            date              x?.toIso8601String()
    X                   model X           x?.toJson()
    List<X>             models X          x?.map((x) => x.toJson())?.toList()
    List<DateTime>      dates             x?.map((date) => date?.toIso8601String())?.toList()
    anything else       none or items     x

The text of the type tells its case as long as what refers to no entity is not written as a class is,
and no class as a date or a list.

    described, not too deep, clear → the type and the conversion match      (matches_of_described)
    the text of the type tells which conversion it is                 (Told.date_iff, ..., dates_iff)
    the serialisation tells which conversion it is                        (Conversion.suffix_eq_…)
    the text of the type agrees with the conversions                           (agreement_of_told)
-/

namespace DartModels

open Dart

/-! ## Types and conversions that belong together -/

theorem Dart.ne_listOf {s : String} (h : s.toList.head? ≠ some 'L') (item : String) :
    s ≠ listOf item := by
  rintro rfl
  exact h (by simp [listOf])

/-- A text that is written for neither a date nor a list. -/
structure Dart.Bland (text : String) : Prop where
  notDate : text ≠ "DateTime"
  notList : ∀ item, text ≠ listOf item

theorem Dart.bland_int : Bland "int" := ⟨by decide, ne_listOf (by decide)⟩

theorem Dart.bland_anyType : Bland anyType := ⟨by decide, ne_listOf (by decide)⟩

/-- The declared type goes where no conversion looks: through an index, or into a list inside of a
list. -/
def TypeDescriptor.Deep (t : TypeDescriptor) : Prop :=
  t.kind = .indexedAccess ∨
    ∃ item, t.element = some item ∧ (item.kind = .array ∨ item.kind = .indexedAccess)

namespace Catalog

variable {c : Catalog} {t : TypeDescriptor}

/-- No entity of the run bears the built-in name of the type or of its items.  A type that is named as
dates are is one even so. -/
structure Unshadowed (c : Catalog) (t : TypeDescriptor) : Prop where
  type : numericTypes.contains t.name = true → c.related (some t) = none
  item : ∀ u, t.element = some u → dateTypes.contains u.name || numericTypes.contains u.name →
    c.related (some u) = none

variable (c) in
/-- A text is the name of a class of the run. -/
def HasClass (text : String) : Prop := ∃ e ∈ c.entities, c.className e = .ok text

variable (c) in
/-- The Dart type of a field. -/
def declared (t : TypeDescriptor) (met : List ModelEntity) : Except Error String :=
  ((c.typeName t).exec met).1

theorem declared_eq (t : TypeDescriptor) (met : List ModelEntity) :
    c.declared t met = (c.dartType t).text c := by
  rw [declared, typeName_exec]

/-- The text of a type shows whether it refers to an entity. -/
structure Legible (c : Catalog) (t : TypeDescriptor) : Prop where
  /-- What refers to no entity is not written as a class of the run is. -/
  other : isDate t = true ∨ c.related (some t) = none →
    ∀ text, c.declared t [] = .ok text → ¬c.HasClass text
  /-- The class of an entity that is referred to is written as neither a date nor a list. -/
  entity : isDate t = false → ∀ e, c.related (some t) = some e →
    ∀ cls, c.className e = .ok cls → Bland cls
  /-- A type of the language is written as neither a date nor a list. -/
  primitive : isDate t = false → t.kind = .primitive →
    ∀ text, c.declared t [] = .ok text → Bland text

/-- The texts of a type and of its items show whether they refer to entities. -/
structure Clear (c : Catalog) (t : TypeDescriptor) : Prop where
  type : c.Legible t
  item : ∀ u, t.element = some u → c.Legible u

/-- A declared type with the conversion that belongs to it. -/
inductive Matches (c : Catalog) : DartType → Conversion → Prop where
  | date (hclass : ¬c.HasClass "DateTime") : Matches c .date .date
  | model {e : ModelEntity} (he : e ∈ c.entities)
      (hbland : ∀ cls, c.className e = .ok cls → Bland cls) : Matches c (.model e) (.model e)
  | models {e : ModelEntity} (he : e ∈ c.entities)
      (hbland : ∀ cls, c.className e = .ok cls → Bland cls)
      (hlist : ∀ cls, c.className e = .ok cls → ¬c.HasClass (listOf cls)) :
      Matches c (.list (.model e)) (.models e)
  | dates (hclass : ¬c.HasClass "DateTime") (hlist : ¬c.HasClass (listOf "DateTime")) :
      Matches c (.list .date) .dates
  | plain {type : DartType} {text : String} (htext : type.text c = .ok text)
      (hbland : Bland text) (hclass : ¬c.HasClass text) : Matches c type .none
  | items {item : DartType} {text : String} (htext : item.text c = .ok text)
      (hbland : Bland text) (hclass : ¬c.HasClass text) (hlist : ¬c.HasClass (listOf text)) :
      Matches c (.list item) (.items item)

theorem mem_of_related {o : Option TypeDescriptor} {e : ModelEntity} (h : c.related o = some e) :
    e ∈ c.entities := by
  unfold related at h
  split at h
  · exact List.mem_of_find?_eq_some h
  · cases h

/-- What neither a list nor an indexed access is: a date, an entity or something else. -/
inductive Single (c : Catalog) (t : TypeDescriptor) : Prop where
  | date (hdate : isDate t = true) (htype : c.dartType t = .date)
      (hclass : ¬c.HasClass "DateTime")
  | model {e : ModelEntity} (hdate : isDate t = false) (htype : c.dartType t = .model e)
      (hrelated : c.related (some t) = some e)
      (hbland : ∀ cls, c.className e = .ok cls → Bland cls)
  | plain {text : String} (hdate : isDate t = false) (htext : (c.dartType t).text c = .ok text)
      (hbland : Bland text) (hclass : ¬c.HasClass text) (hrelated : c.related (some t) = none)

theorem single_of_kind (hlegible : c.Legible t) (hlist : t.kind ≠ .array)
    (hindexed : t.kind ≠ .indexedAccess)
    (hshadow : numericTypes.contains t.name = true → c.related (some t) = none) : c.Single t := by
  obtain ⟨hother, hentity, hprimitive⟩ := hlegible
  simp only [declared_eq] at hother hprimitive
  by_cases hdate : isDate t = true
  · have htype : c.dartType t = .date := by
      obtain ⟨kind, name, element, objectType, indexType, arguments, importFile, relativePath⟩ := t
      rw [dartType.eq_def]
      exact if_pos hdate
    exact .date hdate htype (hother (Or.inl hdate) _ (htype ▸ rfl))
  · have hnodate : isDate t = false := by simpa using hdate
    -- What refers to no entity is plain, whatever its text is.
    have plain {text : String} (htext : (c.dartType t).text c = .ok text) (hbland : Bland text)
        (hrelated : c.related (some t) = none) : c.Single t :=
      .plain hnodate htext hbland (hother (Or.inr hrelated) _ htext) hrelated
    obtain ⟨kind, name, element, objectType, indexType, arguments, importFile, relativePath⟩ := t
    have htype := @dartType.eq_def c
      (.mk kind name element objectType indexType arguments importFile relativePath)
    have hname : ¬ dateTypes.contains name = true := hdate
    dsimp only at htype
    rw [if_neg hname] at htype
    by_cases hnumber : numericTypes.contains name = true
    · rw [if_pos hnumber] at htype
      exact plain (htype ▸ rfl) bland_int (hshadow hnumber)
    · rw [if_neg hnumber] at htype
      cases kind with
      | array => exact absurd rfl hlist
      | indexedAccess => exact absurd rfl hindexed
      | primitive =>
        have htext : (c.dartType (.mk .primitive name element objectType indexType arguments importFile
            relativePath)).text c = .ok ((primitiveTypes.lookup name).getD name) := htype ▸ rfl
        exact plain htext (hprimitive hnodate rfl _ htext) rfl
      | unknown => exact plain (htype ▸ rfl) bland_anyType rfl
      | reference =>
        dsimp only at htype
        cases hfind : c.find? name with
        | none =>
          rw [hfind] at htype
          exact plain (htype ▸ rfl) bland_anyType hfind
        | some e =>
          rw [hfind] at htype
          exact .model hnodate htype hfind (hentity hnodate e hfind)

theorem matches_of_single (hlist : t.kind ≠ .array) (h : c.Single t) :
    c.Matches (c.dartType t) (c.conversion t) := by
  unfold conversion
  cases h with
  | date hdate htype hclass =>
    rw [if_pos hdate, htype]
    exact .date hclass
  | model hdate htype hrelated hbland =>
    rw [if_neg (by simp [hdate]), if_neg hlist, htype, hrelated]
    exact .model (mem_of_related hrelated) hbland
  | plain hdate htext hbland hclass hrelated =>
    rw [if_neg (by simp [hdate]), if_neg hlist, hrelated]
    exact .plain htext hbland hclass

theorem conversion_array (item : TypeDescriptor) :
    c.conversion (.array item) =
      match c.related (some item) with
      | some e => .models e
      | none => if isDate item then .dates else .items (c.dartType item) := by
  rfl

theorem matches_array {item : TypeDescriptor} (h : c.Single item)
    (hlegible : c.Legible (.array item))
    (hshadow : isDate item = true → c.related (some item) = none) :
    c.Matches (c.dartType (.array item)) (c.conversion (.array item)) := by
  have hlist {text : String} (htext : (c.dartType item).text c = .ok text) :
      ¬c.HasClass (listOf text) := by
    refine hlegible.other (Or.inr rfl) _ ?_
    rw [declared_eq, dartType_array, DartType.text, htext]
    rfl
  rw [dartType_array, conversion_array]
  cases h with
  | date hdate htype hclass =>
    rw [hshadow hdate]
    dsimp only
    rw [if_pos hdate, htype]
    exact .dates hclass (hlist (htype ▸ rfl))
  | model hdate htype hrelated hbland =>
    rw [hrelated, htype]
    exact .models (mem_of_related hrelated) hbland fun cls hname => hlist (htype ▸ hname)
  | plain hdate htext hbland hclass hrelated =>
    rw [hrelated]
    dsimp only
    rw [if_neg (by simp [hdate])]
    exact .items htext hbland hclass (hlist htext)

theorem matches_of_described (h : Described t) (hdeep : ¬ t.Deep) (hshadow : c.Unshadowed t)
    (hclear : c.Clear t) : c.Matches (c.dartType t) (c.conversion t) := by
  have hhere := hshadow.type
  cases h with
  | primitive name => exact matches_of_single nofun (single_of_kind hclear.type nofun nofun hhere)
  | unknown name => exact matches_of_single nofun (single_of_kind hclear.type nofun nofun hhere)
  | reference name arguments importFile relativePath =>
    exact matches_of_single nofun (single_of_kind hclear.type nofun nofun hhere)
  | array h =>
    next item =>
    have hlist : item.kind ≠ .array := fun hk => hdeep (Or.inr ⟨item, rfl, Or.inl hk⟩)
    have hindexed : item.kind ≠ .indexedAccess := fun hk => hdeep (Or.inr ⟨item, rfl, Or.inr hk⟩)
    have hitem := hshadow.item item rfl
    have hsingle := single_of_kind (hclear.item item rfl) hlist hindexed fun hn => hitem (by
      rw [hn, Bool.or_true])
    exact matches_array hsingle hclear.type fun hd => hitem (Bool.or_eq_true_iff.mpr (Or.inl hd))
  | indexedAccess hobject hindex => exact absurd (Or.inl rfl) hdeep

/-- What is declared too deep is used as it is; a list is cast. -/
theorem conversion_of_deep (h : Described t) (hdeep : t.Deep) :
    (t.kind = .indexedAccess ∧ c.conversion t = .none) ∨
      ∃ item, t = .array item ∧ c.conversion t = .items (c.dartType item) := by
  cases h with
  | primitive name => rcases hdeep with hk | ⟨item, he, -⟩ <;> contradiction
  | unknown name => rcases hdeep with hk | ⟨item, he, -⟩ <;> contradiction
  | reference name arguments importFile relativePath =>
    rcases hdeep with hk | ⟨item, he, -⟩ <;> contradiction
  | indexedAccess hobject hindex => exact Or.inl ⟨rfl, rfl⟩
  | array h =>
    next item =>
    refine Or.inr ⟨item, rfl, ?_⟩
    rw [conversion_array]
    rcases hdeep with hk | ⟨item', he, hkind⟩
    · cases hk
    · cases he
      cases h with
      | primitive name => rcases hkind with hk | hk <;> cases hk
      | unknown name => rcases hkind with hk | hk <;> cases hk
      | reference name arguments importFile relativePath => rcases hkind with hk | hk <;> cases hk
      | array h => rfl
      | indexedAccess hobject hindex => rfl

end Catalog

/-! ## Telling conversions by their texts -/

namespace Conversion

/-- The serialisation of each entity of a list. -/
def eachToJson (item : String) : String :=
  "?.map((" ++ item ++ ") => " ++ item ++ ".toJson())?.toList()"

/-- What stands after the name of a field that is serialised. -/
def suffix : Conversion → String
  | none | items _ => ""
  | date => "?.toIso8601String()"
  | dates => "?.map((date) => date?.toIso8601String())?.toList()"
  | model _ => "?.toJson()"
  | models e => eachToJson (itemName e)

theorem toJson_eq (name : String) (v : Conversion) : v.toJson name = name ++ v.suffix := by
  cases v <;> simp [toJson, suffix, eachToJson, String.append_assoc]

theorem eachToJson_start (item : String) : (eachToJson item).toList[2]? = some 'm' := by
  simp [eachToJson]

theorem eachToJson_end (item : String) : (eachToJson item).toList.reverse[13]? = some 'n' := by
  simp [eachToJson]

theorem eachToJson_inj {i j : String} (h : eachToJson i = eachToJson j) : i = j := by
  have hchars := congrArg String.toList h
  simp only [eachToJson, String.toList_append, List.append_assoc] at hchars
  have hlength := congrArg List.length hchars
  simp only [List.length_append] at hlength
  have htail := List.append_cancel_left hchars
  exact String.toList_injective (List.append_inj htail (by omega)).1

theorem eachToJson_ne {item s : String} (h : s.toList[2]? ≠ some 'm') : eachToJson item ≠ s :=
  fun e => h (e ▸ eachToJson_start item)

theorem eachToJson_ne_dates (item : String) :
    eachToJson item ≠ "?.map((date) => date?.toIso8601String())?.toList()" := by
  intro h
  have hend := eachToJson_end item
  rw [h] at hend
  revert hend
  decide

theorem suffix_eq_date {v : Conversion} : v.suffix = "?.toIso8601String()" ↔ v = .date := by
  cases v with
  | none => simp [suffix]
  | items _ => simp [suffix]
  | date => simp [suffix]
  | dates => simp [suffix]
  | model _ => simp [suffix]
  | models e => simp [suffix, eachToJson_ne]

theorem suffix_eq_dates {v : Conversion} :
    v.suffix = "?.map((date) => date?.toIso8601String())?.toList()" ↔ v = .dates := by
  cases v with
  | none => simp [suffix]
  | items _ => simp [suffix]
  | date => simp [suffix]
  | dates => simp [suffix]
  | model _ => simp [suffix]
  | models e => simp [suffix, eachToJson_ne_dates]

theorem suffix_eq_model {v : Conversion} : v.suffix = "?.toJson()" ↔ ∃ e, v = .model e := by
  cases v with
  | none => simp [suffix]
  | items _ => simp [suffix]
  | date => simp [suffix]
  | dates => simp [suffix]
  | model _ => simp [suffix]
  | models e => simp [suffix, eachToJson_ne]

theorem suffix_eq_models {v : Conversion} {item : String} :
    v.suffix = eachToJson item ↔ ∃ e, v = .models e ∧ itemName e = item := by
  cases v with
  | none => simp [suffix, (eachToJson_ne _).symm]
  | items _ => simp [suffix, (eachToJson_ne _).symm]
  | date => simp [suffix, (eachToJson_ne _).symm]
  | dates => simp [suffix, (eachToJson_ne_dates item).symm]
  | model _ => simp [suffix, (eachToJson_ne _).symm]
  | models e => simpa [suffix] using ⟨eachToJson_inj, congrArg eachToJson⟩

theorem map_eq_ok_iff {α β : Type} {f : α → β} (hf : Function.Injective f) {x : Except Error α}
    {a : α} : x.map f = .ok (f a) ↔ x = .ok a := by
  cases x with
  | error fault => exact ⟨nofun, nofun⟩
  | ok b =>
    constructor
    · intro h
      rw [hf (Except.ok.inj h)]
    · intro h
      rw [h]
      rfl

theorem fromJson_model {c : Catalog} {e : ModelEntity} {name cls : String} :
    (model e).fromJson c name = .ok (cls ++ ".fromJson(" ++ jsonField name ++ ")") ↔
      c.className e = .ok cls := by
  refine map_eq_ok_iff (a := cls) fun i j h => ?_
  simpa only [String.append_left_inj] using h

theorem fromJson_models {c : Catalog} {e : ModelEntity} {name cls : String} :
    (models e).fromJson c name = .ok (jsonList (jsonField name) ++ "?.map((data) => " ++ cls ++
        ".fromJson(data))?.toList()") ↔
      c.className e = .ok cls := by
  refine map_eq_ok_iff (a := cls) fun i j h => ?_
  simpa only [String.append_left_inj, String.append_right_inj] using h

end Conversion

/-! ## Agreement -/

/-- A text that names a type: its own, or that of a list of what names it. -/
inductive Dart.Names (part : String) : String → Prop where
  | here : Names part part
  | list {item : String} (h : Names part item) : Names part (listOf item)

theorem Dart.names_iff_of_ne_listOf {part text : String} (h : ∀ item, text ≠ listOf item) :
    Names part text ↔ text = part := by
  constructor
  · intro hnames
    cases hnames with
    | here => rfl
    | list _ => exact absurd rfl (h _)
  · rintro rfl
    exact .here

theorem Dart.names_listOf {part item : String} (h : listOf item ≠ part) :
    Names part (listOf item) ↔ Names part item := by
  constructor
  · intro hnames
    generalize htext : listOf item = text at hnames
    cases hnames with
    | here => exact absurd htext h
    | list hitem => rwa [listOf_inj.mp htext]
  · exact .list

namespace Catalog

variable {c : Catalog} {t : TypeDescriptor} {type : DartType} {v : Conversion} {text : String}

/-! ### The text of a type -/

theorem text_list {item : DartType} (h : (DartType.list item).text c = .ok text) :
    ∃ inner, item.text c = .ok inner ∧ text = listOf inner := by
  obtain ⟨inner, hinner, rfl⟩ := exists_of_mapped_eq_ok h
  exact ⟨inner, hinner, rfl⟩

/-- What the text of a type says of its conversion. -/
inductive Told (c : Catalog) : String → Conversion → Prop where
  | date (hclass : ¬c.HasClass "DateTime") : Told c "DateTime" .date
  | model {e : ModelEntity} {cls : String} (hclass : c.HasClass cls) (hbland : Bland cls)
      (hname : c.className e = .ok cls) : Told c cls (.model e)
  | models {e : ModelEntity} {cls : String} (hclass : c.HasClass cls) (hbland : Bland cls)
      (hlist : ¬c.HasClass (listOf cls)) (hname : c.className e = .ok cls) :
      Told c (listOf cls) (.models e)
  | dates (hclass : ¬c.HasClass "DateTime") (hlist : ¬c.HasClass (listOf "DateTime")) :
      Told c (listOf "DateTime") .dates
  | plain {text : String} (hbland : Bland text) (hclass : ¬c.HasClass text) : Told c text .none
  | items {item : DartType} {text : String} (htext : item.text c = .ok text) (hbland : Bland text)
      (hclass : ¬c.HasClass text) (hlist : ¬c.HasClass (listOf text)) :
      Told c (listOf text) (.items item)

theorem Matches.told (h : c.Matches type v) (htext : type.text c = .ok text) : c.Told text v := by
  cases h with
  | date hclass =>
    cases htext
    exact .date hclass
  | model he hbland => exact .model ⟨_, he, htext⟩ (hbland _ htext) htext
  | models he hbland hlist =>
    obtain ⟨cls, hcls, rfl⟩ := text_list htext
    exact .models ⟨_, he, hcls⟩ (hbland _ hcls) (hlist _ hcls) hcls
  | dates hclass hlist =>
    obtain ⟨inner, hinner, rfl⟩ := text_list htext
    cases hinner
    exact .dates hclass hlist
  | plain hplain hbland hclass =>
    cases hplain.symm.trans htext
    exact .plain hbland hclass
  | items hitem hbland hclass hlist =>
    obtain ⟨inner, hinner, rfl⟩ := text_list htext
    cases hitem.symm.trans hinner
    exact .items hinner hbland hclass hlist

/-- A type without a text has a class without a name, and so has its conversion. -/
theorem Matches.rebuilt_of_error (h : c.Matches type v) {fault : Error}
    (htext : type.text c = .error fault) (name : String) : v.fromJson c name = .error fault := by
  cases h with
  | date => cases htext
  | model he hbland =>
    rw [Conversion.fromJson, show c.className _ = .error fault from htext]
    rfl
  | @models e he hbland hlist =>
    cases hname : c.className e with
    | ok cls =>
      rw [DartType.text, DartType.text, hname] at htext
      cases htext
    | error fault' =>
      rw [DartType.text, DartType.text, hname] at htext
      cases htext
      rw [Conversion.fromJson, hname]
      rfl
  | dates => cases htext
  | plain hplain _ _ => cases hplain.symm.trans htext
  | items hitem _ _ _ =>
    rw [DartType.text, hitem] at htext
    cases htext

namespace Told

variable (h : c.Told text v)

include h

theorem date_iff : text = "DateTime" ↔ v = .date := by
  cases h with
  | date _ => exact iff_of_true rfl rfl
  | model _ hbland _ => exact iff_of_false hbland.notDate nofun
  | models _ _ _ _ => exact iff_of_false (ne_listOf (by decide) _).symm nofun
  | dates _ _ => exact iff_of_false (ne_listOf (by decide) _).symm nofun
  | plain hbland _ => exact iff_of_false hbland.notDate nofun
  | items _ _ _ _ => exact iff_of_false (ne_listOf (by decide) _).symm nofun

theorem model_iff (cls : String) :
    c.HasClass cls ∧ text = cls ↔ ∃ e, v = .model e ∧ c.className e = .ok cls := by
  cases h with
  | date hclass => exact iff_of_false (fun h => hclass (h.2 ▸ h.1)) nofun
  | @model e _ hclass _ hname =>
    constructor
    · rintro ⟨-, rfl⟩
      exact ⟨e, rfl, hname⟩
    · rintro ⟨e', heq, hname'⟩
      cases heq
      cases hname.symm.trans hname'
      exact ⟨hclass, rfl⟩
  | models _ _ hlist _ => exact iff_of_false (fun h => hlist (h.2 ▸ h.1)) nofun
  | dates _ hlist => exact iff_of_false (fun h => hlist (h.2 ▸ h.1)) nofun
  | plain _ hclass => exact iff_of_false (fun h => hclass (h.2 ▸ h.1)) nofun
  | items _ _ _ hlist => exact iff_of_false (fun h => hlist (h.2 ▸ h.1)) nofun

theorem models_iff (cls : String) :
    c.HasClass cls ∧ text = listOf cls ↔ ∃ e, v = .models e ∧ c.className e = .ok cls := by
  cases h with
  | date _ => exact iff_of_false (fun h => ne_listOf (by decide) _ h.2) nofun
  | model _ hbland _ => exact iff_of_false (fun h => hbland.notList _ h.2) nofun
  | @models e _ hclass _ _ hname =>
    constructor
    · rintro ⟨-, heq⟩
      cases listOf_inj.mp heq
      exact ⟨e, rfl, hname⟩
    · rintro ⟨e', heq, hname'⟩
      cases heq
      cases hname.symm.trans hname'
      exact ⟨hclass, rfl⟩
  | dates hclass _ => exact iff_of_false (fun h => hclass (listOf_inj.mp h.2 ▸ h.1)) nofun
  | plain hbland _ => exact iff_of_false (fun h => hbland.notList _ h.2) nofun
  | items _ _ hclass _ => exact iff_of_false (fun h => hclass (listOf_inj.mp h.2 ▸ h.1)) nofun

theorem dates_iff : text = listOf "DateTime" ↔ v = .dates := by
  cases h with
  | date _ => exact iff_of_false (ne_listOf (by decide) _) nofun
  | model _ hbland _ => exact iff_of_false (hbland.notList _) nofun
  | models _ hbland _ _ => exact iff_of_false (fun heq => hbland.notDate (listOf_inj.mp heq)) nofun
  | dates _ _ => exact iff_of_true rfl rfl
  | plain hbland _ => exact iff_of_false (hbland.notList _) nofun
  | items _ hbland _ _ => exact iff_of_false (fun heq => hbland.notDate (listOf_inj.mp heq)) nofun

/-- What is neither a date nor an entity, and no list of them, is used as it is. -/
theorem used_plainly (hdate : text ≠ "DateTime") (hdates : text ≠ listOf "DateTime")
    (hmodels : ∀ cls, c.HasClass cls → text ≠ cls ∧ text ≠ listOf cls) (name : String) :
    v.suffix = "" ∧
      (v.fromJson c name = .ok (jsonField name) ∨
        ∃ item, text = listOf item ∧
          v.fromJson c name = .ok (jsonList (jsonField name) ++ "?.cast<" ++ item ++ ">()")) ∧
      (∀ cls, c.HasClass cls → ¬Names cls text) ∧ ¬Names "DateTime" text := by
  cases h with
  | date _ => exact absurd rfl hdate
  | model hclass _ _ => exact absurd rfl (hmodels _ hclass).1
  | models hclass _ _ _ => exact absurd rfl (hmodels _ hclass).2
  | dates _ _ => exact absurd rfl hdates
  | plain hbland _ =>
    refine ⟨rfl, Or.inl rfl, fun cls hclass => ?_, ?_⟩
    · rw [names_iff_of_ne_listOf hbland.notList]
      exact (hmodels cls hclass).1
    · rwa [names_iff_of_ne_listOf hbland.notList]
  | @items item inner hinner hbland _ _ =>
    have hinnerNames {part : String} (hhere : listOf inner ≠ part) (hitem : inner ≠ part) :
        ¬Names part (listOf inner) := by
      rw [names_listOf hhere, names_iff_of_ne_listOf hbland.notList]
      exact hitem
    refine ⟨rfl, Or.inr ⟨inner, rfl, ?_⟩, fun cls hclass => ?_, ?_⟩
    · rw [Conversion.fromJson, hinner]
      rfl
    · obtain ⟨hhere, hitem⟩ := hmodels cls hclass
      exact hinnerNames hhere fun heq => hitem (heq ▸ rfl)
    · exact hinnerNames hdate hbland.notDate

end Told

variable (c) in
/-- The expression that serialises a field. -/
def serialised (name : String) (t : TypeDescriptor) (met : List ModelEntity) :
    Except Error String := ((c.toJson name t).exec met).1

variable (c) in
/-- The expression that rebuilds a field. -/
def rebuilt (name : String) (t : TypeDescriptor) (met : List ModelEntity) :
    Except Error String := ((c.fromJson name t).exec met).1

theorem serialised_eq (name : String) (t : TypeDescriptor) (met : List ModelEntity) :
    c.serialised name t met = .ok (name ++ (c.conversion t).suffix) := by
  rw [serialised, toJson_exec, Conversion.toJson_eq]

theorem rebuilt_eq (name : String) (t : TypeDescriptor) (met : List ModelEntity) :
    c.rebuilt name t met = (c.conversion t).fromJson c name := by
  rw [rebuilt, fromJson_exec]

theorem serialised_eq_iff (name s : String) (t : TypeDescriptor) (met : List ModelEntity) :
    c.serialised name t met = .ok (name ++ s) ↔ (c.conversion t).suffix = s := by
  rw [serialised_eq, Except.ok.injEq, String.append_right_inj]

/-- The Dart type of a field, as it is written, and its two conversions say the same. -/
structure Agreement (c : Catalog) (name : String) (t : TypeDescriptor) (met : List ModelEntity)
    (text : String) : Prop where
  date : text = "DateTime" ↔
    c.serialised name t met = .ok (name ++ "?.toIso8601String()") ∧
      c.rebuilt name t met = .ok ("DateTime.tryParse(" ++ jsonField name ++ " ?? '')")
  model : ∀ cls, c.HasClass cls ∧ text = cls ↔
    c.serialised name t met = .ok (name ++ "?.toJson()") ∧
      c.rebuilt name t met = .ok (cls ++ ".fromJson(" ++ jsonField name ++ ")")
  models : ∀ cls, c.HasClass cls ∧ text = listOf cls ↔
    (∃ item, c.serialised name t met =
        .ok (name ++ ("?.map((" ++ item ++ ") => " ++ item ++ ".toJson())?.toList()"))) ∧
      c.rebuilt name t met =
        .ok (jsonList (jsonField name) ++ "?.map((data) => " ++ cls ++ ".fromJson(data))?.toList()")
  dates : text = listOf "DateTime" ↔
    c.serialised name t met =
        .ok (name ++ "?.map((date) => date?.toIso8601String())?.toList()") ∧
      c.rebuilt name t met =
        .ok (jsonList (jsonField name) ++
          "?.map((data) => DateTime.tryParse(data ?? ''))?.toList()")
  /-- Every other field is used as it is, a list cast to the items of its declared type. -/
  plain : text ≠ "DateTime" → text ≠ listOf "DateTime" →
    (∀ cls, c.HasClass cls → text ≠ cls ∧ text ≠ listOf cls) →
    c.serialised name t met = .ok name ∧
      (c.rebuilt name t met = .ok (jsonField name) ∨
        ∃ item, text = listOf item ∧
          c.rebuilt name t met = .ok (jsonList (jsonField name) ++ "?.cast<" ++ item ++ ">()")) ∧
      (∀ cls, c.HasClass cls → ¬Names cls text) ∧ ¬Names "DateTime" text

theorem agreement_of_told (name : String) (met : List ModelEntity)
    (h : c.Told text (c.conversion t)) : c.Agreement name t met text := by
  refine ⟨?_, fun cls => ?_, fun cls => ?_, ?_, fun hdate hdates hmodels => ?_⟩
  · rw [h.date_iff, serialised_eq_iff, Conversion.suffix_eq_date]
    refine ⟨fun hv => ⟨hv, ?_⟩, fun hv => hv.1⟩
    rw [rebuilt_eq, hv]
    rfl
  · rw [h.model_iff, serialised_eq_iff, Conversion.suffix_eq_model, rebuilt_eq]
    constructor
    · rintro ⟨e, hv, hname⟩
      exact ⟨⟨e, hv⟩, hv ▸ Conversion.fromJson_model.mpr hname⟩
    · rintro ⟨⟨e, hv⟩, hrebuilt⟩
      rw [hv, Conversion.fromJson_model] at hrebuilt
      exact ⟨e, hv, hrebuilt⟩
  · change _ ↔ (∃ item, c.serialised name t met = .ok (name ++ Conversion.eachToJson item)) ∧ _
    rw [h.models_iff, rebuilt_eq]
    simp only [serialised_eq_iff, Conversion.suffix_eq_models]
    constructor
    · rintro ⟨e, hv, hname⟩
      exact ⟨⟨_, e, hv, rfl⟩, hv ▸ Conversion.fromJson_models.mpr hname⟩
    · rintro ⟨⟨item, e, hv, -⟩, hrebuilt⟩
      rw [hv, Conversion.fromJson_models] at hrebuilt
      exact ⟨e, hv, hrebuilt⟩
  · rw [h.dates_iff, serialised_eq_iff, Conversion.suffix_eq_dates]
    refine ⟨fun hv => ⟨hv, ?_⟩, fun hv => hv.1⟩
    rw [rebuilt_eq, hv]
    rfl
  · rw [serialised_eq, rebuilt_eq]
    obtain ⟨hsuffix, hrebuilt, hclasses, hnodate⟩ := h.used_plainly hdate hdates hmodels name
    rw [hsuffix, String.append_empty]
    exact ⟨rfl, hrebuilt, hclasses, hnodate⟩

/-- The type of a field, as it is written, agrees with the conversions, unless the type is declared too
deep, an entity bears its built-in name, or its text does not show whether it refers to an entity.
Where a class has no name there is neither a type nor a conversion.  What is declared too deep is used
as it is, whatever its type names. -/
theorem conversion_agreement {o : Origin} {n : Option Syntax.Node} (h : o.describe? n = .ok t)
    (c : Catalog) (name : String) (met : List ModelEntity) :
    (¬ t.Deep → c.Unshadowed t → c.Clear t →
      match c.declared t met with
      | .ok text => c.Agreement name t met text
      | .error fault => c.rebuilt name t met = .error fault) ∧
    (t.Deep → c.serialised name t met = .ok name ∧
      (t.kind = .indexedAccess ∧ c.rebuilt name t met = .ok (jsonField name) ∨
        ∃ item, t = .array item ∧ c.rebuilt name t met = (c.declared item met).map
          fun text => jsonList (jsonField name) ++ "?.cast<" ++ text ++ ">()")) := by
  have hdescribed := Origin.described_describe? h
  refine ⟨fun hdeep hshadow hclear => ?_, fun hdeep => ?_⟩
  · have hmatches := matches_of_described hdescribed hdeep hshadow hclear
    rw [declared_eq]
    cases htext : (c.dartType t).text c with
    | ok text => exact agreement_of_told name met (hmatches.told htext)
    | error fault =>
      dsimp only
      rw [rebuilt_eq]
      exact hmatches.rebuilt_of_error htext name
  · rw [serialised_eq, rebuilt_eq]
    rcases conversion_of_deep hdescribed hdeep with ⟨hkind, hv⟩ | ⟨item, hitem, hv⟩
    · rw [hv]
      exact ⟨by rw [Conversion.suffix, String.append_empty], Or.inl ⟨hkind, rfl⟩⟩
    · rw [hv]
      refine ⟨by rw [Conversion.suffix, String.append_empty], Or.inr ⟨item, hitem, ?_⟩⟩
      rw [declared_eq]
      rfl

/-! ## Types that are declared too deep or written as entities are -/

/-- An entity of the run. -/
def user : ModelEntity := ⟨"user.ts", "User", [], "/m/user.dart"⟩

/-- An entity that is named as numbers are. -/
def number : ModelEntity := ⟨"number.ts", "Number", [], "/m/number.dart"⟩

/-- An entity that is named as dates are. -/
def moment : ModelEntity := ⟨"date.ts", "Date", [], "/m/date.dart"⟩

/-- An entity that is written as a type of the language is. -/
def note : ModelEntity := ⟨"string.ts", "String", [], "/m/string.dart"⟩

/-- An entity that is written as dates are. -/
def instant : ModelEntity := ⟨"date-time.ts", "DateTime", [], "/m/date-time.dart"⟩

/-- The run of these entities. -/
def accounts : Catalog := ⟨[user, number, moment, note, instant], .casing .pascal⟩

/-- A source without imports. -/
def bare : Origin := ⟨⟨[], []⟩, .null, []⟩

/-- The type that a name refers to. -/
def named (name : String) : TypeDescriptor := .reference name [] none none

/-- A name as a type. -/
def namedNode (name : String) : Syntax.Node := .mk .typeIdentifier .none name []

/-- A list of a type. -/
def listNode (text : String) (item : Syntax.Node) : Syntax.Node := .mk .arrayType .none text [item]

/-- The type of a member. -/
def indexedNode : Syntax.Node :=
  .mk .lookupType .none "User[Date]" [namedNode "User", namedNode "Date"]

/-- A type of the language. -/
def stringNode : Syntax.Node := .mk .predefinedType .none "string" []

/-- Every entity of the run is its own class. -/
theorem className_accounts {e : ModelEntity} (he : e ∈ accounts.entities) :
    accounts.className e = .ok e.name := by
  have hpascal : ∀ e ∈ accounts.entities, Casing.pascal.apply e.name = e.name := by decide +kernel
  exact congrArg Except.ok (hpascal e he)

theorem hasClass_accounts_iff {text : String} :
    accounts.HasClass text ↔ text ∈ accounts.entities.map ModelEntity.name := by
  rw [HasClass, List.mem_map]
  refine exists_congr fun e => and_congr_right fun he => ?_
  rw [className_accounts he, Except.ok.injEq]

theorem className_user : accounts.className user = .ok "User" :=
  className_accounts List.mem_cons_self

theorem dartType_named (name : String) : accounts.dartType (named name) =
    if dateTypes.contains name then .date else if numericTypes.contains name then .number
    else ((accounts.find? name).map .model).getD .anything := by
  rw [named, TypeDescriptor.reference, dartType]

theorem dartType_user : accounts.dartType (named "User") = .model user := by
  rw [dartType_named]
  rfl

theorem dartType_date : accounts.dartType (named "Date") = .date := by
  rw [dartType_named]
  rfl

/-- A field may be used as it is although its declared type is a class or a date, and it may be
converted as an entity although its declared type is a number, a date or a list of dates. -/
theorem conversion_disagrees :
    (bare.describe? (some (listNode "User[][]" (listNode "User[]" (namedNode "User")))) =
        .ok (.array (.array (named "User"))) ∧
      accounts.declared (.array (.array (named "User"))) [] = .ok "List<List<User>>" ∧
      accounts.serialised "x" (.array (.array (named "User"))) [] = .ok "x") ∧
    (bare.describe? (some indexedNode) = .ok (.indexedAccess (named "User") (named "Date")) ∧
      accounts.declared (.indexedAccess (named "User") (named "Date")) [] = .ok "DateTime" ∧
      accounts.serialised "x" (.indexedAccess (named "User") (named "Date")) [] = .ok "x") ∧
    (bare.describe? (some (namedNode "Number")) = .ok (named "Number") ∧
      accounts.declared (named "Number") [] = .ok "int" ∧
      accounts.serialised "x" (named "Number") [] = .ok "x?.toJson()") ∧
    (bare.describe? (some (listNode "Date[]" (namedNode "Date"))) = .ok (.array (named "Date")) ∧
      accounts.declared (.array (named "Date")) [] = .ok "List<DateTime>" ∧
      accounts.serialised "x" (.array (named "Date")) [] =
        .ok "x?.map((date) => date.toJson())?.toList()") ∧
    (bare.describe? (some stringNode) = .ok (.primitive "String") ∧
      accounts.declared (.primitive "String") [] = .ok "String" ∧ accounts.HasClass "String" ∧
      accounts.serialised "x" (.primitive "String") [] = .ok "x") ∧
    (bare.describe? (some (namedNode "DateTime")) = .ok (named "DateTime") ∧
      accounts.declared (named "DateTime") [] = .ok "DateTime" ∧
      accounts.serialised "x" (named "DateTime") [] = .ok "x?.toJson()") := by
  refine ⟨⟨rfl, ?_, ?_⟩, ⟨rfl, ?_, ?_⟩, ⟨rfl, ?_, ?_⟩, ⟨rfl, ?_, ?_⟩, ⟨rfl, ?_, ?_, ?_⟩,
    ⟨rfl, ?_, ?_⟩⟩
  · rw [declared_eq, dartType_array, dartType_array, dartType_user]
    simp only [DartType.text, className_user]
    rfl
  · rw [serialised_eq, conversion_array]
    rfl
  · rw [declared_eq, dartType_indexedAccess, dartType_date]
    rfl
  · rw [serialised_eq]
    rfl
  · rw [declared_eq, dartType_named]
    rfl
  · rw [serialised_eq]
    rfl
  · rw [declared_eq, dartType_array, dartType_date]
    rfl
  · have hmodels : accounts.conversion (.array (named "Date")) = .models moment := rfl
    have hitem : itemName moment = "date" := by decide +kernel
    rw [serialised_eq, hmodels, Conversion.suffix, hitem]
    rfl
  · rw [declared_eq, TypeDescriptor.primitive, dartType]
    rfl
  · exact hasClass_accounts_iff.mpr (by decide)
  · rw [serialised_eq]
    rfl
  · have htype : accounts.dartType (named "DateTime") = .model instant := by
      rw [dartType_named]
      rfl
    rw [declared_eq, htype, DartType.text]
    exact className_accounts (by simp [accounts])
  · rw [serialised_eq]
    rfl

theorem declared_users : accounts.declared (.array (named "User")) [] = .ok "List<User>" := by
  rw [declared_eq, dartType_array, dartType_user]
  simp only [DartType.text, className_user]
  rfl

theorem clear_users : accounts.Clear (.array (named "User")) := by
  refine ⟨⟨fun _ text htext => ?_, nofun, nofun⟩, fun u hu => ?_⟩
  · rw [declared_users] at htext
    cases htext
    rw [hasClass_accounts_iff]
    decide
  · cases hu
    refine ⟨fun hother => ?_, fun _ e he cls hname => ?_, nofun⟩
    · rcases hother with hdate | hnone
      · exact absurd hdate (by decide)
      · cases hnone
    · cases he
      cases className_user.symm.trans hname
      exact ⟨by decide, ne_listOf (by decide)⟩

/-- A list of users is converted item by item. -/
theorem conversion_agreement_list :
    bare.describe? (some (listNode "User[]" (namedNode "User"))) = .ok (.array (named "User")) ∧
      accounts.declared (.array (named "User")) [] = .ok "List<User>" ∧
      ∃ item, accounts.serialised "x" (.array (named "User")) [] =
        .ok ("x" ++ ("?.map((" ++ item ++ ") => " ++ item ++ ".toJson())?.toList()")) := by
  have hdescribed : bare.describe? (some (listNode "User[]" (namedNode "User"))) =
    .ok (.array (named "User")) := rfl
  have hdeep : ¬ (TypeDescriptor.array (named "User")).Deep := by
    rintro (hk | ⟨item, he, hk⟩)
    · cases hk
    · cases he
      rcases hk with hk | hk <;> cases hk
  have hshadow : accounts.Unshadowed (.array (named "User")) := by
    refine ⟨fun h => absurd h (by decide), fun u hu hname => ?_⟩
    cases hu
    exact absurd hname (by decide)
  have hagrees := (conversion_agreement hdescribed accounts "x" []).1 hdeep hshadow clear_users
  rw [declared_users] at hagrees
  have hclass : accounts.HasClass "User" := hasClass_accounts_iff.mpr (by decide)
  exact ⟨hdescribed, declared_users, ((hagrees.models "User").mp ⟨hclass, rfl⟩).1⟩

end Catalog

end DartModels
