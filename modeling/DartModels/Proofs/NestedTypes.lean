import DartModels.Proofs.ModelForm
import Mathlib.Logic.Function.Iterate

/-!
# Nested types

A Dart type is written on the way down through the items of arrays and the index types of accesses.
Each array on the way is one list around what the way ends at, and only that end can be an entity, so
at most one entity is recorded.  The arguments of a type and the types that are looked into are not on
the way.

    there is one way down from a type                                          (comesDown_unique)
    a type comes down to an end through n arrays → its Dart type is n lists around that of the end
                                                                          (dartType_of_comesDown)
    an entity is recorded at the end of the others, or its name was there        (record_cases)
    types with the same way down are written and recorded alike                  (typeName_nested)
-/

namespace DartModels

open Dart

/-! ## Ways down -/

/-- The end of a way down: a type by its kind and its name, or nothing where the items of an array or
the index of an access are left open. -/
abbrev TypeEnd := Option (TypeKind × String)

namespace Dart

/-- Whether a type of this name is a date or a number, whatever its kind. -/
def isBuiltIn (name : String) : Bool := dateTypes.contains name || numericTypes.contains name

end Dart

namespace TypeDescriptor

/-- A type comes down to an end through a number of arrays: into the items of an array and into the
index type of an access.  The name of a date or a number ends the way at once. -/
inductive ComesDown : TypeDescriptor → Nat → TypeEnd → Prop where
  | builtIn {kind : TypeKind} {name : String} {element object index : Option TypeDescriptor}
      {arguments : List TypeDescriptor} {file path : Option String}
      (hname : isBuiltIn name = true) :
      ComesDown (.mk kind name element object index arguments file path) 0 (some (kind, name))
  | single {kind : TypeKind} {name : String} {element object index : Option TypeDescriptor}
      {arguments : List TypeDescriptor} {file path : Option String}
      (hname : isBuiltIn name = false) (hlist : kind ≠ .array) (haccess : kind ≠ .indexedAccess) :
      ComesDown (.mk kind name element object index arguments file path) 0 (some (kind, name))
  | items {name : String} {item : TypeDescriptor} {object index : Option TypeDescriptor}
      {arguments : List TypeDescriptor} {file path : Option String} {levels : Nat} {last : TypeEnd}
      (hname : isBuiltIn name = false) (h : ComesDown item levels last) :
      ComesDown (.mk .array name (some item) object index arguments file path) (levels + 1) last
  | noItems {name : String} {object index : Option TypeDescriptor}
      {arguments : List TypeDescriptor} {file path : Option String}
      (hname : isBuiltIn name = false) :
      ComesDown (.mk .array name none object index arguments file path) 1 none
  | index {name : String} {element object : Option TypeDescriptor} {index : TypeDescriptor}
      {arguments : List TypeDescriptor} {file path : Option String} {levels : Nat} {last : TypeEnd}
      (hname : isBuiltIn name = false) (h : ComesDown index levels last) :
      ComesDown (.mk .indexedAccess name element object (some index) arguments file path) levels last
  | noIndex {name : String} {element object : Option TypeDescriptor}
      {arguments : List TypeDescriptor} {file path : Option String}
      (hname : isBuiltIn name = false) :
      ComesDown (.mk .indexedAccess name element object none arguments file path) 0 none

/-- The way down goes on as long as there are items or an index to go into. -/
theorem exists_comesDown (t : TypeDescriptor) : ∃ levels last, t.ComesDown levels last := by
  match t with
  | .mk kind name element object index arguments file path =>
    cases hname : isBuiltIn name with
    | true => exact ⟨0, _, .builtIn hname⟩
    | false =>
      cases kind with
      | primitive => exact ⟨0, _, .single hname nofun nofun⟩
      | reference => exact ⟨0, _, .single hname nofun nofun⟩
      | unknown => exact ⟨0, _, .single hname nofun nofun⟩
      | array =>
        cases element with
        | none => exact ⟨1, none, .noItems hname⟩
        | some item =>
          obtain ⟨levels, last, h⟩ := exists_comesDown item
          exact ⟨levels + 1, last, .items hname h⟩
      | indexedAccess =>
        cases index with
        | none => exact ⟨0, none, .noIndex hname⟩
        | some index =>
          obtain ⟨levels, last, h⟩ := exists_comesDown index
          exact ⟨levels, last, .index hname h⟩
termination_by sizeOf t

/-- A type and the same with other arguments, other types that are looked into and other origins,
anywhere on the way down. -/
inductive SameWay : TypeDescriptor → TypeDescriptor → Prop where
  | mk (kind : TypeKind) (name : String) {element element' object object' index index' :
        Option TypeDescriptor} {arguments arguments' : List TypeDescriptor}
      {file file' path path' : Option String}
      (hitems : element.isSome = element'.isSome) (hindex : index.isSome = index'.isSome)
      (items : ∀ t t', element = some t → element' = some t' → SameWay t t')
      (indices : ∀ t t', index = some t → index' = some t' → SameWay t t') :
      SameWay (.mk kind name element object index arguments file path)
        (.mk kind name element' object' index' arguments' file' path')

/-- The induction is on the way down: no other part of a type is looked at. -/
theorem ComesDown.sameWay {t t' : TypeDescriptor} {levels : Nat} {last : TypeEnd}
    (h : t.ComesDown levels last) (hway : t.SameWay t') : t'.ComesDown levels last := by
  induction h generalizing t' with
  | builtIn hname =>
    cases hway
    exact .builtIn hname
  | single hname hlist haccess =>
    cases hway
    exact .single hname hlist haccess
  | items hname h ih =>
    cases hway with
    | mk _ _ hitems _ items _ =>
      obtain ⟨item', rfl⟩ := Option.isSome_iff_exists.mp hitems.symm
      exact .items hname (ih (items _ _ rfl rfl))
  | noItems hname =>
    cases hway with
    | @mk _ _ _ element' _ _ _ _ _ _ _ _ _ _ hitems =>
      have hnone : element' = none := by simpa using hitems
      rw [hnone]
      exact .noItems hname
  | index hname h ih =>
    cases hway with
    | mk _ _ _ hindex _ indices =>
      obtain ⟨index', rfl⟩ := Option.isSome_iff_exists.mp hindex.symm
      exact .index hname (ih (indices _ _ rfl rfl))
  | noIndex hname =>
    cases hway with
    | @mk _ _ _ _ _ _ _ index' _ _ _ _ _ _ _ hindex =>
      have hnone : index' = none := by simpa using hindex
      rw [hnone]
      exact .noIndex hname

/-- There is one way down from a type. -/
theorem comesDown_unique {t : TypeDescriptor} {levels levels' : Nat} {last last' : TypeEnd}
    (h : t.ComesDown levels last) (h' : t.ComesDown levels' last') :
    levels' = levels ∧ last' = last := by
  induction h generalizing levels' last' with
  | builtIn hname => cases h' <;> simp_all
  | single hname hlist haccess => cases h' <;> simp_all
  | items hname h ih =>
    cases h' with
    | builtIn hname' => simp [hname] at hname'
    | single _ hlist => exact absurd rfl hlist
    | items _ h' =>
      obtain ⟨rfl, rfl⟩ := ih h'
      exact ⟨rfl, rfl⟩
  | noItems hname =>
    cases h' with
    | builtIn hname' => simp [hname] at hname'
    | single _ hlist => exact absurd rfl hlist
    | noItems => exact ⟨rfl, rfl⟩
  | index hname h ih =>
    cases h' with
    | builtIn hname' => simp [hname] at hname'
    | single _ _ haccess => exact absurd rfl haccess
    | index _ h' => exact ih h'
  | noIndex hname =>
    cases h' with
    | builtIn hname' => simp [hname] at hname'
    | single _ _ haccess => exact absurd rfl haccess
    | noIndex => exact ⟨rfl, rfl⟩

end TypeDescriptor

/-! ## Ends -/

namespace DartType

theorem text_list (c : Catalog) (n : Nat) (type : DartType) :
    (DartType.list^[n] type).text c = (type.text c).map listOf^[n] := by
  induction n with
  | zero => cases h : type.text c <;> simp [h, Except.map]
  | succ n ih =>
    rw [Function.iterate_succ_apply', text, ih]
    cases type.text c with
    | error e => rfl
    | ok text => simp only [Except.map, Function.iterate_succ_apply']

theorem entities_list (n : Nat) (type : DartType) :
    (DartType.list^[n] type).entities = type.entities := by
  induction n with
  | zero => rfl
  | succ n ih => rw [Function.iterate_succ_apply', entities, ih]

end DartType

namespace Catalog

variable (c : Catalog) {t t' : TypeDescriptor} {levels : Nat} {last : TypeEnd}

/-- The entity that the end of a way down refers to. -/
def endEntity : TypeEnd → Option ModelEntity
  | some (.reference, name) => if isBuiltIn name then none else c.find? name
  | _ => none

/-- The Dart type of the end of a way down. -/
def endType : TypeEnd → DartType
  | none => .anything
  | some (kind, name) =>
    if dateTypes.contains name then .date
    else if numericTypes.contains name then .number
    else
      match kind with
      | .reference => ((c.find? name).map .model).getD .anything
      | .primitive => .plain ((primitiveTypes.lookup name).getD name)
      | _ => .anything

variable {c}

theorem not_builtIn {name : String} (h : isBuiltIn name = false) :
    dateTypes.contains name = false ∧ numericTypes.contains name = false :=
  Bool.or_eq_false_iff.mp h

/-- The recursion is that of `dartType`, and the way down says how often it meets an array. -/
theorem dartType_of_comesDown (h : t.ComesDown levels last) :
    c.dartType t = DartType.list^[levels] (c.endType last) := by
  induction h with
  | @builtIn kind name element object index arguments file path hname =>
    rw [dartType.eq_def]
    show _ = c.endType (some (kind, name))
    unfold endType
    dsimp only
    by_cases hdate : dateTypes.contains name = true
    · rw [if_pos hdate, if_pos hdate]
    · have hnumber : numericTypes.contains name = true :=
        ((Bool.or_eq_true _ _).mp hname).resolve_left hdate
      rw [if_neg hdate, if_neg hdate, if_pos hnumber, if_pos hnumber]
  | @single kind name element object index arguments file path hname hlist haccess =>
    obtain ⟨hdate, hnumber⟩ := not_builtIn hname
    rw [dartType_of_kind (not_builtIn hname)]
    show _ = c.endType (some (kind, name))
    unfold endType
    dsimp only
    rw [hdate, hnumber]
    cases kind with
    | array => exact absurd rfl hlist
    | indexedAccess => exact absurd rfl haccess
    | primitive => rfl
    | reference => rfl
    | unknown => rfl
  | items hname h ih => rw [dartType_of_kind (not_builtIn hname), Function.iterate_succ_apply', ← ih]
  | noItems hname =>
    rw [dartType_of_kind (not_builtIn hname)]
    rfl
  | index hname h ih => rw [dartType_of_kind (not_builtIn hname), ← ih]
  | noIndex hname =>
    rw [dartType_of_kind (not_builtIn hname)]
    rfl

theorem endEntity_builtIn {kind : TypeKind} {name : String} (h : isBuiltIn name = true) :
    c.endEntity (some (kind, name)) = none := by
  cases kind with
  | reference => rw [endEntity, if_pos h]
  | _ => rfl

/-- The end of a way down is the class of the entity that it refers to, or names no entity. -/
theorem endType_cases (c : Catalog) (last : TypeEnd) :
    (∃ e ∈ c.entities, c.endEntity last = some e ∧ c.endType last = .model e) ∨
      c.endEntity last = none ∧ (c.endType last).entities = [] := by
  match last with
  | none => exact Or.inr ⟨rfl, rfl⟩
  | some (kind, name) =>
    unfold endType
    dsimp only
    by_cases hdate : dateTypes.contains name = true
    · rw [if_pos hdate]
      exact Or.inr ⟨endEntity_builtIn ((Bool.or_eq_true _ _).mpr (Or.inl hdate)), rfl⟩
    · rw [if_neg hdate]
      by_cases hnumber : numericTypes.contains name = true
      · rw [if_pos hnumber]
        exact Or.inr ⟨endEntity_builtIn ((Bool.or_eq_true _ _).mpr (Or.inr hnumber)), rfl⟩
      · rw [if_neg hnumber]
        have hname : ¬isBuiltIn name = true := fun h =>
          ((Bool.or_eq_true _ _).mp h).elim hdate hnumber
        cases kind with
        | primitive => exact Or.inr ⟨rfl, rfl⟩
        | array => exact Or.inr ⟨rfl, rfl⟩
        | indexedAccess => exact Or.inr ⟨rfl, rfl⟩
        | unknown => exact Or.inr ⟨rfl, rfl⟩
        | reference =>
          rw [endEntity, if_neg hname]
          cases hfind : c.find? name with
          | none => exact Or.inr ⟨rfl, rfl⟩
          | some e => exact Or.inl ⟨e, List.mem_of_find?_eq_some hfind, rfl, rfl⟩

/-- What a type is written as and what it records is settled by the way down from it. -/
theorem typeName_of_comesDown (h : t.ComesDown levels last) (met : List ModelEntity) :
    (c.typeName t).exec met =
      (((c.endType last).text c).map listOf^[levels], recordAll met (c.endEntity last).toList) := by
  have hentities : (c.endType last).entities = (c.endEntity last).toList := by
    rcases c.endType_cases last with ⟨e, -, hend, htype⟩ | ⟨hend, hnone⟩
    · rw [hend, htype]
      rfl
    · rw [hend, hnone]
      rfl
  rw [typeName_exec, dartType_of_comesDown h, DartType.text_list, DartType.entities_list, hentities]

/-- An entity is recorded at the end of the others, unless its name is there already. -/
theorem record_cases (e : ModelEntity) (met : List ModelEntity) :
    record e met = met ∧ (∃ m ∈ met, m.name = e.name) ∨
      record e met = met ++ [e] ∧ ∀ m ∈ met, m.name ≠ e.name := by
  unfold record
  by_cases hmet : (met.any fun m => m.name == e.name) = true
  · rw [if_pos hmet]
    exact Or.inl ⟨rfl, by simpa using hmet⟩
  · rw [if_neg hmet]
    exact Or.inr ⟨rfl, by simpa using hmet⟩

/-- A type is written as one list for each array on the way down from it, around what the way ends at.
The recorded entities stay in order, and the only one that may be added is the one at the end, whose
class name stands inside the lists.  Arguments and types that are looked into play no part. -/
theorem typeName_nested (c : Catalog) (t : TypeDescriptor) :
    ∃ levels last, t.ComesDown levels last ∧
      (∀ levels' last', t.ComesDown levels' last' → levels' = levels ∧ last' = last) ∧
      (∀ met text met', (c.typeName t).exec met = (.ok text, met') →
        ∃ leaf, (c.endType last).text c = .ok leaf ∧ text = listOf^[levels] leaf ∧
          (c.endEntity last = none ∧ (c.endType last).entities = [] ∧ met' = met ∨
            ∃ e ∈ c.entities, c.endEntity last = some e ∧ c.className e = .ok leaf ∧
              (met' = met ∧ (∃ m ∈ met, m.name = e.name) ∨
                met' = met ++ [e] ∧ ∀ m ∈ met, m.name ≠ e.name))) ∧
      ∀ t', t.SameWay t' → ∀ met, (c.typeName t').exec met = (c.typeName t).exec met := by
  obtain ⟨levels, last, h⟩ := t.exists_comesDown
  refine ⟨levels, last, h, fun _ _ => TypeDescriptor.comesDown_unique h, ?_, ?_⟩
  · intro met text met' hexec
    rw [typeName_of_comesDown h] at hexec
    obtain ⟨htext, hmet⟩ := Prod.mk.inj hexec
    obtain ⟨leaf, hleaf, hlists⟩ := exists_of_mapped_eq_ok htext
    refine ⟨leaf, hleaf, hlists.symm, ?_⟩
    rcases c.endType_cases last with ⟨e, he, hend, htype⟩ | ⟨hend, hnone⟩
    · rw [htype] at hleaf
      rw [hend] at hmet
      refine Or.inr ⟨e, he, hend, hleaf, ?_⟩
      rw [← hmet]
      exact record_cases e met
    · rw [hend] at hmet
      exact Or.inl ⟨hend, hnone, hmet.symm⟩
  · intro t' hway met
    rw [typeName_of_comesDown h, typeName_of_comesDown (h.sameWay hway)]

end Catalog

end DartModels
