import Mathlib.Data.List.Forall2
import DartModels.Proofs.DescribedTypes
import DartModels.Proofs.ModelForm

/-!
# Types under another name

Where a file binds an import to another name, its types are written with the new name in place of the
old one, except after a dot.  They are reduced as before, with the new name in place of the old one.
A Dart type goes by the bare name, though: where an entity has the old name and none has the new one,
its class is lost.

    n ↦ n' and o.describe n = .ok t → o'.describe n' = .ok t' for a t' with t ↦ t'  (renamed_describe)
    t ↦ t' → (the Dart types are the same ↔ t' does not come down to the new name, or what has the
      old name is written `dynamic` as well)                                           (text_eq_iff)
-/

namespace DartModels

open Syntax Dart

/-- The spelling of a name once `old` is written `new`. -/
def respell (old new name : String) : String := if name = old then new else name

/-- A table by names with `old` written `new`. -/
def respellKeys {α : Type} (old new : String) (table : List (String × α)) : List (String × α) :=
  table.map fun entry => (respell old new entry.1, entry.2)

variable {old new : String}

theorem respell_inj {a b : String} (ha : a ≠ new) (hb : b ≠ new) :
    respell old new a = respell old new b ↔ a = b := by
  unfold respell
  split <;> split <;> simp_all [eq_comm]

theorem lookup_respellKeys {α : Type} {table : List (String × α)} (hfresh : ∀ e ∈ table, e.1 ≠ new)
    {name : String} (hname : name ≠ new) :
    (respellKeys old new table).lookup (respell old new name) = table.lookup name := by
  induction table with
  | nil => rfl
  | cons entry table ih =>
    obtain ⟨hentry, hrest⟩ := List.forall_mem_cons.mp hfresh
    have hsame : (respell old new name == respell old new entry.1) = (name == entry.1) := by
      rw [Bool.eq_iff_iff, beq_iff_eq, beq_iff_eq]
      exact respell_inj hname hentry
    show List.lookup _ ((respell old new entry.1, entry.2) :: respellKeys old new table) = _
    rw [List.lookup_cons, List.lookup_cons, hsame, ih hrest]

theorem lookup_respellKeys_of_ne {α : Type} {table : List (String × α)}
    (hfresh : ∀ e ∈ table, e.1 ≠ new) {name : String} (hold : name ≠ old) (hnew : name ≠ new) :
    (respellKeys old new table).lookup name = table.lookup name := by
  have hlook := @lookup_respellKeys old new _ _ hfresh _ hnew
  rwa [respell, if_neg hold] at hlook

theorem lookup_respellKeys_old {α : Type} (table : List (String × α)) (hne : old ≠ new) :
    (respellKeys old new table).lookup old = none := by
  rw [List.lookup_eq_none_iff]
  intro entry hentry
  obtain ⟨e, -, rfl⟩ := List.mem_map.mp hentry
  rw [bne_iff_ne]
  unfold respell
  split
  · exact hne
  · next h => exact fun he => h he.symm

/-! ## Nodes -/

mutual

/-- A type and the same type with the name `old` written `new`, except after a dot.  The text of a
node stays where it is read, in words and in names. -/
inductive Renamed (old new : String) : Node → Node → Prop where
  | name {label : Label} {text : String} (hfresh : text ≠ new) :
      Renamed old new (.mk .typeIdentifier label text [])
        (.mk .typeIdentifier label (respell old new text) [])
  | dotted {label : Label} {text text' : String} {children children' : List Node} {last : Node}
      (hlabel : label ≠ .typeArguments) (hfresh : last.text ≠ new)
      (hlast : children.getLast? = some last) (hlast' : children'.getLast? = some last) :
      Renamed old new (.mk .nestedTypeIdentifier label text children)
        (.mk .nestedTypeIdentifier label text' children')
  | word {label : Label} {text : String} :
      Renamed old new (.mk .predefinedType label text []) (.mk .predefinedType label text [])
  | generic {label : Label} {text text' : String} {name name' : Node} {rest rest' : List Node}
      (hkind : name.kind = .typeIdentifier ∨ name.kind = .nestedTypeIdentifier)
      (hlabel : name.label = .name) (hname : Renamed old new name name')
      (hrest : RenamedAll old new rest rest') :
      Renamed old new (.mk .genericType label text (name :: rest))
        (.mk .genericType label text' (name' :: rest'))
  | other {kind : Kind} {label : Label} {text text' : String} {children children' : List Node}
      (hkind : kind ∉ [.typeIdentifier, .nestedTypeIdentifier, .predefinedType, .genericType])
      (hchildren : RenamedAll old new children children') :
      Renamed old new (.mk kind label text children) (.mk kind label text' children')

/-- Types in a row, each renamed. -/
inductive RenamedAll (old new : String) : List Node → List Node → Prop where
  | nil : RenamedAll old new [] []
  | cons {n n' : Node} {rest rest' : List Node} (hn : Renamed old new n n')
      (hrest : RenamedAll old new rest rest') : RenamedAll old new (n :: rest) (n' :: rest')

end

theorem Renamed.kind_eq {n n' : Node} (h : Renamed old new n n') : n'.kind = n.kind := by
  cases h <;> rfl

theorem Renamed.label_eq {n n' : Node} (h : Renamed old new n n') : n'.label = n.label := by
  cases h <;> rfl

theorem Renamed.children {kind kind' : Kind} {label label' : Label} {text text' : String}
    {children children' : List Node}
    (h : Renamed old new (.mk kind label text children) (.mk kind' label' text' children'))
    (hkind : kind ≠ .nestedTypeIdentifier ∨ label = .typeArguments) :
    RenamedAll old new children children' := by
  cases h with
  | name => exact .nil
  | dotted hlabel => exact absurd (hkind.resolve_left fun h => h rfl) hlabel
  | word => exact .nil
  | generic _ _ hname hrest => exact .cons hname hrest
  | other _ hchildren => exact hchildren

theorem RenamedAll.firstOf_eq {ns ns' : List Node} (h : RenamedAll old new ns ns') {c : Node}
    (hc : firstOf ns = .ok c) : ∃ c', firstOf ns' = .ok c' ∧ c'.kind = c.kind := by
  cases h with
  | nil => cases hc
  | cons hn _ =>
    cases hc
    exact ⟨_, rfl, hn.kind_eq⟩

/-- The name of a renamed reference: respelled, or as it was after a dot. -/
theorem Renamed.referenceName_eq {n n' : Node} (h : Renamed old new n n')
    (hkind : n.kind = .typeIdentifier ∨ n.kind = .nestedTypeIdentifier) :
    ∃ name name', Origin.referenceName n = .ok name ∧ Origin.referenceName n' = .ok name' ∧
      name ≠ new ∧ (name' = respell old new name ∨ name' = name) := by
  cases h with
  | name hfresh => exact ⟨_, _, rfl, rfl, hfresh, Or.inl rfl⟩
  | @dotted label text text' children children' last _ hfresh hlast hlast' =>
    refine ⟨last.text, last.text, ?_, ?_, hfresh, Or.inr rfl⟩
    · exact congrArg (Functor.map Node.text) (lastOf_of_getLast? hlast)
    · exact congrArg (Functor.map Node.text) (lastOf_of_getLast? hlast')
  | word => rcases hkind with h | h <;> cases h
  | generic => rcases hkind with h | h <;> cases h
  | other hother =>
    rcases hkind with h | h <;> exact absurd (by simp [Node.kind] at h; simp [h]) hother

/-! ## Descriptors -/

/-- A descriptor and the same with the name `old` written `new`.  What stood after a dot keeps its
name, but may lose its file.  The arguments of references make no difference to a model. -/
inductive RenamedType (old new : String) : TypeDescriptor → TypeDescriptor → Prop where
  | primitive (name : String) : RenamedType old new (.primitive name) (.primitive name)
  | unknown (name : String) : RenamedType old new (.unknown name) (.unknown name)
  | reference {name : String} {arguments arguments' : List TypeDescriptor}
      {file file' path path' : Option String} (hfresh : name ≠ new)
      (horigin : name ≠ old → file' = file ∧ path' = path) :
      RenamedType old new (.reference name arguments file path)
        (.reference name arguments' file' path')
  | renamed {arguments arguments' : List TypeDescriptor} {file path : Option String} :
      RenamedType old new (.reference old arguments file path) (.reference new arguments' file path)
  | array {item item' : TypeDescriptor} (h : RenamedType old new item item') :
      RenamedType old new (.array item) (.array item')
  | indexedAccess {object object' index index' : TypeDescriptor}
      (hobject : RenamedType old new object object') (hindex : RenamedType old new index index') :
      RenamedType old new (.indexedAccess object index) (.indexedAccess object' index')

/-- The names that types are told apart by. -/
def reservedNames : List String := Origin.nullish ++ Origin.arrayGenerics ++ dateTypes ++ numericTypes

/-- The names of a renaming are two, and neither has a meaning of its own. -/
structure Ordinary (old new : String) : Prop where
  distinct : old ≠ new
  old : old ∉ reservedNames
  new : new ∉ reservedNames

theorem RenamedType.nullish_eq {t t' : TypeDescriptor} (h : RenamedType old new t t')
    (ho : Ordinary old new) :
    Origin.nullish.contains t'.name = Origin.nullish.contains t.name := by
  have hold := ho.old
  have hnew := ho.new
  simp only [reservedNames, List.mem_append, not_or] at hold hnew
  cases h with
  | renamed =>
    simp only [TypeDescriptor.reference, TypeDescriptor.name, List.contains_eq_mem]
    rw [decide_eq_false hold.1.1.1, decide_eq_false hnew.1.1.1]
  | _ => rfl

namespace Origin

/-- Names in types are looked up in the same tables, with `old` written `new`. -/
structure Renames (old new : String) (o o' : Origin) : Prop where
  workdir : o'.files.workdir = o.files.workdir
  cwd : o'.cwd = o.cwd
  imports : o'.imports = respellKeys old new o.imports
  fresh : ∀ e ∈ o.imports, e.1 ≠ new

variable {o o' : Origin}

theorem Renames.relativePath_eq (h : Renames old new o o') (file : String) :
    o'.relativePath file = o.relativePath file := by
  have hwork : o'.files.workdirPath = o.files.workdirPath := by
    unfold FileSystem.workdirPath
    rw [h.workdir]
  unfold relativePath FileSystem.relative
  rw [h.cwd, hwork]

theorem renamed_reference (h : Renames old new o o') (hne : old ≠ new) {name name' : String}
    (hfresh : name ≠ new) (hname : name' = respell old new name ∨ name' = name)
    {arguments : List TypeDescriptor} {t : TypeDescriptor} (ht : o.reference name arguments = .ok t)
    (arguments' : List TypeDescriptor) :
    ∃ t', o'.reference name' arguments' = .ok t' ∧ RenamedType old new t t' := by
  obtain ⟨file, path, rfl, hsame⟩ := reference_eq_ok ht
  by_cases hold : name = old
  · subst hold
    rcases hname with rfl | rfl
    · have hspell : respell name new name = new := if_pos rfl
      refine ⟨_, hsame o' _ arguments' h.relativePath_eq ?_, ?_⟩
      · rw [h.imports]
        exact lookup_respellKeys h.fresh hfresh
      · rw [hspell]
        exact .renamed
    · refine ⟨.reference name' arguments' none none, ?_, .reference hfresh (absurd rfl)⟩
      unfold reference
      rw [h.imports, lookup_respellKeys_old _ hne]
      rfl
  · have hspell : respell old new name = name := if_neg hold
    rw [hspell, or_self] at hname
    subst hname
    refine ⟨_, hsame o' name' arguments' h.relativePath_eq ?_, .reference hfresh fun _ => ⟨rfl, rfl⟩⟩
    rw [h.imports, lookup_respellKeys_of_ne h.fresh hold hfresh]

theorem renamed_generic (h : Renames old new o o') (ho : Ordinary old new) {name name' : String}
    (hfresh : name ≠ new) (hname : name' = respell old new name ∨ name' = name)
    {arguments arguments' : List TypeDescriptor}
    (harguments : List.Forall₂ (RenamedType old new) arguments arguments') {t : TypeDescriptor}
    (ht : o.generic name arguments = .ok t) :
    ∃ t', o'.generic name' arguments' = .ok t' ∧ RenamedType old new t t' := by
  have hsame : arrayGenerics.contains name' = arrayGenerics.contains name := by
    have hold := ho.old
    have hnew := ho.new
    simp only [reservedNames, List.mem_append, not_or] at hold hnew
    rcases hname with rfl | rfl
    · unfold respell
      split
      · next he =>
        rw [he, List.contains_eq_mem, List.contains_eq_mem, decide_eq_false hold.1.1.2,
          decide_eq_false hnew.1.1.2]
      · rfl
    · rfl
  unfold generic at ht ⊢
  cases harguments with
  | nil => exact renamed_reference h ho.distinct hfresh hname ht []
  | @cons a a' rest rest' ha hrest =>
    cases hrest with
    | nil =>
      dsimp only at ht ⊢
      rw [hsame]
      by_cases harray : arrayGenerics.contains name
      · rw [if_pos harray] at ht ⊢
        cases ht
        exact ⟨_, rfl, .array ha⟩
      · rw [if_neg harray] at ht ⊢
        exact renamed_reference h ho.distinct hfresh hname ht [a']
    | cons => exact renamed_reference h ho.distinct hfresh hname ht _

theorem renamed_pick (ho : Ordinary old new) {variants variants' : List TypeDescriptor}
    (h : List.Forall₂ (RenamedType old new) variants variants') {t : TypeDescriptor}
    (ht : pick variants = .ok t) : ∃ t', pick variants' = .ok t' ∧ RenamedType old new t t' := by
  have hfind : Option.Rel (RenamedType old new)
      (variants.find? fun v => !nullish.contains v.name)
      (variants'.find? fun v => !nullish.contains v.name) := by
    clear ht
    induction h with
    | nil => exact .none
    | cons hv _ ih =>
      rw [List.find?_cons, List.find?_cons, hv.nullish_eq ho]
      split
      · exact .some hv
      · exact ih
  unfold pick at ht ⊢
  cases hf : variants.find? fun v => !nullish.contains v.name <;>
  cases hf' : variants'.find? (fun v => !nullish.contains v.name) <;>
  rw [hf, hf'] at hfind <;> rw [hf] at ht
  · cases h with
    | nil => cases ht
    | cons hv _ =>
      cases ht
      exact ⟨_, rfl, hv⟩
  · cases hfind
  · cases hfind
  · cases hfind with
    | some hv =>
      cases ht
      exact ⟨_, rfl, hv⟩

/-! ## Reducing types -/

mutual

theorem renamed_describe (h : Renames old new o o') (ho : Ordinary old new) (n : Node) {n' : Node}
    (hn : Renamed old new n n') {t : TypeDescriptor} (ht : o.describe n = .ok t) :
    ∃ t', o'.describe n' = .ok t' ∧ RenamedType old new t t' := by
  match n, hn with
  | .mk _ label text [], hn@(.name _) =>
    obtain ⟨name, name', hname, hname', hfresh, hspelled⟩ := hn.referenceName_eq (Or.inl rfl)
    rw [describe.eq_def] at ht ⊢
    dsimp only at ht ⊢
    rw [hname] at ht
    rw [hname']
    exact renamed_reference h ho.distinct hfresh hspelled ht []
  | .mk _ label text children, hn@(.dotted ..) =>
    obtain ⟨name, name', hname, hname', hfresh, hspelled⟩ := hn.referenceName_eq (Or.inr rfl)
    rw [describe.eq_def] at ht ⊢
    dsimp only at ht ⊢
    rw [hname] at ht
    rw [hname']
    exact renamed_reference h ho.distinct hfresh hspelled ht []
  | .mk _ label text [], .word =>
    rw [describe.eq_def] at ht ⊢
    cases ht
    exact ⟨_, rfl, .primitive _⟩
  | .mk _ label text (name :: rest), .generic hkind hlabel hname hrest =>
    obtain ⟨word, word', hword, hword', hfresh, hspelled⟩ := hname.referenceName_eq hkind
    have hfirst : ∀ {n : Node} {label : Label} {text : String} {ns : List Node}, n.label = .name →
        (Node.mk .genericType label text (n :: ns)).child? .name = some n := by
      intro n label text ns hn
      show (n :: ns).find? (fun c => c.label == .name) = some n
      rw [List.find?_cons, hn]
      rfl
    rw [describe.eq_def] at ht ⊢
    dsimp only at ht ⊢
    rw [hfirst hlabel] at ht
    rw [hfirst (hname.label_eq.trans hlabel)]
    dsimp only at ht ⊢
    rw [hword, ok_bind] at ht
    rw [hword']
    obtain ⟨arguments, harguments, ht⟩ := exists_of_bind_eq_ok ht
    obtain ⟨arguments', harguments', hrel⟩ :=
      renamed_describeArguments h ho (name :: rest) (.cons hname hrest) harguments
    obtain ⟨t', ht', hsame⟩ := renamed_generic h ho hfresh hspelled hrel ht
    refine ⟨t', ?_, hsame⟩
    rw [ok_bind, harguments']
    exact ht'
  | .mk kind label text children, .other hkind hchildren =>
    rw [describe.eq_def] at ht ⊢
    dsimp only at ht ⊢
    split at ht
    · exact renamed_describeFirst h ho children hchildren ht
    · exact renamed_describeFirst h ho children hchildren ht
    · obtain ⟨variants, hv, ht⟩ := exists_of_bind_eq_ok ht
      obtain ⟨variants', hv', hrel⟩ := renamed_describeVariants h ho children hchildren hv
      rw [hv']
      exact renamed_pick ho hrel ht
    · obtain ⟨literal, hliteral, ht⟩ := exists_of_bind_eq_ok ht
      obtain ⟨literal', hliteral', hsame⟩ := hchildren.firstOf_eq hliteral
      cases ht
      rw [hliteral', ok_bind, hsame]
      exact ⟨_, rfl, .primitive _⟩
    · exact absurd (by decide) hkind
    · obtain ⟨item, hitem, ht⟩ := exists_of_bind_eq_ok ht
      obtain ⟨item', hitem', hrel⟩ := renamed_describeFirst h ho children hchildren hitem
      cases ht
      rw [hitem']
      exact ⟨_, rfl, .array hrel⟩
    · exact renamed_describeAccess h ho children hchildren ht
    · exact absurd (by decide) hkind
    · exact absurd (by decide) hkind
    · exact absurd (by decide) hkind
    · cases ht
      exact ⟨_, rfl, .unknown _⟩
termination_by sizeOf n

theorem renamed_describeFirst (h : Renames old new o o') (ho : Ordinary old new) (ns : List Node)
    {ns' : List Node} (hns : RenamedAll old new ns ns') {t : TypeDescriptor}
    (ht : o.describeFirst ns = .ok t) :
    ∃ t', o'.describeFirst ns' = .ok t' ∧ RenamedType old new t t' := by
  match ns, hns with
  | [], .nil => cases ht
  | n :: rest, .cons hn hrest =>
    rw [describeFirst] at ht ⊢
    exact renamed_describe h ho n hn ht
termination_by sizeOf ns

theorem renamed_describeAccess (h : Renames old new o o') (ho : Ordinary old new) (ns : List Node)
    {ns' : List Node} (hns : RenamedAll old new ns ns') {t : TypeDescriptor}
    (ht : o.describeAccess ns = .ok t) :
    ∃ t', o'.describeAccess ns' = .ok t' ∧ RenamedType old new t t' := by
  match ns, hns with
  | [], .nil => cases ht
  | n :: rest, .cons hn hrest =>
    obtain ⟨object, index, hobject, hindex, rfl⟩ := describeAccess_eq_ok.mp ht
    obtain ⟨object', hobject', hrelObject⟩ := renamed_describe h ho n hn hobject
    obtain ⟨index', hindex', hrelIndex⟩ := renamed_describeFirst h ho rest hrest hindex
    exact ⟨_, describeAccess_eq_ok.mpr ⟨_, _, hobject', hindex', rfl⟩,
      .indexedAccess hrelObject hrelIndex⟩
termination_by sizeOf ns

theorem renamed_describeVariants (h : Renames old new o o') (ho : Ordinary old new)
    (ns : List Node) {ns' : List Node} (hns : RenamedAll old new ns ns') {ts : List TypeDescriptor}
    (ht : o.describeVariants ns = .ok ts) :
    ∃ ts', o'.describeVariants ns' = .ok ts' ∧ List.Forall₂ (RenamedType old new) ts ts' := by
  match ns, hns with
  | [], .nil =>
    cases ht
    exact ⟨_, rfl, .nil⟩
  | .mk kind label text children :: rest,
      @RenamedAll.cons _ _ _ (.mk kind' label' text' children') _ _ hn hrest =>
    have hkind : kind' = kind := hn.kind_eq
    subst hkind
    rw [describeVariants] at ht ⊢
    by_cases hunion : kind' = .unionType
    · rw [if_pos hunion] at ht ⊢
      obtain ⟨here, hhere, ht⟩ := exists_of_bind_eq_ok ht
      obtain ⟨later, hlater, ht⟩ := exists_of_bind_eq_ok ht
      cases ht
      obtain ⟨here', hhere', hrel⟩ :=
        renamed_describeVariants h ho children (hn.children (Or.inl (by simp [hunion]))) hhere
      obtain ⟨later', hlater', hrelLater⟩ := renamed_describeVariants h ho rest hrest hlater
      rw [hhere', hlater']
      exact ⟨_, rfl, List.rel_append hrel hrelLater⟩
    · rw [if_neg hunion] at ht ⊢
      obtain ⟨here, hhere, ht⟩ := exists_of_bind_eq_ok ht
      obtain ⟨later, hlater, ht⟩ := exists_of_bind_eq_ok ht
      cases ht
      cases htype : o.describe (.mk kind' label text children) with
      | error e =>
        rw [htype] at hhere
        cases hhere
      | ok t =>
        rw [htype] at hhere
        cases hhere
        obtain ⟨t', ht', hrel⟩ := renamed_describe h ho _ hn htype
        obtain ⟨later', hlater', hrelLater⟩ := renamed_describeVariants h ho rest hrest hlater
        rw [ht', hlater']
        exact ⟨_, rfl, .cons hrel hrelLater⟩
termination_by sizeOf ns

theorem renamed_describeAll (h : Renames old new o o') (ho : Ordinary old new) (ns : List Node)
    {ns' : List Node} (hns : RenamedAll old new ns ns') {ts : List TypeDescriptor}
    (ht : o.describeAll ns = .ok ts) :
    ∃ ts', o'.describeAll ns' = .ok ts' ∧ List.Forall₂ (RenamedType old new) ts ts' := by
  match ns, hns with
  | [], .nil =>
    cases ht
    exact ⟨_, rfl, .nil⟩
  | n :: rest, .cons hn hrest =>
    rw [describeAll] at ht
    obtain ⟨t, ht₁, ht⟩ := exists_of_bind_eq_ok ht
    obtain ⟨ts₁, hts, ht⟩ := exists_of_bind_eq_ok ht
    cases ht
    obtain ⟨t', ht', hrel⟩ := renamed_describe h ho n hn ht₁
    obtain ⟨ts', hts', hrels⟩ := renamed_describeAll h ho rest hrest hts
    refine ⟨t' :: ts', ?_, .cons hrel hrels⟩
    rw [describeAll, ht', hts']
    rfl
termination_by sizeOf ns

theorem renamed_describeArguments (h : Renames old new o o') (ho : Ordinary old new)
    (ns : List Node) {ns' : List Node} (hns : RenamedAll old new ns ns') {ts : List TypeDescriptor}
    (ht : o.describeArguments ns = .ok ts) :
    ∃ ts', o'.describeArguments ns' = .ok ts' ∧ List.Forall₂ (RenamedType old new) ts ts' := by
  match ns, hns with
  | [], .nil =>
    cases ht
    exact ⟨_, rfl, .nil⟩
  | .mk kind label text children :: rest,
      @RenamedAll.cons _ _ _ (.mk kind' label' text' children') _ _ hn hrest =>
    have hlabel : label' = label := hn.label_eq
    subst hlabel
    rw [describeArguments] at ht ⊢
    by_cases harguments : label' = .typeArguments
    · rw [if_pos harguments] at ht ⊢
      exact renamed_describeAll h ho children (hn.children (Or.inr harguments)) ht
    · rw [if_neg harguments] at ht ⊢
      exact renamed_describeArguments h ho rest hrest ht
termination_by sizeOf ns

end

theorem renamed_describe? (h : Renames old new o o') (ho : Ordinary old new) {n n' : Option Node}
    (hn : Option.Rel (Renamed old new) n n') {t : TypeDescriptor} (ht : o.describe? n = .ok t) :
    ∃ t', o'.describe? n' = .ok t' ∧ RenamedType old new t t' := by
  cases hn with
  | none =>
    cases ht
    exact ⟨_, rfl, .primitive _⟩
  | some hn => exact renamed_describe h ho _ hn ht

end Origin

/-! ## Dart types -/

/-- A type comes down to a name, through the items of lists and the indices of accesses. -/
inductive TypeDescriptor.EndsIn (name : String) : TypeDescriptor → Prop where
  | reference {arguments : List TypeDescriptor} {file path : Option String} :
      EndsIn name (.reference name arguments file path)
  | array {item : TypeDescriptor} (h : EndsIn name item) : EndsIn name (.array item)
  | indexedAccess {object index : TypeDescriptor} (h : EndsIn name index) :
      EndsIn name (.indexedAccess object index)

namespace Catalog

variable {c : Catalog}

theorem dartType_reference {name : String} {arguments : List TypeDescriptor}
    {file path : Option String} (hname : name ∉ dateTypes ++ numericTypes) :
    c.dartType (.reference name arguments file path) =
      ((c.find? name).map .model).getD .anything := by
  rw [List.mem_append, not_or] at hname
  rw [TypeDescriptor.reference, dartType_of_kind ⟨by simpa using hname.1, by simpa using hname.2⟩]

theorem dartType_reference_congr {name : String} {arguments arguments' : List TypeDescriptor}
    {file path file' path' : Option String} :
    c.dartType (.reference name arguments' file' path') =
      c.dartType (.reference name arguments file path) := by
  rw [TypeDescriptor.reference, TypeDescriptor.reference, dartType.eq_def, dartType.eq_def]

/-- A renamed type is written as before, unless it comes down to the new name: that names no entity,
so it is written `dynamic`, whatever the old name stood for. -/
theorem text_eq_iff {t t' : TypeDescriptor} (h : RenamedType old new t t') (ho : Ordinary old new)
    (hunused : c.find? new = none) :
    (c.dartType t').text c = (c.dartType t).text c ↔
      (t'.EndsIn new → ∀ e, c.find? old = some e → c.className e = .ok anyType) := by
  induction h with
  | primitive name => exact ⟨nofun, fun _ => rfl⟩
  | unknown name => exact ⟨nofun, fun _ => rfl⟩
  | reference hfresh =>
    rw [dartType_reference_congr]
    refine ⟨fun _ hend => ?_, fun _ => rfl⟩
    cases hend
    exact absurd rfl hfresh
  | renamed =>
    have hold := ho.old
    have hnew := ho.new
    simp only [reservedNames, List.mem_append, not_or, and_assoc] at hold hnew
    rw [dartType_reference (by simpa using hnew.2.2), dartType_reference (by simpa using hold.2.2),
      hunused]
    cases hfind : c.find? old with
    | none => exact ⟨fun _ _ _ => nofun, fun _ => rfl⟩
    | some e =>
      constructor
      · rintro htext - e' he'
        cases he'
        exact htext.symm
      · exact fun hclass => (hclass .reference e rfl).symm
  | @array item item' h ih =>
    have hend : (TypeDescriptor.array item').EndsIn new ↔ item'.EndsIn new :=
      ⟨fun h => by cases h; assumption, .array⟩
    rw [hend, ← ih, dartType_array, dartType_array]
    show ((c.dartType item').text c).map listOf = ((c.dartType item).text c).map listOf ↔ _
    cases (c.dartType item').text c <;> cases (c.dartType item).text c <;>
      simp [Except.map, listOf_inj]
  | @indexedAccess object object' index index' hobject hindex ihObject ihIndex =>
    have hend : (TypeDescriptor.indexedAccess object' index').EndsIn new ↔ index'.EndsIn new :=
      ⟨fun h => by cases h; assumption, .indexedAccess⟩
    rw [hend, ← ihIndex, dartType_indexedAccess, dartType_indexedAccess]

end Catalog

end DartModels
