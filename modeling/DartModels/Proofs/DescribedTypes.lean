import DartModels.Fields

/-!
# The descriptors of types

A descriptor that comes out of a source is built in one of five ways, all the way down.  Only arrays
and indexed accesses have types inside that matter to a model.

    describe n = .ok t → Built o t                                               (built_describe)
    describe? n = .ok t → Described t                                       (described_describe?)
    a reference inside of a descriptor has the origin of its name              (Built.reference_inside)
    names are looked up in the same way → types are described in the same way  (describe_congr)
    the way to every file is known, n is whole → n has a descriptor                  (describe_ok)
-/

namespace DartModels

/-- A descriptor as it comes out of a source: arrays and indexed accesses are complete, and bear names
of their own. -/
inductive Described : TypeDescriptor → Prop where
  | primitive (name : String) : Described (.primitive name)
  | unknown (name : String) : Described (.unknown name)
  | reference (name : String) (arguments : List TypeDescriptor)
      (importFile relativePath : Option String) :
      Described (.reference name arguments importFile relativePath)
  | array {item : TypeDescriptor} (h : Described item) : Described (.array item)
  | indexedAccess {object index : TypeDescriptor} (hobject : Described object)
      (hindex : Described index) : Described (.indexedAccess object index)

/-- The types right inside of a type. -/
def TypeDescriptor.parts (t : TypeDescriptor) : List TypeDescriptor :=
  t.element.toList ++ t.objectType.toList ++ t.indexType.toList ++ t.arguments

/-- A type that is another one or stands inside of it. -/
inductive TypeDescriptor.Inside (r : TypeDescriptor) : TypeDescriptor → Prop where
  | here : Inside r r
  | part {t s : TypeDescriptor} (hs : s ∈ t.parts) (h : Inside r s) : Inside r t

namespace Origin

open Syntax

/-- A descriptor as it is built from an origin: every reference, those among the arguments of another
one too, is what the origin gives for its name. -/
inductive Built (o : Origin) : TypeDescriptor → Prop where
  | primitive (name : String) : Built o (.primitive name)
  | unknown (name : String) : Built o (.unknown name)
  | reference {name : String} {arguments : List TypeDescriptor} {t : TypeDescriptor}
      (harguments : ∀ a ∈ arguments, Built o a) (h : o.reference name arguments = .ok t) : Built o t
  | array {item : TypeDescriptor} (h : Built o item) : Built o (.array item)
  | indexedAccess {object index : TypeDescriptor} (hobject : Built o object)
      (hindex : Built o index) : Built o (.indexedAccess object index)

variable {o : Origin}

/-- An indexed access is described by its first two children. -/
theorem describeAccess_eq_ok {n : Node} {rest : List Node} {t : TypeDescriptor} :
    o.describeAccess (n :: rest) = .ok t ↔ ∃ object index, o.describe n = .ok object ∧
      o.describeFirst rest = .ok index ∧ t = .indexedAccess object index := by
  cases rest with
  | nil =>
    rw [describeAccess.eq_def, describeFirst]
    exact ⟨nofun, nofun⟩
  | cons m rest =>
    rw [describeAccess, describeFirst]
    constructor
    · intro h
      obtain ⟨object, hobject, h⟩ := exists_of_bind_eq_ok h
      obtain ⟨index, hindex, h⟩ := exists_of_bind_eq_ok h
      cases h
      exact ⟨object, index, hobject, hindex, rfl⟩
    · rintro ⟨object, index, hobject, hindex, rfl⟩
      rw [hobject, hindex]
      rfl

/-- The origin of a name, if it is imported. -/
theorem reference_eq_ok {name : String} {arguments : List TypeDescriptor} {t : TypeDescriptor}
    (h : o.reference name arguments = .ok t) :
    ∃ file path, t = .reference name arguments file path ∧
      ∀ (o' : Origin) (name' : String) (arguments' : List TypeDescriptor),
        (∀ f, o'.relativePath f = o.relativePath f) → o'.imports.lookup name' = o.imports.lookup name →
        o'.reference name' arguments' = .ok (.reference name' arguments' file path) := by
  unfold reference at h
  cases hlook : o.imports.lookup name with
  | none =>
    rw [hlook] at h
    cases h
    refine ⟨none, none, rfl, fun o' name' arguments' _ hname => ?_⟩
    unfold reference
    rw [hname]
    rfl
  | some f =>
    rw [hlook] at h
    dsimp only at h
    by_cases hempty : f.isEmpty
    · rw [if_pos hempty] at h
      cases h
      refine ⟨some f, none, rfl, fun o' name' arguments' _ hname => ?_⟩
      unfold reference
      rw [hname]
      exact if_pos hempty
    · rw [if_neg hempty] at h
      obtain ⟨path, hpath, h⟩ := exists_of_bind_eq_ok h
      cases h
      refine ⟨some f, some path, rfl, fun o' name' arguments' hrel hname => ?_⟩
      unfold reference
      rw [hname]
      dsimp only
      rw [if_neg hempty, hrel, hpath]
      rfl

theorem built_generic {name : String} {arguments : List TypeDescriptor} {t : TypeDescriptor}
    (harguments : ∀ a ∈ arguments, Built o a) (h : o.generic name arguments = .ok t) :
    Built o t := by
  unfold generic at h
  split at h
  · next item =>
    split at h
    · cases h
      exact .array (harguments item List.mem_cons_self)
    · exact .reference harguments h
  · exact .reference harguments h

theorem mem_of_pick {variants : List TypeDescriptor} {v : TypeDescriptor}
    (h : pick variants = .ok v) : v ∈ variants := by
  unfold pick at h
  split at h
  · next hfind =>
    cases h
    exact List.mem_of_find?_eq_some hfind
  · exact mem_of_firstOf h

mutual

theorem built_describe (n : Node) {t : TypeDescriptor} (h : o.describe n = .ok t) :
    Built o t := by
  match n with
  | .mk kind label text children =>
    rw [describe.eq_def] at h
    dsimp only at h
    split at h
    · exact built_describeFirst children h
    · exact built_describeFirst children h
    · obtain ⟨variants, hv, h⟩ := exists_of_bind_eq_ok h
      exact built_describeVariants children hv t (mem_of_pick h)
    · obtain ⟨literal, -, h⟩ := exists_of_bind_eq_ok h
      cases h
      exact .primitive _
    · cases h
      exact .primitive _
    · obtain ⟨item, hitem, h⟩ := exists_of_bind_eq_ok h
      cases h
      exact .array (built_describeFirst children hitem)
    · exact built_describeAccess children h
    · split at h
      · cases h
      · obtain ⟨name, -, h⟩ := exists_of_bind_eq_ok h
        obtain ⟨arguments, harguments, h⟩ := exists_of_bind_eq_ok h
        exact built_generic (built_describeArguments children harguments) h
    · obtain ⟨name, -, h⟩ := exists_of_bind_eq_ok h
      exact .reference (List.forall_mem_nil _) h
    · obtain ⟨name, -, h⟩ := exists_of_bind_eq_ok h
      exact .reference (List.forall_mem_nil _) h
    · cases h
      exact .unknown _

theorem built_describeFirst (ns : List Node) {t : TypeDescriptor}
    (h : o.describeFirst ns = .ok t) : Built o t := by
  match ns with
  | [] => cases h
  | n :: _ => exact built_describe n h

theorem built_describeAccess (ns : List Node) {t : TypeDescriptor}
    (h : o.describeAccess ns = .ok t) : Built o t := by
  match ns with
  | [] => cases h
  | [_] => cases h
  | object :: index :: _ =>
    rw [describeAccess] at h
    obtain ⟨s, hobject, h⟩ := exists_of_bind_eq_ok h
    obtain ⟨i, hindex, h⟩ := exists_of_bind_eq_ok h
    cases h
    exact .indexedAccess (built_describe object hobject) (built_describe index hindex)

theorem built_describeVariants (ns : List Node) {ts : List TypeDescriptor}
    (h : o.describeVariants ns = .ok ts) : ∀ t ∈ ts, Built o t := by
  match ns with
  | [] =>
    cases h
    nofun
  | .mk kind label text children :: rest =>
    rw [describeVariants] at h
    split at h
    · obtain ⟨here, hhere, h⟩ := exists_of_bind_eq_ok h
      obtain ⟨later, hlater, h⟩ := exists_of_bind_eq_ok h
      cases h
      exact List.forall_mem_append.mpr
        ⟨built_describeVariants children hhere, built_describeVariants rest hlater⟩
    · obtain ⟨here, hhere, h⟩ := exists_of_bind_eq_ok h
      obtain ⟨later, hlater, h⟩ := exists_of_bind_eq_ok h
      cases h
      cases hn : o.describe (.mk kind label text children) with
      | error e =>
        rw [hn] at hhere
        cases hhere
      | ok t =>
        rw [hn] at hhere
        cases hhere
        exact List.forall_mem_append.mpr
          ⟨List.forall_mem_singleton.mpr (built_describe _ hn),
            built_describeVariants rest hlater⟩

theorem built_describeAll (ns : List Node) {ts : List TypeDescriptor}
    (h : o.describeAll ns = .ok ts) : ∀ t ∈ ts, Built o t := by
  match ns with
  | [] =>
    cases h
    nofun
  | n :: rest =>
    rw [describeAll] at h
    obtain ⟨t, hn, h⟩ := exists_of_bind_eq_ok h
    obtain ⟨ts', hrest, h⟩ := exists_of_bind_eq_ok h
    cases h
    exact List.forall_mem_cons.mpr ⟨built_describe n hn, built_describeAll rest hrest⟩

theorem built_describeArguments (ns : List Node) {ts : List TypeDescriptor}
    (h : o.describeArguments ns = .ok ts) : ∀ t ∈ ts, Built o t := by
  match ns with
  | [] =>
    cases h
    nofun
  | .mk kind label text children :: rest =>
    rw [describeArguments] at h
    split at h
    · exact built_describeAll children h
    · exact built_describeArguments rest h

end

theorem built_describe? {n : Option Node} {t : TypeDescriptor} (h : o.describe? n = .ok t) :
    Built o t := by
  cases n with
  | none =>
    cases h
    exact .primitive _
  | some n => exact built_describe n h

theorem Built.described {t : TypeDescriptor} (h : Built o t) : Described t := by
  induction h with
  | primitive name => exact .primitive name
  | unknown name => exact .unknown name
  | reference _ h _ =>
    obtain ⟨file, path, rfl, -⟩ := reference_eq_ok h
    exact .reference _ _ file path
  | array _ ih => exact .array ih
  | indexedAccess _ _ ihobject ihindex => exact .indexedAccess ihobject ihindex

theorem described_describe? {n : Option Node} {t : TypeDescriptor} (h : o.describe? n = .ok t) :
    Described t := (built_describe? h).described

/-- The types inside of a descriptor are built as it is. -/
theorem Built.part {t s : TypeDescriptor} (h : Built o t) (hs : s ∈ t.parts) : Built o s := by
  cases h with
  | primitive name => exact absurd hs List.not_mem_nil
  | unknown name => exact absurd hs List.not_mem_nil
  | reference harguments h =>
    obtain ⟨file, path, rfl, -⟩ := reference_eq_ok h
    exact harguments s hs
  | array h =>
    rw [List.mem_singleton.mp hs]
    exact h
  | indexedAccess hobject hindex =>
    rcases List.mem_cons.mp hs with rfl | hs
    · exact hobject
    · rw [List.mem_singleton.mp hs]
      exact hindex

theorem Built.inside {t r : TypeDescriptor} (h : Built o t) (hr : r.Inside t) : Built o r := by
  induction hr with
  | here => exact h
  | part hs _ ih => exact ih (h.part hs)

/-- A reference anywhere in a descriptor is what the origin gives for its name. -/
theorem Built.reference_inside {t r : TypeDescriptor} (h : Built o t) (hr : r.Inside t)
    (hkind : r.kind = .reference) : ∃ arguments, o.reference r.name arguments = .ok r := by
  cases h.inside hr with
  | primitive name => cases hkind
  | unknown name => cases hkind
  | reference _ h =>
    obtain ⟨file, path, rfl, -⟩ := reference_eq_ok h
    exact ⟨_, h⟩
  | array _ => cases hkind
  | indexedAccess _ _ => cases hkind

/-! ## What descriptors depend on -/

variable {o' : Origin}

theorem reference_congr
    (h : ∀ name arguments, o'.reference name arguments = o.reference name arguments) :
    o'.reference = o.reference := funext fun name => funext fun arguments => h name arguments

theorem generic_congr
    (h : ∀ name arguments, o'.reference name arguments = o.reference name arguments) :
    o'.generic = o.generic := by
  funext name arguments
  unfold generic
  rw [reference_congr h]

mutual

theorem describe_congr
    (h : ∀ name arguments, o'.reference name arguments = o.reference name arguments)
    (n : Node) : o'.describe n = o.describe n := by
  match n with
  | .mk kind label text children =>
    rw [describe.eq_def, describe.eq_def]
    dsimp only
    rw [reference_congr h, generic_congr h, describeFirst_congr h children, describeAccess_congr h children,
      describeVariants_congr h children, describeArguments_congr h children]

theorem describeFirst_congr
    (h : ∀ name arguments, o'.reference name arguments = o.reference name arguments)
    (ns : List Node) : o'.describeFirst ns = o.describeFirst ns := by
  match ns with
  | [] => rw [describeFirst, describeFirst]
  | n :: _ => rw [describeFirst, describeFirst, describe_congr h n]

theorem describeAccess_congr
    (h : ∀ name arguments, o'.reference name arguments = o.reference name arguments)
    (ns : List Node) : o'.describeAccess ns = o.describeAccess ns := by
  match ns with
  | [] => rw [describeAccess.eq_def, describeAccess.eq_def]
  | [_] => rw [describeAccess.eq_def, describeAccess.eq_def]
  | object :: index :: _ =>
    rw [describeAccess, describeAccess, describe_congr h object, describe_congr h index]

theorem describeVariants_congr
    (h : ∀ name arguments, o'.reference name arguments = o.reference name arguments)
    (ns : List Node) : o'.describeVariants ns = o.describeVariants ns := by
  match ns with
  | [] => rfl
  | .mk kind label text children :: rest =>
    rw [describeVariants, describeVariants, describeVariants_congr h children,
      describeVariants_congr h rest, describe_congr h (.mk kind label text children)]

theorem describeAll_congr
    (h : ∀ name arguments, o'.reference name arguments = o.reference name arguments)
    (ns : List Node) : o'.describeAll ns = o.describeAll ns := by
  match ns with
  | [] => rfl
  | n :: rest => rw [describeAll, describeAll, describe_congr h n, describeAll_congr h rest]

theorem describeArguments_congr
    (h : ∀ name arguments, o'.reference name arguments = o.reference name arguments)
    (ns : List Node) : o'.describeArguments ns = o.describeArguments ns := by
  match ns with
  | [] => rfl
  | .mk kind label text children :: rest =>
    rw [describeArguments, describeArguments, describeAll_congr h children,
      describeArguments_congr h rest]

end

theorem describe?_congr
    (h : ∀ name arguments, o'.reference name arguments = o.reference name arguments)
    (n : Option Node) : o'.describe? n = o.describe? n := by
  cases n with
  | none => rfl
  | some n => exact describe_congr h n

/-! ## The errors of descriptions -/

section

variable {P : Error → Prop}

theorem onlyErrors_firstOf {α : Type} (hlist : P .listIndex) (l : List α) :
    OnlyErrors P (firstOf l) := by
  cases l with
  | nil => exact OnlyErrors.error hlist
  | cons a l => exact OnlyErrors.ok a

theorem onlyErrors_lastPart (hlist : P .listIndex) (n : Node) : OnlyErrors P n.lastPart :=
  OnlyErrors.bind (onlyErrors_firstOf hlist _) fun _ => OnlyErrors.ok _

/-- The names in a heritage fail for a part that is missing. -/
theorem onlyErrors_heritageNames (hlist : P .listIndex) (n : Node) :
    OnlyErrors P n.heritageNames := by
  have hname (v : Node) : OnlyErrors P v.heritageName := by
    unfold Node.heritageName
    dsimp only
    generalize (if v.kind == .genericType then (v.child? .name).getD v else v) = named
    split
    · exact onlyErrors_lastPart hlist named
    · exact OnlyErrors.ok _
  exact OnlyErrors.bind (OnlyErrors.mapM hname _) fun _ =>
    OnlyErrors.bind (OnlyErrors.mapM hname _) fun _ => OnlyErrors.ok _

theorem onlyErrors_referenceName (hlist : P .listIndex) (n : Node) :
    OnlyErrors P (referenceName n) := by
  unfold referenceName
  split
  · exact onlyErrors_lastPart hlist n
  · exact OnlyErrors.ok _

theorem onlyErrors_reference (hkind : ∀ fault, P (.kind fault)) (name : String)
    (arguments : List TypeDescriptor) : OnlyErrors P (o.reference name arguments) := by
  unfold reference
  split
  · exact OnlyErrors.ok _
  · split
    · exact OnlyErrors.ok _
    · refine OnlyErrors.bind ?_ fun _ => OnlyErrors.ok _
      unfold relativePath
      split
      · exact OnlyErrors.ok _
      · refine OnlyErrors.bind ?_ fun _ => OnlyErrors.ok _
        unfold Json.asPath
        split
        · exact OnlyErrors.ok _
        · exact OnlyErrors.error (hkind _)

theorem onlyErrors_generic (hkind : ∀ fault, P (.kind fault)) (name : String)
    (arguments : List TypeDescriptor) : OnlyErrors P (o.generic name arguments) := by
  unfold generic
  split
  · split
    · exact OnlyErrors.ok _
    · exact onlyErrors_reference hkind _ _
  · exact onlyErrors_reference hkind _ _

theorem onlyErrors_pick (hlist : P .listIndex) (variants : List TypeDescriptor) :
    OnlyErrors P (pick variants) := by
  unfold pick
  split
  · exact OnlyErrors.ok _
  · exact onlyErrors_firstOf hlist _

mutual

/-- A description fails for a child that is missing or for a value of a wrong kind. -/
theorem onlyErrors_describe (hlist : P .listIndex) (hkind : ∀ fault, P (.kind fault)) (n : Node) :
    OnlyErrors P (o.describe n) := by
  match n with
  | .mk kind label text children =>
    rw [describe.eq_def]
    dsimp only
    split
    · exact onlyErrors_describeFirst hlist hkind children
    · exact onlyErrors_describeFirst hlist hkind children
    · exact OnlyErrors.bind (onlyErrors_describeVariants hlist hkind children) (onlyErrors_pick hlist)
    · exact OnlyErrors.bind (onlyErrors_firstOf hlist children) fun _ => OnlyErrors.ok _
    · exact OnlyErrors.ok _
    · exact OnlyErrors.bind (onlyErrors_describeFirst hlist hkind children) fun _ => OnlyErrors.ok _
    · exact onlyErrors_describeAccess hlist hkind children
    · split
      · exact OnlyErrors.error (hkind _)
      · exact OnlyErrors.bind (onlyErrors_referenceName hlist _) fun name =>
          OnlyErrors.bind (onlyErrors_describeArguments hlist hkind children)
            (onlyErrors_generic hkind name)
    · exact OnlyErrors.bind (onlyErrors_referenceName hlist _) fun name =>
        onlyErrors_reference hkind name []
    · exact OnlyErrors.bind (onlyErrors_referenceName hlist _) fun name =>
        onlyErrors_reference hkind name []
    · exact OnlyErrors.ok _

theorem onlyErrors_describeFirst (hlist : P .listIndex) (hkind : ∀ fault, P (.kind fault))
    (ns : List Node) : OnlyErrors P (o.describeFirst ns) := by
  match ns with
  | [] =>
    rw [describeFirst]
    exact OnlyErrors.error hlist
  | n :: _ =>
    rw [describeFirst]
    exact onlyErrors_describe hlist hkind n

theorem onlyErrors_describeAccess (hlist : P .listIndex) (hkind : ∀ fault, P (.kind fault))
    (ns : List Node) : OnlyErrors P (o.describeAccess ns) := by
  match ns with
  | [] =>
    rw [describeAccess.eq_def]
    exact OnlyErrors.error hlist
  | [_] =>
    rw [describeAccess.eq_def]
    exact OnlyErrors.error hlist
  | object :: index :: _ =>
    rw [describeAccess]
    exact OnlyErrors.bind (onlyErrors_describe hlist hkind object) fun _ =>
      OnlyErrors.bind (onlyErrors_describe hlist hkind index) fun _ => OnlyErrors.ok _

theorem onlyErrors_describeVariants (hlist : P .listIndex) (hkind : ∀ fault, P (.kind fault))
    (ns : List Node) : OnlyErrors P (o.describeVariants ns) := by
  match ns with
  | [] =>
    rw [describeVariants]
    exact OnlyErrors.ok _
  | .mk kind label text children :: rest =>
    rw [describeVariants]
    have hrest (here : List TypeDescriptor) :
        OnlyErrors P (do return here ++ (← o.describeVariants rest)) :=
      OnlyErrors.bind (onlyErrors_describeVariants hlist hkind rest) fun _ => OnlyErrors.ok _
    split
    · exact OnlyErrors.bind (onlyErrors_describeVariants hlist hkind children) hrest
    · exact OnlyErrors.bind
        ((onlyErrors_describe hlist hkind (.mk kind label text children)).map _) hrest

theorem onlyErrors_describeAll (hlist : P .listIndex) (hkind : ∀ fault, P (.kind fault))
    (ns : List Node) : OnlyErrors P (o.describeAll ns) := by
  match ns with
  | [] =>
    rw [describeAll]
    exact OnlyErrors.ok _
  | n :: rest =>
    rw [describeAll]
    exact OnlyErrors.bind (onlyErrors_describe hlist hkind n) fun _ =>
      OnlyErrors.bind (onlyErrors_describeAll hlist hkind rest) fun _ => OnlyErrors.ok _

theorem onlyErrors_describeArguments (hlist : P .listIndex) (hkind : ∀ fault, P (.kind fault))
    (ns : List Node) : OnlyErrors P (o.describeArguments ns) := by
  match ns with
  | [] =>
    rw [describeArguments]
    exact OnlyErrors.ok _
  | .mk kind label text children :: rest =>
    rw [describeArguments]
    split
    · exact onlyErrors_describeAll hlist hkind children
    · exact onlyErrors_describeArguments hlist hkind rest

end

theorem onlyErrors_describe? (hlist : P .listIndex) (hkind : ∀ fault, P (.kind fault))
    (n : Option Node) : OnlyErrors P (o.describe? n) := by
  cases n with
  | none => exact OnlyErrors.ok _
  | some n => exact onlyErrors_describe hlist hkind n

end

/-! ## Every type has a descriptor -/

/-- Files have a place that is relative to the source directory. -/
def Placed (o : Origin) : Prop := ∀ file, ∃ path, o.relativePath file = .ok path

theorem Placed.reference (ho : o.Placed) (name : String) :
    ∃ file path, ∀ arguments, o.reference name arguments =
      .ok (.reference name arguments file path) := by
  unfold Origin.reference
  cases o.imports.lookup name with
  | none => exact ⟨none, none, fun _ => rfl⟩
  | some file =>
    by_cases hempty : file.isEmpty = true
    · refine ⟨some file, none, fun _ => ?_⟩
      show (if file.isEmpty = true then _ else _) = _
      rw [if_pos hempty]
      rfl
    · obtain ⟨path, hpath⟩ := ho file
      refine ⟨some file, some path, fun _ => ?_⟩
      show (if file.isEmpty = true then _ else _) = _
      rw [if_neg hempty, hpath]
      rfl

theorem reference_ok (h : o.Placed) (name : String) (arguments : List TypeDescriptor) :
    ∃ t, o.reference name arguments = .ok t := by
  obtain ⟨file, path, hreference⟩ := h.reference name
  exact ⟨_, hreference arguments⟩

theorem generic_ok (h : o.Placed) (name : String) (arguments : List TypeDescriptor) :
    ∃ t, o.generic name arguments = .ok t := by
  unfold generic
  split
  · split
    · exact ⟨_, rfl⟩
    · exact reference_ok h name _
  · exact reference_ok h name _

theorem pick_ok {variants : List TypeDescriptor} (h : variants ≠ []) :
    ∃ v, pick variants = .ok v := by
  unfold pick
  split
  · exact ⟨_, rfl⟩
  · exact exists_firstOf h

theorem referenceName_ok {n : Node} (h : n.Whole) : ∃ name, referenceName n = .ok name := by
  unfold referenceName
  split
  · next hkind => exact h.lastPart (.inr (beq_iff_eq.mp hkind))
  · exact ⟨n.text, rfl⟩

mutual

/-- Every node that has its children has a descriptor. -/
theorem describe_ok (h : o.Placed) (n : Node) (hn : n.Whole) : ∃ t, o.describe n = .ok t := by
  match n, hn with
  | .mk kind label text children, .mk fits below =>
    rw [describe.eq_def]
    dsimp only
    split
    · exact describeFirst_ok h children below fits
    · exact describeFirst_ok h children below fits
    · obtain ⟨variants, hvariants, hne⟩ := describeVariants_ok h children below
      rw [hvariants]
      exact pick_ok (hne fits)
    · obtain ⟨literal, hliteral⟩ := exists_firstOf fits
      rw [hliteral]
      exact ⟨_, rfl⟩
    · exact ⟨_, rfl⟩
    · obtain ⟨item, hitem⟩ := describeFirst_ok h children below fits
      rw [hitem]
      exact ⟨_, rfl⟩
    · exact describeAccess_ok h children below fits
    · obtain ⟨arguments, harguments⟩ := describeArguments_ok h children below
      split
      · next hnone =>
        obtain ⟨c, hc, hlabel⟩ := fits
        exact absurd (beq_iff_eq.mpr hlabel) (List.find?_eq_none.mp hnone c hc)
      · next named hnamed =>
        obtain ⟨name, hname⟩ := referenceName_ok (below named (List.mem_of_find?_eq_some hnamed))
        rw [hname, harguments]
        exact generic_ok h name arguments
    · obtain ⟨name, hname⟩ := referenceName_ok (.mk fits below)
      rw [hname]
      exact reference_ok h name []
    · obtain ⟨name, hname⟩ := referenceName_ok (.mk fits below)
      rw [hname]
      exact reference_ok h name []
    · exact ⟨_, rfl⟩

theorem describeFirst_ok (h : o.Placed) (ns : List Node) (hns : ∀ n ∈ ns, n.Whole)
    (hne : ns ≠ []) : ∃ t, o.describeFirst ns = .ok t := by
  match ns with
  | [] => exact absurd rfl hne
  | n :: _ => exact describe_ok h n (hns n List.mem_cons_self)

theorem describeAccess_ok (h : o.Placed) (ns : List Node) (hns : ∀ n ∈ ns, n.Whole)
    (htwo : 2 ≤ ns.length) : ∃ t, o.describeAccess ns = .ok t := by
  match ns with
  | [] => exact absurd htwo (by decide)
  | [_] => exact absurd htwo (by simp)
  | object :: index :: _ =>
    obtain ⟨t, ht⟩ := describe_ok h object (hns object List.mem_cons_self)
    obtain ⟨u, hu⟩ := describe_ok h index (hns index (List.mem_cons_of_mem _ List.mem_cons_self))
    rw [describeAccess, ht, hu]
    exact ⟨_, rfl⟩

theorem describeVariants_ok (h : o.Placed) (ns : List Node) (hns : ∀ n ∈ ns, n.Whole) :
    ∃ ts, o.describeVariants ns = .ok ts ∧ (ns ≠ [] → ts ≠ []) := by
  match ns with
  | [] => exact ⟨[], rfl, fun hne => absurd rfl hne⟩
  | .mk kind label text children :: rest =>
    obtain ⟨hn, hrest⟩ := List.forall_mem_cons.mp hns
    obtain ⟨later, hlater, -⟩ := describeVariants_ok h rest hrest
    rw [describeVariants, hlater]
    by_cases hkind : kind = .unionType
    · subst hkind
      obtain ⟨fits, below⟩ := hn
      obtain ⟨here, hhere, hne⟩ := describeVariants_ok h children below
      rw [if_pos rfl, hhere]
      exact ⟨here ++ later, rfl, fun _ => List.append_ne_nil_of_left_ne_nil (hne fits) later⟩
    · obtain ⟨t, ht⟩ := describe_ok h (.mk kind label text children) hn
      rw [if_neg hkind, ht]
      exact ⟨t :: later, rfl, fun _ => List.cons_ne_nil t later⟩

theorem describeAll_ok (h : o.Placed) (ns : List Node) (hns : ∀ n ∈ ns, n.Whole) :
    ∃ ts, o.describeAll ns = .ok ts := by
  match ns with
  | [] => exact ⟨_, rfl⟩
  | n :: rest =>
    obtain ⟨hn, hrest⟩ := List.forall_mem_cons.mp hns
    obtain ⟨t, ht⟩ := describe_ok h n hn
    obtain ⟨later, hlater⟩ := describeAll_ok h rest hrest
    rw [describeAll, ht, hlater]
    exact ⟨_, rfl⟩

theorem describeArguments_ok (h : o.Placed) (ns : List Node) (hns : ∀ n ∈ ns, n.Whole) :
    ∃ ts, o.describeArguments ns = .ok ts := by
  match ns with
  | [] => exact ⟨_, rfl⟩
  | .mk kind label text children :: rest =>
    obtain ⟨⟨_, below⟩, hrest⟩ := List.forall_mem_cons.mp hns
    rw [describeArguments]
    split
    · exact describeAll_ok h children below
    · exact describeArguments_ok h rest hrest

end

theorem describe?_ok (h : o.Placed) {n : Option Node} (hn : ∀ m ∈ n, m.Whole) :
    ∃ t, o.describe? n = .ok t := by
  cases n with
  | none => exact ⟨_, rfl⟩
  | some n => exact describe_ok h n (hn n rfl)

end Origin

open Syntax

/-- A property that has its children is a field, unless it is not visible. -/
theorem Project.exists_field? {p : Project} {s : Source} {m : Node}
    (hplaced : Origin.Placed ⟨p.files, p.settings.cwd, s.imports⟩) (hm : m.Whole)
    (d : EntityClass) : ∃ r, p.field? d s m = .ok r := by
  unfold Project.field?
  split
  · obtain ⟨t, ht⟩ := Origin.describe?_ok hplaced fun _ => hm.propertyType?
    dsimp only
    rw [ht]
    exact ⟨_, rfl⟩
  · exact ⟨none, rfl⟩

end DartModels
