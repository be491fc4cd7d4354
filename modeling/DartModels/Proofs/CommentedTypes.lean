import DartModels.Fields
import DartModels.Proofs.AncestryOrder
import DartModels.Proofs.DescribedTypes

/-!
# Comments in types

A comment is a child of the node that it stands in, and types are taken from children by their place.
So a comment that stands before a type is taken in its place, and one among type arguments is an
argument more.  Every comment that is taken for a type is left in the descriptor, as an unknown type,
and the other ones make no difference.

    n' is n with comments, o.describe n = .ok t → o.describe n' = .ok t' for a t'
    t' = t ↔ t' holds no comment                                            (describe_commented)
    the field of a property has the same name and, exactly then, the same type  (field_commented)
-/

namespace DartModels

open Syntax

/-! ## Descriptors -/

/-- A descriptor is a comment that was taken for a type, or has one inside. -/
inductive TypeDescriptor.HoldsComment : TypeDescriptor → Prop where
  | comment : HoldsComment (.unknown Kind.comment.name)
  | item {item : TypeDescriptor} (h : HoldsComment item) : HoldsComment (.array item)
  | object {object index : TypeDescriptor} (h : HoldsComment object) :
      HoldsComment (.indexedAccess object index)
  | index {object index : TypeDescriptor} (h : HoldsComment index) :
      HoldsComment (.indexedAccess object index)
  | argument {name : String} {arguments : List TypeDescriptor} {file path : Option String}
      {a : TypeDescriptor} (ha : a ∈ arguments) (h : HoldsComment a) :
      HoldsComment (.reference name arguments file path)

/-- Descriptors of a type and of the same type with comments: the same one, or one that holds a
comment and is passed over by a union only if the type is. -/
def SameOrHolds (t t' : TypeDescriptor) : Prop :=
  t' = t ∨ t'.HoldsComment ∧ (t'.name ∈ Origin.nullish → t.name ∈ Origin.nullish)

theorem SameOrHolds.refl (t : TypeDescriptor) : SameOrHolds t t := Or.inl rfl

/-- Descriptors of types in a row, and of the same types with comments between them. -/
inductive SameOrHoldAll : List TypeDescriptor → List TypeDescriptor → Prop where
  | nil : SameOrHoldAll [] []
  | comment {ts ts' : List TypeDescriptor} (h : SameOrHoldAll ts ts') :
      SameOrHoldAll ts (.unknown Kind.comment.name :: ts')
  | cons {t t' : TypeDescriptor} {ts ts' : List TypeDescriptor} (ht : SameOrHolds t t')
      (h : SameOrHoldAll ts ts') : SameOrHoldAll (t :: ts) (t' :: ts')

theorem SameOrHoldAll.append {ts ts' us us' : List TypeDescriptor} (h : SameOrHoldAll ts ts')
    (hu : SameOrHoldAll us us') : SameOrHoldAll (ts ++ us) (ts' ++ us') := by
  induction h with
  | nil => exact hu
  | comment _ ih => exact .comment ih
  | cons ht _ ih => exact .cons ht ih

/-- The descriptors are the same, or one of them holds a comment. -/
theorem SameOrHoldAll.eq_or_holds {ts ts' : List TypeDescriptor} (h : SameOrHoldAll ts ts') :
    ts' = ts ∨ ∃ t' ∈ ts', t'.HoldsComment := by
  induction h with
  | nil => exact Or.inl rfl
  | comment _ _ => exact Or.inr ⟨_, List.mem_cons_self, .comment⟩
  | cons ht _ ih =>
    rcases ht with rfl | ⟨hholds, -⟩
    · rcases ih with rfl | ⟨u, hu, hholds⟩
      · exact Or.inl rfl
      · exact Or.inr ⟨u, List.mem_cons_of_mem _ hu, hholds⟩
    · exact Or.inr ⟨_, List.mem_cons_self, hholds⟩

theorem SameOrHolds.array {t t' : TypeDescriptor} (h : SameOrHolds t t') :
    SameOrHolds (.array t) (.array t') := by
  rcases h with rfl | ⟨hholds, -⟩
  · exact .refl _
  · exact Or.inr ⟨.item hholds, fun h => absurd h (by simp [TypeDescriptor.array, Origin.nullish, TypeDescriptor.name])⟩

theorem SameOrHolds.indexedAccess {t t' u u' : TypeDescriptor} (ht : SameOrHolds t t')
    (hu : SameOrHolds u u') : SameOrHolds (.indexedAccess t u) (.indexedAccess t' u') := by
  have hname : (TypeDescriptor.indexedAccess t' u').name ∉ Origin.nullish := by
    show "IndexedAccessType" ∉ Origin.nullish
    decide
  rcases ht with rfl | ⟨hholds, -⟩
  · rcases hu with rfl | ⟨hholds, -⟩
    · exact .refl _
    · exact Or.inr ⟨.index hholds, fun h => absurd h hname⟩
  · exact Or.inr ⟨.object hholds, fun h => absurd h hname⟩

/-! ## Nodes -/

/-- What is read of a node itself: the text of a word, the last part of a dotted name, the kind of a
literal, and a name for a generic type.  No comment stands inside of these. -/
structure SameTokens (kind : Kind) (text text' : String) (children children' : List Node) :
    Prop where
  word : kind = .typeIdentifier ∨ kind = .predefinedType → text' = text
  dotted : kind = .nestedTypeIdentifier →
    children'.getLast?.map Node.text = children.getLast?.map Node.text
  literal : kind = .literalType → children'.head?.map Node.kind = children.head?.map Node.kind
  generic : kind = .genericType → ∃ n, children.find? (fun c => c.label == .name) = some n ∧
    (n.kind = .typeIdentifier ∨ n.kind = .nestedTypeIdentifier)

mutual

/-- A node without comments, and the same with comments among the children of it and of the nodes
below.  The text of a node covers the comments in it. -/
inductive Commented : Node → Node → Prop where
  | mk {kind : Kind} {label : Label} {text text' : String} {children children' : List Node}
      (hkind : kind.name ≠ Kind.comment.name)
      (htokens : SameTokens kind text text' children children') (hchildren : CommentedAll children children') :
      Commented (.mk kind label text children) (.mk kind label text' children')

/-- Nodes in a row without comments, and the same with comments between them and in them. -/
inductive CommentedAll : List Node → List Node → Prop where
  | nil : CommentedAll [] []
  | comment {text : String} {children rest rest' : List Node} (h : CommentedAll rest rest') :
      CommentedAll rest (.mk .comment .none text children :: rest')
  | cons {n n' : Node} {rest rest' : List Node} (hn : Commented n n')
      (hrest : CommentedAll rest rest') : CommentedAll (n :: rest) (n' :: rest')

end

theorem Commented.kind_eq {n n' : Node} (h : Commented n n') : n'.kind = n.kind := by
  cases h
  rfl

theorem Commented.label_eq {n n' : Node} (h : Commented n n') : n'.label = n.label := by
  cases h
  rfl

/-- A child is found by its label past all comments. -/
theorem CommentedAll.find?_label {label : Label} (hlabel : label ≠ .none) {ns ns' : List Node}
    (h : CommentedAll ns ns') :
    Option.Rel Commented (ns.find? fun c => c.label == label)
      (ns'.find? fun c => c.label == label) := by
  match ns, ns', h with
  | [], [], .nil => exact .none
  | ns, .mk .comment .none text children :: rest', .comment hrest =>
    have hskip : ((Node.mk .comment .none text children).label == label) = false :=
      beq_false_of_ne hlabel.symm
    rw [List.find?_cons, hskip]
    exact hrest.find?_label hlabel
  | n :: rest, n' :: rest', .cons hn hrest =>
    rw [List.find?_cons, List.find?_cons, hn.label_eq]
    cases n.label == label with
    | true => exact .some hn
    | false => exact hrest.find?_label hlabel
termination_by sizeOf ns'

/-- Comments do not change the name of a reference. -/
theorem Commented.referenceName_eq {n n' : Node} (h : Commented n n')
    (hkind : n.kind = .typeIdentifier ∨ n.kind = .nestedTypeIdentifier) :
    Origin.referenceName n' = Origin.referenceName n := by
  cases h with
  | @mk _ _ text text' children children' _ htokens _ =>
    rcases hkind with rfl | rfl
    · exact congrArg Except.ok (htokens.word (Or.inl rfl))
    · have hlast := htokens.dotted rfl
      show (lastOf children' >>= fun last => pure last.text) =
        lastOf children >>= fun last => pure last.text
      cases hc : children.getLast? with
      | none =>
        rw [hc, Option.map_none, Option.map_eq_none_iff] at hlast
        rw [List.getLast?_eq_none_iff.mp hc, List.getLast?_eq_none_iff.mp hlast]
      | some c =>
        rw [hc] at hlast
        obtain ⟨c', hc', htext⟩ := Option.map_eq_some_iff.mp hlast
        rw [lastOf_of_getLast? hc, lastOf_of_getLast? hc']
        exact congrArg Except.ok htext

namespace Origin

variable {o : Origin}

/-! ## Names, arguments and variants -/

theorem describe_comment (label : Label) (text : String) (children : List Node) :
    o.describe (.mk .comment label text children) = .ok (.unknown Kind.comment.name) := by
  rw [describe.eq_def]

theorem not_holdsComment_reference {name : String} {arguments : List TypeDescriptor}
    {file path : Option String} (h : ∀ a ∈ arguments, ¬a.HoldsComment) :
    ¬(TypeDescriptor.reference name arguments file path).HoldsComment := by
  intro hholds
  cases hholds with
  | argument ha hholds => exact h _ ha hholds

theorem generic_single {name : String} (harray : arrayGenerics.contains name = true)
    (a : TypeDescriptor) : o.generic name [a] = .ok (.array a) := if_pos harray

theorem generic_reference {name : String} {arguments : List TypeDescriptor}
    (h : ¬(arrayGenerics.contains name = true ∧ arguments.length = 1)) :
    o.generic name arguments = o.reference name arguments := by
  unfold generic
  split
  · exact if_neg fun harray => h ⟨harray, rfl⟩
  · rfl

theorem generic_commented (ho : o.Placed) (name : String) {arguments arguments' : List TypeDescriptor}
    (hplain : ∀ a ∈ arguments, ¬a.HoldsComment)
    (harguments : SameOrHoldAll arguments arguments') :
    ∃ t t', o.generic name arguments = .ok t ∧ o.generic name arguments' = .ok t' ∧
      ¬t.HoldsComment ∧ SameOrHolds t t' := by
  obtain ⟨file, path, hreference⟩ := ho.reference name
  have hnames : arrayGenerics.contains name = true → name ∉ nullish := by
    intro harray
    have hmem : name ∈ arrayGenerics := by simpa using harray
    simp only [arrayGenerics, List.mem_cons, List.not_mem_nil, or_false] at hmem
    rcases hmem with rfl | rfl
    · decide
    · decide
  by_cases hsingle : arrayGenerics.contains name = true ∧ arguments.length = 1
  · obtain ⟨a, rfl⟩ := List.length_eq_one_iff.mp hsingle.2
    have ha := hplain a List.mem_cons_self
    have hplainArray : ¬(TypeDescriptor.array a).HoldsComment := by
      intro h
      cases h with
      | item h => exact ha h
    by_cases hsingle' : arrayGenerics.contains name = true ∧ arguments'.length = 1
    · obtain ⟨a', rfl⟩ := List.length_eq_one_iff.mp hsingle'.2
      refine ⟨_, _, generic_single hsingle.1 a, generic_single hsingle.1 a', hplainArray, ?_⟩
      cases harguments with
      | comment h => cases h
      | cons haa' _ => exact haa'.array
    · refine ⟨_, _, generic_single hsingle.1 a,
        (generic_reference hsingle').trans (hreference arguments'), hplainArray, Or.inr ?_⟩
      rcases harguments.eq_or_holds with rfl | ⟨b, hb, hholds⟩
      · exact absurd hsingle hsingle'
      · exact ⟨.argument hb hholds, fun h => absurd h (hnames hsingle.1)⟩
  · have hfirst := (generic_reference hsingle).trans (hreference arguments)
    have hplainReference := @not_holdsComment_reference name _ file path hplain
    by_cases hsingle' : arrayGenerics.contains name = true ∧ arguments'.length = 1
    · obtain ⟨a', rfl⟩ := List.length_eq_one_iff.mp hsingle'.2
      refine ⟨_, _, hfirst, generic_single hsingle'.1 a', hplainReference, Or.inr ?_⟩
      rcases harguments.eq_or_holds with rfl | ⟨b, hb, hholds⟩
      · exact absurd hsingle' hsingle
      · rw [List.mem_singleton.mp hb] at hholds
        exact ⟨.item hholds, fun h => absurd h (by show "ArrayType" ∉ nullish; decide)⟩
    · refine ⟨_, _, hfirst, (generic_reference hsingle').trans (hreference arguments'),
        hplainReference, ?_⟩
      rcases harguments.eq_or_holds with rfl | ⟨b, hb, hholds⟩
      · exact .refl _
      · exact Or.inr ⟨.argument hb hholds, id⟩

/-- The first variant that counts is the same, unless one counts that holds a comment. -/
theorem find?_commented {variants variants' : List TypeDescriptor}
    (h : SameOrHoldAll variants variants') :
    match variants'.find? fun v => !nullish.contains v.name with
    | some v' => v'.HoldsComment ∨ (variants.find? fun v => !nullish.contains v.name) = some v'
    | none => (variants.find? fun v => !nullish.contains v.name) = none := by
  induction h with
  | nil => rfl
  | comment _ _ => exact Or.inl .comment
  | @cons t t' ts ts' ht _ ih =>
    rw [List.find?_cons, List.find?_cons]
    by_cases hcounts : t'.name ∈ nullish
    · have hpassed : t.name ∈ nullish := by
        rcases ht with rfl | ⟨-, hnullish⟩
        · exact hcounts
        · exact hnullish hcounts
      simpa [hcounts, hpassed] using ih
    · rcases ht with rfl | ⟨hholds, -⟩
      · simp [hcounts]
      · simp [hcounts, hholds]

/-- A union takes a comment for its variant if it stands before the first one that counts. -/
theorem pick_commented {variants variants' : List TypeDescriptor} {t : TypeDescriptor}
    (h : SameOrHoldAll variants variants') (ht : pick variants = .ok t) :
    ∃ t', pick variants' = .ok t' ∧ SameOrHolds t t' := by
  have hfind := find?_commented h
  unfold pick at ht ⊢
  cases hfound : variants'.find? fun v => !nullish.contains v.name with
  | some v' =>
    rw [hfound] at hfind
    have hcounts : v'.name ∉ nullish := by simpa using List.find?_some hfound
    refine ⟨v', rfl, ?_⟩
    rcases hfind with hholds | hsame
    · exact Or.inr ⟨hholds, fun h => absurd h hcounts⟩
    · rw [hsame] at ht
      cases ht
      exact .refl _
  | none =>
    rw [hfound] at hfind
    rw [hfind] at ht
    cases h with
    | nil => cases ht
    | comment _ => exact absurd hfound (by simp [TypeDescriptor.unknown, TypeDescriptor.name, nullish, Kind.name])
    | cons hhere _ =>
      cases ht
      exact ⟨_, rfl, hhere⟩

/-! ## Reducing types -/

theorem nullish_comment : (TypeDescriptor.unknown Kind.comment.name).name ∉ nullish := by
  show "comment" ∉ nullish
  decide

theorem not_holdsComment_unknown {name : String} (h : name ≠ Kind.comment.name) :
    ¬(TypeDescriptor.unknown name).HoldsComment := by
  intro hholds
  cases hholds with
  | comment => exact h rfl

theorem not_holdsComment_primitive (name : String) :
    ¬(TypeDescriptor.primitive name).HoldsComment := nofun

/-- A type without comments is described without comments, and with comments as the same type or one
that holds a comment. -/
def Agree (r r' : Except Error TypeDescriptor) : Prop :=
  ∀ t, r = .ok t → ¬t.HoldsComment ∧ ∃ t', r' = .ok t' ∧ SameOrHolds t t'

/-- The same for types in a row. -/
def AgreeAll (r r' : Except Error (List TypeDescriptor)) : Prop :=
  ∀ ts, r = .ok ts → (∀ t ∈ ts, ¬t.HoldsComment) ∧ ∃ ts', r' = .ok ts' ∧ SameOrHoldAll ts ts'

theorem agree_same {r : Except Error TypeDescriptor} {t : TypeDescriptor} (h : r = .ok t)
    (hplain : ¬t.HoldsComment) : Agree r r := by
  intro u hu
  rw [h] at hu
  cases hu
  exact ⟨hplain, t, h, .refl t⟩

/-- A comment in the place of a type. -/
theorem Agree.comment {r r' : Except Error TypeDescriptor} (h : Agree r r') :
    Agree r (.ok (.unknown Kind.comment.name)) := fun t ht =>
  ⟨(h t ht).1, _, rfl, Or.inr ⟨.comment, fun h => absurd h nullish_comment⟩⟩

/-- All that is described of nodes in a row agrees. -/
structure ListsAgree (o : Origin) (ns ns' : List Node) : Prop where
  first : Agree (o.describeFirst ns) (o.describeFirst ns')
  access : Agree (o.describeAccess ns) (o.describeAccess ns')
  variants : AgreeAll (o.describeVariants ns) (o.describeVariants ns')
  all : AgreeAll (o.describeAll ns) (o.describeAll ns')
  arguments : AgreeAll (o.describeArguments ns) (o.describeArguments ns')

/-- A node is described alike, and so are its children. -/
structure NodesAgree (o : Origin) (n n' : Node) : Prop where
  described : Agree (o.describe n) (o.describe n')
  below : o.ListsAgree n.children n'.children

theorem agreeAll_nil : AgreeAll (.ok []) (.ok []) := by
  intro ts hts
  cases hts
  exact ⟨List.forall_mem_nil _, [], rfl, .nil⟩

theorem agreeAll_cons {r r' : Except Error TypeDescriptor}
    {rs rs' : Except Error (List TypeDescriptor)} (h : Agree r r') (hs : AgreeAll rs rs') :
    AgreeAll (do return (← r) :: (← rs)) (do return (← r') :: (← rs')) := by
  intro all hall
  obtain ⟨t, ht, hall⟩ := exists_of_bind_eq_ok hall
  obtain ⟨ts, hts, hall⟩ := exists_of_bind_eq_ok hall
  cases hall
  obtain ⟨hplain, t', rfl, htt'⟩ := h t ht
  obtain ⟨hplains, ts', rfl, hts'⟩ := hs ts hts
  exact ⟨List.forall_mem_cons.mpr ⟨hplain, hplains⟩, t' :: ts', rfl, .cons htt' hts'⟩

theorem agreeAll_single {r r' : Except Error TypeDescriptor} (h : Agree r r') :
    AgreeAll (r.map ([·])) (r'.map ([·])) := by
  intro ts hts
  obtain ⟨t, ht, rfl⟩ := exists_of_mapped_eq_ok hts
  obtain ⟨hplain, t', rfl, hsame⟩ := h t ht
  exact ⟨List.forall_mem_singleton.mpr hplain, [t'], rfl, .cons hsame .nil⟩

theorem agreeAll_append {rs rs' us us' : Except Error (List TypeDescriptor)} (hr : AgreeAll rs rs')
    (hu : AgreeAll us us') :
    AgreeAll (do return (← rs) ++ (← us)) (do return (← rs') ++ (← us')) := by
  intro all hall
  obtain ⟨ts, hts, hall⟩ := exists_of_bind_eq_ok hall
  obtain ⟨vs, hvs, hall⟩ := exists_of_bind_eq_ok hall
  cases hall
  obtain ⟨hplain, ts', rfl, htts'⟩ := hr ts hts
  obtain ⟨hplainLater, vs', rfl, hvvs'⟩ := hu vs hvs
  exact ⟨List.forall_mem_append.mpr ⟨hplain, hplainLater⟩, ts' ++ vs', rfl, htts'.append hvvs'⟩

/-- One more comment among types in a row. -/
theorem AgreeAll.comment {rs rs' : Except Error (List TypeDescriptor)} (h : AgreeAll rs rs') :
    AgreeAll rs (do return .unknown Kind.comment.name :: (← rs')) := by
  intro ts hts
  obtain ⟨hplain, ts', rfl, hts'⟩ := h ts hts
  exact ⟨hplain, .unknown Kind.comment.name :: ts', rfl, .comment hts'⟩

theorem listsAgree_nil : o.ListsAgree [] [] where
  first _ h := by cases h
  access _ h := by cases h
  variants := agreeAll_nil
  all := agreeAll_nil
  arguments := agreeAll_nil

/-- A comment is the first of the nodes after it, and one more variant or argument. -/
theorem listsAgree_comment {text : String} {children ns ns' : List Node} (h : o.ListsAgree ns ns') :
    o.ListsAgree ns (.mk .comment .none text children :: ns') where
  first := by
    rw [describeFirst.eq_2, describe_comment]
    exact h.first.comment
  access := by
    intro access haccess
    obtain ⟨hplain, -⟩ := h.access access haccess
    cases ns with
    | nil => cases haccess
    | cons n rest =>
      obtain ⟨object, index, hobject, -, rfl⟩ := describeAccess_eq_ok.mp haccess
      obtain ⟨-, object', hobject', -⟩ := h.first object (by rw [describeFirst, hobject])
      refine ⟨hplain, .indexedAccess (.unknown Kind.comment.name) object',
        describeAccess_eq_ok.mpr ⟨_, _, describe_comment _ _ _, hobject', rfl⟩,
        Or.inr ⟨.object .comment, fun h => absurd h ?_⟩⟩
      show "IndexedAccessType" ∉ nullish
      decide
  variants := by
    rw [describeVariants.eq_2, if_neg (by decide), describe_comment]
    exact h.variants.comment
  all := by
    rw [describeAll.eq_2, describe_comment]
    exact h.all.comment
  arguments := by
    rw [describeArguments.eq_2, if_neg (by decide)]
    exact h.arguments

theorem listsAgree_cons {n n' : Node} {rest rest' : List Node} (hcommented : Commented n n')
    (hn : o.NodesAgree n n') (h : o.ListsAgree rest rest') :
    o.ListsAgree (n :: rest) (n' :: rest') := by
  obtain ⟨kind, label, text, children⟩ := n
  obtain ⟨kind', label', text', children'⟩ := n'
  obtain rfl : kind' = kind := hcommented.kind_eq
  obtain rfl : label' = label := hcommented.label_eq
  constructor
  · rw [describeFirst, describeFirst]
    exact hn.described
  · intro access haccess
    obtain ⟨object, index, hobject, hindex, rfl⟩ := describeAccess_eq_ok.mp haccess
    obtain ⟨hplain, object', hobject', hsame⟩ := hn.described object hobject
    obtain ⟨hplainIndex, index', hindex', hsameIndex⟩ := h.first index hindex
    refine ⟨fun hholds => ?_, .indexedAccess object' index',
      describeAccess_eq_ok.mpr ⟨_, _, hobject', hindex', rfl⟩, hsame.indexedAccess hsameIndex⟩
    cases hholds with
    | object hholds => exact hplain hholds
    | index hholds => exact hplainIndex hholds
  · rw [describeVariants, describeVariants]
    by_cases hunion : kind' = .unionType
    · rw [if_pos hunion, if_pos hunion]
      exact agreeAll_append hn.below.variants h.variants
    · rw [if_neg hunion, if_neg hunion]
      exact agreeAll_append (agreeAll_single hn.described) h.variants
  · rw [describeAll, describeAll]
    exact agreeAll_cons hn.described h.all
  · rw [describeArguments, describeArguments]
    by_cases hlabel : label' = .typeArguments
    · rw [if_pos hlabel, if_pos hlabel]
      exact hn.below.all
    · rw [if_neg hlabel, if_neg hlabel]
      exact h.arguments

theorem agree_reference (ho : o.Placed) (name : Except Error String) :
    Agree (do o.reference (← name) []) (do o.reference (← name) []) := by
  intro t ht
  obtain ⟨name, rfl, ht⟩ := exists_of_bind_eq_ok ht
  obtain ⟨file, path, hreference⟩ := ho.reference name
  exact agree_same (hreference []) (not_holdsComment_reference (List.forall_mem_nil _)) t ht

theorem describe_agree (ho : o.Placed) {kind : Kind} {label : Label} {text text' : String}
    {children children' : List Node} (hkind : kind.name ≠ Kind.comment.name)
    (htokens : SameTokens kind text text' children children')
    (hchildren : CommentedAll children children') (h : o.ListsAgree children children') :
    Agree (o.describe (.mk kind label text children)) (o.describe (.mk kind label text' children')) := by
  have hcommented := @Commented.mk _ label _ _ _ _ hkind htokens hchildren
  rw [describe.eq_def, describe.eq_def]
  dsimp only
  split
  · exact h.first
  · exact h.first
  · intro t ht
    obtain ⟨ts, hts, ht⟩ := exists_of_bind_eq_ok ht
    obtain ⟨hplain, ts', hts', hall⟩ := h.variants ts hts
    obtain ⟨t', ht', hsame⟩ := pick_commented hall ht
    refine ⟨hplain t (mem_of_pick ht), t', ?_, hsame⟩
    rw [hts']
    exact ht'
  · intro t ht
    obtain ⟨literal, hliteral, ht⟩ := exists_of_bind_eq_ok ht
    cases ht
    have hkinds := htokens.literal rfl
    cases children with
    | nil => cases hliteral
    | cons c rest =>
      cases hliteral
      obtain ⟨c', hc', hsame⟩ := Option.map_eq_some_iff.mp hkinds
      cases children' with
      | nil => cases hc'
      | cons c'' rest' =>
        cases hc'
        refine ⟨not_holdsComment_primitive _, _, rfl, ?_⟩
        rw [hsame]
        exact .refl _
  · rw [htokens.word (Or.inr rfl)]
    exact agree_same rfl (not_holdsComment_primitive _)
  · intro t ht
    obtain ⟨item, hitem, ht⟩ := exists_of_bind_eq_ok ht
    cases ht
    obtain ⟨hplain, item', hitem', hsame⟩ := h.first item hitem
    refine ⟨fun hholds => ?_, .array item', ?_, hsame.array⟩
    · cases hholds with
      | item hholds => exact hplain hholds
    · rw [hitem']
      rfl
  · exact h.access
  · obtain ⟨n, hn, hnkind⟩ := htokens.generic rfl
    have hrel := @CommentedAll.find?_label .name (by decide) _ _ hchildren
    rw [hn] at hrel
    cases hn' : children'.find? (fun c => c.label == .name) with
    | none =>
      rw [hn'] at hrel
      cases hrel
    | some n' =>
      rw [hn'] at hrel
      cases hrel with
      | some hnamed =>
        have hchild : (Node.mk .genericType label text children).child? .name = some n := hn
        have hchild' : (Node.mk .genericType label text' children').child? .name = some n' := hn'
        rw [hchild, hchild']
        dsimp only
        rw [hnamed.referenceName_eq hnkind]
        intro t ht
        obtain ⟨name, hname, ht⟩ := exists_of_bind_eq_ok ht
        obtain ⟨ts, hts, ht⟩ := exists_of_bind_eq_ok ht
        obtain ⟨hplain, ts', hts', hall⟩ := h.arguments ts hts
        obtain ⟨u, u', hu, hu', hplainHere, hsame⟩ := generic_commented ho name hplain hall
        rw [ht] at hu
        cases hu
        refine ⟨hplainHere, u', ?_, hsame⟩
        rw [hname, hts']
        exact hu'
  · rw [hcommented.referenceName_eq (Or.inl rfl)]
    exact agree_reference ho _
  · rw [hcommented.referenceName_eq (Or.inr rfl)]
    exact agree_reference ho _
  · exact agree_same rfl (not_holdsComment_unknown hkind)

/-- Along the insertion: a node is described alike if its children are, and nodes in a row are if each
of them is. -/
theorem commented_agree (ho : o.Placed) {ns ns' : List Node} (h : CommentedAll ns ns') :
    o.ListsAgree ns ns' :=
  @CommentedAll.rec (fun n n' _ => o.NodesAgree n n') (fun ns ns' _ => o.ListsAgree ns ns')
    (fun hkind htokens hchildren ih => ⟨describe_agree ho hkind htokens hchildren ih, ih⟩)
    listsAgree_nil (fun _ ih => listsAgree_comment ih)
    (fun hn _ ihNode ihRest => listsAgree_cons hn ihNode ihRest) ns ns' h

/-- The type of an annotation is its first child. -/
theorem describe?_commented (ho : o.Placed) {ns ns' : List Node} (h : CommentedAll ns ns') :
    Agree (o.describe? ns.head?) (o.describe? ns'.head?) := by
  have hany : Agree (o.describe? none) (o.describe? none) :=
    agree_same rfl (not_holdsComment_primitive _)
  cases h with
  | nil => exact hany
  | @comment text children _ rest' hrest =>
    have hcomment : o.describe? (Node.mk .comment .none text children :: rest').head? =
        .ok (.unknown Kind.comment.name) :=
      describe_comment (o := o) .none text children
    rw [hcomment]
    cases ns with
    | nil => exact hany.comment
    | cons n rest =>
      have hfirst := (commented_agree ho hrest).first
      rw [describeFirst] at hfirst
      exact hfirst.comment
  | cons hn hrest =>
    have hfirst := (commented_agree ho (.cons hn hrest)).first
    rwa [describeFirst, describeFirst] at hfirst

end Origin

/-! ## Properties -/

/-- A property, and the same with comments among the children of its type annotation and of the nodes
below. -/
inductive CommentedAnnotation : Node → Node → Prop where
  | mk {kind : Kind} {label : Label} {text text' typeText typeText' : String}
      {before after children children' : List Node} (hbefore : ∀ c ∈ before, c.label ≠ .type)
      (h : CommentedAll children children') :
      CommentedAnnotation
        (.mk kind label text (before ++ .mk .typeClause .type typeText children :: after))
        (.mk kind label text' (before ++ .mk .typeClause .type typeText' children' :: after))

namespace CommentedAnnotation

variable {m m' : Node}

theorem propertyName_eq (h : CommentedAnnotation m m') : m'.propertyName = m.propertyName := by
  cases h with
  | mk hbefore h =>
    unfold Node.propertyName Node.child?
    dsimp only [Node.children]
    rw [List.find?_append, List.find?_append, List.find?_cons, List.find?_cons]
    rfl

theorem decorators_eq (h : CommentedAnnotation m m') : m'.decorators = m.decorators := by
  cases h with
  | mk hbefore h =>
    unfold Node.decorators Node.childrenOf
    dsimp only [Node.children]
    rw [List.filter_append, List.filter_append, List.filter_cons, List.filter_cons]
    rfl

theorem exists_propertyType? (h : CommentedAnnotation m m') :
    ∃ ns ns', CommentedAll ns ns' ∧ m.propertyType? = ns.head? ∧ m'.propertyType? = ns'.head? := by
  cases h with
  | @mk kind label text text' typeText typeText' before after children children' hbefore h =>
    have hchild : ∀ text typeText children, (Node.mk kind label text
        (before ++ .mk .typeClause .type typeText children :: after)).child? .type =
          some (.mk .typeClause .type typeText children) := by
      intro text typeText children
      have hnone : before.find? (fun c => c.label == .type) = none := by
        rw [List.find?_eq_none]
        intro c hc
        simpa using hbefore c hc
      unfold Node.child?
      dsimp only [Node.children]
      rw [List.find?_append, hnone, Option.none_or]
      rfl
    refine ⟨children, children', h, ?_, ?_⟩
    · rw [Node.propertyType?, hchild]
      rfl
    · rw [Node.propertyType?, hchild]
      rfl

end CommentedAnnotation

namespace Project

variable {p : Project}

/-- With comments in its annotation, a property is a field exactly if it is one without them, of the
same name.  The types are the same exactly if no comment was taken for a type.  A property whose nodes
have their children is a field or none. -/
theorem field_commented {m m' : Node} (h : CommentedAnnotation m m') (d : EntityClass) (s : Source)
    (hplaced : Origin.Placed ⟨p.files, p.settings.cwd, s.imports⟩) :
    (m.Whole → ∃ r, p.field? d s m = .ok r) ∧
      ∀ r, p.field? d s m = .ok r → ∃ r', p.field? d s m' = .ok r' ∧
        Option.Rel (fun f f' => f'.name = f.name ∧ f'.declaredIn = f.declaredIn ∧
          (f'.type = f.type ↔ ¬f'.type.HoldsComment)) r r' := by
  refine ⟨fun hwhole => exists_field? hplaced hwhole d, fun r hr => ?_⟩
  obtain ⟨ns, ns', hall, htype, htype'⟩ := h.exists_propertyType?
  unfold field? at hr ⊢
  rw [h.decorators_eq, h.propertyName_eq, htype']
  by_cases hshown : p.settings.exposes (m.decorators.map Node.decoratorName) = true
  · rw [if_pos hshown, htype] at hr
    rw [if_pos hshown]
    obtain ⟨t, ht, hr⟩ := exists_of_bind_eq_ok hr
    cases hr
    obtain ⟨hplain, t', ht', hsame⟩ := Origin.describe?_commented hplaced hall t ht
    have hiff : t' = t ↔ ¬t'.HoldsComment := by
      constructor
      · rintro rfl
        exact hplain
      · intro hnone
        exact hsame.resolve_right fun hholds => hnone hholds.1
    dsimp only
    rw [ht']
    exact ⟨_, rfl, .some ⟨rfl, rfl, hiff⟩⟩
  · rw [if_neg hshown] at hr
    rw [if_neg hshown]
    cases hr
    exact ⟨none, rfl, .none⟩

/-! ## A comment before a type -/

/-- A decorated property `x` with an annotation. -/
def annotated (text annotation : String) (children : List Node) : Node :=
  .mk .fieldDefinition .none text
    ([.mk .decorator .none "@C()"
        [.mk .callExpression .none "C()" [.mk .identifier .function "C" []]],
      .mk .propertyName .name "x" []] ++ .mk .typeClause .type annotation children :: [])

/-- The property of `class A{@C()x:string;}`. -/
def bareProperty : Node :=
  annotated "x:string" ":string" [.mk .predefinedType .none "string" []]

/-- The property of `class A{@C()x:/*c*/string;}`. -/
def commentedProperty : Node :=
  annotated "x:/*c*/string" ":/*c*/string"
    [.mk .comment .none "/*c*/" [], .mk .predefinedType .none "string" []]

theorem commentedAnnotation_property : CommentedAnnotation bareProperty commentedProperty := by
  have hword : Commented (.mk .predefinedType .none "string" [])
      (.mk .predefinedType .none "string" []) := by
    refine .mk (by decide) ⟨fun _ => rfl, fun h => ?_, fun h => ?_, fun h => ?_⟩ .nil
    · cases h
    · cases h
    · cases h
  refine .mk ?_ (.comment (.cons hword .nil))
  simp [Node.label]

theorem placed_ofText (s : Source) :
    Origin.Placed ⟨(ofText "").files, (ofText "").settings.cwd, s.imports⟩ :=
  fun _ => ⟨_, rfl⟩

theorem field_bareProperty (d : EntityClass) (s : Source) :
    (ofText "").field? d s bareProperty = .ok (some ⟨"x", .primitive "String", d.name⟩) := by
  rfl

theorem field_commentedProperty (d : EntityClass) (s : Source) :
    (ofText "").field? d s commentedProperty = .ok (some ⟨"x", .unknown "comment", d.name⟩) := by
  rfl

/-- A comment before the type of a property is taken for its type. -/
theorem comment_taken :
    ((ModuleReader.read "class A{@C()x:string;}".toList).classes.map fun c => c.1.properties) =
      [[bareProperty]] ∧
    ((ModuleReader.read "class A{@C()x:/*c*/string;}".toList).classes.map
      fun c => c.1.properties) = [[commentedProperty]] ∧
    ¬∀ (m m' : Node), CommentedAnnotation m m' → ∀ (d : EntityClass) (s : Source) (f : Field),
      (ofText "").field? d s m = .ok (some f) →
        ∃ f', (ofText "").field? d s m' = .ok (some f') ∧ f'.name = f.name ∧ f'.type = f.type := by
  refine ⟨by cbv, by cbv, fun hclaim => ?_⟩
  obtain ⟨f', hf', -, htype⟩ := hclaim _ _ commentedAnnotation_property default default _
    (field_bareProperty default default)
  rw [field_commentedProperty] at hf'
  cases hf'
  cases htype

/-- The property is a field with and without the comment, of the same name, and its type is another one
as the comment was taken for it. -/
theorem field_commented_property :
    Origin.Placed ⟨(ofText "").files, (ofText "").settings.cwd, (default : Source).imports⟩ ∧
      CommentedAnnotation bareProperty commentedProperty ∧
      ∃ f f', (ofText "").field? default default bareProperty = .ok (some f) ∧
        (ofText "").field? default default commentedProperty = .ok (some f') ∧ f'.name = f.name ∧
        f'.declaredIn = f.declaredIn ∧ f.type = .primitive "String" ∧ f'.type = .unknown "comment" ∧
        (f'.type = f.type ↔ ¬f'.type.HoldsComment) := by
  obtain ⟨r', hr', hrel⟩ :=
    (field_commented commentedAnnotation_property default default (placed_ofText default)).2 _
      (field_bareProperty default default)
  rw [field_commentedProperty] at hr'
  cases hr'
  cases hrel with
  | some h =>
    exact ⟨placed_ofText default, commentedAnnotation_property, _, _, field_bareProperty _ _,
      field_commentedProperty _ _, h.1, h.2.1, rfl, rfl, h.2.2⟩

end Project

end DartModels
