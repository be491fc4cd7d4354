import Mathlib
import DartModels.Proofs.DescribedTypes
import DartModels.Proofs.WholeTrees

/-!
# Spellings of types

One type can be written in many ways: in brackets, as a union with null, with its variants grouped,
as an array with brackets or by name.  A type comes to one variant when it stands in a union, and that
variant is all that the union sees of it, so spellings that come to the same variant can be exchanged
anywhere in a type.

    a part of a union can be replaced by the variant that it comes to         (choice_append_choice)
    describe n = variant n, if there is one                                    (describe_eq_variant)
    every spelling of a type has its variant                                       (variant_spelled)
    types that are spelled differently in any of their parts have one descriptor
                                                                                (describe_respelled)
-/

namespace DartModels

open Syntax

/-! ## Trees -/

/-- Ways to write an array of items of a type. -/
inductive ArrayOf (x : Node) : Node → Prop where
  | brackets (label : Label) (text : String) : ArrayOf x (.mk .arrayType label text [x])
  | named {name : String} (hname : name ∈ Origin.arrayGenerics) (label : Label) (text list : String) :
      ArrayOf x (.mk .genericType label text [.mk .typeIdentifier .name name [],
        .mk .typeArguments .typeArguments list [x]])

/-- Two spellings of one type. -/
inductive Spelled : Node → Node → Prop where
  /-- A type in parentheses or after `readonly`. -/
  | wrapped {n : Node} (hn : n.Whole) {kind : Kind}
      (hkind : kind = .parenthesizedType ∨ kind = .readonlyType) (label : Label) (text : String) :
      Spelled n (.mk kind label text [n])
  /-- A type with `| null` or `| undefined` after it. -/
  | nullable {n : Node} (hn : n.Whole) {word : Kind}
      (hword : word = .nullLiteral ∨ word = .undefinedLiteral) (label : Label)
      (text literal inner : String) :
      Spelled n (.mk .unionType label text
        [n, .mk .literalType .none literal [.mk word .none inner []]])
  /-- Variants of a union as a union of their own. -/
  | grouped (before group after : List Node) (label : Label) (text text' part : String) :
      Spelled (.mk .unionType label text (before ++ group ++ after))
        (.mk .unionType label text' (before ++ .mk .unionType .none part group :: after))
  | array {x n n' : Node} (h : ArrayOf x n) (h' : ArrayOf x n') : Spelled n n'

/-- Whether every child of a node of a kind is a type, or is not looked at. -/
def holdsTypes : Kind → Bool
  | .predefinedType | .literalType | .typeIdentifier | .nestedTypeIdentifier | .genericType => false
  | _ => true

/-- A type with one of its parts in another spelling.  The part is a child of a node that holds types, or
an argument of a generic type, at any depth. -/
inductive Respelled : Node → Node → Prop where
  | here {n n' : Node} (h : Spelled n n') : Respelled n n'
  | child {kind : Kind} (hkind : holdsTypes kind = true) (label : Label) (text text' : String)
      (before after : List Node) {n n' : Node} (h : Respelled n n') :
      Respelled (.mk kind label text (before ++ n :: after))
        (.mk kind label text' (before ++ n' :: after))
  | argument {name : Node} (hname : name.label = .name) (label : Label)
      (text text' list list' : String) (before after : List Node) {n n' : Node}
      (h : Respelled n n') :
      Respelled
        (.mk .genericType label text
          [name, .mk .typeArguments .typeArguments list (before ++ n :: after)])
        (.mk .genericType label text'
          [name, .mk .typeArguments .typeArguments list' (before ++ n' :: after)])

namespace Origin

variable {o : Origin} {n n' : Node}

/-! ## Variants -/

/-- The variant of a union that counts, if there is one. -/
def choice (variants : List TypeDescriptor) : Option TypeDescriptor :=
  (variants.find? fun v => !nullish.contains v.name).or variants.head?

/-- What is left of a choice, which has to be there. -/
def chosen : Option TypeDescriptor → Except Error TypeDescriptor
  | some v => .ok v
  | none => .error .listIndex

theorem pick_eq_chosen (variants : List TypeDescriptor) : pick variants = chosen (choice variants) := by
  unfold pick choice
  cases variants.find? fun v => !nullish.contains v.name with
  | some v => rfl
  | none => cases variants <;> rfl

/-- Of some variants in a union only one counts. -/
theorem choice_append_choice (before variants after : List TypeDescriptor) :
    choice (before ++ ((choice variants).toList ++ after)) =
      choice (before ++ (variants ++ after)) := by
  unfold choice
  simp only [List.find?_append, List.head?_append]
  cases hfound : variants.find? fun v => !nullish.contains v.name with
  | some v =>
    have hv : v.name ∉ nullish := by simpa using List.find?_some hfound
    simp [hv]
  | none =>
    cases variants with
    | nil => simp
    | cons v rest =>
      have hv : v.name ∈ nullish := by simpa using List.find?_eq_none.mp hfound v List.mem_cons_self
      simp [hv]

theorem describeVariants_union (o : Origin) (label : Label) (text : String)
    (children ns : List Node) :
    o.describeVariants (.mk .unionType label text children :: ns) = do
      return (← o.describeVariants children) ++ (← o.describeVariants ns) := by
  rw [describeVariants, if_pos rfl]

theorem describeVariants_of_ne_union {kind : Kind} (h : kind ≠ .unionType) (label : Label)
    (text : String) (children ns : List Node) :
    o.describeVariants (.mk kind label text children :: ns) = do
      return (← o.describe (.mk kind label text children)) :: (← o.describeVariants ns) := by
  rw [describeVariants, if_neg h]
  cases o.describe (.mk kind label text children) <;> rfl

theorem describeVariants_append (o : Origin) (ns ms : List Node) :
    o.describeVariants (ns ++ ms) = do
      return (← o.describeVariants ns) ++ (← o.describeVariants ms) := by
  induction ns with
  | nil =>
    rw [List.nil_append, describeVariants, ok_bind]
    exact (bind_pure _).symm
  | cons n ns ih =>
    rw [List.cons_append]
    obtain ⟨kind, label, text, children⟩ := n
    by_cases h : kind = .unionType
    · subst h
      rw [describeVariants_union, describeVariants_union, ih]
      simp only [bind_assoc, pure_bind, List.append_assoc]
    · rw [describeVariants_of_ne_union h, describeVariants_of_ne_union h, ih]
      simp only [bind_assoc, pure_bind, List.cons_append]

/-- What a type comes to as a part of a union. -/
def variant (o : Origin) (n : Node) : Except Error (Option TypeDescriptor) :=
  choice <$> o.describeVariants [n]

theorem variant_union (label : Label) (text : String) (children : List Node) :
    o.variant (.mk .unionType label text children) = choice <$> o.describeVariants children := by
  unfold variant
  rw [describeVariants_union, describeVariants]
  simp only [ok_bind, List.append_nil, bind_pure]

theorem variant_of_ne_union {kind : Kind} (h : kind ≠ .unionType) (label : Label) (text : String)
    (children : List Node) :
    o.variant (.mk kind label text children) = some <$> o.describe (.mk kind label text children) := by
  have hchoice : ∀ t, choice [t] = some t := by
    intro t
    by_cases ht : t.name ∈ nullish <;> simp [choice, ht]
  unfold variant
  rw [describeVariants_of_ne_union h, describeVariants]
  simp only [map_eq_pure_bind, bind_assoc, ok_bind, pure_bind, hchoice]

/-- A type is described as the variant that it comes to. -/
theorem describe_eq_variant (o : Origin) (n : Node) : o.describe n = o.variant n >>= chosen := by
  obtain ⟨kind, label, text, children⟩ := n
  by_cases h : kind = .unionType
  · subst h
    rw [variant_union, describe]
    cases o.describeVariants children with
    | error e => rfl
    | ok variants => exact pick_eq_chosen variants
  · rw [variant_of_ne_union h]
    cases o.describe (.mk kind label text children) <;> rfl

theorem describe_of_variant (h : o.variant n' = o.variant n) : o.describe n' = o.describe n := by
  rw [describe_eq_variant, h, ← describe_eq_variant]

/-- The unions of whole trees have variants. -/
theorem describeVariants_ne_nil {ts : List TypeDescriptor} (ns : List Node)
    (hwhole : ∀ n ∈ ns, n.Whole) (hne : ns ≠ []) (h : o.describeVariants ns = .ok ts) : ts ≠ [] := by
  match ns with
  | [] => exact absurd rfl hne
  | .mk kind label text children :: rest =>
    have hnode := hwhole _ List.mem_cons_self
    by_cases hunion : kind = .unionType
    · subst hunion
      rw [describeVariants_union] at h
      obtain ⟨here, hhere, h⟩ := exists_of_bind_eq_ok h
      obtain ⟨later, -, h⟩ := exists_of_bind_eq_ok h
      cases h
      exact List.append_ne_nil_of_left_ne_nil
        (describeVariants_ne_nil children (fun c hc => hnode.child hc) hnode.fits hhere) later
    · rw [describeVariants_of_ne_union hunion] at h
      obtain ⟨t, -, h⟩ := exists_of_bind_eq_ok h
      obtain ⟨later, -, h⟩ := exists_of_bind_eq_ok h
      cases h
      exact List.cons_ne_nil t later

/-- A whole type comes to its descriptor. -/
theorem variant_of_whole (hn : n.Whole) : o.variant n = some <$> o.describe n := by
  obtain ⟨kind, label, text, children⟩ := n
  by_cases h : kind = .unionType
  · subst h
    rw [variant_union, describe]
    cases hvariants : o.describeVariants children with
    | error e => rfl
    | ok variants =>
      have hne := describeVariants_ne_nil children (fun c hc => hn.child hc) hn.fits hvariants
      obtain ⟨v, rest, rfl⟩ := List.exists_cons_of_ne_nil hne
      have hsome : (choice (v :: rest)).isSome = true := by simp [choice]
      obtain ⟨t, ht⟩ := Option.isSome_iff_exists.mp hsome
      show Except.ok (choice (v :: rest)) = some <$> pick (v :: rest)
      rw [pick_eq_chosen, ht]
      rfl
  · exact variant_of_ne_union h label text children

/-- A union sees nothing of a part but the variant that it comes to. -/
theorem choice_describeVariants (o : Origin) (before after : List Node) (n : Node) :
    choice <$> o.describeVariants (before ++ n :: after) = (do
      let first ← o.describeVariants before
      let v ← o.variant n
      let last ← o.describeVariants after
      return choice (first ++ (v.toList ++ last))) := by
  rw [describeVariants_append, ← List.singleton_append, describeVariants_append o [n]]
  unfold variant
  simp only [map_eq_pure_bind, bind_assoc, pure_bind, choice_append_choice]

/-! ## Spellings in place -/

theorem describe_arrayOf {x : Node} (h : ArrayOf x n) : o.describe n = .array <$> o.describe x := by
  cases h with
  | brackets label text =>
    rw [describe, describeFirst]
    cases o.describe x <;> rfl
  | named hname label text list =>
    have hcontains : arrayGenerics.contains _ = true := List.contains_iff_mem.mpr hname
    rw [describe, describeArguments, if_neg (by decide), describeArguments, if_pos rfl, describeAll,
      describeAll]
    cases o.describe x with
    | error e => rfl
    | ok t => exact if_pos hcontains

theorem variant_arrayOf {x : Node} (h : ArrayOf x n) :
    o.variant n = (fun t => some (.array t)) <$> o.describe x := by
  have hdescribe : some <$> o.describe n = (fun t => some (.array t)) <$> o.describe x := by
    rw [describe_arrayOf h, Functor.map_map]
  rw [← hdescribe]
  cases h with
  | brackets => exact variant_of_ne_union (by decide) _ _ _
  | named => exact variant_of_ne_union (by decide) _ _ _

/-- A variant that is passed over does not take the place of the one before it. -/
theorem choice_nullish (t : TypeDescriptor) {u : TypeDescriptor} (hu : u.name ∈ nullish) :
    choice [t, u] = some t := by
  by_cases ht : t.name ∈ nullish <;> simp [choice, ht, hu]

theorem variant_spelled (h : Spelled n n') : o.variant n' = o.variant n := by
  cases h with
  | wrapped hn hkind label text =>
    rw [variant_of_whole hn]
    rcases hkind with rfl | rfl
    · rw [variant_of_ne_union (by decide), describe, describeFirst]
    · rw [variant_of_ne_union (by decide), describe, describeFirst]
  | @nullable n hn word hword label text literal inner =>
    have hnullish : literalName word ∈ nullish := by
      rcases hword with rfl | rfl <;> decide
    have hword : o.describeVariants [.mk .literalType .none literal [.mk word .none inner []]] =
        .ok [.primitive (literalName word)] := by
      rw [describeVariants_of_ne_union (by decide), describe, describeVariants]
      rfl
    rw [variant_union, ← List.nil_append (n :: _), choice_describeVariants, describeVariants, hword,
      variant_of_whole hn]
    cases o.describe n with
    | error e => rfl
    | ok t => exact congrArg Except.ok (choice_nullish t hnullish)
  | grouped before group after label text text' part =>
    rw [variant_union, variant_union, describeVariants_append, describeVariants_union,
      describeVariants_append, describeVariants_append]
    simp only [bind_assoc, pure_bind, List.append_assoc]
  | array h h' => rw [variant_arrayOf h, variant_arrayOf h']

/-- The children of a node of types are described by their places. -/
theorem describe_child {kind : Kind} (hkind : holdsTypes kind = true) (hunion : kind ≠ .unionType)
    (h : o.describe n' = o.describe n) (label : Label) (text text' : String)
    (before after : List Node) :
    o.describe (.mk kind label text' (before ++ n' :: after)) =
      o.describe (.mk kind label text (before ++ n :: after)) := by
  have hfirst : o.describeFirst (before ++ n' :: after) =
      o.describeFirst (before ++ n :: after) := by
    cases before with
    | nil => rw [List.nil_append, List.nil_append, describeFirst, describeFirst, h]
    | cons m before => rw [List.cons_append, List.cons_append, describeFirst, describeFirst]
  have haccess : o.describeAccess (before ++ n' :: after) =
      o.describeAccess (before ++ n :: after) := by
    rcases before with _ | ⟨m, _ | ⟨m', before⟩⟩
    · cases after with
      | nil => rw [List.nil_append, List.nil_append, describeAccess.eq_def, describeAccess.eq_def]
      | cons m after =>
        rw [List.nil_append, List.nil_append, describeAccess, describeAccess, h]
    · rw [List.singleton_append, List.singleton_append, describeAccess, describeAccess, h]
    · rw [List.cons_append, List.cons_append, List.cons_append, List.cons_append, describeAccess,
        describeAccess]
  rw [describe.eq_def, describe.eq_def]
  cases kind with
  | unionType => exact absurd rfl hunion
  | parenthesizedType | readonlyType => exact hfirst
  | arrayType => exact congrArg (fun r => r >>= fun t => pure (TypeDescriptor.array t)) hfirst
  | lookupType => exact haccess
  | predefinedType | literalType | typeIdentifier | nestedTypeIdentifier | genericType => cases hkind
  | _ => rfl

/-- A generic type goes by its name, whatever its arguments are. -/
theorem describe_argument {name : Node} (hname : name.label = .name)
    (h : o.describe n' = o.describe n) (label : Label) (text text' list list' : String)
    (before after : List Node) :
    o.describe (.mk .genericType label text'
        [name, .mk .typeArguments .typeArguments list' (before ++ n' :: after)]) =
      o.describe (.mk .genericType label text
        [name, .mk .typeArguments .typeArguments list (before ++ n :: after)]) := by
  have hall : o.describeAll (before ++ n' :: after) = o.describeAll (before ++ n :: after) := by
    induction before with
    | nil => rw [List.nil_append, List.nil_append, describeAll, describeAll, h]
    | cons m before ih => rw [List.cons_append, List.cons_append, describeAll, describeAll, ih]
  have hnamed : ∀ (text : String) (last : Node),
      (Node.mk .genericType label text [name, last]).child? .name = some name := by
    intro text last
    exact List.find?_cons_of_pos (beq_iff_eq.mpr hname)
  have harguments : o.describeArguments
        [name, .mk .typeArguments .typeArguments list' (before ++ n' :: after)] =
      o.describeArguments
        [name, .mk .typeArguments .typeArguments list (before ++ n :: after)] := by
    obtain ⟨kind, _, word, parts⟩ := name
    obtain rfl := hname
    rw [describeArguments, if_neg (by decide), describeArguments, if_pos rfl, hall,
      describeArguments, if_neg (by decide), describeArguments, if_pos rfl]
  rw [describe, describe, hnamed, hnamed, harguments]

theorem variant_respelled (h : Respelled n n') : o.variant n' = o.variant n := by
  induction h with
  | here h => exact variant_spelled h
  | @child kind hkind label text text' before after n n' _ ih =>
    by_cases hunion : kind = .unionType
    · subst hunion
      rw [variant_union, variant_union, choice_describeVariants, choice_describeVariants, ih]
    · rw [variant_of_ne_union hunion, variant_of_ne_union hunion,
        describe_child hkind hunion (describe_of_variant ih) label text]
  | argument hname label text text' list list' before after _ ih =>
    rw [variant_of_ne_union (by decide), variant_of_ne_union (by decide),
      describe_argument hname (describe_of_variant ih) label text text' list]

/-- Types that differ only in how some of their parts are spelled have the same descriptor, and fail in
the same way, in every source. -/
theorem describe_respelled (h : Relation.EqvGen Respelled n n') (o : Origin) :
    o.describe n' = o.describe n := by
  induction h with
  | rel n n' h => exact describe_of_variant (variant_respelled h)
  | refl n => rfl
  | symm n n' _ ih => exact ih.symm
  | trans n m n' _ _ ih ih' => exact ih'.trans ih

/-! ## Promises of users -/

/-- The type that a text is read as. -/
def typeOf (text : String) : Option Node :=
  (TypeReader.read? false (Tree.ofTokens (tokens text.toList))).map (·.1)

def user : Node := .mk .typeIdentifier .none "User" []

/-- A list of users. -/
def users : Node := .mk .arrayType .none "User[]" [user]

/-- The same list by name and in brackets. -/
def namedUsers : Node :=
  .mk .genericType .none "Array<User>" [.mk .typeIdentifier .name "Array" [],
    .mk .typeArguments .typeArguments "<User>" [user]]

def wrappedUsers : Node := .mk .parenthesizedType .none "(Array<User>)" [namedUsers]

/-- A type with an argument. -/
def promiseOf (text list : String) (argument : Node) : Node :=
  .mk .genericType .none text [.mk .typeIdentifier .name "Promise" [],
    .mk .typeArguments .typeArguments list [argument]]

def nullableUsers : Node :=
  .mk .unionType .none "(Array<User>)|null"
    [wrappedUsers, .mk .literalType .none "null" [.mk .nullLiteral .none "null" []]]

theorem whole_user : user.Whole := Node.whole_leaf _ _ trivial

theorem whole_namedUsers : namedUsers.Whole := by
  refine .mk ⟨_, List.mem_cons_self, rfl⟩ (Node.forall_pair (Node.whole_leaf _ _ trivial) ?_)
  exact .mk trivial (List.forall_mem_singleton.mpr whole_user)

theorem whole_wrappedUsers : wrappedUsers.Whole :=
  .mk (List.cons_ne_nil _ _) (List.forall_mem_singleton.mpr whole_namedUsers)

/-- Three spellings at one place in a type, one after another. -/
theorem describe_respelled_promise :
    ∃ n n', typeOf "Promise<User[]>" = some n ∧ typeOf "Promise<(Array<User>)|null>" = some n' ∧
      ∀ o : Origin, o.describe n' = o.describe n := by
  refine ⟨promiseOf "Promise<User[]>" "<User[]>" users,
    promiseOf "Promise<(Array<User>)|null>" "<(Array<User>)|null>" nullableUsers, by cbv, by cbv,
    describe_respelled ?_⟩
  have hat : ∀ (text text' list list' : String) (n n' : Node), Spelled n n' →
      Respelled (promiseOf text list n) (promiseOf text' list' n') :=
    fun text text' list list' n n' h => .argument rfl .none text text' list list' [] [] (.here h)
  have harray : Spelled users namedUsers :=
    .array (.brackets .none "User[]") (.named (by decide) .none "Array<User>" "<User>")
  have hwrapped : Spelled namedUsers wrappedUsers :=
    .wrapped whole_namedUsers (Or.inl rfl) .none "(Array<User>)"
  have hnullable : Spelled wrappedUsers nullableUsers :=
    .nullable whole_wrappedUsers (Or.inl rfl) .none "(Array<User>)|null" "null" "null"
  exact .trans _ _ _ (.rel _ _ (hat _ "Promise<Array<User>>" _ "<Array<User>>" _ _ harray))
    (.trans _ _ _ (.rel _ _ (hat _ "Promise<(Array<User>)>" _ "<(Array<User>)>" _ _ hwrapped))
      (.rel _ _ (hat _ _ _ _ _ _ hnullable)))

end Origin

end DartModels
