import DartModels.Syntax.Declarations

/-!
# Readers of sources

The parser of TypeScript is a program of its own.  A project is given one, and relies on it for no
more than the nodes of its trees.

* `Reader`: a parser.
* `Node.Whole`: a tree whose nodes have the children that are looked up in them.
* `Reader.Lawful`: the trees of sources without errors are whole.
-/

namespace DartModels

namespace Syntax

/-- A parser of TypeScript. -/
structure Reader where
  /-- The tree of a source. -/
  read : List Char → Node
  /-- Whether a source has errors, so that its tree is only a part. -/
  hasError : List Char → Bool
  /-- A bound on the classes of a source, which can be told without reading it. -/
  classBound : List Char → Nat
  length_classes_le : ∀ text, (read text).classes.length ≤ classBound text

/-- A reader that finds nothing. -/
instance : Inhabited Reader where
  default :=
    { read := fun _ => .mk .program .none "" []
      hasError := fun _ => false
      classBound := fun _ => 0
      length_classes_le := fun _ => Nat.le_refl 0 }

/-- The children that are looked up in a node of a kind are there. -/
def Fits (children : List Node) : Kind → Prop
  | .parenthesizedType | .readonlyType | .literalType | .arrayType | .unionType
  | .nestedTypeIdentifier | .memberExpression => children ≠ []
  | .lookupType => 2 ≤ children.length
  | .genericType => ∃ c ∈ children, c.label = .name
  | _ => True

/-- A node and all nodes below it have the children that are looked up in them. -/
inductive Node.Whole : Node → Prop where
  | mk {kind : Kind} {label : Label} {text : String} {children : List Node}
      (fits : Fits children kind) (below : ∀ c ∈ children, Whole c) :
      Whole (.mk kind label text children)

namespace Node

variable {n c : Node}

theorem Whole.fits (h : n.Whole) : Fits n.children n.kind := by
  cases h with
  | mk hfits _ => exact hfits

theorem Whole.child (h : n.Whole) (hc : c ∈ n.children) : c.Whole := by
  cases h with
  | mk _ hbelow => exact hbelow c hc

theorem Whole.child? {l : Label} (h : n.Whole) (hc : n.child? l = some c) : c.Whole :=
  h.child (List.mem_of_find?_eq_some hc)

theorem Whole.childrenOf {k : Kind} (h : n.Whole) (hc : c ∈ n.childrenOf k) : c.Whole :=
  h.child (List.mem_filter.mp hc).1

/-- A statement declares a class itself, or it is an export of the class. -/
theorem declaredClass?_cases {statement cls : Node} {exported : Option Node}
    (h : declaredClass? statement = some (cls, exported)) :
    statement = cls ∧ exported = none ∨
      statement.kind = .exportStatement ∧ statement.child? .declaration = some cls ∧
        exported = some statement := by
  unfold declaredClass? at h
  split at h
  · cases h
    exact .inl ⟨rfl, rfl⟩
  · split at h
    · next hkind =>
      split at h
      · next d hd =>
        split at h
        · cases h
          exact .inr ⟨beq_iff_eq.mp hkind, hd, rfl⟩
        · cases h
      · cases h
    · cases h

theorem Whole.classes (h : n.Whole) {declared : Node × Surroundings}
    (hd : declared ∈ n.classes) : declared.1.Whole := by
  obtain ⟨⟨statement, i⟩, hstatement, hd⟩ := List.mem_filterMap.mp hd
  obtain ⟨⟨cls, exported⟩, hdeclared, rfl⟩ := Option.map_eq_some_iff.mp hd
  replace hstatement := h.child (List.fst_mem_of_mem_zipIdx hstatement)
  rcases declaredClass?_cases hdeclared with ⟨rfl, -⟩ | ⟨-, hchild, -⟩
  · exact hstatement
  · exact hstatement.child? hchild

theorem Whole.properties {m : Node} (h : n.Whole) (hm : m ∈ n.properties) : m.Whole := by
  unfold Node.properties at hm
  split at hm
  · next body hbody => exact (h.child? hbody).childrenOf hm
  · cases hm

/-- The type of a property is one of the nodes below it. -/
theorem Whole.propertyType? {t : Node} (h : n.Whole) (ht : n.propertyType? = some t) : t.Whole := by
  obtain ⟨a, ha, hat⟩ := Option.bind_eq_some_iff.mp ht
  exact (h.child? ha).child (List.mem_of_head? hat)

theorem Whole.lastPart (h : n.Whole)
    (hkind : n.kind = .memberExpression ∨ n.kind = .nestedTypeIdentifier) :
    ∃ name, n.lastPart = .ok name := by
  have hfits := h.fits
  have hne : n.children ≠ [] := by
    rcases hkind with hkind | hkind <;> rwa [hkind] at hfits
  obtain ⟨last, hlast⟩ := exists_lastOf hne
  exact ⟨last.text, congrArg (Functor.map Node.text) hlast⟩

theorem Whole.heritageName (h : n.Whole) : ∃ name, n.heritageName = .ok name := by
  unfold Node.heritageName
  dsimp only
  generalize hnamed : (if n.kind == .genericType then (n.child? .name).getD n else n) = named
  have hwhole : named.Whole := by
    rw [← hnamed]
    split
    · cases hchild : n.child? .name with
      | none => exact h
      | some c => exact h.child? hchild
    · exact h
  split
  · next hkind => exact hwhole.lastPart (by simpa using hkind)
  · exact ⟨named.text, rfl⟩

theorem Whole.clauses {k : Kind} (h : n.Whole) (hc : c ∈ n.clauses k) : c.Whole := by
  obtain ⟨clause, hclause, hc⟩ := List.mem_flatMap.mp hc
  obtain ⟨heritage, hheritage, hclause⟩ := List.mem_flatMap.mp hclause
  exact ((h.childrenOf hheritage).childrenOf hclause).child hc

/-- What a class extends and implements has names. -/
theorem Whole.heritageNames (h : n.Whole) : ∃ names, n.heritageNames = .ok names := by
  obtain ⟨bases, hbases⟩ := exists_mapM_eq_ok.mpr
    (fun v hv => (h.clauses (List.mem_filter.mp hv).1).heritageName :
      ∀ v ∈ (n.clauses .extendsClause).filter fun v => v.label == .value,
        ∃ name, v.heritageName = .ok name)
  obtain ⟨interfaces, hinterfaces⟩ := exists_mapM_eq_ok.mpr
    (fun v hv => (h.clauses hv).heritageName :
      ∀ v ∈ n.clauses .implementsClause, ∃ name, v.heritageName = .ok name)
  unfold Node.heritageNames
  rw [hbases, hinterfaces]
  exact ⟨(bases, interfaces), rfl⟩

end Node

end Syntax

end DartModels
