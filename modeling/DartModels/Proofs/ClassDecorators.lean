import Mathlib.Data.List.DropRight
import DartModels.Proofs.ModelImports
import DartModels.Proofs.WholeTrees
import DartModels.Proofs.LoadedSource

/-!
# The decorators of a class

A decorator of a class stands in the class, or in the export around it before the declaration.  The
search looks back over the row before a node, which a comment cuts short, and at what the node
holds, so the same decorator can be met twice: from the class and from the export.

    around.Attached → classDecorators = decorators of the export ++ those of the class
                                                          (classDecorators_eq)
    tree = read text → around.Attached                                    (attached_read)
    around.Attached → each decorator is named once, in the order of the places, and the
      decorator rule approves the class iff one of them has the name      (decorators_complete)
-/

namespace DartModels

namespace Syntax

/-! ## Places -/

namespace Node

/-- The node at a place of a tree. -/
def at? : Node → List Nat → Option Node
  | n, [] => some n
  | n, i :: place => n.children[i]?.bind fun c => c.at? place

/-- The number of the child that an export declares. -/
def declarationIdx (e : Node) : Nat := e.children.findIdx fun c => c.label == .declaration

theorem at?_concat {n m : Node} {place : List Nat} (h : n.at? place = some m) (i : Nat) :
    n.at? (place ++ [i]) = m.children[i]? := by
  induction place generalizing n with
  | nil =>
    cases h
    exact Option.bind_fun_some _
  | cons j place ih =>
    obtain ⟨c, hc, h⟩ := Option.bind_eq_some_iff.mp h
    show (n.children[j]?.bind fun c => c.at? (place ++ [i])) = _
    rw [hc]
    exact ih h

theorem getElem?_declarationIdx {e d : Node} (h : e.child? .declaration = some d) :
    e.children[e.declarationIdx]? = some d :=
  List.find?_eq_getElem?_findIdx.symm.trans h

end Node

namespace Placed

theorem getElem?_children (n : Placed) (i : Nat) :
    n.children[i]? = n.node.children[i]?.map fun c => ⟨n.place ++ [i], c⟩ := by
  simp [children, Function.comp_def]

theorem length_children (n : Placed) : n.children.length = n.node.children.length := by
  simp [children]

theorem mem_children {n d : Placed} :
    d ∈ n.children ↔ ∃ i, d.place = n.place ++ [i] ∧ n.node.children[i]? = some d.node := by
  rw [List.mem_iff_getElem?]
  refine exists_congr fun i => ?_
  rw [getElem?_children, Option.map_eq_some_iff]
  constructor
  · rintro ⟨c, hc, rfl⟩
    exact ⟨rfl, hc⟩
  · rintro ⟨hplace, hd⟩
    exact ⟨d.node, hd, by rw [← hplace]⟩

theorem map_node_children (n : Placed) : n.children.map node = n.node.children := by
  refine List.ext_getElem? fun i => ?_
  rw [List.getElem?_map, getElem?_children, Option.map_map]
  exact Option.map_id_apply

/-- The children of a node stand in the order of their places. -/
theorem increasing_children (n : Placed) : n.children.Pairwise fun a b => a.place < b.place := by
  rw [List.pairwise_iff_getElem]
  intro i j hi hj hij
  simp only [children, List.getElem_map, List.getElem_zipIdx, Nat.zero_add]
  exact List.append_left_lt (List.cons_lt_cons_iff.mpr (.inl hij))

/-- The row before the declaration of an export. -/
theorem takeWhile_children (n : Placed) :
    (n.children.takeWhile fun c => c.node.label != .declaration) =
      n.children.take n.node.declarationIdx := by
  rw [List.takeWhile_eq_take_findIdx_not, Node.declarationIdx, ← map_node_children, List.findIdx_map]
  simp [Function.comp_def, bne]

/-! ## Rows of decorators -/

theorem closing_eq_nil {row : List Placed} (h : ∀ n ∈ row.getLast?, n.isDecorator = false) :
    closing row = [] := by
  refine List.rtakeWhile_eq_nil_iff.mpr fun hrow hlast => ?_
  rw [h _ (List.getLast?_eq_some_getLast hrow)] at hlast
  cases hlast

/-- The decorators of a row: those before the last node that is none, and those that end it. -/
theorem filter_row (row : List Placed) :
    row.filter isDecorator = (row.rdropWhile isDecorator).filter isDecorator ++ closing row := by
  have hclosing : (row.rtakeWhile isDecorator).filter isDecorator = row.rtakeWhile isDecorator :=
    List.filter_eq_self.mpr fun _ hd => List.mem_rtakeWhile_imp hd
  calc row.filter isDecorator
    _ = (row.rdropWhile isDecorator ++ row.rtakeWhile isDecorator).filter isDecorator := by
      rw [List.rdropWhile_append_rtakeWhile]
    _ = (row.rdropWhile isDecorator).filter isDecorator ++ closing row := by
      rw [List.filter_append, hclosing]
      rfl

/-- Of two rows that share the decorators at the end of the first one, those of the first row that
are apart from the second one. -/
theorem filter_apart {first shared more : List Placed}
    (h : ∀ d ∈ first, ∀ c ∈ shared ++ more, c.place ≠ d.place) :
    (first ++ shared).filter (fun d => (shared ++ more).all fun c => c.place != d.place) =
      first := by
  have hfirst : first.filter (fun d => (shared ++ more).all fun c => c.place != d.place) = first :=
    List.filter_eq_self.mpr fun d hd => List.all_eq_true.mpr fun c hc => bne_iff_ne.mpr (h d hd c hc)
  have hshared :
      shared.filter (fun d => (shared ++ more).all fun c => c.place != d.place) = [] := by
    refine List.filter_eq_nil_iff.mpr fun d hd hall => ?_
    have hne := List.all_eq_true.mp hall d (List.mem_append_left more hd)
    exact bne_iff_ne.mp hne rfl
  rw [List.filter_append, hfirst, hshared, List.append_nil]

end Placed

/-! ## Attached decorators -/

namespace Surroundings

/-- The place of the statement that declares the class. -/
def statement (around : Surroundings) : List Nat := [around.before.length]

/-- The place of the class. -/
def place (around : Surroundings) : List Nat :=
  match around.exported with
  | none => around.statement
  | some e => around.statement ++ [e.declarationIdx]

/-- The decorators of the class stand in the class, or in the export before the declaration. -/
structure Attached (around : Surroundings) : Prop where
  apart : ∀ n ∈ around.before.getLast?, n.isDecorator = false
  ahead : ∀ e ∈ around.exported, ∀ c ∈ e.children.drop e.declarationIdx, c.kind ≠ .decorator

end Surroundings

namespace Node

open Placed

variable {cls : Node} {around : Surroundings}

/-- The decorators that an export holds stand in the row before the declaration. -/
theorem filter_takeWhile (outer : Placed)
    (h : ∀ c ∈ outer.node.children.drop outer.node.declarationIdx, c.kind ≠ .decorator) :
    outer.children.filter isDecorator =
      (outer.children.takeWhile fun c => c.node.label != .declaration).filter isDecorator := by
  have hrest : (outer.children.drop outer.node.declarationIdx).filter isDecorator = [] := by
    refine List.filter_eq_nil_iff.mpr fun d hd hdecorator => ?_
    refine h d.node ?_ (beq_iff_eq.mp hdecorator)
    rw [← map_node_children, ← List.map_drop]
    exact List.mem_map_of_mem hd
  rw [takeWhile_children]
  conv_lhs => rw [← List.take_append_drop outer.node.declarationIdx outer.children,
    List.filter_append, hrest, List.append_nil]

/-- What the class finds is apart from the decorators before those right before it. -/
theorem apart_near {outer : Placed} {row : List Placed} (hrow : row <+: outer.children)
    (inner : Placed) (hinner : inner.place = outer.place ++ [row.length]) :
    ∀ d ∈ (row.rdropWhile isDecorator).filter isDecorator,
      ∀ c ∈ closing row ++ inner.children.filter isDecorator, c.place ≠ d.place := by
  intro d hd c hc
  have hfirst := (List.mem_filter.mp hd).1
  rcases List.mem_append.mp hc with hc | hc
  · have hincreasing := outer.increasing_children.sublist hrow.sublist
    rw [← List.rdropWhile_append_rtakeWhile (p := isDecorator) (l := row)] at hincreasing
    have hlt := (List.pairwise_append.mp hincreasing).2.2 d hfirst c hc
    exact fun h => List.lt_irrefl _ (h ▸ hlt)
  · obtain ⟨i, hdplace, -⟩ := mem_children.mp
      (hrow.subset ((List.rdropWhile_prefix isDecorator row).subset hfirst))
    obtain ⟨j, hcplace, -⟩ := mem_children.mp (List.mem_filter.mp hc).1
    intro h
    have hlength := congrArg List.length h
    simp [hcplace, hdplace, hinner] at hlength

/-- What both searches find, each decorator once. -/
theorem merged {outer : Placed} (hdeclared : outer.node.child? .declaration = some cls)
    (hahead : ∀ c ∈ outer.node.children.drop outer.node.declarationIdx, c.kind ≠ .decorator)
    {row near : List Placed}
    (hrow : row = outer.children.takeWhile fun c => c.node.label != .declaration)
    (hnear : near = Placed.decorators row ⟨outer.place ++ [row.length], cls⟩) :
    (outer.children.filter isDecorator).filter (fun d => near.all fun c => c.place != d.place) ++
        near =
      outer.children.filter isDecorator ++
        (Placed.children ⟨outer.place ++ [outer.node.declarationIdx], cls⟩).filter isDecorator := by
  have hprefix : row <+: outer.children := hrow ▸ List.takeWhile_prefix _
  have hlength : row.length = outer.node.declarationIdx := by
    obtain ⟨hidx, -⟩ := List.getElem?_eq_some_iff.mp (getElem?_declarationIdx hdeclared)
    rw [hrow, takeWhile_children, List.length_take, length_children]
    exact Nat.min_eq_left (Nat.le_of_lt hidx)
  have hheld : outer.children.filter isDecorator =
      (row.rdropWhile isDecorator).filter isDecorator ++ closing row := by
    rw [filter_takeWhile outer hahead, ← hrow, filter_row]
  have hapart := filter_apart (apart_near hprefix ⟨outer.place ++ [row.length], cls⟩ rfl)
  rw [hheld, hnear, ← hlength]
  unfold Placed.decorators
  rw [hapart, List.append_assoc]

/-- The decorators of a class, without the search: those of the export, then those of the class. -/
theorem classDecorators_eq (h : around.Attached)
    (hdeclared : ∀ e ∈ around.exported, e.child? .declaration = some cls) :
    cls.classDecorators around =
      (around.exported.elim [] fun e =>
        (Placed.children ⟨around.statement, e⟩).filter isDecorator) ++
      (Placed.children ⟨around.place, cls⟩).filter isDecorator := by
  have hbefore : ∀ n, Placed.decorators around.before n = n.children.filter isDecorator := by
    intro n
    unfold Placed.decorators
    rw [closing_eq_nil h.apart, List.nil_append]
  unfold classDecorators Surroundings.place
  simp only [hbefore]
  cases hexported : around.exported with
  | none => rfl
  | some e =>
    exact @merged cls ⟨around.statement, e⟩ (hdeclared e hexported) (h.ahead e hexported) _ _ rfl rfl

/-! ## Declared classes -/

/-- The statement that declares a class. -/
theorem exists_statement {program : Node} (h : (cls, around) ∈ program.classes) :
    ∃ statement, program.children[around.before.length]? = some statement ∧
      declaredClass? statement = some (cls, around.exported) ∧
      around.before = (Placed.children ⟨[], program⟩).take around.before.length := by
  obtain ⟨⟨statement, i⟩, hmem, h⟩ := List.mem_filterMap.mp h
  obtain ⟨⟨c, exported⟩, hdeclared, h⟩ := Option.map_eq_some_iff.mp h
  cases h
  have hget := List.mem_zipIdx_iff_getElem?.mp hmem
  obtain ⟨hi, -⟩ := List.getElem?_eq_some_iff.mp hget
  have hlength : ((Placed.children ⟨[], program⟩).take i).length = i := by
    rw [List.length_take, length_children]
    exact Nat.min_eq_left (Nat.le_of_lt hi)
  refine ⟨statement, ?_, hdeclared, ?_⟩
  · rw [hlength]
    exact hget
  · rw [hlength]

/-- Where a class is declared. -/
theorem exists_place {program : Node} (h : (cls, around) ∈ program.classes) :
    program.at? around.place = some cls ∧
      ∀ e ∈ around.exported, program.at? around.statement = some e ∧
        e.child? .declaration = some cls := by
  obtain ⟨statement, hstatement, hdeclared, -⟩ := exists_statement h
  have hat : program.at? around.statement = some statement :=
    (@at?_concat program program [] rfl _).trans hstatement
  unfold Surroundings.place
  rcases declaredClass?_cases hdeclared with ⟨rfl, hexported⟩ | ⟨-, hchild, hexported⟩
  · rw [hexported]
    refine ⟨hat, ?_⟩
    rintro e ⟨⟩
  · rw [hexported]
    refine ⟨(at?_concat hat _).trans (getElem?_declarationIdx hchild), ?_⟩
    rintro e ⟨⟩
    exact ⟨hat, hchild⟩

/-- Whether a node is one of the decorators of a class. -/
def Decorates (program : Node) (around : Surroundings) (d : Placed) : Prop :=
  d.node.kind = .decorator ∧ program.at? d.place = some d.node ∧
    ∃ i, d.place = around.place ++ [i] ∨
      around.exported.isSome ∧ d.place = around.statement ++ [i]

theorem mem_filter_children {program n : Node} {place : List Nat} (h : program.at? place = some n)
    (d : Placed) : d ∈ (Placed.children ⟨place, n⟩).filter isDecorator ↔
      d.node.kind = .decorator ∧ program.at? d.place = some d.node ∧ ∃ i, d.place = place ++ [i] := by
  rw [List.mem_filter, mem_children]
  constructor
  · rintro ⟨⟨i, hplace, hd⟩, hkind⟩
    refine ⟨beq_iff_eq.mp hkind, ?_, i, hplace⟩
    rw [hplace, at?_concat h]
    exact hd
  · rintro ⟨hkind, hat, i, hplace⟩
    refine ⟨⟨i, hplace, ?_⟩, beq_iff_eq.mpr hkind⟩
    rw [hplace, at?_concat h] at hat
    exact hat

theorem mem_classDecorators {program : Node} (hcls : (cls, around) ∈ program.classes)
    (h : around.Attached) (d : Placed) :
    d ∈ cls.classDecorators around ↔ program.Decorates around d := by
  obtain ⟨hplace, hexported⟩ := exists_place hcls
  rw [classDecorators_eq h fun e he => (hexported e he).2, List.mem_append,
    mem_filter_children hplace]
  unfold Decorates
  cases hsome : around.exported with
  | none => simp
  | some e =>
    rw [Option.elim_some, mem_filter_children (hexported e hsome).1]
    simp only [Option.isSome_some, true_and, exists_or, ← and_or_left]
    rw [or_comm]

/-- A child before the declaration comes before everything that the declared class holds. -/
theorem place_lt {place : List Nat} {i idx : Nat} (h : i < idx) (j : Nat) :
    place ++ [i] < place ++ [idx] ++ [j] := by
  rw [List.append_assoc]
  exact List.append_left_lt (List.cons_lt_cons_iff.mpr (.inl h))

/-- The decorators of a class stand in the order of their places. -/
theorem increasing_classDecorators (h : around.Attached)
    (hdeclared : ∀ e ∈ around.exported, e.child? .declaration = some cls) :
    (cls.classDecorators around).Pairwise fun a b => a.place < b.place := by
  have hnear := (increasing_children ⟨around.place, cls⟩).filter isDecorator
  rw [classDecorators_eq h hdeclared]
  cases hexported : around.exported with
  | none => exact hnear
  | some e =>
    have houter := (increasing_children ⟨around.statement, e⟩).filter isDecorator
    refine List.pairwise_append.mpr ⟨houter, hnear, fun d hd c hc => ?_⟩
    obtain ⟨hd, hkind⟩ := List.mem_filter.mp hd
    obtain ⟨i, hdplace, hget⟩ := mem_children.mp hd
    obtain ⟨j, hcplace, -⟩ := mem_children.mp (List.mem_filter.mp hc).1
    have hi : i < e.declarationIdx := by
      by_contra hi
      refine h.ahead e hexported d.node ?_ (beq_iff_eq.mp hkind)
      refine List.mem_iff_getElem?.mpr ⟨i - e.declarationIdx, ?_⟩
      rw [List.getElem?_drop, Nat.add_sub_cancel' (Nat.le_of_not_lt hi)]
      exact hget
    have hplace : around.place = around.statement ++ [e.declarationIdx] := by
      unfold Surroundings.place
      rw [hexported]
    rw [hdplace, hcplace, hplace]
    exact place_lt hi j

end Node

/-! ## What is read -/

/-- Whether a statement is no decorator, and has none from its declaration on if it is an export. -/
structure Node.Tidy (n : Node) : Prop where
  apart : n.kind ≠ .decorator
  ahead : n.kind = .exportStatement → ∀ c ∈ n.children.drop n.declarationIdx, c.kind ≠ .decorator

theorem Node.tidy_of_kind {n : Node} {k : Kind} (hkind : n.kind = k) (h : k ≠ .decorator)
    (h' : k ≠ .exportStatement) : n.Tidy := by
  subst hkind
  exact ⟨h, fun hexport => absurd hexport h'⟩

theorem Node.tidy_of_isClass {n : Node} (h : n.isClass = true) : n.Tidy := by
  rcases Bool.or_eq_true_iff.mp h with hkind | hkind
  all_goals
    rw [beq_iff_eq] at hkind
    exact tidy_of_kind hkind (by decide) (by decide)

theorem Node.label_labelled (l : Label) (n : Node) : (n.labelled l).label = l := by
  cases n
  rfl

theorem Node.isClass_labelled (l : Label) (n : Node) : (n.labelled l).isClass = n.isClass := by
  cases n
  rfl

namespace ClassReader

theorem label_comments (ts : List Tree) : ∀ n ∈ Node.ofComments ts, n.label = .none := by
  intro n hn
  obtain ⟨t, -, rfl⟩ := List.mem_map.mp hn
  rfl

theorem label_readDecorators (fuel : Nat) (ts : List Tree) :
    ∀ n ∈ (readDecorators fuel ts).1, n.label = .none := by
  induction fuel generalizing ts with
  | zero => exact List.forall_mem_nil _
  | succ fuel ih =>
    rw [readDecorators]
    split
    · exact List.forall_mem_nil _
    · split
      · exact List.forall_mem_nil _
      · next rest _ =>
        exact List.forall_mem_cons.mpr
          ⟨rfl, List.forall_mem_append.mpr ⟨label_comments _, ih rest⟩⟩

theorem isClass_readClass? {decorators : List Node} {ts rest : List Tree} {node : Node}
    (h : readClass? decorators ts = some (node, rest)) : node.isClass = true := by
  unfold readClass? at h
  simp only [Option.bind_eq_bind, Option.bind_some] at h
  split at h
  -- An abstract class has one more keyword.
  on_goal 2 => obtain ⟨_, -, h⟩ := Option.bind_eq_some_iff.mp h
  all_goals
    obtain ⟨⟨w, named⟩, -, h⟩ := Option.bind_eq_some_iff.mp h
    split at h
    · cases h
    · obtain ⟨⟨content, _⟩, -, h⟩ := Option.bind_eq_some_iff.mp h
      cases h
      rfl

end ClassReader

namespace ModuleReader

open ClassReader

theorem tidy_plain (rest : List Tree) : (plain rest).1.Tidy :=
  Node.tidy_of_kind (k := .statement) rfl (by decide) (by decide)

theorem tidy_readPlain (fuel : Nat) (ts : List Tree) : (readPlain fuel ts).1.Tidy := by
  cases fuel with
  | zero => exact tidy_plain _
  | succ fuel =>
    rw [readPlain.eq_def]
    dsimp only
    -- One case for each way a statement may start; only imports have nodes of their own.
    repeat' split
    all_goals
      first
      | exact tidy_plain _
      | exact Node.tidy_of_kind (k := .importStatement) rfl (by decide) (by decide)

/-- An export of a class: a row without labels, then the declaration. -/
theorem tidy_declaration {row : List Node} {declaration : Node} (start rest : List Tree)
    (hrow : ∀ n ∈ row, n.label = .none) (hlabel : declaration.label = .declaration)
    (hkind : declaration.kind ≠ .decorator) :
    (Node.covering .exportStatement start rest (row ++ [declaration])).Tidy := by
  have hidx : (Node.covering .exportStatement start rest (row ++ [declaration])).declarationIdx =
      row.length := by
    have hnone : row.findIdx (fun c => c.label == .declaration) = row.length :=
      List.findIdx_eq_length.mpr fun n hn => by rw [hrow n hn]; rfl
    show (row ++ [declaration]).findIdx (fun c => c.label == .declaration) = _
    rw [List.findIdx_append, hnone, if_neg (Nat.lt_irrefl _), List.findIdx_cons, hlabel]
    exact Nat.zero_add _
  have hexport : Kind.exportStatement ≠ .decorator := by decide
  refine ⟨hexport, fun _ => ?_⟩
  rw [hidx]
  show ∀ c ∈ (row ++ [declaration]).drop row.length, c.kind ≠ .decorator
  rw [List.drop_left]
  exact List.forall_mem_singleton.mpr hkind

/-- An export of anything else: a row without labels. -/
theorem tidy_row {row : List Node} (start rest : List Tree) (hrow : ∀ n ∈ row, n.label = .none) :
    (Node.covering .exportStatement start rest row).Tidy := by
  have hidx : (Node.covering .exportStatement start rest row).declarationIdx = row.length :=
    List.findIdx_eq_length.mpr fun n hn => by rw [hrow n hn]; rfl
  have hexport : Kind.exportStatement ≠ .decorator := by decide
  refine ⟨hexport, fun _ => ?_⟩
  rw [hidx]
  show ∀ c ∈ row.drop row.length, c.kind ≠ .decorator
  rw [List.drop_length]
  exact List.forall_mem_nil _

theorem tidy_readExport (fuel : Nat) {before : List Node} (h : ∀ n ∈ before, n.label = .none)
    (start ts : List Tree) : (readExport fuel before start ts).1.Tidy := by
  cases fuel with
  | zero => exact tidy_plain _
  | succ fuel =>
    rw [readExport]
    dsimp only
    split
    · next node rest hnode =>
      have hclass := (Node.isClass_labelled .declaration node).trans (isClass_readClass? hnode)
      exact tidy_declaration _ _ (List.forall_mem_append.mpr ⟨h, label_comments _⟩)
        (Node.label_labelled _ _) (Node.tidy_of_isClass hclass).apart
    · exact tidy_row _ _ h

theorem tidy_readStatement (fuel : Nat) (ts : List Tree) : (readStatement fuel ts).1.Tidy := by
  cases fuel with
  | zero => exact tidy_plain _
  | succ fuel =>
    rw [readStatement]
    dsimp only
    split
    · next node rest hnode =>
      exact Node.tidy_of_isClass ((Node.isClass_labelled _ _).trans (isClass_readClass? hnode))
    · split
      · exact tidy_readExport fuel (label_readDecorators _ _) _ _
      · exact tidy_readPlain fuel _

theorem tidy_readStatements (fuel depth : Nat) (ts : List Tree) :
    ∀ n ∈ readStatements fuel depth ts, n.Tidy := by
  induction fuel generalizing ts with
  | zero => exact List.forall_mem_nil _
  | succ fuel ih =>
    rw [readStatements]
    split
    · exact List.forall_mem_nil _
    · exact List.forall_mem_cons.mpr ⟨tidy_readStatement _ _, ih _⟩

/-- Whatever a source holds, the decorators of its classes are attached. -/
theorem attached_read {source : List Char} {cls : Node} {around : Surroundings}
    (h : (cls, around) ∈ (read source).classes) : around.Attached := by
  have htidy : ∀ n ∈ (read source).children, n.Tidy := tidy_readStatements _ _ _
  obtain ⟨statement, hstatement, hdeclared, hbefore⟩ := Node.exists_statement h
  refine ⟨fun n hn => ?_, fun e he => ?_⟩
  · rw [hbefore] at hn
    have hmem := List.mem_of_mem_take (List.mem_of_mem_getLast? hn)
    obtain ⟨i, -, hget⟩ := Placed.mem_children.mp hmem
    exact beq_eq_false_iff_ne.mpr (htidy _ (List.mem_of_getElem? hget)).apart
  · rcases Node.declaredClass?_cases hdeclared with ⟨-, hexported⟩ | ⟨hkind, -, hexported⟩
    · rw [hexported] at he
      cases he
    · rw [hexported] at he
      cases he
      exact (htidy _ (List.mem_of_getElem? hstatement)).ahead hkind

end ModuleReader

end Syntax

/-! ## The decorator rule -/

namespace Project

open Syntax

theorem isEntity_iff (p : Project) {path : String} {cls : Node} {around : Surroundings}
    {c : EntityClass} (hc : p.entityClass path cls around = .ok c)
    (h : p.rule.subject = .decorators) : c.isEntity = true ↔
      ∃ d ∈ cls.classDecorators around, p.rule.value = .str d.node.decoratorName := by
  obtain ⟨-, -, -, hdecorators, hentity⟩ := entityClass_eq_ok hc
  rw [hentity, hdecorators]
  unfold EntityRule.approves Node.decoratorNames
  rw [h]
  simp [Dart.same_str]

/-- The names of the decorators of a class are those of all of them, each once and in the order of
the source, and the decorator rule approves the class iff one of them has the name of the rule. -/
theorem decorators_complete (p : Project) (path : String) {program cls : Node}
    {around : Surroundings} (hcls : (cls, around) ∈ program.classes) (h : around.Attached) :
    program.at? around.place = some cls ∧
      (∀ e ∈ around.exported, program.at? around.statement = some e) ∧
      ∃ decorators : List Placed,
        (∀ d, d ∈ decorators ↔ program.Decorates around d) ∧
        decorators.Pairwise (fun a b => a.place < b.place) ∧
        cls.decoratorNames around = decorators.map (fun d => d.node.decoratorName) ∧
        (p.rule.subject = .decorators → ∀ c, p.entityClass path cls around = .ok c →
          (c.isEntity = true ↔ ∃ d ∈ decorators, p.rule.value = .str d.node.decoratorName)) := by
  obtain ⟨hplace, hexported⟩ := Node.exists_place hcls
  refine ⟨hplace, fun e he => (hexported e he).1, cls.classDecorators around, ?_, ?_, rfl, ?_⟩
  · exact Node.mem_classDecorators hcls h
  · exact Node.increasing_classDecorators h fun e he => (hexported e he).2
  · exact fun hrule c hc => isEntity_iff p hc hrule

/-- Comments cut both rows of decorators short. -/
def interleaved : String := "@A /*1*/ @B export /*2*/ @C /*3*/ @D class E\x7b\x7d"

/-- A project whose entities carry the decorator `B`. -/
def requiringB : Project := { (default : Project) with rule := ⟨.decorators, .str "B"⟩ }

theorem names_interleaved : (ModuleReader.read interleaved.toList).classes.map (fun c =>
    (c.1.decoratorNames c.2, c.1.heritageNames)) = [(["A", "B", "C", "D"], .ok ([], []))] := by
  cbv

theorem decorators_complete_interleaved : ∃ cls around,
    (ModuleReader.read interleaved.toList).classes = [(cls, around)] ∧ around.Attached ∧
      cls.decoratorNames around = ["A", "B", "C", "D"] ∧
      ∃ c, requiringB.entityClass "/e.ts" cls around = .ok c ∧ c.isEntity = true := by
  obtain ⟨⟨cls, around⟩, _, hclasses, hoffers, hnil⟩ := List.map_eq_cons_iff.mp names_interleaved
  obtain ⟨hnames, hheritage⟩ := Prod.mk.inj hoffers
  rw [List.map_eq_nil_iff] at hnil
  subst hnil
  have hcls : (cls, around) ∈ (ModuleReader.read interleaved.toList).classes := by
    rw [hclasses]
    exact List.mem_singleton_self _
  have hattached := ModuleReader.attached_read hcls
  obtain ⟨-, -, decorators, -, -, hmap, hrule⟩ :=
    decorators_complete requiringB "/e.ts" hcls hattached
  have hclass : ∃ c, requiringB.entityClass "/e.ts" cls around = .ok c := by
    unfold entityClass
    rw [hheritage]
    exact ⟨_, rfl⟩
  obtain ⟨c, hc⟩ := hclass
  refine ⟨cls, around, hclasses, hattached, hnames, c, hc, (hrule rfl c hc).mpr ?_⟩
  have hB : "B" ∈ decorators.map (fun d => d.node.decoratorName) := by
    rw [← hmap, hnames]
    decide
  obtain ⟨d, hd, hname⟩ := List.mem_map.mp hB
  exact ⟨d, hd, congrArg Json.str hname.symm⟩

end Project

end DartModels
