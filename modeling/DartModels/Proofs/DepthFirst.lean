import Mathlib.Data.List.Forall2
import Mathlib.Logic.Relation

/-!
# Depth-first orders

`DepthFirst key next met todo out met'`: nodes are told apart by `key`, and those with a key of
`met` were met before.  Going depth first through `todo` meets the nodes `out` in this order and
leaves the keys `met'`.  The order is a preorder: a node, then what is new below it, then the rest.

    out has no key twice and none of `met`                                      (nodup, notMem_met)
    every node of `out` is reached from `todo`                                            (reached)
    the successors of every node of `out` are met in the end                             (next_met)
    `out` and `met'` are determined by `met` and `todo`                                    (unique)
    graphs that are related node by node are gone through in the same order              (transfer)
    from one root: out = the keys reached by at least one step, the root's aside (mem_keys_iff)
-/

namespace DartModels

/-- Every item of a list is related to one of the list that it is related to item by item. -/
theorem exists_of_forall₂ {α β : Type} {R : α → β → Prop} {l : List α} {l' : List β}
    (h : List.Forall₂ R l l') {b : β} (hb : b ∈ l') : ∃ a ∈ l, R a b := by
  induction h with
  | nil => cases hb
  | cons hR _ ih =>
    rcases List.mem_cons.mp hb with rfl | hb
    · exact ⟨_, List.mem_cons_self, hR⟩
    · obtain ⟨a, ha, hab⟩ := ih hb
      exact ⟨a, List.mem_cons_of_mem _ ha, hab⟩

variable {α κ : Type}

/-- A depth-first preorder. -/
inductive DepthFirst (key : α → κ) (next : α → List α) :
    List κ → List α → List α → List κ → Prop
  | done {met : List κ} : DepthFirst key next met [] [] met
  | again {met met' : List κ} {a : α} {rest out : List α} :
      key a ∈ met → DepthFirst key next met rest out met' →
      DepthFirst key next met (a :: rest) out met'
  | first {met met₁ met₂ : List κ} {a : α} {rest below out : List α} :
      key a ∉ met → DepthFirst key next (key a :: met) (next a) below met₁ →
      DepthFirst key next met₁ rest out met₂ →
      DepthFirst key next met (a :: rest) (a :: below ++ out) met₂

namespace DepthFirst

variable {key : α → κ} {next : α → List α} {met met' : List κ} {todo out : List α}

theorem mem_met_iff (h : DepthFirst key next met todo out met') (k : κ) :
    k ∈ met' ↔ k ∈ met ∨ k ∈ out.map key := by
  induction h with
  | done => simp
  | again _ _ ih => exact ih
  | first _ _ _ ihBelow ihRest =>
    rw [ihRest, ihBelow]
    simp only [List.mem_cons, List.cons_append, List.map_cons, List.map_append, List.mem_append]
    constructor
    · rintro (((h | h) | h) | h)
      · exact Or.inr (Or.inl h)
      · exact Or.inl h
      · exact Or.inr (Or.inr (Or.inl h))
      · exact Or.inr (Or.inr (Or.inr h))
    · rintro (h | h | h | h)
      · exact Or.inl (Or.inl (Or.inr h))
      · exact Or.inl (Or.inl (Or.inl h))
      · exact Or.inl (Or.inr h)
      · exact Or.inr h

theorem subset_met (h : DepthFirst key next met todo out met') : met ⊆ met' :=
  fun k hk => (h.mem_met_iff k).mpr (Or.inl hk)

theorem notMem_met (h : DepthFirst key next met todo out met') : ∀ a ∈ out, key a ∉ met := by
  induction h with
  | done => simp
  | again _ _ ih => exact ih
  | first hnew hbelow _ ihBelow ihRest =>
    intro b hb
    rcases List.mem_append.mp hb with hb | hb
    · rcases List.mem_cons.mp hb with rfl | hb
      · exact hnew
      · exact fun hk => ihBelow b hb (List.mem_cons_of_mem _ hk)
    · exact fun hk => ihRest b hb (hbelow.subset_met (List.mem_cons_of_mem _ hk))

theorem nodup (h : DepthFirst key next met todo out met') : (out.map key).Nodup := by
  induction h with
  | done => simp
  | again _ _ ih => exact ih
  | first _ hbelow hrest ihBelow ihRest =>
    rw [List.cons_append, List.map_cons, List.map_append, List.nodup_cons, List.nodup_append]
    refine ⟨fun hk => ?_, ihBelow, ihRest, ?_⟩
    · rcases List.mem_append.mp hk with hk | hk
      · obtain ⟨b, hb, e⟩ := List.mem_map.mp hk
        exact hbelow.notMem_met b hb (e ▸ List.mem_cons_self)
      · obtain ⟨b, hb, e⟩ := List.mem_map.mp hk
        exact hrest.notMem_met b hb (hbelow.subset_met (e ▸ List.mem_cons_self))
    · intro k hk l hl e
      obtain ⟨b, hb, rfl⟩ := List.mem_map.mp hl
      exact hrest.notMem_met b hb ((hbelow.mem_met_iff _).mpr (Or.inr (e ▸ hk)))

theorem todo_met (h : DepthFirst key next met todo out met') : ∀ a ∈ todo, key a ∈ met' := by
  induction h with
  | done => simp
  | again hmet hrest ih =>
    intro b hb
    rcases List.mem_cons.mp hb with rfl | hb
    · exact hrest.subset_met hmet
    · exact ih b hb
  | first _ hbelow hrest _ ih =>
    intro b hb
    rcases List.mem_cons.mp hb with rfl | hb
    · exact hrest.subset_met (hbelow.subset_met List.mem_cons_self)
    · exact ih b hb

/-- What follows a node of the order is met in the end: a node that is skipped as met before is
expanded elsewhere. -/
theorem next_met (h : DepthFirst key next met todo out met') :
    ∀ a ∈ out, ∀ b ∈ next a, key b ∈ met' := by
  induction h with
  | done => simp
  | again _ _ ih => exact ih
  | first _ hbelow hrest ihBelow ihRest =>
    intro a ha b hb
    rcases List.mem_append.mp ha with ha | ha
    · rcases List.mem_cons.mp ha with rfl | ha
      · exact hrest.subset_met (hbelow.todo_met b hb)
      · exact hrest.subset_met (ihBelow a ha b hb)
    · exact ihRest a ha b hb

/-- A depth-first order is determined by where it starts and what was met before. -/
theorem unique {met'' : List κ} {out' : List α} (h : DepthFirst key next met todo out met')
    (h' : DepthFirst key next met todo out' met'') : out' = out ∧ met'' = met' := by
  induction h generalizing out' met'' with
  | done =>
    cases h'
    exact ⟨rfl, rfl⟩
  | again hmet _ ih =>
    cases h' with
    | again _ hrest => exact ih hrest
    | first hnew _ _ => exact absurd hmet hnew
  | first hnew _ _ ihBelow ihRest =>
    cases h' with
    | again hmet _ => exact absurd hmet hnew
    | first _ hbelow hrest =>
      obtain ⟨rfl, rfl⟩ := ihBelow hbelow
      obtain ⟨rfl, rfl⟩ := ihRest hrest
      exact ⟨rfl, rfl⟩

/-- Related nodes have the same key, and related successors as far as `P` holds: then an order of the
one graph comes from an order of the other one. -/
theorem transfer {β : Type} {key' : β → κ} {next' : β → List β} {R : α → β → Prop} {P : α → Prop}
    (hkey : ∀ a b, R a b → key' b = key a)
    (hnext : ∀ a b, P a → R a b → List.Forall₂ R (next a) (next' b))
    (hP : ∀ a, P a → ∀ b ∈ next a, P b) {todo' out' : List β}
    (h : DepthFirst key' next' met todo' out' met') (htodo : ∀ a ∈ todo, P a)
    (hrel : List.Forall₂ R todo todo') :
    ∃ out, DepthFirst key next met todo out met' ∧ List.Forall₂ R out out' := by
  induction h generalizing todo with
  | done =>
    cases hrel
    exact ⟨[], .done, .nil⟩
  | again hmet _ ih =>
    cases hrel with
    | cons ha hrest =>
      obtain ⟨out, hdf, hout⟩ := ih (fun a ha => htodo a (List.mem_cons_of_mem _ ha)) hrest
      exact ⟨out, .again (hkey _ _ ha ▸ hmet) hdf, hout⟩
  | first hnew _ _ ihBelow ihRest =>
    cases hrel with
    | @cons a _ rest _ ha hrest =>
      obtain ⟨hPa, hPrest⟩ := List.forall_mem_cons.mp htodo
      obtain ⟨below, hbelow, hrelBelow⟩ := ihBelow (hP a hPa) (hnext _ _ hPa ha)
      obtain ⟨out, hdf, hrelOut⟩ := ihRest hPrest hrest
      rw [hkey _ _ ha] at hnew hbelow
      exact ⟨a :: below ++ out, .first hnew hbelow hdf, .cons ha (List.rel_append hrelBelow hrelOut)⟩

theorem reached (h : DepthFirst key next met todo out met') :
    ∀ b ∈ out, ∃ a ∈ todo, Relation.ReflTransGen (fun a b => b ∈ next a) a b := by
  induction h with
  | done => simp
  | again _ _ ih =>
    intro b hb
    obtain ⟨a, ha, hab⟩ := ih b hb
    exact ⟨a, List.mem_cons_of_mem _ ha, hab⟩
  | @first _ _ _ root _ _ _ _ _ _ ihBelow ihRest =>
    intro b hb
    rcases List.mem_append.mp hb with hb | hb
    · refine ⟨root, List.mem_cons_self, ?_⟩
      rcases List.mem_cons.mp hb with rfl | hb
      · exact .refl
      · obtain ⟨a, ha, hab⟩ := ihBelow b hb
        exact .head ha hab
    · obtain ⟨a, ha, hab⟩ := ihRest b hb
      exact ⟨a, List.mem_cons_of_mem _ ha, hab⟩

/-- From one root, the order has exactly the keys that at least one step leads to, except the
root's own, if nodes with the same key have the same successors. -/
theorem mem_keys_iff {root : α} (h : DepthFirst key next [key root] (next root) out met')
    (hkey : ∀ a b, Relation.ReflTransGen (fun a b => b ∈ next a) root a →
      Relation.ReflTransGen (fun a b => b ∈ next a) root b → key a = key b → next a = next b)
    (k : κ) :
    k ∈ out.map key ↔
      k ≠ key root ∧ ∃ b, Relation.TransGen (fun a b => b ∈ next a) root b ∧ key b = k := by
  constructor
  · intro hk
    obtain ⟨b, hb, rfl⟩ := List.mem_map.mp hk
    obtain ⟨a, ha, hab⟩ := h.reached b hb
    refine ⟨fun e => h.notMem_met b hb (by simp [e]), b, ?_, rfl⟩
    exact .head' ha hab
  · rintro ⟨hne, b, hb, rfl⟩
    -- induction along the way: its last node is met, as a node with its key was expanded
    have hmet : key b ∈ met' := by
      induction hb with
      | single hb => exact h.todo_met _ hb
      | @tail c d hc hd ih =>
        by_cases hroot : key c = key root
        · rw [hkey c root hc.to_reflTransGen .refl hroot] at hd
          exact h.todo_met _ hd
        · have hmem := (h.mem_met_iff _).mp (ih hroot)
          rcases hmem with hmem | hmem
          · exact absurd (List.mem_singleton.mp hmem) hroot
          · obtain ⟨c', hc', e⟩ := List.mem_map.mp hmem
            obtain ⟨a, ha, hac⟩ := h.reached c' hc'
            have hc'' := Relation.ReflTransGen.head ha hac
            rw [← hkey c' c hc'' hc.to_reflTransGen e] at hd
            exact h.next_met c' hc' d hd
    rcases (h.mem_met_iff _).mp hmet with hmem | hmem
    · exact absurd (List.mem_singleton.mp hmem) hne
    · exact hmem

end DepthFirst

end DartModels
