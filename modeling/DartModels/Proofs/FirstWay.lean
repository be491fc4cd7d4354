import DartModels.Proofs.DepthFirst

/-!
# The first way to a node

The first way to `y` takes at each node the first successor that is `y` or leads to it.  In a graph
without cycles a depth-first order meets `y` on this way, so that of two nodes the one that leads to
the other comes first exactly if it lies on the first way there.

    no way from `todo` comes back to a node, and `x` leads to `y`
    [x, y] <+ out ↔ the first way from `todo` to `y` passes `x`               (pair_sublist_iff)
    [x, y] <+ root :: out ↔ the first way from `root` to `y` passes `x`       (pair_sublist_root_iff)
-/

namespace DartModels

variable {α κ : Type}

/-- There is a way, of any length, from one node to another one. -/
abbrev LeadsTo (next : α → List α) : α → α → Prop :=
  Relation.ReflTransGen fun a b => b ∈ next a

/-- The first of some nodes that is `y` or leads to it. -/
def FirstOf (next : α → List α) (y : α) (todo : List α) (b : α) : Prop :=
  ∃ skipped rest, todo = skipped ++ b :: rest ∧ (∀ s ∈ skipped, ¬LeadsTo next s y) ∧
    LeadsTo next b y

/-- A step of the first way to `y`. -/
def FirstStep (next : α → List α) (y a b : α) : Prop := FirstOf next y (next a) b

variable {next : α → List α} {x y a b : α} {todo rest : List α}

theorem FirstOf.mem (h : FirstOf next y todo b) : b ∈ todo := by
  obtain ⟨skipped, rest, rfl, -, -⟩ := h
  exact List.mem_append_right _ List.mem_cons_self

theorem firstOf_cons_of_leads (h : LeadsTo next a y) : FirstOf next y (a :: rest) b ↔ b = a := by
  constructor
  · rintro ⟨skipped, rest', hsplit, hskipped, -⟩
    cases skipped with
    | nil => exact (List.cons.inj hsplit).1.symm
    | cons s skipped =>
      rw [(List.cons.inj hsplit).1] at h
      exact absurd h (hskipped s List.mem_cons_self)
  · rintro rfl
    exact ⟨[], rest, rfl, List.forall_mem_nil _, h⟩

theorem firstOf_cons_of_not_leads (h : ¬LeadsTo next a y) :
    FirstOf next y (a :: rest) b ↔ FirstOf next y rest b := by
  constructor
  · rintro ⟨skipped, rest', hsplit, hskipped, hb⟩
    cases skipped with
    | nil => exact absurd ((List.cons.inj hsplit).1 ▸ hb) h
    | cons s skipped =>
      exact ⟨skipped, rest', (List.cons.inj hsplit).2,
        fun t ht => hskipped t (List.mem_cons_of_mem _ ht), hb⟩
  · rintro ⟨skipped, rest', rfl, hskipped, hb⟩
    exact ⟨a :: skipped, rest', rfl, List.forall_mem_cons.mpr ⟨h, hskipped⟩, hb⟩

/-- What the first way passes can be reached. -/
theorem leads_of_firstStep (h : Relation.ReflTransGen (FirstStep next y) a x) :
    LeadsTo next a x := by
  induction h with
  | refl => exact .refl
  | tail _ hstep ih => exact .tail ih hstep.mem

theorem pair_sublist_cons (l : List α) :
    [x, y].Sublist (a :: l) ↔ x = a ∧ y ∈ l ∨ [x, y].Sublist l := by
  rw [List.sublist_cons_iff, or_comm]
  simp [List.cons.injEq, and_assoc]

theorem pair_sublist_append (l l' : List α) :
    [x, y].Sublist (l ++ l') ↔ [x, y].Sublist l ∨ x ∈ l ∧ y ∈ l' ∨ [x, y].Sublist l' := by
  induction l with
  | nil => simp
  | cons a l ih =>
    rw [List.cons_append, pair_sublist_cons, ih, pair_sublist_cons, List.mem_append, List.mem_cons]
    grind

theorem mem_of_pair_sublist {l : List α} (h : [x, y].Sublist l) : x ∈ l ∧ y ∈ l :=
  ⟨h.subset List.mem_cons_self, h.subset (List.mem_cons_of_mem _ List.mem_cons_self)⟩

theorem pair_sublist_or {l : List α} (hx : x ∈ l) (hy : y ∈ l) (hne : x ≠ y) :
    [x, y].Sublist l ∨ [y, x].Sublist l := by
  obtain ⟨before, after, rfl⟩ := List.append_of_mem hx
  rcases List.mem_append.mp hy with hy | hy
  · exact Or.inr ((pair_sublist_append _ _).mpr (Or.inr (Or.inl ⟨hy, List.mem_cons_self⟩)))
  · have hafter : y ∈ after := (List.mem_cons.mp hy).resolve_left hne.symm
    have hlast : [x, y].Sublist (x :: after) := (pair_sublist_cons _).mpr (Or.inl ⟨rfl, hafter⟩)
    exact Or.inl ((pair_sublist_append _ _).mpr (Or.inr (Or.inr hlast)))

namespace DepthFirst

variable {key : α → κ} {met met' : List κ} {out : List α}

/-- What the nodes of a list lead to, if keys tell it apart and no way comes back to a node. -/
structure Acyclic (key : α → κ) (next : α → List α) (todo : List α) : Prop where
  no_cycle : ∀ a ∈ todo, ∀ b, LeadsTo next a b → ¬Relation.TransGen (fun a b => b ∈ next a) b b
  key_inj : ∀ a ∈ todo, ∀ b, LeadsTo next a b → ∀ a' ∈ todo, ∀ b', LeadsTo next a' b' →
    key b = key b' → b = b'

theorem Acyclic.mono {todo' : List α} (h : Acyclic key next todo)
    (hsub : ∀ a ∈ todo', ∃ b ∈ todo, LeadsTo next b a) : Acyclic key next todo' := by
  refine ⟨fun a ha b hab => ?_, fun a ha b hab a' ha' b' hab' => ?_⟩
  · obtain ⟨c, hc, hca⟩ := hsub a ha
    exact h.no_cycle c hc b (hca.trans hab)
  · obtain ⟨c, hc, hca⟩ := hsub a ha
    obtain ⟨c', hc', hca'⟩ := hsub a' ha'
    exact h.key_inj c hc b (hca.trans hab) c' hc' b' (hca'.trans hab')

theorem Acyclic.tail (h : Acyclic key next (a :: rest)) : Acyclic key next rest :=
  h.mono fun b hb => ⟨b, List.mem_cons_of_mem _ hb, .refl⟩

theorem Acyclic.below (h : Acyclic key next (a :: rest)) : Acyclic key next (next a) :=
  h.mono fun _ hb => ⟨a, List.mem_cons_self, .single hb⟩

/-- Whatever is reached and was met before, all that it leads to was met before. -/
def Closed (key : α → κ) (next : α → List α) (met : List κ) (todo : List α) : Prop :=
  ∀ a ∈ todo, ∀ b, LeadsTo next a b → key b ∈ met → ∀ d, LeadsTo next b d → key d ∈ met

/-- Going below a new node, this node was met, but nothing below leads back to it. -/
theorem Closed.below (h : Closed key next met (a :: rest)) (hg : Acyclic key next (a :: rest)) :
    Closed key next (key a :: met) (next a) := by
  intro b hb c hbc hc d hcd
  have hac : LeadsTo next a c := .head hb hbc
  rcases List.mem_cons.mp hc with hc | hc
  · have hca : c = a := hg.key_inj a List.mem_cons_self c hac a List.mem_cons_self a .refl hc
    rw [hca] at hbc
    exact absurd (.head' hb hbc) (hg.no_cycle a List.mem_cons_self a .refl)
  · exact List.mem_cons_of_mem _ (h a List.mem_cons_self c hac hc d hcd)

/-- Once all below a node was met, all that it leads to was. -/
theorem Closed.after {below : List α} {met₁ : List κ} (h : Closed key next met (a :: rest))
    (hg : Acyclic key next (a :: rest))
    (hbelow : DepthFirst key next (key a :: met) (next a) below met₁) :
    Closed key next met₁ (a :: rest) := by
  intro b hb c hbc hc d hcd
  -- induction along the way from `c`: each node on it is met, and so is what follows it
  induction hcd with
  | refl => exact hc
  | @tail e d hce hed ih =>
    have hbe := hbc.trans hce
    rcases (hbelow.mem_met_iff _).mp ih with hmet | hmet
    · rcases List.mem_cons.mp hmet with hown | hmet
      · have hea : e = a := hg.key_inj b hb e hbe a List.mem_cons_self a .refl hown
        rw [hea] at hed
        exact hbelow.todo_met d hed
      · have hd := h b hb e hbe hmet d (.single hed)
        exact hbelow.subset_met (List.mem_cons_of_mem _ hd)
    · obtain ⟨e', he', hkey⟩ := List.mem_map.mp hmet
      obtain ⟨r, hr, hre⟩ := hbelow.reached e' he'
      have hee : e' = e := hg.key_inj a List.mem_cons_self e' (.head hr hre) b hb e hbe hkey
      rw [hee] at he'
      exact hbelow.next_met e he' d hed

theorem leads_below {below : List α} {met₁ : List κ}
    (hbelow : DepthFirst key next (key a :: met) (next a) below met₁) (hx : x ∈ a :: below) :
    LeadsTo next a x := by
  rcases List.mem_cons.mp hx with rfl | hx
  · exact .refl
  · obtain ⟨b, hb, hbx⟩ := hbelow.reached x hx
    exact .head hb hbx

/-- The first way from `a` passes `x` exactly if `x` is `a` or the first way goes on below `a` and
passes it there. -/
theorem pair_sublist_below_iff {below : List α}
    (hback : ¬Relation.TransGen (fun a b => b ∈ next a) a a)
    (hx : LeadsTo next a x → x ∈ a :: below) (hy : y ∈ a :: below)
    (hxy : Relation.TransGen (fun a b => b ∈ next a) x y)
    (ih : x ∈ below → y ∈ below → ([x, y].Sublist below ↔
      ∃ b, FirstOf next y (next a) b ∧ Relation.ReflTransGen (FirstStep next y) b x)) :
    [x, y].Sublist (a :: below) ↔ Relation.ReflTransGen (FirstStep next y) a x := by
  constructor
  · intro hsub
    rcases (pair_sublist_cons _).mp hsub with ⟨rfl, -⟩ | hsub
    · exact .refl
    · obtain ⟨hxBelow, hyBelow⟩ := mem_of_pair_sublist hsub
      obtain ⟨b, hb, hbx⟩ := (ih hxBelow hyBelow).mp hsub
      exact .head hb hbx
  · intro hway
    have hax := leads_of_firstStep hway
    have hya : y ≠ a := fun e => hback (Relation.TransGen.trans_right hax (e ▸ hxy))
    have hyBelow : y ∈ below := (List.mem_cons.mp hy).resolve_left hya
    refine (pair_sublist_cons _).mpr ?_
    rcases Relation.ReflTransGen.cases_head hway with rfl | ⟨b, hb, hbx⟩
    · exact Or.inl ⟨rfl, hyBelow⟩
    · have hmore : Relation.TransGen (fun a b => b ∈ next a) a x :=
        .head' hb.mem (leads_of_firstStep hbx)
      have hxa : x ≠ a := fun e => hback (e ▸ hmore)
      have hxBelow : x ∈ below := (List.mem_cons.mp (hx hax)).resolve_left hxa
      exact Or.inr ((ih hxBelow hyBelow).mpr ⟨b, hb, hbx⟩)

/-- Of two new nodes, the one that leads to the other one comes first exactly if the first way to the
other one passes it. -/
theorem pair_sublist_iff (h : DepthFirst key next met todo out met')
    (hg : Acyclic key next todo) (hclosed : Closed key next met todo) (hx : x ∈ out) (hy : y ∈ out)
    (hxy : Relation.TransGen (fun a b => b ∈ next a) x y) :
    [x, y].Sublist out ↔
      ∃ a, FirstOf next y todo a ∧ Relation.ReflTransGen (FirstStep next y) a x := by
  induction h with
  | done => cases hx
  | @again met met' a rest out hmet hrest ih =>
    have hskip : ¬LeadsTo next a y := fun hay =>
      hrest.notMem_met y hy (hclosed a List.mem_cons_self a .refl hmet y hay)
    rw [ih hg.tail (fun b hb => hclosed b (List.mem_cons_of_mem _ hb)) hx hy]
    simp only [firstOf_cons_of_not_leads hskip]
  | @first met met₁ met₂ a rest below out hnew hbelow hrest ihBelow ihRest =>
    have hafter := hclosed.after hg hbelow
    have ha : key a ∈ met₁ := hbelow.subset_met List.mem_cons_self
    -- what `a` leads to is new below it, and so not new after it
    have hnone : ∀ z ∈ out, ¬LeadsTo next a z := fun z hz haz =>
      hrest.notMem_met z hz (hafter a List.mem_cons_self a .refl ha z haz)
    have hmem : ∀ z ∈ a :: below ++ out, LeadsTo next a z → z ∈ a :: below := fun z hz haz =>
      (List.mem_append.mp hz).resolve_right fun hz => hnone z hz haz
    have hmemOut : ∀ z ∈ a :: below ++ out, ¬LeadsTo next a z → z ∈ out := fun z hz haz =>
      (List.mem_append.mp hz).resolve_left fun hz => haz (leads_below hbelow hz)
    by_cases hay : LeadsTo next a y
    · have hback := hg.no_cycle a List.mem_cons_self a .refl
      simp only [firstOf_cons_of_leads hay, exists_eq_left]
      rw [← pair_sublist_below_iff hback (hmem x hx) (hmem y hy hay) hxy
        (ihBelow hg.below (hclosed.below hg)), pair_sublist_append]
      constructor
      · rintro (hsub | ⟨-, hyOut⟩ | hsub)
        · exact hsub
        · exact absurd hay (hnone y hyOut)
        · exact absurd hay (hnone y (mem_of_pair_sublist hsub).2)
      · exact Or.inl
    · have hax : ¬LeadsTo next a x := fun hax => hay (hax.trans hxy.to_reflTransGen)
      have hrestClosed : Closed key next met₁ rest :=
        fun b hb => hafter b (List.mem_cons_of_mem _ hb)
      simp only [firstOf_cons_of_not_leads hay]
      rw [← ihRest hg.tail hrestClosed (hmemOut x hx hax) (hmemOut y hy hay), pair_sublist_append]
      constructor
      · rintro (hsub | ⟨hx, -⟩ | hsub)
        · exact absurd (leads_below hbelow (mem_of_pair_sublist hsub).1) hax
        · exact absurd (leads_below hbelow hx) hax
        · exact hsub
      · exact fun hsub => Or.inr (Or.inr hsub)

/-- In the order from one root, with the root before it, of two nodes the one that leads to the other
one comes first exactly if the first way from the root passes it. -/
theorem pair_sublist_root_iff {root : α}
    (h : DepthFirst key next [key root] (next root) out met') (hg : Acyclic key next [root])
    (hx : x ∈ root :: out) (hxy : Relation.TransGen (fun a b => b ∈ next a) x y) :
    y ∈ root :: out ∧
      ([x, y].Sublist (root :: out) ↔ Relation.ReflTransGen (FirstStep next y) root x) := by
  have hall : DepthFirst key next [] [root] (root :: out ++ []) met' :=
    .first List.not_mem_nil h .done
  rw [List.append_nil] at hall
  have hclosed : Closed key next [] [root] := fun _ _ _ _ hmem => absurd hmem List.not_mem_nil
  have hreach : ∀ z ∈ root :: out, LeadsTo next root z := by
    intro z hz
    obtain ⟨r, hr, hrz⟩ := hall.reached z hz
    rwa [List.mem_singleton.mp hr] at hrz
  have hry := (hreach x hx).trans hxy.to_reflTransGen
  have hroot : key root ∈ met' := h.subset_met List.mem_cons_self
  have hmet := hclosed.after hg h root List.mem_cons_self root .refl hroot y hry
  have hy : y ∈ root :: out := by
    obtain ⟨z, hz, hkey⟩ :=
      List.mem_map.mp (((hall.mem_met_iff _).mp hmet).resolve_left List.not_mem_nil)
    have hzy : z = y := hg.key_inj root List.mem_cons_self z (hreach z hz) root List.mem_cons_self y
      hry hkey
    exact hzy ▸ hz
  refine ⟨hy, ?_⟩
  rw [pair_sublist_iff hall hg hclosed hx hy hxy]
  simp only [firstOf_cons_of_leads hry, exists_eq_left]

end DepthFirst

end DartModels
