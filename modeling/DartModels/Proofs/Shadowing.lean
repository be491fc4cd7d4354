import DartModels.Proofs.FirstWay
import DartModels.Proofs.VisibleFields

/-!
# Shadowing

Which of two classes that show the same name gives the field of the name depends on their order
among the ancestors.  The order is depth first, so a class precedes its own ancestor only if the
search comes to it on its way there: with several references, an ancestor can be met before a class
that descends from it.

    no class is an ancestor of itself, `x` is the class `c` or an ancestor of it, `y` is one of `x`
    x precedes y in c :: ancestors c ↔ the first way from c to y passes x
    x gives the field of a name, not y → the first way from c to y passes x     (descendant_first_iff)
-/

namespace DartModels

open Syntax

namespace Project

variable {p : Project} {cache : SourceCache} {c x y : EntityClass}

/-- The way down to `y` that takes at each class the first reference to `y` or to a class that has
`y` as an ancestor passes from a class to another one. -/
def FirstWay (p : Project) (cache : SourceCache) (y : EntityClass) :
    EntityClass → EntityClass → Prop :=
  Relation.ReflTransGen (FirstStep (p.parents cache) y)

/-- No class that references lead to from a class is an ancestor of itself. -/
def NoCycle (p : Project) (cache : SourceCache) (c : EntityClass) : Prop :=
  ∀ d, Relation.ReflTransGen (p.Refers cache) c d → ¬Relation.TransGen (p.Refers cache) d d

theorem NoCycle.acyclic (h : p.NoCycle cache c) (hs : p.Sound cache) (hc : p.Declares cache c) :
    DepthFirst.Acyclic EntityClass.key (p.parents cache) [c] := by
  refine ⟨fun a ha b hab => ?_, fun a ha b hab a' ha' b' hab' hkey => ?_⟩
  · rw [List.mem_singleton.mp ha] at hab
    exact h b hab
  · rw [List.mem_singleton.mp ha] at hab
    rw [List.mem_singleton.mp ha'] at hab'
    exact hs.eq_of_key_eq (hs.declares_reached hc hab) (hs.declares_reached hc hab') hkey

theorem nodup_ancestors (hs : p.Sound cache) (hc : p.Declares cache c) {above : List EntityClass}
    (ha : (p.ancestors c).result cache = .ok above) : (c :: above).Nodup := by
  obtain ⟨-, hnodup, hkeys, -⟩ := of_ancestors_eq_ok hs hc ha
  refine List.nodup_cons.mpr ⟨fun hmem => ?_, hnodup.of_map⟩
  exact ((hkeys c.key).mp (List.mem_map_of_mem hmem)).1 rfl

theorem pair_sublist_ancestors_iff (hs : p.Sound cache) (hc : p.Declares cache c)
    (hcycle : p.NoCycle cache c) {above : List EntityClass}
    (ha : (p.ancestors c).result cache = .ok above) (hx : x ∈ c :: above)
    (hxy : Relation.TransGen (p.Refers cache) x y) :
    y ∈ c :: above ∧ ([x, y].Sublist (c :: above) ↔ p.FirstWay cache y c x) := by
  obtain ⟨⟨met, hdf⟩, -⟩ := of_ancestors_eq_ok hs hc ha
  exact hdf.pair_sublist_root_iff (hcycle.acyclic hs hc) hx hxy

/-! ## The class that gives a field -/

/-- What stands before the first class that shows a name does not show it. -/
theorem firstShown_eq_some {classes : List EntityClass} {name : String} {d : EntityClass} {m : Node}
    (h : p.firstShown classes name = some (d, m)) :
    ∃ before after, classes = before ++ d :: after ∧ m ∈ p.visible d ∧ m.propertyName = name ∧
      ∀ b ∈ before, ∀ k ∈ p.visible b, k.propertyName ≠ name := by
  unfold firstShown shownBy at h
  rw [List.find?_flatMap, List.findSome?_eq_some_iff] at h
  obtain ⟨before, b, after, hsplit, hfirst, hbefore⟩ := h
  obtain ⟨k, hk, hkm⟩ := List.mem_map.mp (List.mem_of_find?_eq_some hfirst)
  cases hkm
  have hname := List.find?_some hfirst
  refine ⟨before, after, hsplit, hk, beq_iff_eq.mp hname, ?_⟩
  intro b' hb' k' hk' hname
  exact List.find?_eq_none.mp (hbefore b' hb') (b', k') (List.mem_map_of_mem hk')
    (beq_iff_eq.mpr hname)

/-- Of two classes, the later one is not the first to show a name that the earlier one shows. -/
theorem ne_of_pair_sublist {classes : List EntityClass} (hnodup : classes.Nodup)
    (hsub : [x, y].Sublist classes) {m : Node} (hm : m ∈ p.visible x) {d : EntityClass} {k : Node}
    (h : p.firstShown classes m.propertyName = some (d, k)) : d ≠ y := by
  rintro rfl
  obtain ⟨before, after, rfl, -, -, hbefore⟩ := firstShown_eq_some h
  have hx : x ∉ before := fun hx => hbefore x hx m hm rfl
  have hy : d ∉ after :=
    (List.nodup_cons.mp (hnodup.sublist (List.sublist_append_right before _))).1
  rcases (pair_sublist_append _ _).mp hsub with hsub | ⟨hmem, -⟩ | hsub
  · exact hx (mem_of_pair_sublist hsub).1
  · exact hx hmem
  · rcases (pair_sublist_cons _).mp hsub with ⟨-, hmem⟩ | hsub
    · exact hy hmem
    · exact hy (mem_of_pair_sublist hsub).2

/-- Without cycles, a class `x` precedes its ancestor `y` exactly if the first way to `y` passes `x`.
Where both show a name, its only field is the one of the first class that shows it: `x` shadows `y`
if the first way passes `x`, and else `y` shadows `x`. -/
theorem descendant_first_iff (hs : p.Sound cache) (hc : p.Declares cache c)
    (hcycle : p.NoCycle cache c) {above : List EntityClass}
    (ha : (p.ancestors c).result cache = .ok above) (hx : x ∈ c :: above)
    (hxy : Relation.TransGen (p.Refers cache) x y) :
    y ∈ c :: above ∧ ([x, y].Sublist (c :: above) ↔ p.FirstWay cache y c x) ∧
      ∀ fields, (p.fields c).result cache = .ok fields →
        ∀ m ∈ p.visible x, ∀ n ∈ p.visible y, n.propertyName = m.propertyName →
          ∃ f d k, (∀ g, g ∈ fields ∧ g.name = m.propertyName ↔ g = f) ∧
            p.firstShown (c :: above) m.propertyName = some (d, k) ∧ p.Gives cache (d, k) f ∧
            (p.FirstWay cache y c x → d ≠ y) ∧ (¬p.FirstWay cache y c x → d ≠ x) := by
  obtain ⟨hy, hiff⟩ := pair_sublist_ancestors_iff hs hc hcycle ha hx hxy
  refine ⟨hy, hiff, fun fields hf m hm n hn hname => ?_⟩
  have hnodup := nodup_ancestors hs hc ha
  have hfind := find?_fields hs hc ha hf m.propertyName
  obtain ⟨⟨d, k⟩, hshown⟩ := Option.isSome_iff_exists.mp
    (isSome_firstShown.mpr ⟨x, hx, m, hm, rfl⟩)
  cases hfound : fields.find? fun f => f.name == m.propertyName with
  | none =>
    rw [hshown, hfound] at hfind
    cases hfind
  | some f =>
    rw [hshown, hfound] at hfind
    cases hfind with
    | some hgives =>
      refine ⟨f, d, k, fun g => ?_, hshown, hgives, fun hway => ?_, fun hway => ?_⟩
      · have hname := List.find?_some hfound
        have hmem := List.mem_of_find?_eq_some hfound
        constructor
        · rintro ⟨hg, hgn⟩
          exact List.inj_on_of_nodup_map (nodup_names_fields hs hc ha hf) hg hmem
            (hgn.trans (beq_iff_eq.mp hname).symm)
        · rintro rfl
          exact ⟨hmem, beq_iff_eq.mp hname⟩
      · exact ne_of_pair_sublist hnodup (hiff.mpr hway) hm hshown
      · have hne : x ≠ y := by
          rintro rfl
          exact hcycle x (leads_to_ancestors ha x hx) hxy
        have hback := (pair_sublist_or hx hy hne).resolve_left (mt hiff.mp hway)
        exact ne_of_pair_sublist hnodup hback hn (hname ▸ hshown)

/-! ## A diamond -/

theorem ancestors_diamond {a b c : EntityClass} (ha : p.parents cache a = [])
    (hb : p.parents cache b = [a]) (hc : p.parents cache c = [a, b]) (hab : a.key ≠ b.key)
    (hac : a.key ≠ c.key) (hbc : b.key ≠ c.key)
    (hlook : ∀ d ∈ [a, b, c], ∀ e, ¬p.Fails cache d e) :
    p.NoCycle cache c ∧ (p.ancestors c).result cache = .ok [a, b] := by
  have hfromA : ∀ d, Relation.ReflTransGen (p.Refers cache) a d → d = a := by
    intro d hd
    rcases Relation.ReflTransGen.cases_head hd with rfl | ⟨e, he, -⟩
    · rfl
    · rw [Refers, ha] at he
      cases he
  have hfromB : ∀ d, Relation.TransGen (p.Refers cache) b d → d = a := by
    intro d hd
    obtain ⟨e, he, hed⟩ := Relation.TransGen.head'_iff.mp hd
    rw [Refers, hb, List.mem_singleton] at he
    exact hfromA d (he ▸ hed)
  have hfromC : ∀ d, Relation.TransGen (p.Refers cache) c d → d = a ∨ d = b := by
    intro d hd
    obtain ⟨e, he, hed⟩ := Relation.TransGen.head'_iff.mp hd
    rw [Refers, hc, List.mem_cons, List.mem_singleton] at he
    rcases he with rfl | rfl
    · exact Or.inl (hfromA d hed)
    · rcases Relation.reflTransGen_iff_eq_or_transGen.mp hed with rfl | hed
      · exact Or.inr rfl
      · exact Or.inl (hfromB d hed)
  have hreach : ∀ d, Relation.ReflTransGen (p.Refers cache) c d → d ∈ [a, b, c] := by
    intro d hd
    rcases Relation.reflTransGen_iff_eq_or_transGen.mp hd with rfl | hd
    · simp
    · rcases hfromC d hd with rfl | rfl <;> simp
  have hsearch : DepthFirst EntityClass.key (p.parents cache) [c.key] (p.parents cache c) [a, b]
      [b.key, a.key, c.key] := by
    have hbelowA : DepthFirst EntityClass.key (p.parents cache) [a.key, c.key]
        (p.parents cache a) [] [a.key, c.key] := by
      rw [ha]
      exact .done
    have hbelowB : DepthFirst EntityClass.key (p.parents cache) [b.key, a.key, c.key]
        (p.parents cache b) [] [b.key, a.key, c.key] := by
      rw [hb]
      exact .again (by simp) .done
    rw [hc]
    exact .first (by simpa using hac) hbelowA
      (.first (by simpa using ⟨hab.symm, hbc⟩) hbelowB .done)
  refine ⟨fun d hd hcycle => ?_, ancestors_eq_ok (fun d hd => hlook d (hreach d hd)) hsearch⟩
  have hmem := hreach d hd
  simp only [List.mem_cons, List.not_mem_nil, or_false] at hmem
  rcases hmem with rfl | rfl | rfl
  · obtain ⟨e, he, -⟩ := Relation.TransGen.head'_iff.mp hcycle
    rw [Refers, ha] at he
    cases he
  · exact hab (congrArg EntityClass.key (hfromB d hcycle).symm)
  · rcases hfromC d hcycle with h | h
    · exact hac (congrArg EntityClass.key h.symm)
    · exact hbc (congrArg EntityClass.key h.symm)

/-- A class that refers to another class first, and then to a class that extends it. -/
def diamond : Project :=
  ofText "class A{@C()x;}class B extends A{@C()x;}class C implements A,B{}"

theorem load_diamond :
    (diamond.load "/a.ts").map (fun r => r.map fun s => (s.imports, s.classes.map fun e =>
      (e.1, e.2.key, e.2.heritage, e.2.declaration.isSome, e.2.properties.map fun m =>
        (m.propertyName, diamond.shows m, m.propertyType?.isNone)))) =
    .ok (some ([], [("A", ("/a.ts", "A"), [], true, [("x", true, true)]),
      ("B", ("/a.ts", "B"), ["A"], true, [("x", true, true)]),
      ("C", ("/a.ts", "C"), ["A", "B"], true, [])])) := by
  cbv

/-- The search meets `A` first, so its property comes before the one of `B`. -/
theorem diamond_fields :
    ∃ a b c m n, diamond.Declares [] c ∧ diamond.NoCycle [] c ∧
      (diamond.ancestors c).result [] = .ok [a, b] ∧ a.name = "A" ∧ b.name = "B" ∧
      Relation.TransGen (diamond.Refers []) b a ∧ m ∈ diamond.visible a ∧
      n ∈ diamond.visible b ∧ m.propertyName = "x" ∧ n.propertyName = "x" ∧
      (diamond.fields c).result [] = .ok [⟨"x", .primitive "Any", "A"⟩] := by
  obtain ⟨s, hs, hload⟩ := exists_of_map_eq_ok load_diamond
  simp only [Prod.mk.injEq, List.map_eq_cons_iff, List.map_eq_nil_iff,
    Option.isNone_iff_eq_none] at hload
  obtain ⟨himports, ⟨_, a⟩, _, hclasses,
    ⟨rfl, ha, haH, haD, m, _, haP, ⟨hm, hmShown, hmType⟩, rfl⟩, ⟨_, b⟩, _, rfl,
    ⟨rfl, hb, hbH, hbD, n, _, hbP, ⟨hn, hnShown, hnType⟩, rfl⟩, ⟨_, c⟩, _, rfl,
    ⟨rfl, hc, hcH, hcD, hcP⟩, rfl⟩ := hload
  dsimp only at ha haH haD haP hb hbH hbD hbP hc hcH hcD hcP
  have hfind : ∀ d ∈ [a, b, c], ∀ name,
      (diamond.findClass d name).result [] = .ok (s.classes.lookup name) := by
    simp only [List.forall_mem_cons]
    exact ⟨findClass_ofText hs himports (congrArg Prod.fst ha),
      findClass_ofText hs himports (congrArg Prod.fst hb),
      findClass_ofText hs himports (congrArg Prod.fst hc), List.forall_mem_nil _⟩
  have hlook : ∀ d ∈ [a, b, c], ∀ e, ¬diamond.Fails [] d e := by
    rintro d hd e ⟨name, -, hfail⟩
    rw [hfind d hd] at hfail
    cases hfail
  have hpa : diamond.parents [] a = [] := by simp [parents, haH]
  have hpb : diamond.parents [] b = [a] := by
    simp [parents, hbH, found, hfind b (by simp), hclasses]
  have hpc : diamond.parents [] c = [a, b] := by
    simp [parents, hcH, found, hfind c (by simp), hclasses, List.lookup_cons]
  obtain ⟨hcycle, habove⟩ := ancestors_diamond hpa hpb hpc (by simp [ha, hb]) (by simp [ha, hc])
    (by simp [hb, hc]) hlook
  have hnameA : a.name = "A" := congrArg Prod.snd ha
  have hnameC : c.name = "C" := congrArg Prod.snd hc
  have hdecl : diamond.Declares [] c :=
    declares_ofText hs (by simp [hnameC, hclasses, List.lookup_cons])
  refine ⟨a, b, c, m, n, hdecl, hcycle, habove, hnameA, congrArg Prod.snd hb, ?_, ?_, ?_, hm, hn, ?_⟩
  · exact .single (by simp [Refers, hpb])
  · simp [visible, haP, hmShown]
  · simp [visible, hbP, hnShown]
  · rw [fields_untyped sound_nil hdecl habove (by simp [haD, hbD, hcD])
      (by simp [haP, hbP, hcP, hmType, hnType])]
    simp [shownBy, visible, haP, hbP, hcP, hmShown, hnShown, addField, untyped, hm, hn, hnameA]

/-- A class need not precede its ancestors, nor does its property win over theirs. -/
theorem diamond_inverted :
    (¬∀ c above, diamond.Declares [] c → diamond.NoCycle [] c →
      (diamond.ancestors c).result [] = .ok above → ∀ x ∈ c :: above, ∀ y ∈ c :: above,
        Relation.TransGen (diamond.Refers []) x y → [x, y].Sublist (c :: above)) ∧
    ¬∀ c above fields, diamond.Declares [] c → diamond.NoCycle [] c →
      (diamond.ancestors c).result [] = .ok above → (diamond.fields c).result [] = .ok fields →
      ∀ x ∈ c :: above, ∀ y ∈ c :: above, Relation.TransGen (diamond.Refers []) x y →
        x.name ≠ y.name → ∀ m ∈ diamond.visible x, ∀ n ∈ diamond.visible y,
          n.propertyName = m.propertyName →
          ∀ f ∈ fields, f.name = m.propertyName → f.declaredIn ≠ y.name := by
  obtain ⟨a, b, c, m, n, hc, hcycle, habove, hnameA, hnameB, hba, hm, hn, hmx, hnx, hfields⟩ :=
    diamond_fields
  have hne : b.name ≠ a.name := by
    rw [hnameA, hnameB]
    decide
  constructor
  · intro hclaim
    have hsub := hclaim c [a, b] hc hcycle habove b (by simp) a (by simp) hba
    have hnodup := nodup_ancestors sound_nil hc habove
    rcases (pair_sublist_cons _).mp hsub with ⟨rfl, -⟩ | hsub
    · simp at hnodup
    · rcases (pair_sublist_cons _).mp hsub with ⟨rfl, -⟩ | hsub
      · exact hne rfl
      · exact absurd hsub.length_le (by simp)
  · intro hclaim
    exact hclaim c [a, b] _ hc hcycle habove hfields b (by simp) a (by simp) hba hne n hn m hm
      (hmx.trans hnx.symm) _ List.mem_cons_self hnx.symm hnameA.symm

/-- `A` comes before `B` as the first way from `C` to it does not pass `B`, and it gives the field. -/
theorem descendant_first_diamond :
    ∃ a b c m n fields, diamond.Declares [] c ∧ diamond.NoCycle [] c ∧
      (diamond.ancestors c).result [] = .ok [a, b] ∧ (diamond.fields c).result [] = .ok fields ∧
      Relation.TransGen (diamond.Refers []) b a ∧ m ∈ diamond.visible a ∧
      n ∈ diamond.visible b ∧ m.propertyName = n.propertyName ∧
      (a ∈ [c, a, b] ∧ ([b, a].Sublist [c, a, b] ↔ diamond.FirstWay [] a c b) ∧
        ∃ f d k, (∀ g, g ∈ fields ∧ g.name = n.propertyName ↔ g = f) ∧
          diamond.firstShown [c, a, b] n.propertyName = some (d, k) ∧ diamond.Gives [] (d, k) f ∧
          (diamond.FirstWay [] a c b → d ≠ a) ∧ (¬diamond.FirstWay [] a c b → d ≠ b)) := by
  obtain ⟨a, b, c, m, n, hc, hcycle, habove, -, -, hba, hm, hn, hmx, hnx, hfields⟩ := diamond_fields
  have hname : m.propertyName = n.propertyName := hmx.trans hnx.symm
  obtain ⟨hmem, hiff, hshadow⟩ :=
    descendant_first_iff sound_nil hc hcycle habove (List.mem_cons_of_mem _ (by simp)) hba
  exact ⟨a, b, c, m, n, _, hc, hcycle, habove, hfields, hba, hm, hn, hname, hmem, hiff,
    hshadow _ hfields n hn m hm hname⟩

end Project

end DartModels
