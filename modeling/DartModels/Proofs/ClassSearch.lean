import DartModels.Proofs.ClassKeys
import DartModels.Proofs.DepthFirst

/-!
# The search for ancestors

Each step down of the search meets a key that was not met before, of finitely many, so the search
never stops at the bound on its depth, and its outcome does not depend on the bound.

    a reference fails, comes to nothing new, fails below, or leads on to a class    (visit_outcome)
    unmet cover met < fuel → the search is depth first, or ends at a failing look-up      (explored)
    two bounds that are both large enough give the same outcome                 (ancestorsFrom_congr)
    the ancestors depend on what the cache shows, and on nothing else of it       (steady_ancestors)
-/

namespace DartModels

namespace Project

variable {p : Project} {cache : SourceCache}

/-! ## The search -/

/-- What a name in a class leads to. -/
def found (p : Project) (cache : SourceCache) (c : EntityClass) (name : String) :
    Option EntityClass :=
  match (p.findClass c name).result cache with
  | .ok target => target
  | .error _ => none

/-- The classes that a class refers to, in the order of its references. -/
def parents (p : Project) (cache : SourceCache) (c : EntityClass) : List EntityClass :=
  c.heritage.filterMap (p.found cache c)

/-- A class refers to another one. -/
def Refers (p : Project) (cache : SourceCache) (c d : EntityClass) : Prop := d ∈ p.parents cache c

/-- Looking up a reference of a class fails. -/
def Fails (p : Project) (cache : SourceCache) (c : EntityClass) (e : Error) : Prop :=
  ∃ name ∈ c.heritage, (p.findClass c name).result cache = .error e

theorem found_eq_some {c d : EntityClass} {name : String} :
    p.found cache c name = some d ↔ (p.findClass c name).result cache = .ok (some d) := by
  unfold found
  split
  · next h => rw [h, Except.ok.injEq]
  · next h =>
    rw [h]
    exact ⟨nofun, nofun⟩

theorem refers_iff {c d : EntityClass} :
    p.Refers cache c d ↔
      ∃ name ∈ c.heritage, (p.findClass c name).result cache = .ok (some d) := by
  unfold Refers parents
  rw [List.mem_filterMap]
  simp only [found_eq_some]

section

variable {deeper : EntityClass → Visited → Loading (List EntityClass × Visited)}

theorem steady_meet (hdeeper : ∀ d met, p.Steady (deeper d met))
    (state : List EntityClass × Visited) (parent : EntityClass) :
    p.Steady (meet deeper state parent) := by
  unfold meet
  split
  · exact steady_pure _
  · exact steady_bind (hdeeper _ _) fun _ => steady_pure _

theorem steady_visit (hdeeper : ∀ d met, p.Steady (deeper d met)) (c : EntityClass)
    (state : List EntityClass × Visited) (name : String) :
    p.Steady (p.visit c deeper state name) := by
  refine steady_bind (steady_findClass c name) fun target => ?_
  cases target with
  | none => exact steady_pure _
  | some parent => exact steady_meet hdeeper state parent

/-- One step of the search, its parts run from the same cache. -/
theorem visit_result (hdeeper : ∀ d met, p.Steady (deeper d met)) (c : EntityClass)
    (acc : List EntityClass) (met : Visited) (name : String) (cache : SourceCache) :
    (p.visit c deeper (acc, met) name).result cache =
      match (p.findClass c name).result cache with
      | .error e => .error e
      | .ok none => .ok (acc, met)
      | .ok (some parent) =>
        if parent.key ∈ met then .ok (acc, met)
        else
          match (deeper parent (parent.key :: met)).result cache with
          | .error e => .error e
          | .ok (above, met') => .ok (acc ++ parent :: above, met') := by
  have hkeeps := (steady_findClass (p := p) c name).keeps cache
  cases hf : (p.findClass c name).result cache with
  | error e => exact Loading.result_bind_error hf _
  | ok target =>
    refine (Loading.result_bind_ok hf _).trans ?_
    cases target with
    | none => rfl
    | some parent =>
      rw [(steady_meet hdeeper _ _).agrees _ _ hkeeps]
      unfold meet
      by_cases hm : parent.key ∈ met
      · rw [if_pos (List.contains_iff_mem.mpr hm)]
        simp only [if_pos hm]
        rfl
      · rw [if_neg fun h => hm (List.contains_iff_mem.mp h)]
        simp only [if_neg hm]
        rw [result_bind (hdeeper _ _) fun _ => steady_pure _]
        cases (deeper parent (parent.key :: met)).result cache <;> rfl

end

theorem steady_ancestorsFrom (fuel : Nat) (c : EntityClass) (met : Visited) :
    p.Steady (p.ancestorsFrom fuel c met) := by
  induction fuel generalizing c met with
  | zero => exact steady_pure _
  | succ fuel ih => exact steady_foldlM (steady_visit ih c) _ _

theorem ancestorsFrom_result (fuel : Nat) (c : EntityClass) (met : Visited) :
    (p.ancestorsFrom (fuel + 1) c met).result cache =
      c.heritage.foldlM (fun state name => (p.visit c (p.ancestorsFrom fuel) state name).result cache)
        ([], met) :=
  result_foldlM (steady_visit (steady_ancestorsFrom fuel) c) _ _ cache

/-- What a search gives: the ancestors that were not met before, in depth-first order, or the error
of a look-up that it came to. -/
def Explored (p : Project) (cache : SourceCache) (met : Visited) (c : EntityClass) :
    Except Error (List EntityClass × Visited) → Prop
  | .ok (above, met') =>
    DepthFirst EntityClass.key (p.parents cache) met (p.parents cache c) above met' ∧
      ∀ d ∈ c :: above, ∀ e, ¬p.Fails cache d e
  | .error e => ∃ d, Relation.ReflTransGen (p.Refers cache) c d ∧ p.Fails cache d e

/-- What a search gives for some of the references of a class, after the ancestors `acc`. -/
def ExploredNames (p : Project) (cache : SourceCache) (c : EntityClass) (names : List String)
    (acc : List EntityClass) (met : Visited) : Except Error (List EntityClass × Visited) → Prop
  | .ok (above, met') =>
    ∃ out, above = acc ++ out ∧
      DepthFirst EntityClass.key (p.parents cache) met (names.filterMap (p.found cache c)) out met' ∧
      (∀ name ∈ names, ∀ e, (p.findClass c name).result cache ≠ .error e) ∧
      ∀ d ∈ out, ∀ e, ¬p.Fails cache d e
  | .error e =>
    (∃ name ∈ names, (p.findClass c name).result cache = .error e) ∨
      ∃ b ∈ names.filterMap (p.found cache c),
        ∃ d, Relation.ReflTransGen (p.Refers cache) b d ∧ p.Fails cache d e

theorem failed_cons {c : EntityClass} {name : String} {names : List String}
    {acc acc' : List EntityClass} {met met' : Visited} {e : Error}
    (h : p.ExploredNames cache c names acc met (.error e)) :
    p.ExploredNames cache c (name :: names) acc' met' (.error e) := by
  rcases h with ⟨n, hn, h⟩ | ⟨b, hb, h⟩
  · exact Or.inl ⟨n, List.mem_cons_of_mem _ hn, h⟩
  · obtain ⟨n, hn, hb⟩ := List.mem_filterMap.mp hb
    exact Or.inr ⟨b, List.mem_filterMap.mpr ⟨n, List.mem_cons_of_mem _ hn, hb⟩, h⟩

theorem exploredNames_skip {c : EntityClass} {name : String} {names : List String}
    {acc : List EntityClass} {met : Visited} {r : Except Error (List EntityClass × Visited)}
    (hok : ∀ e, (p.findClass c name).result cache ≠ .error e)
    (hmet : ∀ d, p.found cache c name = some d → d.key ∈ met)
    (h : p.ExploredNames cache c names acc met r) :
    p.ExploredNames cache c (name :: names) acc met r := by
  rcases r with e | ⟨above, met'⟩
  · exact failed_cons h
  · obtain ⟨out, rfl, hdf, hnames, hout⟩ := h
    refine ⟨out, rfl, ?_, List.forall_mem_cons.mpr ⟨hok, hnames⟩, hout⟩
    cases hf : p.found cache c name with
    | none => rwa [List.filterMap_cons_none hf]
    | some d =>
      rw [List.filterMap_cons_some hf]
      exact .again (hmet d hf) hdf

theorem exploredNames_first {c parent : EntityClass} {name : String} {names : List String}
    {acc below : List EntityClass} {met met₁ : Visited}
    {r : Except Error (List EntityClass × Visited)} (hfound : p.found cache c name = some parent)
    (hm : parent.key ∉ met)
    (hdeep : p.Explored cache (parent.key :: met) parent (.ok (below, met₁)))
    (h : p.ExploredNames cache c names (acc ++ parent :: below) met₁ r) :
    p.ExploredNames cache c (name :: names) acc met r := by
  rcases r with e | ⟨above, met'⟩
  · exact failed_cons h
  · obtain ⟨out, rfl, hdf, hnames, hout⟩ := h
    obtain ⟨hbelow, hsafe⟩ := hdeep
    refine ⟨parent :: below ++ out, by simp, ?_, List.forall_mem_cons.mpr ⟨?_, hnames⟩, ?_⟩
    · rw [List.filterMap_cons_some hfound]
      exact .first hm hbelow hdf
    · simp [found_eq_some.mp hfound]
    · intro d hd
      rcases List.mem_append.mp hd with hd | hd
      · exact hsafe d hd
      · exact hout d hd

/-- What a reference of a class comes to, after the ancestors `acc`: the look-up fails, there is
nothing new to go to, the search below the class that is found fails, or the class and what is below
it are the next ancestors. -/
inductive VisitOutcome (p : Project) (cache : SourceCache) (c : EntityClass)
    (deeper : EntityClass → Visited → Except Error (List EntityClass × Visited))
    (acc : List EntityClass) (met : Visited) (name : String) :
    Except Error (List EntityClass × Visited) → Prop where
  | failed {e : Error} (h : (p.findClass c name).result cache = .error e) :
      VisitOutcome p cache c deeper acc met name (.error e)
  | nothing (hok : ∀ e, (p.findClass c name).result cache ≠ .error e)
      (hmet : ∀ d, p.found cache c name = some d → d.key ∈ met) :
      VisitOutcome p cache c deeper acc met name (.ok (acc, met))
  | failedBelow {parent : EntityClass} {e : Error} (hfound : p.found cache c name = some parent)
      (hnew : parent.key ∉ met) (h : deeper parent (parent.key :: met) = .error e) :
      VisitOutcome p cache c deeper acc met name (.error e)
  | first {parent : EntityClass} {below : List EntityClass} {met' : Visited}
      (hfound : p.found cache c name = some parent) (hnew : parent.key ∉ met)
      (h : deeper parent (parent.key :: met) = .ok (below, met')) :
      VisitOutcome p cache c deeper acc met name (.ok (acc ++ parent :: below, met'))

theorem visit_outcome {deeper : EntityClass → Visited → Loading (List EntityClass × Visited)}
    (hdeeper : ∀ d met, p.Steady (deeper d met)) (c : EntityClass) (acc : List EntityClass)
    (met : Visited) (name : String) (cache : SourceCache) :
    p.VisitOutcome cache c (fun d met => (deeper d met).result cache) acc met name
      ((p.visit c deeper (acc, met) name).result cache) := by
  rw [visit_result hdeeper]
  cases hlook : (p.findClass c name).result cache with
  | error e => exact .failed hlook
  | ok target =>
    have hok : ∀ e, (p.findClass c name).result cache ≠ .error e := by simp [hlook]
    cases target with
    | none =>
      refine .nothing hok fun d hd => ?_
      rw [found_eq_some, hlook] at hd
      cases hd
    | some parent =>
      have hfound := found_eq_some.mpr hlook
      by_cases hm : parent.key ∈ met
      · simp only [if_pos hm]
        refine .nothing hok fun d hd => ?_
        rw [hfound] at hd
        cases hd
        exact hm
      · simp only [if_neg hm]
        cases hr : (deeper parent (parent.key :: met)).result cache with
        | error e => exact .failedBelow hfound hm hr
        | ok pair => exact .first hfound hm hr

/-- The induction is on the references that are left.  The keys that were met only grow, so the
depth that is left stays enough. -/
theorem exploredNames {cover : List (String × String)} {fuel : Nat}
    (hcover : ∀ c name d, p.found cache c name = some d → d.key ∈ cover)
    (ih : ∀ d met, unmet cover met < fuel →
      p.Explored cache met d ((p.ancestorsFrom fuel d met).result cache))
    (c : EntityClass) (names : List String) (acc : List EntityClass) (met : Visited)
    (hfuel : unmet cover met ≤ fuel) :
    p.ExploredNames cache c names acc met
      (names.foldlM (fun state name =>
        (p.visit c (p.ancestorsFrom fuel) state name).result cache) (acc, met)) := by
  have hdeeper : ∀ {name parent}, p.found cache c name = some parent → ∀ {met}, parent.key ∉ met →
      unmet cover met ≤ fuel → p.Explored cache (parent.key :: met) parent
        ((p.ancestorsFrom fuel parent (parent.key :: met)).result cache) :=
    fun hfound _ hnew hle =>
      ih _ _ (Nat.lt_of_lt_of_le (unmet_cons_lt (hcover c _ _ hfound) hnew) hle)
  induction names generalizing acc met with
  | nil => exact ⟨[], (List.append_nil acc).symm, .done, List.forall_mem_nil _, List.forall_mem_nil _⟩
  | cons name names ihNames =>
    have hstep := visit_outcome (steady_ancestorsFrom (p := p) fuel) c acc met name cache
    rw [List.foldlM_cons]
    generalize (p.visit c (p.ancestorsFrom fuel) (acc, met) name).result cache = r at hstep
    cases hstep with
    | failed h => exact Or.inl ⟨name, List.mem_cons_self, h⟩
    | nothing hok hmet => exact exploredNames_skip hok hmet (ihNames acc met hfuel)
    | @failedBelow parent _ hfound hnew h =>
      have hdeep := hdeeper hfound hnew hfuel
      rw [h] at hdeep
      exact Or.inr ⟨parent, List.mem_filterMap.mpr ⟨name, List.mem_cons_self, hfound⟩, hdeep⟩
    | @first parent below met₁ hfound hnew h =>
      have hdeep := hdeeper hfound hnew hfuel
      rw [h] at hdeep
      have hsub : met ⊆ met₁ := fun k hk => hdeep.1.subset_met (List.mem_cons_of_mem _ hk)
      exact exploredNames_first hfound hnew hdeep
        (ihNames _ _ (Nat.le_trans (unmet_le cover hsub) hfuel))

/-- A search that may go deeper than there are keys to meet goes through all that can be reached. -/
theorem explored {cover : List (String × String)}
    (hcover : ∀ c name d, p.found cache c name = some d → d.key ∈ cover) {fuel : Nat}
    (c : EntityClass) (met : Visited) (hfuel : unmet cover met < fuel) :
    p.Explored cache met c ((p.ancestorsFrom fuel c met).result cache) := by
  induction fuel generalizing c met with
  | zero => exact absurd hfuel (Nat.not_lt_zero _)
  | succ fuel ih =>
    rw [ancestorsFrom_result]
    have h := exploredNames hcover ih c c.heritage [] met (Nat.le_of_lt_succ hfuel)
    revert h
    rcases c.heritage.foldlM _ _ with e | ⟨above, met'⟩
    · rintro (⟨name, hn, hlook⟩ | ⟨b, hb, d, hd, hfails⟩)
      · exact ⟨c, .refl, name, hn, hlook⟩
      · exact ⟨d, .head hb hd, hfails⟩
    · rintro ⟨out, rfl, hdf, hnames, hout⟩
      refine ⟨hdf, List.forall_mem_cons.mpr ⟨?_, hout⟩⟩
      rintro e ⟨name, hn, hlook⟩
      exact hnames name hn e hlook

theorem foldlM_congr_of_keeps {α ε σ : Type} {f g : σ → α → Except ε σ} {P : σ → Prop}
    (hfg : ∀ s a, P s → f s a = g s a) (hP : ∀ s a s', P s → f s a = .ok s' → P s')
    (l : List α) {s : σ} (hs : P s) : l.foldlM f s = l.foldlM g s := by
  induction l generalizing s with
  | nil => rfl
  | cons a l ih =>
    rw [List.foldlM_cons, List.foldlM_cons, ← hfg s a hs]
    cases hr : f s a with
    | error e => rfl
    | ok s' => exact ih (hP s a s' hs hr)


theorem met_subset_visit {cover : List (String × String)}
    (hcover : ∀ c name d, p.found cache c name = some d → d.key ∈ cover) {fuel : Nat}
    {c : EntityClass} {name : String} {state state' : List EntityClass × Visited}
    (hfuel : unmet cover state.2 ≤ fuel)
    (h : (p.visit c (p.ancestorsFrom fuel) state name).result cache = .ok state') :
    state.2 ⊆ state'.2 := by
  have hone := exploredNames hcover (fun d met => explored hcover d met) c [name] state.1 state.2
    hfuel
  rw [List.foldlM_cons, h] at hone
  obtain ⟨out, -, hdf, -⟩ := hone
  exact hdf.subset_met

theorem ancestorsFrom_congr {cover cover' : List (String × String)}
    (hcover : ∀ c name d, p.found cache c name = some d → d.key ∈ cover)
    (hcover' : ∀ c name d, p.found cache c name = some d → d.key ∈ cover') {fuel fuel' : Nat}
    (c : EntityClass) (met : Visited) (h : unmet cover met < fuel) (h' : unmet cover' met < fuel') :
    (p.ancestorsFrom fuel c met).result cache = (p.ancestorsFrom fuel' c met).result cache := by
  induction fuel generalizing fuel' c met with
  | zero => exact absurd h (Nat.not_lt_zero _)
  | succ fuel ih =>
    cases fuel' with
    | zero => exact absurd h' (Nat.not_lt_zero _)
    | succ fuel' =>
      rw [ancestorsFrom_result, ancestorsFrom_result]
      refine foldlM_congr_of_keeps
        (P := fun state => unmet cover state.2 ≤ fuel ∧ unmet cover' state.2 ≤ fuel') ?_ ?_ _
        ⟨Nat.le_of_lt_succ h, Nat.le_of_lt_succ h'⟩
      · rintro ⟨acc, met⟩ name ⟨hle, hle'⟩
        rw [visit_result (steady_ancestorsFrom fuel), visit_result (steady_ancestorsFrom fuel')]
        cases hlook : (p.findClass c name).result cache with
        | error e => rfl
        | ok target =>
          cases target with
          | none => rfl
          | some parent =>
            have hfound := found_eq_some.mpr hlook
            by_cases hm : parent.key ∈ met
            · simp only [if_pos hm]
            · have hlt := unmet_cons_lt (hcover c name parent hfound) hm
              have hlt' := unmet_cons_lt (hcover' c name parent hfound) hm
              simp only [if_neg hm]
              rw [ih parent _ (Nat.lt_of_lt_of_le hlt hle) (Nat.lt_of_lt_of_le hlt' hle')]
      · rintro state name state' ⟨hle, hle'⟩ hr
        have hsub := met_subset_visit hcover hle hr
        exact ⟨Nat.le_trans (unmet_le cover hsub) hle, Nat.le_trans (unmet_le cover' hsub) hle'⟩

/-! ## All ancestors -/

theorem ancestors_exec (c : EntityClass) (cache : SourceCache) :
    (p.ancestors c).exec cache =
      (((p.ancestorsFrom (p.classBound cache) c [c.key]).result cache).map Prod.fst,
        (p.ancestorsFrom (p.classBound cache) c [c.key]).after cache) := by
  show ((p.ancestorsFrom (p.classBound cache) c [c.key] >>= fun pair => pure pair.1).exec cache) = _
  rw [Loading.exec_bind]
  unfold Loading.result Loading.after
  rcases (p.ancestorsFrom (p.classBound cache) c [c.key]).exec cache with ⟨r, s⟩
  cases r <;> rfl

theorem ancestors_result (c : EntityClass) (cache : SourceCache) :
    (p.ancestors c).result cache =
      ((p.ancestorsFrom (p.classBound cache) c [c.key]).result cache).map Prod.fst :=
  congrArg Prod.fst (ancestors_exec c cache)

theorem found_mem_classKeys {c d : EntityClass} {name : String}
    (h : p.found cache c name = some d) : d.key ∈ p.classKeys cache :=
  key_mem_classKeys (found_eq_some.mp h)

theorem unmet_lt_classBound (cache : SourceCache) (met : Visited) :
    unmet (p.classKeys cache) met < p.classBound cache :=
  Nat.lt_of_le_of_lt (List.length_filter_le _ _) (length_classKeys_lt cache)

/-- The bound on the depth varies with what is cached, but the ancestors do not. -/
theorem steady_ancestors (c : EntityClass) : p.Steady (p.ancestors c) := by
  refine ⟨fun cache => ?_, fun cache other h => ?_⟩
  · show p.shown ((p.ancestors c).exec cache).2 = _
    rw [ancestors_exec]
    exact (steady_ancestorsFrom _ _ _).keeps cache
  · have hother : ∀ c name d, p.found cache c name = some d → d.key ∈ p.classKeys other := by
      intro c name d hd
      rw [found_eq_some, ← (steady_findClass c name).agrees cache other h] at hd
      exact key_mem_classKeys hd
    rw [ancestors_result, ancestors_result, (steady_ancestorsFrom _ _ _).agrees cache other h]
    rw [ancestorsFrom_congr hother (fun _ _ _ hd => found_mem_classKeys hd) c [c.key]
      (unmet_lt_classBound other _) (unmet_lt_classBound cache _)]

/-- What the search for all ancestors gives. -/
theorem explored_ancestors (c : EntityClass) (cache : SourceCache) :
    match (p.ancestors c).result cache with
    | .ok above =>
      (∃ met, DepthFirst EntityClass.key (p.parents cache) [c.key] (p.parents cache c) above met) ∧
        ∀ d ∈ c :: above, ∀ e, ¬p.Fails cache d e
    | .error e => ∃ d, Relation.ReflTransGen (p.Refers cache) c d ∧ p.Fails cache d e := by
  have h := explored (fun _ _ _ hd => found_mem_classKeys hd) c [c.key]
    (unmet_lt_classBound (p := p) cache [c.key])
  rw [ancestors_result]
  revert h
  rcases (p.ancestorsFrom (p.classBound cache) c [c.key]).result cache with e | ⟨above, met⟩ <;>
    intro h
  · exact h
  · exact ⟨⟨met, h.1⟩, h.2⟩

theorem leads_to_ancestors {c : EntityClass} {above : List EntityClass}
    (ha : (p.ancestors c).result cache = .ok above) :
    ∀ d ∈ c :: above, Relation.ReflTransGen (p.Refers cache) c d := by
  have hex := explored_ancestors (p := p) c cache
  rw [ha] at hex
  obtain ⟨⟨met, hdf⟩, -⟩ := hex
  intro d hd
  rcases List.mem_cons.mp hd with rfl | hd
  · exact .refl
  · obtain ⟨a, ha, had⟩ := hdf.reached d hd
    exact .head ha had

/-- If no look-up on the way fails, the ancestors are the depth-first order of what is referred to. -/
theorem ancestors_eq_ok {c : EntityClass} {above : List EntityClass} {met : Visited}
    (hlook : ∀ d, Relation.ReflTransGen (p.Refers cache) c d → ∀ e, ¬p.Fails cache d e)
    (h : DepthFirst EntityClass.key (p.parents cache) [c.key] (p.parents cache c) above met) :
    (p.ancestors c).result cache = .ok above := by
  have hex := explored_ancestors (p := p) c cache
  cases hr : (p.ancestors c).result cache with
  | error e =>
    rw [hr] at hex
    obtain ⟨d, hd, hfail⟩ := hex
    exact absurd hfail (hlook d hd e)
  | ok above' =>
    rw [hr] at hex
    obtain ⟨⟨met', hdf⟩, -⟩ := hex
    rw [(h.unique hdf).1]

/-- No class is above a class that refers to none. -/
theorem ancestors_eq_nil {c : EntityClass} (hc : p.parents cache c = [])
    (hlook : ∀ e, ¬p.Fails cache c e) : (p.ancestors c).result cache = .ok [] := by
  refine @ancestors_eq_ok p cache c [] [c.key] (fun d hd e hfail => ?_) (by rw [hc]; exact .done)
  rcases Relation.ReflTransGen.cases_head hd with rfl | ⟨e, he, -⟩
  · exact hlook _ hfail
  · rw [Refers, hc] at he
    cases he

theorem ancestors_of_heritage_nil {c : EntityClass} (hc : c.heritage = []) :
    (p.ancestors c).result cache = .ok [] := by
  refine ancestors_eq_nil (by rw [parents, hc, List.filterMap_nil]) ?_
  rintro e ⟨name, hname, -⟩
  rw [hc] at hname
  cases hname

end Project

end DartModels
