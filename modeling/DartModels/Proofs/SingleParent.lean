import DartModels.Proofs.MissingSources

/-!
# Classes with one parent

A class that refers to one other class, which does not lead back to it, has the fields of its own
properties and after them the fields of that class: the search from the parent does not notice that
the class itself was met before.  Nothing but the names of the own properties changes what is
inherited, so a field has the type that it has where it is declared.

    a search does not depend on what it cannot reach                          (DepthFirst.congr_met)
    ancestors of the class = parent :: ancestors of the parent                (ancestors_single_iff)
    xs.foldl addField own = own ++ the first of each other name in xs               (foldl_addField)
    fields = the candidates of the class and its ancestors, added one by one      (fields_eq_ok_iff)
    fields of the class = own ++ fields of the parent of other names          (fields_single_parent)
-/

namespace DartModels

open Syntax

/-! ## Searches from two starts -/

/-- Keys that were met before and that nothing below has do not change the order. -/
theorem DepthFirst.congr_met {α κ : Type} {key : α → κ} {next : α → List α} {met met' : List κ}
    {todo out : List α} (h : DepthFirst key next met todo out met') {other : List κ}
    (hother : ∀ a ∈ todo, ∀ b, Relation.ReflTransGen (fun a b => b ∈ next a) a b →
      (key b ∈ other ↔ key b ∈ met)) :
    ∃ other', DepthFirst key next other todo out other' := by
  induction h generalizing other with
  | done => exact ⟨other, .done⟩
  | again hmet _ ih =>
    obtain ⟨hhere, hrest⟩ := List.forall_mem_cons.mp hother
    obtain ⟨other', hdf⟩ := ih hrest
    exact ⟨other', .again ((hhere _ .refl).mpr hmet) hdf⟩
  | first hnew hbelow _ ihBelow ihRest =>
    obtain ⟨hhere, hrest⟩ := List.forall_mem_cons.mp hother
    obtain ⟨other₁, hbelow'⟩ := @ihBelow (key _ :: other) fun a ha b hab => by
      rw [List.mem_cons, List.mem_cons, hhere b (.head ha hab)]
    -- what was met below is the same on both sides
    obtain ⟨other₂, hrest'⟩ := @ihRest other₁ fun a ha b hab => by
      rw [hbelow'.mem_met_iff, hbelow.mem_met_iff, List.mem_cons, List.mem_cons, hrest a ha b hab]
    exact ⟨other₂, .first (fun h => hnew ((hhere _ .refl).mp h)) hbelow' hrest'⟩

/-! ## Adding fields -/

/-- Fields without those whose name an earlier one has. -/
def firstNamed : List Field → List Field
  | [] => []
  | f :: fields => f :: (firstNamed fields).filter fun g => g.name != f.name

theorem mem_of_mem_firstNamed {fields : List Field} {f : Field} (h : f ∈ firstNamed fields) :
    f ∈ fields := by
  induction fields with
  | nil => cases h
  | cons g fields ih =>
    rcases List.mem_cons.mp h with rfl | h
    · exact List.mem_cons_self
    · exact List.mem_cons_of_mem _ (ih (List.mem_filter.mp h).1)

theorem any_name_firstNamed (fields : List Field) (name : String) :
    ((firstNamed fields).any fun g => g.name == name) = fields.any fun g => g.name == name := by
  induction fields with
  | nil => rfl
  | cons f fields ih =>
    rw [firstNamed, List.any_cons, List.any_cons, ← ih, List.any_filter]
    by_cases hname : f.name = name
    · simp [hname]
    · congr 2
      funext g
      by_cases hg : g.name = name
      · simp [hg, Ne.symm hname]
      · simp [hg]

/-- Adding fields one by one keeps those that are there and appends the first ones of other names. -/
theorem foldl_addField (new own : List Field) :
    new.foldl Project.addField own =
      own ++ (firstNamed new).filter fun f => !own.any fun g => g.name == f.name := by
  induction new generalizing own with
  | nil => rw [List.foldl_nil, firstNamed, List.filter_nil, List.append_nil]
  | cons f new ih =>
    rw [List.foldl_cons, ih, firstNamed]
    unfold Project.addField
    by_cases hthere : own.any (fun g => g.name == f.name) = true
    · -- `f` is dropped, and so are all fields of its name
      rw [if_pos hthere, List.filter_cons_of_neg (by simp [hthere]), List.filter_filter]
      congr 2
      funext g
      by_cases hname : g.name = f.name
      · simp only [hname, hthere, Bool.not_true, Bool.false_and]
      · simp [hname]
    · rw [if_neg hthere, List.filter_cons_of_pos (by simp [hthere]), List.filter_filter,
        List.append_assoc, List.singleton_append]
      congr 3
      funext g
      simp only [List.any_append, List.any_cons, List.any_nil, Bool.or_false, Bool.not_or, bne,
        Bool.beq_comm (a := f.name)]

theorem foldl_addField_nil (new : List Field) : new.foldl Project.addField [] = firstNamed new := by
  rw [foldl_addField, List.nil_append]
  exact List.filter_eq_self.mpr fun _ _ => rfl

theorem foldl_addField_append (given rest : List Field) :
    (given ++ rest).foldl Project.addField [] =
      firstNamed given ++ (firstNamed rest).filter fun f => !given.any fun g => g.name == f.name := by
  rw [List.foldl_append, foldl_addField_nil, foldl_addField]
  simp only [any_name_firstNamed]

namespace Project

variable {p : Project} {cache : SourceCache} {c parent : EntityClass}

/-! ## Ancestors -/

/-- All look-ups lead to one class, or to none. -/
theorem exists_replicate (hparent : ∀ d, p.Refers cache c d ↔ d = parent) :
    ∃ n, p.parents cache c = List.replicate (n + 1) parent := by
  have hall : p.parents cache c = List.replicate (p.parents cache c).length parent :=
    List.eq_replicate_length.mpr fun d hd => (hparent d).mp hd
  have hne : p.parents cache c ≠ [] := List.ne_nil_of_mem ((hparent parent).mpr rfl)
  obtain ⟨n, hn⟩ := Nat.exists_eq_succ_of_ne_zero (mt List.length_eq_zero_iff.mp hne)
  exact ⟨n, hall.trans (by rw [hn])⟩

/-- Nodes that were met before add nothing. -/
theorem depthFirst_replicate {met : List (String × String)} (hmet : parent.key ∈ met) (n : Nat) :
    DepthFirst EntityClass.key (p.parents cache) met (List.replicate n parent) [] met := by
  induction n with
  | zero => exact .done
  | succ n ih => exact .again hmet ih

theorem ancestors_single (hs : p.Sound cache) (hc : p.Declares cache c)
    (hparent : ∀ d, p.Refers cache c d ↔ d = parent)
    (hcycle : ¬Relation.ReflTransGen (p.Refers cache) parent c)
    (hlook : ∀ e, ¬p.Fails cache c e) {above : List EntityClass}
    (ha : (p.ancestors parent).result cache = .ok above) :
    (p.ancestors c).result cache = .ok (parent :: above) := by
  have hdeclared : p.Declares cache parent := hs.declares_found ((hparent parent).mpr rfl)
  obtain ⟨⟨met, hdf⟩, -, -, hsafe⟩ := of_ancestors_eq_ok hs hdeclared ha
  -- the class itself is not below its parent, so its key makes no difference there
  have hkey : ∀ b, Relation.ReflTransGen (p.Refers cache) parent b → b.key ≠ c.key := by
    intro b hb e
    rw [hs.eq_of_key_eq (hs.declares_reached hdeclared hb) hc e] at hb
    exact hcycle hb
  have hother : ∀ a ∈ p.parents cache parent, ∀ b, Relation.ReflTransGen (p.Refers cache) a b →
      (b.key ∈ [parent.key, c.key] ↔ b.key ∈ [parent.key]) := by
    intro a ha b hab
    have hne := hkey b (.head ha hab)
    simp [hne]
  obtain ⟨met', hbelow⟩ := hdf.congr_met hother
  obtain ⟨n, hparents⟩ := exists_replicate hparent
  have hmet : parent.key ∈ met' := hbelow.subset_met List.mem_cons_self
  have hsearch : DepthFirst EntityClass.key (p.parents cache) [c.key] (p.parents cache c)
      (parent :: above) met' := by
    rw [hparents, List.replicate_succ, ← List.append_nil (parent :: above)]
    exact .first (by simpa using hkey parent .refl) hbelow (depthFirst_replicate hmet n)
  refine ancestors_eq_ok (fun d hd e hfail => ?_) hsearch
  rcases Relation.ReflTransGen.cases_head hd with rfl | ⟨b, hb, hd⟩
  · exact hlook e hfail
  · rw [(hparent b).mp hb] at hd
    exact (hsafe d hd).2 e hfail

/-- The ancestors of a class with one parent are the parent and its ancestors. -/
theorem ancestors_single_iff (hs : p.Sound cache) (hc : p.Declares cache c)
    (hparent : ∀ d, p.Refers cache c d ↔ d = parent)
    (hcycle : ¬Relation.ReflTransGen (p.Refers cache) parent c) {classes : List EntityClass} :
    (p.ancestors c).result cache = .ok classes ↔ (∀ e, ¬p.Fails cache c e) ∧
      ∃ above, (p.ancestors parent).result cache = .ok above ∧ classes = parent :: above := by
  have hrefers := (hparent parent).mpr rfl
  constructor
  · intro h
    obtain ⟨-, -, -, hsafe⟩ := of_ancestors_eq_ok hs hc h
    have hlook := (hsafe c .refl).2
    have hex := explored_ancestors (p := p) parent cache
    cases ha : (p.ancestors parent).result cache with
    | error e =>
      rw [ha] at hex
      obtain ⟨d, hd, hfail⟩ := hex
      exact absurd hfail ((hsafe d (.head hrefers hd)).2 e)
    | ok above =>
      rw [ancestors_single hs hc hparent hcycle hlook ha] at h
      exact ⟨hlook, above, rfl, (Except.ok.inj h).symm⟩
  · rintro ⟨hlook, above, ha, rfl⟩
    exact ancestors_single hs hc hparent hcycle hlook ha

/-! ## The field of a property -/

/-- The field of a property of a class: its type is described with the imports of the file of the
class. -/
def FieldOf (p : Project) (d : EntityClass) (m : Node) (f : Field) : Prop :=
  f.name = m.propertyName ∧ f.declaredIn = d.name ∧
    ∃ source, p.load (p.files.absolute d.sourcePath) = .ok (some source) ∧
      Origin.describe? ⟨p.files, p.settings.cwd, source.imports⟩ m.propertyType? = .ok f.type

theorem gives_iff (hcache : p.shown cache = p.load) {d : EntityClass} {m : Node}
    (hm : m ∈ p.visible d) {f : Field} : p.Gives cache (d, m) f ↔ p.FieldOf d m f := by
  have hshown : p.settings.exposes (m.decorators.map Node.decoratorName) = true :=
    (List.mem_filter.mp hm).2
  unfold Gives FieldOf field?
  simp only [importSource_result, hcache, if_pos hshown]
  constructor
  · rintro ⟨source, hsource, h⟩
    obtain ⟨type, htype, h⟩ := exists_of_bind_eq_ok h
    cases h
    exact ⟨rfl, rfl, source, hsource, htype⟩
  · rintro ⟨hname, hin, source, hsource, htype⟩
    refine ⟨source, hsource, ?_⟩
    rw [htype, ← hname, ← hin]
    rfl

theorem forall₂_gives_iff (hcache : p.shown cache = p.load) (d : EntityClass) {fs : List Field} :
    List.Forall₂ (p.Gives cache) ((p.visible d).map fun m => (d, m)) fs ↔
      List.Forall₂ (p.FieldOf d) (p.visible d) fs := by
  rw [List.forall₂_map_left_iff]
  have hall : ∀ l : List Node, (∀ m ∈ l, m ∈ p.visible d) →
      (List.Forall₂ (fun m f => p.Gives cache (d, m) f) l fs ↔ List.Forall₂ (p.FieldOf d) l fs) := by
    intro l hl
    induction l generalizing fs with
    | nil => simp only [List.forall₂_nil_left_iff]
    | cons m l ih =>
      obtain ⟨hm, hrest⟩ := List.forall_mem_cons.mp hl
      simp only [List.forall₂_cons_left_iff, gives_iff hcache hm, ih hrest]
  exact hall _ fun _ hm => hm

/-! ## Fields -/

theorem exists_append_of_forall₂ {α β : Type} {R : α → β → Prop} {first rest : List α} {l : List β}
    (h : List.Forall₂ R (first ++ rest) l) :
    ∃ l₁ l₂, l = l₁ ++ l₂ ∧ List.Forall₂ R first l₁ ∧ List.Forall₂ R rest l₂ :=
  ⟨l.take first.length, l.drop first.length, (List.take_append_drop _ l).symm,
    (List.forall₂_take_append _ _ _ h.flip).flip, (List.forall₂_drop_append _ _ _ h.flip).flip⟩

theorem addProperties_of_gives {d : EntityClass} {source : Source} {properties : List Node}
    {new : List Field}
    (h : List.Forall₂ (fun m f => p.field? d source m = .ok (some f)) (properties.filter p.shows)
      new) (fields : List Field) :
    properties.foldlM (p.addProperty d source) fields = .ok (new.foldl addField fields) := by
  induction properties generalizing new fields with
  | nil =>
    rw [List.forall₂_nil_left_iff.mp h]
    rfl
  | cons m properties ih =>
    rw [List.foldlM_cons, addProperty]
    by_cases hm : p.shows m
    · rw [List.filter_cons_of_pos hm, List.forall₂_cons_left_iff] at h
      obtain ⟨f, rest, hf, hrest, rfl⟩ := h
      rw [hf]
      exact ih hrest _
    · rw [List.filter_cons_of_neg hm] at h
      rw [field?_of_not_shows hm]
      exact ih h fields

theorem addClass_of_gives (hcache : p.shown cache = p.load) {d : EntityClass}
    (hd : p.Declares cache d) {new : List Field}
    (h : List.Forall₂ (p.Gives cache) ((p.visible d).map fun m => (d, m)) new)
    (fields : List Field) : (p.addClass fields d).result cache = .ok (new.foldl addField fields) := by
  obtain ⟨source, hsource, hresult⟩ := addClass_result (sound_of_shown hcache) hd
  have hloaded : p.Declares [] d := by
    unfold Declares at hd ⊢
    rwa [hcache] at hd
  obtain ⟨text, ⟨cls, around⟩, -, -, hcls⟩ := exists_declaration hloaded
  have hproperties : d.properties = cls.properties := by
    rw [EntityClass.properties, hcls]
    rfl
  rw [List.forall₂_map_left_iff, visible, hproperties] at h
  rw [hresult, hcls]
  refine addProperties_of_gives (h.imp fun m f hgives => ?_) fields
  obtain ⟨source', hsource', hf⟩ := hgives
  rw [hsource', Except.ok.injEq, Option.some.injEq] at hsource
  rw [← hsource]
  exact hf

theorem addClasses_of_gives (hcache : p.shown cache = p.load) {classes : List EntityClass}
    (hd : ∀ d ∈ classes, p.Declares cache d) {new : List Field}
    (h : List.Forall₂ (p.Gives cache) (p.shownBy classes) new) (fields : List Field) :
    classes.foldlM (fun fields d => (p.addClass fields d).result cache) fields =
      .ok (new.foldl addField fields) := by
  induction classes generalizing new fields with
  | nil =>
    rw [List.forall₂_nil_left_iff.mp h]
    rfl
  | cons d classes ih =>
    obtain ⟨hd, hdRest⟩ := List.forall_mem_cons.mp hd
    rw [shownBy, List.flatMap_cons] at h
    obtain ⟨new₁, new₂, rfl, hfirst, hrest⟩ := exists_append_of_forall₂ h
    rw [List.foldlM_cons, addClass_of_gives hcache hd hfirst, List.foldl_append]
    exact ih hdRest hrest _

/-- The fields of a class are what the visible properties of the class and its ancestors give, added
one by one. -/
theorem fields_eq_ok_iff (hcache : p.shown cache = p.load) (hc : p.Declares cache c)
    {fields : List Field} :
    (p.fields c).result cache = .ok fields ↔
      ∃ above, (p.ancestors c).result cache = .ok above ∧
        ∃ candidates, List.Forall₂ (p.Gives cache) (p.shownBy (c :: above)) candidates ∧
          fields = candidates.foldl addField [] := by
  have hs := sound_of_shown hcache
  constructor
  · intro h
    have hresult := h
    rw [fields_result] at hresult
    obtain ⟨above, ha, -⟩ := exists_of_bind_eq_ok hresult
    obtain ⟨candidates, hfields, hgives⟩ := fields_eq_foldl hs hc ha h
    exact ⟨above, ha, candidates, hgives, hfields⟩
  · rintro ⟨above, ha, candidates, hgives, rfl⟩
    rw [fields_result, ha]
    exact addClasses_of_gives hcache (declares_ancestors hs hc ha) hgives []

/-- Every field of a class comes from a property of the class or of one that it leads to. -/
theorem exists_fieldOf (hcache : p.shown cache = p.load) (hc : p.Declares cache c)
    {fields : List Field} (h : (p.fields c).result cache = .ok fields) :
    ∀ f ∈ fields, ∃ d m, Relation.ReflTransGen (p.Refers cache) c d ∧ m ∈ p.visible d ∧
      p.FieldOf d m f := by
  obtain ⟨above, ha, candidates, hgives, rfl⟩ := (fields_eq_ok_iff hcache hc).mp h
  intro f hf
  have hmem : f ∈ candidates := by
    rw [foldl_addField_nil] at hf
    exact mem_of_mem_firstNamed hf
  obtain ⟨⟨d, m⟩, hdm, hgive⟩ := exists_of_forall₂ hgives hmem
  obtain ⟨hd, hm⟩ := mem_shownBy.mp hdm
  exact ⟨d, m, leads_to_ancestors ha d hd, hm, (gives_iff hcache hm).mp hgive⟩

/-- After any session, let all references of a class that lead anywhere lead to one other class, from
which no references lead back.  The class has fields exactly if its look-ups do not fail, its visible
properties give fields and that class has fields.  They are the first of each name that its own
properties give, and then the fields of that class whose names are not among them, each as the file
that declares it gives it. -/
theorem fields_single_parent (ops : List Operation) (hc : p.Declares (p.session ops) c)
    (hparent : ∀ d, p.Refers (p.session ops) c d ↔ d = parent)
    (hcycle : ¬Relation.ReflTransGen (p.Refers (p.session ops)) parent c) (fields : List Field) :
    (p.fields c).result (p.session ops) = .ok fields ↔
      (∀ e, ¬p.Fails (p.session ops) c e) ∧
      ∃ given inherited, List.Forall₂ (p.FieldOf c) (p.visible c) given ∧
        (p.fields parent).result (p.session ops) = .ok inherited ∧
        (∀ f ∈ inherited, ∃ d m, Relation.ReflTransGen (p.Refers (p.session ops)) parent d ∧
          m ∈ p.visible d ∧ p.FieldOf d m f) ∧
        fields = firstNamed given ++
          inherited.filter fun f => !given.any fun g => g.name == f.name := by
  have hcache : p.shown (p.session ops) = p.load := (shown_session ops).trans (shown_nil p)
  generalize p.session ops = cache at hc hparent hcycle hcache ⊢
  have hs := sound_of_shown hcache
  have hdeclared : p.Declares cache parent := hs.declares_found ((hparent parent).mpr rfl)
  have hshown : ∀ l, p.shownBy (c :: l) = (p.visible c).map (fun m => (c, m)) ++ p.shownBy l :=
    fun l => List.flatMap_cons
  rw [fields_eq_ok_iff hcache hc]
  constructor
  · rintro ⟨classes, ha, candidates, hgives, rfl⟩
    obtain ⟨hlook, above, habove, rfl⟩ := (ancestors_single_iff hs hc hparent hcycle).mp ha
    rw [hshown] at hgives
    obtain ⟨given, rest, rfl, hown, hrest⟩ := exists_append_of_forall₂ hgives
    have hinherited := (fields_eq_ok_iff hcache hdeclared).mpr ⟨above, habove, rest, hrest, rfl⟩
    refine ⟨hlook, given, _, (forall₂_gives_iff hcache c).mp hown, hinherited,
      exists_fieldOf hcache hdeclared hinherited, ?_⟩
    rw [foldl_addField_append, foldl_addField_nil]
  · rintro ⟨hlook, given, inherited, hown, hinherited, -, rfl⟩
    obtain ⟨above, habove, rest, hrest, rfl⟩ := (fields_eq_ok_iff hcache hdeclared).mp hinherited
    refine ⟨parent :: above, ancestors_single hs hc hparent hcycle hlook habove, given ++ rest, ?_, ?_⟩
    · rw [hshown]
      exact List.rel_append ((forall₂_gives_iff hcache c).mpr hown) hrest
    · rw [foldl_addField_append, foldl_addField_nil]

/-! ## A class that overrides -/

/-- A class that names its only parent twice and redeclares one of its properties. -/
def overriding : Project := ofText "class B{@C()x;@C()y;}class A extends B implements B{@C()y;}"

theorem load_overriding :
    (overriding.load "/a.ts").map (fun r => r.map fun s => (s.imports, s.classes.map fun e =>
      (e.1, e.2.key, e.2.heritage, e.2.declaration.isSome, e.2.properties.map fun m =>
        (m.propertyName, overriding.shows m, m.propertyType?.isNone)))) =
    .ok (some ([], [("B", ("/a.ts", "B"), [], true, [("x", true, true), ("y", true, true)]),
      ("A", ("/a.ts", "A"), ["B", "B"], true, [("y", true, true)])])) := by
  cbv

/-- The redeclared property comes first, as it is the class's own. -/
theorem fields_single_overriding :
    ∃ a, overriding.Declares (overriding.session []) a ∧ a.key = ("/a.ts", "A") ∧
      (overriding.fields a).result (overriding.session []) =
        .ok [⟨"y", .primitive "Any", "A"⟩, ⟨"x", .primitive "Any", "B"⟩] := by
  obtain ⟨s, hs, hload⟩ := exists_of_map_eq_ok load_overriding
  simp only [Prod.mk.injEq, List.map_eq_cons_iff, List.map_eq_nil_iff,
    Option.isNone_iff_eq_none] at hload
  obtain ⟨himports, ⟨_, b⟩, _, hclasses,
    ⟨rfl, hb, hbH, hbD, x, _, hbP, ⟨hx, hxShown, hxType⟩, y, _, rfl, ⟨hy, hyShown, hyType⟩, rfl⟩,
    ⟨_, a⟩, _, rfl, ⟨rfl, ha, haH, -, m, _, haP, ⟨hm, hmShown, hmType⟩, rfl⟩, rfl⟩ := hload
  dsimp only at haP hbP
  have hnameA : a.name = "A" := congrArg Prod.snd ha
  have hnameB : b.name = "B" := congrArg Prod.snd hb
  have hdeclA : overriding.Declares [] a :=
    declares_ofText hs (by simp [hnameA, hclasses, List.lookup_cons])
  have hdeclB : overriding.Declares [] b :=
    declares_ofText hs (by simp [hnameB, hclasses])
  have hlook : ∀ name, (overriding.findClass a name).result [] = .ok (s.classes.lookup name) :=
    findClass_ofText hs himports (congrArg Prod.fst ha)
  have hparent : ∀ d, overriding.Refers [] a d ↔ d = b := fun d => by
    simp [refers_iff, haH, hlook, hclasses, eq_comm]
  have hcycle : ¬Relation.ReflTransGen (overriding.Refers []) b a := by
    intro h
    rcases Relation.ReflTransGen.cases_head h with rfl | ⟨d, hd, -⟩
    · rw [hnameA] at hnameB
      exact absurd hnameB (by decide)
    · obtain ⟨name, hname, -⟩ := refers_iff.mp hd
      rw [hbH] at hname
      cases hname
  have hlooks : ∀ e, ¬overriding.Fails [] a e := by
    rintro e ⟨name, -, hfail⟩
    rw [hlook] at hfail
    cases hfail
  have hinherited : (overriding.fields b).result [] =
      .ok [⟨"x", .primitive "Any", "B"⟩, ⟨"y", .primitive "Any", "B"⟩] := by
    rw [fields_untyped sound_nil hdeclB (ancestors_of_heritage_nil hbH) (by simp [hbD])
      (by simp [hbP, hxType, hyType])]
    simp [shownBy, visible, hbP, hxShown, hyShown, addField, untyped, hx, hy, hnameB]
  have hown : List.Forall₂ (overriding.FieldOf a) (overriding.visible a)
      [⟨"y", .primitive "Any", "A"⟩] := by
    have hvisible : overriding.visible a = [m] := by simp [visible, haP, hmShown]
    have hpath : a.sourcePath = "/a.ts" := congrArg Prod.fst ha
    have hsource : overriding.load (overriding.files.absolute a.sourcePath) = .ok (some s) := by
      rw [hpath]
      exact (congrArg overriding.load (absolute_ofText _)).trans hs
    rw [hvisible]
    refine .cons ⟨hm.symm, hnameA.symm, s, hsource, ?_⟩ .nil
    rw [hmType]
    rfl
  exact ⟨a, hdeclA, ha, (fields_single_parent [] hdeclA hparent hcycle _).mpr ⟨hlooks, _, _, hown,
    hinherited, exists_fieldOf (shown_nil overriding) hdeclB hinherited, rfl⟩⟩

end Project

end DartModels
