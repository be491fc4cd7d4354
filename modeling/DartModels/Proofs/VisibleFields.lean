import DartModels.Fields
import DartModels.Proofs.AncestryOrder

/-!
# Visible fields

The fields of a class are those of all visible properties of the class and its ancestors, in this
order, except that the first one of a name stays alone.  A property that is not visible is left out
before its name is looked at, so it shadows nothing.

    fields = candidates.foldl addField [], one candidate for each visible property (fields_eq_foldl)
    a name is that of a field ↔ a visible property has it                          (mem_names_fields)
    the field of a name is the one of the first visible property that has it           (find?_fields)
    an excluded property that comes first hides its name ↔ no later one of the name is visible
-/

namespace DartModels

open Syntax

/-- The properties of the body of a class. -/
def EntityClass.properties (c : EntityClass) : List Node :=
  (c.declaration.map Node.properties).getD []

namespace Project

variable {p : Project} {cache : SourceCache}

/-- Whether a property is visible. -/
def shows (p : Project) (property : Node) : Bool :=
  p.settings.exposes (property.decorators.map Node.decoratorName)

/-- Whether a property carries the decorator that excludes it. -/
def excludes (p : Project) (property : Node) : Bool :=
  (property.decorators.map Node.decoratorName).any fun name =>
    p.settings.excludeDecorator.same (.str name)

/-- The visible properties of a class. -/
def visible (p : Project) (c : EntityClass) : List Node := c.properties.filter p.shows

/-- The visible properties of some classes, each with the class that declares it. -/
def shownBy (p : Project) (classes : List EntityClass) : List (EntityClass × Node) :=
  classes.flatMap fun d => (p.visible d).map fun m => (d, m)

/-- The field that a property of a class gives. -/
def Gives (p : Project) (cache : SourceCache) (shown : EntityClass × Node) (f : Field) : Prop :=
  ∃ source, (p.importSource shown.1.sourcePath).result cache = .ok (some source) ∧
    p.field? shown.1 source shown.2 = .ok (some f)

/-- The first property of a name that some classes show, in their order. -/
def firstShown (p : Project) (classes : List EntityClass) (name : String) :
    Option (EntityClass × Node) :=
  (p.shownBy classes).find? fun shown => shown.2.propertyName == name

theorem shows_of_excludes {property : Node} (h : p.excludes property = true) :
    p.shows property = false := by
  unfold excludes at h
  unfold shows SourceSettings.exposes
  rw [if_neg, h]
  · rfl
  · intro hnil
    rw [List.isEmpty_iff.mp hnil] at h
    cases h

/-! ## Adding fields -/

theorem find?_addField (fields : List Field) (f : Field) (name : String) :
    (addField fields f).find? (fun g => g.name == name) =
      (fields ++ [f]).find? fun g => g.name == name := by
  unfold addField
  split
  · next h =>
    rw [List.find?_append]
    cases hfound : fields.find? fun g => g.name == name with
    | some g => rfl
    | none =>
      -- a field of the name of `f` is there, so `f` has another name
      obtain ⟨g, hg, hgf⟩ := List.any_eq_true.mp h
      have hgn := List.find?_eq_none.mp hfound g hg
      rw [beq_iff_eq.mp hgf] at hgn
      rw [List.find?_singleton, if_neg hgn, Option.or_none]
  · rfl

theorem find?_foldl_addField (new fields : List Field) (name : String) :
    (new.foldl addField fields).find? (fun g => g.name == name) =
      (fields ++ new).find? fun g => g.name == name := by
  induction new generalizing fields with
  | nil => rw [List.foldl_nil, List.append_nil]
  | cons f new ih =>
    rw [List.foldl_cons, ih, List.find?_append, find?_addField, ← List.find?_append,
      List.append_assoc, List.singleton_append]

theorem nodup_names_foldl_addField (new : List Field) {fields : List Field}
    (h : (fields.map Field.name).Nodup) : ((new.foldl addField fields).map Field.name).Nodup := by
  induction new generalizing fields with
  | nil => exact h
  | cons f new ih =>
    refine ih ?_
    unfold addField
    split
    · exact h
    · next hnew =>
      rw [List.map_append, List.map_singleton, ← List.concat_eq_append, List.nodup_concat]
      refine ⟨fun hmem => hnew ?_, h⟩
      obtain ⟨g, hg, hname⟩ := List.mem_map.mp hmem
      exact List.any_eq_true.mpr ⟨g, hg, beq_iff_eq.mpr hname⟩

/-! ## The properties of one class -/

theorem field?_of_shows {declaring : EntityClass} {source : Source} {property : Node}
    {r : Option Field} (h : p.field? declaring source property = .ok r)
    (hs : p.shows property = true) :
    ∃ f, r = some f ∧ f.name = property.propertyName ∧ f.declaredIn = declaring.name := by
  unfold shows at hs
  unfold field? at h
  rw [if_pos hs] at h
  dsimp only at h
  obtain ⟨type, -, h⟩ := exists_of_bind_eq_ok h
  cases h
  exact ⟨_, rfl, rfl, rfl⟩

theorem field?_of_not_shows {declaring : EntityClass} {source : Source} {property : Node}
    (hs : ¬p.shows property = true) : p.field? declaring source property = .ok none := by
  unfold field?
  exact if_neg hs

theorem shows_of_gives {shown : EntityClass × Node} {f : Field} (h : p.Gives cache shown f) :
    p.shows shown.2 = true := by
  obtain ⟨source, -, hf⟩ := h
  by_contra hs
  rw [field?_of_not_shows hs] at hf
  cases hf

theorem name_of_gives {shown : EntityClass × Node} {f : Field} (h : p.Gives cache shown f) :
    f.name = shown.2.propertyName := by
  have hs := shows_of_gives h
  obtain ⟨source, -, hf⟩ := h
  obtain ⟨g, hg, hname, -⟩ := field?_of_shows hf hs
  cases hg
  exact hname

theorem addProperties_eq_ok {declaring : EntityClass} {source : Source} {properties : List Node}
    {fields fields' : List Field}
    (h : properties.foldlM (p.addProperty declaring source) fields = .ok fields') :
    ∃ new : List Field, fields' = new.foldl addField fields ∧
      List.Forall₂ (fun m f => p.field? declaring source m = .ok (some f))
        (properties.filter p.shows) new := by
  induction properties generalizing fields with
  | nil =>
    cases h
    exact ⟨[], rfl, .nil⟩
  | cons m properties ih =>
    rw [List.foldlM_cons] at h
    obtain ⟨fields₁, hadd, hrest⟩ := exists_of_bind_eq_ok h
    obtain ⟨new, hnew, hgives⟩ := ih hrest
    unfold addProperty at hadd
    obtain ⟨r, hf, hadd⟩ := exists_of_bind_eq_ok hadd
    by_cases hs : p.shows m
    · obtain ⟨f, rfl, -⟩ := field?_of_shows hf hs
      cases hadd
      exact ⟨f :: new, hnew, by rw [List.filter_cons_of_pos hs]; exact .cons hf hgives⟩
    · rw [field?_of_not_shows hs] at hf
      cases hf
      cases hadd
      exact ⟨new, hnew, by rw [List.filter_cons_of_neg hs]; exact hgives⟩

/-! ## The properties of all classes -/

theorem steady_addClass (fields : List Field) (declaring : EntityClass) :
    p.Steady (p.addClass fields declaring) := by
  refine steady_bind (steady_importSource _) fun source => ?_
  cases source with
  | none => exact steady_pure _
  | some source =>
    dsimp only
    split
    · exact steady_throw _
    · exact steady_lift _

theorem steady_fields (c : EntityClass) : p.Steady (p.fields c) :=
  steady_bind (steady_ancestors c) fun _ => steady_foldlM steady_addClass _ _

theorem fields_result (c : EntityClass) (cache : SourceCache) :
    (p.fields c).result cache = (p.ancestors c).result cache >>= fun above =>
      (c :: above).foldlM (fun fields d => (p.addClass fields d).result cache) [] := by
  unfold Project.fields
  rw [result_bind (steady_ancestors c) fun _ => steady_foldlM steady_addClass _ _]
  simp only [result_foldlM steady_addClass]

theorem addClass_result (hs : p.Sound cache) {d : EntityClass} (hd : p.Declares cache d) :
    ∃ source, (p.importSource d.sourcePath).result cache = .ok (some source) ∧
      ∀ fields, (p.addClass fields d).result cache =
        match d.declaration with
        | none => .error (.kind (.noAttribute "NoneType" "child_by_field_name"))
        | some cls => cls.properties.foldlM (p.addProperty d source) fields := by
  obtain ⟨path, s, hshown, hlook⟩ := hd
  have hsource : (p.importSource d.sourcePath).result cache = .ok (some s) := by
    rw [importSource_result, (hs.lookup_eq hshown hlook).2, FileSystem.absolute_absolute, hshown]
  refine ⟨s, hsource, fun fields => (Loading.result_bind_ok hsource _).trans ?_⟩
  cases d.declaration <;> rfl

theorem addClass_eq_ok (hs : p.Sound cache) {d : EntityClass} (hd : p.Declares cache d)
    {fields fields' : List Field} (h : (p.addClass fields d).result cache = .ok fields') :
    ∃ new : List Field, fields' = new.foldl addField fields ∧
      List.Forall₂ (p.Gives cache) ((p.visible d).map fun m => (d, m)) new := by
  obtain ⟨source, hsource, hresult⟩ := addClass_result hs hd
  rw [hresult] at h
  unfold visible EntityClass.properties
  cases hdecl : d.declaration with
  | none =>
    rw [hdecl] at h
    cases h
  | some cls =>
    rw [hdecl] at h
    obtain ⟨new, hnew, hgives⟩ := addProperties_eq_ok h
    refine ⟨new, hnew, List.forall₂_map_left_iff.mpr (hgives.imp fun m f hf => ?_)⟩
    exact ⟨source, hsource, hf⟩

theorem addClasses_eq_ok (hs : p.Sound cache) {classes : List EntityClass}
    (hd : ∀ d ∈ classes, p.Declares cache d) {fields fields' : List Field}
    (h : classes.foldlM (fun fields d => (p.addClass fields d).result cache) fields =
      .ok fields') :
    ∃ new : List Field, fields' = new.foldl addField fields ∧
      List.Forall₂ (p.Gives cache) (p.shownBy classes) new := by
  induction classes generalizing fields with
  | nil =>
    cases h
    exact ⟨[], rfl, .nil⟩
  | cons d classes ih =>
    rw [List.foldlM_cons] at h
    obtain ⟨fields₁, hc, h⟩ := exists_of_bind_eq_ok h
    obtain ⟨new₁, rfl, hgives₁⟩ := addClass_eq_ok hs (hd d List.mem_cons_self) hc
    obtain ⟨new₂, rfl, hgives₂⟩ := ih (fun b hb => hd b (List.mem_cons_of_mem _ hb)) h
    refine ⟨new₁ ++ new₂, List.foldl_append.symm, ?_⟩
    rw [shownBy, List.flatMap_cons]
    exact List.rel_append hgives₁ hgives₂

theorem declares_ancestors (hs : p.Sound cache) {c : EntityClass} (hc : p.Declares cache c)
    {above : List EntityClass} (ha : (p.ancestors c).result cache = .ok above) :
    ∀ d ∈ c :: above, p.Declares cache d :=
  fun d hd => hs.declares_reached hc (leads_to_ancestors ha d hd)

/-- The fields are the candidates without those whose name was there before. -/
theorem fields_eq_foldl (hs : p.Sound cache) {c : EntityClass} (hc : p.Declares cache c)
    {above : List EntityClass} (ha : (p.ancestors c).result cache = .ok above)
    {fields : List Field} (hf : (p.fields c).result cache = .ok fields) :
    ∃ candidates : List Field, fields = candidates.foldl addField [] ∧
      List.Forall₂ (p.Gives cache) (p.shownBy (c :: above)) candidates := by
  rw [fields_result, ha] at hf
  exact addClasses_eq_ok hs (declares_ancestors hs hc ha) hf

theorem find?_of_gives {shown : List (EntityClass × Node)} {candidates : List Field}
    (h : List.Forall₂ (p.Gives cache) shown candidates) (name : String) :
    Option.Rel (p.Gives cache) (shown.find? fun s => s.2.propertyName == name)
      (candidates.find? fun f => f.name == name) := by
  induction h with
  | nil => exact .none
  | cons hsf _ ih =>
    rw [List.find?_cons, List.find?_cons, name_of_gives hsf]
    split
    · exact .some hsf
    · exact ih

/-- A field of a name is there exactly if a property of the name is shown, and it is the one that
the first such property gives. -/
theorem find?_fields (hs : p.Sound cache) {c : EntityClass} (hc : p.Declares cache c)
    {above : List EntityClass} (ha : (p.ancestors c).result cache = .ok above)
    {fields : List Field} (hf : (p.fields c).result cache = .ok fields) (name : String) :
    Option.Rel (p.Gives cache) (p.firstShown (c :: above) name)
      (fields.find? fun f => f.name == name) := by
  obtain ⟨candidates, rfl, hgives⟩ := fields_eq_foldl hs hc ha hf
  rw [find?_foldl_addField, List.nil_append]
  exact find?_of_gives hgives name

theorem nodup_names_fields (hs : p.Sound cache) {c : EntityClass} (hc : p.Declares cache c)
    {above : List EntityClass} (ha : (p.ancestors c).result cache = .ok above)
    {fields : List Field} (hf : (p.fields c).result cache = .ok fields) :
    (fields.map Field.name).Nodup := by
  obtain ⟨candidates, rfl, -⟩ := fields_eq_foldl hs hc ha hf
  exact nodup_names_foldl_addField candidates List.nodup_nil

theorem isSome_iff_of_rel {α β : Type} {R : α → β → Prop} {a : Option α} {b : Option β}
    (h : Option.Rel R a b) : a.isSome ↔ b.isSome := by
  cases h <;> simp

theorem mem_shownBy {classes : List EntityClass} {d : EntityClass} {m : Node} :
    (d, m) ∈ p.shownBy classes ↔ d ∈ classes ∧ m ∈ p.visible d := by
  simp [shownBy]

theorem isSome_firstShown {classes : List EntityClass} {name : String} :
    (p.firstShown classes name).isSome ↔
      ∃ d ∈ classes, ∃ m ∈ p.visible d, m.propertyName = name := by
  rw [firstShown, List.find?_isSome]
  constructor
  · rintro ⟨⟨d, m⟩, hdm, hname⟩
    obtain ⟨hd, hm⟩ := mem_shownBy.mp hdm
    exact ⟨d, hd, m, hm, beq_iff_eq.mp hname⟩
  · rintro ⟨d, hd, m, hm, hname⟩
    exact ⟨(d, m), mem_shownBy.mpr ⟨hd, hm⟩, beq_iff_eq.mpr hname⟩

theorem mem_names_fields (hs : p.Sound cache) {c : EntityClass} (hc : p.Declares cache c)
    {above : List EntityClass} (ha : (p.ancestors c).result cache = .ok above)
    {fields : List Field} (hf : (p.fields c).result cache = .ok fields) (name : String) :
    name ∈ fields.map Field.name ↔
      ∃ d ∈ c :: above, ∃ m ∈ p.visible d, m.propertyName = name := by
  rw [← isSome_firstShown, isSome_iff_of_rel (find?_fields hs hc ha hf name), List.find?_isSome,
    List.mem_map]
  simp only [beq_iff_eq]

/-! ## Excluded properties -/

/-- Let `d` be the first of the class and its ancestors that declares a property of a name, and let
its first one be excluded.  It hides the name exactly if the properties of that name after it are
not visible either: an excluded property shadows nothing. -/
theorem excluded_hides_iff (hs : p.Sound cache) {c : EntityClass} (hc : p.Declares cache c)
    {above : List EntityClass} (ha : (p.ancestors c).result cache = .ok above)
    {fields : List Field} (hf : (p.fields c).result cache = .ok fields) {name : String}
    {before after : List EntityClass} {d : EntityClass} (hd : c :: above = before ++ d :: after)
    (hbefore : ∀ b ∈ before, ∀ m ∈ b.properties, m.propertyName ≠ name)
    {first last : List Node} {m : Node} (hm : d.properties = first ++ m :: last)
    (hfirst : ∀ m' ∈ first, m'.propertyName ≠ name) (hname : m.propertyName = name)
    (hexcluded : p.excludes m = true) :
    (∀ f ∈ fields, f.name ≠ name) ↔
      (∀ m' ∈ last, m'.propertyName = name → p.shows m' = false) ∧
        ∀ b ∈ after, ∀ m' ∈ b.properties, m'.propertyName = name → p.shows m' = false := by
  have hmem := mem_names_fields hs hc ha hf name
  rw [hd] at hmem
  constructor
  · intro hnone
    have hno : ¬∃ b ∈ before ++ d :: after, ∃ m' ∈ p.visible b, m'.propertyName = name := by
      rw [← hmem]
      rintro h
      obtain ⟨f, hf, e⟩ := List.mem_map.mp h
      exact hnone f hf e
    have hall : ∀ b ∈ d :: after, ∀ m' ∈ b.properties, m'.propertyName = name →
        p.shows m' = false := by
      intro b hb m' hm' e
      refine Bool.eq_false_iff.mpr fun hshown => hno ⟨b, ?_, m', ?_, e⟩
      · exact List.mem_append_right _ hb
      · exact List.mem_filter.mpr ⟨hm', hshown⟩
    refine ⟨fun m' hm' => hall d List.mem_cons_self m' ?_, fun b hb => hall b ?_⟩
    · rw [hm]
      exact List.mem_append_right _ (List.mem_cons_of_mem _ hm')
    · exact List.mem_cons_of_mem _ hb
  · rintro ⟨hlast, hafter⟩ f hf e
    obtain ⟨b, hb, m', hm', e'⟩ := hmem.mp (e ▸ List.mem_map_of_mem hf)
    obtain ⟨hm', hshown⟩ := List.mem_filter.mp hm'
    have hhidden : p.shows m' = false := by
      rcases List.mem_append.mp hb with hb | hb
      · exact absurd e' (hbefore b hb m' hm')
      · rcases List.mem_cons.mp hb with rfl | hb
        · rw [hm] at hm'
          rcases List.mem_append.mp hm' with hm' | hm'
          · exact absurd e' (hfirst m' hm')
          · rcases List.mem_cons.mp hm' with rfl | hm'
            · exact shows_of_excludes hexcluded
            · exact hlast m' hm' e'
        · exact hafter b hb m' hm' e'
    rw [hhidden] at hshown
    cases hshown

/-! ## A redeclared property -/

theorem ancestors_eq_singleton {a b : EntityClass} (hne : b.key ≠ a.key)
    (ha : p.parents cache a = [b]) (hb : b.heritage = []) (hlook : ∀ e, ¬p.Fails cache a e) :
    (p.ancestors a).result cache = .ok [b] := by
  have hparents : p.parents cache b = [] := by rw [parents, hb, List.filterMap_nil]
  have hbelow : DepthFirst EntityClass.key (p.parents cache) [b.key, a.key] (p.parents cache b) []
      [b.key, a.key] := by
    rw [hparents]
    exact .done
  have hsearch : DepthFirst EntityClass.key (p.parents cache) [a.key] (p.parents cache a) [b]
      [b.key, a.key] := by
    rw [ha]
    exact .first (by simpa using hne) hbelow .done
  refine ancestors_eq_ok (fun d hd e hfail => ?_) hsearch
  rcases Relation.ReflTransGen.cases_head hd with rfl | ⟨c, hc, hd⟩
  · exact hlook e hfail
  · rw [Refers, ha, List.mem_singleton] at hc
    subst hc
    rcases Relation.ReflTransGen.cases_head hd with rfl | ⟨c, hc, -⟩
    · obtain ⟨name, hname, -⟩ := hfail
      rw [hb] at hname
      cases hname
    · rw [Refers, hparents] at hc
      cases hc

/-- The field of a property without a type. -/
def untyped (shown : EntityClass × Node) : Field :=
  ⟨shown.2.propertyName, .primitive "Any", shown.1.name⟩

theorem addProperties_untyped {declaring : EntityClass} {source : Source} {properties : List Node}
    (h : ∀ m ∈ properties, m.propertyType? = none) (fields : List Field) :
    properties.foldlM (p.addProperty declaring source) fields =
      .ok (((properties.filter p.shows).map fun m => untyped (declaring, m)).foldl addField
        fields) := by
  induction properties generalizing fields with
  | nil => rfl
  | cons m properties ih =>
    obtain ⟨hm, hrest⟩ := List.forall_mem_cons.mp h
    rw [List.foldlM_cons, addProperty]
    by_cases hs : p.shows m
    · have hf : p.field? declaring source m = .ok (some (untyped (declaring, m))) := by
        unfold shows at hs
        rw [field?, if_pos hs, hm]
        rfl
      rw [hf, List.filter_cons_of_pos hs]
      exact ih hrest _
    · rw [field?_of_not_shows hs, List.filter_cons_of_neg hs]
      exact ih hrest fields

theorem addClasses_untyped (hs : p.Sound cache) {classes : List EntityClass}
    (hd : ∀ d ∈ classes, p.Declares cache d) (hdecl : ∀ d ∈ classes, d.declaration.isSome)
    (htype : ∀ d ∈ classes, ∀ m ∈ d.properties, m.propertyType? = none) (fields : List Field) :
    classes.foldlM (fun fields d => (p.addClass fields d).result cache) fields =
      .ok (((p.shownBy classes).map untyped).foldl addField fields) := by
  induction classes generalizing fields with
  | nil => rfl
  | cons d classes ih =>
    obtain ⟨hd, hdRest⟩ := List.forall_mem_cons.mp hd
    obtain ⟨hsome, hsomeRest⟩ := List.forall_mem_cons.mp hdecl
    obtain ⟨hnone, hnoneRest⟩ := List.forall_mem_cons.mp htype
    obtain ⟨source, -, hresult⟩ := addClass_result hs hd
    obtain ⟨cls, hcls⟩ := Option.isSome_iff_exists.mp hsome
    have hprops : d.properties = cls.properties := by
      rw [EntityClass.properties, hcls]
      rfl
    have hfirst : (p.addClass fields d).result cache =
        .ok ((((p.visible d).map fun m => (d, m)).map untyped).foldl addField fields) := by
      rw [hresult, hcls, visible, hprops, List.map_map]
      exact addProperties_untyped (hprops ▸ hnone) fields
    rw [List.foldlM_cons, hfirst, shownBy, List.flatMap_cons, List.map_append, List.foldl_append]
    exact ih hdRest hsomeRest hnoneRest _

/-- Without types the fields are the visible properties, the first of each name. -/
theorem fields_untyped (hs : p.Sound cache) {c : EntityClass} (hc : p.Declares cache c)
    {above : List EntityClass} (ha : (p.ancestors c).result cache = .ok above)
    (hdecl : ∀ d ∈ c :: above, d.declaration.isSome)
    (htype : ∀ d ∈ c :: above, ∀ m ∈ d.properties, m.propertyType? = none) :
    (p.fields c).result cache =
      .ok (((p.shownBy (c :: above)).map untyped).foldl addField []) := by
  rw [fields_result, ha]
  exact addClasses_untyped hs (declares_ancestors hs hc ha) hdecl htype []

/-- A class that redeclares an inherited property to exclude it. -/
def redeclared : Project := ofText "class B{@C()x;}class A extends B{@Exclude()x;}"

theorem load_redeclared :
    (redeclared.load "/a.ts").map (fun r => r.map fun s => (s.imports, s.classes.map fun e =>
      (e.1, e.2.key, e.2.heritage, e.2.declaration.isSome, e.2.properties.map fun m =>
        (m.propertyName, redeclared.excludes m, redeclared.shows m, m.propertyType?.isNone)))) =
    .ok (some ([], [("B", ("/a.ts", "B"), [], true, [("x", false, true, true)]),
      ("A", ("/a.ts", "A"), ["B"], true, [("x", true, false, true)])])) := by
  cbv

theorem redeclared_fields :
    ∃ a b m n, redeclared.Declares [] a ∧ (redeclared.ancestors a).result [] = .ok [b] ∧
      a.properties = [m] ∧ b.properties = [n] ∧ m.propertyName = "x" ∧ n.propertyName = "x" ∧
      redeclared.excludes m = true ∧ redeclared.shows n = true ∧
      (redeclared.fields a).result [] = .ok [⟨"x", .primitive "Any", "B"⟩] := by
  obtain ⟨s, hs, hload⟩ := exists_of_map_eq_ok load_redeclared
  simp only [Prod.mk.injEq, List.map_eq_cons_iff, List.map_eq_nil_iff,
    Option.isNone_iff_eq_none] at hload
  obtain ⟨himports, ⟨_, b⟩, _, hclasses,
    ⟨rfl, hb, hbH, hbD, n, _, hbP, ⟨hn, -, hnShown, hnType⟩, rfl⟩,
    ⟨_, a⟩, _, rfl, ⟨rfl, ha, haH, haD, m, _, haP, ⟨hm, hmExcluded, hmShown, hmType⟩, rfl⟩,
    rfl⟩ := hload
  have hnameA : a.name = "A" := congrArg Prod.snd ha
  have hnameB : b.name = "B" := congrArg Prod.snd hb
  have hdeclA : redeclared.Declares [] a :=
    declares_ofText hs (by simp [hnameA, hclasses, List.lookup_cons])
  have hlook : ∀ name, (redeclared.findClass a name).result [] = .ok (s.classes.lookup name) :=
    findClass_ofText hs himports (congrArg Prod.fst ha)
  have hancestors : (redeclared.ancestors a).result [] = .ok [b] := by
    refine ancestors_eq_singleton ?_ ?_ hbH ?_
    · simp [ha, hb]
    · simp [parents, haH, found, hlook, hclasses]
    · rintro e ⟨name, -, hfail⟩
      rw [hlook] at hfail
      cases hfail
  refine ⟨a, b, m, n, hdeclA, hancestors, haP, hbP, hm, hn, hmExcluded, hnShown, ?_⟩
  dsimp only at haP hbP
  rw [fields_untyped sound_nil hdeclA hancestors (by simp [haD, hbD])
    (by simp [haP, hbP, hmType, hnType])]
  simp [shownBy, visible, haP, hbP, hmShown, hnShown, addField, untyped, hn, hnameB]

/-- The inherited property is exposed again: the subclass excludes its name to no effect. -/
theorem redeclared_exposed :
    ¬∀ (c : EntityClass) (above : List EntityClass) (fields : List Field) (name : String)
        (before after : List EntityClass) (d : EntityClass) (first last : List Node) (m : Node),
      redeclared.Declares [] c → (redeclared.ancestors c).result [] = .ok above →
      (redeclared.fields c).result [] = .ok fields → c :: above = before ++ d :: after →
      (∀ b ∈ before, ∀ m' ∈ b.properties, m'.propertyName ≠ name) →
      d.properties = first ++ m :: last → (∀ m' ∈ first, m'.propertyName ≠ name) →
      m.propertyName = name → redeclared.excludes m = true → ∀ f ∈ fields, f.name ≠ name := by
  intro hclaim
  obtain ⟨a, b, m, n, ha, hab, hm, -, hname, -, hexcluded, -, hfields⟩ := redeclared_fields
  exact hclaim a [b] _ "x" [] [b] a [] [] m ha hab hfields rfl (List.forall_mem_nil _) hm
    (List.forall_mem_nil _) hname hexcluded _ List.mem_cons_self rfl

/-- The excluded property does not hide its name, as the inherited one is visible. -/
theorem redeclared_hides_iff :
    ∃ a b m fields, redeclared.Declares [] a ∧ (redeclared.ancestors a).result [] = .ok [b] ∧
      (redeclared.fields a).result [] = .ok fields ∧ a.properties = [m] ∧
      redeclared.excludes m = true ∧
      ((∀ f ∈ fields, f.name ≠ "x") ↔
        (∀ m' ∈ ([] : List Node), m'.propertyName = "x" → redeclared.shows m' = false) ∧
          ∀ c ∈ [b], ∀ m' ∈ c.properties, m'.propertyName = "x" → redeclared.shows m' = false) := by
  obtain ⟨a, b, m, n, ha, hab, hm, -, hname, -, hexcluded, -, hfields⟩ := redeclared_fields
  exact ⟨a, b, m, _, ha, hab, hfields, hm, hexcluded,
    excluded_hides_iff sound_nil ha hab hfields rfl (List.forall_mem_nil _) hm
      (List.forall_mem_nil _) hname hexcluded⟩

end Project

end DartModels
