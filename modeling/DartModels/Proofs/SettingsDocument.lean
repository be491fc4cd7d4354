import DartModels.Proofs.DistinctNames
import DartModels.Settings

/-!
# Settings and their document

A section is read setting by setting, in the order of its members.  As no name stands twice, what is
read is told by looking every setting up: the order of the members does not matter, and neither do
members that are no setting.  The document of the settings states every setting, so it reads back as
the same settings.

    a fold that sets members one by one looks each of them up               (foldlM_eq_updated)
    SourceSettings.ofJson (.obj ms) = .ok (default.updated ms)    (SourceSettings.ofJson_eq_ok)
    ofJson d = .ok c  →  toJson c = .ok d'  →  ofJson d' = .ok c       (Settings.ofJson_toJson)
-/

namespace DartModels

namespace Json

/-- The member of an object with a name; any other value has none. -/
def under? (name : String) : Json → Option Json
  | .obj members => member? name members
  | _ => none

/-- The member with a name, or a value in its place. -/
def memberOr (missing : Json) (name : String) (members : List (String × Json)) : Json :=
  (member? name members).getD missing

theorem member?_eq_lookup (name : String) (members : List (String × Json)) :
    member? name members = members.lookup name := by
  induction members with
  | nil => rfl
  | cons m members ih =>
    obtain ⟨k, v⟩ := m
    rw [member?, List.lookup_cons, ih]
    by_cases hk : k = name
    · rw [if_pos hk, hk, beq_self_eq_true]
    · rw [if_neg hk, beq_false_of_ne (Ne.symm hk)]

theorem member?_eq_none {name : String} {members : List (String × Json)}
    (h : name ∉ members.map Prod.fst) : member? name members = none := by
  rw [member?_eq_lookup, List.lookup_eq_none_iff]
  intro m hm
  have hne : name ≠ m.1 := fun heq => h (List.mem_map.mpr ⟨m, hm, heq.symm⟩)
  rw [bne_iff_ne]
  exact hne

theorem member?_ne_none {m : String × Json} {members : List (String × Json)} (hm : m ∈ members) :
    member? m.1 members ≠ none := by
  rw [member?_eq_lookup, Ne, List.lookup_eq_none_iff]
  intro hnone
  have hne := hnone m hm
  rw [bne_self_eq_false] at hne
  cases hne

theorem member?_of_mem {m : String × Json} {members : List (String × Json)}
    (hnames : (members.map Prod.fst).Nodup) (hm : m ∈ members) :
    member? m.1 members = some m.2 := by
  rw [member?_eq_lookup]
  exact lookup_of_mem hnames hm

theorem distinct_obj {members : List (String × Json)} : (Json.obj members).Distinct ↔
    (members.map Prod.fst).Nodup ∧ ∀ m ∈ members, m.2.Distinct := by
  constructor
  · intro h
    cases h with
    | obj hnames hvalues => exact ⟨hnames, hvalues⟩
  · rintro ⟨hnames, hvalues⟩
    exact .obj hnames hvalues

theorem distinct_arr {items : List Json} : (Json.arr items).Distinct ↔ ∀ v ∈ items, v.Distinct := by
  constructor
  · intro h
    cases h with
    | arr hitems => exact hitems
  · intro hitems
    exact .arr hitems

end Json

/-! ## Members set one by one -/

section

variable {σ : Type} {set : σ → String → Json → Except Error σ}
  {updated : σ → List (String × Json) → σ} {Fits : String × Json → Prop} (Inv : σ → Prop)

/-- Where a step sets what a lookup finds, all steps set what the lookups find. -/
theorem foldlM_eq_updated (hnil : ∀ s, updated s [] = s)
    (hstep : ∀ s m members, Inv s → Fits m → m.1 ∉ members.map Prod.fst →
      ∃ t, set s m.1 m.2 = .ok t ∧ Inv t ∧ updated t members = updated s (m :: members))
    {members : List (String × Json)} (hnames : (members.map Prod.fst).Nodup)
    (hfits : ∀ m ∈ members, Fits m) {s : σ} (hs : Inv s) :
    members.foldlM (fun s m => set s m.1 m.2) s = .ok (updated s members) := by
  induction members generalizing s with
  | nil =>
    rw [hnil]
    rfl
  | cons m members ih =>
    obtain ⟨hname, hnames⟩ := List.nodup_cons.mp hnames
    obtain ⟨hfit, hfits⟩ := List.forall_mem_cons.mp hfits
    obtain ⟨t, hset, ht, hupdated⟩ := hstep s m members hs hfit hname
    rw [List.foldlM_cons, hset, ok_bind, ih hnames hfits ht, hupdated]

end

/-! ## Records -/

/-- The names of all attributes of a record that are no settings. -/
def attributeNames : List String := recordAttributes ++ reservedAttributes

theorem setAttribute_unknown (owner : String) {name : String} (h : name ∉ attributeNames) (v : Json) :
    setAttribute owner name v [] = .ok [] := by
  obtain ⟨hrecord, hreserved⟩ := not_or.mp fun hmem => h (List.mem_append.mpr hmem)
  have hclass : name ≠ "__class__" := by
    rintro rfl
    exact hreserved (by decide)
  have hreference : name ≠ "__weakref__" := by
    rintro rfl
    exact hreserved (by decide)
  unfold setAttribute
  rw [if_neg hclass, if_neg hreference, if_neg (by simpa using hrecord)]

namespace EntityRules

/-- The names of the rules. -/
def names : List String := ["decorator", "extends", "implements"]

/-- Rules with the members of an object set. -/
def updated (r : EntityRules) (members : List (String × Json)) : EntityRules where
  decorator := Json.memberOr r.decorator "decorator" members
  base := Json.memberOr r.base "extends" members
  interface := Json.memberOr r.interface "implements" members

theorem ofMembers_eq_ok {members : List (String × Json)} (hnames : (members.map Prod.fst).Nodup)
    (h : ∀ m ∈ members, m.1 ∈ names) : ofMembers members = .ok (empty.updated members) := by
  refine foldlM_eq_updated (fun _ => True) (fun _ => rfl) (fun r m rest _ hm hrest => ?_)
    hnames h trivial
  obtain ⟨name, v⟩ := m
  have hnone := Json.member?_eq_none hrest
  simp only [names, List.mem_cons, List.not_mem_nil, or_false] at hm hnone
  rcases hm with rfl | rfl | rfl <;>
  · refine ⟨_, rfl, trivial, ?_⟩
    simp [updated, Json.memberOr, Json.member?, hnone]

end EntityRules

namespace NameFormats

/-- The names of the formats. -/
def names : List String := ["name", "filename"]

/-- Formats with the members of an object set. -/
def updated (f : NameFormats) (members : List (String × Json)) : NameFormats where
  name := Json.memberOr f.name "name" members
  filename := Json.memberOr f.filename "filename" members

theorem ofMembers_eq_ok {members : List (String × Json)} (hnames : (members.map Prod.fst).Nodup)
    (h : ∀ m ∈ members, m.1 ∈ names) :
    ofMembers members = .ok (updated ⟨.null, .null⟩ members) := by
  refine foldlM_eq_updated (fun _ => True) (fun _ => rfl) (fun f m rest _ hm hrest => ?_)
    hnames h trivial
  obtain ⟨name, v⟩ := m
  have hnone := Json.member?_eq_none hrest
  simp only [names, List.mem_cons, List.not_mem_nil, or_false] at hm hnone
  rcases hm with rfl | rfl <;>
  · refine ⟨_, rfl, trivial, ?_⟩
    simp [updated, Json.memberOr, Json.member?, hnone]

end NameFormats

/-! ## Sections -/

namespace SourceSettings

/-- The rules that a value gives. -/
def sectionOf : Json → Section EntityRules
  | .obj members => .record (EntityRules.empty.updated members)
  | v => .other v

/-- Settings with the members of a section set. -/
def updated (s : SourceSettings) (members : List (String × Json)) : SourceSettings where
  aliases := s.aliases.map fun v => Json.memberOr v "aliases" members
  cwd := Json.memberOr s.cwd "cwd" members
  root := Json.memberOr s.root "root" members
  ext := Json.memberOr s.ext "ext" members
  moduleSuffix := Json.memberOr s.moduleSuffix "module_suffix" members
  identifier := ((Json.member? "identifier" members).map sectionOf).getD s.identifier
  excludeDecorator := Json.memberOr s.excludeDecorator "exclude_decorator" members
  requireFieldDecorator := Json.memberOr s.requireFieldDecorator "require_field_decorator" members
  workers := Json.memberOr s.workers "workers" members
  attributes := s.attributes

/-- The rules of a section, if they are an object, are rules. -/
def KnownRules (members : List (String × Json)) : Prop :=
  ∀ rules, Json.member? "identifier" members = some (.obj rules) →
    ∀ r ∈ rules, r.1 ∈ EntityRules.names

/-- Settings as the members of a section leave them that has no member for another attribute. -/
structure Intact (s : SourceSettings) : Prop where
  identifier : s.identifier ≠ .missing
  attributes : s.attributes = []

theorem set_identifier {s : SourceSettings} (hs : s.Intact) {v : Json} (hv : v.Distinct)
    (h : ∀ rules, v = .obj rules → ∀ r ∈ rules, r.1 ∈ EntityRules.names) :
    s.set "identifier" v = .ok { s with identifier := sectionOf v } := by
  have hreplace : s.identifier.replace v = .other v := by
    cases hidentifier : s.identifier with
    | missing => exact absurd hidentifier hs.identifier
    | _ => rfl
  cases v with
  | obj rules =>
    show (EntityRules.ofMembers rules >>= _) = _
    rw [EntityRules.ofMembers_eq_ok (Json.distinct_obj.mp hv).1 (h rules rfl)]
    rfl
  | _ => exact congrArg (fun part => Except.ok { s with identifier := part }) hreplace

theorem sectionOf_ne_missing (v : Json) : sectionOf v ≠ .missing := by
  cases v <;> exact nofun

/-- A member that is no other attribute.  The rules that it gives, if they are an object, are rules. -/
structure Fits (m : String × Json) : Prop where
  setting : m.1 ∉ attributeNames
  identifier : m.1 = "identifier" → m.2.Distinct ∧
    ∀ rules, m.2 = .obj rules → ∀ r ∈ rules, r.1 ∈ EntityRules.names

theorem set_updated (s : SourceSettings) (m : String × Json) (members : List (String × Json))
    (hs : s.Intact) (hfits : Fits m) (hname : m.1 ∉ members.map Prod.fst) :
    ∃ t, s.set m.1 m.2 = .ok t ∧ t.Intact ∧ t.updated members = s.updated (m :: members) := by
  obtain ⟨name, v⟩ := m
  have hnone := Json.member?_eq_none hname
  by_cases hidentifier : name = "identifier"
  · obtain ⟨hv, hrules⟩ := hfits.identifier hidentifier
    subst hidentifier
    refine ⟨_, set_identifier hs hv hrules, ⟨sectionOf_ne_missing v, hs.attributes⟩, ?_⟩
    simp [updated, Json.memberOr, Json.member?, hnone]
  · have hattribute := setAttribute_unknown owner hfits.setting v
    rw [← hs.attributes] at hattribute
    unfold set
    dsimp only at hnone hattribute ⊢
    split
    case h_6 => exact absurd rfl hidentifier
    case h_10 => exact absurd (show "__dict__" ∈ attributeNames by decide) hfits.setting
    case h_11 =>
      refine ⟨s, by rw [hattribute]; rfl, hs, ?_⟩
      simp_all [updated, Json.memberOr, Json.member?]
    all_goals
      refine ⟨_, rfl, ⟨hs.identifier, hs.attributes⟩, ?_⟩
      simp_all [updated, Json.memberOr, Json.member?, Function.comp_def]

/-- A section is read by looking its settings up. -/
theorem ofJson_eq_ok {members : List (String × Json)} (hdistinct : (Json.obj members).Distinct)
    (hknown : ∀ m ∈ members, m.1 ∉ attributeNames) (hrules : KnownRules members) :
    ofJson (.obj members) = .ok (default.updated members) := by
  obtain ⟨hnames, hvalues⟩ := Json.distinct_obj.mp hdistinct
  refine foldlM_eq_updated Intact (fun s => ?_) set_updated hnames (fun m hm => ?_)
    ⟨nofun, rfl⟩
  · obtain ⟨⟩ := s
    simp [updated, Json.memberOr, Json.member?]
  · refine ⟨hknown m hm, fun hname => ?_⟩
    have hfound := Json.member?_of_mem hnames hm
    rw [hname] at hfound
    refine ⟨hvalues _ hm, fun rules hobj => ?_⟩
    exact hrules rules (hobj ▸ hfound)

/-- Settings whose aliases are a table and whose rules are a record, and no other attribute. -/
structure Printable (s : SourceSettings) : Prop where
  aliases : ∃ entries, s.aliases = some (.obj entries)
  identifier : ∃ rules, s.identifier = .record rules
  attributes : s.attributes = []

/-- The section that the settings are printed as reads back as the same settings. -/
theorem ofJson_toJson {s : SourceSettings} (h : s.Printable) :
    ∃ v, s.toJson = .ok v ∧ ofJson v = .ok s := by
  obtain ⟨⟨entries, haliases⟩, ⟨rules, hrules⟩, hattributes⟩ := h
  obtain ⟨aliases, cwd, root, ext, suffix, identifier, exclude, require, workers, attributes⟩ := s
  subst haliases hrules hattributes
  exact ⟨_, rfl, rfl⟩

/-- A section with its aliases as a table and its rules as an object of rules.  Every other setting
may hold anything, and so may members that are no attribute. -/
structure WellKinded (v : Json) : Prop where
  object : ∃ members, v = .obj members
  aliases : ∀ w, v.under? "aliases" = some w → ∃ entries, w = .obj entries
  identifier : ∀ w, v.under? "identifier" = some w →
    ∃ rules, w = .obj rules ∧ ∀ r ∈ rules, r.1 ∈ EntityRules.names
  attributes : ∀ name ∈ attributeNames, v.under? name = none

/-- A rule of a section, null if it is not set. -/
def ruleOf (name : String) (v : Json) : Json :=
  (((v.under? "identifier").getD .null).under? name).getD .null

/-- The names of the settings besides the rules. -/
def names : List String :=
  ["aliases", "cwd", "root", "ext", "module_suffix", "exclude_decorator", "require_field_decorator",
    "workers"]

/-- Two sections state the same settings. -/
structure SameSettings (v w : Json) : Prop where
  settings : ∀ name ∈ names, w.under? name = v.under? name
  rules : ∀ name ∈ EntityRules.names, ruleOf name w = ruleOf name v

variable {members members' : List (String × Json)}

theorem WellKinded.unattributed (h : WellKinded (.obj members)) :
    ∀ m ∈ members, m.1 ∉ attributeNames := fun _ hm hname =>
  Json.member?_ne_none hm (h.attributes _ hname)

theorem WellKinded.knownRules (h : WellKinded (.obj members)) : KnownRules members := by
  intro rules hrules
  obtain ⟨rules', heq, hknown⟩ := h.identifier _ hrules
  cases heq
  exact hknown

theorem WellKinded.identifier_eq (h : WellKinded (.obj members)) :
    (default.updated members).identifier = .record ⟨ruleOf "decorator" (.obj members),
      ruleOf "extends" (.obj members), ruleOf "implements" (.obj members)⟩ := by
  have hkind := h.identifier
  unfold updated ruleOf
  unfold Json.under? at hkind ⊢
  dsimp only at hkind ⊢
  cases hfound : Json.member? "identifier" members with
  | none => rfl
  | some v =>
    obtain ⟨rules, rfl, -⟩ := hkind v hfound
    rfl

theorem WellKinded.printable (h : WellKinded (.obj members)) :
    (default.updated members).Printable := by
  refine ⟨?_, ⟨_, h.identifier_eq⟩, rfl⟩
  have haliases := h.aliases
  unfold Json.under? at haliases
  unfold updated default Json.memberOr
  dsimp only [Option.map_some] at haliases ⊢
  cases hfound : Json.member? "aliases" members with
  | none => exact ⟨[], rfl⟩
  | some v =>
    obtain ⟨entries, rfl⟩ := haliases v hfound
    exact ⟨entries, rfl⟩

/-- What a section is read as is told by the settings that it states. -/
theorem WellKinded.updated_congr (h : WellKinded (.obj members)) (h' : WellKinded (.obj members'))
    (hsame : SameSettings (.obj members) (.obj members')) :
    default.updated members' = default.updated members := by
  have hsetting (missing : Json) (name : String) (hname : name ∈ names) :
      Json.memberOr missing name members' = Json.memberOr missing name members :=
    congrArg (Option.getD · missing) (hsame.settings name hname)
  have hrules : (default.updated members').identifier = (default.updated members).identifier := by
    rw [h.identifier_eq, h'.identifier_eq, hsame.rules "decorator" (by decide),
      hsame.rules "extends" (by decide), hsame.rules "implements" (by decide)]
  unfold updated at hrules ⊢
  rw [SourceSettings.mk.injEq]
  refine ⟨congrArg some (hsetting _ _ ?_), hsetting _ _ ?_, hsetting _ _ ?_, hsetting _ _ ?_,
    hsetting _ _ ?_, hrules, hsetting _ _ ?_, hsetting _ _ ?_, hsetting _ _ ?_, rfl⟩
  all_goals decide

end SourceSettings

namespace ModelSettings

/-- The formats that a value gives. -/
def sectionOf : Json → Section NameFormats
  | .obj members => .record (NameFormats.updated ⟨.null, .null⟩ members)
  | v => .other v

/-- Settings with the members of a section set. -/
def updated (s : ModelSettings) (members : List (String × Json)) : ModelSettings where
  out := Json.memberOr s.out "out" members
  imports := s.imports.map fun v => Json.memberOr v "imports" members
  headers := s.headers.map fun v => Json.memberOr v "headers" members
  baseClass := Json.memberOr s.baseClass "base_class" members
  idField := Json.memberOr s.idField "id_field" members
  addGenerationComment := Json.memberOr s.addGenerationComment "add_generation_comment" members
  formatters := ((Json.member? "formatters" members).map sectionOf).getD s.formatters
  workers := Json.memberOr s.workers "workers" members
  attributes := s.attributes

/-- The formats of a section, if they are an object, are formats. -/
def KnownFormats (members : List (String × Json)) : Prop :=
  ∀ formats, Json.member? "formatters" members = some (.obj formats) →
    ∀ f ∈ formats, f.1 ∈ NameFormats.names

/-- Settings as the members of a section leave them that has no member for another attribute. -/
structure Intact (s : ModelSettings) : Prop where
  formatters : s.formatters ≠ .missing
  attributes : s.attributes = []

theorem set_formatters {s : ModelSettings} (hs : s.Intact) {v : Json} (hv : v.Distinct)
    (h : ∀ formats, v = .obj formats → ∀ f ∈ formats, f.1 ∈ NameFormats.names) :
    s.set "formatters" v = .ok { s with formatters := sectionOf v } := by
  have hreplace : s.formatters.replace v = .other v := by
    cases hformatters : s.formatters with
    | missing => exact absurd hformatters hs.formatters
    | _ => rfl
  cases v with
  | obj formats =>
    show (NameFormats.ofMembers formats >>= _) = _
    rw [NameFormats.ofMembers_eq_ok (Json.distinct_obj.mp hv).1 (h formats rfl)]
    rfl
  | _ => exact congrArg (fun part => Except.ok { s with formatters := part }) hreplace

theorem sectionOf_ne_missing (v : Json) : sectionOf v ≠ .missing := by
  cases v <;> exact nofun

/-- A member that is no other attribute.  The formats that it gives, if they are an object, are formats. -/
structure Fits (m : String × Json) : Prop where
  setting : m.1 ∉ attributeNames
  formatters : m.1 = "formatters" → m.2.Distinct ∧
    ∀ formats, m.2 = .obj formats → ∀ f ∈ formats, f.1 ∈ NameFormats.names

theorem set_updated (s : ModelSettings) (m : String × Json) (members : List (String × Json))
    (hs : s.Intact) (hfits : Fits m) (hname : m.1 ∉ members.map Prod.fst) :
    ∃ t, s.set m.1 m.2 = .ok t ∧ t.Intact ∧ t.updated members = s.updated (m :: members) := by
  obtain ⟨name, v⟩ := m
  have hnone := Json.member?_eq_none hname
  by_cases hformatters : name = "formatters"
  · obtain ⟨hv, hformats⟩ := hfits.formatters hformatters
    subst hformatters
    refine ⟨_, set_formatters hs hv hformats, ⟨sectionOf_ne_missing v, hs.attributes⟩, ?_⟩
    simp [updated, Json.memberOr, Json.member?, hnone]
  · have hattribute := setAttribute_unknown owner hfits.setting v
    rw [← hs.attributes] at hattribute
    unfold set
    dsimp only at hnone hattribute ⊢
    split
    case h_7 => exact absurd rfl hformatters
    case h_9 => exact absurd (show "__dict__" ∈ attributeNames by decide) hfits.setting
    case h_10 =>
      refine ⟨s, by rw [hattribute]; rfl, hs, ?_⟩
      simp_all [updated, Json.memberOr, Json.member?]
    all_goals
      refine ⟨_, rfl, ⟨hs.formatters, hs.attributes⟩, ?_⟩
      simp_all [updated, Json.memberOr, Json.member?, Function.comp_def]

/-- A section is read by looking its settings up. -/
theorem ofJson_eq_ok {members : List (String × Json)} (hdistinct : (Json.obj members).Distinct)
    (hknown : ∀ m ∈ members, m.1 ∉ attributeNames) (hformats : KnownFormats members) :
    ofJson (.obj members) = .ok (default.updated members) := by
  obtain ⟨hnames, hvalues⟩ := Json.distinct_obj.mp hdistinct
  refine foldlM_eq_updated Intact (fun s => ?_) set_updated hnames (fun m hm => ?_)
    ⟨nofun, rfl⟩
  · obtain ⟨⟩ := s
    simp [updated, Json.memberOr, Json.member?]
  · refine ⟨hknown m hm, fun hname => ?_⟩
    have hfound := Json.member?_of_mem hnames hm
    rw [hname] at hfound
    refine ⟨hvalues _ hm, fun formats hobj => ?_⟩
    exact hformats formats (hobj ▸ hfound)

/-- Settings whose imports and headers are arrays and whose formats are a record, and no other
attribute. -/
structure Printable (s : ModelSettings) : Prop where
  imports : ∃ items, s.imports = some (.arr items)
  headers : ∃ items, s.headers = some (.arr items)
  formatters : ∃ formats, s.formatters = .record formats
  attributes : s.attributes = []

/-- The section that the settings are printed as reads back as the same settings. -/
theorem ofJson_toJson {s : ModelSettings} (h : s.Printable) :
    ∃ v, s.toJson = .ok v ∧ ofJson v = .ok s := by
  obtain ⟨⟨items, himports⟩, ⟨lines, hheaders⟩, ⟨formats, hformats⟩, hattributes⟩ := h
  obtain ⟨out, imports, headers, base, idField, comment, formatters, workers, attributes⟩ := s
  subst himports hheaders hformats hattributes
  exact ⟨_, rfl, rfl⟩

/-- A section with its imports and its headers as arrays and its formats as an object of formats.
Every other setting may hold anything, and so may the formats and members that are no attribute. -/
structure WellKinded (v : Json) : Prop where
  object : ∃ members, v = .obj members
  imports : ∀ w, v.under? "imports" = some w → ∃ items, w = .arr items
  headers : ∀ w, v.under? "headers" = some w → ∃ items, w = .arr items
  formatters : ∀ w, v.under? "formatters" = some w →
    ∃ formats, w = .obj formats ∧ ∀ f ∈ formats, f.1 ∈ NameFormats.names
  attributes : ∀ name ∈ attributeNames, v.under? name = none

/-- A format of a section, null if it is not set. -/
def formatOf (name : String) (v : Json) : Json :=
  (((v.under? "formatters").getD .null).under? name).getD .null

/-- The names of the settings besides the formats. -/
def names : List String :=
  ["out", "imports", "headers", "base_class", "id_field", "add_generation_comment", "workers"]

/-- Two sections state the same settings. -/
structure SameSettings (v w : Json) : Prop where
  settings : ∀ name ∈ names, w.under? name = v.under? name
  formats : ∀ name ∈ NameFormats.names, formatOf name w = formatOf name v

variable {members members' : List (String × Json)}

theorem WellKinded.unattributed (h : WellKinded (.obj members)) :
    ∀ m ∈ members, m.1 ∉ attributeNames := fun _ hm hname =>
  Json.member?_ne_none hm (h.attributes _ hname)

theorem WellKinded.knownFormats (h : WellKinded (.obj members)) : KnownFormats members := by
  intro formats hformats
  obtain ⟨formats', heq, hknown⟩ := h.formatters _ hformats
  cases heq
  exact hknown

theorem WellKinded.formatters_eq (h : WellKinded (.obj members)) :
    (default.updated members).formatters =
      .record ⟨formatOf "name" (.obj members), formatOf "filename" (.obj members)⟩ := by
  have hkind := h.formatters
  unfold updated formatOf
  unfold Json.under? at hkind ⊢
  dsimp only at hkind ⊢
  cases hfound : Json.member? "formatters" members with
  | none => rfl
  | some v =>
    obtain ⟨formats, rfl, -⟩ := hkind v hfound
    rfl

theorem WellKinded.printable (h : WellKinded (.obj members)) :
    (default.updated members).Printable := by
  have hlist {name : String}
      (hkind : ∀ w, (Json.obj members).under? name = some w → ∃ items, w = .arr items) :
      ∃ items, some (Json.memberOr (.arr []) name members) = some (.arr items) := by
    unfold Json.memberOr
    cases hfound : Json.member? name members with
    | none => exact ⟨[], rfl⟩
    | some v =>
      obtain ⟨items, rfl⟩ := hkind v hfound
      exact ⟨items, rfl⟩
  exact ⟨hlist h.imports, hlist h.headers, ⟨_, h.formatters_eq⟩, rfl⟩

/-- What a section is read as is told by the settings that it states. -/
theorem WellKinded.updated_congr (h : WellKinded (.obj members)) (h' : WellKinded (.obj members'))
    (hsame : SameSettings (.obj members) (.obj members')) :
    default.updated members' = default.updated members := by
  have hsetting (missing : Json) (name : String) (hname : name ∈ names) :
      Json.memberOr missing name members' = Json.memberOr missing name members :=
    congrArg (Option.getD · missing) (hsame.settings name hname)
  have hformats : (default.updated members').formatters = (default.updated members).formatters := by
    rw [h.formatters_eq, h'.formatters_eq, hsame.formats "name" (by decide),
      hsame.formats "filename" (by decide)]
  unfold updated at hformats ⊢
  rw [ModelSettings.mk.injEq]
  refine ⟨hsetting _ _ ?_, congrArg some (hsetting _ _ ?_), congrArg some (hsetting _ _ ?_),
    hsetting _ _ ?_, hsetting _ _ ?_, hsetting _ _ ?_, hformats, hsetting _ _ ?_, rfl⟩
  all_goals decide

end ModelSettings

/-! ## Documents -/

namespace Settings

/-- A section of a document; an absent one is empty. -/
def sectionOf (name : String) (d : Json) : Json := (d.under? name).getD (.obj [])

/-- A document whose sections hold settings of their kinds. -/
structure WellKinded (d : Json) : Prop where
  distinct : d.Distinct
  object : ∃ members, d = .obj members
  source : SourceSettings.WellKinded (sectionOf "parser" d)
  model : ModelSettings.WellKinded (sectionOf "generator" d)

/-- Two documents state the same settings.  The order of their members and members that are no
setting do not count. -/
structure SameSettings (d e : Json) : Prop where
  source : SourceSettings.SameSettings (sectionOf "parser" d) (sectionOf "parser" e)
  model : ModelSettings.SameSettings (sectionOf "generator" d) (sectionOf "generator" e)

theorem distinct_sectionOf {d : Json} (h : d.Distinct) (name : String) :
    (sectionOf name d).Distinct := by
  have hempty : (Json.obj []).Distinct := .obj List.nodup_nil (List.forall_mem_nil _)
  unfold sectionOf Json.under?
  cases h with
  | @obj members _ hvalues =>
    dsimp only
    cases hfound : Json.member? name members with
    | none => exact hempty
    | some v => exact Json.distinct_of_member? hvalues hfound
  | _ => exact hempty

theorem ofJson_obj (members : List (String × Json)) :
    ofJson (.obj members) = (do
      let source ← SourceSettings.ofJson (sectionOf "parser" (.obj members))
      let model ← ModelSettings.ofJson (sectionOf "generator" (.obj members))
      return ⟨source, model⟩) := rfl

/-- The settings of a document, by the members of its sections. -/
theorem WellKinded.ofJson_eq_ok {d : Json} (h : WellKinded d) {source model : List (String × Json)}
    (hsource : sectionOf "parser" d = .obj source) (hmodel : sectionOf "generator" d = .obj model) :
    ofJson d =
      .ok ⟨SourceSettings.default.updated source, ModelSettings.default.updated model⟩ := by
  obtain ⟨members, rfl⟩ := h.object
  have hdistinct := distinct_sectionOf h.distinct "parser"
  have hdistinct' := distinct_sectionOf h.distinct "generator"
  have hkinds := h.source
  have hkinds' := h.model
  rw [hsource] at hdistinct hkinds
  rw [hmodel] at hdistinct' hkinds'
  rw [ofJson_obj, hsource, hmodel,
    SourceSettings.ofJson_eq_ok hdistinct hkinds.unattributed hkinds.knownRules, ok_bind,
    ModelSettings.ofJson_eq_ok hdistinct' hkinds'.unattributed hkinds'.knownFormats]
  rfl

/-- The document of printable settings reads back as the same settings. -/
theorem ofJson_toJson {c : Settings} (hsource : c.source.Printable) (hmodel : c.model.Printable) :
    ∃ d, c.toJson = .ok d ∧ ofJson d = .ok c := by
  obtain ⟨source, hsource, hsource'⟩ := SourceSettings.ofJson_toJson hsource
  obtain ⟨model, hmodel, hmodel'⟩ := ModelSettings.ofJson_toJson hmodel
  let d : Json := .obj [("parser", source), ("generator", model)]
  refine ⟨d, ?_, ?_⟩
  · unfold toJson
    rw [hsource, hmodel]
    rfl
  · have hparser : sectionOf "parser" d = source := rfl
    have hgenerator : sectionOf "generator" d = model := rfl
    rw [ofJson_obj, hparser, hgenerator, hsource', hmodel']
    rfl

/-- The settings of a document are printed as a document that reads back as the same settings, the
aliases in their order, and that is printed as itself.  Another document that states the same
settings, in any order and beside any members that are no setting, is read as the same settings. -/
theorem document_roundTrip {d : Json} (h : WellKinded d) :
    ∃ c d', ofJson d = .ok c ∧ c.toJson = .ok d' ∧ ofJson d' = .ok c ∧
      (ofJson d' >>= toJson) = .ok d' ∧
      ∀ e, WellKinded e → SameSettings d e → ofJson e = .ok c := by
  obtain ⟨source, hsource⟩ := h.source.object
  obtain ⟨model, hmodel⟩ := h.model.object
  have hread := h.ofJson_eq_ok hsource hmodel
  have hkinds := h.source
  have hkinds' := h.model
  rw [hsource] at hkinds
  rw [hmodel] at hkinds'
  obtain ⟨d', hprinted, hback⟩ := @ofJson_toJson ⟨_, _⟩ hkinds.printable hkinds'.printable
  refine ⟨_, d', hread, hprinted, hback, ?_, fun e he hsame => ?_⟩
  · rw [hback]
    exact hprinted
  · obtain ⟨source', hsource'⟩ := he.source.object
    obtain ⟨model', hmodel'⟩ := he.model.object
    have hkindsOther := he.source
    have hkindsOther' := he.model
    have hsame₁ := hsame.source
    have hsame₂ := hsame.model
    rw [hsource'] at hkindsOther
    rw [hmodel'] at hkindsOther'
    rw [hsource, hsource'] at hsame₁
    rw [hmodel, hmodel'] at hsame₂
    rw [he.ofJson_eq_ok hsource' hmodel', hkinds.updated_congr hkindsOther hsame₁,
      hkinds'.updated_congr hkindsOther' hsame₂]

/-- A document with two aliases and a member that is no setting. -/
def stated : Json :=
  .obj [("parser", .obj [("note", .null), ("aliases", .obj [("@b", .str "b"), ("@a", .str "a")]),
      ("identifier", .obj [("decorator", .str "Entity")])]),
    ("generator", .obj [("out", .str "lib"), ("imports", .arr [.str "rest.dart"]),
      ("formatters", .obj [("filename", .str "snake")])])]

/-- The same settings in another order, with nothing said of a format. -/
def restated : Json :=
  .obj [("generator", .obj [("formatters", .obj [("name", .null), ("filename", .str "snake")]),
      ("imports", .arr [.str "rest.dart"]), ("out", .str "lib"), ("comment", .bool true)]),
    ("parser", .obj [("identifier", .obj [("decorator", .str "Entity")]),
      ("aliases", .obj [("@b", .str "b"), ("@a", .str "a")])])]

theorem wellKinded_stated : WellKinded stated := by
  refine ⟨?_, ⟨_, rfl⟩, ⟨⟨_, rfl⟩, ?_, ?_, by decide⟩, ⟨⟨_, rfl⟩, ?_, nofun, ?_, by decide⟩⟩
  · simp [stated, Json.distinct_obj, Json.distinct_arr, Json.Distinct.null, Json.Distinct.str]
  · intro w hw
    exact ⟨_, (Option.some.inj hw).symm⟩
  · intro w hw
    exact ⟨_, (Option.some.inj hw).symm, by decide⟩
  · intro w hw
    exact ⟨_, (Option.some.inj hw).symm⟩
  · intro w hw
    exact ⟨_, (Option.some.inj hw).symm, by decide⟩

theorem wellKinded_restated : WellKinded restated := by
  refine ⟨?_, ⟨_, rfl⟩, ⟨⟨_, rfl⟩, ?_, ?_, by decide⟩, ⟨⟨_, rfl⟩, ?_, nofun, ?_, by decide⟩⟩
  · simp [restated, Json.distinct_obj, Json.distinct_arr, Json.Distinct.null, Json.Distinct.str,
      Json.Distinct.bool]
  · intro w hw
    exact ⟨_, (Option.some.inj hw).symm⟩
  · intro w hw
    exact ⟨_, (Option.some.inj hw).symm, by decide⟩
  · intro w hw
    exact ⟨_, (Option.some.inj hw).symm⟩
  · intro w hw
    exact ⟨_, (Option.some.inj hw).symm, by decide⟩

theorem sameSettings_restated : SameSettings stated restated := by
  constructor
  · constructor
    · simp only [SourceSettings.names, List.forall_mem_cons]
      exact ⟨rfl, rfl, rfl, rfl, rfl, rfl, rfl, rfl, nofun⟩
    · simp only [EntityRules.names, List.forall_mem_cons]
      exact ⟨rfl, rfl, rfl, nofun⟩
  · constructor
    · simp only [ModelSettings.names, List.forall_mem_cons]
      exact ⟨rfl, rfl, rfl, rfl, rfl, rfl, rfl, nofun⟩
    · simp only [NameFormats.names, List.forall_mem_cons]
      exact ⟨rfl, rfl, nofun⟩

/-- The settings of both documents. -/
theorem document_roundTrip_stated : ∃ c d', ofJson stated = .ok c ∧ c.toJson = .ok d' ∧
    ofJson d' = .ok c ∧ (ofJson d' >>= toJson) = .ok d' ∧ ofJson restated = .ok c := by
  obtain ⟨c, d', hread, hprinted, hback, hagain, hsame⟩ := document_roundTrip wellKinded_stated
  exact ⟨c, d', hread, hprinted, hback, hagain, hsame _ wellKinded_restated sameSettings_restated⟩

end Settings

end DartModels
