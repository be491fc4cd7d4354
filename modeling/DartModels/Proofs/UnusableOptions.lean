import DartModels.Proofs.EarlyErrors
import DartModels.Proofs.SettingsDocument
import DartModels.Proofs.SourceDirectory

/-!
# Unusable options

Options that no run can use should end as an error of the configuration, which the command tells as
a wrong use.  Some of them end as another error, which the command does not tell: a file that is not
UTF-8, a number of too many digits, a value whose kind is met where it is first used, a name that a
record keeps for itself, and an import path that names no module or one that fails.

    a document is read, or refused                                      (exists_ofJson_iff)
    settings give both stages, or are refused                          (stages_decides_iff)
    an options file gives both stages, or is refused                  (options_decided_iff)
-/

namespace DartModels

/-- A step has a result, or ends with an error of the configuration. -/
def Decides {α : Type} (r : Except Error α) : Prop :=
  OnlyErrors (fun e => e.isConfiguration = true) r

section

variable {α β : Type}

theorem decides_ok (a : α) : Decides (.ok a) := OnlyErrors.ok a

theorem decides_error_iff {e : Error} :
    Decides (.error e : Except Error α) ↔ e.isConfiguration = true := by
  constructor
  · intro h
    exact h e rfl
  · intro h
    exact OnlyErrors.error h

theorem not_decides_wrongKind (fault : KindFault) :
    ¬Decides (wrongKind fault : Except Error α) := by
  intro h
  cases h _ rfl

theorem decides_bind_iff {r : Except Error α} {f : α → Except Error β} :
    Decides (r >>= f) ↔ Decides r ∧ ∀ a, r = .ok a → Decides (f a) := by
  cases r with
  | error e =>
    constructor
    · intro h
      exact ⟨decides_error_iff.mpr (h e rfl), nofun⟩
    · rintro ⟨h, -⟩
      exact decides_error_iff.mpr (h e rfl)
  | ok a =>
    constructor
    · intro h
      refine ⟨decides_ok a, fun b hb => ?_⟩
      cases hb
      exact h
    · rintro ⟨-, h⟩
      exact h a rfl

/-- What cannot fail after a step does not count. -/
theorem exists_bind_ok_iff {r : Except Error α} {f : α → β} :
    (∃ b, (r >>= fun a => .ok (f a)) = .ok b) ↔ ∃ a, r = .ok a := by
  constructor
  · rintro ⟨b, h⟩
    obtain ⟨a, ha, -⟩ := exists_of_bind_eq_ok h
    exact ⟨a, ha⟩
  · rintro ⟨a, rfl⟩
    exact ⟨f a, rfl⟩

/-- A step that finds no fault with the configuration decides exactly if it succeeds. -/
theorem Unconfigured.decides_iff {r : Except Error α} (h : Unconfigured r) :
    Decides r ↔ ∃ a, r = .ok a := by
  cases r with
  | error e =>
    have hfalse : e.isConfiguration = false := h e rfl
    rw [decides_error_iff, hfalse]
    constructor
    · intro htrue
      cases htrue
    · rintro ⟨a, ha⟩
      cases ha
  | ok a => exact ⟨fun _ => ⟨a, rfl⟩, fun _ => decides_ok a⟩

end

/-! ## Documents -/

theorem unconfigured_members (v : Json) : Unconfigured v.members := by
  unfold Json.members
  split
  · exact OnlyErrors.ok _
  · exact unconfigured_wrongKind _

theorem members_eq_ok {v : Json} {members : List (String × Json)} (h : v.members = .ok members) :
    v = .obj members := by
  unfold Json.members at h
  split at h
  · cases h
    rfl
  · cases h

section

variable {σ : Type} {set : σ → String → Json → Except Error σ}

/-- Members are set exactly if each of them can be. -/
theorem exists_foldlM_iff {Fits : String → Json → Prop}
    (hset : ∀ s name v, (∃ t, set s name v = .ok t) ↔ Fits name v)
    (members : List (String × Json)) (s : σ) :
    (∃ t, members.foldlM (fun s m => set s m.1 m.2) s = .ok t) ↔
      ∀ m ∈ members, Fits m.1 m.2 := by
  induction members generalizing s with
  | nil => exact iff_of_true ⟨s, rfl⟩ (List.forall_mem_nil _)
  | cons m members ih =>
    rw [List.foldlM_cons, List.forall_mem_cons, ← hset s]
    constructor
    · rintro ⟨t, h⟩
      obtain ⟨u, hu, h⟩ := exists_of_bind_eq_ok h
      exact ⟨⟨u, hu⟩, (ih u).mp ⟨t, h⟩⟩
    · rintro ⟨⟨u, hu⟩, h⟩
      rw [hu, ok_bind]
      exact (ih u).mpr h

/-- A section is read exactly if it is an object whose members can be set. -/
theorem exists_section_iff {Fits : String → Json → Prop}
    (hset : ∀ s name v, (∃ t, set s name v = .ok t) ↔ Fits name v) {v : Json} (s : σ) :
    (∃ t, (v.members >>= fun members => members.foldlM (fun s m => set s m.1 m.2) s) = .ok t) ↔
      ∃ members, v = .obj members ∧ ∀ m ∈ members, Fits m.1 m.2 := by
  constructor
  · rintro ⟨t, h⟩
    obtain ⟨members, hmembers, h⟩ := exists_of_bind_eq_ok h
    exact ⟨members, members_eq_ok hmembers, (exists_foldlM_iff hset members s).mp ⟨t, h⟩⟩
  · rintro ⟨members, rfl, hmembers⟩
    exact (exists_foldlM_iff hset members s).mpr hmembers

end

/-- A member that a section can have, whose part `part` is a record with members named `names`.  The
class of a section and the references to it are not taken from a member, and all its attributes at once
are an object. -/
structure Settable (part : String) (names : List String) (name : String) (v : Json) : Prop where
  notClass : name ≠ "__class__"
  notReference : name ≠ "__weakref__"
  attributes : name = "__dict__" → ∃ members, v = .obj members
  known : name = part → ∀ members, v = .obj members → ∀ m ∈ members, m.1 ∈ names

section

variable {part name : String} {names : List String} {v : Json}

theorem settable_iff_of_ne (hattributes : name ≠ "__dict__") (hpart : name ≠ part) :
    Settable part names name v ↔ name ≠ "__class__" ∧ name ≠ "__weakref__" :=
  ⟨fun h => ⟨h.notClass, h.notReference⟩, fun h =>
    ⟨h.1, h.2, fun heq => absurd heq hattributes, fun heq => absurd heq hpart⟩⟩

theorem settable_attributes (hpart : "__dict__" ≠ part) :
    Settable part names "__dict__" v ↔ ∃ members, v = .obj members :=
  ⟨fun h => h.attributes rfl, fun h => ⟨by decide, by decide, fun _ => h, fun heq => absurd heq hpart⟩⟩

theorem settable_part (hplain : part ∉ reservedAttributes) :
    Settable part names part v ↔ ∀ members, v = .obj members → ∀ m ∈ members, m.1 ∈ names := by
  obtain ⟨hclass, hattributes, hreference, -⟩ : part ≠ "__class__" ∧ part ≠ "__dict__" ∧
      part ≠ "__weakref__" ∧ True := by
    simpa [reservedAttributes] using hplain
  exact ⟨fun h => h.known rfl, fun h =>
    ⟨hclass, hreference, fun heq => absurd heq hattributes, fun _ => h⟩⟩

end

theorem unconfigured_setAttribute (owner name : String) (v : Json)
    (attributes : List (String × Json)) : Unconfigured (setAttribute owner name v attributes) := by
  unfold setAttribute
  split
  · exact unconfigured_wrongKind _
  · split
    · exact unconfigured_wrongKind _
    · split <;> exact OnlyErrors.ok _

theorem exists_setAttribute_iff (owner name : String) (v : Json)
    (attributes : List (String × Json)) :
    (∃ t, setAttribute owner name v attributes = .ok t) ↔
      name ≠ "__class__" ∧ name ≠ "__weakref__" := by
  unfold setAttribute
  split
  · next hclass => exact iff_of_false nofun fun h => h.1 hclass
  · next hclass =>
    split
    · next hreference => exact iff_of_false nofun fun h => h.2 hreference
    · next hreference => split <;> exact iff_of_true ⟨_, rfl⟩ ⟨hclass, hreference⟩

namespace EntityRules

theorem unconfigured_set (r : EntityRules) (name : String) (v : Json) :
    Unconfigured (r.set name v) := by
  unfold set
  split
  · exact OnlyErrors.ok _
  · exact OnlyErrors.ok _
  · exact OnlyErrors.ok _
  · exact unconfigured_wrongKind _

theorem unconfigured_ofMembers (members : List (String × Json)) :
    Unconfigured (ofMembers members) :=
  OnlyErrors.foldlM (fun r m => r.unconfigured_set m.1 m.2) _ _

theorem exists_set_iff (r : EntityRules) (name : String) (v : Json) :
    (∃ t, r.set name v = .ok t) ↔ name ∈ names := by
  unfold set names
  split
  · exact iff_of_true ⟨_, rfl⟩ (by decide)
  · exact iff_of_true ⟨_, rfl⟩ (by decide)
  · exact iff_of_true ⟨_, rfl⟩ (by decide)
  · next hdecorator hbase hinterface =>
    exact iff_of_false nofun (by simpa using ⟨hdecorator, hbase, hinterface⟩)

theorem exists_ofMembers_iff {members : List (String × Json)} :
    (∃ r, ofMembers members = .ok r) ↔ ∀ m ∈ members, m.1 ∈ names :=
  exists_foldlM_iff exists_set_iff members empty

end EntityRules

namespace NameFormats

theorem unconfigured_set (f : NameFormats) (name : String) (v : Json) :
    Unconfigured (f.set name v) := by
  unfold set
  split
  · exact OnlyErrors.ok _
  · exact OnlyErrors.ok _
  · exact unconfigured_wrongKind _

theorem unconfigured_ofMembers (members : List (String × Json)) :
    Unconfigured (ofMembers members) :=
  OnlyErrors.foldlM (fun f m => f.unconfigured_set m.1 m.2) _ _

theorem exists_set_iff (f : NameFormats) (name : String) (v : Json) :
    (∃ t, f.set name v = .ok t) ↔ name ∈ names := by
  unfold set names
  split
  · exact iff_of_true ⟨_, rfl⟩ (by decide)
  · exact iff_of_true ⟨_, rfl⟩ (by decide)
  · next hname hfilename => exact iff_of_false nofun (by simpa using ⟨hname, hfilename⟩)

theorem exists_ofMembers_iff {members : List (String × Json)} :
    (∃ f, ofMembers members = .ok f) ↔ ∀ m ∈ members, m.1 ∈ names :=
  exists_foldlM_iff exists_set_iff members _

end NameFormats

namespace SourceSettings

theorem unconfigured_set (s : SourceSettings) (name : String) (v : Json) :
    Unconfigured (s.set name v) := by
  unfold set
  split
  case h_6 =>
    split
    · exact OnlyErrors.bind (EntityRules.unconfigured_ofMembers _) fun _ => OnlyErrors.ok _
    · exact OnlyErrors.ok _
  case h_10 =>
    split
    · exact OnlyErrors.ok _
    · exact unconfigured_wrongKind _
  case h_11 =>
    exact OnlyErrors.bind (unconfigured_setAttribute _ _ _ _) fun _ => OnlyErrors.ok _
  all_goals exact OnlyErrors.ok _

theorem unconfigured_ofJson (v : Json) : Unconfigured (ofJson v) :=
  OnlyErrors.bind (unconfigured_members v) fun members =>
    OnlyErrors.foldlM (fun s m => s.unconfigured_set m.1 m.2) members default

/-- A member that a section can have. -/
abbrev Fitting : String → Json → Prop := Settable "identifier" EntityRules.names

theorem exists_set_iff (s : SourceSettings) (name : String) (v : Json) :
    (∃ t, s.set name v = .ok t) ↔ Fitting name v := by
  unfold Fitting
  by_cases hidentifier : name = "identifier"
  · subst hidentifier
    rw [settable_part (by decide)]
    cases v with
    | obj rules =>
      refine (exists_bind_ok_iff.trans EntityRules.exists_ofMembers_iff).trans ?_
      simp
    | _ => exact iff_of_true ⟨_, rfl⟩ fun rules hrules => nomatch hrules
  by_cases hattributes : name = "__dict__"
  · subst hattributes
    rw [settable_attributes (by decide)]
    cases v with
    | obj members => exact iff_of_true ⟨_, rfl⟩ ⟨members, rfl⟩
    | _ => exact iff_of_false nofun nofun
  rw [settable_iff_of_ne hattributes hidentifier]
  unfold set
  split
  case h_6 => exact absurd rfl hidentifier
  case h_10 => exact absurd rfl hattributes
  case h_11 =>
    exact exists_bind_ok_iff.trans (exists_setAttribute_iff owner name v s.attributes)
  all_goals exact iff_of_true ⟨_, rfl⟩ (by decide)

/-- A section is read exactly if it is an object whose members can be set. -/
theorem exists_ofJson_iff {v : Json} : (∃ s, ofJson v = .ok s) ↔
    ∃ members, v = .obj members ∧ ∀ m ∈ members, Fitting m.1 m.2 :=
  exists_section_iff exists_set_iff default

end SourceSettings

namespace ModelSettings

theorem unconfigured_set (s : ModelSettings) (name : String) (v : Json) :
    Unconfigured (s.set name v) := by
  unfold set
  split
  case h_7 =>
    split
    · exact OnlyErrors.bind (NameFormats.unconfigured_ofMembers _) fun _ => OnlyErrors.ok _
    · exact OnlyErrors.ok _
  case h_9 =>
    split
    · exact OnlyErrors.ok _
    · exact unconfigured_wrongKind _
  case h_10 =>
    exact OnlyErrors.bind (unconfigured_setAttribute _ _ _ _) fun _ => OnlyErrors.ok _
  all_goals exact OnlyErrors.ok _

theorem unconfigured_ofJson (v : Json) : Unconfigured (ofJson v) :=
  OnlyErrors.bind (unconfigured_members v) fun members =>
    OnlyErrors.foldlM (fun s m => s.unconfigured_set m.1 m.2) members default

/-- A member that a section can have. -/
abbrev Fitting : String → Json → Prop := Settable "formatters" NameFormats.names

theorem exists_set_iff (s : ModelSettings) (name : String) (v : Json) :
    (∃ t, s.set name v = .ok t) ↔ Fitting name v := by
  unfold Fitting
  by_cases hformatters : name = "formatters"
  · subst hformatters
    rw [settable_part (by decide)]
    cases v with
    | obj formats =>
      refine (exists_bind_ok_iff.trans NameFormats.exists_ofMembers_iff).trans ?_
      simp
    | _ => exact iff_of_true ⟨_, rfl⟩ fun formats hformats => nomatch hformats
  by_cases hattributes : name = "__dict__"
  · subst hattributes
    rw [settable_attributes (by decide)]
    cases v with
    | obj members => exact iff_of_true ⟨_, rfl⟩ ⟨members, rfl⟩
    | _ => exact iff_of_false nofun nofun
  rw [settable_iff_of_ne hattributes hformatters]
  unfold set
  split
  case h_7 => exact absurd rfl hformatters
  case h_9 => exact absurd rfl hattributes
  case h_10 =>
    exact exists_bind_ok_iff.trans (exists_setAttribute_iff owner name v s.attributes)
  all_goals exact iff_of_true ⟨_, rfl⟩ (by decide)

/-- A section is read exactly if it is an object whose members can be set. -/
theorem exists_ofJson_iff {v : Json} : (∃ s, ofJson v = .ok s) ↔
    ∃ members, v = .obj members ∧ ∀ m ∈ members, Fitting m.1 m.2 :=
  exists_section_iff exists_set_iff default

end ModelSettings

namespace Settings

/-- A document that is read as settings, of whatever kinds. -/
structure Readable (d : Json) : Prop where
  object : ∃ members, d = .obj members
  source : ∃ members, sectionOf "parser" d = .obj members ∧
    ∀ m ∈ members, SourceSettings.Fitting m.1 m.2
  model : ∃ members, sectionOf "generator" d = .obj members ∧
    ∀ m ∈ members, ModelSettings.Fitting m.1 m.2

theorem unconfigured_ofJson (d : Json) : Unconfigured (ofJson d) := by
  unfold ofJson
  split
  · refine OnlyErrors.bind (SourceSettings.unconfigured_ofJson _) fun _ => ?_
    exact OnlyErrors.bind (ModelSettings.unconfigured_ofJson _) fun _ => OnlyErrors.ok _
  · exact unconfigured_wrongKind _

theorem exists_ofJson_iff {d : Json} : (∃ s, ofJson d = .ok s) ↔ Readable d := by
  constructor
  · rintro ⟨s, hs⟩
    have hobject : ∃ members, d = .obj members := by
      cases d with
      | obj members => exact ⟨members, rfl⟩
      | _ => cases hs
    obtain ⟨members, rfl⟩ := hobject
    rw [ofJson_obj] at hs
    obtain ⟨source, hsource, hs⟩ := exists_of_bind_eq_ok hs
    obtain ⟨model, hmodel, -⟩ := exists_of_bind_eq_ok hs
    exact ⟨⟨members, rfl⟩, SourceSettings.exists_ofJson_iff.mp ⟨source, hsource⟩,
      ModelSettings.exists_ofJson_iff.mp ⟨model, hmodel⟩⟩
  · rintro ⟨⟨members, rfl⟩, hsource, hmodel⟩
    obtain ⟨source, hsource⟩ := SourceSettings.exists_ofJson_iff.mpr hsource
    obtain ⟨model, hmodel⟩ := ModelSettings.exists_ofJson_iff.mpr hmodel
    rw [ofJson_obj, hsource, ok_bind, hmodel]
    exact ⟨_, rfl⟩

/-! ## Stages -/

/-- An import path that names a module, which is not relative to another one and does not itself fail,
unless by an error of the configuration. -/
structure Importable (library : Library) (path : String) : Prop where
  named : path.toList.head? ≠ some ':'
  absolute : path.toList.head? ≠ some '.'
  loads : ∀ module name e, path = module ++ ":" ++ name → ':' ∉ module.toList →
    library.find module name = .failed e → e.isConfiguration = true

/-- A value whose absence or text gives a format or is refused as none. -/
def FormatLike (library : Library) (v : Json) : Prop :=
  v = .null ∨ ∃ s, v = .str s ∧ ('{' ∉ s.toList → ':' ∈ s.toList → Importable library s)

/-- A table of texts. -/
def TextTable (v : Json) : Prop := ∃ entries, v = .obj entries ∧ ∀ e ∈ entries, ∃ s, e.2 = .str s

/-- Exactly one rule is set. -/
def OneRule (s : SourceSettings) : Prop :=
  ∃ rules rule, s.identifier = .record rules ∧ rules.active = [rule]

/-- Settings that give both stages, or are refused: the rules are a record, and where one of them is
set, so that the run goes on, the other settings that are used are there and have their kinds. -/
structure Buildable (library : Library) (s : Settings) : Prop where
  rules : ∃ rules, s.source.identifier = .record rules
  aliases : OneRule s.source → ∃ table, s.source.aliases = some table ∧ TextTable table
  formats : OneRule s.source → ∃ formats, s.model.formatters = .record formats ∧
    FormatLike library formats.filename ∧
    ((∃ f, NameFormat.ofJson library formats.filename NameFormat.defaultFilename = .ok f) →
      FormatLike library formats.name)

end Settings

namespace EntityRule

variable {s : SourceSettings}

theorem ofSettings_decides_iff :
    Decides (ofSettings s) ↔ ∃ rules, s.identifier = .record rules := by
  unfold ofSettings SourceSettings.rulesFor
  cases s.identifier with
  | record rules =>
    refine ⟨fun _ => ⟨rules, rfl⟩, fun _ => ?_⟩
    show Decides (ofRules rules)
    unfold ofRules
    split
    · exact decides_error_iff.mpr rfl
    · exact decides_ok _
    · exact decides_error_iff.mpr rfl
  | other w => exact iff_of_false (not_decides_wrongKind _) nofun
  | missing => exact iff_of_false (not_decides_wrongKind _) nofun

theorem exists_ofSettings_iff : (∃ rule, ofSettings s = .ok rule) ↔ Settings.OneRule s := by
  unfold ofSettings SourceSettings.rulesFor Settings.OneRule
  cases s.identifier with
  | record rules =>
    show (∃ rule, ofRules rules = .ok rule) ↔ _
    unfold ofRules
    constructor
    · rintro ⟨rule, hrule⟩
      split at hrule
      · cases hrule
      · next name value hactive => exact ⟨rules, (name, value), rfl, hactive⟩
      · cases hrule
    · rintro ⟨rules', rule, hrules, hactive⟩
      cases hrules
      rw [hactive]
      exact ⟨_, rfl⟩
  | other w => exact iff_of_false nofun nofun
  | missing => exact iff_of_false nofun nofun

end EntityRule

namespace Modules

variable {attributes : Attributes}

theorem unconfigured_target (context : Context) (template : Json) :
    Unconfigured (Aliases.target attributes context template) := by
  unfold Aliases.target
  split
  · exact OnlyErrors.ok _
  · exact unconfigured_wrongKind _

theorem unconfigured_ofSettings (s : SourceSettings) : Unconfigured (ofSettings attributes s) := by
  have htable : Unconfigured s.aliasTable := by
    unfold SourceSettings.aliasTable present
    split
    · exact OnlyErrors.ok _
    · exact unconfigured_wrongKind _
  refine OnlyErrors.bind htable fun table => OnlyErrors.bind ?_ fun _ => OnlyErrors.ok _
  refine OnlyErrors.bind (unconfigured_members table) fun members => ?_
  refine OnlyErrors.bind (OnlyErrors.mapM (fun entry => ?_) members) fun _ => OnlyErrors.ok _
  exact OnlyErrors.bind (unconfigured_target _ _) fun _ => OnlyErrors.ok _

theorem exists_aliases_iff {table : Json} {context : Context} :
    (∃ aliases, Aliases.ofJson attributes table context = .ok aliases) ↔
      Settings.TextTable table := by
  constructor
  · rintro ⟨aliases, haliases⟩
    obtain ⟨entries, hentries, haliases⟩ := exists_of_bind_eq_ok haliases
    obtain ⟨targets, htargets, -⟩ := exists_of_bind_eq_ok haliases
    refine ⟨entries, members_eq_ok hentries, fun e he => ?_⟩
    obtain ⟨target, htarget⟩ := exists_mapM_eq_ok.mp ⟨targets, htargets⟩ e he
    obtain ⟨text, htext, -⟩ := exists_of_bind_eq_ok htarget
    cases hvalue : e.2 with
    | str t => exact ⟨t, rfl⟩
    | _ =>
      rw [hvalue] at htext
      cases htext
  · rintro ⟨entries, rfl, htexts⟩
    unfold Aliases.ofJson Json.members
    rw [ok_bind]
    refine exists_bind_ok_iff.mpr (exists_mapM_eq_ok.mpr fun e he => ?_)
    obtain ⟨name, value⟩ := e
    obtain ⟨t, rfl⟩ := htexts _ he
    exact ⟨_, rfl⟩

theorem exists_ofSettings_iff {s : SourceSettings} : (∃ m, ofSettings attributes s = .ok m) ↔
    ∃ table, s.aliases = some table ∧ Settings.TextTable table := by
  unfold ofSettings SourceSettings.aliasTable
  cases s.aliases with
  | none => exact iff_of_false nofun nofun
  | some table =>
    refine (exists_bind_ok_iff.trans exists_aliases_iff).trans ?_
    simp

end Modules

namespace Project

variable {env : Environment} {s : SourceSettings} {fs : FileSystem}

theorem ofSettings_decides_iff : Decides (ofSettings env fs s) ↔
    (∃ rules, s.identifier = .record rules) ∧
      (Settings.OneRule s → ∃ table, s.aliases = some table ∧ Settings.TextTable table) := by
  unfold ofSettings
  rw [decides_bind_iff, EntityRule.ofSettings_decides_iff]
  refine and_congr_right fun _ => ?_
  rw [← EntityRule.exists_ofSettings_iff,
    ← @Modules.exists_ofSettings_iff env.attributes,
    ← (Modules.unconfigured_ofSettings s).decides_iff]
  constructor
  · rintro h ⟨rule, hrule⟩
    exact (decides_bind_iff.mp (h rule hrule)).1
  · intro h rule hrule
    exact decides_bind_iff.mpr ⟨h ⟨rule, hrule⟩, fun _ _ => decides_ok _⟩

theorem exists_ofSettings_iff : (∃ p, ofSettings env fs s = .ok p) ↔
    Settings.OneRule s ∧ ∃ table, s.aliases = some table ∧ Settings.TextTable table := by
  rw [← EntityRule.exists_ofSettings_iff,
    ← @Modules.exists_ofSettings_iff env.attributes]
  unfold ofSettings
  constructor
  · rintro ⟨p, hp⟩
    obtain ⟨rule, hrule, hp⟩ := exists_of_bind_eq_ok hp
    obtain ⟨modules, hmodules, -⟩ := exists_of_bind_eq_ok hp
    exact ⟨⟨rule, hrule⟩, modules, hmodules⟩
  · rintro ⟨⟨rule, hrule⟩, modules, hmodules⟩
    rw [hrule, ok_bind, hmodules]
    exact ⟨_, rfl⟩

end Project

namespace NameFormat

variable {library : Library}

/-- An import path is cut at its first colon. -/
theorem cut_path {module : String} (name : String) (h : ':' ∉ module.toList) :
    (module ++ ":" ++ name).toList.takeWhile (· != ':') = module.toList ∧
      (module ++ ":" ++ name).toList.drop (module.toList.length + 1) = name.toList := by
  have hpath : (module ++ ":" ++ name).toList = module.toList ++ ':' :: name.toList := by
    simp
  have hmodule : ∀ c ∈ module.toList, (c != ':') = true := fun c hc =>
    bne_iff_ne.mpr fun heq => h (heq ▸ hc)
  rw [hpath]
  constructor
  · rw [List.takeWhile_append_of_pos hmodule]
    simp
  · rw [← List.drop_drop]
    simp

theorem exists_cut {path : String} (h : ':' ∈ path.toList) :
    ∃ module name : String, path = module ++ ":" ++ name ∧ ':' ∉ module.toList := by
  obtain ⟨module, name, hpath, hmodule⟩ := List.eq_append_cons_of_mem h
  refine ⟨String.ofList module, String.ofList name, ?_, by rwa [String.toList_ofList]⟩
  rw [← String.toList_inj, hpath]
  simp

theorem cut_unique {module name module' name' : String} (h : ':' ∉ module.toList)
    (h' : ':' ∉ module'.toList) (hpath : module ++ ":" ++ name = module' ++ ":" ++ name') :
    module' = module ∧ name' = name := by
  obtain ⟨hmodule, hname⟩ := cut_path name h
  obtain ⟨hmodule', hname'⟩ := cut_path name' h'
  rw [hpath, hmodule'] at hmodule
  rw [hpath, ← hmodule, hname'] at hname
  exact ⟨String.toList_inj.mp hmodule, String.toList_inj.mp hname⟩

/-- An import path gives a function or is refused, unless it names no module or one that fails. -/
theorem ofImport_decides_iff {path : String} (h : ':' ∈ path.toList) :
    Decides (ofImport library path) ↔ Settings.Importable library path := by
  obtain ⟨module, name, rfl, hmodule⟩ := exists_cut h
  obtain ⟨hbefore, hafter⟩ := cut_path name hmodule
  unfold ofImport
  dsimp only
  rw [hbefore, hafter, String.ofList_toList, String.ofList_toList]
  have hhead : (module ++ ":" ++ name).toList.head? = (module.toList.head?).or (some ':') := by
    simp [List.head?_append]
  cases hchars : module.toList with
  | nil =>
    rw [hchars] at hhead
    exact iff_of_false (fun h => nomatch decides_error_iff.mp h) fun h => h.named hhead
  | cons c rest =>
    rw [hchars] at hhead
    rw [if_neg (by simp), List.head?_cons]
    have hcolon : c ≠ ':' := by
      rintro rfl
      exact hmodule (hchars ▸ List.mem_cons_self)
    by_cases hdot : c = '.'
    · subst hdot
      rw [if_pos (by simp)]
      exact iff_of_false (not_decides_wrongKind _) fun h => h.absolute hhead
    · have himportable : Settings.Importable library (module ++ ":" ++ name) ↔
          ∀ e, library.find module name = .failed e → e.isConfiguration = true := by
        refine ⟨fun h e => h.loads module name e rfl hmodule, fun h => ⟨?_, ?_, ?_⟩⟩
        · rw [hhead]
          exact fun heq => hcolon (Option.some.inj heq)
        · rw [hhead]
          exact fun heq => hdot (Option.some.inj heq)
        · intro module' name' e hpath hmodule' hfails
          obtain ⟨rfl, rfl⟩ := cut_unique hmodule hmodule' hpath
          exact h e hfails
      rw [if_neg (by simpa using hdot), himportable]
      cases library.find module name with
      | missing reason => exact iff_of_true (decides_error_iff.mpr rfl) nofun
      | failed e => exact ⟨fun h e' he => Imported.failed.inj he ▸ decides_error_iff.mp h,
          fun h => decides_error_iff.mpr (h e rfl)⟩
      | value => exact iff_of_true (decides_error_iff.mpr rfl) nofun
      | function call => exact iff_of_true (decides_ok _) nofun

theorem ofValue_decides_iff {s : String} : Decides (ofValue library (.str s)) ↔
    ('{' ∉ s.toList → ':' ∈ s.toList → Settings.Importable library s) := by
  unfold ofValue
  dsimp only
  cases hcasing : Casing.ofName? s with
  | some c =>
    have hname : c.name = s := by simpa using List.find?_some hcasing
    have hplain : ':' ∉ s.toList := by
      rw [← hname]
      cases c <;> decide
    exact iff_of_true (decides_ok _) fun _ h => absurd h hplain
  | none =>
    dsimp only
    by_cases hbrace : '{' ∈ s.toList
    · rw [if_pos (List.contains_iff_mem.mpr hbrace)]
      exact iff_of_true (decides_ok _) fun h => absurd hbrace h
    · rw [if_neg (by simpa using hbrace)]
      by_cases hcolon : ':' ∈ s.toList
      · rw [if_pos (List.contains_iff_mem.mpr hcolon), ofImport_decides_iff hcolon]
        exact ⟨fun h _ _ => h, fun h => h hbrace hcolon⟩
      · rw [if_neg (by simpa using hcolon)]
        exact iff_of_true (decides_error_iff.mpr rfl) fun _ h => absurd h hcolon

theorem ofValue_defaultFilename (library : Library) :
    ofValue library defaultFilename = .ok (.template "\x7bkebab\x7d.dart") := by
  cbv

theorem ofValue_defaultName (library : Library) :
    ofValue library defaultName = .ok (.casing .pascal) := by
  cbv

theorem ofJson_decides_iff {v default : Json} {f : NameFormat}
    (hdefault : ofValue library default = .ok f) :
    Decides (ofJson library v default) ↔ Settings.FormatLike library v := by
  unfold Settings.FormatLike
  cases v with
  | null =>
    refine iff_of_true ?_ (Or.inl rfl)
    unfold ofJson
    rw [hdefault]
    exact decides_ok f
  | str s =>
    have hofJson : ofJson library (.str s) default = ofValue library (.str s) := rfl
    rw [hofJson, ofValue_decides_iff]
    simp
  | bool b => exact iff_of_false (not_decides_wrongKind _) (by simp)
  | int n => exact iff_of_false (not_decides_wrongKind _) (by simp)
  | fraction x => exact iff_of_false (not_decides_wrongKind _) (by simp)
  | arr items => exact iff_of_false (not_decides_wrongKind _) (by simp)
  | obj members => exact iff_of_false (not_decides_wrongKind _) (by simp)

end NameFormat

namespace Generator

theorem ofSettings_decides_iff {library : Library} {s : ModelSettings} :
    Decides (ofSettings library s) ↔
      ∃ formats, s.formatters = .record formats ∧ Settings.FormatLike library formats.filename ∧
        ((∃ f, NameFormat.ofJson library formats.filename NameFormat.defaultFilename = .ok f) →
          Settings.FormatLike library formats.name) := by
  unfold ofSettings ModelSettings.formatsFor
  cases s.formatters with
  | other v => exact iff_of_false (not_decides_wrongKind _) nofun
  | missing => exact iff_of_false (not_decides_wrongKind _) nofun
  | record formats =>
    have hsteps :
        Decides (NameFormat.ofJson library formats.filename NameFormat.defaultFilename >>= fun f =>
          NameFormat.ofJson library formats.name NameFormat.defaultName >>= fun n =>
            (.ok ⟨s, f, n⟩ : Except Error Generator)) ↔
        Settings.FormatLike library formats.filename ∧
          ((∃ f, NameFormat.ofJson library formats.filename NameFormat.defaultFilename = .ok f) →
            Settings.FormatLike library formats.name) := by
      have hlast := NameFormat.ofJson_decides_iff (v := formats.name)
        (NameFormat.ofValue_defaultName library)
      rw [decides_bind_iff,
        NameFormat.ofJson_decides_iff (NameFormat.ofValue_defaultFilename library)]
      refine and_congr_right fun _ => ?_
      constructor
      · rintro h ⟨f, hf⟩
        exact hlast.mp (decides_bind_iff.mp (h f hf)).1
      · intro h f hf
        exact decides_bind_iff.mpr ⟨hlast.mpr (h ⟨f, hf⟩), fun _ _ => decides_ok _⟩
    constructor
    · intro h
      exact ⟨formats, rfl, hsteps.mp h⟩
    · rintro ⟨formats', hformats, h⟩
      cases hformats
      exact hsteps.mpr h

end Generator

namespace Settings

variable {env : Environment} {s : Settings} {fs : FileSystem}

/-- Settings give both stages, or are refused, exactly if they are buildable. -/
theorem stages_decides_iff : Decides (s.stages env fs) ↔ s.Buildable env.library := by
  unfold stages
  rw [decides_bind_iff, Project.ofSettings_decides_iff]
  constructor
  · rintro ⟨⟨hrules, haliases⟩, hgenerator⟩
    refine ⟨hrules, haliases, fun hrule => ?_⟩
    obtain ⟨p, hp⟩ := (@Project.exists_ofSettings_iff env s.source fs).mpr ⟨hrule, haliases hrule⟩
    exact Generator.ofSettings_decides_iff.mp (decides_bind_iff.mp (hgenerator p hp)).1
  · rintro ⟨hrules, haliases, hformats⟩
    refine ⟨⟨hrules, haliases⟩, fun p hp => ?_⟩
    obtain ⟨hrule, -⟩ := Project.exists_ofSettings_iff.mp ⟨p, hp⟩
    exact decides_bind_iff.mpr
      ⟨Generator.ofSettings_decides_iff.mpr (hformats hrule), fun _ _ => decides_ok _⟩

/-! ## Options files -/

/-- A setting that is a text. -/
def IsText (v : Json) : Prop := ∃ s, v = .str s

/-- Settings that can be loaded and set up, or are refused: their directories are texts. -/
structure Usable (library : Library) (s : Settings) : Prop extends Buildable library s where
  cwd : IsText s.source.cwd
  root : IsText s.source.root
  out : IsText s.model.out

theorem unconfigured_joinable (v : Json) : Unconfigured v.joinable := by
  unfold Json.joinable
  split
  · exact OnlyErrors.ok _
  · exact unconfigured_wrongKind _

theorem exists_joinable_iff {v : Json} : (∃ t, v.joinable = .ok t) ↔ IsText v := by
  cases v with
  | str s => exact iff_of_true ⟨s, rfl⟩ ⟨s, rfl⟩
  | _ => exact iff_of_false nofun nofun

theorem unconfigured_resolvePaths (s : Settings) (base : String) :
    Unconfigured (s.resolvePaths base) := by
  have hbelow : ∀ (dir : String) (v : Json), Unconfigured (do
      return Path.normalize (Path.join dir (← v.joinable)) : Except Error String) :=
    fun dir v => OnlyErrors.bind (unconfigured_joinable v) fun _ => OnlyErrors.ok _
  refine OnlyErrors.bind (hbelow _ _) fun _ => OnlyErrors.bind (hbelow _ _) fun _ => ?_
  exact OnlyErrors.bind (hbelow _ _) fun _ => OnlyErrors.ok _

theorem exists_resolvePaths_iff {base : String} : (∃ t, s.resolvePaths base = .ok t) ↔
    IsText s.source.cwd ∧ IsText s.source.root ∧ IsText s.model.out := by
  constructor
  · rintro ⟨t, h⟩
    obtain ⟨cwd, hcwd, h⟩ := exists_of_bind_eq_ok h
    obtain ⟨root, hroot, h⟩ := exists_of_bind_eq_ok h
    obtain ⟨out, hout, -⟩ := exists_of_bind_eq_ok h
    obtain ⟨cwd, hcwd, -⟩ := exists_of_bind_eq_ok hcwd
    obtain ⟨root, hroot, -⟩ := exists_of_bind_eq_ok hroot
    obtain ⟨out, hout, -⟩ := exists_of_bind_eq_ok hout
    exact ⟨exists_joinable_iff.mp ⟨cwd, hcwd⟩, exists_joinable_iff.mp ⟨root, hroot⟩,
      exists_joinable_iff.mp ⟨out, hout⟩⟩
  · rintro ⟨⟨cwd, hcwd⟩, ⟨root, hroot⟩, ⟨out, hout⟩⟩
    unfold resolvePaths
    rw [hcwd, hroot, hout]
    exact ⟨_, rfl⟩

/-- The directories do not count for the stages. -/
theorem buildable_of_resolvePaths {library : Library} {t : Settings} {base : String}
    (h : s.resolvePaths base = .ok t) : t.Buildable library ↔ s.Buildable library := by
  obtain ⟨cwd, -, h⟩ := exists_of_bind_eq_ok h
  obtain ⟨root, -, h⟩ := exists_of_bind_eq_ok h
  obtain ⟨out, -, h⟩ := exists_of_bind_eq_ok h
  cases h
  exact ⟨fun h => ⟨h.rules, h.aliases, h.formats⟩, fun h => ⟨h.rules, h.aliases, h.formats⟩⟩

end Settings

namespace CommandLine

open Settings

variable {env : Environment} {fs : FileSystem} {r : RunRequest} {bytes : List UInt8}

/-- Settings with the directories of a request. -/
def RunRequest.override (r : RunRequest) (s : Settings) : Settings :=
  { s with
    source := { s.source with cwd := (r.cwd.map Json.str).getD s.source.cwd }
    model := { s.model with out := (r.out.map Json.str).getD s.model.out } }

theorem RunRequest.buildable_override {library : Library} (r : RunRequest) (s : Settings) :
    (r.override s).Buildable library ↔ s.Buildable library :=
  ⟨fun h => ⟨h.rules, h.aliases, h.formats⟩, fun h => ⟨h.rules, h.aliases, h.formats⟩⟩

/-- The steps from an options file to the stages. -/
theorem stages_of_readFile (h : fs.readFile (Path.tidy (r.optionsFile fs)) = .ok bytes) :
    (settingsOf fs r >>= fun s => s.stages env fs) =
      ((Utf8.decode bytes).mapError Error.encoding >>= fun text =>
        (Json.parse (String.ofList (Utf8.universalLines text))).mapError
          (readingError (Path.tidy (r.optionsFile fs))) >>= fun d =>
        ofJson d >>= fun s => s.resolvePaths (r.base fs) >>= fun t =>
        (r.override t).stages env fs) := by
  have hload : load fs (r.optionsFile fs) = (readDocument fs (Path.tidy (r.optionsFile fs)) >>=
      fun d => ofJson d >>= fun s => s.resolvePaths (r.base fs)) := by
    unfold load
    show (fs.exists? (Path.tidy (r.optionsFile fs)) >>= _) = _
    rw [FileSystem.exists?_of_readFile h]
    rfl
  have hstages : (settingsOf fs r >>= fun s => s.stages env fs) =
      (load fs (r.optionsFile fs) >>= fun t => (r.override t).stages env fs) := by
    unfold settingsOf
    cases load fs (r.optionsFile fs) <;> rfl
  rw [hstages, hload]
  unfold readDocument
  rw [h, ok_bind]
  simp only [bind_assoc]

/-- The settings of a document give both stages, or are refused, exactly if they are usable. -/
theorem override_decides_iff {s : Settings} {base : String} :
    Decides (s.resolvePaths base >>= fun t => (r.override t).stages env fs) ↔
      s.Usable env.library := by
  rw [decides_bind_iff, (unconfigured_resolvePaths s base).decides_iff, exists_resolvePaths_iff]
  constructor
  · rintro ⟨hpaths, hstages⟩
    obtain ⟨t, ht⟩ := exists_resolvePaths_iff.mpr hpaths
    have hbuildable := stages_decides_iff.mp (hstages t ht)
    rw [r.buildable_override, buildable_of_resolvePaths ht] at hbuildable
    exact ⟨hbuildable, hpaths.1, hpaths.2.1, hpaths.2.2⟩
  · rintro ⟨hbuildable, hcwd, hroot, hout⟩
    refine ⟨⟨hcwd, hroot, hout⟩, fun t ht => stages_decides_iff.mpr ?_⟩
    rw [r.buildable_override, buildable_of_resolvePaths ht]
    exact hbuildable

/-- A text without half a surrogate pair, read as a document: it has no number of too many digits, and
what it holds, if it is a document at all, is read as usable settings. -/
structure Acceptable (library : Library) (text : String) : Prop where
  digits : ∀ n, Json.parse text ≠ .error (.digits n)
  readable : ∀ d, Json.parse text = .ok d → Readable d
  usable : ∀ d s, Json.parse text = .ok d → ofJson d = .ok s → s.Usable library

/-- The options file of a request gives both stages, or the request ends with an error of the
configuration, exactly if the file is UTF-8 and acceptable.  The directories that the request gives do
not count.  A document with half a surrogate pair is left out. -/
theorem options_decided_iff (h : fs.readFile (Path.tidy (r.optionsFile fs)) = .ok bytes)
    (hpaired : ∀ text, Utf8.decode bytes = .ok text →
      Json.parse (String.ofList (Utf8.universalLines text)) ≠ .error .surrogate) :
    Decides (settingsOf fs r >>= fun s => s.stages env fs) ↔
      ∃ text, Utf8.decode bytes = .ok text ∧
        Acceptable env.library (String.ofList (Utf8.universalLines text)) := by
  rw [stages_of_readFile h]
  cases hdecode : Utf8.decode bytes with
  | error fault =>
    refine iff_of_false (fun h => nomatch decides_error_iff.mp h) ?_
    rintro ⟨text, htext, -⟩
    cases htext
  | ok text =>
    have hwhole := hpaired text hdecode
    simp only [Except.ok.injEq, exists_eq_left']
    show Decides ((Json.parse (String.ofList (Utf8.universalLines text))).mapError
      (readingError (Path.tidy (r.optionsFile fs))) >>= _) ↔ _
    generalize String.ofList (Utf8.universalLines text) = document at hwhole ⊢
    cases hparse : Json.parse document with
    | error fault =>
      cases fault with
      | malformed fault =>
        refine iff_of_true (decides_error_iff.mpr rfl) ⟨fun n => ?_, ?_, ?_⟩ <;> rw [hparse] <;> nofun
      | digits n =>
        refine iff_of_false (fun h => nomatch decides_error_iff.mp h) fun h => ?_
        exact h.digits n hparse
      | surrogate => exact absurd hparse hwhole
    | ok d =>
      show Decides (ofJson d >>= _) ↔ _
      rw [decides_bind_iff, (unconfigured_ofJson d).decides_iff, exists_ofJson_iff]
      simp only [override_decides_iff]
      constructor
      · rintro ⟨hreadable, husable⟩
        refine ⟨fun n => by rw [hparse]; nofun, fun d' hd => ?_, fun d' s hd hs => ?_⟩
        · cases hparse.symm.trans hd
          exact hreadable
        · cases hparse.symm.trans hd
          exact husable s hs
      · intro h
        exact ⟨h.readable d hparse, fun s => h.usable d s hparse⟩

/-- A tree with an options file of one byte, which is not UTF-8. -/
def garbled : FileSystem := ⟨[(["darmogen.json".toList], .file [0xff])], []⟩

/-- A request without options. -/
def bare : RunRequest := ⟨none, none, none, false⟩

/-- The byte that is not UTF-8 is no error of the configuration. -/
theorem garbled_unhandled :
    ∃ e, (settingsOf garbled bare >>= fun s => s.stages (.standard garbled) garbled) = .error e ∧
      e.isConfiguration = false ∧ Stop.ofError e = .unhandled e := by
  have hread : garbled.readFile (Path.tidy (bare.optionsFile garbled)) = .ok [0xff] := by
    decide +kernel
  have hdecode : Utf8.decode [0xff] = .error ⟨.startByte, 0xff, 0, 1⟩ := by rfl
  rw [stages_of_readFile hread, hdecode]
  exact ⟨_, rfl, rfl, rfl⟩

theorem options_decided_iff_garbled :
    garbled.readFile (Path.tidy (bare.optionsFile garbled)) = .ok [0xff] ∧
      ¬Decides (settingsOf garbled bare >>= fun s => s.stages (.standard garbled) garbled) := by
  have hread : garbled.readFile (Path.tidy (bare.optionsFile garbled)) = .ok [0xff] := by
    decide +kernel
  refine ⟨hread, fun h => ?_⟩
  obtain ⟨text, htext, -⟩ := (options_decided_iff hread nofun).mp h
  cases htext

end CommandLine

end DartModels
