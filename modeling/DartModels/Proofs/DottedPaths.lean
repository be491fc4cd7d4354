import DartModels.Aliases
import DartModels.Proofs.SettingsDocument

/-!
# Dotted paths

A dotted path is looked up part by part.  In the settings of a section a part finds what the section
states under it, else its default, else what the language gives; in rules it finds a rule, and in an
object a member.

    a further part is looked up in what was found                                      (get?_append)
    one member of a section sets the entry of its name, or nothing                       (set_cases)
    the settings of a section hold what its members state                             (held?_ofJson)
    how every kind of value is looked into                                                 (looksUp)
-/

namespace DartModels

theorem map_setEntry {α β : Type} (f : α → β) (name : String) (value : α)
    (table : List (String × α)) :
    (setEntry name value table).map (fun e => (e.1, f e.2)) =
      setEntry name (f value) (table.map fun e => (e.1, f e.2)) := by
  induction table with
  | nil => rfl
  | cons e table ih =>
    rw [setEntry, List.map_cons, setEntry, ← ih]
    split <;> rfl

theorem setEntry_append {α : Type} {name : String} {value : α} {front rest : List (String × α)}
    (h : ∀ e ∈ front, e.1 ≠ name) :
    setEntry name value (front ++ rest) = front ++ setEntry name value rest := by
  induction front with
  | nil => rfl
  | cons e front ih =>
    obtain ⟨he, hfront⟩ := List.forall_mem_cons.mp h
    rw [List.cons_append, setEntry, if_neg he, ih hfront, List.cons_append]

/-! ## Rules -/

namespace EntityRules

theorem mem_names_of_set {r r' : EntityRules} {name : String} {v : Json}
    (h : r.set name v = .ok r') : name ∈ names := by
  unfold set at h
  split at h
  · decide
  · decide
  · decide
  · cases h

/-- An object of rules has no other members. -/
theorem mem_names_of_ofMembers {members : List (String × Json)} {r : EntityRules}
    (h : ofMembers members = .ok r) : ∀ m ∈ members, m.1 ∈ names := by
  unfold ofMembers at h
  generalize empty = start at h
  induction members generalizing start with
  | nil => exact List.forall_mem_nil _
  | cons m members ih =>
    rw [List.foldlM_cons] at h
    obtain ⟨next, hset, h⟩ := exists_of_bind_eq_ok h
    exact List.forall_mem_cons.mpr ⟨mem_names_of_set hset, ih next h⟩

/-- A rule that the object does not state is null. -/
theorem member?_entries {members : List (String × Json)} {r : EntityRules}
    (h : ofMembers members = .ok r) (hnames : (members.map Prod.fst).Nodup) (name : String) :
    Json.member? name r.entries =
      if name ∈ names then some (Json.memberOr .null name members) else none := by
  rw [ofMembers_eq_ok hnames (mem_names_of_ofMembers h)] at h
  cases h
  simp only [entries, names, Json.member?, List.mem_cons, List.not_mem_nil, or_false]
  by_cases hdecorator : "decorator" = name
  · subst hdecorator
    rfl
  · by_cases hextends : "extends" = name
    · subst hextends
      rfl
    · by_cases himplements : "implements" = name
      · subst himplements
        rfl
      · rw [if_neg hdecorator, if_neg hextends, if_neg himplements, if_neg]
        rintro (h | h | h)
        · exact hdecorator h.symm
        · exact hextends h.symm
        · exact himplements h.symm

end EntityRules

namespace SourceSettings

open Context (settingsFields)

/-! ## One member -/

/-- The value of a member as something to look into: an object of rules is a record. -/
def shownAs (name : String) (v : Json) : Option Context :=
  match v with
  | .obj rules =>
    if name = "identifier" then (EntityRules.ofMembers rules).toOption.map .rules
    else some (.value v)
  | _ => some (.value v)

/-- The names under which a section sets an attribute. -/
def heldNames : List String := settingNames ++ recordAttributes

/-- No setting is missing, and what else is set are attributes of the record. -/
structure Regular (s : SourceSettings) : Prop where
  aliases : s.aliases ≠ none
  identifier : s.identifier ≠ .missing
  attributes : ∀ m ∈ s.attributes, m.1 ∈ recordAttributes

variable {s t : SourceSettings} {name : String} {v : Json}

theorem shownAs_of_ne (h : name ≠ "identifier") (v : Json) : shownAs name v = some (.value v) := by
  unfold shownAs
  split
  · rw [if_neg h]
  · rfl

/-- An attribute that is no setting. -/
theorem setAttribute_cases {attributes attributes' : List (String × Json)}
    (hattributes : ∀ m ∈ attributes, m.1 ∈ recordAttributes)
    (h : setAttribute owner name v attributes = .ok attributes') :
    name ∉ recordAttributes ∧ attributes' = attributes ∨
      name ∈ recordAttributes ∧ attributes' = setEntry name v attributes := by
  unfold setAttribute at h
  split at h
  · cases h
  · split at h
    · cases h
    · split at h
      · next hheld =>
        cases h
        refine Or.inr ⟨?_, Json.setMember_eq_setEntry name v attributes⟩
        rw [Bool.or_eq_true, List.contains_iff_mem] at hheld
        rcases hheld with hmem | hset
        · exact hmem
        · obtain ⟨w, hw⟩ := Option.isSome_iff_exists.mp hset
          exact hattributes _ (mem_of_lookup hw)
      · next hheld =>
        cases h
        rw [Bool.or_eq_true, List.contains_iff_mem, not_or] at hheld
        exact Or.inl ⟨hheld.1, rfl⟩

/-- A value that stands for rules. -/
theorem set_identifier_cases (hs : s.Regular) (h : s.set "identifier" v = .ok t) :
    ∃ part c, t = { s with identifier := part } ∧ Context.ofSection part = some c ∧
      shownAs "identifier" v = some c := by
  have hreplace : s.identifier.replace v = .other v := by
    cases hidentifier : s.identifier with
    | missing => exact absurd hidentifier hs.identifier
    | _ => rfl
  cases v with
  | obj rules =>
    obtain ⟨r, hr, h⟩ := exists_of_bind_eq_ok h
    cases h
    refine ⟨.record r, .rules r, rfl, rfl, ?_⟩
    simp [shownAs, hr, Except.toOption]
  | _ =>
    cases h
    exact ⟨_, _, rfl, congrArg Context.ofSection hreplace, rfl⟩

/-- What one member of a section does: it sets the entry of its name, unless it is no attribute. -/
theorem set_cases (hs : s.Regular) (h : s.set name v = .ok t) (hdict : name ≠ "__dict__") :
    (name ∉ heldNames ∧ t = s) ∨ (name ∈ heldNames ∧ t.Regular ∧
      ∃ c, shownAs name v = some c ∧ settingsFields t = setEntry name c (settingsFields s)) := by
  obtain ⟨a, haliases⟩ := Option.ne_none_iff_exists'.mp hs.aliases
  obtain ⟨c, hc⟩ : ∃ c, Context.ofSection s.identifier = some c := by
    cases hidentifier : s.identifier with
    | missing => exact absurd hidentifier hs.identifier
    | _ => exact ⟨_, rfl⟩
  by_cases hname : name = "identifier"
  · subst hname
    obtain ⟨part, c', rfl, hpart, hshown⟩ := set_identifier_cases hs h
    have hpresent : part ≠ .missing := by
      rintro rfl
      cases hpart
    refine Or.inr ⟨by decide, ⟨hs.aliases, hpresent, hs.attributes⟩, c', hshown, ?_⟩
    simp [settingsFields, setEntry, haliases, hc, hpart]
  · unfold set at h
    split at h
    case h_6 => exact absurd rfl hname
    case h_10 => exact absurd rfl hdict
    case h_11 haliasesName hcwd hroot hext hsuffix _ hexclude hrequire hworkers _ =>
      have hsetting : name ∉ settingNames := by
        simp only [settingNames, List.mem_cons, List.not_mem_nil, or_false, not_or]
        exact ⟨haliasesName, hcwd, hroot, hext, hsuffix, hname, hexclude, hrequire, hworkers⟩
      obtain ⟨attributes, hset, h⟩ := exists_of_bind_eq_ok h
      cases h
      rcases setAttribute_cases hs.attributes hset with ⟨hrecord, rfl⟩ | ⟨hrecord, rfl⟩
      · exact Or.inl ⟨fun hheld => (List.mem_append.mp hheld).elim hsetting hrecord, rfl⟩
      · refine Or.inr ⟨List.mem_append_right _ hrecord,
          ⟨hs.aliases, hs.identifier, fun m hm => ?_⟩, _, shownAs_of_ne hname v, ?_⟩
        · rcases mem_setEntry hm with rfl | hm
          · exact hrecord
          · exact hs.attributes m hm
        · unfold settingsFields
          dsimp only
          rw [haliases, hc, map_setEntry, setEntry_append fun e he heq => hsetting ?_]
          simp only [Option.map_some, Option.toList_some, List.map_cons, List.map_nil,
            List.cons_append, List.nil_append, List.mem_cons, List.not_mem_nil, or_false] at he
          rcases he with rfl | rfl | rfl | rfl | rfl | rfl | rfl | rfl | rfl <;>
            simp [settingNames, ← heq]
    all_goals
      cases h
      refine Or.inr ⟨by decide, ⟨?_, hs.identifier, hs.attributes⟩, _, shownAs_of_ne hname v, ?_⟩
      · simp [haliases]
      · simp [settingsFields, setEntry, haliases, hc]

/-! ## A whole section -/

variable {members : List (String × Json)}

/-- What is found under a name is what the section states, else what was found before. -/
theorem lookup_of_foldlM (hnames : (members.map Prod.fst).Nodup)
    (hdict : ∀ m ∈ members, m.1 ≠ "__dict__") (hs : s.Regular)
    (h : members.foldlM (fun s m => SourceSettings.set s m.1 m.2) s = .ok t) (name : String) :
    (settingsFields t).lookup name =
      if name ∈ heldNames then
        (Json.member? name members).elim ((settingsFields s).lookup name) (shownAs name)
      else (settingsFields s).lookup name := by
  induction members generalizing s with
  | nil =>
    cases h
    exact (ite_self _).symm
  | cons m members ih =>
    obtain ⟨k, v⟩ := m
    obtain ⟨hk, hnames⟩ := List.nodup_cons.mp hnames
    obtain ⟨hkdict, hdict⟩ := List.forall_mem_cons.mp hdict
    rw [List.foldlM_cons] at h
    obtain ⟨s', hset, h⟩ := exists_of_bind_eq_ok h
    have hcases := set_cases hs hset hkdict
    have hregular : s'.Regular := by
      rcases hcases with ⟨-, rfl⟩ | ⟨-, hregular, -⟩
      · exact hs
      · exact hregular
    rw [ih hnames hdict hregular h, Json.member?]
    by_cases hkn : k = name
    · -- no later member has this name
      subst hkn
      rw [if_pos rfl, Json.member?_eq_none hk]
      rcases hcases with ⟨hheld, rfl⟩ | ⟨hheld, -, c, hshown, hfields⟩
      · rw [if_neg hheld, if_neg hheld]
      · rw [if_pos hheld, if_pos hheld, hfields]
        exact (lookup_setEntry k k c _).trans ((if_pos rfl).trans hshown.symm)
    · have hbefore : (settingsFields s').lookup name = (settingsFields s).lookup name := by
        rcases hcases with ⟨-, rfl⟩ | ⟨-, -, c, -, hfields⟩
        · rfl
        · rw [hfields, lookup_setEntry, if_neg (Ne.symm hkn)]
      rw [if_neg hkn, hbefore]

/-- The settings of an empty section are those that its document states. -/
theorem lookup_default {defaults : List (String × Json)}
    (h : default.toJson = .ok (.obj defaults)) (name : String) :
    (settingsFields default).lookup name = (Json.member? name defaults).bind (shownAs name) := by
  cases h
  by_cases hname : name ∈ settingNames
  · simp only [settingNames, List.mem_cons, List.not_mem_nil, or_false] at hname
    rcases hname with rfl | rfl | rfl | rfl | rfl | rfl | rfl | rfl | rfl <;> rfl
  · have hfields : (settingsFields default).lookup name = none := by
      rw [List.lookup_eq_none_iff]
      intro e he
      have hkey : e.1 ∈ settingNames := List.mem_map_of_mem (f := Prod.fst) he
      exact bne_iff_ne.mpr fun heq => hname (heq ▸ hkey)
    rw [hfields, Json.member?_eq_none hname]
    rfl

theorem regular_default : default.Regular := ⟨nofun, nofun, List.forall_mem_nil _⟩

/-- The settings of a section are looked into by its members, and then by those of the document of an
empty section. -/
theorem lookup_ofJson {defaults : List (String × Json)} (hnames : (members.map Prod.fst).Nodup)
    (hdict : ∀ m ∈ members, m.1 ≠ "__dict__") (h : ofJson (.obj members) = .ok s)
    (hdefault : default.toJson = .ok (.obj defaults)) (name : String) :
    (settingsFields s).lookup name =
      if name ∈ heldNames then (Json.member? name (members ++ defaults)).bind (shownAs name)
      else none := by
  rw [lookup_of_foldlM hnames hdict regular_default h name, lookup_default hdefault]
  split
  · rw [Json.member?_eq_lookup, Json.member?_eq_lookup, Json.member?_eq_lookup, List.lookup_append]
    cases members.lookup name <;> rfl
  · next hheld =>
    have hnone : name ∉ defaults.map Prod.fst := by
      cases hdefault
      exact fun hmem => hheld (List.mem_append_left _ hmem)
    rw [Json.member?_eq_none hnone]
    rfl

end SourceSettings

/-! ## Paths -/

namespace Context

variable {attributes : Attributes}

theorem get?_single (c : Context) {name : List Char} (h : '.' ∉ name) :
    c.get? attributes name = child? attributes (String.ofList name) c := by
  rw [get?, splitAtChar_of_notMem h]
  rfl

/-- A further part is looked up in what was found. -/
theorem get?_append (c : Context) (path : List Char) {name : List Char} (h : '.' ∉ name) :
    c.get? attributes (path ++ '.' :: name) =
      (c.get? attributes path).bind (child? attributes (String.ofList name)) := by
  rw [get?, splitAtChar_append, splitAtChar_of_notMem h, List.foldl_append]
  rfl

/-- The settings of a section hold what the section states under a name, else the default. -/
theorem held?_ofJson {members defaults : List (String × Json)} {s : SourceSettings}
    (hnames : (members.map Prod.fst).Nodup) (hdict : ∀ m ∈ members, m.1 ≠ "__dict__")
    (h : SourceSettings.ofJson (.obj members) = .ok s)
    (hdefault : SourceSettings.default.toJson = .ok (.obj defaults)) (name : String) :
    held? s name =
      if name ∈ SourceSettings.heldNames then
        (Json.member? name (members ++ defaults)).bind (SourceSettings.shownAs name)
      else none := by
  unfold held?
  split
  · next hreserved =>
    rw [if_neg]
    rw [List.contains_iff_mem] at hreserved
    simp only [reservedAttributes, List.mem_cons, List.not_mem_nil, or_false] at hreserved
    rcases hreserved with rfl | rfl | rfl <;> decide
  · exact SourceSettings.lookup_ofJson hnames hdict h hdefault name

/-- Directories that are replaced are found under their names, and everything else as before. -/
theorem held?_directories (s : SourceSettings) (cwd root : Json) (name : String) :
    held? { s with cwd, root } name =
      if name = "root" then some (.value root)
      else if name = "cwd" then some (.value cwd)
      else held? s name := by
  have hfields : settingsFields { s with cwd, root } =
      setEntry "root" (.value root) (setEntry "cwd" (.value cwd) (settingsFields s)) := by
    unfold settingsFields
    cases s.aliases <;> simp [setEntry]
  unfold held?
  rw [hfields, lookup_setEntry, lookup_setEntry]
  split
  · next hreserved =>
    rw [if_neg, if_neg] <;>
    · rintro rfl
      cases hreserved
  · rfl

/-- How a dotted path is looked up. -/
structure LooksUp (attributes : Attributes) : Prop where
  single : ∀ (c : Context) (name : List Char), '.' ∉ name →
    c.get? attributes name = child? attributes (String.ofList name) c
  further : ∀ (c : Context) (path name : List Char), '.' ∉ name →
    c.get? attributes (path ++ '.' :: name) =
      (c.get? attributes path).bind (child? attributes (String.ofList name))
  null : ∀ name, child? attributes name (.value .null) = none
  member : ∀ members name,
    child? attributes name (.value (.obj members)) = (members.lookup name).map .value
  /-- In settings: what they hold, else what the language gives. -/
  settings : ∀ s name,
    child? attributes name (.settings s) =
      (held? s name).orElse fun _ => attributes (.settings s) name
  /-- The settings of a section hold what it states, else the default. -/
  stated : ∀ members defaults s, (Json.obj members).Distinct →
    (∀ m ∈ members, m.1 ≠ "__dict__") → SourceSettings.ofJson (.obj members) = .ok s →
    SourceSettings.default.toJson = .ok (.obj defaults) →
    ∀ name, held? s name =
      if name ∈ SourceSettings.heldNames then
        (Json.member? name (members ++ defaults)).bind (SourceSettings.shownAs name)
      else none
  /-- Directories that were made absolute stand in the place of those of the section. -/
  directories : ∀ (s : SourceSettings) cwd root name,
    held? { s with cwd, root } name =
      if name = "root" then some (.value root)
      else if name = "cwd" then some (.value cwd)
      else held? s name
  /-- In rules: what their object states, else null. -/
  rule : ∀ members r, (Json.obj members).Distinct → EntityRules.ofMembers members = .ok r →
    ∀ name, child? attributes name (.rules r) =
      if name ∈ EntityRules.names then some (.value ((members.lookup name).getD .null))
      else attributes (.rules r) name
  /-- In any other value: what the language gives. -/
  value : ∀ v name, v ≠ .null → (∀ members, v ≠ .obj members) →
    child? attributes name (.value v) = attributes (.value v) name
  object : ∀ identity text name,
    child? attributes name (.object identity text) = attributes (.object identity text) name

theorem looksUp (attributes : Attributes) : LooksUp attributes where
  single c _ h := c.get?_single h
  further c path _ h := c.get?_append path h
  null _ := rfl
  member members name := by rw [← Json.member?_eq_lookup]; rfl
  settings _ _ := rfl
  stated _ _ _ hdistinct hdict h hdefault :=
    held?_ofJson (Json.distinct_obj.mp hdistinct).1 hdict h hdefault
  directories := held?_directories
  rule members r hdistinct h name := by
    show ((Json.member? name r.entries).map Context.value).orElse _ = _
    rw [EntityRules.member?_entries h (Json.distinct_obj.mp hdistinct).1, Json.memberOr,
      Json.member?_eq_lookup]
    split <;> rfl
  value v name hnull hobj := by
    cases v with
    | null => exact absurd rfl hnull
    | obj members => exact absurd rfl (hobj members)
    | _ => rfl
  object _ _ _ := rfl

end Context

end DartModels
