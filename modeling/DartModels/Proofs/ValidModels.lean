import DartModels.Proofs.AtomicOutcome
import DartModels.Proofs.ClassLines
import DartModels.Proofs.RepeatedEmission
import DartModels.Proofs.WordBoundaries

/-!
# Models that pass their check

A model is plain if the settings, the fields and primitive types of its entity, the class names of a
run and the ways to imported files have neither braces nor newlines, and class names start with a word
character.  Then the expressions that convert its fields have no braces either, whatever the types of
the fields are, and the text of the model passes the check that is made before it is written.

    the names of items consist of letters and digits                       (isAlphanum_of_mem_camel)
    the types and conversions of plain fields are inline          (inline_typeText, inline_fromJson)
    the lines before a plain model are inline                             (Plain.inline_headerLines)
    a plain model passes its check, and is written as if it was not checked             (emit_valid)
-/

namespace DartModels

/-! ## Words -/

/-- Letters and digits stay letters and digits in both cases. -/
theorem isAlphanum_toUpper_toLower {ch : Char} (h : ch.isAlphanum = true) :
    ch.toUpper.isAlphanum = true ∧ ch.toLower.isAlphanum = true :=
  forall_isAlphanum h (by decide)

theorem isAlphanum_of_mem_capitalize {w : List Char} (hw : ∀ ch ∈ w, ch.isAlphanum = true) :
    ∀ ch ∈ capitalize w, ch.isAlphanum = true := by
  cases w with
  | nil => exact List.forall_mem_nil _
  | cons c rest =>
    obtain ⟨hc, hrest⟩ := List.forall_mem_cons.mp hw
    refine List.forall_mem_cons.mpr ⟨(isAlphanum_toUpper_toLower hc).1, fun ch hch => ?_⟩
    obtain ⟨d, hd, rfl⟩ := List.mem_map.mp hch
    exact (isAlphanum_toUpper_toLower (hrest d hd)).2

theorem isAlphanum_of_mem_uncapitalize {w : List Char} (hw : ∀ ch ∈ w, ch.isAlphanum = true) :
    ∀ ch ∈ uncapitalize w, ch.isAlphanum = true := by
  cases w with
  | nil => exact List.forall_mem_nil _
  | cons c rest =>
    obtain ⟨hc, hrest⟩ := List.forall_mem_cons.mp hw
    exact List.forall_mem_cons.mpr ⟨(isAlphanum_toUpper_toLower hc).2, hrest⟩

/-- Whatever a name is made of, in camel case it consists of letters and digits. -/
theorem isAlphanum_of_mem_camel (name : String) :
    ∀ ch ∈ (Casing.camel.apply name).toList, ch.isAlphanum = true := by
  unfold Casing.apply
  rw [String.toList_ofList]
  refine isAlphanum_of_mem_uncapitalize fun ch hch => ?_
  obtain ⟨_, hmem, hch⟩ := List.mem_flatten.mp hch
  obtain ⟨w, hw, rfl⟩ := List.mem_map.mp hmem
  exact isAlphanum_of_mem_capitalize (fun d hd => isAlphanum_of_mem_words hw hd) ch hch

namespace Dart

/-! ## Conversions -/

/-- The items of a list have an inline name in a closure. -/
theorem inline_itemName (e : ModelEntity) : Inline (itemName e) := by
  intro ch hch
  have halphanum := isAlphanum_of_mem_camel e.name ch hch
  refine ⟨?_, ?_, ?_⟩ <;>
    · rintro rfl
      cases halphanum

/-- However a field is converted, its serialisation adds no braces. -/
theorem inline_toJson {name : String} (h : Inline name) (v : Conversion) : Inline (v.toJson name) := by
  cases v <;> simp only [Conversion.toJson, inline_append, inline_itemName, h] <;> decide

theorem inline_jsonField {name : String} (h : Inline name) : Inline (jsonField name) := by
  simp only [jsonField, inline_append, h]
  decide

/-! ## The lines of a file -/

/-- The line of the comment at the start of a generated file. -/
def commentLine : String :=
  s!"// Generated by {Program.name} {Program.version}. Do not edit by hand."

/-- The lines before a class. -/
def linesBefore (commented : Bool) (lines : List Json) : List String :=
  (if commented then [commentLine] else []) ++ lines.map Json.text

theorem headerText_eq_unlines (commented : Bool) (lines : List Json) :
    headerText commented lines = unlines (linesBefore commented lines) := by
  have hlines : String.join (lines.map fun line => line.text ++ "\n") =
      unlines (lines.map Json.text) := by
    unfold unlines
    rw [List.map_map]
    rfl
  unfold headerText linesBefore
  rw [unlines_append, hlines]
  cases commented <;> rfl

/-- A file is made of inline lines and the lines of its class. -/
theorem exists_fileText_eq_unlines (s : ModelSettings) {lines : List Json} (body : ClassText)
    (h : ∀ line ∈ lines, Inline line.text) : ∃ before, (∀ l ∈ before, Inline l) ∧
      Catalog.fileText s lines body = unlines (before ++ headLine body :: bodyLines body) := by
  unfold Catalog.fileText
  dsimp only
  split
  · exact ⟨[], List.forall_mem_nil _, classText_eq_unlines body⟩
  · refine ⟨linesBefore s.addGenerationComment.truthy lines ++ [""], ?_, ?_⟩
    · have hcomment : Inline commentLine := by decide
      simp only [linesBefore, List.forall_mem_append, List.forall_mem_map, List.forall_mem_singleton]
      refine ⟨⟨fun l hl => ?_, h⟩, by decide⟩
      split at hl
      · rwa [List.mem_singleton.mp hl]
      · cases hl
    · rw [headerText_eq_unlines, classText_eq_unlines, unlines_append, unlines_append]
      rfl

/-- A file of inline texts passes its check if the name of its class starts with a word character. -/
theorem validate_fileText (s : ModelSettings) {lines : List Json} {body : ClassText}
    (hlines : ∀ line ∈ lines, Inline line.text) (hbody : body.Plain) {c : Char} {rest : List Char}
    (hname : body.name.toList = c :: rest) (hc : isWordChar c = true) :
    validate (Catalog.fileText s lines body) = .ok () := by
  obtain ⟨before, hbefore, htext⟩ := exists_fileText_eq_unlines s body hlines
  rw [htext]
  exact hbody.validate_unlines hbefore hname hc

/-! ## Plain types -/

/-- A type that names primitive types inline only, itself and in what a model looks into. -/
inductive PlainType : TypeDescriptor → Prop
  | mk {kind : TypeKind} {name : String} {element objectType indexType : Option TypeDescriptor}
      {arguments : List TypeDescriptor} {importFile relativePath : Option String}
      (name_inline : kind = .primitive → Inline name)
      (element_plain : ∀ t, element = some t → PlainType t)
      (index_plain : ∀ t, indexType = some t → PlainType t) :
      PlainType (.mk kind name element objectType indexType arguments importFile relativePath)

/-- A reference names no primitive type. -/
theorem plainType_reference (name : String) (arguments : List TypeDescriptor)
    (importFile relativePath : Option String) :
    PlainType (.reference name arguments importFile relativePath) :=
  .mk nofun nofun nofun

end Dart

namespace Catalog

open Dart

variable {c : Catalog}

/-- A class name that stays within its line and starts with a word character. -/
structure NamesClass (name : String) : Prop where
  inline : Inline name
  starts : ∃ ch rest, name.toList = ch :: rest ∧ isWordChar ch = true

section

variable (hclasses : ∀ d ∈ c.entities, ∀ name, c.className d = .ok name → Inline name)

include hclasses

/-- The recursion is that of `dartType`. -/
theorem inline_typeText {t : TypeDescriptor} (h : PlainType t) {text : String}
    (htext : (c.dartType t).text c = .ok text) : Inline text := by
  induction h generalizing text with
  | @mk kind name element _ indexType _ _ _ hname helement hindex ihelement ihindex =>
    rw [dartType.eq_def] at htext
    dsimp only at htext
    split at htext
    · cases htext
      decide
    · split at htext
      · cases htext
        decide
      · split at htext
        · cases htext
          decide
        · next item =>
          simp only [DartType.text] at htext
          cases hitem : (c.dartType item).text c with
          | error error =>
            rw [hitem] at htext
            cases htext
          | ok text =>
            rw [hitem] at htext
            cases htext
            have hinline := ihelement item rfl hitem
            simp only [listOf, inline_append, hinline]
            decide
        · cases htext
          decide
        · next i => exact ihindex i rfl htext
        · cases hfind : c.find? name with
          | none =>
            rw [hfind] at htext
            cases htext
            decide
          | some d =>
            rw [hfind] at htext
            exact hclasses d (leads_of_find? hfind).mem text htext
        · cases htext
          decide
        · cases htext
          cases hknown : primitiveTypes.lookup name with
          | none => exact hname rfl
          | some known =>
            have hall : ∀ p ∈ primitiveTypes, Inline p.2 := by decide
            obtain ⟨before, after, hsplit, -⟩ := List.lookup_eq_some_iff.mp hknown
            exact hall (name, known) (hsplit ▸ by simp)

theorem inline_fromJson {name : String} (hname : Inline name) {t : TypeDescriptor}
    (ht : PlainType t) {text : String} (h : (c.conversion t).fromJson c name = .ok text) :
    Inline text := by
  have hvalue := inline_jsonField hname
  unfold conversion at h
  split at h
  · cases h
    simp only [inline_append, hvalue]
    decide
  · split at h
    · cases hrelated : c.related t.element with
      | some d =>
        rw [hrelated] at h
        obtain ⟨cls, hcls, rfl⟩ := exists_of_mapped_eq_ok h
        have hcls := hclasses d (leads_of_related hrelated).mem cls hcls
        simp only [jsonList, inline_append, hvalue, hcls]
        decide
      | none =>
        rw [hrelated] at h
        dsimp only at h
        split at h
        · cases h
          simp only [jsonList, inline_append, hvalue]
          decide
        · obtain ⟨item, hitem, rfl⟩ := exists_of_mapped_eq_ok h
          have hitem : Inline item := by
            cases ht with
            | @mk _ _ element _ _ _ _ _ _ helement _ =>
              cases element with
              | none =>
                cases hitem
                decide
              | some e => exact inline_typeText hclasses (helement e rfl) hitem
          simp only [jsonList, inline_append, hvalue, hitem]
          decide
    · cases hrelated : c.related (some t) with
      | some d =>
        rw [hrelated] at h
        obtain ⟨cls, hcls, rfl⟩ := exists_of_mapped_eq_ok h
        have hcls := hclasses d (leads_of_related hrelated).mem cls hcls
        simp only [inline_append, hvalue, hcls]
        decide
      | none =>
        rw [hrelated] at h
        cases h
        exact hvalue

/-- A field whose name and type are plain has inline texts. -/
theorem inline_formText {f : Field} (hname : Inline f.name) (htype : PlainType f.type)
    {text : FieldText} (h : c.formText f = .ok text) :
    Inline text.name ∧ Inline text.type ∧ Inline text.toJson ∧ Inline text.fromJson := by
  obtain ⟨type, htypeText, h⟩ := exists_of_bind_eq_ok h
  obtain ⟨fromJson, hfromJson, h⟩ := exists_of_bind_eq_ok h
  cases h
  exact ⟨hname, inline_typeText hclasses htype htypeText, inline_toJson hname _,
    inline_fromJson hclasses hname htype hfromJson⟩

end

/-! ## Plain models -/

section

variable {s : ModelSettings} {fs : FileSystem} {e : ModelEntity}

/-- What the settings and the entities of a run put into the model of `e` stays within its lines. -/
structure Plain (c : Catalog) (s : ModelSettings) (fs : FileSystem) (e : ModelEntity) : Prop where
  base : Inline s.baseClass.text
  identity : Inline s.idField.text
  headers : ∀ headers, s.headerItems = .ok headers → ∀ line ∈ headers, Inline line.text
  fields : ∀ f ∈ e.fields, Inline f.name ∧ PlainType f.type
  classes : ∀ d ∈ c.entities, ∀ name, c.className d = .ok name → NamesClass name
  imports : ∀ configured, configuredTargets s = .ok configured →
    ∀ t ∈ configured ++ c.fieldTargets e ++ (e.fields.flatMap c.usedBy).map (·.target),
      t ≠ e.target → Inline (importWay fs e t)

theorem mem_foldl_keepFirst_imp {line : Json} {lines kept : List Json}
    (h : line ∈ lines.foldl keepFirst kept) : line ∈ kept ∨ line ∈ lines := by
  induction lines generalizing kept with
  | nil => exact Or.inl h
  | cons first lines ih =>
    rw [List.mem_cons]
    rcases ih h with h | h
    · unfold keepFirst at h
      split at h
      · exact Or.inl h
      · exact (List.mem_cons.mp h).elim (fun h => Or.inr (Or.inl h)) Or.inl
    · exact Or.inr (Or.inr h)

theorem mem_of_mem_distinct {lines out : List Json} (h : distinct lines = .ok out) {line : Json}
    (hline : line ∈ out) : line ∈ lines := by
  rw [distinct_eq_ok h, List.mem_reverse] at hline
  exact (mem_foldl_keepFirst_imp hline).resolve_left (List.not_mem_nil)

/-- The lines before a plain model are inline. -/
theorem Plain.inline_headerLines (h : c.Plain s fs e) {lines : List Json}
    (hlines : c.headerLines s fs e (recordAll [] (e.fields.flatMap c.usedBy)) = .ok lines) :
    ∀ line ∈ lines, Inline line.text := by
  obtain ⟨headers, hheaders, hlines⟩ := exists_of_bind_eq_ok hlines
  obtain ⟨configured, hconfigured, hlines⟩ := exists_of_bind_eq_ok hlines
  obtain ⟨statements, hstatements, hlines⟩ := exists_of_bind_eq_ok hlines
  intro line hline
  rcases List.mem_append.mp (mem_of_mem_distinct hlines hline) with hline | hline
  · exact h.headers headers hheaders line hline
  · obtain ⟨statement, hstatement, rfl⟩ := List.mem_map.mp hline
    obtain ⟨t, ht, htext⟩ := (mem_of_mapM_eq_ok hstatements).mp hstatement
    obtain ⟨ht, hother⟩ := List.mem_filter.mp ht
    have htarget : t ∈ configured ++ c.fieldTargets e ++
        (e.fields.flatMap c.usedBy).map (·.target) := by
      refine (List.mem_append.mp ht).elim (List.mem_append_left _) fun ht => ?_
      obtain ⟨d, hd, rfl⟩ := List.mem_map.mp ht
      exact List.mem_append_right _ (List.mem_map_of_mem (mem_of_mem_recordAll hd))
    have hway := h.imports configured hconfigured t htarget (bne_iff_ne.mp hother)
    unfold importStatement at htext
    split at htext
    · cases htext
    · cases htext
      show Inline ("import '" ++ importWay fs e t ++ "';")
      simp only [inline_append, hway]
      decide

/-- The class of a plain model is made of inline texts. -/
theorem Plain.classText (h : c.Plain s fs e) (he : e ∈ c.entities) {met met' : List ModelEntity}
    {body : ClassText} (hbody : (c.bodyText s e).exec met = (.ok body, met')) : body.Plain := by
  obtain ⟨htexts, hname, hbase, hid, -⟩ := bodyText_eq_ok hbody
  refine ⟨(h.classes e he body.name hname).inline, hbase ▸ h.base, hid ▸ h.identity, fun x hx => ?_⟩
  obtain ⟨f, hf, hx⟩ := (mem_of_mapM_eq_ok htexts).mp hx
  obtain ⟨hname, htype⟩ := h.fields f hf
  exact inline_formText (fun d hd name hd' => (h.classes d hd name hd').inline) hname htype hx

theorem Plain.validate_emit (h : c.Plain s fs e) (he : e ∈ c.entities) {text : String}
    {met : List ModelEntity} (hemit : (c.emit s fs e).exec [] = (.ok text, met)) :
    Dart.validate text = .ok () := by
  obtain ⟨body, lines, hbody, hlines, rfl⟩ := emit_eq_ok hemit
  obtain ⟨-, hname, -, -, rfl⟩ := bodyText_eq_ok hbody
  obtain ⟨ch, rest, hstart, hch⟩ := (h.classes e he body.name hname).starts
  exact validate_fileText s (h.inline_headerLines hlines) (h.classText he hbody) hstart hch

/-- Whatever models were rendered, each entity has no record yet or its settled one. -/
theorem settled_emitCalls (calls : List (Fin c.entities.length)) :
    Records.Settled s fs (c.emitCalls s fs calls (Records.fresh c)).2 := by
  intro i
  rw [emitCalls_of_settled settled_fresh]
  dsimp only
  split
  · exact Or.inr rfl
  · exact Or.inl rfl

/-- Whatever models were rendered before, a plain model passes its check, so it is written as if it
was not checked. -/
theorem emit_valid {i : Fin c.entities.length} (h : c.Plain s fs (c.entities.get i))
    (calls : List (Fin c.entities.length)) {text : String}
    (hemit : (c.emitCall s fs (c.emitCalls s fs calls (Records.fresh c)).2 i).1 = .ok text) :
    Dart.validate text = .ok () ∧ ∀ refuse (tree : FileSystem),
      (AtomicWrite.writeUnder refuse (c.entities.get i).target text true).exec tree =
        (AtomicWrite.replaceFile refuse (c.entities.get i).target text).exec tree := by
  rw [emitCall_of_settled (settled_emitCalls calls)] at hemit
  have hvalid := h.validate_emit (List.get_mem c.entities i) (Prod.ext hemit rfl)
  exact ⟨hvalid, fun refuse tree => AtomicWrite.writeUnder_of_valid fun _ => hvalid⟩

end

/-! ## A plain model -/

theorem plain_post : blog.Plain blogSettings ⟨[], []⟩ post := by
  have hheaders : blogSettings.headerItems = .ok [.str "import 'i.dart';"] := by cbv
  have hconfigured : configuredTargets blogSettings = .ok ["/m/i.dart"] := by cbv
  have hpost : blog.className post = .ok "A" := by cbv
  have hauthor : blog.className author = .ok "B" := by cbv
  have htargets : ["/m/i.dart"] ++ blog.fieldTargets post ++
      (post.fields.flatMap blog.usedBy).map (·.target) =
        ["/m/i.dart", "/m/x/b.dart", "/m/x/b.dart", "/m/x/b.dart"] := by
    cbv
  have hfirst : importWay ⟨[], []⟩ post "/m/i.dart" = "i.dart" := by cbv
  have hsecond : importWay ⟨[], []⟩ post "/m/x/b.dart" = "x/b.dart" := by cbv
  refine ⟨by decide, by decide, fun headers h => ?_, fun f hf => ?_, fun d hd name h => ?_,
    fun configured h => ?_⟩
  · cases hheaders.symm.trans h
    exact List.forall_mem_singleton.mpr (by decide)
  · cases List.mem_singleton.mp hf
    exact ⟨by decide, plainType_reference _ _ _ _⟩
  · rcases List.mem_cons.mp hd with rfl | hd
    · cases hpost.symm.trans h
      exact ⟨by decide, 'A', [], rfl, by decide⟩
    · cases List.mem_singleton.mp hd
      cases hauthor.symm.trans h
      exact ⟨by decide, 'B', [], rfl, by decide⟩
  · cases hconfigured.symm.trans h
    have hways : ∀ t ∈ ["/m/i.dart", "/m/x/b.dart", "/m/x/b.dart", "/m/x/b.dart"],
        Inline (importWay ⟨[], []⟩ post t) := by
      simp only [List.forall_mem_cons, hfirst, hsecond]
      decide
    rw [htargets]
    exact fun t ht _ => hways t ht

/-- The place of `post` in `blog`. -/
def postPlace : Fin blog.entities.length := ⟨0, by decide⟩

/-- The model of an entity that was rendered before, with a header line and an import. -/
theorem emit_valid_post :
    ∃ text, (blog.emitCall blogSettings ⟨[], []⟩
        (blog.emitCalls blogSettings ⟨[], []⟩ [postPlace] (Records.fresh blog)).2 postPlace).1 =
          .ok text ∧
      Dart.validate text = .ok () := by
  obtain ⟨text, hemit⟩ := emit_post
  have hagain : (blog.emitCall blogSettings ⟨[], []⟩
      (blog.emitCalls blogSettings ⟨[], []⟩ [postPlace] (Records.fresh blog)).2 postPlace).1 =
        .ok text := by
    rw [emitCall_of_settled (settled_emitCalls [postPlace])]
    exact congrArg Prod.fst hemit
  exact ⟨text, hagain, (emit_valid plain_post [postPlace] hagain).1⟩

end Catalog

end DartModels
