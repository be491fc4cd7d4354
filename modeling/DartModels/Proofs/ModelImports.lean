import Mathlib
import DartModels.Proofs.ModelForm
import DartModels.Proofs.RelativePath

/-!
# The imports of a model

A model imports the files that the settings name, the files of the entities that declare the types
of its fields, and the files of the entities that its text uses, but never itself.  If all these
files are settled, different files have different import statements, so no file is lost or imported
twice although it is statements that are compared.

    importText fs e a = importText fs e b → a = b                                  (importText_inj)
    distinct (headers ++ statements) = distinct headers, then the new statements  (distinct_append)
    recording an entity once changes no first place of a target                (eraseDups_recordAll)
    a written model = the lines of `Imports`, then the class
-/

namespace DartModels

/-! ## First places -/

section

variable {α β : Type} [BEq α] [LawfulBEq α] [BEq β] [LawfulBEq β]

theorem eraseDups_concat (l : List α) (a : α) :
    (l ++ [a]).eraseDups = if l.contains a then l.eraseDups else l.eraseDups ++ [a] := by
  rw [List.eraseDups_append, List.removeAll, List.filter_cons, List.filter_nil,
    List.elem_eq_contains]
  cases l.contains a <;> simp [List.eraseDups_cons]

theorem nodup_eraseDups (l : List α) : l.eraseDups.Nodup := by
  induction l using List.reverseRecOn with
  | nil => simp
  | append_singleton l a ih =>
    rw [eraseDups_concat]
    split
    · exact ih
    · next h =>
      refine List.nodup_append.mpr ⟨ih, by simp, fun b hb c hc e => h ?_⟩
      rw [List.mem_singleton] at hc
      rw [← hc, ← e]
      exact List.contains_iff_mem.mpr (List.mem_eraseDups.mp hb)

theorem eraseDups_concat_congr {l l' : List α} (h : l.eraseDups = l'.eraseDups) (a : α) :
    (l ++ [a]).eraseDups = (l' ++ [a]).eraseDups := by
  have hmem : l.contains a = l'.contains a := by
    rw [Bool.eq_iff_iff, List.contains_iff_mem, List.contains_iff_mem, ← List.mem_eraseDups, h,
      List.mem_eraseDups]
  rw [eraseDups_concat, eraseDups_concat, hmem, h]

theorem eraseDups_map {f : α → β} {l : List α} (h : ∀ a ∈ l, ∀ b ∈ l, f a = f b → a = b) :
    (l.map f).eraseDups = l.eraseDups.map f := by
  induction l using List.reverseRecOn with
  | nil => rfl
  | append_singleton l a ih =>
    have hl : ∀ b ∈ l, b ∈ l ++ [a] := fun b hb => List.mem_append_left _ hb
    have hmem : (l.map f).contains (f a) = l.contains a := by
      rw [Bool.eq_iff_iff, List.contains_iff_mem, List.contains_iff_mem]
      constructor
      · intro hm
        obtain ⟨b, hb, e⟩ := List.mem_map.mp hm
        rwa [← h b (hl b hb) a (by simp) e]
      · exact List.mem_map_of_mem
    rw [List.map_append, List.map_singleton, eraseDups_concat, eraseDups_concat, hmem,
      ih fun b hb d hd => h b (hl b hb) d (hl d hd)]
    split
    · rfl
    · rw [List.map_append, List.map_singleton]

end

/-! ## Lines without repetitions -/

namespace Dart

theorem same_str {v : Json} {s : String} : v.same (.str s) = true ↔ v = .str s := by
  cases v <;> simp [Json.same, Json.toInt?, Option.isSome_iff_ne_none]

/-- The lines that stay when one more is added to the front. -/
def keepFirst (kept : List Json) (line : Json) : List Json :=
  if kept.any fun k => k.same line then kept else line :: kept

theorem mem_keepFirst {kept : List Json} {line : Json} {s : String} :
    .str s ∈ keepFirst kept line ↔ .str s ∈ kept ∨ .str s = line := by
  unfold keepFirst
  split
  · next h =>
    refine ⟨Or.inl, fun hs => hs.elim id fun hs => ?_⟩
    obtain ⟨k, hk, hsame⟩ := List.any_eq_true.mp h
    rw [← hs, same_str] at hsame
    rwa [← hsame]
  · rw [List.mem_cons]
    exact or_comm

theorem mem_foldl_keepFirst {lines kept : List Json} {s : String} :
    .str s ∈ lines.foldl keepFirst kept ↔ .str s ∈ kept ∨ .str s ∈ lines := by
  induction lines generalizing kept with
  | nil => simp
  | cons line lines ih => rw [List.foldl_cons, ih, mem_keepFirst, List.mem_cons, or_assoc]

theorem foldlM_addLine {lines kept out : List Json} (h : lines.foldlM addLine kept = .ok out) :
    out = lines.foldl keepFirst kept := by
  induction lines generalizing kept with
  | nil =>
    cases h
    rfl
  | cons line lines ih =>
    rw [List.foldlM_cons] at h
    rw [List.foldl_cons]
    cases line with
    | arr items => cases h
    | obj members => cases h
    | null => exact ih h
    | str s => exact ih h
    | bool b => exact ih h
    | int n => exact ih h
    | fraction x => exact ih h

/-- Statements after other lines: those that are new, each at its first place. -/
theorem foldl_keepFirst_statements (headers : List Json) (statements : List String) :
    (statements.map Json.str).foldl keepFirst (headers.foldl keepFirst []) =
      ((statements.eraseDups.filter fun s => !(headers.any fun l => l.same (.str s))).map
        Json.str).reverse ++ headers.foldl keepFirst [] := by
  induction statements using List.reverseRecOn with
  | nil => rfl
  | append_singleton statements s ih =>
    have hany (lines : List Json) : (lines.any fun l => l.same (.str s)) = true ↔
        .str s ∈ lines := by
      rw [List.any_eq_true]
      exact ⟨fun ⟨k, hk, h⟩ => same_str.mp h ▸ hk, fun h => ⟨_, h, same_str.mpr rfl⟩⟩
    have hkept : ((statements.map Json.str).foldl keepFirst (headers.foldl keepFirst [])).any
        (fun l => l.same (.str s)) = (headers.any (fun l => l.same (.str s)) ||
          statements.contains s) := by
      rw [Bool.eq_iff_iff, hany, mem_foldl_keepFirst, mem_foldl_keepFirst, Bool.or_eq_true, hany,
        List.contains_iff_mem]
      simp
    rw [List.map_append, List.foldl_append, List.map_singleton, List.foldl_cons, List.foldl_nil,
      keepFirst, hkept, ih, eraseDups_concat]
    cases hs : statements.contains s with
    | true => rw [Bool.or_true, if_pos rfl, if_pos rfl]
    | false =>
      rw [Bool.or_false, if_neg Bool.false_ne_true, List.filter_append]
      cases hh : headers.any fun l => l.same (.str s) with
      | true => rw [if_pos rfl, List.filter_cons_of_neg (by simp only [hh]; decide), List.filter_nil,
          List.append_nil]
      | false =>
        rw [if_neg Bool.false_ne_true, List.filter_cons_of_pos (by simp only [hh]; decide),
          List.filter_nil, List.map_append, List.reverse_append]
        rfl

theorem distinct_append {headers lines : List Json} {statements : List String}
    (h : distinct (headers ++ statements.map .str) = .ok lines) :
    ∃ kept, distinct headers = .ok kept ∧
      lines = kept ++ (statements.eraseDups.filter fun s =>
        !(headers.any fun l => l.same (.str s))).map .str := by
  unfold distinct at h ⊢
  rw [List.foldlM_append] at h
  cases hheaders : headers.foldlM addLine [] with
  | error e =>
    rw [hheaders] at h
    cases h
  | ok kept =>
    rw [hheaders] at h
    refine ⟨kept.reverse, rfl, ?_⟩
    cases hall : (statements.map Json.str).foldlM addLine kept with
    | error e =>
      simp only [bind, Except.bind, hall] at h
      cases h
    | ok all =>
      simp only [bind, Except.bind, hall] at h
      cases h
      rw [foldlM_addLine hall, foldlM_addLine hheaders, foldl_keepFirst_statements,
        List.reverse_append, List.reverse_reverse]

theorem distinct_eq_ok {lines out : List Json} (h : distinct lines = .ok out) :
    out = (lines.foldl keepFirst []).reverse := by
  unfold distinct at h
  cases hkept : lines.foldlM addLine [] with
  | error e =>
    rw [hkept] at h
    cases h
  | ok kept =>
    rw [hkept] at h
    cases h
    rw [foldlM_addLine hkept]

/-- No statement stays twice. -/
theorem countP_foldl_keepFirst {s : String} (lines : List Json) {kept : List Json}
    (h : kept.countP (fun l => l.same (.str s)) ≤ 1) :
    (lines.foldl keepFirst kept).countP (fun l => l.same (.str s)) ≤ 1 := by
  induction lines generalizing kept with
  | nil => exact h
  | cons line lines ih =>
    refine ih ?_
    unfold keepFirst
    split
    · exact h
    · next hnew =>
      cases hline : line.same (.str s) with
      | false => rwa [List.countP_cons_of_neg (by simp [hline])]
      | true =>
        rw [same_str.mp hline] at hnew
        have hzero : kept.countP (fun l => l.same (.str s)) = 0 :=
          List.countP_eq_zero.mpr fun l hl hsame => hnew (List.any_eq_true.mpr ⟨l, hl, hsame⟩)
        have hcons := List.countP_cons_of_pos (p := fun l : Json => l.same (.str s)) (l := kept) hline
        omega

/-- A statement among lines stays exactly once. -/
theorem countP_distinct {lines out : List Json} {s : String} (h : distinct lines = .ok out)
    (hs : .str s ∈ lines) : out.countP (fun l => l.same (.str s)) = 1 := by
  rw [distinct_eq_ok h, List.countP_reverse]
  have hnone : ([] : List Json).countP (fun l => l.same (.str s)) ≤ 1 := Nat.zero_le 1
  have hle := countP_foldl_keepFirst lines hnone
  have hpos : 0 < (lines.foldl keepFirst []).countP fun l => l.same (.str s) :=
    List.countP_pos_iff.mpr ⟨_, mem_foldl_keepFirst.mpr (Or.inr hs), same_str.mpr rfl⟩
  omega

/-! ## Import statements -/

/-- The path that the import of a file is written with. -/
def importWay (fs : FileSystem) (e : ModelEntity) (target : String) : String :=
  Path.tidy (fs.relative target (Path.dirname e.target))

/-- The import of a file. -/
def importText (fs : FileSystem) (e : ModelEntity) (target : String) : String :=
  "import '" ++ importWay fs e target ++ "';"

variable {fs : FileSystem} {e : ModelEntity}

theorem importStatement_of_settled {target : String} (h : Path.Settled target) :
    importStatement fs e target = .ok (importText fs e target) := by
  have hne : target.isEmpty = false := by
    rw [Bool.eq_false_iff]
    intro hempty
    rw [String.isEmpty_iff] at hempty
    have hroot := h.1
    rw [hempty] at hroot
    cases hroot
  unfold importStatement
  rw [hne]
  rfl

/-- An import leads from the directory of the model to the file that it is for. -/
theorem normalize_importWay (he : Path.Settled e.target) {target : String}
    (h : Path.Settled target) :
    Path.normalize (Path.join (Path.dirname e.target) (importWay fs e target)) = target :=
  Path.normalize_join_relative fs.workdirPath (Path.settled_dirname he) h

theorem importText_inj (he : Path.Settled e.target) {a b : String} (ha : Path.Settled a)
    (hb : Path.Settled b) (h : importText fs e a = importText fs e b) : a = b := by
  have hway : importWay fs e a = importWay fs e b := by
    unfold importText at h
    have hchars := congrArg String.toList h
    simp only [String.toList_append, List.append_cancel_right_eq, List.append_cancel_left_eq] at hchars
    exact String.toList_inj.mp hchars
  rw [← normalize_importWay he ha, hway, normalize_importWay he hb]

theorem mapM_importStatement {targets : List String} (h : ∀ t ∈ targets, Path.Settled t) :
    targets.mapM (importStatement fs e) = .ok (targets.map (importText fs e)) := by
  induction targets with
  | nil => rfl
  | cons t targets ih =>
    rw [List.mapM_cons, importStatement_of_settled (h t List.mem_cons_self),
      ih fun b hb => h b (List.mem_cons_of_mem _ hb)]
    rfl

/-- The files that the settings import, resolved against the output directory. -/
def configured (out : String) (imports : List String) : List String :=
  imports.map fun i => Path.normalize (Path.join out i)

theorem configuredTargets_eq {s : ModelSettings} {out : String} {imports : List String}
    (hout : s.out = .str out) (himports : s.importItems = .ok (imports.map .str)) :
    configuredTargets s = .ok (configured out imports) := by
  unfold configuredTargets configured
  rw [himports, hout]
  show (imports.map Json.str).mapM _ = _
  clear himports
  induction imports with
  | nil => rfl
  | cons i imports ih =>
    rw [List.map_cons, List.mapM_cons, ih]
    rfl

end Dart

namespace Catalog

open Dart

variable {c : Catalog}

/-! ## Recorded entities -/

/-- The first entity of the run with its name. -/
def Leads (c : Catalog) (e : ModelEntity) : Prop := c.find? e.name = some e

theorem leads_of_find? {name : String} {e : ModelEntity} (h : c.find? name = some e) :
    c.Leads e := by
  have hname := List.find?_some h
  rw [beq_iff_eq] at hname
  rw [Leads, hname, h]

theorem leads_of_related {t : Option TypeDescriptor} {e : ModelEntity}
    (h : c.related t = some e) : c.Leads e := by
  unfold related at h
  split at h
  · exact leads_of_find? h
  · cases h

theorem leads_of_mem_dartType (t : TypeDescriptor) {e : ModelEntity}
    (h : e ∈ (c.dartType t).entities) : c.Leads e := by
  match t with
  | .mk kind name element objectType indexType arguments importFile relativePath =>
    rw [dartType.eq_def] at h
    dsimp only at h
    split at h
    · cases h
    · split at h
      · cases h
      · split at h
        · cases h
        · exact leads_of_mem_dartType _ h
        · cases h
        · exact leads_of_mem_dartType _ h
        · cases hf : c.find? name with
          | none =>
            rw [hf] at h
            cases h
          | some d =>
            rw [hf] at h
            rw [List.mem_singleton.mp h]
            exact leads_of_find? hf
        · cases h
        · cases h
termination_by sizeOf t

theorem leads_of_mem_conversion {t : TypeDescriptor} {e : ModelEntity}
    (h : e ∈ (c.conversion t).written ∨ e ∈ (c.conversion t).read) : c.Leads e := by
  unfold conversion at h
  split at h
  · rcases h with h | h <;> cases h
  · split at h
    · cases hr : c.related t.element with
      | some d =>
        rw [hr] at h
        have he : e = d := h.elim List.mem_singleton.mp List.mem_singleton.mp
        rw [he]
        exact leads_of_related hr
      | none =>
        rw [hr] at h
        dsimp only at h
        split at h
        · rcases h with h | h <;> cases h
        · rcases h with h | h
          · cases h
          · cases ht : t.element with
            | none =>
              rw [ht] at h
              cases h
            | some item =>
              rw [ht] at h
              exact leads_of_mem_dartType _ h
    · cases hr : c.related (some t) with
      | some d =>
        rw [hr] at h
        have he : e = d := h.elim List.mem_singleton.mp List.mem_singleton.mp
        rw [he]
        exact leads_of_related hr
      | none =>
        rw [hr] at h
        rcases h with h | h <;> cases h

theorem leads_of_mem_usedBy {f : Field} {e : ModelEntity} (h : e ∈ c.usedBy f) : c.Leads e := by
  unfold usedBy at h
  rw [List.append_assoc, List.mem_append, List.mem_append] at h
  rcases h with h | h
  · exact leads_of_mem_dartType _ h
  · exact leads_of_mem_conversion h

theorem Leads.mem {e : ModelEntity} (h : c.Leads e) : e ∈ c.entities := List.mem_of_find?_eq_some h

theorem Leads.eq {d e : ModelEntity} (hd : c.Leads d) (he : c.Leads e) (h : d.name = e.name) :
    d = e := by
  unfold Leads at hd he
  rw [h, he] at hd
  exact (Option.some.inj hd).symm

theorem recordAll_concat (met es : List ModelEntity) (e : ModelEntity) :
    recordAll met (es ++ [e]) = record e (recordAll met es) := by
  rw [recordAll_append]
  rfl

theorem mem_of_mem_recordAll {es : List ModelEntity} {e : ModelEntity} (h : e ∈ recordAll [] es) :
    e ∈ es := by
  induction es using List.reverseRecOn with
  | nil => exact h
  | append_singleton es d ih =>
    rw [recordAll_concat] at h
    unfold record at h
    split at h
    · exact List.mem_append_left _ (ih h)
    · rcases List.mem_append.mp h with h | h
      · exact List.mem_append_left _ (ih h)
      · exact List.mem_append_right _ h

/-- Recording an entity once instead of each time it is met changes no first place of a target. -/
theorem eraseDups_recordAll (keep : String → Bool) (before : List String) {es : List ModelEntity}
    (h : ∀ e ∈ es, c.Leads e) :
    ((before ++ (recordAll [] es).map (·.target)).filter keep).eraseDups =
      ((before ++ es.map (·.target)).filter keep).eraseDups := by
  induction es using List.reverseRecOn with
  | nil => rfl
  | append_singleton es e ih =>
    have ih := ih fun d hd => h d (List.mem_append_left _ hd)
    have hconcat (ds : List ModelEntity) : (before ++ (ds ++ [e]).map (·.target)).filter keep =
        (before ++ ds.map (·.target)).filter keep ++ if keep e.target then [e.target] else [] := by
      rw [List.map_append, ← List.append_assoc, List.filter_append, List.map_singleton,
        List.filter_cons, List.filter_nil]
    rw [recordAll_concat, hconcat]
    unfold record
    by_cases hmet : (recordAll [] es).any (fun m => m.name == e.name) = true
    · obtain ⟨m, hm, hname⟩ := List.any_eq_true.mp hmet
      have hmem := mem_of_mem_recordAll hm
      have hme : m = e := (h m (List.mem_append_left _ hmem)).eq (h e (by simp)) (beq_iff_eq.mp hname)
      rw [if_pos hmet, ih]
      split
      · next hk =>
        have htarget : e.target ∈ (before ++ es.map (·.target)).filter keep :=
          List.mem_filter.mpr ⟨List.mem_append_right _ (List.mem_map.mpr ⟨m, hmem, by rw [hme]⟩), hk⟩
        rw [eraseDups_concat, if_pos (List.contains_iff_mem.mpr htarget)]
      · rw [List.append_nil]
    · rw [if_neg hmet, hconcat]
      split
      · exact eraseDups_concat_congr ih e.target
      · rw [List.append_nil, List.append_nil, ih]

/-! ## The file of a model -/

/-- What the lines before the model of `e` import: `targets`, each by one statement that leads to
it, after the header lines and in the order in which the targets are first asked for. -/
structure Imports (c : Catalog) (fs : FileSystem) (e : ModelEntity) (configured : List String)
    (headers lines : List Json) (targets : List String) : Prop where
  wanted : ∀ t, t ∈ targets ↔ t ≠ e.target ∧
    (t ∈ configured ∨ t ∈ c.fieldTargets e ∨ ∃ f ∈ e.fields, ∃ d ∈ c.usedBy f, d.target = t)
  ordered : targets = ((configured ++ c.fieldTargets e ++
    (e.fields.flatMap c.usedBy).map (·.target)).filter (· != e.target)).eraseDups
  leads : ∀ t ∈ targets, importStatement fs e t = .ok (importText fs e t) ∧
    Path.normalize (Path.join (Path.dirname e.target) (importWay fs e t)) = t
  apart : (targets.map (importText fs e)).Nodup
  once : ∀ t ∈ targets, lines.countP (fun l => l.same (.str (importText fs e t))) = 1
  /-- A statement that is a header line already stands only there. -/
  placed : ∃ kept, distinct headers = .ok kept ∧
    lines = kept ++ ((targets.map (importText fs e)).filter fun s =>
      !(headers.any fun l => l.same (.str s))).map .str

/-- What is found is declared in the file. -/
theorem mem_of_findByPath? {path : String} {name : Option String} {d : ModelEntity}
    (h : c.findByPath? path name = some d) :
    d ∈ c.entities ∧ Path.normalize d.path = Path.normalize path := by
  have hcandidate : d ∈ c.entities.filter fun e => Path.normalize e.path == Path.normalize path := by
    unfold findByPath? at h
    dsimp only at h
    split at h
    · next hfind =>
      cases h
      exact List.mem_of_find?_eq_some hfind
    · exact List.mem_of_head? h
  obtain ⟨hmem, hfile⟩ := List.mem_filter.mp hcandidate
  exact ⟨hmem, beq_iff_eq.mp hfile⟩

theorem mem_fieldTargets {e : ModelEntity} {t : String} (h : t ∈ c.fieldTargets e) :
    ∃ d ∈ c.entities, d.target = t := by
  unfold fieldTargets at h
  obtain ⟨f, -, hf⟩ := List.mem_filterMap.mp h
  split at hf
  · split at hf
    · cases hf
    · next path _ _ =>
      cases hd : c.findByPath? path (some f.type.name) with
      | none =>
        rw [hd] at hf
        cases hf
      | some d =>
        rw [hd] at hf
        exact ⟨d, (mem_of_findByPath? hd).1, Option.some.inj hf⟩
  · cases hf

section

variable {s : ModelSettings} {fs : FileSystem} {e : ModelEntity} {out : String}
  {imports : List String}

theorem settled_configured (hout : Path.Settled out)
    (himports : ∀ i ∈ imports, ¬['/', '/'] <+: i.toList) :
    ∀ t ∈ configured out imports, Path.Settled t := by
  intro t ht
  obtain ⟨i, hi, rfl⟩ := List.mem_map.mp ht
  refine Path.settled_normalize_join hout fun htwo => himports i hi ?_
  unfold Path.rootSlashes at htwo
  split at htwo
  · cases htwo
  · next h =>
    rw [h]
    exact ⟨_, rfl⟩
  · cases htwo
  · cases htwo

theorem settled_wanted (hentities : ∀ d ∈ c.entities, Path.Settled d.target)
    (hconfigured : ∀ t ∈ configured out imports, Path.Settled t) {es : List ModelEntity}
    (hes : ∀ d ∈ es, c.Leads d) :
    ∀ t ∈ (configured out imports ++ c.fieldTargets e ++ es.map (·.target)).filter
      (· != e.target), Path.Settled t := by
  intro t ht
  have ht := (List.mem_filter.mp ht).1
  rw [List.append_assoc, List.mem_append, List.mem_append] at ht
  rcases ht with ht | ht | ht
  · exact hconfigured t ht
  · obtain ⟨d, hd, rfl⟩ := mem_fieldTargets ht
    exact hentities d hd
  · obtain ⟨d, hd, rfl⟩ := List.mem_map.mp ht
    exact hentities d (hes d hd).mem

theorem headerLines_eq {met : List ModelEntity} {headers : List Json}
    {targets statements : List String} (hheaders : s.headerItems = .ok headers)
    (htargets : configuredTargets s = .ok targets)
    (hstatements : ((targets ++ c.fieldTargets e ++ met.map (·.target)).filter
      (· != e.target)).mapM (importStatement fs e) = .ok statements) :
    c.headerLines s fs e met = distinct (headers ++ statements.map .str) := by
  unfold headerLines
  rw [hheaders, htargets]
  show (((targets ++ c.fieldTargets e ++ met.map (·.target)).filter (· != e.target)).mapM
    (importStatement fs e)).bind _ = _
  rw [hstatements]
  rfl

/-- What is imported: what is configured, the fields' own files and what their types name, without the
file itself. -/
theorem mem_wanted_iff {t : String} :
    t ∈ ((configured out imports ++ c.fieldTargets e ++
        (e.fields.flatMap c.usedBy).map (·.target)).filter (· != e.target)).eraseDups ↔
      t ≠ e.target ∧ (t ∈ configured out imports ∨ t ∈ c.fieldTargets e ∨
        ∃ f ∈ e.fields, ∃ d ∈ c.usedBy f, d.target = t) := by
  have hused : (∃ d ∈ e.fields.flatMap c.usedBy, d.target = t) ↔
      ∃ f ∈ e.fields, ∃ d ∈ c.usedBy f, d.target = t := by
    simp only [List.mem_flatMap]
    exact ⟨fun ⟨d, ⟨f, hf, hd⟩, e⟩ => ⟨f, hf, d, hd, e⟩,
      fun ⟨f, hf, d, hd, e⟩ => ⟨d, ⟨f, hf, hd⟩, e⟩⟩
  rw [List.mem_eraseDups, List.mem_filter, List.append_assoc, List.mem_append,
    List.mem_append, List.mem_map, bne_iff_ne, and_comm, hused]

theorem imports_of_headerLines (hentities : ∀ d ∈ c.entities, Path.Settled d.target)
    (he : Path.Settled e.target) (hout : s.out = .str out) (hsettled : Path.Settled out)
    (himports : s.importItems = .ok (imports.map .str))
    (hslashes : ∀ i ∈ imports, ¬['/', '/'] <+: i.toList) {lines : List Json}
    (h : c.headerLines s fs e (recordAll [] (e.fields.flatMap c.usedBy)) = .ok lines) :
    ∃ headers targets, s.headerItems = .ok headers ∧
      Imports c fs e (configured out imports) headers lines targets := by
  have hconfigured := settled_configured hsettled hslashes
  have hleads : ∀ d ∈ e.fields.flatMap c.usedBy, c.Leads d := fun d hd => by
    obtain ⟨f, -, hd⟩ := List.mem_flatMap.mp hd
    exact leads_of_mem_usedBy hd
  have hsame := eraseDups_recordAll (· != e.target) (configured out imports ++ c.fieldTargets e) hleads
  have hasked := settled_wanted (e := e) hentities hconfigured fun d hd =>
    hleads d (mem_of_mem_recordAll hd)
  have hwanted := settled_wanted (e := e) hentities hconfigured hleads
  generalize hmet : recordAll [] (e.fields.flatMap c.usedBy) = met at h hsame hasked
  generalize htargets : ((configured out imports ++ c.fieldTargets e ++
    (e.fields.flatMap c.usedBy).map (·.target)).filter (· != e.target)).eraseDups = targets at hsame
  have hall : ∀ t ∈ targets, Path.Settled t := fun t ht =>
    hwanted t (List.mem_eraseDups.mp (htargets ▸ ht))
  cases hheaders : s.headerItems with
  | error fault =>
    unfold headerLines at h
    rw [hheaders] at h
    cases h
  | ok headers =>
    rw [headerLines_eq hheaders (configuredTargets_eq hout himports)
      (mapM_importStatement hasked)] at h
    have hstatements : ((configured out imports ++ c.fieldTargets e ++ met.map (·.target)).filter
        (· != e.target) |>.map (importText fs e)).eraseDups = targets.map (importText fs e) := by
      rw [eraseDups_map fun a ha b hb => importText_inj he (hasked a ha) (hasked b hb), hsame]
    obtain ⟨kept, hkept, hlines⟩ := distinct_append h
    rw [hstatements] at hlines
    refine ⟨headers, targets, rfl, fun t => htargets ▸ mem_wanted_iff, htargets.symm,
      fun t ht => ?_, ?_, fun t ht => ?_, kept, hkept, hlines⟩
    · exact ⟨importStatement_of_settled (hall t ht), normalize_importWay he (hall t ht)⟩
    · rw [← hstatements]
      exact nodup_eraseDups _
    · refine countP_distinct h (List.mem_append_right _ ?_)
      refine List.mem_map_of_mem (List.mem_eraseDups.mp ?_)
      rw [hstatements]
      exact List.mem_map_of_mem ht

/-- The file of a model: the lines before its class, if there are any, and the class. -/
def fileText (s : ModelSettings) (lines : List Json) (body : ClassText) : String :=
  let header := headerText s.addGenerationComment.truthy lines
  if header.isEmpty then classText body else header ++ "\n" ++ classText body

theorem emit_eq_ok {text : String} {met met' : List ModelEntity}
    (h : (c.emit s fs e).exec met = (.ok text, met')) :
    ∃ body lines, (c.bodyText s e).exec met = (.ok body, met') ∧
      c.headerLines s fs e met' = .ok lines ∧ text = fileText s lines body := by
  unfold emit at h
  rw [Rendering.exec_bind] at h
  rcases hbody : (c.bodyText s e).exec met with ⟨fault | body, met₁⟩
  · rw [hbody] at h
    cases h
  · rw [hbody] at h
    dsimp only at h
    rw [Rendering.exec_bind] at h
    change (liftM (c.headerLines s fs e met₁) >>= _ : Rendering String).exec met₁ = _ at h
    rw [Rendering.exec_bind, Rendering.exec_lift] at h
    cases hlines : c.headerLines s fs e met₁ with
    | error fault =>
      rw [hlines] at h
      cases h
    | ok lines =>
      rw [hlines] at h
      cases h
      exact ⟨body, lines, rfl, hlines, rfl⟩

theorem emit_of_ok {met met' : List ModelEntity} {body : ClassText} {lines : List Json}
    (hbody : (c.bodyText s e).exec met = (.ok body, met'))
    (hlines : c.headerLines s fs e met' = .ok lines) :
    (c.emit s fs e).exec met = (.ok (fileText s lines body), met') := by
  unfold emit
  rw [Rendering.exec_bind, hbody]
  dsimp only
  rw [Rendering.exec_bind]
  show (liftM (c.headerLines s fs e met') >>= _ : Rendering String).exec met' = _
  rw [Rendering.exec_bind, Rendering.exec_lift, hlines]
  rfl

/-- A model that is written imports what its settings, the origins of its fields and its own text
ask for, and nothing else. -/
theorem emit_imports (hentities : ∀ d ∈ c.entities, Path.Settled d.target) (he : e ∈ c.entities)
    (hout : s.out = .str out) (hsettled : Path.Settled out)
    (himports : s.importItems = .ok (imports.map .str))
    (hslashes : ∀ i ∈ imports, ¬['/', '/'] <+: i.toList) {text : String} {met : List ModelEntity}
    (h : (c.emit s fs e).exec [] = (.ok text, met)) :
    ∃ body headers lines targets, text = fileText s lines body ∧
      c.className e = .ok body.name ∧ e.fields.mapM c.formText = .ok body.fields ∧
      s.headerItems = .ok headers ∧
      Imports c fs e (configured out imports) headers lines targets := by
  obtain ⟨body, lines, hbody, hlines, htext⟩ := emit_eq_ok h
  obtain ⟨hfields, hname, -, -, rfl⟩ := bodyText_eq_ok hbody
  obtain ⟨headers, targets, hheaders, himported⟩ :=
    imports_of_headerLines hentities (hentities e he) hout hsettled himports hslashes hlines
  exact ⟨body, headers, lines, targets, htext, hname, hfields, hheaders, himported⟩

end

/-! ## A model with two imports -/

/-- An entity without fields. -/
def author : ModelEntity := ⟨"author.ts", "B", [], "/m/x/b.dart"⟩

/-- An entity that refers to `author`. -/
def post : ModelEntity :=
  ⟨"post.ts", "A", [⟨"b", .reference "B" [] none none, "A"⟩], "/m/a.dart"⟩

/-- Both entities. -/
def blog : Catalog := ⟨[post, author], .casing .pascal⟩

/-- Settings with one import, which is a header line as well. -/
def blogSettings : ModelSettings :=
  { ModelSettings.default with
    out := .str "/m"
    imports := some (.arr [.str "i.dart"])
    headers := some (.arr [.str "import 'i.dart';"]) }

theorem bodyText_post : (blog.bodyText blogSettings post).exec [] =
    (.ok ⟨"A", "Model", .str "id", [⟨"b", "B", "b?.toJson()", "B.fromJson(json['b'])"⟩]⟩,
      [author]) := by
  cbv

theorem headerLines_post : blog.headerLines blogSettings ⟨[], []⟩ post [author] =
    .ok [.str "import 'i.dart';", .str "import 'x/b.dart';"] := by
  have hheaders : blogSettings.headerItems = .ok [.str "import 'i.dart';"] := by cbv
  have hconfigured : configuredTargets blogSettings = .ok ["/m/i.dart"] := by cbv
  have hfirst : importStatement ⟨[], []⟩ post "/m/i.dart" = .ok "import 'i.dart';" := by cbv
  have hsecond : importStatement ⟨[], []⟩ post "/m/x/b.dart" = .ok "import 'x/b.dart';" := by cbv
  have hwanted : (["/m/i.dart"] ++ blog.fieldTargets post ++ [author].map (·.target)).filter
      (· != post.target) = ["/m/i.dart", "/m/x/b.dart"] := by cbv
  have hstatements : ["/m/i.dart", "/m/x/b.dart"].mapM (importStatement ⟨[], []⟩ post) =
      .ok ["import 'i.dart';", "import 'x/b.dart';"] := by
    rw [List.mapM_cons, hfirst, List.mapM_cons, hsecond]
    rfl
  rw [headerLines_eq hheaders hconfigured (by rw [hwanted, hstatements])]
  rfl

theorem settled_blog : ∀ d ∈ blog.entities, Path.Settled d.target := by
  have hpost : Path.Settled "/m/a.dart" := ⟨by decide, by decide⟩
  have hauthor : Path.Settled "/m/x/b.dart" := ⟨by decide, by decide⟩
  intro d hd
  rcases List.mem_cons.mp hd with rfl | hd
  · exact hpost
  · rw [List.mem_singleton.mp hd]
    exact hauthor

theorem emit_post : ∃ text, (blog.emit blogSettings ⟨[], []⟩ post).exec [] = (.ok text, [author]) := by
  exact ⟨_, emit_of_ok bodyText_post headerLines_post⟩

/-- The configured import stands as the header line that it equals, before the one of `author`. -/
theorem emit_imports_post :
    ∃ text body headers lines targets,
      (blog.emit blogSettings ⟨[], []⟩ post).exec [] = (.ok text, [author]) ∧
      text = fileText blogSettings lines body ∧ blogSettings.headerItems = .ok headers ∧
      Imports blog ⟨[], []⟩ post (configured "/m" ["i.dart"]) headers lines targets ∧
      targets = ["/m/i.dart", "/m/x/b.dart"] := by
  obtain ⟨text, hemit⟩ := emit_post
  have hout : Path.Settled "/m" := ⟨by decide, by decide⟩
  have hlisted : blogSettings.importItems = .ok (["i.dart"].map .str) := rfl
  obtain ⟨body, headers, lines, targets, htext, -, -, hheaders, himports⟩ :=
    emit_imports settled_blog List.mem_cons_self rfl hout hlisted (by decide) hemit
  refine ⟨text, body, headers, lines, targets, hemit, htext, hheaders, himports, ?_⟩
  refine himports.ordered.trans ?_
  cbv

end Catalog

end DartModels
