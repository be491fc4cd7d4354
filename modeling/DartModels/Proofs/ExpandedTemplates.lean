import Mathlib.Data.List.Basic
import Mathlib.Data.List.TakeWhile
import Mathlib.Logic.ExistsUnique
import DartModels.Proofs.DottedPaths

/-!
# Templates of aliases

A template is read piece by piece from the left.  As a whole it is a text, and placeholders each
with a text after it, where no placeholder stands in any of the texts; and there is only one way to
see it so.  The target of an alias has the values of its placeholders between these texts, as they
are.

    the template of proper segments has no other segments                         (segments_written)
    every template has proper segments                           (proper_segments, written_segments)
    expand value (written s) = filled value s, if s is proper                       (expand_written)
    each alias is expanded by itself, by the segments of its template             (ofJson_expansion)
-/

namespace DartModels

namespace Placeholder

/-! ## Segments -/

/-- A text without braces, and not empty. -/
structure IsPath (path : List Char) : Prop where
  ne_nil : path ≠ []
  braceless : ∀ c ∈ path, isBrace c = false

/-- A text in which no braces enclose a path. -/
def Literal (text : List Char) : Prop :=
  ∀ before path after, IsPath path → text ≠ before ++ '{' :: (path ++ '}' :: after)

/-- A text, and paths each with a text after it. -/
structure Segments where
  first : List Char
  more : List (List Char × List Char)

namespace Segments

/-- The template that has these segments. -/
def written (s : Segments) : List Char :=
  s.first ++ s.more.flatMap fun e => '{' :: (e.1 ++ '}' :: e.2)

/-- The texts with a value in the place of each path. -/
def filled (value : List Char → List Char) (s : Segments) : List Char :=
  s.first ++ s.more.flatMap fun e => value e.1 ++ e.2

/-- The paths are paths, and no placeholder stands in the texts. -/
structure Proper (s : Segments) : Prop where
  first : Literal s.first
  paths : ∀ e ∈ s.more, IsPath e.1
  texts : ∀ e ∈ s.more, Literal e.2

/-- A text in front of the first one. -/
def prepend (text : List Char) (s : Segments) : Segments := ⟨text ++ s.first, s.more⟩

/-- A path in front, with no text before it. -/
def prependPath (path : List Char) (s : Segments) : Segments := ⟨[], (path, s.first) :: s.more⟩

/-- The segments of a row of pieces. -/
def ofPieces : List Piece → Segments
  | [] => ⟨[], []⟩
  | .literal c :: pieces => (ofPieces pieces).prepend [c]
  | .field path :: pieces => (ofPieces pieces).prependPath path

end Segments

/-- The segments of a template. -/
def segments (template : List Char) : Segments := Segments.ofPieces (split template)

/-! ## Where a placeholder stands -/

variable {path cs rest : List Char}

/-- A placeholder stands behind an opening brace exactly if a path and a closing brace follow. -/
theorem fieldAt_eq_some_iff :
    fieldAt cs = some path ↔ IsPath path ∧ ∃ rest, cs = path ++ '}' :: rest := by
  constructor
  · intro h
    refine ⟨?_, _, (written_fieldAt h).symm⟩
    rw [fieldAt, Option.ite_none_right_eq_some, Bool.and_eq_true, Bool.not_eq_true'] at h
    obtain ⟨⟨hne, -⟩, hpath⟩ := h
    obtain rfl := Option.some.inj hpath
    refine ⟨fun hnil => ?_, fun c hc => ?_⟩
    · rw [hnil] at hne
      cases hne
    · simpa using List.mem_takeWhile_imp hc
  · rintro ⟨hpath, rest, rfl⟩
    have htake : (path ++ '}' :: rest).takeWhile (fun c => !isBrace c) = path := by
      rw [List.takeWhile_append_of_pos fun c hc => by simp [hpath.braceless c hc]]
      exact List.append_nil path
    unfold fieldAt
    dsimp only
    rw [htake, List.drop_left, List.isEmpty_eq_false_iff.mpr hpath.ne_nil]
    rfl

theorem drop_path (path rest : List Char) :
    (path ++ '}' :: rest).drop (path.length + 1) = rest := by
  rw [← List.drop_drop, List.drop_left]
  rfl

theorem split_field (hpath : IsPath path) (rest : List Char) :
    split ('{' :: (path ++ '}' :: rest)) = .field path :: split rest := by
  have hfield : fieldAt (path ++ '}' :: rest) = some path :=
    fieldAt_eq_some_iff.mpr ⟨hpath, rest, rfl⟩
  rw [split, if_pos rfl, hfield]
  dsimp only
  rw [drop_path]

theorem split_literal {c : Char} (h : c = '{' → fieldAt cs = none) :
    split (c :: cs) = .literal c :: split cs := by
  have hnone : (if c = '{' then fieldAt cs else none) = none := by
    split
    · next hc => exact h hc
    · rfl
  rw [split, hnone]

/-- Whether a text is empty or starts with an opening brace. -/
def Opens (rest : List Char) : Prop := rest = [] ∨ ∃ after, rest = '{' :: after

theorem Literal.tail {c : Char} (h : Literal (c :: cs)) : Literal cs := by
  rintro before path after hpath rfl
  exact h (c :: before) path after hpath rfl

/-- No placeholder starts in a literal text before an opening brace. -/
theorem Literal.fieldAt_eq_none (h : Literal ('{' :: cs)) (hrest : Opens rest) :
    fieldAt (cs ++ rest) = none := by
  rw [Option.eq_none_iff_forall_ne_some]
  intro path hsome
  obtain ⟨hpath, after, hsplit⟩ := fieldAt_eq_some_iff.mp hsome
  rcases List.append_eq_append_iff.mp hsplit with ⟨inside, rfl, htail⟩ | ⟨inside, rfl, htail⟩
  · -- the path would hold the opening brace after the text
    rcases hrest with rfl | ⟨opened, rfl⟩
    · cases inside <;> cases htail
    · cases inside with
      | nil => cases htail
      | cons b inside =>
        obtain ⟨rfl, -⟩ := List.cons.inj htail
        have hbrace := hpath.braceless '{' (List.mem_append_right _ List.mem_cons_self)
        cases hbrace
  · -- the closing brace would stand in the text, or the text after it would start with one
    cases inside with
    | nil =>
      rcases hrest with rfl | ⟨opened, rfl⟩ <;> cases htail
    | cons b inside =>
      obtain ⟨rfl, -⟩ := List.cons.inj htail
      exact h [] path inside hpath rfl

/-! ## The segments of a template -/

/-- A literal text before an opening brace is read character by character. -/
theorem segments_append {text : List Char} (h : Literal text) (hrest : Opens rest) :
    segments (text ++ rest) = (segments rest).prepend text := by
  induction text with
  | nil => rfl
  | cons c text ih =>
    have hnone : c = '{' → fieldAt (text ++ rest) = none := by
      rintro rfl
      exact h.fieldAt_eq_none hrest
    have hsplit : segments (c :: text ++ rest) = (segments (text ++ rest)).prepend [c] := by
      rw [segments, List.cons_append, split_literal hnone]
      rfl
    rw [hsplit, ih h.tail]
    rfl

theorem opens_flatMap (more : List (List Char × List Char)) :
    Opens (more.flatMap fun e => '{' :: (e.1 ++ '}' :: e.2)) := by
  cases more with
  | nil => exact Or.inl rfl
  | cons e more => exact Or.inr ⟨_, rfl⟩

/-- The template of proper segments has these segments. -/
theorem segments_written {s : Segments} (h : s.Proper) : segments s.written = s := by
  obtain ⟨first, more⟩ := s
  have hmore : segments (more.flatMap fun e => '{' :: (e.1 ++ '}' :: e.2)) = ⟨[], more⟩ := by
    have hpaths := h.paths
    have htexts := h.texts
    clear h
    induction more with
    | nil => rw [segments, List.flatMap_nil, split]; rfl
    | cons e more ih =>
      obtain ⟨hpath, hpaths⟩ := List.forall_mem_cons.mp hpaths
      obtain ⟨htext, htexts⟩ := List.forall_mem_cons.mp htexts
      rw [List.flatMap_cons, List.cons_append, List.append_assoc, List.cons_append, segments,
        split_field hpath]
      show (segments (e.2 ++ _)).prependPath e.1 = _
      rw [segments_append htext (opens_flatMap more), ih hpaths htexts]
      simp [Segments.prepend, Segments.prependPath]
  rw [Segments.written, segments_append h.first (opens_flatMap more), hmore]
  simp [Segments.prepend]

theorem written_ofPieces (pieces : List Piece) :
    (Segments.ofPieces pieces).written = pieces.flatMap Piece.written := by
  induction pieces with
  | nil => rfl
  | cons piece pieces ih =>
    rw [List.flatMap_cons, ← ih]
    cases piece <;>
      simp [Segments.ofPieces, Segments.prepend, Segments.prependPath, Segments.written,
        Piece.written]

/-- Filling the segments of a template is expanding it. -/
theorem filled_segments (value : List Char → List Char) (template : List Char) :
    (segments template).filled value = expand value template := by
  rw [segments, expand]
  induction split template with
  | nil => rfl
  | cons piece pieces ih =>
    rw [List.flatMap_cons, ← ih]
    cases piece <;>
      simp [Segments.ofPieces, Segments.prepend, Segments.prependPath, Segments.filled,
        Piece.expand]

theorem written_segments (template : List Char) : (segments template).written = template :=
  (written_ofPieces _).trans (written_split template)

theorem literal_nil : Literal [] := by
  intro before path after _ h
  cases before <;> cases h

theorem proper_prependPath {s : Segments} (hs : s.Proper) (hpath : IsPath path) :
    (s.prependPath path).Proper where
  first := literal_nil
  paths := List.forall_mem_cons.mpr ⟨hpath, hs.paths⟩
  texts := List.forall_mem_cons.mpr ⟨hs.first, hs.texts⟩

/-- A character that opens no placeholder makes the first text longer. -/
theorem proper_prepend {s : Segments} (hs : s.Proper) {c : Char}
    (h : c = '{' → fieldAt s.written = none) : (s.prepend [c]).Proper := by
  refine ⟨?_, hs.paths, hs.texts⟩
  intro before path after hpath hsplit
  cases before with
  | nil =>
    obtain ⟨hc, hfirst⟩ := List.cons.inj hsplit
    change s.first = path ++ '}' :: after at hfirst
    have hfield : fieldAt s.written = some path := by
      rw [Segments.written, hfirst, List.append_assoc]
      exact fieldAt_eq_some_iff.mpr ⟨hpath, _, rfl⟩
    rw [h hc] at hfield
    cases hfield
  | cons d before => exact hs.first before path after hpath (List.cons.inj hsplit).2

/-- The segments of a template are proper. -/
theorem proper_segments (template : List Char) : (segments template).Proper := by
  induction template using split.induct with
  | case1 =>
    rw [segments, split]
    exact ⟨literal_nil, List.forall_mem_nil _, List.forall_mem_nil _⟩
  | case2 c cs path hfield ih =>
    rw [dite_eq_ite, Option.ite_none_right_eq_some] at hfield
    obtain ⟨rfl, hfield⟩ := hfield
    obtain ⟨hpath, rest, rfl⟩ := fieldAt_eq_some_iff.mp hfield
    rw [drop_path] at ih
    rw [segments, split_field hpath]
    exact proper_prependPath ih hpath
  | case3 c cs hfield ih =>
    have hnone : c = '{' → fieldAt cs = none := by
      intro hc
      rwa [dif_pos hc] at hfield
    rw [segments, split_literal hnone]
    refine proper_prepend ih ?_
    show c = '{' → fieldAt (segments cs).written = none
    rw [written_segments]
    exact hnone

/-- There is only one way to take a template apart. -/
theorem existsUnique_segments (template : List Char) :
    ∃! s : Segments, s.Proper ∧ s.written = template := by
  refine ⟨segments template, ⟨proper_segments template, written_segments template⟩, ?_⟩
  rintro s ⟨hproper, rfl⟩
  exact (segments_written hproper).symm

/-- Whatever the values are, a template expands to the texts of its segments with a value in the
place of each path. -/
theorem expand_written (value : List Char → List Char) {s : Segments} (h : s.Proper) :
    expand value s.written = s.filled value := by
  rw [← filled_segments, segments_written h]

/-- A text too short for braces around a path. -/
theorem literal_of_length {text : List Char} (h : text.length < 3) : Literal text := by
  rintro before path after hpath rfl
  have hlength := List.length_pos_iff.mpr hpath.ne_nil
  simp only [List.length_append, List.length_cons] at h
  omega

end Placeholder

/-! ## Targets -/

/-- The text at a dotted path: none for nothing and for null, else that of the value. -/
theorem Context.textAt_cases (attributes : Attributes) (c : Context) (path : List Char) :
    ((c.get? attributes path = none ∨ c.get? attributes path = some (.value .null)) ∧
        c.textAt attributes path = []) ∨
      ∃ v, c.get? attributes path = some v ∧ v ≠ .value .null ∧
        c.textAt attributes path = v.text.toList := by
  unfold Context.textAt
  cases h : c.get? attributes path with
  | none => exact Or.inl ⟨Or.inl rfl, rfl⟩
  | some v =>
    by_cases hnull : v = .value .null
    · rw [hnull]
      exact Or.inl ⟨Or.inr rfl, rfl⟩
    · exact Or.inr ⟨v, rfl, hnull, rfl⟩

namespace Aliases

/-- The target that a template writes. -/
def expansion (attributes : Attributes) (context : Context) (template : String) : String :=
  String.ofList (Placeholder.expand (context.textAt attributes) template.toList)

/-- Each alias of a table is expanded by itself. -/
theorem ofJson_texts (attributes : Attributes) (context : Context)
    (templates : List (String × String)) :
    ofJson attributes (.obj (templates.map fun e => (e.1, .str e.2))) context =
      .ok ⟨templates.map fun e => (e.1, expansion attributes context e.2)⟩ := by
  have hentries : (templates.map fun e => (e.1, Json.str e.2)).mapM
      (fun (e : String × Json) => do return (e.1, ← target attributes context e.2)) =
      .ok (templates.map fun e => (e.1, expansion attributes context e.2)) := by
    induction templates with
    | nil => rfl
    | cons e templates ih =>
      rw [List.map_cons, List.mapM_cons, ih]
      rfl
  unfold ofJson Json.members
  rw [ok_bind]
  exact congrArg (· >>= fun entries => Except.ok (Aliases.mk entries)) hentries

/-- A table of templates gives each alias its own expansion: the template is taken apart in the only
way there is, and the text at each dotted path, empty for nothing and for null, stands between the
texts as it is.  A path is looked up part by part, in settings by what their section states. -/
theorem ofJson_expansion (attributes : Attributes) (context : Context) :
    (∀ templates : List (String × String),
      ofJson attributes (.obj (templates.map fun e => (e.1, .str e.2))) context =
        .ok ⟨templates.map fun e => (e.1, expansion attributes context e.2)⟩) ∧
      (∀ template : String,
        (∃! s : Placeholder.Segments, s.Proper ∧ s.written = template.toList) ∧
        ∀ s : Placeholder.Segments, s.Proper → s.written = template.toList →
          (expansion attributes context template).toList =
            s.filled (context.textAt attributes) ∧
          ∀ value, Placeholder.expand value template.toList = s.filled value) ∧
      Context.LooksUp attributes ∧
      ∀ path,
        ((context.get? attributes path = none ∨
            context.get? attributes path = some (.value .null)) ∧
          context.textAt attributes path = []) ∨
        ∃ v, context.get? attributes path = some v ∧ v ≠ .value .null ∧
          context.textAt attributes path = v.text.toList := by
  refine ⟨ofJson_texts attributes context, fun template => ⟨?_, ?_⟩,
    Context.looksUp attributes, context.textAt_cases attributes⟩
  · exact Placeholder.existsUnique_segments template.toList
  · intro s hproper hwritten
    rw [expansion, String.toList_ofList, ← hwritten]
    exact ⟨Placeholder.expand_written _ hproper,
      fun value => Placeholder.expand_written value hproper⟩

/-- The settings of a section that states a directory with braces in its name. -/
def braced : SourceSettings := { SourceSettings.default with cwd := .str "\x7bcwd\x7d" }

/-- A doubled brace, a value with braces of its own and a brace left open. -/
theorem ofJson_expansion_braces :
    SourceSettings.ofJson (.obj [("cwd", .str "\x7bcwd\x7d")]) = .ok braced ∧
      Context.held? braced "cwd" = some (.value (.str "\x7bcwd\x7d")) ∧
      ∃ s : Placeholder.Segments, s.Proper ∧ s.written = "\x7b\x7bcwd\x7d\x7d\x7b".toList ∧
        (expansion (fun _ _ => none) (.settings braced) "\x7b\x7bcwd\x7d\x7d\x7b").toList =
          "\x7b\x7bcwd\x7d\x7d\x7b".toList := by
  have hpath : Placeholder.IsPath ['c', 'w', 'd'] := ⟨by decide, by simp [Placeholder.isBrace]⟩
  have hproper : Placeholder.Segments.Proper ⟨['{'], [(['c', 'w', 'd'], ['}', '{'])]⟩ :=
    ⟨Placeholder.literal_of_length (by decide), List.forall_mem_singleton.mpr hpath,
      List.forall_mem_singleton.mpr (Placeholder.literal_of_length (by decide))⟩
  have hdistinct : (Json.obj [("cwd", .str "\x7bcwd\x7d")]).Distinct :=
    .obj (by decide) (List.forall_mem_singleton.mpr (.str _))
  obtain ⟨-, hexpansion, hlooksUp, -⟩ := ofJson_expansion (fun _ _ => none) (.settings braced)
  have hheld := hlooksUp.stated _ _ braced hdistinct (List.forall_mem_singleton.mpr (by decide)) rfl
    rfl "cwd"
  refine ⟨rfl, hheld, _, hproper, by decide, ?_⟩
  exact ((hexpansion _).2 _ hproper (by decide)).1.trans (by decide)

end Aliases

end DartModels
