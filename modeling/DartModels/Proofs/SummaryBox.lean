import DartModels.CommandLine.Summary
import Mathlib.Data.Nat.Digits.Defs

/-!
# The box of a summary

The lines of a summary are filled up to one width, and a text that is longer than the width pushes
the right border out.  With models the width leaves room for each line.  Without models it goes by the
source directory and the ending alone, and the line that says so may be longer.

    a line is as long as its text or as the width, with two borders                   (length_line)
    there are models → each line is as long as the width, with two borders         (length_listing)
    the lines are equally long ↔ there are models, or the directory or the ending has 39 characters
                                                                                   (box_aligned_iff)
-/

namespace DartModels

namespace CommandLine

namespace Summary

variable {rows : List SummaryRow} {cwd ext : String}

/-! ## Lines -/

/-- Lines whose right borders stand below each other. -/
def Aligned (box : List String) : Prop := ∀ l ∈ box, ∀ m ∈ box, l.length = m.length

theorem aligned_iff_lengths {box : List String} :
    Aligned box ↔ ∀ n ∈ box.map String.length, ∀ m ∈ box.map String.length, n = m := by
  unfold Aligned
  simp only [List.forall_mem_map]

theorem aligned_of_forall {box : List String} {n : Nat} (h : ∀ l ∈ box, l.length = n) :
    Aligned box := by
  intro l hl m hm
  rw [h l hl, h m hm]

theorem length_line (left right fill : Char) (text : String) (width : Nat) :
    (line left right text fill width).length = max text.length width + 2 := by
  unfold line padded
  rw [String.length_append, String.length_singleton, String.length_push, String.length_pushn]
  omega

/-- A line has its right border in place if its text fits. -/
theorem length_line_of_fits {left right fill : Char} {text : String} {width : Nat}
    (h : text.length ≤ width) : (line left right text fill width).length = width + 2 := by
  rw [length_line, max_eq_right h]

theorem length_rule (left right : Char) (width : Nat) : (rule left right width).length = width + 2 :=
  length_line_of_fits (Nat.zero_le _)

/-! ## Texts -/

theorem length_row (r : SummaryRow) :
    s!" » {r.name} ({r.target})".length = r.name.length + r.target.length + 6 := by
  have hstart : " » ".length = 3 := rfl
  have hopen : " (".length = 2 := rfl
  have hclose : ")".length = 1 := rfl
  show (" » " ++ r.name ++ " (" ++ r.target ++ ")").length = _
  rw [String.length_append, String.length_append, String.length_append, String.length_append,
    hstart, hopen, hclose]
  omega

/-- The number of models has room for eleven digits. -/
theorem length_count {n : Nat} (h : n < 10 ^ 11) : s!" Generated {n} models:".length ≤ 30 := by
  have hdigits : n.repr.length ≤ 11 := Nat.repr_length n 11 (by decide) h
  have hstart : " Generated ".length = 11 := rfl
  have hend : " models:".length = 8 := rfl
  show (" Generated " ++ n.repr ++ " models:").length ≤ 30
  rw [String.length_append, String.length_append, hstart, hend]
  omega

theorem length_nothing :
    " No entities found, check parser \"cwd\" and \"ext\".".length = 49 := by decide

/-! ## Widths -/

theorem le_foldl_max {sizes : List Nat} {least n : Nat} (h : n ≤ least ∨ n ∈ sizes) :
    n ≤ sizes.foldl max least := by
  induction sizes generalizing least with
  | nil => exact h.resolve_right List.not_mem_nil
  | cons s sizes ih =>
    rw [List.foldl_cons]
    apply ih
    rcases h with h | h
    · exact Or.inl (Nat.le_trans h (Nat.le_max_left least s))
    · rcases List.mem_cons.mp h with rfl | h
      · exact Or.inl (Nat.le_max_right least n)
      · exact Or.inr h

theorem leastRow_le_width (rows : List SummaryRow) : leastRow + margin ≤ width rows :=
  Nat.add_le_add_right (le_foldl_max (Or.inl (Nat.le_refl leastRow))) margin

theorem row_le_width {r : SummaryRow} (h : r ∈ rows) :
    r.name.length + r.target.length + margin ≤ width rows := by
  have hmem : r.name.length + r.target.length ∈
      rows.map fun r => r.name.length + r.target.length := List.mem_map.mpr ⟨r, h, rfl⟩
  exact Nat.add_le_add_right (le_foldl_max (Or.inr hmem)) margin

/-! ## Boxes -/

/-- The box that lists models has each line in its width. -/
theorem length_listing (h : rows.length < 10 ^ 11) :
    ∀ l ∈ listing rows (width rows), l.length = width rows + 2 := by
  have hcount : s!" Generated {rows.length} models:".length ≤ width rows :=
    Nat.le_trans (length_count h) (leastRow_le_width rows)
  intro l hl
  unfold listing at hl
  simp only [List.mem_append, List.mem_cons, List.mem_map, List.not_mem_nil, or_false] at hl
  rcases hl with ((rfl | rfl | rfl) | ⟨r, hr, rfl⟩) | rfl
  · exact length_rule _ _ _
  · exact length_line_of_fits hcount
  · exact length_rule _ _ _
  · have hrow : s!" » {r.name} ({r.target})".length ≤ width rows := by
      have hwidth := row_le_width hr
      rw [length_row]
      unfold margin at hwidth
      omega
    exact length_line_of_fits hrow
  · exact length_rule _ _ _

/-- The box of a run that found nothing has each line in its width but the one that says so. -/
theorem length_nothingFound {w : Nat} (hcwd : cwd.length + margin ≤ w)
    (hext : ext.length + margin ≤ w) :
    (nothingFound (.str cwd) (.str ext) w).map String.length =
      [w + 2, max 49 w + 2, w + 2, w + 2, w + 2] := by
  have hcwd : s!" » cwd: {cwd}".length ≤ w := by
    have hhead : " » cwd: ".length = 8 := rfl
    show (" » cwd: " ++ cwd).length ≤ w
    unfold margin at hcwd
    rw [String.length_append, hhead]
    omega
  have hext : s!" » ext: {ext}".length ≤ w := by
    have hhead : " » ext: ".length = 8 := rfl
    show (" » ext: " ++ ext).length ≤ w
    unfold margin at hext
    rw [String.length_append, hhead]
    omega
  unfold nothingFound
  simp only [List.map_cons, List.map_nil]
  rw [length_rule, length_rule, length_line, length_nothing]
  rw [show (Json.str cwd).text = cwd from rfl, show (Json.str ext).text = ext from rfl,
    length_line_of_fits hcwd, length_line_of_fits hext]

theorem aligned_nothingFound_iff :
    Aligned (nothingFound (.str cwd) (.str ext) (max cwd.length ext.length + margin)) ↔
      39 ≤ max cwd.length ext.length := by
  have hcwd := Nat.add_le_add_right (Nat.le_max_left cwd.length ext.length) margin
  have hext := Nat.add_le_add_right (Nat.le_max_right cwd.length ext.length) margin
  rw [aligned_iff_lengths, length_nothingFound hcwd hext]
  unfold margin
  constructor
  · intro h
    have hsecond := h _ List.mem_cons_self _ (List.mem_cons_of_mem _ List.mem_cons_self)
    omega
  · intro h
    have hwide : 49 ≤ max cwd.length ext.length + 10 := by omega
    rw [max_eq_right hwide]
    simp

/-- The lines of a box are equally long exactly if there are models, or the source directory or the
ending has at least 39 characters.  With models each text fits; without, each but the second one. -/
theorem box_aligned_iff (rows : List SummaryRow) (hrows : rows.length < 10 ^ 11)
    (cwd ext : String) :
    ∃ box, lines rows (.str cwd) (.str ext) = .ok box ∧
      (Aligned box ↔ rows ≠ [] ∨ 39 ≤ max cwd.length ext.length) ∧
      (rows ≠ [] → ∀ l ∈ box, l.length = width rows + 2) ∧
      (rows = [] → ∃ w, w = max cwd.length ext.length + margin ∧
        box.map String.length = [w + 2, max 49 w + 2, w + 2, w + 2, w + 2]) := by
  by_cases hnone : rows = []
  · have hcwd := Nat.add_le_add_right (Nat.le_max_left cwd.length ext.length) margin
    have hext := Nat.add_le_add_right (Nat.le_max_right cwd.length ext.length) margin
    refine ⟨_, by rw [hnone]; rfl, ?_, fun h => absurd hnone h, fun _ => ⟨_, rfl, ?_⟩⟩
    · rw [or_iff_right (not_not_intro hnone)]
      exact aligned_nothingFound_iff
    · exact length_nothingFound hcwd hext
  · have hlengths := length_listing hrows
    refine ⟨listing rows (width rows), ?_, ?_, fun _ => hlengths, fun h => absurd h hnone⟩
    · unfold lines
      rw [if_neg]
      simpa using hnone
    · exact iff_of_true (aligned_of_forall hlengths) (Or.inl hnone)

/-- The box of one model is in order. -/
theorem box_aligned_post : [SummaryRow.mk "Post" "m/post.dart"].length < 10 ^ 11 ∧
    ∃ box, lines [⟨"Post", "m/post.dart"⟩] (.str "/s") (.str ".ts") = .ok box ∧ Aligned box ∧
      ∀ l ∈ box, l.length = 32 := by
  have hcount : [SummaryRow.mk "Post" "m/post.dart"].length < 10 ^ 11 := by decide
  obtain ⟨box, hbox, haligned, hlengths, -⟩ := box_aligned_iff _ hcount "/s" ".ts"
  have hsome : [SummaryRow.mk "Post" "m/post.dart"] ≠ [] := List.cons_ne_nil _ _
  exact ⟨hcount, box, hbox, haligned.mpr (Or.inl hsome), hlengths hsome⟩

/-- A run that found nothing in a directory of a short name has a line that sticks out. -/
theorem box_uneven : ∃ box, lines [] (.str "/tmp/dm/s") (.str ".ts") = .ok box ∧
    box.map String.length = [21, 51, 21, 21, 21] ∧ ¬ Aligned box := by
  have hlengths := @length_nothingFound "/tmp/dm/s" ".ts" 19 (by decide) (by decide)
  refine ⟨_, rfl, hlengths, ?_⟩
  have haligned := @aligned_nothingFound_iff "/tmp/dm/s" ".ts"
  exact fun h => absurd (haligned.mp h) (by decide)

end Summary

end CommandLine

end DartModels
