/-!
# Placeholders

A placeholder is a text without braces between an opening and a closing brace.  All else, braces
that enclose no placeholder too, is literal.

* `Placeholder.split`: the pieces of a template, from left to right.
* `Placeholder.expand`: the template with a text in the place of each placeholder.
* `Placeholder.written_split`: the pieces put together are the template.
-/

namespace DartModels

namespace Placeholder

/-- A piece of a template. -/
inductive Piece where
  | literal (c : Char)
  | field (path : List Char)
  deriving DecidableEq, Inhabited

/-- Whether a character is a brace. -/
def isBrace (c : Char) : Bool := c == '{' || c == '}'

/-- The placeholder whose opening brace was just read: its path, if it is one. -/
def fieldAt (cs : List Char) : Option (List Char) :=
  let path := cs.takeWhile fun c => !isBrace c
  if !path.isEmpty && (cs.drop path.length).head? == some '}' then some path else none

/-- The pieces of a template. -/
def split : List Char → List Piece
  | [] => []
  | c :: cs =>
    match if c = '{' then fieldAt cs else none with
    | some path => .field path :: split (cs.drop (path.length + 1))
    | none => .literal c :: split cs
termination_by cs => cs.length
decreasing_by all_goals simp_wf; try omega

/-- A piece as it is written. -/
def Piece.written : Piece → List Char
  | .literal c => [c]
  | .field path => '{' :: path ++ ['}']

/-- A piece with a text in the place of a placeholder. -/
def Piece.expand (value : List Char → List Char) : Piece → List Char
  | .literal c => [c]
  | .field path => value path

/-- A template with a text in the place of each placeholder. -/
def expand (value : List Char → List Char) (cs : List Char) : List Char :=
  (split cs).flatMap (Piece.expand value)

theorem written_fieldAt {cs path : List Char} (h : fieldAt cs = some path) :
    path ++ '}' :: cs.drop (path.length + 1) = cs := by
  simp only [fieldAt, Option.ite_none_right_eq_some, Bool.and_eq_true, Bool.not_eq_true',
    beq_iff_eq, Option.some.injEq] at h
  obtain ⟨⟨_, hd⟩, hp⟩ := h
  rw [hp] at hd
  have hpre : path <+: cs := hp ▸ List.takeWhile_prefix _
  obtain ⟨rest, rfl⟩ := hpre
  rw [List.drop_left] at hd
  cases rest with
  | nil => simp at hd
  | cons d rest =>
    simp only [List.head?_cons, Option.some.injEq] at hd
    subst hd
    simp

theorem written_split (cs : List Char) : (split cs).flatMap Piece.written = cs := by
  fun_induction split cs with
  | case1 => rfl
  | case2 c cs path h ih =>
    split at h
    · next hc =>
      subst hc
      simp [Piece.written, ih, written_fieldAt h]
    · simp at h
  | case3 c cs _ ih => simp [Piece.written, ih]

end Placeholder

end DartModels
