import Mathlib
import DartModels.Text.Casing

/-!
# Where words end

The reader of words takes whole runs of capitals, small letters and digits, and gives a capital back
where a run of capitals meets a small letter.  Where one word ends and the next begins is a matter
of two neighbours and the character after them alone: cutting a text by that rule, from its end to
its start, gives the same words.

    words cs = cutWords cs                                                       (words_eq_cutWords)
    words, one after another, are the letters and digits of the text              (flatten_cutWords)
    neighbours fall into different words ↔ a word ends between them          (splitWords_boundaries)
-/

namespace DartModels

/-! ## Letters and digits -/

theorem toNat_lt_of_isAlphanum {ch : Char} (h : ch.isAlphanum = true) : ch.toNat < 128 := by
  simp only [Char.isAlphanum, Char.isAlpha, Char.isUpper, Char.isLower, Char.isDigit,
    Bool.or_eq_true, Bool.and_eq_true, decide_eq_true_eq, UInt32.le_iff_toNat_le, ge_iff_le] at h
  have hpoint : ch.toNat = ch.val.toNat := rfl
  have hcapital : 'Z'.val.toNat = 90 := rfl
  have hsmall : 'z'.val.toNat = 122 := rfl
  have hdigit : '9'.val.toNat = 57 := rfl
  omega

/-- What holds of the letters and digits below 128 holds of all letters and digits. -/
@[elab_as_elim]
theorem forall_isAlphanum {motive : Char → Prop} {ch : Char} (hch : ch.isAlphanum = true)
    (h : ∀ n < 128, (Char.ofNat n).isAlphanum = true → motive (Char.ofNat n)) : motive ch := by
  have hpoint := h ch.toNat (toNat_lt_of_isAlphanum hch)
  rw [Char.ofNat_toNat] at hpoint
  exact hpoint hch

/-- A letter or digit is a capital, a small letter or a digit, and only one of these. -/
theorem isUpper_or_isLower_or_isDigit {ch : Char} (h : ch.isAlphanum = true) :
    (ch.isUpper = true ∧ ch.isLower = false ∧ ch.isDigit = false) ∨
      (ch.isUpper = false ∧ ch.isLower = true ∧ ch.isDigit = false) ∨
      (ch.isUpper = false ∧ ch.isLower = false ∧ ch.isDigit = true) :=
  forall_isAlphanum h (by decide)

@[grind →]
theorem isUpper_class {ch : Char} (h : ch.isUpper = true) :
    ch.isAlphanum = true ∧ ch.isAlpha = true ∧ ch.isLower = false ∧ ch.isDigit = false := by
  have halphanum : ch.isAlphanum = true := by simp [Char.isAlphanum, Char.isAlpha, h]
  grind [isUpper_or_isLower_or_isDigit halphanum, Char.isAlpha]

@[grind →]
theorem isLower_class {ch : Char} (h : ch.isLower = true) :
    ch.isAlphanum = true ∧ ch.isAlpha = true ∧ ch.isUpper = false ∧ ch.isDigit = false := by
  have halphanum : ch.isAlphanum = true := by simp [Char.isAlphanum, Char.isAlpha, h]
  grind [isUpper_or_isLower_or_isDigit halphanum, Char.isAlpha]

@[grind →]
theorem isDigit_class {ch : Char} (h : ch.isDigit = true) :
    ch.isAlphanum = true ∧ ch.isAlpha = false ∧ ch.isUpper = false ∧ ch.isLower = false := by
  have halphanum : ch.isAlphanum = true := by simp [Char.isAlphanum, h]
  grind [isUpper_or_isLower_or_isDigit halphanum, Char.isAlpha]

/-! ## The rule for neighbours -/

/-- Whether a word ends between two letters or digits, by the character after both.  It does between
a letter and a digit, before a capital after a small letter, and before the last capital of several
if that starts a word of small letters. -/
def endsWord (a b : Char) (next : Option Char) : Bool :=
  a.isAlpha && b.isDigit || a.isDigit && b.isAlpha || a.isLower && b.isUpper ||
    a.isUpper && b.isUpper && next.any Char.isLower

theorem endsWord_digits {a b : Char} (ha : a.isDigit = true) (hb : b.isDigit = true)
    (next : Option Char) : endsWord a b next = false := by
  grind [endsWord]

theorem endsWord_small {a b : Char} (ha : a.isAlpha = true) (hb : b.isLower = true)
    (next : Option Char) : endsWord a b next = false := by
  have hdigit : a.isDigit = false := by grind [Char.isAlpha]
  grind [endsWord]

/-- Whether the word of a letter or digit goes on in the text after it. -/
def goesOn (c : Char) : List Char → Bool
  | [] => false
  | d :: after => d.isAlphanum && !endsWord c d after.head?

/-- A character in front of the first word. -/
def extendFirst (c : Char) : List (List Char) → List (List Char)
  | [] => [[c]]
  | w :: ws => (c :: w) :: ws

/-- The words of a text, cut by the rule for neighbours. -/
def cutWords : List Char → List (List Char)
  | [] => []
  | c :: rest =>
    if c.isAlphanum then
      if goesOn c rest then extendFirst c (cutWords rest) else [c] :: cutWords rest
    else cutWords rest

section

variable {c d : Char} {w rest : List Char}

theorem cutWords_separator (h : c.isAlphanum = false) : cutWords (c :: rest) = cutWords rest := by
  rw [cutWords, h, if_neg Bool.false_ne_true]

theorem cutWords_goesOn (hc : c.isAlphanum = true) (h : goesOn c rest = true) :
    cutWords (c :: rest) = extendFirst c (cutWords rest) := by
  rw [cutWords, if_pos hc, if_pos h]

theorem cutWords_ends (hc : c.isAlphanum = true) (h : goesOn c rest = false) :
    cutWords (c :: rest) = [c] :: cutWords rest := by
  rw [cutWords, if_pos hc, h, if_neg Bool.false_ne_true]

/-- The first word of a text starts with its first letter or digit. -/
theorem exists_cutWords (h : c.isAlphanum = true) (rest : List Char) :
    ∃ w ws, cutWords (c :: rest) = (c :: w) :: ws := by
  cases hrest : goesOn c rest with
  | true =>
    rw [cutWords_goesOn h hrest]
    cases cutWords rest with
    | nil => exact ⟨[], [], rfl⟩
    | cons w ws => exact ⟨w, ws, rfl⟩
  | false => exact ⟨[], cutWords rest, cutWords_ends h hrest⟩

/-- A word that goes on in a text has a word of that text to go on with. -/
theorem exists_cutWords_of_goesOn (h : goesOn c rest = true) : ∃ w ws, cutWords rest = w :: ws := by
  cases rest with
  | nil => cases h
  | cons d after =>
    rw [goesOn, Bool.and_eq_true] at h
    obtain ⟨w, ws, hcut⟩ := exists_cutWords h.1 after
    exact ⟨_, _, hcut⟩

/-! ## Connected pieces -/

/-- Letters and digits in front of some text none of which ends a word before the last one. -/
inductive Connected (rest : List Char) : List Char → Prop
  | single {c : Char} : c.isAlphanum = true → Connected rest [c]
  | cons {c d : Char} {w : List Char} : c.isAlphanum = true →
      goesOn c (d :: w ++ rest) = true → Connected rest (d :: w) → Connected rest (c :: d :: w)

/-- Whether the last word of a piece of text goes on in the text after it. -/
def runsInto (w rest : List Char) : Bool := w.getLast?.any (goesOn · rest)

/-- A connected piece that does not go on is a word. -/
theorem Connected.cutWords_append (h : Connected rest w) (hend : runsInto w rest = false) :
    cutWords (w ++ rest) = w :: cutWords rest := by
  induction h with
  | single hc => exact cutWords_ends hc hend
  | @cons c d w hc hon _ ih =>
    rw [runsInto, List.getLast?_cons_cons] at hend
    rw [List.cons_append, cutWords_goesOn hc hon, ih hend]
    rfl

/-- A connected piece that goes on is put in front of the word in which it does. -/
theorem Connected.cutWords_append_of_runsInto (h : Connected rest w)
    (hon : runsInto w rest = true) :
    ∃ v vs, cutWords rest = v :: vs ∧ cutWords (w ++ rest) = (w ++ v) :: vs := by
  induction h with
  | @single c hc =>
    obtain ⟨v, vs, hcut⟩ := exists_cutWords_of_goesOn hon
    refine ⟨v, vs, hcut, ?_⟩
    rw [List.cons_append, List.nil_append, cutWords_goesOn hc hon, hcut]
    rfl
  | @cons c d w hc hnext _ ih =>
    rw [runsInto, List.getLast?_cons_cons] at hon
    obtain ⟨v, vs, hcut, happend⟩ := ih hon
    refine ⟨v, vs, hcut, ?_⟩
    rw [List.cons_append, cutWords_goesOn hc hnext, happend]
    rfl

/-- Characters of one class are connected if no word ends between two of them, `following` being
what may stand after both. -/
theorem connected_run {p : Char → Bool} (following : Option Char → Prop) (hne : w ≠ [])
    (hw : ∀ c ∈ w, p c = true) (hp : ∀ c, p c = true → c.isAlphanum = true)
    (hinside : ∀ c, p c = true → following (some c)) (hrest : following rest.head?)
    (hjoin : ∀ c d next, p c = true → p d = true → following next → endsWord c d next = false) :
    Connected rest w := by
  induction w with
  | nil => contradiction
  | cons c w ih =>
    obtain ⟨hc, hw⟩ := List.forall_mem_cons.mp hw
    cases w with
    | nil => exact .single (hp c hc)
    | cons d w =>
      obtain ⟨hd, hmore⟩ := List.forall_mem_cons.mp hw
      have hnext : following (w ++ rest).head? := by
        cases w with
        | nil => exact hrest
        | cons e w => exact hinside e (hmore e List.mem_cons_self)
      refine .cons (hp c hc) ?_ (ih (List.cons_ne_nil d w) hw)
      rw [List.cons_append, goesOn, hp d hd, hjoin c d _ hc hd hnext]
      rfl

theorem connected_digits (hne : w ≠ []) (hw : ∀ c ∈ w, c.isDigit = true) : Connected rest w :=
  connected_run (fun _ => True) hne hw (fun _ h => (isDigit_class h).1)
    (fun _ _ => trivial) trivial fun _ _ next hc hd _ => endsWord_digits hc hd next

theorem connected_small (hne : w ≠ []) (hw : ∀ c ∈ w, c.isLower = true) : Connected rest w :=
  connected_run (fun _ => True) hne hw (fun _ h => (isLower_class h).1)
    (fun _ _ => trivial) trivial
    fun _ _ next hc hd _ => endsWord_small (isLower_class hc).2.1 hd next

/-- Capitals are connected before anything but a small letter. -/
theorem connected_capitals (hne : w ≠ []) (hw : ∀ c ∈ w, c.isUpper = true)
    (hrest : rest.head?.any Char.isLower = false) : Connected rest w :=
  connected_run (fun next => next.any Char.isLower = false) hne hw
    (fun _ h => (isUpper_class h).1) (fun _ h => (isUpper_class h).2.2.1) hrest
    fun _ _ _ hc hd hnext => by grind [endsWord]

/-- A letter and small letters after it are connected. -/
theorem connected_capitalized (hc : c.isAlpha = true) (hw : ∀ d ∈ w, d.isLower = true) :
    Connected rest (c :: w) := by
  have halphanum : c.isAlphanum = true := by simp [Char.isAlphanum, hc]
  cases w with
  | nil => exact .single halphanum
  | cons d w =>
    have hd := hw d List.mem_cons_self
    refine .cons halphanum ?_ (connected_small (List.cons_ne_nil d w) hw)
    rw [List.cons_append, goesOn, (isLower_class hd).1, endsWord_small hc hd]
    rfl

/-! ## Words in front of a text -/

theorem runsInto_eq_false {p : Char → Bool} (hw : ∀ c ∈ w, p c = true)
    (hend : ∀ c d after, p c = true → rest = d :: after → d.isAlphanum = true →
      endsWord c d after.head? = true) : runsInto w rest = false := by
  cases hlast : w.getLast? with
  | none => rw [runsInto, hlast]; rfl
  | some c =>
    have hc := hw c (List.mem_of_getLast? hlast)
    rw [runsInto, hlast]
    cases rest with
    | nil => rfl
    | cons d after =>
      show (d.isAlphanum && !endsWord c d after.head?) = false
      cases hd : d.isAlphanum with
      | false => rfl
      | true => rw [hend c d after hc rfl hd]; rfl

/-- Letters and digits in front of some text that are a word there. -/
structure WordBefore (rest w : List Char) : Prop where
  connected : Connected rest w
  ends : runsInto w rest = false

theorem wordBefore_digits (hne : w ≠ []) (hw : ∀ c ∈ w, c.isDigit = true)
    (hrest : ∀ d after, rest = d :: after → d.isDigit = false) : WordBefore rest w where
  connected := connected_digits hne hw
  ends := by
    refine runsInto_eq_false hw fun c d after hc hsplit hd => ?_
    have hnodigit := hrest d after hsplit
    grind [endsWord, Char.isAlphanum]

theorem wordBefore_small (hne : w ≠ []) (hw : ∀ c ∈ w, c.isLower = true)
    (hrest : ∀ d after, rest = d :: after → d.isLower = false) : WordBefore rest w where
  connected := connected_small hne hw
  ends := by
    refine runsInto_eq_false hw fun c d after hc hsplit hd => ?_
    have hlower := hrest d after hsplit
    grind [endsWord, Char.isAlphanum, Char.isAlpha]

theorem wordBefore_capitalized (hc : c.isUpper = true) (hne : w ≠ [])
    (hw : ∀ d ∈ w, d.isLower = true) (hrest : ∀ d after, rest = d :: after → d.isLower = false) :
    WordBefore rest (c :: w) where
  connected := connected_capitalized (isUpper_class hc).2.1 hw
  ends := by
    have hsmall := (wordBefore_small hne hw hrest).ends
    obtain ⟨d, w, rfl⟩ := List.exists_cons_of_ne_nil hne
    rw [runsInto, List.getLast?_cons_cons]
    exact hsmall

/-- Capitals are a word before anything but a letter. -/
theorem wordBefore_capitals (hne : w ≠ []) (hw : ∀ c ∈ w, c.isUpper = true)
    (hrest : ∀ d after, rest = d :: after → d.isUpper = false ∧ d.isLower = false) :
    WordBefore rest w where
  connected := by
    refine connected_capitals hne hw ?_
    cases rest with
    | nil => rfl
    | cons d after => exact (hrest d after rfl).2
  ends := by
    refine runsInto_eq_false hw fun c d after hc hsplit hd => ?_
    have hother := hrest d after hsplit
    grind [endsWord, Char.isAlphanum, Char.isAlpha]

/-- And they are one before a capital that has a small letter after it. -/
theorem wordBefore_acronym (hne : w ≠ []) (hw : ∀ c ∈ w, c.isUpper = true) {s : Char}
    (hd : d.isUpper = true) (hs : s.isLower = true) : WordBefore (d :: s :: rest) w where
  connected := connected_capitals hne hw (isUpper_class hd).2.2.1
  ends := by
    refine runsInto_eq_false hw fun a b after ha hsplit _ => ?_
    obtain ⟨rfl, rfl⟩ := List.cons.inj hsplit
    simp [endsWord, ha, hd, hs]

/-! ## The reader of words -/

theorem eq_false_of_dropWhile {p : Char → Bool} {cs after : List Char}
    (h : cs.dropWhile p = d :: after) : p d = false := by
  have hhead := List.head?_dropWhile_not p cs
  rw [h] at hhead
  exact hhead

/-- A text is a run of a class and a rest that does not start with the class. -/
theorem exists_run (p : Char → Bool) (cs : List Char) :
    ∃ run rest, cs.takeWhile p = run ∧ cs.dropWhile p = rest ∧ cs = run ++ rest ∧
      (∀ c ∈ run, p c = true) ∧ ∀ d after, rest = d :: after → p d = false :=
  ⟨_, _, rfl, rfl, List.takeWhile_append_dropWhile.symm, fun _ => List.mem_takeWhile_imp,
    fun _ _ => eq_false_of_dropWhile⟩

/-- The reader takes the word at the start of a text, if it starts with a letter or digit. -/
theorem wordAt_cases (cs : List Char) :
    (wordAt cs = [] ∧ ∀ c rest, cs = c :: rest → c.isAlphanum = false) ∨
      ∃ rest, cs = wordAt cs ++ rest ∧ WordBefore rest (wordAt cs) := by
  obtain ⟨capitals, after, htake, hdrop, hcs, hcapital, hnocapital⟩ := exists_run Char.isUpper cs
  obtain ⟨small, rest, htake', -, rfl, hsmall, hnosmall⟩ := exists_run Char.isLower after
  unfold wordAt
  rw [htake, hdrop]
  dsimp only
  rw [htake']
  split
  · -- neither capitals nor small letters: digits, or no word
    obtain ⟨digits, tail, htake, -, hdigits, hdigit, hnodigit⟩ := exists_run Char.isDigit cs
    obtain rfl : cs = rest := hcs
    rw [htake]
    by_cases hne : digits = []
    · left
      subst hne
      obtain rfl : cs = tail := hdigits
      refine ⟨rfl, fun c after h => ?_⟩
      have hupper := hnocapital c after h
      have hlower := hnosmall c after h
      have hdigit := hnodigit c after h
      grind [Char.isAlphanum, Char.isAlpha]
    · exact Or.inr ⟨tail, hdigits, wordBefore_digits hne hdigit hnodigit⟩
  · -- small letters only
    next hne => exact Or.inr ⟨rest, hcs, wordBefore_small hne hsmall hnosmall⟩
  · -- capitals before anything but a small letter
    next hne =>
    exact Or.inr ⟨rest, hcs, wordBefore_capitals hne hcapital
      fun d more h => ⟨hnocapital d more h, hnosmall d more h⟩⟩
  · -- a capital with small letters
    next first hne =>
    have hfirst := hcapital first (List.mem_singleton_self first)
    exact Or.inr ⟨rest, hcs, wordBefore_capitalized hfirst hne hsmall hnosmall⟩
  · -- the last of several capitals belongs to the small letters
    next hnone hseveral hne _ =>
    obtain ⟨s, small, rfl⟩ := List.exists_cons_of_ne_nil hne
    obtain ⟨init, last, rfl⟩ := capitals.eq_nil_or_concat'.resolve_left hnone
    obtain ⟨hinit, hlast⟩ := List.forall_mem_append.mp hcapital
    rw [List.dropLast_concat]
    refine Or.inr ⟨last :: s :: (small ++ rest), by rw [hcs, List.append_assoc]; rfl, ?_⟩
    refine wordBefore_acronym ?_ hinit (hlast last List.mem_cons_self) (hsmall s List.mem_cons_self)
    rintro rfl
    exact hseveral last rfl

/-- The reader cuts a text by the rule for neighbours. -/
theorem words_eq_cutWords (cs : List Char) : words cs = cutWords cs := by
  induction cs using words.induct with
  | case1 => rw [words, cutWords]
  | case2 c rest hnone ih =>
    rw [words, hnone]
    rcases wordAt_cases (c :: rest) with ⟨_, hother⟩ | ⟨after, _, hword⟩
    · exact ih.trans (cutWords_separator (hother c rest rfl)).symm
    · rw [hnone] at hword
      cases hword.connected
  | case3 c rest hsome ih =>
    rcases wordAt_cases (c :: rest) with ⟨hnone, _⟩ | ⟨after, hsplit, hword⟩
    · exact absurd hnone hsome
    · rw [words]
      generalize wordAt (c :: rest) = w at *
      cases w with
      | nil => contradiction
      | cons d w =>
        obtain ⟨rfl, rfl⟩ := List.cons.inj hsplit
        have hdrop : (w.append after).drop ((c :: w).length - 1) = after := List.drop_left
        rw [hdrop] at ih
        show (c :: w) :: words ((w.append after).drop ((c :: w).length - 1)) =
          cutWords (c :: w ++ after)
        rw [hdrop, ih, hword.connected.cutWords_append hword.ends]

/-! ## All words of a text -/

theorem flatten_extendFirst (c : Char) (ws : List (List Char)) :
    (extendFirst c ws).flatten = c :: ws.flatten := by
  cases ws <;> rfl

/-- The words of a text, one after another, are its letters and digits. -/
theorem flatten_cutWords (cs : List Char) : (cutWords cs).flatten = cs.filter Char.isAlphanum := by
  fun_induction cutWords cs with
  | case1 => rfl
  | case2 c rest hc hon ih => rw [flatten_extendFirst, ih, List.filter_cons_of_pos hc]
  | case3 c rest hc hends ih =>
    rw [List.flatten_cons, ih, List.filter_cons_of_pos hc]
    rfl
  | case4 c rest hc ih => rw [ih, List.filter_cons_of_neg hc]

/-- Words consist of letters and digits. -/
theorem isAlphanum_of_mem_words {cs w : List Char} (hw : w ∈ words cs) {ch : Char} (h : ch ∈ w) :
    ch.isAlphanum = true := by
  rw [words_eq_cutWords] at hw
  have hmem : ch ∈ cs.filter Char.isAlphanum :=
    flatten_cutWords cs ▸ List.mem_flatten_of_mem hw h
  exact (List.mem_filter.mp hmem).2

/-- A text that is a word: letters alone or digits alone. -/
structure IsWord (w : List Char) : Prop where
  ne_nil : w ≠ []
  uniform : (∀ c ∈ w, c.isAlpha = true) ∨ ∀ c ∈ w, c.isDigit = true

theorem isWord_singleton (hc : c.isAlphanum = true) : IsWord [c] := by
  refine ⟨List.cons_ne_nil c [], ?_⟩
  rw [Char.isAlphanum, Bool.or_eq_true] at hc
  exact hc.imp List.forall_mem_singleton.mpr List.forall_mem_singleton.mpr

/-- A letter or digit that goes on with a word is of the class of that word. -/
theorem IsWord.extend (hc : c.isAlphanum = true) {v : List Char} (h : IsWord (d :: v))
    {next : Option Char} (hon : endsWord c d next = false) : IsWord (c :: d :: v) := by
  refine ⟨List.cons_ne_nil c _, h.uniform.imp (fun hv => ?_) fun hv => ?_⟩
  · have hd := hv d List.mem_cons_self
    exact List.forall_mem_cons.mpr ⟨by grind [endsWord, Char.isAlphanum], hv⟩
  · have hd := hv d List.mem_cons_self
    exact List.forall_mem_cons.mpr ⟨by grind [endsWord, Char.isAlphanum], hv⟩

theorem isWord_of_mem_cutWords {cs : List Char} (hw : w ∈ cutWords cs) : IsWord w := by
  fun_induction cutWords cs generalizing w with
  | case1 => cases hw
  | case2 c rest hc hon ih =>
    cases rest with
    | nil => cases hon
    | cons d after =>
      rw [goesOn, Bool.and_eq_true, Bool.not_eq_true'] at hon
      obtain ⟨v, vs, hcut⟩ := exists_cutWords hon.1 after
      rw [hcut] at hw ih
      rcases List.mem_cons.mp hw with rfl | hw
      · exact (ih List.mem_cons_self).extend hc hon.2
      · exact ih (List.mem_cons_of_mem _ hw)
  | case3 c rest hc hends ih =>
    rcases List.mem_cons.mp hw with rfl | hw
    · exact isWord_singleton hc
    · exact ih hw
  | case4 c rest hc ih => exact ih hw

/-! ## The word of a character -/

/-- The number of the word that holds the `k`-th character of all words together. -/
def wordHolding : List (List Char) → Nat → Nat
  | [], _ => 0
  | w :: ws, k => if k < w.length then 0 else wordHolding ws (k - w.length) + 1

/-- The word of that number holds the character. -/
theorem exists_wordHolding {ws : List (List Char)} {k : Nat} (h : ws.flatten[k]? = some c) :
    ∃ w, ws[wordHolding ws k]? = some w ∧ c ∈ w := by
  induction ws generalizing k with
  | nil => cases h
  | cons w ws ih =>
    rw [List.flatten_cons] at h
    rw [wordHolding]
    by_cases hk : k < w.length
    · rw [List.getElem?_append_left hk] at h
      rw [if_pos hk]
      exact ⟨w, rfl, List.mem_of_getElem? h⟩
    · rw [List.getElem?_append_right (Nat.le_of_not_lt hk)] at h
      rw [if_neg hk, List.getElem?_cons_succ]
      exact ih h

theorem wordHolding_zero (hc : c.isAlphanum = true) (rest : List Char) :
    wordHolding (cutWords (c :: rest)) 0 = 0 := by
  obtain ⟨w, ws, hcut⟩ := exists_cutWords hc rest
  rw [hcut, wordHolding, List.length_cons, if_pos (Nat.succ_pos _)]

/-- A letter or digit in front starts a word of its own exactly if it does not go on. -/
theorem wordHolding_succ (hc : c.isAlphanum = true) (rest : List Char) (k : Nat) :
    wordHolding (cutWords (c :: rest)) (k + 1) =
      wordHolding (cutWords rest) k + (if goesOn c rest then 0 else 1) := by
  cases hrest : goesOn c rest with
  | true =>
    obtain ⟨v, vs, hcut⟩ := exists_cutWords_of_goesOn hrest
    rw [cutWords_goesOn hc hrest, hcut, extendFirst, wordHolding, wordHolding, List.length_cons]
    simp only [Nat.add_lt_add_iff_right, Nat.add_sub_add_right]
    rfl
  | false =>
    rw [cutWords_ends hc hrest, wordHolding]
    rfl

/-- What stands before a text moves the numbers of all its words alike. -/
theorem exists_wordHolding_append (before rest : List Char) :
    ∃ shift, ∀ k, wordHolding (cutWords (before ++ rest)) (before.countP Char.isAlphanum + k) =
      wordHolding (cutWords rest) k + shift := by
  induction before with
  | nil => exact ⟨0, fun k => by rw [List.countP_nil, Nat.zero_add]; rfl⟩
  | cons c before ih =>
    obtain ⟨shift, ih⟩ := ih
    cases hc : c.isAlphanum with
    | false =>
      refine ⟨shift, fun k => ?_⟩
      rw [List.cons_append, cutWords_separator hc, List.countP_cons_of_neg (by simp [hc]), ih]
    | true =>
      refine ⟨shift + if goesOn c (before ++ rest) then 0 else 1, fun k => ?_⟩
      rw [List.cons_append, List.countP_cons_of_pos hc, Nat.add_right_comm, wordHolding_succ hc, ih,
        Nat.add_assoc]

/-- Two neighbours are of one word exactly if none ends between them. -/
theorem wordHolding_neighbours {a b : Char} (ha : a.isAlphanum = true) (hb : b.isAlphanum = true)
    (rest : List Char) :
    wordHolding (cutWords (a :: b :: rest)) 0 ≠ wordHolding (cutWords (a :: b :: rest)) 1 ↔
      endsWord a b rest.head? = true := by
  rw [wordHolding_zero ha, wordHolding_succ ha, wordHolding_zero hb, goesOn, hb]
  cases endsWord a b rest.head? <;> simp

/-- A character that is neither letter nor digit separates words. -/
theorem wordHolding_separated {a : Char} (ha : a.isAlphanum = true) {between : List Char}
    (hbetween : ∃ s ∈ between, s.isAlphanum = false) (rest : List Char) :
    wordHolding (cutWords (a :: (between ++ rest))) (between.countP Char.isAlphanum + 1) ≠ 0 := by
  induction between generalizing a with
  | nil =>
    obtain ⟨s, hs, _⟩ := hbetween
    cases hs
  | cons m between ih =>
    rw [wordHolding_succ ha]
    cases hm : m.isAlphanum with
    | false =>
      have hends : goesOn a (m :: between ++ rest) = false := by
        rw [List.cons_append, goesOn, hm, Bool.false_and]
      rw [hends]
      exact Nat.succ_ne_zero _
    | true =>
      obtain ⟨s, hs, hseparator⟩ := hbetween
      have hmem : s ∈ between := by
        rcases List.mem_cons.mp hs with rfl | hs
        · rw [hm] at hseparator
          cases hseparator
        · exact hs
      have hmore := ih hm ⟨s, hmem, hseparator⟩
      rw [List.countP_cons_of_pos hm, List.cons_append]
      omega

end

/-! ## The words of a name -/

/-- The number of the word of a text that the character at a place falls into: as many letters and
digits stand before it in the words as in the text. -/
def wordAtPlace (text : String) (place : Nat) : Nat :=
  wordHolding ((splitWords text).map String.toList)
    ((text.toList.take place).countP Char.isAlphanum)

theorem map_toList_splitWords (text : String) :
    (splitWords text).map String.toList = cutWords text.toList := by
  rw [splitWords, List.map_map, words_eq_cutWords]
  exact (List.map_congr_left fun w _ => String.toList_ofList).trans (List.map_id _)

theorem wordAtPlace_append {text : String} {before rest : List Char}
    (h : text.toList = before ++ rest) :
    wordAtPlace text before.length =
      wordHolding (cutWords text.toList) (before.countP Char.isAlphanum) := by
  rw [wordAtPlace, map_toList_splitWords, h, List.take_left]

/-- The word of the number of a place holds the letter or digit there. -/
theorem exists_wordAtPlace {text : String} {before rest : List Char} {a : Char}
    (h : text.toList = before ++ a :: rest) (ha : a.isAlphanum = true) :
    ∃ w, (splitWords text)[wordAtPlace text before.length]? = some w ∧ a ∈ w.toList := by
  have hletter : (cutWords text.toList).flatten[before.countP Char.isAlphanum]? = some a := by
    rw [flatten_cutWords, h, List.filter_append, List.filter_cons_of_pos ha,
      List.countP_eq_length_filter, List.getElem?_append_right (Nat.le_refl _), Nat.sub_self]
    rfl
  obtain ⟨w, hw, ha⟩ := exists_wordHolding hletter
  rw [← wordAtPlace_append h, ← map_toList_splitWords, List.getElem?_map,
    Option.map_eq_some_iff] at hw
  obtain ⟨word, hword, rfl⟩ := hw
  exact ⟨word, hword, ha⟩

/-- The places of two characters are in one word of a text exactly if they are without what stands
before the first. -/
theorem wordAtPlace_eq_iff {text : String} {before rest : List Char} {a : Char}
    (between : List Char) (h : text.toList = before ++ (a :: between ++ rest))
    (ha : a.isAlphanum = true) :
    wordAtPlace text before.length = wordAtPlace text (before.length + 1 + between.length) ↔
      wordHolding (cutWords (a :: between ++ rest)) 0 =
        wordHolding (cutWords (a :: between ++ rest)) (between.countP Char.isAlphanum + 1) := by
  obtain ⟨shift, hshift⟩ := exists_wordHolding_append before (a :: between ++ rest)
  have hplace : before.length + 1 + between.length = (before ++ a :: between).length := by
    rw [List.length_append, List.length_cons]
    omega
  have hsplit : text.toList = (before ++ a :: between) ++ rest := by
    rw [h, List.append_assoc]
  have hfirst := hshift 0
  have hsecond := hshift (between.countP Char.isAlphanum + 1)
  rw [← h] at hfirst hsecond
  rw [wordAtPlace_append h, hplace, wordAtPlace_append hsplit, List.countP_append,
    List.countP_cons_of_pos ha, hsecond, ← Nat.add_zero (before.countP _), hfirst]
  exact Nat.add_right_cancel_iff

/-- The words of a text are its letters and digits, cut where a word ends between two neighbours and
wherever another character stands. -/
theorem splitWords_boundaries (text : String) :
    String.join (splitWords text) = String.ofList (text.toList.filter Char.isAlphanum) ∧
      (∀ w ∈ splitWords text, w ≠ "") ∧
      (∀ (before rest : List Char) (a : Char), text.toList = before ++ a :: rest →
        a.isAlphanum = true →
        ∃ w, (splitWords text)[wordAtPlace text before.length]? = some w ∧ a ∈ w.toList) ∧
      (∀ (before rest : List Char) (a b : Char), text.toList = before ++ a :: b :: rest →
        a.isAlphanum = true → b.isAlphanum = true →
        (wordAtPlace text before.length ≠ wordAtPlace text (before.length + 1) ↔
          endsWord a b rest.head? = true)) ∧
      ∀ (before between rest : List Char) (a b : Char),
        text.toList = before ++ a :: (between ++ b :: rest) → a.isAlphanum = true →
        b.isAlphanum = true → (∃ s ∈ between, s.isAlphanum = false) →
        wordAtPlace text before.length ≠
          wordAtPlace text (before.length + 1 + between.length) := by
  have hwords := map_toList_splitWords text
  refine ⟨?_, ?_, fun _ _ _ => exists_wordAtPlace, ?_, ?_⟩
  · rw [← String.toList_inj, String.toList_join, List.flatMap_def, hwords, flatten_cutWords,
      String.toList_ofList]
  · rintro w hw rfl
    exact (isWord_of_mem_cutWords (hwords ▸ List.mem_map_of_mem hw)).ne_nil rfl
  · intro before rest a b hsplit ha hb
    exact (not_congr (wordAtPlace_eq_iff [] hsplit ha)).trans
      (wordHolding_neighbours ha hb rest)
  · intro before between rest a b hsplit ha _ hbetween
    rw [ne_eq, wordAtPlace_eq_iff between hsplit ha, List.cons_append, wordHolding_zero ha]
    exact (wordHolding_separated ha hbetween _).symm

/-- The last capital of a run starts the word of the small letters, and a mark separates. -/
theorem splitWords_boundaries_acronym :
    "XMLFile_v2".toList = "XM".toList ++ 'L' :: 'F' :: "ile_v2".toList ∧
      wordAtPlace "XMLFile_v2" 2 ≠ wordAtPlace "XMLFile_v2" 3 ∧
      "XMLFile_v2".toList = "XMLFil".toList ++ 'e' :: ("_".toList ++ 'v' :: "2".toList) ∧
      wordAtPlace "XMLFile_v2" 6 ≠ wordAtPlace "XMLFile_v2" 8 := by
  obtain ⟨-, -, -, hneighbours, hseparated⟩ := splitWords_boundaries "XMLFile_v2"
  have hcapital : "XMLFile_v2".toList = "XM".toList ++ 'L' :: 'F' :: "ile_v2".toList := by decide
  have hmark : "XMLFile_v2".toList =
      "XMLFil".toList ++ 'e' :: ("_".toList ++ 'v' :: "2".toList) := by decide
  have hends : endsWord 'L' 'F' "ile_v2".toList.head? = true := by decide
  exact ⟨hcapital, (hneighbours _ _ _ _ hcapital (by decide) (by decide)).mpr hends, hmark,
    hseparated _ _ _ _ _ hmark (by decide) (by decide) ⟨'_', by decide, by decide⟩⟩

end DartModels
