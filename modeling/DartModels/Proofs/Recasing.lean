import DartModels.Proofs.ValidModels

/-!
# Names cased again

Kebab and snake case keep the words of a name apart, so that whatever is cased from them is cased as
from the name itself.  In pascal case only capitals and the change between letters and digits tell
the words apart: two words of one letter side by side become one word, and so do two numbers.

    the words of a name in kebab or snake case are its words in small letters   (cutWords_joinLower)
    the words of a name in pascal case are its words ↔ no two fuse        (cutWords_join_pascal_iff)
    kebab case of pascal case is kebab case ↔ no two words fuse                      (apply_recased)
-/

namespace DartModels

/-! ## Words in one case -/

theorem case_of_isAlphanum {c : Char} (h : c.isAlphanum = true) :
    c.toLower.toUpper = c.toUpper ∧ c.toLower.toLower = c.toLower ∧ c.toUpper.toLower = c.toLower :=
  forall_isAlphanum h (by decide)

theorem case_of_isAlpha {c : Char} (h : c.isAlpha = true) :
    c.toUpper.isUpper = true ∧ c.toLower.isLower = true := by
  have halphanum : c.isAlphanum = true := by simp [Char.isAlphanum, h]
  revert h
  exact forall_isAlphanum halphanum (by decide)

theorem case_of_isDigit {c : Char} (h : c.isDigit = true) : c.toUpper = c ∧ c.toLower = c := by
  have halphanum := (isDigit_class h).1
  revert h
  exact forall_isAlphanum halphanum (by decide)

/-- A word in small letters. -/
def lower (w : List Char) : List Char := w.map Char.toLower

variable {w : List Char}

theorem lower_digits (h : ∀ c ∈ w, c.isDigit = true) : lower w = w :=
  (List.map_congr_left fun c hc => (case_of_isDigit (h c hc)).2).trans (List.map_id w)

theorem lower_letters (h : ∀ c ∈ w, c.isAlpha = true) : ∀ c ∈ lower w, c.isLower = true := by
  intro c hc
  obtain ⟨d, hd, rfl⟩ := List.mem_map.mp hc
  exact (case_of_isAlpha (h d hd)).2

theorem capitalize_cons (c : Char) (w : List Char) :
    capitalize (c :: w) = c.toUpper :: lower w := rfl

theorem capitalize_digits (h : ∀ c ∈ w, c.isDigit = true) : capitalize w = w := by
  cases w with
  | nil => rfl
  | cons c w =>
    obtain ⟨hc, hw⟩ := List.forall_mem_cons.mp h
    rw [capitalize_cons, (case_of_isDigit hc).1, lower_digits hw]

section

variable (h : ∀ c ∈ w, c.isAlphanum = true)

include h

theorem lower_lower : lower (lower w) = lower w := by
  unfold lower
  rw [List.map_map]
  exact List.map_congr_left fun c hc => (case_of_isAlphanum (h c hc)).2.1

theorem capitalize_lower : capitalize (lower w) = capitalize w := by
  cases w with
  | nil => rfl
  | cons c w =>
    obtain ⟨hc, hw⟩ := List.forall_mem_cons.mp h
    show c.toLower.toUpper :: lower (lower w) = c.toUpper :: lower w
    rw [(case_of_isAlphanum hc).1, lower_lower hw]

theorem lower_capitalize : lower (capitalize w) = lower w := by
  cases w with
  | nil => rfl
  | cons c w =>
    obtain ⟨hc, hw⟩ := List.forall_mem_cons.mp h
    show c.toUpper.toLower :: lower (lower w) = c.toLower :: lower w
    rw [(case_of_isAlphanum hc).2.2, lower_lower hw]

end

namespace IsWord

theorem isAlphanum (h : IsWord w) : ∀ c ∈ w, c.isAlphanum = true := by
  intro c hc
  rw [Char.isAlphanum, Bool.or_eq_true]
  exact h.uniform.imp (fun hw => hw c hc) fun hw => hw c hc

/-- The reader takes a word in small letters whole. -/
theorem connected_lower (h : IsWord w) (rest : List Char) : Connected rest (lower w) := by
  have hne : lower w ≠ [] := by simpa [lower] using h.ne_nil
  rcases h.uniform with hw | hw
  · exact connected_small hne (lower_letters hw)
  · rw [lower_digits hw] at hne ⊢
    exact connected_digits hne hw

/-- So it takes a word with a capital first letter. -/
theorem connected_capitalize (h : IsWord w) (rest : List Char) : Connected rest (capitalize w) := by
  rcases h.uniform with hw | hw
  · obtain ⟨c, w, rfl⟩ := List.exists_cons_of_ne_nil h.ne_nil
    obtain ⟨hc, hw⟩ := List.forall_mem_cons.mp hw
    exact connected_capitalized (isUpper_class (case_of_isAlpha hc).1).2.1 (lower_letters hw)
  · rw [capitalize_digits hw]
    exact connected_digits h.ne_nil hw

end IsWord

/-! ## Words kept apart -/

section

variable {ws : List (List Char)} {separator : Char}

theorem joinLower_eq (separator : Char) (ws : List (List Char)) :
    joinLower separator ws = [separator].intercalate (ws.map lower) := rfl

/-- A word ends before a text that does not start with a letter or digit. -/
theorem cutWords_lower_append (h : IsWord w) {rest : List Char}
    (hrest : ∀ c r, rest = c :: r → c.isAlphanum = false) :
    cutWords (lower w ++ rest) = lower w :: cutWords rest := by
  refine (h.connected_lower rest).cutWords_append ?_
  refine runsInto_eq_false (p := fun _ => true) (fun _ _ => rfl) fun _ d after _ hsplit hd => ?_
  rw [hrest d after hsplit] at hd
  cases hd

/-- The words of words joined by a separator are these, in small letters. -/
theorem cutWords_joinLower (hseparator : separator.isAlphanum = false)
    (h : ∀ w ∈ ws, IsWord w) : cutWords (joinLower separator ws) = ws.map lower := by
  rw [joinLower_eq]
  induction ws with
  | nil => rfl
  | cons w ws ih =>
    obtain ⟨hw, hws⟩ := List.forall_mem_cons.mp h
    cases ws with
    | nil =>
      rw [List.map_singleton, List.intercalate_singleton, ← List.append_nil (lower w),
        cutWords_lower_append hw (by simp), List.append_nil]
      rfl
    | cons v ws =>
      rw [List.map_cons, List.map_cons, List.intercalate_cons_cons, List.append_assoc,
        List.singleton_append, cutWords_lower_append hw, cutWords_separator hseparator]
      · exact congrArg _ (ih hws)
      · intro c r hsplit
        cases hsplit
        exact hseparator

/-- A casing depends on the letters of the words alone, not on their cases. -/
theorem Casing.join_lower (g : Casing) (h : ∀ w ∈ ws, IsWord w) :
    g.join (ws.map lower) = g.join ws := by
  have hcapital : (ws.map lower).map capitalize = ws.map capitalize := by
    rw [List.map_map]
    exact List.map_congr_left fun w hw => capitalize_lower (h w hw).isAlphanum
  have hlower : (ws.map lower).map lower = ws.map lower := by
    rw [List.map_map]
    exact List.map_congr_left fun w hw => lower_lower (h w hw).isAlphanum
  cases g <;> simp only [Casing.join, joinLower_eq, hcapital, hlower]

theorem isWord_of_mem_words {cs : List Char} : ∀ w ∈ words cs, IsWord w := by
  rw [words_eq_cutWords]
  exact fun _ => isWord_of_mem_cutWords

/-- Casing a name whose words were joined by a separator. -/
theorem Casing.applyList_joinLower (g : Casing) (hseparator : separator.isAlphanum = false)
    (cs : List Char) : g.applyList (joinLower separator (words cs)) = g.applyList cs := by
  unfold Casing.applyList
  rw [words_eq_cutWords (joinLower _ _), cutWords_joinLower hseparator isWord_of_mem_words,
    g.join_lower isWord_of_mem_words]

end

/-! ## Words side by side -/

/-- Whether a word is a single letter. -/
def IsLetter (w : List Char) : Prop := ∃ c, w = [c] ∧ c.isAlpha = true

/-- Whether a word is a run of digits. -/
def IsNumber (w : List Char) : Prop := w ≠ [] ∧ ∀ c ∈ w, c.isDigit = true

/-- Whether two words become one when they are put side by side with capital first letters. -/
def Fuse (u v : List Char) : Prop := (IsLetter u ∧ IsLetter v) ∨ (IsNumber u ∧ IsNumber v)

section

variable {u v rest : List Char}

/-- A word in which a letter stands fuses with single letters alone, and only if it is one. -/
theorem fuse_iff_of_isAlpha {c : Char} (hmem : c ∈ u ∨ c ∈ v) (hc : c.isAlpha = true) :
    Fuse u v ↔ IsLetter u ∧ IsLetter v := by
  refine or_iff_left ?_
  rintro ⟨⟨-, hu⟩, -, hv⟩
  have hdigit : c.isDigit = true := hmem.elim (hu c) (hv c)
  rw [(isDigit_class hdigit).2.1] at hc
  cases hc

theorem not_isLetter_of_isDigit {c : Char} (hmem : c ∈ w) (hc : c.isDigit = true) :
    ¬ IsLetter w := by
  rintro ⟨d, rfl, hd⟩
  obtain rfl := List.mem_singleton.mp hmem
  rw [(isDigit_class hc).2.1] at hd
  cases hd

theorem not_isLetter_cons_cons (c d : Char) (w : List Char) : ¬ IsLetter (c :: d :: w) := by
  rintro ⟨e, hw, -⟩
  cases hw

theorem runsInto_eq_true {p : Char → Bool} (hne : w ≠ []) (hw : ∀ c ∈ w, p c = true)
    (hon : ∀ c, p c = true → goesOn c rest = true) : runsInto w rest = true := by
  rw [runsInto, List.getLast?_eq_some_getLast hne]
  exact hon _ (hw _ (List.getLast_mem hne))

/-- A single letter goes on in a word of letters exactly if that is a single letter too. -/
theorem runsInto_letter_iff {c d : Char} {s : List Char} (hc : c.isAlpha = true)
    (hv : ∀ e ∈ d :: s, e.isAlpha = true) (hrest : rest.head?.any Char.isLower = false) :
    runsInto [c.toUpper] (d.toUpper :: (lower s ++ rest)) = true ↔
      IsLetter [c] ∧ IsLetter (d :: s) := by
  obtain ⟨hd, hs⟩ := List.forall_mem_cons.mp hv
  have hcapital := (case_of_isAlpha hc).1
  have hnext := (case_of_isAlpha hd).1
  have hgoes : runsInto [c.toUpper] (d.toUpper :: (lower s ++ rest)) =
      !(lower s ++ rest).head?.any Char.isLower := by
    show (d.toUpper.isAlphanum && !endsWord c.toUpper d.toUpper (lower s ++ rest).head?) = _
    grind [endsWord]
  rw [hgoes]
  cases s with
  | nil =>
    refine iff_of_true ?_ ⟨⟨c, rfl, hc⟩, d, rfl, hd⟩
    rw [lower, List.map_nil, List.nil_append, hrest]
    rfl
  | cons e s =>
    refine iff_of_false ?_ fun h => not_isLetter_cons_cons d e s h.2
    have he := (case_of_isAlpha (hs e List.mem_cons_self)).2
    simp [lower, he]

/-- With capital first letters a word goes on in the next exactly if the two fuse, whatever follows
but a small letter. -/
theorem runsInto_capitalize_iff (hu : IsWord u) (hv : IsWord v)
    (hrest : rest.head?.any Char.isLower = false) :
    runsInto (capitalize u) (capitalize v ++ rest) = true ↔ Fuse u v := by
  obtain ⟨c, r, rfl⟩ := List.exists_cons_of_ne_nil hu.ne_nil
  obtain ⟨d, s, rfl⟩ := List.exists_cons_of_ne_nil hv.ne_nil
  rcases hu.uniform with hu | hu <;> rcases hv.uniform with hv | hv
  · -- letters before letters
    have hc := hu c List.mem_cons_self
    have hd := hv d List.mem_cons_self
    rw [fuse_iff_of_isAlpha (Or.inl List.mem_cons_self) hc]
    cases r with
    | nil => exact runsInto_letter_iff hc hv hrest
    | cons e r =>
      refine iff_of_false ?_ fun h => not_isLetter_cons_cons c e r h.1
      rw [capitalize_cons, lower, List.map_cons, runsInto, List.getLast?_cons_cons, ← runsInto,
        Bool.not_eq_true]
      refine runsInto_eq_false (lower_letters (List.forall_mem_cons.mp hu).2) ?_
      intro a b after ha hsplit _
      have hb : b.isUpper = true := (List.cons.inj hsplit).1 ▸ (case_of_isAlpha hd).1
      simp [endsWord, ha, hb]
  · -- letters before digits
    have hc := hu c List.mem_cons_self
    have hd := hv d List.mem_cons_self
    rw [fuse_iff_of_isAlpha (Or.inl List.mem_cons_self) hc]
    refine iff_of_false ?_ fun h => not_isLetter_of_isDigit List.mem_cons_self hd h.2
    have hletters : ∀ a ∈ capitalize (c :: r), a.isAlpha = true := by
      refine List.forall_mem_cons.mpr ⟨(isUpper_class (case_of_isAlpha hc).1).2.1, fun a ha => ?_⟩
      exact (isLower_class (lower_letters (List.forall_mem_cons.mp hu).2 a ha)).2.1
    rw [Bool.not_eq_true, capitalize_digits hv]
    refine runsInto_eq_false hletters ?_
    intro a b after ha hsplit _
    have hb : b.isDigit = true := (List.cons.inj hsplit).1 ▸ hd
    simp [endsWord, ha, hb]
  · -- digits before letters
    have hc := hu c List.mem_cons_self
    have hd := hv d List.mem_cons_self
    rw [fuse_iff_of_isAlpha (Or.inr List.mem_cons_self) hd]
    refine iff_of_false ?_ fun h => not_isLetter_of_isDigit List.mem_cons_self hc h.1
    rw [Bool.not_eq_true, capitalize_digits hu]
    refine runsInto_eq_false hu ?_
    intro a b after ha hsplit _
    have hb : b.isUpper = true := (List.cons.inj hsplit).1 ▸ (case_of_isAlpha hd).1
    simp [endsWord, ha, (isUpper_class hb).2.1]
  · -- digits before digits
    refine iff_of_true ?_ (Or.inr ⟨⟨List.cons_ne_nil c r, hu⟩, List.cons_ne_nil d s, hv⟩)
    rw [capitalize_digits hu, capitalize_digits hv]
    refine runsInto_eq_true (List.cons_ne_nil c r) hu fun a ha => ?_
    have hd := hv d List.mem_cons_self
    rw [List.cons_append, goesOn, (isDigit_class hd).1, endsWord_digits ha hd]
    rfl

theorem isLower_head?_join_pascal {ws : List (List Char)} (h : ∀ w ∈ ws, IsWord w) :
    (Casing.pascal.join ws).head?.any Char.isLower = false := by
  cases ws with
  | nil => rfl
  | cons w ws =>
    obtain ⟨hw, -⟩ := List.forall_mem_cons.mp h
    obtain ⟨c, w, rfl⟩ := List.exists_cons_of_ne_nil hw.ne_nil
    show c.toUpper.isLower = false
    rcases hw.uniform with hw | hw
    · exact (isUpper_class (case_of_isAlpha (hw c List.mem_cons_self)).1).2.2.1
    · have hc := hw c List.mem_cons_self
      rw [(case_of_isDigit hc).1]
      exact (isDigit_class hc).2.2.2

/-- Words in pascal case are read back one by one exactly if no two side by side fuse. -/
theorem cutWords_join_pascal_iff {ws : List (List Char)} (h : ∀ w ∈ ws, IsWord w) :
    cutWords (Casing.pascal.join ws) = ws.map capitalize ↔ ws.IsChain fun u v => ¬ Fuse u v := by
  induction ws with
  | nil => exact iff_of_true rfl .nil
  | cons u ws ih =>
    obtain ⟨hu, hws⟩ := List.forall_mem_cons.mp h
    have hconnected := hu.connected_capitalize (Casing.pascal.join ws)
    have hjoin : Casing.pascal.join (u :: ws) = capitalize u ++ Casing.pascal.join ws := rfl
    rw [hjoin, List.map_cons]
    cases ws with
    | nil =>
      refine iff_of_true (hconnected.cutWords_append ?_) (.singleton u)
      exact runsInto_eq_false (p := fun _ => true) (fun _ _ => rfl) nofun
    | cons v ws =>
      obtain ⟨hv, hmore⟩ := List.forall_mem_cons.mp hws
      have hfuse := runsInto_capitalize_iff hu hv (isLower_head?_join_pascal hmore)
      change runsInto (capitalize u) (Casing.pascal.join (v :: ws)) = true ↔ Fuse u v at hfuse
      rw [List.isChain_cons_cons, ← ih hws, ← hfuse]
      cases hon : runsInto (capitalize u) (Casing.pascal.join (v :: ws)) with
      | true =>
        obtain ⟨x, xs, hrest, hcut⟩ := hconnected.cutWords_append_of_runsInto hon
        refine iff_of_false ?_ fun hchain => hchain.1 rfl
        rw [hcut]
        intro heq
        have hx : x ≠ [] := (isWord_of_mem_cutWords (hrest ▸ List.mem_cons_self)).ne_nil
        exact hx (List.append_right_eq_self.mp (List.cons.inj heq).1)
      | false =>
        rw [hconnected.cutWords_append hon, List.cons_inj_right]
        exact (and_iff_right Bool.false_ne_true).symm

end

/-! ## Names -/

section

variable {ws : List (List Char)} (h : ∀ w ∈ ws, IsWord w)

include h

theorem map_lower_capitalize : (ws.map capitalize).map lower = ws.map lower := by
  rw [List.map_map]
  exact List.map_congr_left fun w hw => lower_capitalize (h w hw).isAlphanum

theorem filter_join_pascal :
    (Casing.pascal.join ws).filter Char.isAlphanum = (ws.map capitalize).flatten := by
  refine List.filter_eq_self.mpr fun c hc => ?_
  obtain ⟨_, hmem, hc⟩ := List.mem_flatten.mp hc
  obtain ⟨w, hw, rfl⟩ := List.mem_map.mp hmem
  exact isAlphanum_of_mem_capitalize (h w hw).isAlphanum c hc

/-- The words in pascal case are the same up to the cases of letters only if they are the words
themselves. -/
theorem words_join_pascal_of_lower
    (hlower : (words (Casing.pascal.join ws)).map lower = ws.map lower) :
    words (Casing.pascal.join ws) = ws.map capitalize := by
  have hlengths : ∀ us : List (List Char), us.map List.length = (us.map lower).map List.length := by
    intro us
    rw [List.map_map]
    exact List.map_congr_left fun u _ => (List.length_map _).symm
  refine List.eq_iff_flatten_eq.mpr ⟨?_, ?_⟩
  · rw [words_eq_cutWords, flatten_cutWords, filter_join_pascal h]
  · rw [hlengths, hlower, ← map_lower_capitalize h, ← hlengths]

theorem joinLower_words_join_pascal_iff :
    joinLower '-' (words (Casing.pascal.join ws)) = joinLower '-' ws ↔
      ws.IsChain fun u v => ¬ Fuse u v := by
  rw [← cutWords_join_pascal_iff h, ← words_eq_cutWords]
  constructor
  · intro heq
    have hcut := congrArg cutWords heq
    rw [cutWords_joinLower rfl isWord_of_mem_words, cutWords_joinLower rfl h] at hcut
    exact words_join_pascal_of_lower h hcut
  · intro heq
    rw [heq, joinLower_eq, joinLower_eq, map_lower_capitalize h]

end

/-- Casing a name in kebab or snake case is casing the name; in pascal case it has its kebab case
exactly if no two words side by side are single letters and no two are numbers. -/
theorem apply_recased (name : String) :
    (∀ g : Casing, g.apply (Casing.kebab.apply name) = g.apply name ∧
        g.apply (Casing.snake.apply name) = g.apply name) ∧
      (Casing.kebab.apply (Casing.pascal.apply name) = Casing.kebab.apply name ↔
        (splitWords name).IsChain fun u v => ¬ (IsLetter u.toList ∧ IsLetter v.toList) ∧
          ¬ (IsNumber u.toList ∧ IsNumber v.toList)) := by
  refine ⟨fun g => ⟨?_, ?_⟩, ?_⟩
  · rw [Casing.apply, Casing.apply, Casing.apply, String.toList_ofList]
    exact congrArg _ (g.applyList_joinLower rfl name.toList)
  · rw [Casing.apply, Casing.apply, Casing.apply, String.toList_ofList]
    exact congrArg _ (g.applyList_joinLower rfl name.toList)
  · rw [Casing.apply, Casing.apply, Casing.apply, String.toList_ofList, String.ofList_inj,
      splitWords, List.isChain_map]
    simp only [String.toList_ofList, ← not_or]
    exact joinLower_words_join_pascal_iff isWord_of_mem_words

/-- Two words of one letter fuse, and the capital before small letters does not. -/
example : Casing.kebab.apply (Casing.pascal.apply "x-y-zed") = "xy-zed" := by cbv

end DartModels
