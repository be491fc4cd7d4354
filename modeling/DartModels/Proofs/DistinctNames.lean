import DartModels.Proofs.LoadedSource

/-!
# Names of members

A document that is read from a text has objects whose member names are pairwise distinct, at any
depth, because a repeated name takes the place of the one before.

    parse text = .ok v → v.Distinct                                          (distinct_of_parse)
-/

namespace DartModels

namespace Json

/-- The member names of every object in a value are pairwise distinct. -/
inductive Distinct : Json → Prop where
  | null : Distinct .null
  | bool (b : Bool) : Distinct (.bool b)
  | int (n : Int) : Distinct (.int n)
  | fraction (x : Binary64) : Distinct (.fraction x)
  | str (s : String) : Distinct (.str s)
  | arr {items : List Json} (h : ∀ v ∈ items, Distinct v) : Distinct (.arr items)
  | obj {members : List (String × Json)} (hnames : (members.map Prod.fst).Nodup)
    (h : ∀ m ∈ members, Distinct m.2) : Distinct (.obj members)

/-! ## Setting a member -/

theorem setMember_eq_setEntry (name : String) (value : Json) (members : List (String × Json)) :
    setMember name value members = setEntry name value members := by
  induction members with
  | nil => rfl
  | cons m members ih => rw [setMember, setEntry, ih]

theorem nodup_setMember (name : String) (value : Json) {members : List (String × Json)}
    (h : (members.map Prod.fst).Nodup) :
    ((setMember name value members).map Prod.fst).Nodup := by
  rw [setMember_eq_setEntry]
  exact nodup_setEntry name value h

theorem member?_setMember (name : String) (value : Json) (members : List (String × Json))
    (other : String) :
    member? other (setMember name value members) =
      if other = name then some value else member? other members := by
  induction members with
  | nil =>
    rw [setMember]
    by_cases h : other = name
    · rw [if_pos h, member?, if_pos h.symm]
    · rw [if_neg h, member?, member?, if_neg (Ne.symm h)]
      rfl
  | cons head members ih =>
    obtain ⟨k, v⟩ := head
    rw [setMember]
    by_cases hk : k = name
    · rw [if_pos hk, member?, member?, hk]
      by_cases h : other = name
      · rw [if_pos h, if_pos h.symm]
      · rw [if_neg h, if_neg (Ne.symm h), if_neg (Ne.symm h)]
    · rw [if_neg hk, member?, member?, ih]
      by_cases h : k = other
      · rw [if_pos h, if_pos h, if_neg (h ▸ hk)]
      · rw [if_neg h, if_neg h]

theorem distinct_setMember (name : String) {value : Json} {members : List (String × Json)}
    (hvalue : Distinct value) (h : ∀ m ∈ members, Distinct m.2) :
    ∀ m ∈ setMember name value members, Distinct m.2 := by
  intro m hm
  rw [setMember_eq_setEntry] at hm
  rcases mem_setEntry hm with rfl | hm
  · exact hvalue
  · exact h m hm

theorem distinct_of_member? {name : String} {v : Json} {members : List (String × Json)}
    (h : ∀ m ∈ members, Distinct m.2) (hv : member? name members = some v) : v.Distinct := by
  induction members with
  | nil => cases hv
  | cons m members ih =>
    obtain ⟨hm, hmembers⟩ := List.forall_mem_cons.mp h
    rw [member?] at hv
    split at hv
    · cases hv
      exact hm
    · exact ih hmembers hv

/-! ## Reading -/

theorem distinct_of_readNumber {c c' : Cursor} {v : Json} (h : readNumber c = .ok (v, c')) :
    v.Distinct := by
  unfold readNumber at h
  extract_lets negative body whole after frac fracLength expo total n fs x at h
  split at h
  · cases h
  · split at h
    · split at h
      · cases h
      · cases h
        exact .int _
    · cases h
      exact .fraction _

theorem distinct_of_readAtom {c c' : Cursor} {v : Json} (h : readAtom c = .ok (v, c')) :
    v.Distinct := by
  unfold readAtom at h
  split at h
  · next w v' hfind =>
    cases h
    have hmem := List.mem_of_find?_eq_some hfind
    have hwords : ∀ w ∈ words, Distinct w.2 := by
      unfold words
      simp only [List.forall_mem_cons, List.not_mem_nil, false_imp_iff, implies_true, and_true]
      exact ⟨.null, .bool _, .bool _, .fraction _, .fraction _, .fraction _⟩
    exact hwords _ hmem
  · exact distinct_of_readNumber h

/-- What is read within a bound on the depth has distinct names, if the items and members that it is
added to have. -/
structure ReadsDistinct (fuel : Nat) : Prop where
  value : ∀ {c c' : Cursor} {v : Json}, readValue fuel c = .ok (v, c') → v.Distinct
  items : ∀ {c c' : Cursor} {items : List Json} {v : Json}, (∀ w ∈ items, Distinct w) →
    readItems fuel c items = .ok (v, c') → v.Distinct
  members : ∀ {c c' : Cursor} {members : List (String × Json)} {v : Json},
    (members.map Prod.fst).Nodup → (∀ m ∈ members, Distinct m.2) →
    readMembers fuel c members = .ok (v, c') → v.Distinct

namespace ReadsDistinct

variable {fuel : Nat} {c c' : Cursor} {v : Json}

theorem value_succ (ih : ReadsDistinct fuel) (h : readValue (fuel + 1) c = .ok (v, c')) :
    v.Distinct := by
  have hnoItem : ∀ v ∈ ([] : List Json), Distinct v := nofun
  have hnoName : (([] : List (String × Json)).map Prod.fst).Nodup := List.nodup_nil
  have hnoMember : ∀ m ∈ ([] : List (String × Json)), Distinct m.2 := nofun
  rw [readValue] at h
  split at h
  · obtain ⟨⟨s, c₁⟩, -, h⟩ := exists_of_bind_eq_ok h
    cases h
    exact .str s
  · dsimp only at h
    split at h
    · cases h
      exact .arr hnoItem
    · exact ih.items hnoItem h
  · dsimp only at h
    split at h
    · cases h
      exact .obj hnoName hnoMember
    · exact ih.members hnoName hnoMember h
  · exact distinct_of_readAtom h

theorem items_succ (ih : ReadsDistinct fuel) {items : List Json} (hitems : ∀ w ∈ items, Distinct w)
    (h : readItems (fuel + 1) c items = .ok (v, c')) : v.Distinct := by
  rw [readItems] at h
  obtain ⟨⟨w, c₁⟩, hw, h⟩ := exists_of_bind_eq_ok h
  have hcons := List.forall_mem_cons.mpr ⟨ih.value hw, hitems⟩
  dsimp only at h
  split at h
  · cases h
    exact .arr fun x hx => hcons x (List.mem_reverse.mp hx)
  · exact ih.items hcons h
  · cases h

theorem members_succ (ih : ReadsDistinct fuel) {members : List (String × Json)}
    (hnames : (members.map Prod.fst).Nodup) (hmembers : ∀ m ∈ members, Distinct m.2)
    (h : readMembers (fuel + 1) c members = .ok (v, c')) : v.Distinct := by
  rw [readMembers] at h
  split at h
  · obtain ⟨⟨k, c₁⟩, -, h⟩ := exists_of_bind_eq_ok h
    dsimp only at h
    split at h
    · obtain ⟨⟨w, c₂⟩, hw, h⟩ := exists_of_bind_eq_ok h
      have hset := distinct_setMember k (ih.value hw) hmembers
      have hsetNames := nodup_setMember k w hnames
      dsimp only at h
      split at h
      · cases h
        exact .obj hsetNames hset
      · exact ih.members hsetNames hset h
      · cases h
    · cases h
  · cases h

end ReadsDistinct

theorem readsDistinct (fuel : Nat) : ReadsDistinct fuel := by
  induction fuel with
  | zero => exact ⟨nofun, nofun, nofun⟩
  | succ fuel ih => exact ⟨ih.value_succ, ih.items_succ, ih.members_succ⟩

/-- The objects of a document that was read have distinct member names. -/
theorem distinct_of_parse {text : String} {v : Json} (h : parse text = .ok v) : v.Distinct := by
  unfold parse at h
  cases hread : readText text.toList with
  | error fault =>
    rw [hread] at h
    cases h
  | ok w =>
    rw [hread] at h
    cases h
    unfold readText at hread
    dsimp only at hread
    split at hread
    · cases hread
    · obtain ⟨⟨v, c⟩, hv, hread⟩ := exists_of_bind_eq_ok hread
      dsimp only at hread
      split at hread
      · cases hread
        exact (readsDistinct _).value hv
      · cases hread

end Json

end DartModels
