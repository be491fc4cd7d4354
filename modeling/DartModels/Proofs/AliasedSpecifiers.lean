import DartModels.Modules
import DartModels.Proofs.SourceDirectory

/-!
# Specifiers after aliases

Whether a specifier is taken from the directory of the importing file is decided on what the aliases
make of it.  So a specifier that has no leading dot of its own names one module in every file exactly
if the aliases give it none, and a table whose targets start with something else never does.

    what one alias leaves has no leading dot                                    (noLeadingDot_step)
    what all of them leave has none                                       (noLeadingDot_substitute)
    two directories tell a leading dot apart                          (exists_normalize_join_ne)
    the same path from every directory ↔ no leading dot after the aliases      (resolve_same_iff)
-/

namespace DartModels

/-! ## Leading dots -/

namespace Aliases

/-- Whether a specifier starts with something else than a dot. -/
def NoLeadingDot (specifier : List Char) : Prop := specifier.head? ≠ some '.'

instance (specifier : List Char) : Decidable (NoLeadingDot specifier) :=
  inferInstanceAs (Decidable (specifier.head? ≠ some '.'))

/-- A table whose targets all start with something else than a dot. -/
def Anchoring (a : Aliases) : Prop :=
  ∀ entry ∈ a.entries, entry.2 ≠ "" ∧ NoLeadingDot entry.2.toList

theorem noLeadingDot_append {target : List Char} (hne : target ≠ []) (h : NoLeadingDot target)
    (rest : List Char) : NoLeadingDot (target ++ rest) := by
  unfold NoLeadingDot at h ⊢
  rwa [List.head?_append_of_ne_nil _ hne]

theorem noLeadingDot_step {entry : String × String} (hne : entry.2 ≠ "")
    (htarget : NoLeadingDot entry.2.toList) {state : Bool × List Char}
    (hstate : NoLeadingDot state.2) : NoLeadingDot (step state entry).2 := by
  unfold step
  split
  · exact noLeadingDot_append (mt String.toList_eq_nil_iff.mp hne) htarget _
  · exact hstate

/-- Aliases whose targets have no leading dot give none to a specifier, whichever of them apply and
to whatever the ones before have left. -/
theorem noLeadingDot_substitute {a : Aliases} (ha : a.Anchoring) {specifier : List Char}
    (h : NoLeadingDot specifier) : NoLeadingDot (a.substitute specifier).2 := by
  unfold substitute
  refine List.foldlRecOn (motive := fun state : Bool × List Char => NoLeadingDot state.2)
    a.entries _ h ?_
  intro state hstate entry hentry
  obtain ⟨hne, htarget⟩ := ha entry hentry
  exact noLeadingDot_step hne htarget hstate

end Aliases

namespace Path

theorem plain_singleton {c : Char} (hdot : c ≠ '.') (hslash : c ≠ '/') : Plain [c] :=
  ⟨⟨by simp [isNamed, dot, hdot], by simpa using hslash.symm⟩, by simp [dotDot]⟩

/-- Two directories without a common part, both deeper than the path climbs, tell it apart. -/
theorem exists_normalize_join_ne {p : String} (hp : ¬isRooted p.toList = true) :
    ∃ a b : String, a ≠ "" ∧ b ≠ "" ∧ normalize (join a p) ≠ normalize (join b p) := by
  have hplain : ∀ {c : Char}, c ≠ '.' → c ≠ '/' →
      ∀ q ∈ List.replicate (climbs p + 1) [c], Plain q := by
    intro c hdot hslash q hq
    rw [List.eq_of_mem_replicate hq]
    exact plain_singleton hdot hslash
  have ha := @hplain 'a' (by decide) (by decide)
  have hb := @hplain 'b' (by decide) (by decide)
  have hproper : ∀ {c : Char}, (∀ q ∈ List.replicate (climbs p + 1) [c], Plain q) →
      ∀ q ∈ (List.replicate (climbs p + 1) [c]).rdrop (climbs p) ++ descent p, Proper q := by
    intro c h q hq
    rcases List.mem_append.mp hq with hq | hq
    · exact (h q (List.mem_of_mem_take hq)).toProper
    · exact (plain_descent p q hq).toProper
  have hleft : ∀ c : Char, (List.replicate (climbs p + 1) [c]).rdrop (climbs p) = [[c]] := by
    intro c
    simp [List.rdrop]
  have hne : ∀ parts : List Part, String.ofList (rooted 1 parts) ≠ "" := by
    intro parts h
    have hnil : rooted 1 parts = [] := by simpa using congrArg String.toList h
    simp [rooted] at hnil
  refine ⟨_, _, hne (List.replicate (climbs p + 1) ['a']),
    hne (List.replicate (climbs p + 1) ['b']), ?_⟩
  rw [normalize_join_rooted (Or.inl rfl) ha hp, normalize_join_rooted (Or.inl rfl) hb hp,
    Ne, String.ofList_inj, rooted_inj (by decide) (by decide) (hproper ha) (hproper hb),
    List.append_cancel_right_eq, hleft, hleft]
  rintro ⟨-, h⟩
  exact absurd h (by decide)

end Path

/-! ## One module in every file -/

namespace Modules

variable {m : Modules} {specifier cwd root : String}

/-- What the aliases make of a specifier. -/
def rewritten (m : Modules) (specifier : String) : List Char :=
  (m.aliases.substitute specifier.toList).2

theorem startDirectory_some {dir : String} (h : dir ≠ "") :
    m.startDirectory (some dir) = .ok dir := by
  show (if dir.isEmpty = true then m.cwd.asPath else .ok dir) = .ok dir
  rw [if_neg (by simpa using h)]

/-- A specifier that has a leading dot after the aliases is a path from the start directory. -/
theorem resolve_leadingDot (h : ¬Aliases.NoLeadingDot (m.rewritten specifier))
    (base : Option String) :
    m.resolve specifier base =
      (m.startDirectory base).map fun dir =>
        Path.normalize (Path.join dir (String.ofList (m.rewritten specifier))) := by
  unfold Aliases.NoLeadingDot rewritten at h
  have hhead := Decidable.not_not.mp h
  unfold resolve isPath rewritten
  cases hs : m.aliases.substitute specifier.toList with
  | mk aliased chars =>
    rw [hs] at hhead
    dsimp only at hhead ⊢
    rw [hhead]
    cases m.startDirectory base <;> simp <;> rfl

/-- A specifier without one is not taken from the directory of the importing file. -/
theorem resolve_noLeadingDot (h : Aliases.NoLeadingDot (m.rewritten specifier))
    (base base' : Option String) : m.resolve specifier base = m.resolve specifier base' := by
  unfold Aliases.NoLeadingDot rewritten at h
  unfold resolve
  cases hs : m.aliases.substitute specifier.toList with
  | mk aliased chars =>
    rw [hs] at h
    have hhead : ¬(chars.head? == some '.') = true := by simpa using h
    dsimp only
    simp only [if_neg hhead]

theorem exists_resolve (hcwd : m.cwd = .str cwd) (hroot : m.root = .str root) (specifier : String) :
    ∃ path, m.resolve specifier none = .ok path := by
  unfold resolve startDirectory
  rw [hcwd, hroot]
  cases hs : m.aliases.substitute specifier.toList with
  | mk aliased chars =>
    dsimp only [Json.asPath]
    split
    · exact ⟨_, rfl⟩
    · split
      · exact ⟨_, rfl⟩
      · exact ⟨_, rfl⟩

/-- A specifier is resolved to the same from every directory exactly if it has no leading dot after
the aliases. -/
theorem resolve_same_iff : (∀ base base', m.resolve specifier base = m.resolve specifier base') ↔
    Aliases.NoLeadingDot (m.rewritten specifier) := by
  constructor
  · intro hsame
    by_contra hdot
    have hp : ¬Path.isRooted (String.ofList (m.rewritten specifier)).toList = true := by
      have hhead := Decidable.not_not.mp hdot
      rw [String.toList_ofList]
      simp [Path.isRooted, hhead]
    obtain ⟨a, b, ha, hb, hne⟩ := Path.exists_normalize_join_ne hp
    have hab := hsame (some a) (some b)
    rw [resolve_leadingDot hdot, resolve_leadingDot hdot, startDirectory_some ha,
      startDirectory_some hb] at hab
    exact hne (Except.ok.inj hab)
  · exact resolve_noLeadingDot

/-- A specifier without a leading dot has one path from every directory and from none exactly if it
has no leading dot after the aliases either, and then it names one source file in every file.  No
table gives it one whose targets all start with something else. -/
theorem resolve_independent_iff (hcwd : m.cwd = .str cwd) (hroot : m.root = .str root)
    (hspecifier : Aliases.NoLeadingDot specifier.toList) :
    ((∃ path, ∀ base, m.resolve specifier base = .ok path) ↔
      Aliases.NoLeadingDot (m.rewritten specifier)) ∧
    (Aliases.NoLeadingDot (m.rewritten specifier) → ∀ fs base base',
      m.resolveFile fs specifier base = m.resolveFile fs specifier base') ∧
    (m.aliases.Anchoring → Aliases.NoLeadingDot (m.rewritten specifier)) := by
  refine ⟨⟨?_, ?_⟩, ?_, fun htable => Aliases.noLeadingDot_substitute htable hspecifier⟩
  · rintro ⟨path, hpath⟩
    exact resolve_same_iff.mp fun base base' => (hpath base).trans (hpath base').symm
  · intro h
    obtain ⟨path, hpath⟩ := exists_resolve hcwd hroot specifier
    exact ⟨path, fun base => (resolve_noLeadingDot h base none).trans hpath⟩
  · intro h fs base base'
    unfold resolveFile
    rw [resolve_noLeadingDot h base base']

/-- A table whose second alias rewrites what the first one leaves. -/
def chained : Modules :=
  ⟨⟨[("@app", "src/app"), ("src", "/project/app")]⟩, .str "/project/app", .str "/project", .str ".ts"⟩

/-- The targets of two aliases that apply one after the other. -/
theorem resolve_chained :
    chained.aliases.Anchoring ∧
      ∀ base, chained.resolve "@app/user" base = .ok "/project/app/app/user" := by
  have htable : chained.aliases.Anchoring := by
    intro entry hentry
    obtain rfl | rfl : entry = ("@app", "src/app") ∨ entry = ("src", "/project/app") := by
      simpa [chained] using hentry
    · exact ⟨by decide, by decide⟩
    · exact ⟨by decide, by decide⟩
  obtain ⟨hiff, -, hdot⟩ := @resolve_independent_iff chained "@app/user" "/project/app" "/project"
    rfl rfl (by decide)
  obtain ⟨path, hpath⟩ := hiff.mpr (hdot htable)
  have hnone : chained.resolve "@app/user" none = .ok "/project/app/app/user" := by cbv
  have heq : path = "/project/app/app/user" := Except.ok.inj ((hpath none).symm.trans hnone)
  exact ⟨htable, fun base => (hpath base).trans (congrArg Except.ok heq)⟩

/-- Settings with an alias for a directory beside the importing file. -/
def beside : SourceSettings :=
  { SourceSettings.default with
    aliases := some (.obj [("@", .str "./lib")]), cwd := .str "/s", root := .str "/" }

/-- An alias with a dotted target names another module in every directory. -/
theorem resolve_beside :
    Aliases.NoLeadingDot "@/x".toList ∧
      ∀ attributes, ∃ m, Modules.ofSettings attributes beside = .ok m ∧ m.cwd = .str "/s" ∧
        m.root = .str "/" ∧
        m.resolve "@/x" (some "/a") = .ok "/a/lib/x" ∧
        m.resolve "@/x" (some "/b") = .ok "/b/lib/x" ∧
        m.resolve "@/x" none = .ok "/s/lib/x" := by
  refine ⟨by decide, fun attributes => ⟨⟨⟨[("@", "./lib")]⟩, .str "/s", .str "/", .str ".ts"⟩, by cbv,
    rfl, rfl, by cbv, by cbv, by cbv⟩⟩

end Modules

end DartModels
