import Mathlib
import DartModels.Proofs.ClassSearch
import DartModels.Syntax.TextReader

/-!
# The order of ancestors

A cache is sound if every source it shows stands under its own path and lists its own classes by
name.  An empty cache is sound, and steady work keeps it so.  In a sound cache no two classes that
can be found have the same key, which makes the depth-first order of the ancestors complete:

    keys of the ancestors = keys reached by at least one reference, the class's own aside
-/

namespace DartModels

namespace Project

variable {α : Type} {p : Project} {cache : SourceCache}

/-- Every source that a cache shows is one that was loaded under its path. -/
def Sound (p : Project) (cache : SourceCache) : Prop :=
  ∀ key s, p.shown cache key = .ok (some s) → s.path = key ∧ s.Keyed

theorem sound_of_shown (hcache : p.shown cache = p.load) : p.Sound cache :=
  fun key _ hs => load_keyed ((congrFun hcache key).symm.trans hs)

theorem sound_nil : p.Sound [] := sound_of_shown (shown_nil p)

theorem Sound.after {work : Loading α} (h : p.Sound cache) (hw : p.Steady work) :
    p.Sound (work.after cache) := by
  intro key s hs
  rw [hw.keeps] at hs
  exact h key s hs

/-- A class is declared by a source that the cache shows. -/
def Declares (p : Project) (cache : SourceCache) (c : EntityClass) : Prop :=
  ∃ path s, p.shown cache (p.files.absolute path) = .ok (some s) ∧
    s.classes.lookup c.name = some c

theorem Sound.lookup_eq (h : p.Sound cache) {path name : String} {s : Source} {c : EntityClass}
    (hs : p.shown cache (p.files.absolute path) = .ok (some s))
    (hc : s.classes.lookup name = some c) :
    c.name = name ∧ c.sourcePath = p.files.absolute path := by
  obtain ⟨hpath, hkeyed⟩ := h _ s hs
  obtain ⟨hname, hsource⟩ := hkeyed _ (mem_of_lookup hc)
  exact ⟨hname, hsource.trans hpath⟩

theorem Sound.declares_found (h : p.Sound cache) {c d : EntityClass} (hd : p.Refers cache c d) :
    p.Declares cache d := by
  obtain ⟨name, -, hlook⟩ := refers_iff.mp hd
  obtain ⟨path, s, hs, hd⟩ := findClass_eq_some hlook
  refine ⟨path, s, hs, ?_⟩
  rw [(h.lookup_eq hs hd).1]
  exact hd

theorem Sound.declares_reached (h : p.Sound cache) {c d : EntityClass} (hc : p.Declares cache c)
    (hd : Relation.ReflTransGen (p.Refers cache) c d) : p.Declares cache d := by
  cases hd with
  | refl => exact hc
  | tail _ hd => exact h.declares_found hd

/-- A key tells declared classes apart. -/
theorem Sound.eq_of_key_eq (h : p.Sound cache) {c d : EntityClass} (hc : p.Declares cache c)
    (hd : p.Declares cache d) (hkey : c.key = d.key) : c = d := by
  obtain ⟨path, s, hs, hc⟩ := hc
  obtain ⟨path', s', hs', hd⟩ := hd
  have hpath : p.files.absolute path = p.files.absolute path' := by
    rw [← (h.lookup_eq hs hc).2, ← (h.lookup_eq hs' hd).2]
    exact congrArg Prod.fst hkey
  have hname : c.name = d.name := congrArg Prod.snd hkey
  rw [hpath, hs'] at hs
  cases hs
  rw [hname, hd] at hc
  exact (Option.some.inj hc).symm

/-- The ancestors of a declared class are the classes that references lead to, each once and in
depth-first order without the class itself, and no look-up on the way fails. -/
theorem of_ancestors_eq_ok (h : p.Sound cache) {c : EntityClass} (hc : p.Declares cache c)
    {above : List EntityClass} (ha : (p.ancestors c).result cache = .ok above) :
    (∃ met, DepthFirst EntityClass.key (p.parents cache) [c.key] (p.parents cache c) above met) ∧
      (above.map EntityClass.key).Nodup ∧
      (∀ k, k ∈ above.map EntityClass.key ↔
        k ≠ c.key ∧ ∃ d, Relation.TransGen (p.Refers cache) c d ∧ d.key = k) ∧
      ∀ d, Relation.ReflTransGen (p.Refers cache) c d → d ∈ c :: above ∧ ∀ e, ¬p.Fails cache d e := by
  have hex := explored_ancestors (p := p) c cache
  rw [ha] at hex
  obtain ⟨⟨met, hdf⟩, hsafe⟩ := hex
  have hkey : ∀ a b, Relation.ReflTransGen (p.Refers cache) c a →
      Relation.ReflTransGen (p.Refers cache) c b → a.key = b.key → a = b :=
    fun a b ha hb => h.eq_of_key_eq (h.declares_reached hc ha) (h.declares_reached hc hb)
  have hkeys := hdf.mem_keys_iff fun a b ha hb e => congrArg _ (hkey a b ha hb e)
  refine ⟨⟨met, hdf⟩, hdf.nodup, hkeys, fun d hd => ?_⟩
  -- a class that is reached is the class itself or one of its ancestors
  have hmem : d ∈ c :: above := by
    by_cases hown : d.key = c.key
    · rw [hkey d c hd .refl hown]
      exact List.mem_cons_self
    · have hstep : Relation.TransGen (p.Refers cache) c d := by
        rcases Relation.reflTransGen_iff_eq_or_transGen.mp hd with rfl | hd
        · exact absurd rfl hown
        · exact hd
      obtain ⟨d', hd', e⟩ := List.mem_map.mp ((hkeys d.key).mpr ⟨hown, d, hstep, rfl⟩)
      obtain ⟨a, ha, had⟩ := hdf.reached d' hd'
      rw [← hkey d' d (.head ha had) hd e]
      exact List.mem_cons_of_mem _ hd'
  exact ⟨hmem, hsafe d hmem⟩

/-- The search for the ancestors of a declared class ends by itself: a larger bound changes nothing.
Either it gives the classes that references lead to, each once and in depth-first order without the
class itself, and no look-up on the way fails, or it gives the error of a look-up that fails. -/
theorem ancestors_depthFirst (h : p.Sound cache) {c : EntityClass} (hc : p.Declares cache c) :
    (∀ fuel, p.classBound cache ≤ fuel →
      ((p.ancestorsFrom fuel c [c.key]).result cache).map Prod.fst =
        (p.ancestors c).result cache) ∧
    match (p.ancestors c).result cache with
    | .ok above =>
      (∃ met, DepthFirst EntityClass.key (p.parents cache) [c.key] (p.parents cache c) above met) ∧
        (above.map EntityClass.key).Nodup ∧
        (∀ k, k ∈ above.map EntityClass.key ↔
          k ≠ c.key ∧ ∃ d, Relation.TransGen (p.Refers cache) c d ∧ d.key = k) ∧
        ∀ d, Relation.ReflTransGen (p.Refers cache) c d → ∀ e, ¬p.Fails cache d e
    | .error e => ∃ d, Relation.ReflTransGen (p.Refers cache) c d ∧ p.Fails cache d e := by
  have hcover : ∀ c name d, p.found cache c name = some d → d.key ∈ p.classKeys cache :=
    fun _ _ _ hd => found_mem_classKeys hd
  refine ⟨fun fuel hfuel => ?_, ?_⟩
  · have hlt := unmet_lt_classBound (p := p) cache [c.key]
    rw [ancestors_result,
      ancestorsFrom_congr hcover hcover c [c.key] (Nat.lt_of_lt_of_le hlt hfuel) hlt]
  · cases ha : (p.ancestors c).result cache with
    | error e =>
      have hex := explored_ancestors (p := p) c cache
      rw [ha] at hex
      exact hex
    | ok above =>
      obtain ⟨hdf, hnodup, hkeys, hsafe⟩ := of_ancestors_eq_ok h hc ha
      exact ⟨hdf, hnodup, hkeys, fun d hd => (hsafe d hd).2⟩

/-! ## A cycle -/

/-- A source tree whose only file is `/a.ts`, with the settings that a document may leave out. -/
def ofText (text : String) : Project where
  reader := Syntax.textReader
  files := ⟨[(["a.ts".toList], .file (text.toList.map fun c => UInt8.ofNat c.toNat))], []⟩
  settings := { SourceSettings.default with cwd := .str "/" }
  rule := ⟨.decorators, .str "Entity"⟩
  modules := ⟨⟨[]⟩, .str "/", .str "..", .str ".ts"⟩

theorem absolute_ofText (text : String) : (ofText text).files.absolute "/a.ts" = "/a.ts" := by
  have hplain : ∀ q ∈ ["a.ts".toList], Path.Plain q :=
    List.forall_mem_singleton.mpr ⟨⟨by decide, by decide⟩, by decide⟩
  have hpath : "/a.ts" = String.ofList (Path.rooted 1 ["a.ts".toList]) := by decide
  rw [hpath, FileSystem.absolute, Path.absolute_rooted _ (Or.inl rfl) hplain]

theorem declares_ofText {text : String} {s : Source} (hs : (ofText text).load "/a.ts" = .ok (some s))
    {c : EntityClass} (hc : s.classes.lookup c.name = some c) : (ofText text).Declares [] c := by
  refine ⟨"/a.ts", s, ?_, hc⟩
  rw [shown_nil, absolute_ofText]
  exact hs

theorem findClass_ofText {text : String} {s : Source}
    (hs : (ofText text).load "/a.ts" = .ok (some s)) (himports : s.imports = []) {c : EntityClass}
    (hc : c.sourcePath = "/a.ts") (name : String) :
    ((ofText text).findClass c name).result [] = .ok (s.classes.lookup name) := by
  rw [findClass_result, shown_nil, hc, absolute_ofText, hs]
  dsimp only
  rw [himports, List.lookup_nil, Option.getD_none, (load_keyed hs).1, absolute_ofText, hs]

/-- Two classes that extend each other. -/
def cycle : Project := ofText "class A extends B{}class B extends A{}"

theorem load_cycle :
    (cycle.load "/a.ts").map (fun r => r.map fun s =>
      (s.imports, s.classes.map fun e => (e.1, e.2.key, e.2.heritage))) =
    .ok (some ([], [("A", ("/a.ts", "A"), ["B"]), ("B", ("/a.ts", "B"), ["A"])])) := by
  cbv

theorem exists_of_map_eq_ok {α : Type} {r : Except Error (Option Source)} {f : Source → α} {a : α}
    (h : r.map (fun o => o.map f) = .ok (some a)) : ∃ s, r = .ok (some s) ∧ f s = a := by
  rcases r with e | s | s
  · cases h
  · cases h
  · exact ⟨s, rfl, Option.some.inj (Except.ok.inj h)⟩

/-- In a cycle of two classes, each has the other one as its only ancestor. -/
theorem ancestors_cycle :
    ∃ c above, cycle.Declares [] c ∧ c.key = ("/a.ts", "A") ∧
      (cycle.ancestors c).result [] = .ok above ∧
      ∀ k, k ∈ above.map EntityClass.key ↔ k = ("/a.ts", "B") := by
  obtain ⟨s, hs, hload⟩ := exists_of_map_eq_ok load_cycle
  simp only [Prod.mk.injEq, List.map_eq_cons_iff, List.map_eq_nil_iff] at hload
  obtain ⟨himports, ⟨_, a⟩, _, hclasses, ⟨rfl, ha, haH⟩, ⟨_, b⟩, _, rfl, ⟨rfl, hb, hbH⟩, rfl⟩ := hload
  have hfa : ∀ name, (cycle.findClass a name).result [] = .ok (s.classes.lookup name) :=
    findClass_ofText hs himports (congrArg Prod.fst ha)
  have hfb : ∀ name, (cycle.findClass b name).result [] = .ok (s.classes.lookup name) :=
    findClass_ofText hs himports (congrArg Prod.fst hb)
  have hra : ∀ d, cycle.Refers [] a d ↔ d = b := fun d => by
    simp [refers_iff, haH, hfa, hclasses, List.lookup_cons, eq_comm]
  have hrb : ∀ d, cycle.Refers [] b d ↔ d = a := fun d => by
    simp [refers_iff, hbH, hfb, hclasses, eq_comm]
  have hreach : ∀ d, Relation.ReflTransGen (cycle.Refers []) a d → d = a ∨ d = b := by
    intro d hd
    induction hd with
    | refl => exact Or.inl rfl
    | tail _ hd ih =>
      rcases ih with rfl | rfl
      · exact Or.inr ((hra _).mp hd)
      · exact Or.inl ((hrb _).mp hd)
  have hdecl : cycle.Declares [] a := by
    have hname : a.name = "A" := congrArg Prod.snd ha
    exact declares_ofText hs (by simp [hname, hclasses])
  have hmain := (ancestors_depthFirst sound_nil hdecl).2
  cases hr : (cycle.ancestors a).result [] with
  | error e =>
    rw [hr] at hmain
    obtain ⟨d, hd, name, hn, hfail⟩ := hmain
    rcases hreach d hd with rfl | rfl
    · rw [hfa] at hfail
      cases hfail
    · rw [hfb] at hfail
      cases hfail
  | ok above =>
    rw [hr] at hmain
    obtain ⟨-, -, hkeys, -⟩ := hmain
    refine ⟨a, above, hdecl, ha, hr, fun k => (hkeys k).trans ⟨?_, ?_⟩⟩
    · rintro ⟨hne, d, hd, rfl⟩
      rcases hreach d hd.to_reflTransGen with rfl | rfl
      · exact absurd rfl hne
      · exact hb
    · rintro rfl
      exact ⟨by simp [ha], b, .single ((hra b).mpr rfl), hb⟩

end Project

end DartModels
