import DartModels.Proofs.DepthFirst
import DartModels.Proofs.LoadedSource

/-!
# Classes that look-ups find

Looking up a class is steady, and finds only classes of sources that the cache shows.  Their keys
are among finitely many, `classKeys`, fewer than the bound on the depth of the search.

    (p.findClass c name).result cache = .ok (some d) → d.key ∈ p.classKeys cache   (key_mem_classKeys)
    (p.classKeys cache).length < p.classBound cache                              (length_classKeys_lt)
    k ∈ cover → k ∉ met → unmet cover (k :: met) < unmet cover met                     (unmet_cons_lt)
-/

namespace DartModels

namespace Project

variable {p : Project} {cache : SourceCache}

/-! ## Look-ups -/

theorem steady_findClass (c : EntityClass) (name : String) : p.Steady (p.findClass c name) := by
  refine steady_bind (steady_importSource _) fun source => ?_
  cases source with
  | none => exact steady_pure _
  | some source =>
    refine steady_bind (steady_importSource _) fun target => ?_
    cases target with
    | none => exact steady_pure _
    | some target => exact steady_pure _

/-- What a look-up gives, from what the cache shows for the two files it goes through. -/
theorem findClass_result (c : EntityClass) (name : String) :
    (p.findClass c name).result cache =
      match p.shown cache (p.files.absolute c.sourcePath) with
      | .error e => .error e
      | .ok none => .ok none
      | .ok (some source) =>
        match p.shown cache (p.files.absolute ((source.imports.lookup name).getD source.path)) with
        | .error e => .error e
        | .ok none => .ok none
        | .ok (some target) => .ok (target.classes.lookup name) := by
  unfold findClass
  have hfirst := p.importSource_result c.sourcePath cache
  have hkeeps := p.shown_importSource c.sourcePath cache
  cases hs : p.shown cache (p.files.absolute c.sourcePath) with
  | error e => exact Loading.result_bind_error (hfirst.trans hs) _
  | ok source =>
    rw [Loading.result_bind_ok (hfirst.trans hs)]
    cases source with
    | none => rfl
    | some source =>
      dsimp only
      have hsecond := p.importSource_result ((source.imports.lookup name).getD source.path)
        ((p.importSource c.sourcePath).after cache)
      rw [hkeeps] at hsecond
      cases ht : p.shown cache
          (p.files.absolute ((source.imports.lookup name).getD source.path)) with
      | error e => exact Loading.result_bind_error (hsecond.trans ht) _
      | ok target =>
        rw [Loading.result_bind_ok (hsecond.trans ht)]
        cases target <;> rfl

theorem findClass_eq_some {c d : EntityClass} {name : String}
    (h : (p.findClass c name).result cache = .ok (some d)) :
    ∃ path s, p.shown cache (p.files.absolute path) = .ok (some s) ∧
      s.classes.lookup name = some d := by
  rw [findClass_result] at h
  split at h
  · cases h
  · cases h
  · next source _ =>
    split at h
    · cases h
    · cases h
    · next target ht => exact ⟨_, target, ht, Except.ok.inj h⟩

/-! ## The classes that look-ups can find -/

/-- The keys of the classes of an outcome. -/
def keysOf : LoadOutcome → List (String × String)
  | .ok (some s) => s.classes.map fun entry => entry.2.key
  | _ => []

/-- The keys of the classes of a file, under the absolute path with given root slashes. -/
def keysAt (p : Project) (root : Nat) (loc : Location) (entry : Entry) :
    List (String × String) :=
  let path := String.ofList (Path.rooted root loc)
  match p.files.stat path with
  | .ok found => if found = entry then keysOf (p.load path) else []
  | .error _ => []

/-- The keys of all classes that are cached or can be loaded. -/
def classKeys (p : Project) (cache : SourceCache) : List (String × String) :=
  (cache.flatMap fun kept => keysOf kept.2) ++
    p.files.entries.flatMap fun e => p.keysAt 1 e.1 e.2 ++ p.keysAt 2 e.1 e.2

theorem length_keysOf (outcome : LoadOutcome) : (keysOf outcome).length = loadedClasses outcome := by
  unfold keysOf loadedClasses
  split <;> simp

theorem length_keysAt (root : Nat) (loc : Location) (entry : Entry) :
    (p.keysAt root loc entry).length ≤ p.entrySize entry := by
  unfold keysAt
  dsimp only
  split
  · next found hfound =>
    split
    · next he =>
      cases hl : p.load (String.ofList (Path.rooted root loc)) with
      | error e => exact Nat.zero_le _
      | ok outcome =>
        cases outcome with
        | none => exact Nat.zero_le _
        | some s =>
          obtain ⟨content, hstat, hlen⟩ := length_classes hl
          rw [hstat] at hfound
          cases hfound
          rw [← he, length_keysOf]
          exact hlen
    · exact Nat.zero_le _
  · exact Nat.zero_le _

theorem length_flatMap_le {α β : Type} {f : α → List β} {size : α → Nat}
    (h : ∀ a, (f a).length ≤ size a) (l : List α) :
    (l.flatMap f).length ≤ l.foldr (fun a n => size a + n) 0 := by
  induction l with
  | nil => exact Nat.le_refl _
  | cons a l ih =>
    rw [List.flatMap_cons, List.length_append, List.foldr_cons]
    exact Nat.add_le_add (h a) ih

theorem length_classKeys_lt (cache : SourceCache) :
    (p.classKeys cache).length < p.classBound cache := by
  have hcache := length_flatMap_le (fun kept => Nat.le_of_eq (length_keysOf kept.2)) cache
  have hfile : ∀ e : Location × Entry,
      (p.keysAt 1 e.1 e.2 ++ p.keysAt 2 e.1 e.2).length ≤ 2 * p.entrySize e.2 := fun e => by
    have h₁ := length_keysAt (p := p) 1 e.1 e.2
    have h₂ := length_keysAt (p := p) 2 e.1 e.2
    rw [List.length_append]
    omega
  have hfiles := length_flatMap_le hfile p.files.entries
  have htwo : ∀ es : List (Location × Entry),
      es.foldr (fun e n => 2 * p.entrySize e.2 + n) 0 =
        2 * es.foldr (fun e n => p.entrySize e.2 + n) 0 := by
    intro es
    induction es with
    | nil => rfl
    | cons e es ih =>
      rw [List.foldr_cons, List.foldr_cons, ih]
      omega
  rw [htwo] at hfiles
  unfold classKeys classBound
  rw [List.length_append]
  dsimp only
  omega

theorem key_mem_keysOf {s : Source} {name : String} {c : EntityClass}
    (h : s.classes.lookup name = some c) : c.key ∈ keysOf (.ok (some s)) :=
  List.mem_map.mpr ⟨(name, c), mem_of_lookup h, rfl⟩

theorem mem_classKeys {path : String} {s : Source} {name : String} {c : EntityClass}
    (hs : p.shown cache (p.files.absolute path) = .ok (some s))
    (hc : s.classes.lookup name = some c) : c.key ∈ p.classKeys cache := by
  unfold shown at hs
  cases hk : cache.lookup (p.files.absolute path) with
  | some outcome =>
    rw [hk, Option.getD_some] at hs
    exact List.mem_append_left _
      (List.mem_flatMap.mpr ⟨_, mem_of_lookup hk, hs ▸ key_mem_keysOf hc⟩)
  | none =>
    rw [hk, Option.getD_none] at hs
    obtain ⟨root, parts, hr, hparts, habs⟩ := p.files.exists_rooted_absolute path
    rw [habs] at hs
    obtain ⟨content, hstat, -⟩ := length_classes hs
    have hkeys : c.key ∈ p.keysAt root parts (.file content) := by
      unfold keysAt
      simp only [hstat, if_true, hs]
      exact key_mem_keysOf hc
    have hentry : (parts, Entry.file content) ∈ p.files.entries := by
      obtain ⟨loc, hl, he⟩ := FileSystem.stat_eq_ok hstat
      rw [← FileSystem.locate_rooted hr hparts hl]
      exact FileSystem.mem_of_lookup_file he
    refine List.mem_append_right _ (List.mem_flatMap.mpr ⟨_, hentry, ?_⟩)
    rcases hr with rfl | rfl
    · exact List.mem_append_left _ hkeys
    · exact List.mem_append_right _ hkeys

theorem key_mem_classKeys {c d : EntityClass} {name : String}
    (h : (p.findClass c name).result cache = .ok (some d)) : d.key ∈ p.classKeys cache := by
  obtain ⟨path, s, hs, hd⟩ := findClass_eq_some h
  exact mem_classKeys hs hd

/-! ## Keys that were not met -/

/-- How many keys of a list were not met. -/
def unmet (cover : List (String × String)) (met : Visited) : Nat :=
  (cover.filter fun k => !met.contains k).length

theorem unmet_le (cover : List (String × String)) {met met' : Visited} (h : met ⊆ met') :
    unmet cover met' ≤ unmet cover met := by
  unfold unmet
  rw [← List.countP_eq_length_filter, ← List.countP_eq_length_filter]
  refine List.countP_mono_left fun k _ hk => ?_
  simp only [Bool.not_eq_true', List.contains_eq_mem, decide_eq_false_iff_not] at hk ⊢
  exact fun hm => hk (h hm)

theorem unmet_cons_lt {cover : List (String × String)} {met : Visited} {k : String × String}
    (hc : k ∈ cover) (hm : k ∉ met) : unmet cover (k :: met) < unmet cover met := by
  have hsub : (cover.filter fun j => !(k :: met).contains j) =
      (cover.filter fun j => !met.contains j).filter fun j => !(j == k) := by
    rw [List.filter_filter]
    refine List.filter_congr fun j _ => ?_
    rw [List.contains_cons, Bool.not_or]
  unfold unmet
  rw [hsub]
  refine List.length_filter_lt_length_iff_exists.mpr ⟨k, ?_, by simp⟩
  exact List.mem_filter.mpr ⟨hc, by simpa using hm⟩

end Project

end DartModels
