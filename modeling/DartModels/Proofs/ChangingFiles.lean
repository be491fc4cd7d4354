import DartModels.Proofs.Sessions

/-!
# Sessions on files that change

Between the steps of a session files may be made, changed and removed.  All work on sources does to
the cache what importing some paths does, and importing a path adds an entry or nothing.  So the
cache of a session only grows at its end, an absolute path has one entry, loaded from the files of
the step that asked for it first, and every spelling of the path is answered from that entry.

    work.after cache = p.importAll cache paths                                  (imports_parseFile)
    p.importAll cache paths = cache ++ new, each entry of new loaded once              (importAll_eq)
    (p.play (steps ++ later)).cache = (p.play steps).cache ++ new                 (prefix_play_append)
-/

namespace DartModels

namespace Project

variable {p : Project} {α β σ : Type}

/-! ## Work that imports -/

/-- The cache after importing some paths. -/
def importAll (p : Project) (cache : SourceCache) (paths : List String) : SourceCache :=
  paths.foldl (fun cache path => (p.importSource path).after cache) cache

/-- Work that does to the cache what importing some paths does. -/
def Imports (p : Project) (work : Loading α) : Prop :=
  ∀ cache, ∃ paths, work.after cache = p.importAll cache paths

theorem imports_pure (a : α) : p.Imports (pure a) := fun _ => ⟨[], rfl⟩

theorem imports_lift (r : Except Error α) : p.Imports (liftM r) := fun _ => ⟨[], rfl⟩

theorem imports_throw (e : Error) : p.Imports (throw e : Loading α) := fun _ => ⟨[], rfl⟩

theorem imports_importSource (path : String) : p.Imports (p.importSource path) :=
  fun _ => ⟨[path], rfl⟩

theorem imports_bind {x : Loading α} {f : α → Loading β} (hx : p.Imports x)
    (hf : ∀ a, p.Imports (f a)) : p.Imports (x >>= f) := by
  intro cache
  obtain ⟨first, hfirst⟩ := hx cache
  cases hr : x.result cache with
  | error e => exact ⟨first, (Loading.after_bind_error hr f).trans hfirst⟩
  | ok a =>
    obtain ⟨rest, hrest⟩ := hf a (x.after cache)
    refine ⟨first ++ rest, ?_⟩
    rw [Loading.after_bind_ok hr, hrest, hfirst]
    exact List.foldl_append.symm

theorem imports_foldlM {f : σ → α → Loading σ} (hf : ∀ s a, p.Imports (f s a)) (l : List α)
    (s : σ) : p.Imports (l.foldlM f s) := by
  induction l generalizing s with
  | nil => exact imports_pure s
  | cons a l ih =>
    rw [List.foldlM_cons]
    exact imports_bind (hf s a) ih

theorem imports_mapM {f : α → Loading β} (hf : ∀ a, p.Imports (f a)) (l : List α) :
    p.Imports (l.mapM f) := by
  induction l with
  | nil => exact imports_pure []
  | cons a l ih =>
    rw [List.mapM_cons]
    exact imports_bind (hf a) fun _ => imports_bind ih fun _ => imports_pure _

theorem imports_findClass (c : EntityClass) (name : String) :
    p.Imports (p.findClass c name) := by
  refine imports_bind (imports_importSource _) fun source => ?_
  cases source with
  | none => exact imports_pure _
  | some source =>
    refine imports_bind (imports_importSource _) fun target => ?_
    cases target <;> exact imports_pure _

theorem imports_visit {deeper : EntityClass → Visited → Loading (List EntityClass × Visited)}
    (hdeeper : ∀ d met, p.Imports (deeper d met)) (c : EntityClass)
    (state : List EntityClass × Visited) (name : String) :
    p.Imports (p.visit c deeper state name) := by
  refine imports_bind (imports_findClass c name) fun target => ?_
  cases target with
  | none => exact imports_pure _
  | some parent =>
    show p.Imports (meet deeper state parent)
    unfold meet
    split
    · exact imports_pure _
    · exact imports_bind (hdeeper _ _) fun _ => imports_pure _

theorem imports_ancestorsFrom (fuel : Nat) (c : EntityClass) (met : Visited) :
    p.Imports (p.ancestorsFrom fuel c met) := by
  induction fuel generalizing c met with
  | zero => exact imports_pure _
  | succ fuel ih => exact imports_foldlM (imports_visit ih c) _ _

theorem imports_ancestors (c : EntityClass) : p.Imports (p.ancestors c) := by
  intro cache
  obtain ⟨paths, hpaths⟩ := imports_bind
    (imports_ancestorsFrom (p := p) (p.classBound cache) c [c.key])
    (fun above => imports_pure above.1) cache
  exact ⟨paths, hpaths⟩

theorem imports_addClass (fields : List Field) (declaring : EntityClass) :
    p.Imports (p.addClass fields declaring) := by
  refine imports_bind (imports_importSource _) fun source => ?_
  cases source with
  | none => exact imports_pure _
  | some source =>
    dsimp only
    split
    · exact imports_throw _
    · exact imports_lift _

theorem imports_fields (c : EntityClass) : p.Imports (p.fields c) :=
  imports_bind (imports_ancestors c) fun _ => imports_foldlM imports_addClass _ _

theorem imports_parseFile (file : String) : p.Imports (p.parseFile file) := by
  refine imports_bind (imports_lift _) fun dir =>
    imports_bind (imports_importSource _) fun source => ?_
  cases source with
  | none => exact imports_throw _
  | some source =>
    exact imports_mapM (fun c => imports_bind (imports_fields c) fun _ => imports_pure _) _

/-! ## What imports add -/

theorem lookup_append_of_some {cache : SourceCache} (new : SourceCache) {key : String}
    {outcome : LoadOutcome} (h : cache.lookup key = some outcome) :
    (cache ++ new).lookup key = some outcome := by
  rw [List.lookup_append, h, Option.some_or]

theorem mem_keys_iff {cache : SourceCache} {key : String} :
    key ∈ cache.map Prod.fst ↔ (cache.lookup key).isSome := by
  rw [List.lookup_isSome_iff, List.mem_map]
  constructor
  · rintro ⟨entry, hentry, rfl⟩
    exact ⟨entry, hentry, beq_self_eq_true _⟩
  · rintro ⟨entry, hentry, hkey⟩
    exact ⟨entry, hentry, (beq_iff_eq.mp hkey).symm⟩

/-- Entries that a cache gets: each for a path that had none and that some of `paths` spells, with
the outcome of loading it. -/
structure Adds (p : Project) (cache : SourceCache) (paths : List String) (new : SourceCache) :
    Prop where
  nodup : (new.map Prod.fst).Nodup
  absent : ∀ entry ∈ new, cache.lookup entry.1 = none
  loaded : ∀ entry ∈ new, entry.2 = p.load entry.1
  spelled : ∀ entry ∈ new, ∃ path ∈ paths, p.files.absolute path = entry.1

theorem importAll_eq (p : Project) (cache : SourceCache) (paths : List String) :
    ∃ new, p.importAll cache paths = cache ++ new ∧ p.Adds cache paths new := by
  induction paths generalizing cache with
  | nil => exact ⟨[], (List.append_nil cache).symm, ⟨List.nodup_nil, nofun, nofun, nofun⟩⟩
  | cons path paths ih =>
    have hafter : (p.importSource path).after cache = _ :=
      congrArg Prod.snd (p.importSource_exec path cache)
    obtain ⟨new, hnew, hadds⟩ := ih ((p.importSource path).after cache)
    have hmore : ∀ entry ∈ new, ∃ q ∈ path :: paths, p.files.absolute q = entry.1 := by
      intro entry hentry
      obtain ⟨q, hq, hkey⟩ := hadds.spelled entry hentry
      exact ⟨q, List.mem_cons_of_mem _ hq, hkey⟩
    cases hkept : cache.lookup (p.files.absolute path) with
    | some outcome =>
      rw [hkept] at hafter
      rw [hafter] at hnew hadds
      refine ⟨new, ?_, hadds.nodup, hadds.absent, hadds.loaded, hmore⟩
      exact (congrArg (p.importAll · paths) hafter).trans hnew
    | none =>
      rw [hkept] at hafter
      rw [hafter] at hnew hadds
      -- an entry of a later path has no entry yet, neither in the cache nor for this path
      have habsent : ∀ entry ∈ new, cache.lookup entry.1 = none ∧
          entry.1 ≠ p.files.absolute path := by
        intro entry hentry
        have h := hadds.absent entry hentry
        rw [List.lookup_append, Option.or_eq_none_iff] at h
        refine ⟨h.1, fun hkey => ?_⟩
        rw [hkey, List.lookup_cons_self] at h
        exact absurd h.2 (Option.some_ne_none _)
      refine ⟨(p.files.absolute path, p.load (p.files.absolute path)) :: new, ?_, ?_, ?_, ?_, ?_⟩
      · calc p.importAll cache (path :: paths)
            = p.importAll (cache ++ [(p.files.absolute path, p.load (p.files.absolute path))])
                paths := congrArg (p.importAll · paths) hafter
          _ = _ := by rw [hnew, List.append_assoc, List.singleton_append]
      · rw [List.map_cons, List.nodup_cons]
        refine ⟨fun hmem => ?_, hadds.nodup⟩
        obtain ⟨entry, hentry, hkey⟩ := List.mem_map.mp hmem
        exact (habsent entry hentry).2 hkey
      · exact List.forall_mem_cons.mpr ⟨hkept, fun entry hentry => (habsent entry hentry).1⟩
      · exact List.forall_mem_cons.mpr ⟨rfl, hadds.loaded⟩
      · exact List.forall_mem_cons.mpr ⟨⟨path, List.mem_cons_self, rfl⟩, hmore⟩

/-- A path that was imported has an entry. -/
theorem mem_importAll {paths : List String} {path : String} (h : path ∈ paths)
    (cache : SourceCache) :
    p.files.absolute path ∈ (p.importAll cache paths).map Prod.fst := by
  obtain ⟨before, after, rfl⟩ := List.append_of_mem h
  have hsplit : p.importAll cache (before ++ path :: after) =
      p.importAll ((p.importSource path).after (p.importAll cache before)) after :=
    List.foldl_append
  obtain ⟨new, hnew, -⟩ := p.importAll_eq ((p.importSource path).after (p.importAll cache before))
    after
  rw [hsplit, hnew, List.map_append, List.mem_append]
  refine Or.inl ?_
  have hafter : (p.importSource path).after (p.importAll cache before) = _ :=
    congrArg Prod.snd (p.importSource_exec path _)
  rw [hafter]
  cases hkept : (p.importAll cache before).lookup (p.files.absolute path) with
  | some outcome => exact mem_keys_iff.mpr (by rw [hkept]; rfl)
  | none => exact List.mem_map.mpr ⟨_, List.mem_append_right _ List.mem_cons_self, rfl⟩

/-! ## Sessions -/

/-- The same project on other files. -/
def on (p : Project) (entries : List (Location × Entry)) : Project :=
  { p with files := { p.files with entries } }

/-- A step of a session, or a change of the files between two steps. -/
inductive Step where
  | importSource (path : String)
  | cached (path : String)
  | isCached (path : String)
  | size
  | parseFile (file : String)
  | change (entries : List (Location × Entry))

/-- What a step answers. -/
inductive Answer where
  | source (outcome : LoadOutcome)
  | held (known : Bool)
  | size (n : Nat)
  | entities (r : Except Error (List SourceEntity))
  | changed

/-- The files of the moment and the cache. -/
structure Session where
  entries : List (Location × Entry)
  cache : SourceCache

/-- One step: its answer and the session after it. -/
def step (p : Project) (s : Session) : Step → Answer × Session
  | .importSource path =>
    let work := (p.on s.entries).importSource path
    (.source (work.result s.cache), { s with cache := work.after s.cache })
  | .cached path => (.source ((p.on s.entries).cached s.cache path), s)
  | .isCached path => (.held ((p.on s.entries).isCached s.cache path), s)
  | .size => (.size s.cache.length, s)
  | .parseFile file =>
    let work := (p.on s.entries).parseFile file
    (.entities (work.result s.cache), { s with cache := work.after s.cache })
  | .change entries => (.changed, { s with entries })

/-- The session after some steps.  It starts with an empty cache. -/
def play (p : Project) (steps : List Step) : Session :=
  steps.foldl (fun s step => (p.step s step).2) ⟨p.files.entries, []⟩

/-- A step asks for an absolute path: it imports a spelling of it, or resolves a file and does to
the cache what importing some paths does, a spelling of it among them. -/
def Asks (p : Project) (s : Session) : Step → String → Prop
  | .importSource path, key => p.files.absolute path = key
  | .parseFile file, key =>
    ∃ paths, ((p.on s.entries).parseFile file).after s.cache =
        (p.on s.entries).importAll s.cache paths ∧
      ∃ path ∈ paths, p.files.absolute path = key
  | _, _ => False

theorem play_concat (steps : List Step) (step : Step) :
    p.play (steps ++ [step]) = (p.step (p.play steps) step).2 := by
  unfold play
  rw [List.foldl_append, List.foldl_cons, List.foldl_nil]

/-- A step adds entries for paths that it asks for and that had none, loaded from the files of the
moment.  All else of the cache stays. -/
theorem step_cache (p : Project) (s : Session) (step : Step) :
    ∃ new, (p.step s step).2.cache = s.cache ++ new ∧ (new.map Prod.fst).Nodup ∧
      ∀ entry ∈ new, s.cache.lookup entry.1 = none ∧ p.Asks s step entry.1 ∧
        entry.2 = (p.on s.entries).load entry.1 := by
  have hlooks : ∃ new, s.cache = s.cache ++ new ∧ (new.map Prod.fst).Nodup ∧
      ∀ entry ∈ new, s.cache.lookup entry.1 = none ∧ p.Asks s step entry.1 ∧
        entry.2 = (p.on s.entries).load entry.1 :=
    ⟨[], (List.append_nil _).symm, List.nodup_nil, nofun⟩
  cases step with
  | cached path => exact hlooks
  | isCached path => exact hlooks
  | size => exact hlooks
  | change entries => exact hlooks
  | importSource path =>
    obtain ⟨new, hnew, hadds⟩ := (p.on s.entries).importAll_eq s.cache [path]
    refine ⟨new, hnew, hadds.nodup, fun entry hentry => ⟨hadds.absent entry hentry, ?_,
      hadds.loaded entry hentry⟩⟩
    obtain ⟨q, hq, hkey⟩ := hadds.spelled entry hentry
    rw [List.mem_singleton] at hq
    rw [hq] at hkey
    exact hkey
  | parseFile file =>
    obtain ⟨paths, hpaths⟩ := imports_parseFile (p := p.on s.entries) file s.cache
    obtain ⟨new, hnew, hadds⟩ := (p.on s.entries).importAll_eq s.cache paths
    exact ⟨new, hpaths.trans hnew, hadds.nodup, fun entry hentry =>
      ⟨hadds.absent entry hentry, ⟨paths, hpaths, hadds.spelled entry hentry⟩,
        hadds.loaded entry hentry⟩⟩

/-- What a step asks for has an entry from then on. -/
theorem mem_step {s : Session} {step : Step} {key : String} (h : p.Asks s step key) :
    key ∈ (p.step s step).2.cache.map Prod.fst := by
  cases step with
  | importSource path =>
    have hmem := mem_importAll (p := p.on s.entries) (List.mem_singleton_self path) s.cache
    rw [show (p.on s.entries).files.absolute path = key from h] at hmem
    exact hmem
  | parseFile file =>
    obtain ⟨paths, hpaths, path, hpath, hkey⟩ := h
    have hmem := mem_importAll (p := p.on s.entries) hpath s.cache
    rw [show (p.on s.entries).files.absolute path = key from hkey, ← hpaths] at hmem
    exact hmem
  | cached _ => exact h.elim
  | isCached _ => exact h.elim
  | size => exact h.elim
  | change _ => exact h.elim

/-- The cache of a session only grows, and only at its end. -/
theorem prefix_play_append (steps later : List Step) :
    (p.play steps).cache <+: (p.play (steps ++ later)).cache := by
  induction later using List.reverseRecOn with
  | nil => rw [List.append_nil]
  | append_singleton later step ih =>
    obtain ⟨new, hnew, -⟩ := p.step_cache (p.play (steps ++ later)) step
    rw [← List.append_assoc, play_concat, hnew]
    exact ih.trans (List.prefix_append _ _)

theorem nodup_play (steps : List Step) : ((p.play steps).cache.map Prod.fst).Nodup := by
  induction steps using List.reverseRecOn with
  | nil => exact List.nodup_nil
  | append_singleton steps step ih =>
    obtain ⟨new, hnew, hnodup, hentries⟩ := p.step_cache (p.play steps) step
    rw [play_concat, hnew, List.map_append]
    refine List.Nodup.append ih hnodup fun key hold hnewer => ?_
    obtain ⟨entry, hentry, rfl⟩ := List.mem_map.mp hnewer
    have hsome := mem_keys_iff.mp hold
    rw [(hentries entry hentry).1] at hsome
    cases hsome

/-- Each entry is of a path that a step asked for when it had none, loaded from the files of that
step. -/
theorem loaded_of_mem_play {steps : List Step} {entry : String × LoadOutcome}
    (h : entry ∈ (p.play steps).cache) :
    ∃ before step after, steps = before ++ step :: after ∧
      entry.1 ∉ (p.play before).cache.map Prod.fst ∧ p.Asks (p.play before) step entry.1 ∧
      entry.2 = (p.on (p.play before).entries).load entry.1 := by
  induction steps using List.reverseRecOn with
  | nil => cases h
  | append_singleton steps step ih =>
    obtain ⟨new, hnew, -, hentries⟩ := p.step_cache (p.play steps) step
    rw [play_concat, hnew] at h
    rcases List.mem_append.mp h with h | h
    · obtain ⟨before, first, after, rfl, hrest⟩ := ih h
      exact ⟨before, first, after ++ [step], by rw [List.append_assoc, List.cons_append], hrest⟩
    · obtain ⟨habsent, hasks, hload⟩ := hentries entry h
      refine ⟨steps, step, [], rfl, fun hmem => ?_, hasks, hload⟩
      have hsome := mem_keys_iff.mp hmem
      rw [habsent] at hsome
      cases hsome

/-- Whatever a cache has grown by and whatever the files are, every spelling of a path that has an
entry is answered with its outcome, and importing it loads nothing. -/
theorem answered_of_lookup {cache grown : SourceCache} (hgrown : cache <+: grown) {path : String}
    {outcome : LoadOutcome} (h : cache.lookup (p.files.absolute path) = some outcome)
    (entries : List (Location × Entry)) :
    ((p.on entries).importSource path).exec grown = (outcome, grown) ∧
      (p.on entries).cached grown path = outcome ∧ (p.on entries).isCached grown path = true := by
  obtain ⟨new, rfl⟩ := hgrown
  have hlookup : (cache ++ new).lookup ((p.on entries).files.absolute path) = some outcome :=
    lookup_append_of_some new h
  refine ⟨?_, ?_, ?_⟩
  · rw [importSource_exec, shown, hlookup]
    rfl
  · rw [cached, hlookup]
  · rw [isCached, hlookup]
    rfl

theorem lookup_play {steps : List Step} {key : String} {outcome : LoadOutcome}
    (h : (key, outcome) ∈ (p.play steps).cache) :
    (p.play steps).cache.lookup key = some outcome :=
  lookup_of_mem (nodup_play steps) h

/-! ## What a session keeps -/

/-- What holds of the cache of a session, now and after any further steps. -/
structure Kept (p : Project) (steps : List Step) : Prop where
  /-- An absolute path has at most one entry. -/
  nodup : ((p.play steps).cache.map Prod.fst).Nodup
  /-- An entry is the outcome of loading its path from the files of the step that asked for the
  path first. -/
  first : ∀ key outcome, (key, outcome) ∈ (p.play steps).cache →
    ∃ before step after, steps = before ++ step :: after ∧ p.Asks (p.play before) step key ∧
      outcome = (p.on (p.play before).entries).load key ∧
      ∀ earlier other rest, before = earlier ++ other :: rest →
        ¬p.Asks (p.play earlier) other key
  /-- A path that was asked for has an entry. -/
  asked : ∀ before step after key, steps = before ++ step :: after →
    p.Asks (p.play before) step key → key ∈ (p.play steps).cache.map Prod.fst
  /-- Further steps add entries at the end: none is replaced or removed. -/
  grows : ∀ later, (p.play steps).cache <+: (p.play (steps ++ later)).cache
  /-- Every spelling of a path that has an entry is answered with its outcome after any further
  steps, and the session stays as it is. -/
  answered : ∀ key outcome, (key, outcome) ∈ (p.play steps).cache →
    ∀ path, p.files.absolute path = key → ∀ later,
      p.step (p.play (steps ++ later)) (.importSource path) =
          (.source outcome, p.play (steps ++ later)) ∧
        p.step (p.play (steps ++ later)) (.cached path) =
          (.source outcome, p.play (steps ++ later)) ∧
        p.step (p.play (steps ++ later)) (.isCached path) = (.held true, p.play (steps ++ later))
  /-- So is every import that resolving a file makes, from whatever the cache has grown to. -/
  inside : ∀ key outcome, (key, outcome) ∈ (p.play steps).cache →
    ∀ path, p.files.absolute path = key → ∀ grown entries, (p.play steps).cache <+: grown →
      ((p.on entries).importSource path).exec grown = (outcome, grown)
  /-- A path without an entry is loaded when it is imported, and looking it up finds nothing. -/
  absent : ∀ path, p.files.absolute path ∉ (p.play steps).cache.map Prod.fst →
    p.step (p.play steps) (.importSource path) =
        (.source ((p.on (p.play steps).entries).load (p.files.absolute path)),
          { p.play steps with
            cache := (p.play steps).cache ++ [(p.files.absolute path,
              (p.on (p.play steps).entries).load (p.files.absolute path))] }) ∧
      p.step (p.play steps) (.cached path) = (.source (.ok none), p.play steps) ∧
      p.step (p.play steps) (.isCached path) = (.held false, p.play steps)
  /-- Looking up, the membership test and the size leave the session as it is, and a change of the
  files leaves its cache. -/
  looks : ∀ path entries,
    (p.step (p.play steps) (.cached path)).2 = p.play steps ∧
      (p.step (p.play steps) (.isCached path)).2 = p.play steps ∧
      p.step (p.play steps) .size = (.size (p.play steps).cache.length, p.play steps) ∧
      (p.step (p.play steps) (.change entries)).2.cache = (p.play steps).cache

theorem first_of_mem_play {steps : List Step} {key : String} {outcome : LoadOutcome}
    (h : (key, outcome) ∈ (p.play steps).cache) :
    ∃ before step after, steps = before ++ step :: after ∧ p.Asks (p.play before) step key ∧
      outcome = (p.on (p.play before).entries).load key ∧
      ∀ earlier other rest, before = earlier ++ other :: rest →
        ¬p.Asks (p.play earlier) other key := by
  obtain ⟨before, step, after, hsteps, habsent, hasks, hload⟩ := loaded_of_mem_play h
  refine ⟨before, step, after, hsteps, hasks, hload, fun earlier other rest hbefore hearlier => ?_⟩
  have hmem := mem_step hearlier
  rw [← play_concat] at hmem
  rw [hbefore, List.append_cons] at habsent
  exact habsent (((prefix_play_append _ rest).map Prod.fst).subset hmem)

theorem mem_play_of_asks {before after : List Step} {step : Step} {key : String}
    (h : p.Asks (p.play before) step key) :
    key ∈ (p.play (before ++ step :: after)).cache.map Prod.fst := by
  have hmem := mem_step h
  rw [← play_concat] at hmem
  rw [List.append_cons]
  exact ((prefix_play_append _ after).map Prod.fst).subset hmem

theorem step_of_kept {s : Session} {path : String} {outcome : LoadOutcome}
    (h : s.cache.lookup (p.files.absolute path) = some outcome) :
    p.step s (.importSource path) = (.source outcome, s) ∧
      p.step s (.cached path) = (.source outcome, s) ∧
      p.step s (.isCached path) = (.held true, s) := by
  obtain ⟨himport, hcached, hheld⟩ := answered_of_lookup (List.prefix_refl s.cache) h s.entries
  refine ⟨?_, ?_, ?_⟩
  · show (Answer.source (Loading.exec _ _).1, ({ s with cache := (Loading.exec _ _).2 } : Session))
      = _
    rw [himport]
  · show (Answer.source _, s) = _
    rw [hcached]
  · show (Answer.held _, s) = _
    rw [hheld]

theorem step_of_absent {s : Session} {path : String}
    (h : s.cache.lookup (p.files.absolute path) = none) :
    p.step s (.importSource path) =
        (.source ((p.on s.entries).load (p.files.absolute path)),
          { s with cache := s.cache ++
            [(p.files.absolute path, (p.on s.entries).load (p.files.absolute path))] }) ∧
      p.step s (.cached path) = (.source (.ok none), s) ∧
      p.step s (.isCached path) = (.held false, s) := by
  have h' : s.cache.lookup ((p.on s.entries).files.absolute path) = none := h
  refine ⟨?_, ?_, ?_⟩
  · show (Answer.source (Loading.exec _ _).1, ({ s with cache := (Loading.exec _ _).2 } : Session))
      = _
    rw [importSource_exec, shown, h']
    rfl
  · show (Answer.source _, s) = _
    rw [cached, h']
  · show (Answer.held _, s) = _
    rw [isCached, h']
    rfl

/-- A session loads an absolute path once, when one of its spellings is imported first, and from
then on gives that outcome for all of them, whatever becomes of the files. -/
theorem session_keeps (p : Project) (steps : List Step) : p.Kept steps where
  nodup := nodup_play steps
  first _ _ h := first_of_mem_play h
  asked before step after key hsteps h := by
    subst hsteps
    exact mem_play_of_asks h
  grows later := prefix_play_append steps later
  answered key outcome h path hpath later := by
    subst hpath
    obtain ⟨new, hnew⟩ := prefix_play_append (p := p) steps later
    have hlookup := lookup_append_of_some new (lookup_play h)
    rw [hnew] at hlookup
    exact step_of_kept hlookup
  inside key outcome h path hpath grown entries hgrown := by
    subst hpath
    exact (answered_of_lookup hgrown (lookup_play h) entries).1
  absent path h := by
    refine step_of_absent ?_
    rw [mem_keys_iff, Option.not_isSome_iff_eq_none] at h
    exact h
  looks path entries := ⟨rfl, rfl, rfl, rfl⟩

end Project

end DartModels
