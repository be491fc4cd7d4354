import DartModels.SourceCache

/-!
# What a cache shows

A cache shows an outcome for each absolute path: the one it keeps, or else the one that loading
gives.  Importing a source answers with what the cache shows and leaves all of that as it was.
Work that looks at the cache only in this way is steady:

    Steady work → shown (work.after cache) = shown cache
    Steady work → shown other = shown cache → work.result other = work.result cache

Its parts can then be run one by one from the same cache (`result_bind`, `result_foldlM`), as if
nothing were ever kept.
-/

namespace DartModels

/-! ## Runs of loading work -/

namespace Loading

variable {α β : Type}

/-- What work gives from a cache. -/
def result (work : Loading α) (cache : SourceCache) : Except Error α := (work.exec cache).1

/-- The cache after work. -/
def after (work : Loading α) (cache : SourceCache) : SourceCache := (work.exec cache).2

theorem exec_bind (x : Loading α) (f : α → Loading β) (cache : SourceCache) :
    (x >>= f).exec cache =
      match x.exec cache with
      | (.ok a, s) => (f a).exec s
      | (.error e, s) => (.error e, s) := by
  show (match x.exec cache with | (r, s) => (ExceptT.bindCont f r).run s) = _
  rcases x.exec cache with ⟨r, s⟩
  cases r <;> rfl

theorem exec_bind_ok {x : Loading α} {cache : SourceCache} {a : α} (h : x.result cache = .ok a)
    (f : α → Loading β) : (x >>= f).exec cache = (f a).exec (x.after cache) := by
  unfold result after at *
  rw [exec_bind]
  rcases hx : x.exec cache with ⟨r, s⟩
  rw [hx] at h
  cases h
  rfl

theorem exec_bind_error {x : Loading α} {cache : SourceCache} {e : Error}
    (h : x.result cache = .error e) (f : α → Loading β) :
    (x >>= f).exec cache = (.error e, x.after cache) := by
  unfold result after at *
  rw [exec_bind]
  rcases hx : x.exec cache with ⟨r, s⟩
  rw [hx] at h
  cases h
  rfl

theorem result_bind_ok {x : Loading α} {cache : SourceCache} {a : α} (h : x.result cache = .ok a)
    (f : α → Loading β) : (x >>= f).result cache = (f a).result (x.after cache) :=
  congrArg Prod.fst (exec_bind_ok h f)

theorem after_bind_ok {x : Loading α} {cache : SourceCache} {a : α} (h : x.result cache = .ok a)
    (f : α → Loading β) : (x >>= f).after cache = (f a).after (x.after cache) :=
  congrArg Prod.snd (exec_bind_ok h f)

theorem result_bind_error {x : Loading α} {cache : SourceCache} {e : Error}
    (h : x.result cache = .error e) (f : α → Loading β) : (x >>= f).result cache = .error e :=
  congrArg Prod.fst (exec_bind_error h f)

theorem after_bind_error {x : Loading α} {cache : SourceCache} {e : Error}
    (h : x.result cache = .error e) (f : α → Loading β) : (x >>= f).after cache = x.after cache :=
  congrArg Prod.snd (exec_bind_error h f)

end Loading

/-! ## The outcomes that a cache shows -/

namespace Project

variable {α β σ : Type} (p : Project)

/-- The outcome for an absolute path: the one that is kept, else the one that loading gives. -/
def shown (cache : SourceCache) (key : String) : LoadOutcome :=
  (cache.lookup key).getD (p.load key)

theorem shown_nil : p.shown [] = p.load := rfl

theorem importSource_exec (path : String) (cache : SourceCache) :
    (p.importSource path).exec cache =
      (p.shown cache (p.files.absolute path),
        match cache.lookup (p.files.absolute path) with
        | some _ => cache
        | none => cache ++ [(p.files.absolute path, p.load (p.files.absolute path))]) := by
  unfold importSource shown
  simp only []
  rw [Loading.exec_bind]
  show (match List.lookup (p.files.absolute path) cache with
    | some outcome => (liftM outcome : Loading _)
    | none => _).exec cache = _
  cases cache.lookup (p.files.absolute path) with
  | some outcome => rfl
  | none =>
    simp only [Option.getD_none]
    rw [Loading.exec_bind]
    rfl

theorem importSource_result (path : String) (cache : SourceCache) :
    (p.importSource path).result cache = p.shown cache (p.files.absolute path) := by
  unfold Loading.result
  rw [importSource_exec]

/-- Keeping the outcome of loading changes nothing that is shown. -/
theorem shown_importSource (path : String) (cache : SourceCache) :
    p.shown ((p.importSource path).after cache) = p.shown cache := by
  unfold Loading.after
  rw [importSource_exec]
  cases h : cache.lookup (p.files.absolute path) with
  | some outcome => rfl
  | none =>
    funext key
    by_cases hk : key = p.files.absolute path
    · subst hk
      simp [shown, List.lookup_append, h]
    · have hne : (key == p.files.absolute path) = false := by simpa using hk
      simp [shown, List.lookup_append, List.lookup_cons, hne]

/-! ## Steady work -/

/-- Work that leaves what a cache shows as it was, and that depends on nothing else of it. -/
structure Steady (work : Loading α) : Prop where
  keeps : ∀ cache, p.shown (work.after cache) = p.shown cache
  agrees : ∀ cache other, p.shown other = p.shown cache → work.result other = work.result cache

variable {p}

theorem steady_pure (a : α) : p.Steady (pure a) := ⟨fun _ => rfl, fun _ _ _ => rfl⟩

theorem steady_lift (r : Except Error α) : p.Steady (liftM r) := ⟨fun _ => rfl, fun _ _ _ => rfl⟩

theorem steady_throw (e : Error) : p.Steady (throw e : Loading α) :=
  ⟨fun _ => rfl, fun _ _ _ => rfl⟩

theorem steady_importSource (path : String) : p.Steady (p.importSource path) := by
  refine ⟨p.shown_importSource path, fun cache other h => ?_⟩
  rw [importSource_result, importSource_result, h]

theorem steady_bind {x : Loading α} {f : α → Loading β} (hx : p.Steady x)
    (hf : ∀ a, p.Steady (f a)) : p.Steady (x >>= f) := by
  refine ⟨fun cache => ?_, fun cache other h => ?_⟩
  · cases hr : x.result cache with
    | ok a => rw [Loading.after_bind_ok hr, (hf a).keeps, hx.keeps]
    | error e => rw [Loading.after_bind_error hr, hx.keeps]
  · have hxo := hx.agrees cache other h
    cases hr : x.result cache with
    | ok a =>
      rw [Loading.result_bind_ok hr, Loading.result_bind_ok (hxo.trans hr)]
      exact (hf a).agrees _ _ (by rw [hx.keeps, hx.keeps, h])
    | error e => rw [Loading.result_bind_error hr, Loading.result_bind_error (hxo.trans hr)]

/-- The parts of steady work can be run from the same cache. -/
theorem result_bind {x : Loading α} {f : α → Loading β} (hx : p.Steady x)
    (hf : ∀ a, p.Steady (f a)) (cache : SourceCache) :
    (x >>= f).result cache = x.result cache >>= fun a => (f a).result cache := by
  cases hr : x.result cache with
  | ok a =>
    rw [Loading.result_bind_ok hr]
    exact (hf a).agrees _ _ (hx.keeps cache)
  | error e => exact Loading.result_bind_error hr _

theorem steady_foldlM {f : σ → α → Loading σ} (hf : ∀ s a, p.Steady (f s a)) (l : List α) (s : σ) :
    p.Steady (l.foldlM f s) := by
  induction l generalizing s with
  | nil => exact steady_pure s
  | cons a l ih =>
    rw [List.foldlM_cons]
    exact steady_bind (hf s a) ih

theorem result_foldlM {f : σ → α → Loading σ} (hf : ∀ s a, p.Steady (f s a)) (l : List α) (s : σ)
    (cache : SourceCache) :
    (l.foldlM f s).result cache = l.foldlM (fun s a => (f s a).result cache) s := by
  induction l generalizing s with
  | nil => rfl
  | cons a l ih =>
    rw [List.foldlM_cons, List.foldlM_cons, result_bind (hf s a) (steady_foldlM hf l)]
    exact congrArg _ (funext ih)

theorem steady_mapM {f : α → Loading β} (hf : ∀ a, p.Steady (f a)) (l : List α) :
    p.Steady (l.mapM f) := by
  induction l with
  | nil => exact steady_pure []
  | cons a l ih =>
    rw [List.mapM_cons]
    exact steady_bind (hf a) fun _ => steady_bind ih fun _ => steady_pure _

theorem result_mapM {f : α → Loading β} (hf : ∀ a, p.Steady (f a)) (l : List α)
    (cache : SourceCache) : (l.mapM f).result cache = l.mapM fun a => (f a).result cache := by
  induction l with
  | nil => rfl
  | cons a l ih =>
    rw [List.mapM_cons, List.mapM_cons, result_bind (hf a) fun _ =>
      steady_bind (steady_mapM hf l) fun _ => steady_pure _]
    refine congrArg _ (funext fun b => ?_)
    rw [result_bind (steady_mapM hf l) fun _ => steady_pure _, ih]
    rfl

end Project

end DartModels
