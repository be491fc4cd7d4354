import DartModels.Proofs.RenamedSource

/-!
# Imports under another name

Where a file binds an import to another local name, a reference to that name is looked up in the file
of the import under the local name, which no class has.  So the classes of the project are as before,
but for the references to the import, which are lost.

    a reference other than `old` finds the same class as before, `old` none     (findClass_renamed)
    the ancestors are those that are left without the references to `old`       (ancestors_renamed)
    the fields of the same ancestors are the same, with renamed types               (fields_renamed)
    all of it, and when nothing is lost                                             (import_renamed)
-/

namespace DartModels

open Syntax

namespace Project

variable {p : Project} {files : FileSystem} {loc : Location} {tree tree' : Node} {old new : String}

/-! ## Look-ups -/

variable {cache cache' : SourceCache}

/-- The class of a name in a file. -/
def classAt (p : Project) (path name : String) : Except Error (Option EntityClass) :=
  (p.load (p.files.absolute path)).map fun o => o.bind fun s => s.classes.lookup name

theorem findClass_of_load (hcache : p.shown cache = p.load) {c : EntityClass} {s : Source}
    (hs : p.load (p.files.absolute c.sourcePath) = .ok (some s)) (name : String) :
    (p.findClass c name).result cache = p.classAt ((s.imports.lookup name).getD s.path) name := by
  rw [findClass_result, hcache, hs]
  unfold classAt
  dsimp only
  generalize p.load (p.files.absolute ((s.imports.lookup name).getD s.path)) = target
  rcases target with e | _ | t <;> rfl

theorem classAt_of_load {path name : String} {s : Source} (hs : p.load path = .ok (some s))
    (habs : p.files.absolute path = path) : p.classAt path name = .ok (s.classes.lookup name) := by
  unfold classAt
  rw [habs, hs]
  rfl

theorem classAt_renamed (h : p.RenamedIn files loc tree tree' old new) {path name : String}
    {d : Option EntityClass} (hd : p.classAt path name = .ok d) :
    ∃ d', { p with files }.classAt path name = .ok d' ∧
      Option.Rel (p.Twin loc tree old new) d d' := by
  unfold classAt at hd ⊢
  have habs : files.absolute path = p.files.absolute path := h.sameShape.absolute_eq path
  have hload := load_renamed h (p.files.absolute path)
  dsimp only
  rw [habs]
  generalize hx : p.load (p.files.absolute path) = x at hload hd
  generalize { p with files }.load (p.files.absolute path) = x' at hload
  cases hload with
  | error e => cases hd
  | missing =>
    cases hd
    exact ⟨none, rfl, .none⟩
  | loaded hs =>
    have hrel := hs.lookup (load_keyed hx).2 name
    cases hd
    exact ⟨_, rfl, hrel⟩

/-- A name that no class has is looked up to no effect. -/
theorem classAt_new (h : p.RenamedIn files loc tree tree' old new) {path : String}
    {d : Option EntityClass} (hd : p.classAt path old = .ok d) :
    { p with files }.classAt path new = .ok none := by
  have hnew : p.classAt path new = .ok none := by
    unfold classAt at hd ⊢
    cases hx : p.load (p.files.absolute path) with
    | error e =>
      rw [hx] at hd
      cases hd
    | ok o =>
      cases o with
      | none => rfl
      | some s =>
        show Except.ok (s.classes.lookup new) = _
        rw [h.unused _ s hx]
  obtain ⟨d', hd', hrel⟩ := classAt_renamed h hnew
  cases hrel
  exact hd'

/-- The new name is bound where the old one was, and leads to no class there. -/
theorem classAt_respelled (h : p.RenamedIn files loc tree tree' old new) {known : List String}
    {s s' : Source} (hren : RenamedSource old new known s s') {r : String} (hfresh : r ≠ new)
    {d : Option EntityClass} (hd : p.classAt ((s.imports.lookup r).getD s.path) r = .ok d) :
    ∃ d', { p with files }.classAt ((s'.imports.lookup (respell old new r)).getD s'.path)
        (respell old new r) = .ok d' ∧
      (r = old → d' = none) ∧ (r ≠ old → Option.Rel (p.Twin loc tree old new) d d') := by
  rw [hren.path, hren.imports, lookup_respellKeys hren.fresh hfresh]
  by_cases hold : r = old
  · rw [hold] at hd ⊢
    rw [respell, if_pos rfl]
    exact ⟨none, classAt_new h hd, fun _ => rfl, fun hne => absurd rfl hne⟩
  · rw [respell, if_neg hold]
    obtain ⟨d', hd', hrel⟩ := classAt_renamed h hd
    exact ⟨d', hd', fun he => absurd he hold, fun _ => hrel⟩

/-- In the file of the import: `old` leads nowhere, and any other reference where it led. -/
theorem classAt_inside (h : p.RenamedIn files loc tree tree' old new) {s s' : Source}
    (hs : p.load s.path = .ok (some s)) (hs' : { p with files }.load s.path = .ok (some s'))
    (habs : p.files.absolute s.path = s.path) (htwin : p.SourceTwin loc tree old new s s')
    (hren : RenamedSource old new tree.knownNames s s') {r r' : String}
    (hr : RenamedReference old new tree.knownNames r r') {d : Option EntityClass}
    (hd : p.classAt ((s.imports.lookup r).getD s.path) r = .ok d) :
    ∃ d', { p with files }.classAt ((s'.imports.lookup r').getD s'.path) r' = .ok d' ∧
      (r = old → d' = none) ∧ (r ≠ old → Option.Rel (p.Twin loc tree old new) d d') := by
  -- a name that no class of the file has and no import binds leads nowhere in the renamed file
  have hown : ∀ name, s.classes.lookup name = none →
      { p with files }.classAt s.path name = .ok none := by
    intro name hname
    have hrel := htwin.lookup (load_keyed hs).2 name
    rw [hname] at hrel
    rw [classAt_of_load hs' ((h.sameShape.absolute_eq s.path).trans habs)]
    generalize s'.classes.lookup name = d' at hrel ⊢
    cases hrel
    rfl
  cases hr with
  | name hfresh => exact classAt_respelled h hren hfresh hd
  | dotted hfresh =>
    rw [hren.path, hren.imports]
    by_cases hold : r = old
    · rw [hold, lookup_respellKeys_old _ h.ordinary.distinct, Option.getD_none]
      exact ⟨none, hown old hren.undeclared, fun _ => rfl, fun hne => absurd rfl hne⟩
    · rw [lookup_respellKeys_of_ne hren.fresh hold hfresh]
      obtain ⟨d', hd', hrel⟩ := classAt_renamed h hd
      exact ⟨d', hd', fun he => absurd he hold, fun _ => hrel⟩
  | expression hr hr' hfresh' =>
    obtain ⟨himport, hclass⟩ := hren.known r hr
    obtain ⟨himport', hclass'⟩ := hren.known r' hr'
    have hnot : s'.imports.lookup r' = none := by
      rw [hren.imports]
      by_cases hold : r' = old
      · rw [hold, lookup_respellKeys_old _ h.ordinary.distinct]
      · rw [lookup_respellKeys_of_ne hren.fresh hold hfresh', himport']
    rw [himport, Option.getD_none, classAt_of_load hs habs, hclass] at hd
    cases hd
    rw [hnot, Option.getD_none, hren.path]
    exact ⟨none, hown r' hclass', fun _ => rfl, fun _ => .none⟩

/-- A look-up of a reference and the one of the renamed reference: the same class is found, except by
`old` in the file of the import, where none is. -/
theorem findClass_renamed (h : p.RenamedIn files loc tree tree' old new)
    (hcache : p.shown cache = p.load)
    (hcache' : { p with files }.shown cache' = { p with files }.load) {c c' : EntityClass}
    (hc : p.Twin loc tree old new c c') (habs : p.files.absolute c.sourcePath = c.sourcePath)
    {r r' : String}
    (hr : p.files.leadsTo c.sourcePath loc = true → RenamedReference old new tree.knownNames r r')
    (hr' : ¬p.files.leadsTo c.sourcePath loc = true → r' = r) {d : Option EntityClass}
    (hd : (p.findClass c r).result cache = .ok d) :
    ∃ d', ({ p with files }.findClass c' r').result cache' = .ok d' ∧
      (p.files.leadsTo c.sourcePath loc = true ∧ r = old → d' = none) ∧
      (¬(p.files.leadsTo c.sourcePath loc = true ∧ r = old) →
        Option.Rel (p.Twin loc tree old new) d d') := by
  have hpath : c'.sourcePath = c.sourcePath := congrArg Prod.fst hc.key_eq
  have habs' : files.absolute c.sourcePath = c.sourcePath :=
    (h.sameShape.absolute_eq c.sourcePath).trans habs
  have hload := load_renamed h c.sourcePath
  generalize hx : p.load c.sourcePath = x at hload
  generalize hx' : { p with files }.load c.sourcePath = x' at hload
  cases hload with
  | error e =>
    rw [findClass_result, hcache, habs, hx] at hd
    cases hd
  | missing =>
    rw [findClass_result, hcache, habs, hx] at hd
    cases hd
    refine ⟨none, ?_, fun _ => rfl, fun _ => .none⟩
    rw [findClass_result, hcache', hpath]
    dsimp only
    rw [habs', hx']
  | @loaded s s' hs =>
    have hsPath : s.path = c.sourcePath := (load_keyed hx).1
    have hsPath' : s'.path = c.sourcePath := hs.path_eq.trans hsPath
    rw [findClass_of_load hcache (habs.symm ▸ hx)] at hd
    rw [findClass_of_load hcache' (by rw [hpath]; exact habs'.symm ▸ hx')]
    by_cases hin : p.files.leadsTo c.sourcePath loc = true
    · obtain ⟨d', hd', hlost, hkept⟩ := classAt_inside h (hsPath ▸ hx) (hsPath ▸ hx')
        (hsPath ▸ habs) hs (hs.inside (hsPath ▸ hin)) (hr hin) hd
      exact ⟨d', hd', fun h => hlost h.2, fun h => hkept fun he => h ⟨hin, he⟩⟩
    · rw [hr' hin, hs.outside (hsPath ▸ hin)]
      obtain ⟨d', hd', hrel⟩ := classAt_renamed h hd
      exact ⟨d', hd', fun h => absurd h.1 hin, fun _ => hrel⟩

/-! ## Ancestors -/

/-- Whether a class is in the file of the import and refers to `old`. -/
def isLost (p : Project) (loc : Location) (old : String) (c : EntityClass) (r : String) : Bool :=
  p.files.leadsTo c.sourcePath loc && r == old

/-- The classes that a class refers to, but for the references to `old` in the file of the import. -/
def keptParents (p : Project) (cache : SourceCache) (loc : Location) (old : String)
    (c : EntityClass) : List EntityClass :=
  (c.heritage.filter fun r => !p.isLost loc old c r).filterMap (p.found cache c)

theorem refers_of_mem_keptParents {c d : EntityClass} (hd : d ∈ p.keptParents cache loc old c) :
    p.Refers cache c d := by
  obtain ⟨r, hr, hfound⟩ := List.mem_filterMap.mp hd
  exact List.mem_filterMap.mpr ⟨r, (List.mem_filter.mp hr).1, hfound⟩

/-- The look-ups of a reference and of the renamed reference both succeed. -/
structure FoundTwin (p : Project) (files : FileSystem) (cache cache' : SourceCache) (loc : Location)
    (tree : Node) (old new : String) (c c' : EntityClass) (r r' : String) : Prop where
  looked : ∃ d', ({ p with files }.findClass c' r').result cache' = .ok d'
  lost : p.isLost loc old c r = true → { p with files }.found cache' c' r' = none
  kept : ¬p.isLost loc old c r = true →
    Option.Rel (p.Twin loc tree old new) (p.found cache c r) ({ p with files }.found cache' c' r')

theorem foundTwin (h : p.RenamedIn files loc tree tree' old new) (hcache : p.shown cache = p.load)
    (hcache' : { p with files }.shown cache' = { p with files }.load) {c c' : EntityClass}
    (hc : p.Twin loc tree old new c c') (habs : p.files.absolute c.sourcePath = c.sourcePath)
    (hsafe : ∀ e, ¬p.Fails cache c e) :
    List.Forall₂ (p.FoundTwin files cache cache' loc tree old new c c') c.heritage c'.heritage := by
  have hpair : ∀ r ∈ c.heritage, ∀ r',
      (p.files.leadsTo c.sourcePath loc = true → RenamedReference old new tree.knownNames r r') →
      (¬p.files.leadsTo c.sourcePath loc = true → r' = r) →
      p.FoundTwin files cache cache' loc tree old new c c' r r' := by
    intro r hr r' hin hout
    cases hd : (p.findClass c r).result cache with
    | error e => exact absurd ⟨r, hr, hd⟩ (hsafe e)
    | ok d =>
      obtain ⟨d', hd', hlost, hkept⟩ := findClass_renamed h hcache hcache' hc habs hin hout hd
      have hfound : p.found cache c r = d := by rw [found, hd]
      have hfound' : { p with files }.found cache' c' r' = d' := by rw [found, hd']
      refine ⟨⟨d', hd'⟩, fun hl => ?_, fun hl => ?_⟩
      · rw [hfound', hlost (by simpa [isLost] using hl)]
      · rw [hfound, hfound']
        exact hkept (by simpa [isLost] using hl)
  by_cases hin : p.files.leadsTo c.sourcePath loc = true
  · have hreferences := (List.forall₂_and_left (p := fun r => r ∈ c.heritage) _ _).mpr
      ⟨fun r hr => hr, (hc.inside hin).references⟩
    exact hreferences.imp fun r r' hr =>
      hpair r hr.1 r' (fun _ => hr.2) fun hout => absurd hin hout
  · rw [hc.outside hin] at hpair ⊢
    exact List.forall₂_same.mpr fun r hr => hpair r hr r (fun h => absurd h hin) fun _ => rfl

/-- The references of a class lead to twins. -/
theorem parents_renamed {c c' : EntityClass} {references references' : List String}
    (h : List.Forall₂ (p.FoundTwin files cache cache' loc tree old new c c') references
      references') :
    List.Forall₂ (p.Twin loc tree old new)
      ((references.filter fun r => !p.isLost loc old c r).filterMap (p.found cache c))
      (references'.filterMap ({ p with files }.found cache' c')) := by
  induction h with
  | nil => exact .nil
  | @cons r r' references references' hr _ ih =>
    by_cases hlost : p.isLost loc old c r = true
    · rw [List.filter_cons_of_neg (by simpa using hlost), List.filterMap_cons_none (hr.lost hlost)]
      exact ih
    · rw [List.filter_cons_of_pos (by simpa using hlost)]
      have hrel := hr.kept hlost
      generalize hd : p.found cache c r = d at hrel
      generalize hd' : { p with files }.found cache' c' r' = d' at hrel
      cases hrel with
      | none =>
        rw [List.filterMap_cons_none hd, List.filterMap_cons_none hd']
        exact ih
      | some hrel =>
        rw [List.filterMap_cons_some hd, List.filterMap_cons_some hd']
        exact .cons hrel ih

theorem looked_of_foundTwin {c c' : EntityClass} {references references' : List String}
    (h : List.Forall₂ (p.FoundTwin files cache cache' loc tree old new c c') references
      references') :
    ∀ r' ∈ references', ∃ d', ({ p with files }.findClass c' r').result cache' = .ok d' := by
  induction h with
  | nil => exact List.forall_mem_nil _
  | cons hr _ ih => exact List.forall_mem_cons.mpr ⟨hr.looked, ih⟩

theorem Declares.absolute_eq (hs : p.Sound cache) {c : EntityClass} (hc : p.Declares cache c) :
    p.files.absolute c.sourcePath = c.sourcePath := by
  obtain ⟨path, s, hshown, hlook⟩ := hc
  rw [(hs.lookup_eq hshown hlook).2, FileSystem.absolute_absolute]

/-- Every class has a twin. -/
theorem exists_twin (h : p.RenamedIn files loc tree tree' old new) (hcache : p.shown cache = p.load)
    (hcache' : { p with files }.shown cache' = { p with files }.load) {c : EntityClass}
    (hc : p.Declares cache c) :
    ∃ c', { p with files }.Declares cache' c' ∧ p.Twin loc tree old new c c' := by
  obtain ⟨path, s, hs, hlook⟩ := hc
  rw [hcache] at hs
  have hload := load_renamed h (p.files.absolute path)
  rw [hs] at hload
  generalize hx' : { p with files }.load (p.files.absolute path) = x' at hload
  cases hload with
  | @loaded _ s' htwin =>
    have hrel := htwin.lookup (load_keyed hs).2 c.name
    rw [hlook] at hrel
    generalize hd' : s'.classes.lookup c.name = d' at hrel
    cases hrel with
    | @some _ c' hrel =>
      refine ⟨c', ⟨path, s', ?_, ?_⟩, hrel⟩
      · rw [hcache']
        show { p with files }.load (files.absolute path) = _
        rw [h.sameShape.absolute_eq, hx']
      · rw [show c'.name = c.name from congrArg Prod.snd hrel.key_eq, hd']

/-- The ancestors in the renamed project are twins of those that are left in depth-first order
without the references to `old` in the file of the import. -/
theorem ancestors_renamed (h : p.RenamedIn files loc tree tree' old new)
    (hcache : p.shown cache = p.load)
    (hcache' : { p with files }.shown cache' = { p with files }.load) {c c' : EntityClass}
    (hc : p.Declares cache c) (htwin : p.Twin loc tree old new c c') {above : List EntityClass}
    (ha : (p.ancestors c).result cache = .ok above) :
    ∃ kept met above', DepthFirst EntityClass.key (p.keptParents cache loc old) [c.key]
        (p.keptParents cache loc old c) kept met ∧
      ({ p with files }.ancestors c').result cache' = .ok above' ∧
      List.Forall₂ (p.Twin loc tree old new) kept above' := by
  have hsound := sound_of_shown hcache
  obtain ⟨-, -, -, hsafe⟩ := of_ancestors_eq_ok hsound hc ha
  have hfound : ∀ d d', Relation.ReflTransGen (p.Refers cache) c d → p.Twin loc tree old new d d' →
      List.Forall₂ (p.FoundTwin files cache cache' loc tree old new d d') d.heritage d'.heritage :=
    fun d d' hd hdd' => foundTwin h hcache hcache' hdd'
      (Declares.absolute_eq hsound (hsound.declares_reached hc hd)) (hsafe d hd).2
  have hreach : ∀ d', Relation.ReflTransGen ({ p with files }.Refers cache') c' d' →
      ∃ d, Relation.ReflTransGen (p.Refers cache) c d ∧ p.Twin loc tree old new d d' := by
    intro d' hd'
    induction hd' with
    | refl => exact ⟨c, .refl, htwin⟩
    | @tail d' e' _ he' ih =>
      obtain ⟨d, hd, hdd'⟩ := ih
      obtain ⟨e, he, hee'⟩ := exists_of_forall₂ (parents_renamed (hfound d d' hd hdd')) he'
      exact ⟨e, hd.tail (refers_of_mem_keptParents he), hee'⟩
  have hexplored := explored_ancestors (p := { p with files }) c' cache'
  cases hr : ({ p with files }.ancestors c').result cache' with
  | error e =>
    rw [hr] at hexplored
    obtain ⟨d', hd', r', hr', hfail⟩ := hexplored
    obtain ⟨d, hd, hdd'⟩ := hreach d' hd'
    obtain ⟨o, ho⟩ := looked_of_foundTwin (hfound d d' hd hdd') r' hr'
    rw [ho] at hfail
    cases hfail
  | ok above' =>
    rw [hr] at hexplored
    obtain ⟨⟨met, hdf⟩, -⟩ := hexplored
    rw [htwin.key_eq] at hdf
    obtain ⟨kept, hkept, hrel⟩ : ∃ kept,
        DepthFirst EntityClass.key (p.keptParents cache loc old) [c.key]
          (p.keptParents cache loc old c) kept met ∧
        List.Forall₂ (p.Twin loc tree old new) kept above' :=
      hdf.transfer (P := Relation.ReflTransGen (p.Refers cache) c)
      (fun d d' hdd' => hdd'.key_eq)
      (fun d d' hd hdd' => parents_renamed (hfound d d' hd hdd'))
      (fun d hd e he => hd.tail (refers_of_mem_keptParents he))
      (fun d hd => .single (refers_of_mem_keptParents hd)) (parents_renamed (hfound c c' .refl htwin))
    exact ⟨kept, met, above', hkept, rfl, hrel⟩

/-! ## Fields -/

/-- A field and the same with `old` written `new` in its type.  It has another Dart type only if the
type comes down to the new name, and what has the old name is not written `dynamic`. -/
structure RenamedField (old new : String) (f f' : Field) : Prop where
  name : f'.name = f.name
  declaredIn : f'.declaredIn = f.declaredIn
  typeName_eq_iff : ∀ (g : Catalog) (met : List ModelEntity), g.find? new = none →
    (((g.typeName f'.type).exec met).1 = ((g.typeName f.type).exec met).1 ↔
      f'.type = f.type ∨
        (f'.type.EndsIn new → ∀ e, g.find? old = some e → g.className e = .ok Dart.anyType))

theorem RenamedField.refl (f : Field) : RenamedField old new f f :=
  ⟨rfl, rfl, fun _ _ _ => ⟨fun _ => Or.inl rfl, fun _ => rfl⟩⟩

theorem renamedField_of_type (ho : Ordinary old new) {t t' : TypeDescriptor}
    (h : RenamedType old new t t') (name declaredIn : String) :
    RenamedField old new ⟨name, t, declaredIn⟩ ⟨name, t', declaredIn⟩ := by
  refine ⟨rfl, rfl, fun g met hunused => ?_⟩
  have hiff := Catalog.text_eq_iff h ho hunused
  rw [g.typeName_exec, g.typeName_exec]
  constructor
  · exact fun htext => Or.inr (hiff.mp htext)
  · rintro (htype | hclass)
    · exact congrArg (fun t => (g.dartType t).text g) htype
    · exact hiff.mpr hclass

/-- Folds over related elements: steps that lead from related states to related states do so as a
whole. -/
theorem foldlM_forall₂ {α β σ τ : Type} {S : σ → τ → Prop} {f : σ → α → Except Error σ}
    {g : τ → β → Except Error τ} {as : List α} {bs : List β}
    (h : List.Forall₂ (fun a b => ∀ s t, S s t → ∀ s', f s a = .ok s' →
      ∃ t', g t b = .ok t' ∧ S s' t') as bs) {s : σ} {t : τ} (hst : S s t) {s' : σ}
    (hs : as.foldlM f s = .ok s') : ∃ t', bs.foldlM g t = .ok t' ∧ S s' t' := by
  induction h generalizing s t with
  | nil =>
    cases hs
    exact ⟨t, rfl, hst⟩
  | cons hstep _ ih =>
    rw [List.foldlM_cons] at hs
    obtain ⟨s₁, hs₁, hs⟩ := exists_of_bind_eq_ok hs
    obtain ⟨t₁, ht₁, hst₁⟩ := hstep s t hst s₁ hs₁
    obtain ⟨t', ht', hst'⟩ := ih hst₁ hs
    refine ⟨t', ?_, hst'⟩
    rw [List.foldlM_cons, ht₁]
    exact ht'

theorem addField_renamed {fields fields' : List Field}
    (h : List.Forall₂ (RenamedField old new) fields fields') {f f' : Field}
    (hf : RenamedField old new f f') :
    List.Forall₂ (RenamedField old new) (addField fields f) (addField fields' f') := by
  have hany : (fields'.any fun g => g.name == f'.name) = fields.any fun g => g.name == f.name := by
    rw [hf.name]
    induction h with
    | nil => rfl
    | cons hg _ ih => rw [List.any_cons, List.any_cons, hg.name, ih]
  unfold addField
  rw [hany]
  split
  · exact h
  · exact List.rel_append h (.cons hf .nil)

/-- A property in the file of the import. -/
theorem field?_inside (h : p.RenamedIn files loc tree tree' old new) {known : List String}
    {d d' : EntityClass} (hname : d'.name = d.name) {s s' : Source}
    (hs : RenamedSource old new known s s') {m m' : Node} (hm : RenamedProperty old new m m')
    {r : Option Field} (hr : p.field? d s m = .ok r) :
    ∃ r', { p with files }.field? d' s' m' = .ok r' ∧ Option.Rel (RenamedField old new) r r' := by
  unfold field? at hr ⊢
  dsimp only at hr ⊢
  rw [hm.decorators]
  by_cases hshown : p.settings.exposes (m.decorators.map Node.decoratorName) = true
  · rw [if_pos hshown] at hr ⊢
    have hnames : Origin.Renames old new ⟨p.files, p.settings.cwd, s.imports⟩
        ⟨files, p.settings.cwd, s'.imports⟩ :=
      ⟨h.sameShape.workdir, rfl, hs.imports, hs.fresh⟩
    obtain ⟨t, ht, hr⟩ := exists_of_bind_eq_ok hr
    cases hr
    obtain ⟨t', ht', htype⟩ := Origin.renamed_describe? hnames h.ordinary hm.type ht
    refine ⟨some ⟨m'.propertyName, t', d'.name⟩, ?_, ?_⟩
    · rw [ht']
      rfl
    · rw [hm.name, hname]
      exact .some (renamedField_of_type h.ordinary htype _ _)
  · rw [if_neg hshown] at hr ⊢
    cases hr
    exact ⟨none, rfl, .none⟩

/-- A property in another file. -/
theorem field?_outside (h : p.RenamedIn files loc tree tree' old new) (d : EntityClass) (s : Source)
    (m : Node) : { p with files }.field? d s m = p.field? d s m := by
  have hreference : ∀ name arguments,
      Origin.reference ⟨files, p.settings.cwd, s.imports⟩ name arguments =
        Origin.reference ⟨p.files, p.settings.cwd, s.imports⟩ name arguments := by
    intro name arguments
    unfold Origin.reference Origin.relativePath FileSystem.relative FileSystem.workdirPath
    rw [h.sameShape.workdir]
  unfold field?
  dsimp only
  rw [Origin.describe?_congr hreference]

theorem addProperty_renamed {d d' : EntityClass} {s s' : Source} {m m' : Node}
    (hm : ∀ r, p.field? d s m = .ok r → ∃ r', { p with files }.field? d' s' m' = .ok r' ∧
      Option.Rel (RenamedField old new) r r') {fields fields' : List Field}
    (h : List.Forall₂ (RenamedField old new) fields fields') {more : List Field}
    (hmore : p.addProperty d s fields m = .ok more) :
    ∃ more', { p with files }.addProperty d' s' fields' m' = .ok more' ∧
      List.Forall₂ (RenamedField old new) more more' := by
  unfold addProperty at hmore ⊢
  obtain ⟨r, hr, hmore⟩ := exists_of_bind_eq_ok hmore
  obtain ⟨r', hr', hrel⟩ := hm r hr
  rw [hr']
  cases hrel with
  | none =>
    cases hmore
    exact ⟨fields', rfl, h⟩
  | @some f f' hf =>
    cases hmore
    exact ⟨addField fields' f', rfl, addField_renamed h hf⟩

/-- The properties of a class in the file of the import. -/
theorem addProperties_inside (h : p.RenamedIn files loc tree tree' old new) {known : List String}
    {d d' : EntityClass} (hname : d'.name = d.name) {s s' : Source}
    (hs : RenamedSource old new known s s') {ms ms' : List Node}
    (hms : List.Forall₂ (RenamedProperty old new) ms ms') {fields fields' : List Field}
    (hfields : List.Forall₂ (RenamedField old new) fields fields') {more : List Field}
    (hmore : ms.foldlM (p.addProperty d s) fields = .ok more) :
    ∃ more', ms'.foldlM ({ p with files }.addProperty d' s') fields' = .ok more' ∧
      List.Forall₂ (RenamedField old new) more more' := by
  refine foldlM_forall₂ (hms.imp fun m m' hm t u htu t' ht' => ?_) hfields hmore
  exact addProperty_renamed (fun r hr => field?_inside h hname hs hm hr) htu ht'

/-- The properties of a class in another file. -/
theorem addProperties_outside (h : p.RenamedIn files loc tree tree' old new) (d : EntityClass)
    (s : Source) {ms : List Node} {fields fields' : List Field}
    (hfields : List.Forall₂ (RenamedField old new) fields fields') {more : List Field}
    (hmore : ms.foldlM (p.addProperty d s) fields = .ok more) :
    ∃ more', ms.foldlM ({ p with files }.addProperty d s) fields' = .ok more' ∧
      List.Forall₂ (RenamedField old new) more more' := by
  refine foldlM_forall₂ (List.forall₂_same.mpr fun m _ t u htu t' ht' => ?_) hfields hmore
  refine addProperty_renamed (fun r hr => ⟨r, (field?_outside h d s m).trans hr, ?_⟩) htu ht'
  cases r with
  | none => exact .none
  | some f => exact .some (.refl f)

/-- The sources of twins are twins. -/
theorem sourceTwin_of_imported (h : p.RenamedIn files loc tree tree' old new)
    (hcache : p.shown cache = p.load)
    (hcache' : { p with files }.shown cache' = { p with files }.load) {path : String} {s s' : Source}
    (hs : (p.importSource path).result cache = .ok (some s))
    (hs' : ({ p with files }.importSource path).result cache' = .ok (some s')) :
    p.SourceTwin loc tree old new s s' := by
  rw [importSource_result, hcache] at hs
  rw [importSource_result, hcache'] at hs'
  dsimp only at hs'
  rw [show files.absolute path = p.files.absolute path from h.sameShape.absolute_eq path] at hs'
  have hload := load_renamed h (p.files.absolute path)
  rw [hs, hs'] at hload
  cases hload with
  | loaded hsource => exact hsource

/-- The fields of a class and of its twin, the twin having the properties under their new types in
the file of the import and being the class itself elsewhere. -/
theorem addClass_renamed (h : p.RenamedIn files loc tree tree' old new)
    (hcache : p.shown cache = p.load)
    (hcache' : { p with files }.shown cache' = { p with files }.load) {d d' : EntityClass}
    (hd : p.Declares cache d) (hd' : { p with files }.Declares cache' d')
    (htwin : p.Twin loc tree old new d d') {fields fields' : List Field}
    (hfields : List.Forall₂ (RenamedField old new) fields fields') {more : List Field}
    (hmore : (p.addClass fields d).result cache = .ok more) :
    ∃ more', ({ p with files }.addClass fields' d').result cache' = .ok more' ∧
      List.Forall₂ (RenamedField old new) more more' := by
  have hpath : d'.sourcePath = d.sourcePath := congrArg Prod.fst htwin.key_eq
  obtain ⟨s, hs, hresult⟩ := addClass_result (sound_of_shown hcache) hd
  obtain ⟨s', hs', hresult'⟩ := addClass_result (sound_of_shown hcache') hd'
  rw [hpath] at hs'
  have hsource := sourceTwin_of_imported h hcache hcache' hs hs'
  rw [importSource_result, hcache] at hs
  have hsPath : s.path = d.sourcePath :=
    (load_keyed hs).1.trans (Declares.absolute_eq (sound_of_shown hcache) hd)
  rw [hresult] at hmore
  rw [hresult']
  cases hdecl : d.declaration with
  | none =>
    rw [hdecl] at hmore
    cases hmore
  | some cls =>
    rw [hdecl] at hmore
    by_cases hin : p.files.leadsTo d.sourcePath loc = true
    · have hentity := htwin.inside hin
      have hdeclared := hentity.declared
      have hproperties := hentity.properties
      rw [hdecl, Option.isSome_some] at hdeclared
      obtain ⟨cls', hdecl'⟩ := Option.isSome_iff_exists.mp hdeclared
      rw [EntityClass.properties, EntityClass.properties, hdecl, hdecl'] at hproperties
      rw [hdecl']
      exact addProperties_inside h (congrArg Prod.snd htwin.key_eq) (hsource.inside (hsPath ▸ hin))
        hproperties hfields hmore
    · rw [htwin.outside hin, hsource.outside (hsPath ▸ hin), hdecl]
      exact addProperties_outside h d s hfields hmore

/-- The fields of twins, one class after the other. -/
theorem fields_renamed (h : p.RenamedIn files loc tree tree' old new)
    (hcache : p.shown cache = p.load)
    (hcache' : { p with files }.shown cache' = { p with files }.load)
    {classes classes' : List EntityClass} (hd : ∀ d ∈ classes, p.Declares cache d)
    (hd' : ∀ d' ∈ classes', { p with files }.Declares cache' d')
    (htwins : List.Forall₂ (p.Twin loc tree old new) classes classes') {fields : List Field}
    (hfields : classes.foldlM (fun fields d => (p.addClass fields d).result cache) [] =
      .ok fields) :
    ∃ fields', classes'.foldlM (fun fields d => ({ p with files }.addClass fields d).result cache')
        [] = .ok fields' ∧ List.Forall₂ (RenamedField old new) fields fields' := by
  have hboth := (List.forall₂_and_left (p := p.Declares cache) classes classes').mpr ⟨hd, htwins⟩
  have hall := (List.forall₂_and_left (p := { p with files }.Declares cache') classes' classes).mpr
    ⟨hd', hboth.flip⟩
  refine foldlM_forall₂ (hall.flip.imp fun d d' hdd' s t hst s' hs' => ?_) .nil hfields
  exact addClass_renamed h hcache hcache' hdd'.2.1 hdd'.1 hdd'.2.2 hst hs'

/-! ## The whole renaming -/

/-- Nothing is lost where no reference to `old` in the file of the import finds a class. -/
theorem kept_eq_of_nothing_found (hs : p.Sound cache) {c : EntityClass} (hc : p.Declares cache c)
    {above : List EntityClass} (ha : (p.ancestors c).result cache = .ok above)
    (hnone : ∀ d ∈ c :: above, p.files.leadsTo d.sourcePath loc = true → old ∈ d.heritage →
      p.found cache d old = none) {kept : List EntityClass} {met : Visited}
    (hkept : DepthFirst EntityClass.key (p.keptParents cache loc old) [c.key]
      (p.keptParents cache loc old c) kept met) : kept = above := by
  obtain ⟨⟨met', hdf⟩, -, -, hreached⟩ := of_ancestors_eq_ok hs hc ha
  have hsame : ∀ d, Relation.ReflTransGen (p.Refers cache) c d →
      p.keptParents cache loc old d = p.parents cache d := by
    intro d hd
    have hlost := hnone d (hreached d hd).1
    unfold keptParents parents
    generalize d.heritage = references at hlost
    induction references with
    | nil => rfl
    | cons r references ih =>
      have hrest := ih fun hin hmem => hlost hin (List.mem_cons_of_mem _ hmem)
      by_cases hr : p.isLost loc old d r = true
      · obtain ⟨hin, rfl⟩ : p.files.leadsTo d.sourcePath loc = true ∧ r = old := by
          simpa [isLost] using hr
        rw [List.filter_cons_of_neg (by simpa using hr), hrest,
          List.filterMap_cons_none (hlost hin List.mem_cons_self)]
      · rw [List.filter_cons_of_pos (by simpa using hr), List.filterMap_cons, List.filterMap_cons,
          hrest]
  obtain ⟨out, hout, hrel⟩ : ∃ out,
      DepthFirst EntityClass.key (p.keptParents cache loc old) [c.key]
        (p.keptParents cache loc old c) out met' ∧ List.Forall₂ Eq out above :=
    hdf.transfer
    (P := Relation.ReflTransGen (p.Refers cache) c) (fun a b hab => hab ▸ rfl)
    (fun a b hca hab => by rw [← hab, hsame a hca, List.forall₂_eq_eq_eq])
    (fun d hd e he => hd.tail (refers_of_mem_keptParents he))
    (fun d hd => .single (refers_of_mem_keptParents hd))
    (by rw [hsame c .refl, List.forall₂_eq_eq_eq])
  rw [List.forall₂_eq_eq_eq] at hrel
  rw [← hrel, (hout.unique hkept).1]

theorem eq_of_keys_eq (hs : p.Sound cache) {classes classes' : List EntityClass}
    (hd : ∀ d ∈ classes, p.Declares cache d) (hd' : ∀ d ∈ classes', p.Declares cache d)
    (hkeys : classes.map EntityClass.key = classes'.map EntityClass.key) : classes = classes' := by
  induction classes generalizing classes' with
  | nil => exact (List.map_eq_nil_iff.mp hkeys.symm).symm
  | cons d classes ih =>
    obtain ⟨d', rest', rfl, hkey, hrest⟩ := List.map_eq_cons_iff.mp hkeys.symm
    obtain ⟨hd, hdRest⟩ := List.forall_mem_cons.mp hd
    obtain ⟨hd', hdRest'⟩ := List.forall_mem_cons.mp hd'
    rw [hs.eq_of_key_eq hd hd' hkey.symm, ih hdRest hdRest' hrest.symm]

/-- In a project where a file binds an import to another name, the ancestors of a class are those
that are left, in depth-first order, without the references to the import in that file.  They are the
same ones only if these are all, as they are where the references lead to no class.  Then the fields
are the same, and their Dart types as far as they do not come down to the new name. -/
theorem import_renamed (h : p.RenamedIn files loc tree tree' old new)
    (hcache : p.shown cache = p.load)
    (hcache' : { p with files }.shown cache' = { p with files }.load) {c : EntityClass}
    (hc : p.Declares cache c) {above : List EntityClass}
    (ha : (p.ancestors c).result cache = .ok above) :
    ∃ c' kept met above', { p with files }.Declares cache' c' ∧ c'.key = c.key ∧
      DepthFirst EntityClass.key (p.keptParents cache loc old) [c.key]
        (p.keptParents cache loc old c) kept met ∧
      ({ p with files }.ancestors c').result cache' = .ok above' ∧
      above'.map EntityClass.key = kept.map EntityClass.key ∧
      (above'.map EntityClass.key = above.map EntityClass.key ↔ kept = above) ∧
      ((∀ d ∈ c :: above, p.files.leadsTo d.sourcePath loc = true → old ∈ d.heritage →
        p.found cache d old = none) → kept = above) ∧
      (kept = above → ∀ fields, (p.fields c).result cache = .ok fields →
        ∃ fields', ({ p with files }.fields c').result cache' = .ok fields' ∧
          List.Forall₂ (RenamedField old new) fields fields') := by
  have hsound := sound_of_shown hcache
  have hsound' := sound_of_shown hcache'
  obtain ⟨c', hc', htwin⟩ := exists_twin h hcache hcache' hc
  obtain ⟨kept, met, above', hkept, ha', htwins⟩ := ancestors_renamed h hcache hcache' hc htwin ha
  have hkeys : above'.map EntityClass.key = kept.map EntityClass.key := by
    rw [eq_comm, ← List.forall₂_eq_eq_eq, List.forall₂_map_left_iff, List.forall₂_map_right_iff]
    exact htwins.imp fun d d' hdd' => hdd'.key_eq.symm
  have hdeclared := declares_ancestors hsound hc ha
  have hdeclaredKept : ∀ d ∈ kept, p.Declares cache d := by
    intro d hd
    obtain ⟨a, ha, had⟩ := hkept.reached d hd
    have hstep : Relation.ReflTransGen (p.Refers cache) a d :=
      Relation.ReflTransGen.mono (fun _ _ => refers_of_mem_keptParents) _ _ had
    exact hsound.declares_reached hc (.head (refers_of_mem_keptParents ha) hstep)
  refine ⟨c', kept, met, above', hc', htwin.key_eq, hkept, ha', hkeys, ?_,
    fun hnone => kept_eq_of_nothing_found hsound hc ha hnone hkept, ?_⟩
  · rw [hkeys]
    refine ⟨fun heq => ?_, fun heq => heq ▸ rfl⟩
    exact eq_of_keys_eq hsound hdeclaredKept (List.forall_mem_cons.mp hdeclared).2 heq
  · rintro rfl fields hfields
    rw [fields_result, ha] at hfields
    obtain ⟨fields', hfields', hrel⟩ := fields_renamed h hcache hcache' hdeclared
      (declares_ancestors hsound' hc' ha') (.cons htwin htwins) hfields
    refine ⟨fields', ?_, hrel⟩
    rw [fields_result, ha']
    exact hfields'

/-! ## A base class and a type under another name -/

/-- The field of a class with one visible property, that refers to no other class. -/
theorem fields_single (hs : p.Sound cache) {c : EntityClass} (hc : p.Declares cache c)
    (hheritage : c.heritage = []) {cls m : Node} (hdecl : c.declaration = some cls)
    (hproperties : cls.properties = [m]) {s : Source}
    (hsource : p.shown cache (p.files.absolute c.sourcePath) = .ok (some s)) {f : Field}
    (hf : p.field? c s m = .ok (some f)) : (p.fields c).result cache = .ok [f] := by
  obtain ⟨s', hs', hresult⟩ := addClass_result hs hc
  rw [importSource_result, hsource] at hs'
  cases hs'
  rw [fields_result, ancestors_of_heritage_nil hheritage]
  show [c].foldlM (fun fields d => (p.addClass fields d).result cache) [] = _
  rw [List.foldlM_cons, hresult, hdecl]
  dsimp only
  rw [hproperties, List.foldlM_cons, addProperty, hf]
  rfl

/-- The bytes of a text of plain characters. -/
def plainBytes (text : String) : List UInt8 := text.toList.map fun c => UInt8.ofNat c.toNat

/-- A source tree with a file `/a.ts`, and a file `/b.ts` that declares a class. -/
def besideB (content : List UInt8) : Project where
  reader := Syntax.textReader
  files := ⟨[(["a.ts".toList], .file content),
    (["b.ts".toList], .file (plainBytes "export class B{}"))], []⟩
  settings := (ofText "").settings
  rule := (ofText "").rule
  modules := (ofText "").modules

/-- The imports of a tree and its classes, each with its heritage and its properties. -/
def outline (tree : Node) : List (String × List String) ×
    List (String × Except Error (List String × List String) ×
      List (String × List String × Option Node)) :=
  (tree.imports, tree.classes.map fun c => (c.1.className, c.1.heritageNames,
    c.1.properties.map fun m =>
      (m.propertyName, m.decorators.map Node.decoratorName, m.propertyType?)))

/-- A tree with a class `A` that extends an import, and a class `D` with a property of its type. -/
structure Importing (name : String) (tree a d x : Node) (ea ed : Surroundings) : Prop where
  imports : tree.imports = [("./b", [name])]
  classes : tree.classes = [(a, ea), (d, ed)]
  nameA : a.className = "A"
  heritageA : a.heritageNames = .ok ([name], [])
  propertiesA : a.properties = []
  nameD : d.className = "D"
  heritageD : d.heritageNames = .ok ([], [])
  propertiesD : d.properties = [x]
  nameX : x.propertyName = "x"
  decoratorsX : x.decorators.map Node.decoratorName = ["C"]
  typeX : x.propertyType? = some (.mk .typeIdentifier .none name [])

theorem exists_importing {name : String} (h : outline tree = ([("./b", [name])],
      [("A", .ok ([name], []), []),
        ("D", .ok ([], []), [("x", ["C"], some (.mk .typeIdentifier .none name []))])])) :
    ∃ a d x ea ed, Importing name tree a d x ea ed := by
  simp only [outline, Prod.mk.injEq, List.map_eq_cons_iff, List.map_eq_nil_iff] at h
  obtain ⟨himports, ⟨a, ea⟩, _, hclasses, ⟨hnameA, hheritageA, hpropertiesA⟩, ⟨d, ed⟩, _, rfl,
    ⟨hnameD, hheritageD, x, _, hpropertiesD, ⟨hnameX, ⟨c, _, hc, hnameC, rfl⟩, htypeX⟩, rfl⟩, rfl⟩ := h
  have hdecorators : x.decorators.map Node.decoratorName = ["C"] := by
    rw [hc, List.map_singleton, hnameC]
  exact ⟨a, d, x, ea, ed, himports, hclasses, hnameA, hheritageA, hpropertiesA, hnameD, hheritageD,
    hpropertiesD, hnameX, hdecorators, htypeX⟩

/-- A class of the file `/a.ts` that extends the classes `bases`. -/
def extending (cls : Node) (around : Surroundings) (bases : List String) : EntityClass where
  name := cls.className
  sourcePath := "/a.ts"
  declaration := some cls
  decorators := cls.decoratorNames around
  bases := bases
  interfaces := []
  isEntity := (ofText "").rule.approves (cls.decoratorNames around) bases []

section Importing

variable {name : String} {content : List UInt8} {a d x a' d' x' : Node}
  {ea ed ea' ed' : Surroundings}

theorem readFile_besideB :
    (besideB content).files.readFile "/a.ts" = .ok content ∧
      (besideB content).files.readFile "/b.ts" = .ok (plainBytes "export class B{}") := by
  constructor <;> cbv

theorem absolute_a : (besideB content).files.absolute "/a.ts" = "/a.ts" := by
  cbv

theorem absolute_b : (besideB content).files.absolute "/b.ts" = "/b.ts" := by
  cbv

theorem resolveFile_besideB : (besideB content).modules.resolveFile (besideB content).files "./b"
    (some (Path.dirname "/a.ts")) = .ok "/b.ts" := by
  cbv

theorem relativePath_besideB :
    Origin.relativePath ⟨(besideB content).files, (besideB content).settings.cwd,
      [(name, "/b.ts")]⟩ "/b.ts" = .ok "b.ts" := by
  cbv

theorem entityClass_extending {cls : Node} {around : Surroundings} {bases : List String}
    (h : cls.heritageNames = .ok (bases, [])) :
    (besideB content).entityClass "/a.ts" cls around = .ok (extending cls around bases) := by
  unfold entityClass
  rw [h]
  rfl

/-- The source of the file with the import. -/
theorem load_importing (h : Importing name tree a d x ea ed)
    (htree : (besideB content).ReadsAs content tree) :
    (besideB content).load ((besideB content).files.absolute "/a.ts") =
      .ok (some ⟨"/a.ts", [(name, "/b.ts")],
      [("A", extending a ea [name]), ("D", extending d ed [])]⟩) := by
  have hnameA : (extending a ea [name]).name = "A" := h.nameA
  have hnameD : (extending d ed []).name = "D" := h.nameD
  have himports : (besideB content).importTable tree (Path.dirname "/a.ts") =
      .ok [(name, "/b.ts")] := by
    rw [importTable_eq, h.imports, List.foldlM_cons]
    unfold bindNames
    dsimp only
    rw [resolveFile_besideB]
    rfl
  have hclasses : (besideB content).classTable "/a.ts" tree =
      .ok [("A", extending a ea [name]), ("D", extending d ed [])] := by
    unfold classTable
    rw [h.classes, List.mapM_cons, List.mapM_cons]
    dsimp only
    rw [entityClass_extending h.heritageA, entityClass_extending h.heritageD]
    show Except.ok (nameTable [extending a ea [name], extending d ed []]) = _
    simp [nameTable, setEntry, hnameA, hnameD]
  rw [absolute_a, load_of_readFile readFile_besideB.1 htree, sourceOf, himports, ok_bind, hclasses]
  rfl

theorem load_b :
    ((besideB content).load "/b.ts").map (fun r => r.map fun s =>
      (s.path, s.imports, s.classes.map fun e =>
        (e.1, e.2.key, e.2.heritage))) =
    .ok (some ("/b.ts", [], [("B", ("/b.ts", "B"), [])])) := by
  cbv

/-- The class `B` of the file `/b.ts`. -/
theorem exists_load_b : ∃ b, (besideB content).load "/b.ts" = .ok (some ⟨"/b.ts", [], [("B", b)]⟩) ∧
    b.key = ("/b.ts", "B") ∧ b.heritage = [] := by
  obtain ⟨⟨path, imports, classes⟩, hs, hload⟩ := exists_of_map_eq_ok (@load_b content)
  simp only [Prod.mk.injEq, List.map_eq_cons_iff, List.map_eq_nil_iff] at hload
  obtain ⟨rfl, rfl, ⟨_, b⟩, _, rfl, ⟨rfl, hkey, hheritage⟩, rfl⟩ := hload
  exact ⟨b, hs, hkey, hheritage⟩

theorem declares_importing (h : Importing name tree a d x ea ed)
    (htree : (besideB content).ReadsAs content tree) :
    (besideB content).Declares [] (extending a ea [name]) ∧
      (besideB content).Declares [] (extending d ed []) := by
  have hload := load_importing h htree
  have hnameA : (extending a ea [name]).name = "A" := h.nameA
  have hnameD : (extending d ed []).name = "D" := h.nameD
  refine ⟨⟨"/a.ts", _, hload, ?_⟩, ⟨"/a.ts", _, hload, ?_⟩⟩
  · rw [hnameA]
    rfl
  · rw [hnameD]
    rfl

/-- The class `A` refers to what the name of the import is in `/b.ts`. -/
theorem findClass_importing (h : Importing name tree a d x ea ed)
    (htree : (besideB content).ReadsAs content tree)
    {b : EntityClass} (hb : (besideB content).load "/b.ts" = .ok (some ⟨"/b.ts", [], [("B", b)]⟩)) :
    ((besideB content).findClass (extending a ea [name]) name).result [] =
      .ok ([("B", b)].lookup name) := by
  have hload := load_importing h htree
  have hfind := findClass_of_load (shown_nil _) (c := extending a ea [name]) hload name
  rw [List.lookup_cons, beq_self_eq_true] at hfind
  rw [hfind]
  exact classAt_of_load hb absolute_b

theorem reference_importing :
    Origin.reference ⟨(besideB content).files, (besideB content).settings.cwd, [(name, "/b.ts")]⟩
      name [] = .ok (.reference name [] (some "/b.ts") (some "b.ts")) := by
  have hlook : [(name, "/b.ts")].lookup name = some "/b.ts" := by
    rw [List.lookup_cons, beq_self_eq_true]
  unfold Origin.reference
  dsimp only
  rw [hlook]
  dsimp only
  rw [relativePath_besideB]
  rfl

/-- The class `D` has one field. -/
theorem fields_importing (h : Importing name tree a d x ea ed)
    (htree : (besideB content).ReadsAs content tree) :
    ((besideB content).fields (extending d ed [])).result [] =
      .ok [⟨"x", .reference name [] (some "/b.ts") (some "b.ts"), "D"⟩] := by
  have hname : (extending d ed []).name = "D" := h.nameD
  have hshown : (besideB content).settings.exposes ["C"] = true := rfl
  have hpath : (extending d ed []).sourcePath = "/a.ts" := rfl
  have hsource := load_importing h htree
  rw [← hpath] at hsource
  refine fields_single sound_nil (declares_importing h htree).2 rfl rfl h.propertiesD hsource ?_
  unfold field?
  rw [h.decoratorsX, if_pos hshown, h.typeX, h.nameX, hname]
  show (Origin.reference _ name [] >>= _) = _
  rw [reference_importing]
  rfl

theorem renamedTree_importing (h : Importing "B" tree a d x ea ed)
    (h' : Importing "L" tree' a' d' x' ea' ed') : RenamedTree "B" "L" tree tree' := by
  have hB : "B" ≠ "L" := by decide
  have hclassA : RenamedClass "B" "L" tree.knownNames a a' := by
    refine ⟨h'.nameA.trans h.nameA.symm, ?_, ?_⟩
    · unfold Node.references
      rw [h.heritageA, h'.heritageA]
      exact .ok (.cons (.name hB) .nil)
    · rw [h.propertiesA, h'.propertiesA]
      exact .nil
  have hclassD : RenamedClass "B" "L" tree.knownNames d d' := by
    refine ⟨h'.nameD.trans h.nameD.symm, ?_, ?_⟩
    · unfold Node.references
      rw [h.heritageD, h'.heritageD]
      exact .ok .nil
    · rw [h.propertiesD, h'.propertiesD]
      refine .cons ⟨h'.nameX.trans h.nameX.symm, h'.decoratorsX.trans h.decoratorsX.symm, ?_⟩ .nil
      rw [h.typeX, h'.typeX]
      exact .some (.name hB)
  refine ⟨?_, ?_, ?_, ?_⟩
  · rw [h.imports, h'.imports]
    rfl
  · rw [h.classes, h'.classes]
    exact .cons hclassA (.cons hclassD .nil)
  · rw [h.imports]
    decide
  · rw [h.classes]
    simp [h.nameA, h.nameD]

theorem classes_b : (ModuleReader.read "export class B{}".toList).classes.map (fun c =>
    c.1.className) = ["B"] := by
  cbv

theorem readsAs_b :
    (besideB content).ReadsAs (plainBytes "export class B{}")
      (ModuleReader.read "export class B{}".toList) := by
  refine ⟨"export class B{}".toList, by cbv, ?_⟩
  rw [show Utf8.universalLines "export class B{}".toList = "export class B{}".toList by cbv]
  rfl

/-- What is read from either file declares one of the three classes. -/
theorem names_besideB (h : Importing name tree a d x ea ed)
    (htree : (besideB content).ReadsAs content tree) {path : String} {s : Source} (hs : (besideB content).load path = .ok (some s)) :
    ∀ e ∈ s.classes, e.1 ∈ ["A", "D", "B"] := by
  intro e he
  obtain ⟨bytes, read, hfile, hread, hclasses⟩ := exists_readsAs hs
  obtain ⟨c, hc, hname⟩ := mem_keys_classTable hclasses he
  rw [← hname]
  obtain ⟨loc, hmem⟩ := FileSystem.exists_mem_of_readFile hfile
  simp only [besideB, List.mem_cons, Prod.mk.injEq, Entry.file.injEq, List.not_mem_nil,
    or_false] at hmem
  rcases hmem with ⟨-, rfl⟩ | ⟨-, rfl⟩
  · rw [htree.unique hread, h.classes] at hc
    simp only [List.mem_cons, List.not_mem_nil, or_false] at hc
    rcases hc with rfl | rfl
    · simp [h.nameA]
    · simp [h.nameD]
  · rw [readsAs_b.unique hread] at hc
    have hmem := List.mem_map_of_mem (f := fun c : Node × Surroundings => c.1.className) hc
    rw [classes_b, List.mem_singleton] at hmem
    simp [hmem]

end Importing

def plainText : String := "import{B}from'./b';class A extends B{}class D{@C()x:B;}"

def aliasedText : String := "import{B as L}from'./b';class A extends L{}class D{@C()x:L;}"

theorem outline_plain : outline (ModuleReader.read plainText.toList) = ([("./b", ["B"])],
    [("A", .ok (["B"], []), []),
      ("D", .ok ([], []), [("x", ["C"], some (.mk .typeIdentifier .none "B" []))])]) := by
  cbv

theorem outline_aliased : outline (ModuleReader.read aliasedText.toList) = ([("./b", ["L"])],
    [("A", .ok (["L"], []), []),
      ("D", .ok ([], []), [("x", ["C"], some (.mk .typeIdentifier .none "L" []))])]) := by
  cbv

theorem readsAs_plain (content : List UInt8) :
    (besideB content).ReadsAs (plainBytes plainText) (ModuleReader.read plainText.toList) := by
  refine ⟨plainText.toList, by cbv, ?_⟩
  rw [show Utf8.universalLines plainText.toList = plainText.toList by cbv]
  rfl

theorem readsAs_aliased (content : List UInt8) :
    (besideB content).ReadsAs (plainBytes aliasedText) (ModuleReader.read aliasedText.toList) := by
  refine ⟨aliasedText.toList, by cbv, ?_⟩
  rw [show Utf8.universalLines aliasedText.toList = aliasedText.toList by cbv]
  rfl

/-- The project before the import is renamed, and the one after it. -/
def plain : Project := besideB (plainBytes plainText)

def aliased : Project := besideB (plainBytes aliasedText)

theorem editedAt_besideB (content content' : List UInt8) :
    FileSystem.EditedAt ["a.ts".toList] content content' (besideB content).files
      (besideB content').files := by
  refine ⟨rfl, rfl, rfl, fun l hl => ?_⟩
  unfold FileSystem.lookup
  split
  · rfl
  · simp only [besideB, FileSystem.find, if_neg (Ne.symm hl)]

theorem renamedIn_aliased : plain.RenamedIn aliased.files ["a.ts".toList]
    (ModuleReader.read plainText.toList) (ModuleReader.read aliasedText.toList) "B" "L" := by
  obtain ⟨a, d, x, ea, ed, h⟩ := exists_importing outline_plain
  obtain ⟨a', d', x', ea', ed', h'⟩ := exists_importing outline_aliased
  refine ⟨⟨by decide, by decide, by decide⟩, ⟨_, _, editedAt_besideB _ _, readsAs_plain _,
    readsAs_aliased _⟩, renamedTree_importing h h', fun path s hs => ?_⟩
  rw [List.lookup_eq_none_iff]
  intro e he
  have hname := names_besideB h (readsAs_plain _) hs e he
  rw [bne_iff_ne]
  rintro heq
  rw [← heq] at hname
  exact absurd hname (by decide)

/-- The run of the imported entity. -/
def onlyB : Catalog := ⟨[⟨"b.ts", "B", [], "/m/b.dart"⟩], .casing .pascal⟩

theorem typeName_onlyB (arguments : List TypeDescriptor) (file path : Option String)
    (met : List ModelEntity) :
    ((onlyB.typeName (.reference "B" arguments file path)).exec met).1 = .ok "B" ∧
      ((onlyB.typeName (.reference "L" arguments file path)).exec met).1 = .ok "dynamic" := by
  have hpascal : Casing.pascal.apply "B" = "B" := by decide +kernel
  rw [Catalog.typeName_exec, Catalog.typeName_exec, Catalog.dartType_reference (by decide),
    Catalog.dartType_reference (by decide)]
  exact ⟨congrArg Except.ok hpascal, rfl⟩

/-- Under another name the base class is lost, and so is the Dart type of the property. -/
theorem renamed_import_lost :
    plain.RenamedIn aliased.files ["a.ts".toList] (ModuleReader.read plainText.toList)
      (ModuleReader.read aliasedText.toList) "B" "L" ∧
    (¬∀ c c' above above', plain.Declares [] c → aliased.Declares [] c' → c'.key = c.key →
      (plain.ancestors c).result [] = .ok above → (aliased.ancestors c').result [] = .ok above' →
      above'.map EntityClass.key = above.map EntityClass.key) ∧
    ¬∀ c c' fields fields', plain.Declares [] c → aliased.Declares [] c' → c'.key = c.key →
      (plain.fields c).result [] = .ok fields → (aliased.fields c').result [] = .ok fields' →
      ∀ g : Catalog, g.find? "L" = none →
        fields'.map (fun f => ((g.typeName f.type).exec []).1) =
          fields.map (fun f => ((g.typeName f.type).exec []).1) := by
  obtain ⟨a, d, x, ea, ed, h⟩ := exists_importing outline_plain
  obtain ⟨a', d', x', ea', ed', h'⟩ := exists_importing outline_aliased
  obtain ⟨hdeclA, hdeclD⟩ := declares_importing h (readsAs_plain _)
  obtain ⟨hdeclA', hdeclD'⟩ := declares_importing h' (readsAs_aliased _)
  refine ⟨renamedIn_aliased, fun hclaim => ?_, fun hclaim => ?_⟩
  · obtain ⟨b, hb, hkeyB, hheritageB⟩ := @exists_load_b (plainBytes plainText)
    obtain ⟨b', hb', -⟩ := @exists_load_b (plainBytes aliasedText)
    have hkeyA : (extending a ea ["B"]).key = ("/a.ts", "A") :=
      congrArg (Prod.mk "/a.ts") h.nameA
    have hkeyA' : (extending a' ea' ["L"]).key = ("/a.ts", "A") :=
      congrArg (Prod.mk "/a.ts") h'.nameA
    have habove : (plain.ancestors (extending a ea ["B"])).result [] = .ok [b] := by
      refine ancestors_eq_singleton (by simp [hkeyA, hkeyB]) ?_ hheritageB ?_
      · show [_].filterMap (found _ _ _) = _
        simp [plain, found, findClass_importing h (readsAs_plain _) hb]
      · rintro e ⟨r, hr, hfail⟩
        rw [List.mem_singleton.mp hr, plain, findClass_importing h (readsAs_plain _) hb] at hfail
        cases hfail
    have habove' : (aliased.ancestors (extending a' ea' ["L"])).result [] = .ok [] := by
      refine ancestors_eq_nil ?_ ?_
      · show [_].filterMap (found _ _ _) = _
        simp [aliased, found, findClass_importing h' (readsAs_aliased _) hb', List.lookup_cons]
      · rintro e ⟨r, hr, hfail⟩
        rw [List.mem_singleton.mp hr, aliased, findClass_importing h' (readsAs_aliased _) hb'] at hfail
        cases hfail
    have hkeys := hclaim _ _ _ _ hdeclA hdeclA' (hkeyA'.trans hkeyA.symm) habove habove'
    cases hkeys
  · have hkeyD : (extending d' ed' []).key = (extending d ed []).key :=
      congrArg (Prod.mk "/a.ts") (h'.nameD.trans h.nameD.symm)
    have htypes := hclaim _ _ _ _ hdeclD hdeclD' hkeyD (fields_importing h (readsAs_plain _))
      (fields_importing h' (readsAs_aliased _)) onlyB rfl
    rw [List.map_singleton, List.map_singleton, (typeName_onlyB _ _ _ _).1,
      (typeName_onlyB _ _ _ _).2] at htypes
    simp at htypes

/-- The class `D` has no ancestors in either project, and its field keeps its name. -/
theorem import_renamed_aliased :
    ∃ c, plain.RenamedIn aliased.files ["a.ts".toList] (ModuleReader.read plainText.toList)
        (ModuleReader.read aliasedText.toList) "B" "L" ∧
      plain.Declares [] c ∧ (plain.ancestors c).result [] = .ok [] ∧
      (plain.fields c).result [] = .ok [⟨"x", .reference "B" [] (some "/b.ts") (some "b.ts"), "D"⟩] ∧
      ∃ c' fields', aliased.Declares [] c' ∧ c'.key = c.key ∧
        (aliased.ancestors c').result [] = .ok [] ∧
        (aliased.fields c').result [] = .ok fields' ∧
        List.Forall₂ (RenamedField "B" "L")
          [⟨"x", .reference "B" [] (some "/b.ts") (some "b.ts"), "D"⟩] fields' := by
  obtain ⟨a, d, x, ea, ed, h⟩ := exists_importing outline_plain
  have hdecl := (declares_importing h (readsAs_plain _)).2
  have hheritage : (extending d ed []).heritage = [] := rfl
  have habove := @ancestors_of_heritage_nil plain [] _ hheritage
  have hfields := fields_importing h (readsAs_plain _)
  obtain ⟨c', kept, met, above', hdecl', hkey, -, habove', hkeys, -, hnone, hfieldsRenamed⟩ :=
    import_renamed renamedIn_aliased (shown_nil _) (shown_nil _) hdecl habove
  have hkept : kept = [] := by
    refine hnone fun e he hin hold => ?_
    rw [List.mem_singleton.mp he, hheritage] at hold
    cases hold
  obtain ⟨fields', hfields', hrel⟩ := hfieldsRenamed hkept _ hfields
  rw [hkept, List.map_nil, List.map_eq_nil_iff] at hkeys
  refine ⟨_, renamedIn_aliased, hdecl, habove, hfields, c', fields', hdecl', hkey, ?_, hfields', hrel⟩
  rw [← hkeys]
  exact habove'

end Project

end DartModels
