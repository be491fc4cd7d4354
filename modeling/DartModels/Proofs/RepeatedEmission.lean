import DartModels.Proofs.ModelImports

/-!
# Models that are rendered again

A run has one record for each of its entities: the entities that its model refers to.  A rendering
starts from the record that the last one of the same entity has left, also if that one has failed on
the way.  What a rendering records does not depend on the record it starts from, and an entity is
recorded once, so nothing is new the second time.

    a rendering: one result and one list of entities to record, from any record        (Recording)
    recordAll (recordAll met es) es = recordAll met es                              (recordAll_again)
    c.emit from the record that c.emit has left = c.emit from no record                  (emit_again)
    every call of a run is as the first one for its entity                         (emitCalls_stable)
-/

namespace DartModels

open Dart

namespace Catalog

variable {α β : Type} {c : Catalog} {s : ModelSettings} {fs : FileSystem} {e : ModelEntity}

/-! ## What is recorded -/

theorem any_name_record (name : String) (d : ModelEntity) (met : List ModelEntity) :
    (record d met).any (fun m => m.name == name) =
      (met.any (fun m => m.name == name) || d.name == name) := by
  unfold record
  split
  · next hmet =>
    cases hname : d.name == name with
    | false => rw [Bool.or_false]
    | true =>
      rw [beq_iff_eq] at hname
      rw [← hname, hmet, Bool.true_or]
  · rw [List.any_append, List.any_cons, List.any_nil, Bool.or_false]

theorem any_name_recordAll (name : String) (met es : List ModelEntity) :
    (recordAll met es).any (fun m => m.name == name) =
      (met.any (fun m => m.name == name) || es.any fun d => d.name == name) := by
  induction es generalizing met with
  | nil => rw [List.any_nil, Bool.or_false]; rfl
  | cons d es ih =>
    show (recordAll (record d met) es).any _ = _
    rw [ih, any_name_record, List.any_cons, Bool.or_assoc]

/-- Where all names are recorded, nothing is new. -/
theorem recordAll_of_recorded {met es : List ModelEntity}
    (h : ∀ d ∈ es, met.any (fun m => m.name == d.name) = true) : recordAll met es = met := by
  induction es with
  | nil => rfl
  | cons d es ih =>
    obtain ⟨hd, hes⟩ := List.forall_mem_cons.mp h
    show recordAll (record d met) es = met
    unfold record
    rw [if_pos hd]
    exact ih hes

theorem recordAll_again (met es : List ModelEntity) :
    recordAll (recordAll met es) es = recordAll met es := by
  refine recordAll_of_recorded fun d hd => ?_
  rw [any_name_recordAll, Bool.or_eq_true]
  exact Or.inr (List.any_eq_true.mpr ⟨d, hd, beq_self_eq_true d.name⟩)

/-! ## One result, one list of entities -/

/-- From any record, the work gives the result `r` and records the entities `es`. -/
def Recording (work : Rendering α) (r : Except Error α) (es : List ModelEntity) : Prop :=
  ∀ met, work.exec met = (r, recordAll met es)

theorem recording_lift (r : Except Error α) : Recording (liftM r) r [] :=
  fun met => Rendering.exec_lift r met

theorem Recording.bind_ok {x : Rendering α} {f : α → Rendering β} {a : α} {r : Except Error β}
    {es es' : List ModelEntity} (hx : Recording x (.ok a) es) (hf : Recording (f a) r es') :
    Recording (x >>= f) r (es ++ es') := by
  intro met
  rw [Rendering.exec_bind, hx met, recordAll_append]
  exact hf (recordAll met es)

theorem Recording.bind_error {x : Rendering α} {error : Error} {es : List ModelEntity}
    (hx : Recording x (.error error) es) (f : α → Rendering β) :
    Recording (x >>= f) (.error error) es := by
  intro met
  rw [Rendering.exec_bind, hx met]

/-- The steps of a work may fail at any place; what was recorded until then stays. -/
theorem exists_recording_bind {x : Rendering α} {f : α → Rendering β}
    (hx : ∃ r es, Recording x r es) (hf : ∀ a, ∃ r es, Recording (f a) r es) :
    ∃ r es, Recording (x >>= f) r es := by
  obtain ⟨r, es, hx⟩ := hx
  cases r with
  | error error => exact ⟨_, es, hx.bind_error f⟩
  | ok a =>
    obtain ⟨r, es', hf⟩ := hf a
    exact ⟨r, es ++ es', hx.bind_ok hf⟩

theorem exists_recording_pure (a : α) : ∃ r es, Recording (pure a : Rendering α) r es :=
  ⟨.ok a, [], recording_lift (.ok a)⟩

theorem exists_recording_mapM {f : α → Rendering β} (hf : ∀ a, ∃ r es, Recording (f a) r es)
    (l : List α) : ∃ r es, Recording (l.mapM f) r es := by
  induction l with
  | nil => exact exists_recording_pure []
  | cons a l ih =>
    rw [List.mapM_cons]
    refine exists_recording_bind (hf a) fun b => exists_recording_bind ih fun bs => ?_
    exact exists_recording_pure (b :: bs)

theorem exists_recording_fieldText (f : Field) : ∃ r es, Recording (c.fieldText f) r es := by
  unfold fieldText
  refine exists_recording_bind ⟨_, _, typeName_exec f.type⟩ fun type => ?_
  refine exists_recording_bind ⟨_, _, toJson_exec f.name f.type⟩ fun toJson => ?_
  refine exists_recording_bind ⟨_, _, fromJson_exec f.name f.type⟩ fun fromJson => ?_
  exact exists_recording_pure _

theorem exists_recording_bodyText (s : ModelSettings) (e : ModelEntity) :
    ∃ r es, Recording (c.bodyText s e) r es := by
  unfold bodyText
  refine exists_recording_bind (exists_recording_mapM exists_recording_fieldText e.fields) ?_
  intro fields
  refine exists_recording_bind ⟨_, _, recording_lift (c.className e)⟩ fun name => ?_
  exact exists_recording_pure _

/-! ## One model -/

/-- The header of a model is written from what its class has recorded. -/
theorem emit_exec (met : List ModelEntity) :
    (c.emit s fs e).exec met =
      match (c.bodyText s e).exec met with
      | (.error error, met) => (.error error, met)
      | (.ok body, met) => ((c.headerLines s fs e met).map (fileText s · body), met) := by
  unfold emit
  rw [Rendering.exec_bind]
  rcases (c.bodyText s e).exec met with ⟨error | body, met⟩
  · rfl
  · dsimp only
    rw [Rendering.exec_bind]
    show (liftM (c.headerLines s fs e met) >>= _ : Rendering String).exec met = _
    rw [Rendering.exec_bind, Rendering.exec_lift]
    cases c.headerLines s fs e met <;> rfl

variable (c s fs e) in
/-- The text or the error of a model that is rendered for the first time. -/
def firstText : Except Error String := ((c.emit s fs e).exec []).1

variable (c s fs e) in
/-- What is recorded once a model was rendered, whether or not it has a text. -/
def settledRecord : List ModelEntity := ((c.emit s fs e).exec []).2

/-- A model is rendered again from what was recorded the first time. -/
theorem emit_again :
    (c.emit s fs e).exec (c.settledRecord s fs e) =
      (c.firstText s fs e, c.settledRecord s fs e) := by
  obtain ⟨r, es, hbody⟩ := @exists_recording_bodyText c s e
  have hfirst : (c.emit s fs e).exec [] = (c.firstText s fs e, c.settledRecord s fs e) := rfl
  have hsettled : c.settledRecord s fs e = recordAll [] es := by
    unfold settledRecord
    rw [emit_exec, hbody]
    cases r <;> rfl
  have hbodies : (c.bodyText s e).exec (recordAll [] es) = (c.bodyText s e).exec [] := by
    rw [hbody, hbody, recordAll_again]
  rw [← hfirst, hsettled, emit_exec, hbodies, ← emit_exec]

/-! ## Calls in any order -/

/-- What is recorded for each entity of a run, by its place. -/
abbrev Records (c : Catalog) := Fin c.entities.length → List ModelEntity

/-- The records of entities of which none was rendered yet. -/
def Records.fresh (c : Catalog) : c.Records := fun _ => []

/-- Renders the model of one entity of a run. -/
def emitCall (c : Catalog) (s : ModelSettings) (fs : FileSystem) (records : c.Records)
    (i : Fin c.entities.length) : Except Error String × c.Records :=
  let (outcome, met) := (c.emit s fs c.entities[i]).exec (records i)
  (outcome, Function.update records i met)

/-- Renders models one after another, in any order and any number of times. -/
def emitCalls (c : Catalog) (s : ModelSettings) (fs : FileSystem) :
    List (Fin c.entities.length) → c.Records → List (Except Error String) × c.Records
  | [], records => ([], records)
  | i :: calls, records =>
    let (outcome, records) := c.emitCall s fs records i
    let (outcomes, records) := emitCalls c s fs calls records
    (outcome :: outcomes, records)

variable {records : c.Records}

/-- An entity has no record yet or the one that its first rendering leaves. -/
def Records.Settled (s : ModelSettings) (fs : FileSystem) (records : c.Records) : Prop :=
  ∀ i, records i = [] ∨ records i = c.settledRecord s fs c.entities[i]

theorem settled_fresh : Records.Settled s fs (Records.fresh c) := fun _ => Or.inl rfl

/-- Where all records are settled, a call is as the first one, and settles the record of its entity. -/
theorem emitCall_of_settled (h : Records.Settled s fs records) (i : Fin c.entities.length) :
    c.emitCall s fs records i = (c.firstText s fs c.entities[i],
      Function.update records i (c.settledRecord s fs c.entities[i])) := by
  unfold emitCall
  rcases h i with hi | hi
  · rw [hi]
    rfl
  · rw [hi, emit_again]

theorem Records.Settled.update (h : Records.Settled s fs records) (i : Fin c.entities.length) :
    Records.Settled s fs (Function.update records i (c.settledRecord s fs c.entities[i])) := by
  intro j
  by_cases hj : j = i
  · subst hj
    exact Or.inr (Function.update_self ..)
  · rw [Function.update_of_ne hj]
    exact h j

/-- Calls from settled records: each of them is as a first one, and only the records of their entities
change. -/
theorem emitCalls_of_settled (h : Records.Settled s fs records) (calls : List (Fin c.entities.length)) :
    c.emitCalls s fs calls records =
      (calls.map fun i => c.firstText s fs c.entities[i], fun j =>
        if j ∈ calls then c.settledRecord s fs c.entities[j] else records j) := by
  induction calls generalizing records with
  | nil =>
    simp only [List.not_mem_nil, if_false, List.map_nil]
    rfl
  | cons i calls ih =>
    rw [emitCalls, emitCall_of_settled h]
    dsimp only
    rw [ih (h.update i), List.map_cons]
    refine congrArg (Prod.mk _) (funext fun j => ?_)
    show (if j ∈ calls then _ else Function.update records i _ j) = _
    by_cases hj : j = i
    · subst hj
      rw [Function.update_self, ite_self, if_pos List.mem_cons_self]
    · rw [Function.update_of_ne hj]
      simp only [List.mem_cons, hj, false_or]

/-- In any sequence of calls each of them gives what the first call for its entity gives on its own.  A
call changes the record of no other entity, so an entity ends with the record of its own first call,
or with none if there was no call for it. -/
theorem emitCalls_stable (c : Catalog) (s : ModelSettings) (fs : FileSystem)
    (calls : List (Fin c.entities.length)) :
    let run := c.emitCalls s fs calls (Records.fresh c)
    run.1 = calls.map (fun i => (c.emitCall s fs (Records.fresh c) i).1) ∧
      (∀ i j, j ≠ i → (c.emitCall s fs run.2 i).2 j = run.2 j) ∧
      ∀ i, run.2 i = if i ∈ calls then (c.emitCall s fs (Records.fresh c) i).2 i else [] := by
  have hfresh := @settled_fresh c s fs
  intro run
  have hrun : run = _ := emitCalls_of_settled hfresh calls
  refine ⟨?_, fun i j hj => Function.update_of_ne hj _ _, fun i => ?_⟩
  · rw [hrun]
    refine List.map_congr_left fun i _ => ?_
    rw [emitCall_of_settled hfresh]
  · rw [hrun, emitCall_of_settled hfresh]
    dsimp only
    rw [Function.update_self]
    rfl

end Catalog

end DartModels
