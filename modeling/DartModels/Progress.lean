import DartModels.Json.Value
import DartModels.Error

/-!
# Progress and workers

A stage reports once how many items it has, and then each finished item with a running count.

* `Progress.counted`: the reports of finished items.
* `checkWorkers`: the number of workers of a stage has to be positive.
-/

namespace DartModels

/-- A report of a stage. -/
inductive ProgressEvent where
  | started (total : Nat) (items : List String)
  | advanced (count : Nat) (name : String)
  deriving DecidableEq, Inhabited

namespace Progress

/-- The reports of finished items, counted from one. -/
def counted (names : List String) : List ProgressEvent :=
  names.zipIdx.map fun (name, i) => .advanced (i + 1) name

/-- Tasks in an order of their places are all items. -/
theorem perm_items {α : Type} {order : List Nat} {items : List α}
    (h : order.Perm (List.range items.length)) :
    (order.filterMap fun i => items[i]?).Perm items := by
  refine (h.filterMap _).trans (List.Perm.of_eq ?_)
  clear h
  induction items with
  | nil => rfl
  | cons item items ih =>
    rw [List.length_cons, List.range_succ_eq_map, List.filterMap_cons_some List.getElem?_cons_zero,
      List.filterMap_map]
    exact congrArg _ ih

/-- Items in the order of a text of theirs. -/
theorem sorted_mergeSort {α : Type} (key : α → String) (items : List α) :
    (items.mergeSort fun a b => !decide (key b < key a)).Pairwise fun a b => ¬key b < key a := by
  have hsorted := @List.pairwise_mergeSort α (fun a b => !decide (key b < key a))
    (fun a b c hab hbc => ?_) (fun a b => ?_) items
  · exact hsorted.imp fun h => by simpa using h
  · simp only [Bool.not_eq_true', decide_eq_false_iff_not, String.not_lt] at hab hbc ⊢
    exact String.le_trans hab hbc
  · simp only [Bool.or_eq_true, Bool.not_eq_true', decide_eq_false_iff_not, String.not_lt]
    exact String.le_total _ _

/-- The counts run from one to the number of items. -/
theorem counted_map {α : Type} (name : α → String) (items : List α) :
    counted (items.map name) = (items.zipIdx 1).map fun (item, n) => .advanced n (name item) := by
  unfold counted
  rw [List.zipIdx_map, List.map_map, @List.zipIdx_succ α items 0, List.map_map]
  rfl

end Progress

/-- What a stage leaves behind: its result, and what it reported until then. -/
structure StageOutcome (α : Type) where
  result : Except Error α
  progress : List ProgressEvent

/-- Checks the number of workers of a stage; null leaves the choice open. -/
def checkWorkers (workers : Json) : Except Error Unit :=
  match workers with
  | .null => .ok ()
  | .bool b => if b then .ok () else .error .noWorkers
  | .int n => if 0 < n then .ok () else .error .noWorkers
  | .fraction x => if x.isNonPositive then .error .noWorkers else .ok ()
  | other => wrongKind (.notComparable other.typeName)

end DartModels
