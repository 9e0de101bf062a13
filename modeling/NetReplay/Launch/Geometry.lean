import NetReplay.Device.Error
import NetReplay.Launch.Dim3

/-!
# Launch geometry

A `Launch` says how many work items a kernel runs over and how they are
grouped. It is usable when every group dimension is nonzero and divides the
matching number of items; `validate` names the lowest dimension where that
fails.

Statements count groups rather than items, so `Launch.ofGroups` multiplies the
two; a product that does not fit becomes the largest word.
-/

namespace NetReplay

/-- The number of work items of a dispatch and the size of its groups, both
per dimension. -/
structure Launch where
  items : Dim3
  groupSize : Dim3
  deriving DecidableEq, Repr, Inhabited

namespace Launch

def linear (items groupSize : UInt64) : Launch :=
  ⟨Dim3.linear items, Dim3.linear groupSize⟩

/-- The launch of a given number of groups of a given size. -/
def ofGroups (groups groupSize : Dim3) : Launch :=
  ⟨Dim3.zipWith Word.saturatingMul groups groupSize, groupSize⟩

/-- Whether the groups of one dimension have no items or do not divide the
items evenly. -/
def Misfit (l : Launch) (dim : Fin 3) : Prop :=
  l.groupSize.get dim = 0 ∨ l.items.get dim % l.groupSize.get dim ≠ 0

instance (l : Launch) (dim : Fin 3) : Decidable (l.Misfit dim) :=
  inferInstanceAs (Decidable (_ ∨ _))

/-- Accepts a launch without misfit, and names the lowest dimension of one
that has any. -/
def validate (l : Launch) : Except DeviceError Unit :=
  match (List.finRange 3).find? l.Misfit with
  | none => .ok ()
  | some dim => .error (.invalidWorkSize dim (l.items.get dim) (l.groupSize.get dim))

theorem validate_eq_ok_iff (l : Launch) :
    l.validate = .ok () ↔ ∀ dim, ¬ l.Misfit dim := by
  unfold validate
  split
  · rename_i h
    simpa using h
  · rename_i dim h
    have := List.find?_some h
    simp only [reduceCtorEq, false_iff]
    exact fun hall => hall dim (by simpa using this)

/-- The number of groups per dimension, where an empty group counts as a group
of one item. -/
def groups (l : Launch) : Dim3 :=
  Dim3.zipWith (fun items size => items / max size 1) l.items l.groupSize

def totalItems (l : Launch) : UInt64 := l.items.total

def text (l : Launch) : String := s!"global={l.items.text}, local={l.groupSize.text}"

end Launch

end NetReplay
