import NetReplay.Error
import NetReplay.Launch.Geometry
import NetReplay.Program.Document

/-!
# Buffers and launches of a program

A `Descriptor` says what buffer a program needs: how many 32-bit elements, and
the tensor that fills it, if any. Buffers that are filled are only read, all
others are written by kernels.

`Statement.launch` gives the launch of a statement. The sizes of a statement
count groups, so the launch covers their product with the size of a group.
-/

namespace NetReplay

namespace Program

/-- A buffer that a program needs. -/
structure Descriptor where
  key : String
  elements : UInt64
  /-- The label that the document gives to the element type. -/
  dtype : Option String
  /-- The tensor that fills the buffer. -/
  source : Option String
  deriving DecidableEq, Repr, Inhabited

namespace Descriptor

def writable (d : Descriptor) : Bool := d.source.isNone

def elementBytes : UInt64 := 4

/-- The bytes of the buffer; `none` when a word cannot count them. -/
def byteSize? (d : Descriptor) : Option UInt64 := Word.mul? d.elements elementBytes

/-- The buffer that a layout describes. An empty identifier names no tensor. -/
def ofLayout (key : String) (layout : Layout) : Descriptor :=
  ⟨key, layout.size, layout.dtype, if layout.id.isEmpty then none else some layout.id⟩

/-- The buffer of the input or of the output, which no tensor fills. -/
def ofSizeField (key : String) : SizeField → Descriptor
  | .count n => ⟨key, n, none, none⟩
  | .buffer layout => { ofLayout key layout with source := none }

end Descriptor

namespace Statement

/-- The sizes of a statement, as three dimensions each; `index` is the position
of the statement. -/
def workSizes (index : Nat) (s : Statement) : Except Error (Dim3 × Dim3) :=
  match Dim3.ofDims? s.globalSize, Dim3.ofDims? s.localSize with
  | some groups, some groupSize => .ok (groups, groupSize)
  | _, _ => .error (.invalidWorkDimensions index (max s.globalSize.length s.localSize.length))

def launch (index : Nat) (s : Statement) : Except Error Launch := do
  let (groups, groupSize) ← s.workSizes index
  pure (Launch.ofGroups groups groupSize)

end Statement

end Program

end NetReplay
