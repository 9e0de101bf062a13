import NetReplay.Host.Memory
import NetReplay.Kernel.Body

/-!
# Binding arguments

The same buffer may be bound to several parameters of a kernel, and all of them
then see the same elements. A `Binding` lists each buffer once, in the order of
first occurrence, and says for every argument which of the listed buffers it is.
A `Frame` holds the contents of the listed buffers during a dispatch;
`Frame.view` shows them to a kernel body as its arguments. `Memory.view` is what
this stands for: every argument is the buffer itself, where it lies in memory.
-/

namespace NetReplay

namespace Host

/-- Which buffers the arguments of a dispatch are. -/
structure Binding where
  /-- The buffers, each once, in the order of first occurrence. -/
  bound : List BufferHandle
  /-- The place in `bound` of every argument. -/
  positions : List Nat
  deriving DecidableEq, Repr

namespace Binding

def empty : Binding := ⟨[], []⟩

def add (b : Binding) (h : BufferHandle) : Binding :=
  match b.bound.idxOf? h with
  | some slot => { b with positions := b.positions ++ [slot] }
  | none => ⟨b.bound ++ [h], b.positions ++ [b.bound.length]⟩

/-- Adds arguments from position `index` on; the first one without a buffer is
refused. -/
def addAll (m : Memory) (kernel : String) (index : Nat) (b : Binding) :
    List BufferHandle → Except DeviceError Binding
  | [] => .ok b
  | h :: rest =>
    if m.contains h then addAll m kernel (index + 1) (b.add h) rest
    else .error (.argBindingFailed kernel index (DeviceError.invalidBufferHandle h.id).message)

/-- The binding of a list of arguments. -/
def ofArgs (m : Memory) (kernel : String) (args : List BufferHandle) :
    Except DeviceError Binding :=
  addAll m kernel 0 empty args

end Binding

/-- The contents of the bound buffers during a dispatch. -/
structure Frame where
  slots : List (Array Single)
  /-- The slot of every argument. -/
  positions : List Nat
  deriving DecidableEq, Repr

namespace Frame

def contents? (f : Frame) (arg : Nat) : Option (Array Single) :=
  f.positions[arg]?.bind (f.slots[·]?)

def write (f : Frame) (arg index : Nat) (x : Single) : Frame :=
  match f.positions[arg]? with
  | some slot => { f with slots := f.slots.modify slot (·.setIfInBounds index x) }
  | none => f

/-- The arguments of a dispatch as a kernel body sees them. -/
def view : Kernel.View Frame where
  count f := f.positions.length
  contents? := contents?
  write := write

end Frame

/-- Buffers in memory as the arguments of a kernel body. -/
def Memory.view (args : List BufferHandle) : Kernel.View Memory where
  count _ := args.length
  contents? m arg := (args[arg]?.bind m.get?).map Buffer.contents
  write m arg index x :=
    match args[arg]? with
    | some h => m.modify h fun b => { b with contents := b.contents.setIfInBounds index x }
    | none => m

end Host

end NetReplay
