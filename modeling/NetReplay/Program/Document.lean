import NetReplay.Json.Decode

/-!
# Program documents

A program is described by a JSON document. `Document.read` turns it into data
without judging it: any backend tag, any reference and any size that is a word
passes. Every part with named fields may also be written as an array that holds
the fields by position.

The size of the input and of the output is a bare number of elements or a
buffer layout (`SizeField`). Which of the two it is shows only once the value
is there as a whole, so it has to be settled, and no detail of a failure
survives.
-/

namespace NetReplay

namespace Program

open Json

/-- The layout of a buffer, as a document gives it. -/
structure Layout where
  size : UInt64
  dtype : Option String
  /-- The tensor that fills the buffer; empty for none. -/
  id : String
  deriving DecidableEq, Repr, Inhabited

/-- One launch of a kernel, as a document gives it. -/
structure Statement where
  kernel : String
  /-- The keys of the buffers bound to the parameters of the kernel. -/
  args : List String
  /-- The number of groups per dimension. -/
  globalSize : List UInt64
  /-- The number of work items of a group per dimension. -/
  localSize : List UInt64
  deriving DecidableEq, Repr, Inhabited

/-- The size of the input or of the output. -/
inductive SizeField where
  | count (n : UInt64)
  | buffer (layout : Layout)
  deriving DecidableEq, Repr, Inhabited

/-- A program, as a document gives it. -/
structure Document where
  backend : String
  inputSize : SizeField
  outputSize : SizeField
  /-- The source texts of the kernels. -/
  functions : Table String
  statements : List Statement
  buffers : Table Layout
  deriving DecidableEq

namespace Layout

/-- The fields of a layout that were read so far. -/
structure Fields where
  size : Option UInt64 := none
  dtype : Option (Option String) := none
  id : Option String := none

def step (f : Fields) (name : String) (t : Tree) : Decoded Fields :=
  match name with
  | "size" => do pure { f with size := ← Tree.once name f.size Tree.word t }
  | "dtype" => do pure { f with dtype := ← Tree.once name f.dtype (Tree.nullable Tree.text) t }
  | "id" => do pure { f with id := ← Tree.once name f.id Tree.text t }
  | _ => pure f

/-- Puts the fields together; only the size has to be there. -/
def finish (f : Fields) : Decoded Layout := do
  pure ⟨← Tree.required "size" f.size, f.dtype.getD none, f.id.getD ""⟩

def read : Tree → Decoded Layout := Tree.record ["size", "dtype", "id"] {} step finish

end Layout

namespace Statement

/-- The fields of a statement that were read so far. -/
structure Fields where
  kernel : Option String := none
  args : Option (List String) := none
  globalSize : Option (List UInt64) := none
  localSize : Option (List UInt64) := none

def step (f : Fields) (name : String) (t : Tree) : Decoded Fields :=
  match name with
  | "kernel" => do pure { f with kernel := ← Tree.once name f.kernel Tree.text t }
  | "args" => do pure { f with args := ← Tree.once name f.args (Tree.list Tree.text) t }
  | "global_size" => do
    pure { f with globalSize := ← Tree.once name f.globalSize (Tree.list Tree.word) t }
  | "local_size" => do
    pure { f with localSize := ← Tree.once name f.localSize (Tree.list Tree.word) t }
  | _ => pure f

/-- Puts the fields together; only the local size may be left out. -/
def finish (f : Fields) : Decoded Statement := do
  pure ⟨← Tree.required "kernel" f.kernel, ← Tree.required "args" f.args,
    ← Tree.required "global_size" f.globalSize, f.localSize.getD []⟩

def read : Tree → Decoded Statement :=
  Tree.record ["kernel", "args", "global_size", "local_size"] {} step finish

end Statement

/-- Reads the size of the input or of the output. It stands in the outermost
container of the document, which counts towards the nesting. -/
def SizeField.read (t : Tree) : Decoded SizeField :=
  if t.settled (Tree.nestingLimit - 1) then
    match t.word with
    | .ok n => .ok (.count n)
    | .error _ =>
      match Layout.read t with
      | .ok layout => .ok (.buffer layout)
      | .error _ => .error .invalid
  else .error .invalid

namespace Document

/-- The fields of a program that were read so far. -/
structure Fields where
  backend : Option String := none
  inputSize : Option SizeField := none
  outputSize : Option SizeField := none
  functions : Option (Table String) := none
  statements : Option (List Statement) := none
  buffers : Option (Table Layout) := none

def step (f : Fields) (name : String) (t : Tree) : Decoded Fields :=
  match name with
  | "backend" => do pure { f with backend := ← Tree.once name f.backend Tree.text t }
  | "input_size" => do
    pure { f with inputSize := ← Tree.once name f.inputSize SizeField.read t }
  | "output_size" => do
    pure { f with outputSize := ← Tree.once name f.outputSize SizeField.read t }
  | "functions" => do
    pure { f with functions := ← Tree.once name f.functions (Tree.table Tree.text) t }
  | "statements" => do
    pure { f with statements := ← Tree.once name f.statements (Tree.list Statement.read) t }
  | "buffers" => do
    pure { f with buffers := ← Tree.once name f.buffers (Tree.table Layout.read) t }
  | _ => pure f

/-- Puts the fields together; what may be left out is empty then. -/
def finish (f : Fields) : Decoded Document := do
  pure ⟨← Tree.required "backend" f.backend, ← Tree.required "input_size" f.inputSize,
    ← Tree.required "output_size" f.outputSize, f.functions.getD .empty,
    f.statements.getD [], f.buffers.getD .empty⟩

def ofTree : Tree → Decoded Document :=
  Tree.record ["backend", "input_size", "output_size", "functions", "statements", "buffers"] {}
    step finish

def read (s : List UInt8) : Decoded Document := document ofTree s

end Document

end Program

end NetReplay
