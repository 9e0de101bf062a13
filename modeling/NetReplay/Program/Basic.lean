import NetReplay.Program.Descriptor

/-!
# Programs

A `Program` holds the buffers, the kernel sources and the statements of a
network. `Program.ofBytes` reads one and accepts it when its backend tag is
`GPU` and the bytes of every buffer can be counted. Statements may refer to
kernels and buffers that do not exist: this shows when the statement runs, or
beforehand in `Program.checkReferences`, which reports the first such statement
with the error that a run would raise on reaching it.
-/

namespace NetReplay

/-- The buffers, kernels and statements of a network. -/
structure Program where
  backendTag : String
  input : Program.Descriptor
  output : Program.Descriptor
  buffers : Table Program.Descriptor
  kernels : Table String
  statements : List Program.Statement
  deriving DecidableEq

namespace Program

/-- The tag of the programs that can be run. -/
def supportedTag : String := "GPU"

def inputKey : String := "input"

def outputKey : String := "outputs"

/-- The program that a document describes. -/
def ofDocument (d : Document) : Program where
  backendTag := d.backend
  input := Descriptor.ofSizeField inputKey d.inputSize
  output := Descriptor.ofSizeField outputKey d.outputSize
  buffers := d.buffers.map Descriptor.ofLayout
  kernels := d.functions
  statements := d.statements

/-- All buffers: the declared ones in the order of their keys, then the input,
then the output. -/
def descriptors (p : Program) : List Descriptor := p.buffers.values ++ [p.input, p.output]

/-- The first buffer whose bytes cannot be counted. -/
def oversized? (p : Program) : Option Descriptor :=
  p.descriptors.find? fun d => d.byteSize?.isNone

def ofBytes (s : List UInt8) : Except Error Program :=
  match Document.read s with
  | .error cause => .error (.malformedProgram (.unreadable cause))
  | .ok d =>
    if d.backend ≠ supportedTag then .error (.unsupportedBackend d.backend)
    else
      match (ofDocument d).oversized? with
      | some b => .error (.malformedProgram (.oversizedBuffer b.key b.elements))
      | none => .ok (ofDocument d)

/-- Whether a key names a declared buffer, the input or the output. -/
def declaresBuffer (p : Program) (key : String) : Bool :=
  key == inputKey || key == outputKey || p.buffers.contains key

/-- Checks the sizes, the kernel and the arguments of the statement at a given
position. -/
def checkStatement (p : Program) (index : Nat) (s : Statement) : Except Error Unit := do
  let _ ← s.workSizes index
  if !p.kernels.contains s.kernel then
    throw (.unresolvedKernel index s.kernel)
  match s.args.find? (!p.declaresBuffer ·) with
  | some key => throw (.unresolvedBuffer index key)
  | none => pure ()

/-- Checks statements from a given position on. -/
def checkFrom (p : Program) (index : Nat) : List Statement → Except Error Unit
  | [] => .ok ()
  | s :: rest => do
    p.checkStatement index s
    checkFrom p (index + 1) rest

/-- Checks every statement, and reports the first that a run would fail to
resolve. -/
def checkReferences (p : Program) : Except Error Unit := p.checkFrom 0 p.statements

/-- The number of elements that a run takes. -/
def inputLength (p : Program) : Nat := p.input.elements.toNat

/-- The number of elements that a run gives. -/
def outputLength (p : Program) : Nat := p.output.elements.toNat

end Program

end NetReplay
