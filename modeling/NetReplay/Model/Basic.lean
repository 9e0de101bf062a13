import NetReplay.Device.Basic
import NetReplay.Program.Basic
import NetReplay.Weights.Store

/-!
# Models

A `Model` is a program bound to a device. Setting it up allocates the buffers of
the program, fills those that have a tensor and compiles the kernels; after that
a run only writes the input, dispatches the statements in order and reads the
output back. A failing statement ends the run and leaves the model ready, while
a failure of the setup leaves it faulted for good.

Actions on a model (`ModelM`) give a result and leave a model behind, whether or
not the result is a success.
-/

namespace NetReplay

/-- A program bound to a device with states in `σ`. -/
structure Model (σ : Type) where
  device : σ
  program : Program
  phase : Phase
  buffers : Table BufferHandle
  kernels : Table KernelHandle

/-- An action on a model: a result, and the model left behind whether or not it
is a success. -/
abbrev ModelM (σ : Type) := ExceptT Error (StateM (Model σ))

def ModelM.runFrom {σ α : Type} (x : ModelM σ α) (m : Model σ) : Except Error α × Model σ :=
  StateT.run (ExceptT.run x) m

namespace Model

variable {σ α : Type}

/-- Binds a program to a device that was not set up. -/
def new (device : σ) (program : Program) : Model σ :=
  ⟨device, program, .unconfigured, .empty, .empty⟩

/-- Takes a result over that does not depend on further state. -/
def ofExcept (x : Except Error α) : ModelM σ α := ExceptT.mk (pure x)

/-- Lets the device do something; its failure becomes one of the model. -/
def onDevice (x : DeviceM σ α) (wrap : DeviceError → Error) : ModelM σ α :=
  ExceptT.mk fun m =>
    let (result, device) := x.runFrom m.device
    (result.mapError wrap, { m with device })

def expectPhase (expected : Phase) : ModelM σ Unit := do
  let actual := (← get).phase
  unless actual = expected do
    throw (.invalidState expected actual)

/-- The size to allocate for a buffer. -/
def allocationSize (d : Program.Descriptor) : Except Error UInt64 :=
  match d.byteSize? with
  | some size => .ok size
  | none => .error (.device (.allocationFailed Word.largest
      s!"buffer `{d.key}` of {d.elements} elements overflows the address space"))

/-! ## Resolving statements -/

def reservedBuffer (m : Model σ) (key : String) : Except Error BufferHandle :=
  match m.buffers.get? key with
  | some h => .ok h
  | none => .error (.invalidState .ready m.phase)

def resolveKernel (m : Model σ) (index : Nat) (key : String) : Except Error KernelHandle :=
  match m.kernels.get? key with
  | some h => .ok h
  | none => .error (.unresolvedKernel index key)

def resolveBuffer (m : Model σ) (index : Nat) (key : String) : Except Error BufferHandle :=
  match m.buffers.get? key with
  | some h => .ok h
  | none => .error (.unresolvedBuffer index key)

/-- What a statement asks the device for: its launch, its kernel and its
arguments, resolved in this order. -/
def resolve (m : Model σ) (index : Nat) (s : Program.Statement) :
    Except Error (Launch × KernelHandle × List BufferHandle) := do
  let launch ← s.launch index
  let kernel ← m.resolveKernel index s.kernel
  let args ← s.args.mapM (m.resolveBuffer index)
  pure (launch, kernel, args)

section Device

variable [Device σ]

/-! ## Setting up -/

/-- Allocates a buffer and makes it known under a key, after `fill` was done. -/
def allocate (key : String) (d : Program.Descriptor) (writable : Bool)
    (fill : BufferHandle → ModelM σ Unit) : ModelM σ Unit := do
  let size ← ofExcept (allocationSize d)
  let h ← onDevice (Device.createBuffer size writable) .device
  fill h
  modify fun m => { m with buffers := m.buffers.insert key h }

/-- Fills a buffer with its tensor, if it has one. -/
def fill (weights : Weights.Store) (d : Program.Descriptor) (h : BufferHandle) :
    ModelM σ Unit := do
  match d.source with
  | none => pure ()
  | some source =>
    let values ← ofExcept (weights.values source)
    onDevice (Device.writeBuffer h values) .device

/-- Compiles a kernel and makes it known under its key. -/
def compile (key source : String) : ModelM σ Unit := do
  let h ← onDevice (Device.createKernel key source) .device
  modify fun m => { m with kernels := m.kernels.insert key h }

/-- Sets the device up and gives it everything that the program needs: the
declared buffers in the order of their keys, the input, the output, and the
kernels in the order of their keys. -/
def provision (weights : Weights.Store) : ModelM σ Unit := do
  onDevice Device.setup .device
  let program := (← get).program
  program.buffers.toList.forM fun (key, d) => allocate key d d.writable (fill weights d)
  allocate Program.inputKey program.input false fun _ => pure ()
  allocate Program.outputKey program.output true fun _ => pure ()
  program.kernels.toList.forM fun (key, source) => compile key source

/-- Sets the model up, which can be tried once. -/
def setup (weights : Weights.Store) : ModelM σ Unit := do
  expectPhase .unconfigured
  try
    provision weights
  catch e =>
    modify fun m => { m with phase := .faulted }
    throw e
  modify fun m => { m with phase := .ready }

/-! ## Running -/

def dispatch (index : Nat) (s : Program.Statement) : ModelM σ Unit := do
  let (launch, kernel, args) ← ofExcept ((← get).resolve index s)
  onDevice (Device.runKernel kernel launch args) (.kernelDispatchFailed index s.kernel)

/-- Carries out statements from a given position on. -/
def dispatchFrom (index : Nat) : List Program.Statement → ModelM σ Unit
  | [] => pure ()
  | s :: rest => do
    dispatch index s
    dispatchFrom (index + 1) rest

/-- Runs the program on an input and gives the output. -/
def run (input : List Single) : ModelM σ (List Single) := do
  expectPhase .ready
  let m ← get
  unless input.length = m.program.inputLength do
    throw (.inputLength m.program.inputLength input.length)
  let source ← ofExcept (m.reservedBuffer Program.inputKey)
  onDevice (Device.writeBuffer source input) .device
  dispatchFrom 0 m.program.statements
  let target ← ofExcept (m.reservedBuffer Program.outputKey)
  onDevice (Device.readBuffer target m.program.outputLength) .device

def summary (m : Model σ) : String :=
  let device := Text.quoted (Device.name σ)
  s!"Model \x7b backend: {device}, state: {m.phase.title}, buffers: {m.buffers.size}, " ++
    s!"kernels: {m.kernels.size}, statements: {m.program.statements.length} \x7d"

end Device

end Model

end NetReplay
