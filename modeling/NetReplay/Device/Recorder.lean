import NetReplay.Device.Basic

/-!
# Recording devices

A `Recorder σ` wraps a device with states in `σ`. It keeps a list of all calls
in their order, and can be told to refuse a certain call: a refused call is
recorded and does not reach the device inside.
-/

namespace NetReplay

/-- A call of a device operation that is recorded. -/
inductive DeviceCall where
  | setup
  | createKernel (name source : String)
  | createBuffer (byteSize : UInt64) (writable : Bool)
  | writeBuffer (buffer : BufferHandle) (data : List Single)
  | readBuffer (buffer : BufferHandle) (count : Nat)
  | runKernel (kernel : KernelHandle) (launch : Launch) (args : List BufferHandle)
  deriving DecidableEq, Repr

def DeviceCall.operation : DeviceCall → String
  | setup => "setup"
  | createKernel .. => "create_kernel"
  | createBuffer .. => "create_buffer"
  | writeBuffer .. => "write_buffer"
  | readBuffer .. => "read_buffer"
  | runKernel .. => "run_kernel"

/-- A call to be refused: the `nth` of an operation, counted from 1. -/
structure Refusal where
  operation : String
  nth : Nat
  error : DeviceError
  deriving DecidableEq, Repr

/-- A device together with the calls made so far. -/
structure Recorder (σ : Type) where
  inner : σ
  calls : List DeviceCall
  refusals : List Refusal

namespace Recorder

variable {σ α : Type}

/-- Starts recording. -/
def ofDevice (inner : σ) (refusals : List Refusal) : Recorder σ := ⟨inner, [], refusals⟩

def countOf (r : Recorder σ) (operation : String) : Nat :=
  r.calls.countP (·.operation == operation)

/-- The error with which the next call of an operation is to be refused. -/
def refusal? (r : Recorder σ) (operation : String) : Option DeviceError :=
  (r.refusals.find? fun f =>
    f.operation == operation && f.nth == r.countOf operation + 1).map Refusal.error

/-- Records a call, and lets it through unless it is to be refused. -/
def pass (call : DeviceCall) (x : DeviceM σ α) : DeviceM (Recorder σ) α :=
  ExceptT.mk fun r =>
    let recorded := { r with calls := r.calls ++ [call] }
    match r.refusal? call.operation with
    | some e => (.error e, recorded)
    | none =>
      let (result, inner) := x.runFrom r.inner
      (result, { recorded with inner })

/-- Lets an operation through that is not recorded. -/
def unrecorded (x : DeviceM σ α) : DeviceM (Recorder σ) α :=
  ExceptT.mk fun r =>
    let (result, inner) := x.runFrom r.inner
    (result, { r with inner })

instance [Device σ] : Device (Recorder σ) where
  name := "recording"
  setup := pass .setup Device.setup
  createKernel name source := pass (.createKernel name source) (Device.createKernel name source)
  createBuffer byteSize writable :=
    pass (.createBuffer byteSize writable) (Device.createBuffer byteSize writable)
  writeBuffer buffer data := pass (.writeBuffer buffer data) (Device.writeBuffer buffer data)
  readBuffer buffer count := pass (.readBuffer buffer count) (Device.readBuffer buffer count)
  bufferSize buffer := unrecorded (Device.bufferSize buffer)
  runKernel kernel launch args :=
    pass (.runKernel kernel launch args) (Device.runKernel kernel launch args)

end Recorder

end NetReplay
