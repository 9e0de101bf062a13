import NetReplay.Device.Error
import NetReplay.Launch.Geometry
import NetReplay.Single

/-!
# Devices

A `Device σ` is anything that keeps buffers and runs kernels, with states in
`σ`. An operation either succeeds or fails with a `DeviceError`, and leaves a
new state behind in both cases (`DeviceM`). Models are written against this
interface and know nothing else of the device they run on.
-/

namespace NetReplay

/-- An operation of a device with states in `σ`: a result, and the state left
behind whether or not it is a success. -/
abbrev DeviceM (σ : Type) := ExceptT DeviceError (StateM σ)

def DeviceM.runFrom {σ α : Type} (x : DeviceM σ α) (s : σ) : Except DeviceError α × σ :=
  StateT.run (ExceptT.run x) s

/-- Devices with states in `σ`. -/
class Device (σ : Type) where
  name : String
  /-- Makes the device ready; to be called once, before anything else. -/
  setup : DeviceM σ Unit
  createKernel (name source : String) : DeviceM σ KernelHandle
  /-- Allocates a buffer filled with zeros. -/
  createBuffer (byteSize : UInt64) (writable : Bool) : DeviceM σ BufferHandle
  writeBuffer (buffer : BufferHandle) (data : List Single) : DeviceM σ Unit
  /-- Reads the given number of elements from the front of a buffer. -/
  readBuffer (buffer : BufferHandle) (count : Nat) : DeviceM σ (List Single)
  bufferSize (buffer : BufferHandle) : DeviceM σ UInt64
  /-- Runs a kernel over a launch, with buffers bound to its parameters. -/
  runKernel (kernel : KernelHandle) (launch : Launch) (args : List BufferHandle) : DeviceM σ Unit

end NetReplay
