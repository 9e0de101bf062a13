import NetReplay.Device.Handle

/-!
# Failures of a device

A `DeviceError` says what a device could not do. Where the cause lies outside
this library (a compiler, a driver, an operating system) the error carries the
device's own words. `message` is the text a user sees, and `isSetupFailure`
tells the failures that no later call can recover from.
-/

namespace NetReplay

/-- What a device could not do. -/
inductive DeviceError where
  | noPlatform (detail : String)
  | noDevice (detail : String)
  | contextCreationFailed (detail : String)
  | queueCreationFailed (detail : String)
  | notInitialized (device : String)
  | alreadyInitialized (device : String)
  | compileError (kernel diagnostic : String)
  | allocationFailed (size : UInt64) (reason : String)
  | invalidBufferHandle (id : Nat)
  | invalidKernelHandle (id : Nat)
  | transferFailed (buffer : BufferHandle) (reason : String)
  | argBindingFailed (kernel : String) (index : Nat) (reason : String)
  | dispatchFailed (kernel reason : String)
  /-- In dimension `dim` the group size does not divide the number of items. -/
  | invalidWorkSize (dim : Nat) (items groupSize : UInt64)
  | unsupportedOperation (detail : String)
  deriving DecidableEq, Repr, Inhabited

namespace DeviceError

/-- Whether the failure came from finding a device or preparing it for use. -/
def isSetupFailure : DeviceError → Bool
  | noPlatform _ | noDevice _ | contextCreationFailed _ | queueCreationFailed _ => true
  | _ => false

def message : DeviceError → String
  | noPlatform detail => s!"no compute platform available: {detail}"
  | noDevice detail => s!"no compute device available: {detail}"
  | contextCreationFailed detail => s!"failed to create execution context: {detail}"
  | queueCreationFailed detail => s!"failed to create command queue: {detail}"
  | notInitialized device => s!"backend `{device}` used before setup"
  | alreadyInitialized device => s!"backend `{device}` is already set up"
  | compileError kernel diagnostic => s!"failed to compile kernel `{kernel}`: {diagnostic}"
  | allocationFailed size reason => s!"failed to allocate {size} bytes: {reason}"
  | invalidBufferHandle id => s!"invalid buffer handle: {id}"
  | invalidKernelHandle id => s!"invalid kernel handle: {id}"
  | transferFailed buffer reason => s!"transfer on {buffer.text} failed: {reason}"
  | argBindingFailed kernel index reason =>
    s!"failed to bind argument {index} of kernel `{kernel}`: {reason}"
  | dispatchFailed kernel reason => s!"failed to dispatch kernel `{kernel}`: {reason}"
  | invalidWorkSize dim items groupSize =>
    s!"local size {groupSize} does not divide global size {items} in dimension {dim}"
  | unsupportedOperation detail => s!"unsupported operation: {detail}"

end DeviceError

end NetReplay
