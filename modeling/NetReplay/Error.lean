import NetReplay.Device.Error
import NetReplay.Json.Decode
import NetReplay.Model.Phase

/-!
# Failures

An `Error` says what went wrong while artifacts were loaded, a model was set up
or a model was run. Defects of an artifact are kept as causes (`HeaderFault`,
`ProgramFault`), so that the entry or buffer at fault can be read off the error
itself; `message` puts them into words.

Two classifications are made here. `isLoadError` tells the failures that come
from loading an artifact, and `statement?` gives the statement of a run to which
a failure belongs.
-/

namespace NetReplay

open Json (DecodeError)

/-- The name of the header member that holds the metadata of a container. -/
def metadataKey : String := "__metadata__"

/-- The largest header that is looked at, in bytes. -/
def maxHeaderLength : Nat := 104857600

inductive EntryFault where
  | unreadable (cause : DecodeError)
  /-- The range ends in front of its start. -/
  | reversed (start stop : UInt64)
  /-- The range does not hold a whole number of elements. -/
  | ragged (length : Nat) (elementType : String)
  deriving DecidableEq, Repr

inductive HeaderFault where
  /-- The container ends inside its length field. -/
  | tooShort (length : Nat)
  | oversized (declared : Nat)
  | overrun (declared length : Nat)
  | unreadable (cause : DecodeError)
  | metadata (cause : DecodeError)
  | entry (tensor : String) (fault : EntryFault)
  /-- A defect described in other words. -/
  | described (detail : String)
  deriving DecidableEq, Repr

inductive ProgramFault where
  | unreadable (cause : DecodeError)
  /-- The bytes of a buffer cannot be counted in a word. -/
  | oversizedBuffer (key : String) (elements : UInt64)
  deriving DecidableEq, Repr

inductive SettingFault where
  | backend (cause : DeviceError)
  | eagerValidation (given : String)
  /-- A defect described in other words. -/
  | described (detail : String)
  deriving DecidableEq, Repr

/-- What went wrong. -/
inductive Error where
  | corruptHeader (fault : HeaderFault)
  | truncatedData (tensor : String) (stop available : Nat)
  | unknownTensor (tensor : String)
  | unsupportedElementType (tensor elementType : String)
  | malformedProgram (fault : ProgramFault)
  /-- The program is made for another kind of runtime. -/
  | unsupportedBackend (tag : String)
  | unresolvedBuffer (statement : Nat) (key : String)
  | unresolvedKernel (statement : Nat) (kernel : String)
  | invalidWorkDimensions (statement dims : Nat)
  | kernelDispatchFailed (statement : Nat) (kernel : String) (source : DeviceError)
  | device (source : DeviceError)
  | inputLength (expected actual : Nat)
  | invalidState (expected actual : Phase)
  /-- A file could not be read or written; the reason is the system's own. -/
  | file (path reason : String)
  | invalidSetting (fault : SettingFault)
  deriving DecidableEq, Repr

def EntryFault.message : EntryFault → String
  | unreadable cause => cause.message
  | reversed start stop => s!"data_offsets [{start}, {stop}] are reversed"
  | ragged length elementType =>
    s!"{length} bytes is not a multiple of the {elementType} element size"

def HeaderFault.message : HeaderFault → String
  | tooShort length => s!"container is only {length} bytes"
  | oversized declared => s!"header length {declared} exceeds limit {maxHeaderLength}"
  | overrun declared length =>
    s!"header length {declared} overruns container of {length} bytes"
  | unreadable cause => cause.message
  | metadata cause => s!"{metadataKey}: {cause.message}"
  | entry tensor fault => s!"tensor `{tensor}`: {fault.message}"
  | described detail => detail

def ProgramFault.message : ProgramFault → String
  | unreadable cause => cause.message
  | oversizedBuffer key elements =>
    s!"buffer `{key}` declares {elements} elements, which overflows the addressable size"

def SettingFault.message : SettingFault → String
  | backend cause => s!"RNNR_BACKEND: {cause.message}"
  | eagerValidation given => s!"RNNR_EAGER_VALIDATION: expected a boolean, got `{given}`"
  | described detail => detail

namespace Error

def message : Error → String
  | corruptHeader fault => s!"Corrupt weight header: {fault.message}"
  | truncatedData tensor stop available =>
    s!"Truncated tensor data for `{tensor}`: range ends at byte {stop}, " ++
      s!"data section has {available} bytes"
  | unknownTensor tensor => s!"Unknown tensor `{tensor}`"
  | unsupportedElementType tensor elementType =>
    s!"Tensor `{tensor}` has unsupported dtype {elementType}"
  | malformedProgram fault => s!"Malformed program description: {fault.message}"
  | unsupportedBackend tag => s!"Unsupported backend `{tag}`"
  | unresolvedBuffer statement key => s!"Statement {statement} references unknown buffer `{key}`"
  | unresolvedKernel statement kernel =>
    s!"Statement {statement} references unknown kernel `{kernel}`"
  | invalidWorkDimensions statement dims =>
    s!"Statement {statement} declares {dims} work dimensions (at most 3)"
  | kernelDispatchFailed statement kernel source =>
    s!"Kernel `{kernel}` failed at statement {statement}: {source.message}"
  | device source => s!"Backend error: {source.message}"
  | inputLength expected actual => s!"Input has {actual} elements, program expects {expected}"
  | invalidState expected actual =>
    s!"Model is {actual.text}, operation requires {expected.text}"
  | file path reason => s!"I/O error on {path}: {reason}"
  | invalidSetting fault => s!"Invalid configuration: {fault.message}"

/-- Whether the failure comes from loading an artifact rather than from using a
model. -/
def isLoadError : Error → Bool
  | corruptHeader _ | truncatedData .. | malformedProgram _ | unsupportedBackend _
  | file .. => true
  | _ => false

/-- The statement to which the failure belongs. -/
def statement? : Error → Option Nat
  | unresolvedBuffer statement _ | unresolvedKernel statement _
  | invalidWorkDimensions statement _ | kernelDispatchFailed statement _ _ => some statement
  | _ => none

/-- The failure of a device behind this one. -/
def deviceSource? : Error → Option DeviceError
  | kernelDispatchFailed _ _ source | device source => some source
  | _ => none

/-- The text of the failure behind this one, of a device or of another layer. -/
def cause? : Error → Option String
  | kernelDispatchFailed _ _ source | device source => some source.message
  | malformedProgram fault => some fault.message
  | file _ reason => some reason
  | _ => none

end Error

end NetReplay
