import NetReplay.Device.Error
import NetReplay.Text.Blank

/-!
# Kinds of device

A user picks a device by a word, read without regard to case and to blanks
around it. Only the host device is part of this library; the other kinds are
known by name and cannot be created.
-/

namespace NetReplay

/-- The kinds of device that a user can name. -/
inductive DeviceKind where
  | host
  | openCl
  | metal
  deriving DecidableEq, Repr

namespace DeviceKind

/-- The kind used when none is named. -/
instance : Inhabited DeviceKind := ⟨openCl⟩

def name : DeviceKind → String
  | host => "host"
  | openCl => "opencl"
  | metal => "metal"

/-- The words for a kind. -/
def words : DeviceKind → List String
  | host => ["host", "cpu"]
  | openCl => ["opencl", "cl", "gpu"]
  | metal => ["metal", "mtl"]

def all : List DeviceKind := [host, openCl, metal]

/-- Reads the word for a kind. -/
def ofText (text : String) : Except DeviceError DeviceKind :=
  let word := Text.fold text
  match all.find? fun kind => kind.words.contains word with
  | some kind => .ok kind
  | none => .error (.unsupportedOperation s!"unknown backend `{word}`")

def isAvailable (kind : DeviceKind) : Bool := kind == host

/-- Why a device of a kind cannot be created here. -/
def obstacle? : DeviceKind → Option DeviceError
  | host => none
  | openCl => some (.unsupportedOperation
      "OpenCL backend requires the 'opencl' feature to be enabled")
  | metal => some (.unsupportedOperation "Metal backend is only available on Apple targets")

end DeviceKind

end NetReplay
