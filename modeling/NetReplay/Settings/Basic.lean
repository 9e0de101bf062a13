import NetReplay.Device.Kind
import NetReplay.Error
import NetReplay.Files.Path
import NetReplay.Settings.Environment

/-!
# Settings

`Settings` say where the artifacts of a model lie and which kind of device runs
it. `Settings.ofEnvironment` starts from the defaults and lets each variable
override its own field; blank variables override nothing. Words are read
without regard to case and to blanks around them, paths are taken as they are.
-/

namespace NetReplay

/-- Where a model is loaded from and what runs it. -/
structure Settings where
  programPath : String := "net.json"
  weightsPath : String := "net.safetensors"
  device : DeviceKind := default
  /-- Whether every statement is resolved already when the model is loaded. -/
  eagerValidation : Bool := false
  deriving DecidableEq, Repr

namespace Settings

instance : Inhabited Settings := ⟨{}⟩

/-- Whether two settings mean the same. -/
def same (s t : Settings) : Bool :=
  Files.samePath s.programPath t.programPath && Files.samePath s.weightsPath t.weightsPath &&
    s.device == t.device && s.eagerValidation == t.eagerValidation

/-- Reads a word for yes or no. -/
def flag? (text : String) : Option Bool :=
  let word := Text.fold text
  if ["true", "1", "yes", "on"].contains word then some true
  else if ["false", "0", "no", "off"].contains word then some false
  else none

/-- Reads the kind of device of a variable. -/
def readDevice (value : String) : Except Error DeviceKind :=
  (DeviceKind.ofText value).mapError fun e => .invalidSetting (.backend e)

/-- Reads the yes or no of a variable. -/
def readFlag (value : String) : Except Error Bool :=
  match flag? value with
  | some b => .ok b
  | none => .error (.invalidSetting (.eagerValidation value))

/-- The settings of an environment. -/
def ofEnvironment (env : Environment) : Except Error Settings := do
  let defaults : Settings := {}
  let device ← (env.nonBlank? "RNNR_BACKEND").mapM readDevice
  let eager ← (env.nonBlank? "RNNR_EAGER_VALIDATION").mapM readFlag
  pure {
    programPath := (env.nonBlank? "RNNR_MODEL").getD defaults.programPath
    weightsPath := (env.nonBlank? "RNNR_WEIGHTS").getD defaults.weightsPath
    device := device.getD defaults.device
    eagerValidation := eager.getD defaults.eagerValidation }

end Settings

end NetReplay
