import NetReplay.Files.Directory
import NetReplay.Host.Basic
import NetReplay.Model.Basic
import NetReplay.Settings.Basic
import NetReplay.Weights.Builder

/-!
# Loading models

Both artifacts of a model are read and checked before the device is touched:
first the program, then, when asked for, its references, and then the weights.
A failure comes with the device as it was left (`Model.loadOnto`).

Where the contents come from is left open (`Files.Reading`); a directory is one
place.
-/

namespace NetReplay

namespace Files

/-- The failure to read or write a file. -/
def Fault.asError (path : String) (fault : Fault) : Error := .file path fault.message

/-- What reading a path gives: the content, or the reason why there is none. -/
def Reading : Type := String → Except String (List UInt8)

def Reading.content (read : Reading) (path : String) : Except Error (List UInt8) :=
  (read path).mapError (.file path)

def Directory.reading (dir : Directory) : Reading := fun path =>
  (dir.read path).mapError Fault.message

end Files

open Files (Directory Reading)

def Program.ofFileBy (read : Reading) (path : String) : Except Error Program := do
  let s ← read.content path
  Program.ofBytes s

def Program.ofFile (dir : Directory) (path : String) : Except Error Program :=
  ofFileBy dir.reading path

def Weights.Store.ofFileBy (read : Reading) (path : String) : Except Error Weights.Store := do
  let s ← read.content path
  Weights.Store.ofBytes s

def Weights.Store.ofFile (dir : Directory) (path : String) : Except Error Weights.Store :=
  ofFileBy dir.reading path

def Weights.Builder.toFile (b : Weights.Builder) (dir : Directory) (path : String) :
    Except Error Directory :=
  (dir.write path b.toBytes).mapError (·.asError path)

/-- Reads the program and the weights that settings name. -/
def Settings.loadArtifactsBy (read : Reading) (settings : Settings) :
    Except Error (Program × Weights.Store) := do
  let program ← Program.ofFileBy read settings.programPath
  if settings.eagerValidation then
    program.checkReferences
  let weights ← Weights.Store.ofFileBy read settings.weightsPath
  pure (program, weights)

def Settings.loadArtifacts (settings : Settings) (dir : Directory) :
    Except Error (Program × Weights.Store) :=
  settings.loadArtifactsBy dir.reading

namespace Model

variable {σ : Type} [Device σ]

/-- Loads a model onto a device and sets it up. A failure comes with the device
as it was left. -/
def loadOntoBy (read : Reading) (settings : Settings) (device : σ) :
    Except (Error × σ) (Model σ) :=
  match settings.loadArtifactsBy read with
  | .error e => .error (e, device)
  | .ok (program, weights) =>
    match (setup weights).runFrom (Model.new device program) with
    | (.ok (), m) => .ok m
    | (.error e, m) => .error (e, m.device)

def loadOnto (settings : Settings) (dir : Directory) (device : σ) :
    Except (Error × σ) (Model σ) :=
  loadOntoBy dir.reading settings device

/-- Loads a model onto a new device of the kind that the settings name, on a
machine that gives `available` bytes to one buffer. -/
def load (settings : Settings) (dir : Directory) (available : Nat) : Except Error (Model Host) :=
  match settings.loadArtifacts dir with
  | .error e => .error e
  | .ok (program, weights) =>
    match settings.device.obstacle? with
    | some e => .error (.device e)
    | none =>
      match (setup weights).runFrom (Model.new (Host.new available) program) with
      | (.ok (), m) => .ok m
      | (.error e, _) => .error e

end Model

end NetReplay
