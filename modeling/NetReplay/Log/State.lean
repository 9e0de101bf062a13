import NetReplay.Log.Settings
import NetReplay.Log.Timing

/-!
# The log of a process

A process has one switch for the timing of spans and at most one log. Setting up
the log fails when its filter cannot be read or when there is one already. The
switch is set before that is known, so it keeps the new position even when no
log is installed.
-/

namespace NetReplay

namespace Log

/-- Why a log cannot be set up. -/
inductive SetupError where
  | invalidFilter (directives : String)
  /-- There is a log already. -/
  | alreadyInstalled
  deriving DecidableEq, Repr

def SetupError.title : SetupError → String
  | invalidFilter _ => "invalid tracing directive"
  | alreadyInstalled => "failed to install global tracing subscriber"

/-- Whether another failure lies behind this one. -/
def SetupError.hasSource : SetupError → Bool
  | invalidFilter _ => false
  | alreadyInstalled => true

/-- Checks the filter of a log, where `accepts` tells which texts are filters.
Without directives of its own a log falls back to filters that are always good. -/
def Settings.checkFilterBy (accepts : String → Bool) (s : Settings) : Except SetupError Unit :=
  match s.directives with
  | some directives =>
    if accepts directives then .ok () else .error (.invalidFilter directives)
  | none => .ok ()

/-- Checks the filter of a log. -/
def Settings.checkFilter (s : Settings) : Except SetupError Unit :=
  s.checkFilterBy Filter.accepts

/-- What a process has of its log. -/
structure State where
  switch : Switch
  /-- The log, once it is installed. -/
  installed : Option Settings
  deriving DecidableEq, Repr

/-- Sets up the log of a process, where `accepts` tells which texts are filters. -/
def State.installBy (accepts : String → Bool) (p : State) (s : Settings) :
    Except SetupError Unit × State :=
  let p := { p with switch := Switch.set s.timing s.threshold }
  match s.checkFilterBy accepts with
  | .error e => (.error e, p)
  | .ok () =>
    match p.installed with
    | some _ => (.error .alreadyInstalled, p)
    | none => (.ok (), { p with installed := some s })

/-- Sets up the log of a process. -/
def State.install (p : State) (s : Settings) : Except SetupError Unit × State :=
  p.installBy Filter.accepts s

end Log

end NetReplay
