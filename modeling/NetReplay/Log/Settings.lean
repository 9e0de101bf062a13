import NetReplay.Log.Filter
import NetReplay.Settings.Environment
import NetReplay.Word

/-!
# Settings of a log

`Log.Settings` say how a log is filtered and formatted and whether
performance spans are timed. There are three presets, and `ofEnvironment` picks
one of them and applies the variables that override a field. Variables with a
value that cannot be read override nothing.
-/

namespace NetReplay

namespace Log

inductive Format where
  | compact
  | pretty
  | json
  deriving DecidableEq, Repr

def Format.name : Format → String
  | compact => "compact"
  | pretty => "pretty"
  | json => "json"

def Format.ofText? (text : String) : Option Format :=
  [compact, pretty, json].find? (·.name == Text.fold text)

/-- How a log is filtered and formatted. -/
structure Settings where
  /-- The filter; without one the environment or the default decides. -/
  directives : Option String
  /-- The filter when nothing else gives one. -/
  defaultDirective : String := "info"
  includeTargets : Bool := true
  ansi : Bool
  spanClose : Bool
  format : Format
  timing : Bool
  /-- The least duration of a reported span in microseconds. -/
  threshold : Option UInt64
  deriving DecidableEq, Repr

namespace Settings

/-- Coloured output for a terminal. -/
def interactive : Settings where
  directives := none
  ansi := true
  spanClose := false
  format := .pretty
  timing := true
  threshold := none

/-- Output for collecting logs. -/
def ci : Settings where
  directives := none
  ansi := false
  spanClose := false
  format := .json
  timing := false
  threshold := none

/-- Detailed output with the timing of spans. -/
def performance : Settings where
  directives := some "rnnr_backends=debug,rnnr_core=debug,info"
  ansi := false
  spanClose := true
  format := .json
  timing := true
  threshold := none

/-- The preset of a profile. -/
def ofProfile (profile : String) : Settings :=
  match Text.lower profile with
  | "ci" => ci
  | "performance" => performance
  | _ => interactive

/-- The settings in another format. Structured output is never coloured. -/
def withFormat (s : Settings) (format : Format) : Settings :=
  { s with format, ansi := s.ansi && format != .json }

/-- Whether a value turns timing on. -/
def isOn (value : String) : Bool := ["true", "1", "yes"].contains (Text.lower value)

/-- The settings of an environment. -/
def ofEnvironment (env : Environment) : Settings :=
  let s := ofProfile ((env.text? "RNNR_TRACING_PROFILE").getD "local")
  let s := { s with directives := env.nonBlank? "RNNR_TRACING_DIRECTIVES" <|> s.directives }
  let s := match (env.text? "RNNR_TRACING_FORMAT").bind Format.ofText? with
    | some format => s.withFormat format
    | none => s
  let threshold := (env.text? "RNNR_PERF_THRESHOLD_US").bind fun value =>
    Word.ofDecimal? (Text.trim value)
  { s with
    timing := ((env.text? "RNNR_PERF_TRACING").map isOn).getD s.timing
    threshold := threshold <|> s.threshold }

end Settings

end Log

end NetReplay
