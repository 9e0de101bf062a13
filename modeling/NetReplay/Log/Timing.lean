import NetReplay.Word

/-!
# Timing of spans

Work is timed by spans: a span is opened, and when it is closed its duration is
reported if it is long enough. A `Switch`, shared by the whole process, decides
for each new span whether it is timed at all and gives the least duration of a
report where the span itself has none. Later changes of the switch do not reach
spans that are open already. Durations are counted in microseconds and given to
`close` by whoever reads the clock.

Transfers and dispatches are reported together with their rates.
-/

namespace NetReplay

namespace Log

/-- A report of the log. -/
inductive Event where
  | spanStart (name : String) (index : UInt64) (kernel : String)
  | spanComplete (duration : UInt64)
  | blockComplete (operation : String) (duration : UInt64)
  | transfer (bytes : UInt64) (direction : String) (duration : UInt64)
  | dispatch (kernel : String) (items duration : UInt64)
  deriving DecidableEq, Repr

/-- A value in a report. -/
inductive FieldValue where
  | integer (n : UInt64)
  | real (x : Float)
  | text (s : String)

/-- A count per second, where the duration is in microseconds; 0 when the
duration is. -/
def perSecond (n duration : UInt64) : Float :=
  if duration = 0 then 0 else n.toFloat / duration.toFloat * 1000000

/-- Mebibytes per second; 0 when the duration is. -/
def mebibytesPerSecond (bytes duration : UInt64) : Float :=
  if duration = 0 then 0 else bytes.toFloat / duration.toFloat * 1000000 / (1024 * 1024)

def Event.title : Event → String
  | spanStart .. => "perf_span_start"
  | spanComplete _ => "performance_span_complete"
  | blockComplete .. => "timed_block_complete"
  | transfer .. => "data_transfer"
  | dispatch .. => "kernel_dispatch"

def Event.fields : Event → List (String × FieldValue)
  | spanStart name index kernel =>
    [("name", .text name), ("index", .integer index), ("kernel", .text kernel)]
  | spanComplete duration =>
    [("duration_us", .integer duration), ("duration_ms", .real (duration.toFloat / 1000))]
  | blockComplete operation duration =>
    [("operation", .text operation), ("duration_us", .integer duration)]
  | transfer bytes direction duration =>
    [("event", .text "transfer"), ("bytes", .integer bytes), ("direction", .text direction),
      ("duration_us", .integer duration),
      ("bandwidth_mbps", .real (mebibytesPerSecond bytes duration))]
  | dispatch kernel items duration =>
    [("event", .text "dispatch"), ("kernel", .text kernel), ("work_items", .integer items),
      ("duration_us", .integer duration), ("items_per_sec", .real (perSecond items duration))]

/-- Whether spans are timed, and their least duration. -/
structure Switch where
  enabled : Bool
  /-- The least duration of a report; the largest word stands for none. -/
  leastDuration : UInt64
  deriving DecidableEq, Repr

namespace Switch

/-- The switch in a given position. -/
def set (enabled : Bool) (threshold : Option UInt64) : Switch :=
  ⟨enabled, threshold.getD Word.largest⟩

/-- The least duration of a report, if there is one. -/
def threshold? (s : Switch) : Option UInt64 :=
  if s.leastDuration = Word.largest then none else some s.leastDuration

end Switch

/-- A span that is open. -/
structure Span where
  name : String
  threshold : Option UInt64
  timed : Bool
  deriving DecidableEq, Repr

namespace Span

/-- Opens a span. -/
def start (s : Switch) (name : String) (threshold : Option UInt64) : Span :=
  if s.enabled then ⟨name, threshold <|> s.threshold?, true⟩ else ⟨name, threshold, false⟩

/-- Opens the span of a statement, which is announced. -/
def startStatement (s : Switch) (index : UInt64) (kernel : String) : Span × List Event :=
  let name := "statement"
  (start s name none, if s.enabled then [.spanStart name index kernel] else [])

/-- The duration of a span so far, of which a span that is not timed knows
nothing. -/
def elapsed (span : Span) (duration : UInt64) : UInt64 := if span.timed then duration else 0

/-- Closes a span that has lasted for a given time. -/
def close (span : Span) (duration : UInt64) : List Event :=
  if span.timed && span.threshold.all (· ≤ duration) then [.spanComplete duration] else []

end Span

end Log

end NetReplay
