import NetReplay.Table
import NetReplay.Text.Blank

/-!
# Environments

An `Environment` holds variables with byte values. A value that is not UTF-8
counts as absent (`text?`), and `nonBlank?` also passes over values without any
character that shows.
-/

namespace NetReplay

/-- The variables that a program was started with. -/
structure Environment where
  values : Table (List UInt8)
  deriving DecidableEq

namespace Environment

def text? (env : Environment) (name : String) : Option String :=
  (env.values.get? name).bind fun s => String.fromUTF8? ⟨s.toArray⟩

/-- The text of a variable, unless it is blank. -/
def nonBlank? (env : Environment) (name : String) : Option String :=
  (env.text? name).filter fun value => !Text.isBlank value

end Environment

end NetReplay
