/-!
# Paths

A path is a text with slashes between its steps. Doubled slashes, a slash at the
end and single dots behind the first step are no steps, so paths that differ in
nothing else are the same path (`samePath`).
-/

namespace NetReplay

namespace Files

/-- What stands between the slashes of a path. -/
def pieces (path : String) : List String := (path.toList.splitOn '/').map String.ofList

/-- The steps of a path. A slash in front counts as an empty first step, and a
single dot counts only where the path starts with it. -/
def steps (path : String) : List String :=
  if path.isEmpty then []
  else
    match pieces path with
    | [] => []
    | first :: rest => first :: rest.filter fun step => step ≠ "" ∧ step ≠ "."

/-- Whether two texts are the same path. -/
def samePath (p q : String) : Bool := steps p == steps q

end Files

end NetReplay
