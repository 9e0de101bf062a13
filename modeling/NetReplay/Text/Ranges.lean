/-!
# Sets of characters as ranges

A set of characters is given by the bounds of its ranges: an increasing list of
code points in which each range has its first code point and the first behind
it. A character is in the set when it has reached an odd number of bounds
(`within`).
-/

namespace NetReplay

namespace Text

def within (bounds : List Nat) (c : Char) : Bool :=
  (bounds.takeWhile (· ≤ c.toNat)).length % 2 == 1

end Text

end NetReplay
