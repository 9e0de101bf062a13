/-!
# Number literals

A `Numeral` keeps a number as it is spelled: sign, digits, fraction and
exponent. Two things are asked of it. `word?` is its value as a size, which
only a plain run of digits below 2^64 has. `finite` says whether its value as a
double is finite, where the value is obtained in two steps, each rounding to
nearest: the leading digits that fit in a word, times a power of ten.
-/

namespace NetReplay

namespace Json

/-- A number literal. -/
structure Numeral where
  negative : Bool
  /-- The digits in front of the point. -/
  whole : List Nat
  /-- The digits behind the point, if there is one. -/
  fraction : Option (List Nat)
  /-- The value of the exponent, if there is one. -/
  exponent : Option Int
  deriving DecidableEq, Repr, Inhabited

namespace Numeral

def valueOf (digits : List Nat) : Nat := digits.foldl (fun n d => 10 * n + d) 0

/-- The decimal digits of a number, without leading zeros. -/
def digitsOf (n : Nat) : List Nat :=
  if n < 10 then [n] else digitsOf (n / 10) ++ [n % 10]
termination_by n
decreasing_by omega

theorem valueOf_append_singleton (digits : List Nat) (d : Nat) :
    valueOf (digits ++ [d]) = 10 * valueOf digits + d := by
  simp [valueOf]

theorem valueOf_digitsOf (n : Nat) : valueOf (digitsOf n) = n := by
  fun_induction digitsOf n with
  | case1 n h => simp [valueOf]
  | case2 n h ih =>
      rw [valueOf_append_singleton, ih]
      omega

def ofNat (n : Nat) : Numeral := ⟨false, digitsOf n, none, none⟩

/-- The value as a size: only an unsigned run of digits has one, and only below
2^64. -/
def word? (n : Numeral) : Option UInt64 :=
  if n.negative || n.fraction.isSome || n.exponent.isSome then none
  else if valueOf n.whole < UInt64.size then some (UInt64.ofNat (valueOf n.whole))
  else none

theorem word?_ofNat (w : UInt64) : (ofNat w.toNat).word? = some w := by
  have hw := w.toNat_lt
  simp [ofNat, word?, valueOf_digitsOf]
  omega

/-- Takes digits into a significand as long as it stays below 2^64, and counts
the digits taken. -/
def absorb (significand : Nat) : List Nat → Nat × Nat
  | [] => (significand, 0)
  | d :: rest =>
    if 10 * significand + d < UInt64.size then
      let (s, taken) := absorb (10 * significand + d) rest
      (s, taken + 1)
    else (significand, 0)

/-- The nearest number with at most 53 significant bits, an exact tie going to
the one whose last bit is 0. -/
def round53 (n : Nat) : Nat :=
  let shift := n.log2 - 52
  let unit := Nat.pow 2 shift
  let low := n / unit
  let rest := n % unit
  if 2 * rest > unit || (2 * rest == unit && low % 2 == 1) then (low + 1) * unit
  else low * unit

/-- Whether the value as a double is finite. Digits of the whole part beyond
the significand scale it up, and such digits of the fraction do not count. -/
def finite (n : Numeral) : Bool :=
  let (s, taken) := absorb 0 n.whole
  let (s, places) := absorb s (n.fraction.getD [])
  let scale : Int := (n.whole.length - taken : Nat) - (places : Int) + n.exponent.getD 0
  s == 0 || scale < 0 ||
    (scale ≤ 308 && round53 s * round53 (Nat.pow 10 scale.toNat) < Nat.pow 2 1024 - Nat.pow 2 970)

end Numeral

end Json

end NetReplay
