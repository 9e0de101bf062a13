/-!
# Sizes in 64-bit words

Sizes are 64-bit words. The product of two sizes does not wrap: it stops at
the largest word (`saturatingMul`), or is refused (`mul?`). The main lemmas,
`toNat_saturatingMul` and `mul?_eq_some_iff`, say both in natural numbers, so
that later proofs never look at words.
-/

namespace NetReplay

namespace Word

/-- The largest word. -/
def largest : UInt64 := 18446744073709551615

@[simp] theorem toNat_largest : largest.toNat = UInt64.size - 1 := rfl

/-- The product of two words, or the largest word when it does not fit. -/
def saturatingMul (a b : UInt64) : UInt64 :=
  UInt64.ofNat (min (a.toNat * b.toNat) (UInt64.size - 1))

theorem toNat_saturatingMul (a b : UInt64) :
    (saturatingMul a b).toNat = min (a.toNat * b.toNat) (UInt64.size - 1) := by
  rw [saturatingMul, UInt64.toNat_ofNat']
  refine Nat.mod_eq_of_lt (Nat.lt_of_le_of_lt (Nat.min_le_right ..) ?_)
  decide

/-- The product of two words; `none` when it does not fit. -/
def mul? (a b : UInt64) : Option UInt64 :=
  if a.toNat * b.toNat < UInt64.size then some (a * b) else none

theorem mul?_eq_some_iff (a b c : UInt64) :
    mul? a b = some c ↔ a.toNat * b.toNat = c.toNat := by
  have hc : c.toNat < UInt64.size := c.toNat_lt
  unfold mul?
  split
  · rename_i h
    have h : a.toNat * b.toNat < 2 ^ 64 := h
    rw [Option.some.injEq, ← UInt64.toNat_inj, UInt64.toNat_mul, Nat.mod_eq_of_lt h]
  · simp only [reduceCtorEq, false_iff]
    omega

theorem mul?_eq_none_iff (a b : UInt64) :
    mul? a b = none ↔ UInt64.size ≤ a.toNat * b.toNat := by
  simp [mul?]

/-- Reads a word in decimal: ASCII digits, with an optional plus sign in front.
Anything else, and a value that does not fit, is `none`. -/
def ofDecimal? (text : String) : Option UInt64 :=
  let digits := match text.toList with
    | '+' :: rest => rest
    | all => all
  if digits.isEmpty || !digits.all Char.isDigit then none
  else
    let value := digits.foldl (fun n c => 10 * n + (c.toNat - '0'.toNat)) 0
    if value < UInt64.size then some (UInt64.ofNat value) else none

end Word

end NetReplay
