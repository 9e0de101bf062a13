/-!
# Little-endian numbers

`value` reads a list of bytes as a number, least significant byte first, and
`bytes` writes a number in a given number of bytes. Writing after reading is
the identity (`bytes_value`), and reading after writing gives the number modulo
the width (`value_bytes`).
-/

namespace NetReplay

namespace LittleEndian

/-- The number that a list of bytes stands for, least significant byte first. -/
def value : List UInt8 → Nat
  | [] => 0
  | b :: rest => b.toNat + 256 * value rest

/-- The lowest `width` bytes of a number, least significant first. -/
def bytes : (width : Nat) → Nat → List UInt8
  | 0, _ => []
  | width + 1, n => UInt8.ofNat n :: bytes width (n / 256)

@[simp] theorem length_bytes (width n : Nat) : (bytes width n).length = width := by
  induction width generalizing n with
  | zero => rfl
  | succ width ih => simp [bytes, ih]

theorem value_lt (s : List UInt8) : value s < Nat.pow 256 s.length := by
  induction s with
  | nil => simp [value]
  | cons b rest ih =>
      have hb := b.toNat_lt
      rw [value, List.length_cons, Nat.pow_eq, Nat.pow_succ]
      rw [Nat.pow_eq] at ih
      omega

theorem value_bytes (width n : Nat) : value (bytes width n) = n % Nat.pow 256 width := by
  induction width generalizing n with
  | zero => simp [bytes, value, Nat.mod_one]
  | succ width ih =>
      rw [bytes, value, ih, UInt8.toNat_ofNat']
      show n % 256 + 256 * (n / 256 % 256 ^ width) = n % 256 ^ (width + 1)
      rw [Nat.pow_succ', Nat.mod_mul]

theorem bytes_value (s : List UInt8) : bytes s.length (value s) = s := by
  induction s with
  | nil => rfl
  | cons b rest ih =>
      have hb := b.toNat_lt
      have hdiv : (b.toNat + 256 * value rest) / 256 = value rest := by omega
      rw [List.length_cons, bytes, value, hdiv, ih]
      congr 1
      rw [← UInt8.toNat_inj, UInt8.toNat_ofNat']
      omega

end LittleEndian

end NetReplay
