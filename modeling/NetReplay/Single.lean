import NetReplay.LittleEndian

/-!
# Single-precision numbers as words

Tensor elements are kept as the 32 bits of their IEEE 754 encoding, so that
not-a-number payloads and the sign of zero pass through containers, transfers
and buffers unchanged. Arithmetic on them is the business of kernels.

`Single.ofBytes` and `Single.toBytes` read and write runs of elements in little
endian; a rest of fewer than four bytes is dropped by the first.
-/

namespace NetReplay

/-- A single-precision number, as the bits of its encoding. -/
structure Single where
  bits : UInt32
  deriving DecidableEq, Repr, Inhabited

namespace Single

/-- Positive zero, the content of fresh storage. -/
def zero : Single := ⟨0⟩

/-- The four bytes of an element, least significant first. -/
def encode (x : Single) : List UInt8 := LittleEndian.bytes 4 x.bits.toNat

/-- The element that four bytes stand for. -/
def decode (s : List UInt8) : Single := ⟨UInt32.ofNat (LittleEndian.value s)⟩

theorem length_encode (x : Single) : x.encode.length = 4 :=
  LittleEndian.length_bytes 4 _

theorem decode_encode (x : Single) : decode x.encode = x := by
  have hx := x.bits.toNat_lt
  obtain ⟨w⟩ := x
  simp only [decode, encode, LittleEndian.value_bytes, Nat.pow_eq, Single.mk.injEq]
  rw [← UInt32.toNat_inj, UInt32.toNat_ofNat']
  simp only at hx
  omega

/-- The bytes of a run of elements. -/
def toBytes (xs : List Single) : List UInt8 := xs.flatMap encode

/-- The elements of a run of bytes, four bytes each. -/
def ofBytes : List UInt8 → List Single
  | a :: b :: c :: d :: rest => decode [a, b, c, d] :: ofBytes rest
  | _ => []

theorem length_toBytes (xs : List Single) : (toBytes xs).length = 4 * xs.length := by
  induction xs with
  | nil => rfl
  | cons x xs ih =>
      rw [toBytes, List.flatMap_cons, List.length_append, length_encode, ← toBytes, ih,
        List.length_cons]
      omega

theorem ofBytes_toBytes (xs : List Single) : ofBytes (toBytes xs) = xs := by
  induction xs with
  | nil => rfl
  | cons x xs ih =>
      rw [toBytes, List.flatMap_cons, ← toBytes]
      have hx := decode_encode x
      simp only [encode, LittleEndian.bytes] at hx ⊢
      simp only [List.cons_append, List.nil_append, ofBytes, ih, hx]

theorem encode_decode (a b c d : UInt8) : (decode [a, b, c, d]).encode = [a, b, c, d] := by
  have hlt := LittleEndian.value_lt [a, b, c, d]
  rw [show Nat.pow 256 [a, b, c, d].length = 2 ^ 32 from by simp] at hlt
  rw [encode, decode, UInt32.toNat_ofNat', Nat.mod_eq_of_lt hlt]
  exact LittleEndian.bytes_value [a, b, c, d]

/-- Whole elements write back to the bytes they were read from. -/
theorem toBytes_ofBytes : (s : List UInt8) → s.length % 4 = 0 → toBytes (ofBytes s) = s
  | [], _ => rfl
  | [_], h => by simp at h
  | [_, _], h => by simp at h
  | [_, _, _], h => by simp at h
  | a :: b :: c :: d :: rest, h => by
    have hrest : rest.length % 4 = 0 := by
      simp only [List.length_cons] at h
      omega
    have ih := toBytes_ofBytes rest hrest
    rw [toBytes] at ih
    rw [ofBytes, toBytes, List.flatMap_cons, encode_decode, ih]
    rfl

end Single

end NetReplay
