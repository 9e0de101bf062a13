/-!
# Element types

A container names the element type of each tensor by a tag. Tags outside the
known list are kept as they are, and nothing is known about the width of their
elements. `ofTag` and `tag` are inverse on every text (`tag_ofTag`).
-/

namespace NetReplay

/-- The type of the elements of a stored tensor. -/
inductive ElementType where
  | f16 | bf16 | f32 | f64
  | i8 | i16 | i32 | i64
  | u8 | u16 | u32 | u64
  | bool
  /-- A type with a tag that is not known. -/
  | other (tag : String)
  deriving DecidableEq, Repr, Inhabited

namespace ElementType

def tag : ElementType → String
  | f16 => "F16"
  | bf16 => "BF16"
  | f32 => "F32"
  | f64 => "F64"
  | i8 => "I8"
  | i16 => "I16"
  | i32 => "I32"
  | i64 => "I64"
  | u8 => "U8"
  | u16 => "U16"
  | u32 => "U32"
  | u64 => "U64"
  | bool => "BOOL"
  | other tag => tag

/-- The types with a tag that is known. -/
def known : List ElementType :=
  [f16, bf16, f32, f64, i8, i16, i32, i64, u8, u16, u32, u64, bool]

def ofTag (t : String) : ElementType := (known.find? (·.tag == t)).getD (other t)

theorem tag_ofTag (t : String) : (ofTag t).tag = t := by
  unfold ofTag
  cases h : known.find? (·.tag == t) with
  | none => rfl
  | some e => simpa using List.find?_some h

/-- The width of one element in bytes. -/
def width? : ElementType → Option Nat
  | i8 | u8 | bool => some 1
  | f16 | bf16 | i16 | u16 => some 2
  | f32 | i32 | u32 => some 4
  | f64 | i64 | u64 => some 8
  | other _ => none

end ElementType

end NetReplay
