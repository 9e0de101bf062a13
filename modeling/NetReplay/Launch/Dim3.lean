import NetReplay.Word

/-!
# Three-dimensional sizes and coordinates

A `Dim3` holds one word per dimension of an index space: a number of work
items, a number of groups, or the coordinates of one of them. Sizes are given
as lists of at most three dimensions, where a missing trailing one counts as 1
(`ofDims?`).
-/

namespace NetReplay

/-- One word for each of the three dimensions of an index space. -/
structure Dim3 where
  x : UInt64
  y : UInt64
  z : UInt64
  deriving DecidableEq, Repr, Inhabited

namespace Dim3

def linear (x : UInt64) : Dim3 := ⟨x, 1, 1⟩

/-- The size with the given dimensions, padded with 1; `none` when there are
more than three. -/
def ofDims? : List UInt64 → Option Dim3
  | [] => some ⟨1, 1, 1⟩
  | [x] => some ⟨x, 1, 1⟩
  | [x, y] => some ⟨x, y, 1⟩
  | [x, y, z] => some ⟨x, y, z⟩
  | _ => none

theorem ofDims?_eq_none_iff (dims : List UInt64) :
    ofDims? dims = none ↔ 3 < dims.length := by
  match dims with
  | [] | [_] | [_, _] | [_, _, _] => simp [ofDims?]
  | _ :: _ :: _ :: _ :: _ => simp [ofDims?]

/-- The three words in the order x, y, z. -/
def toList (d : Dim3) : List UInt64 := [d.x, d.y, d.z]

/-- The word of one dimension. -/
def get (d : Dim3) : Fin 3 → UInt64
  | 0 => d.x
  | 1 => d.y
  | 2 => d.z

/-- The word of a dimension given by number; there are only three. -/
def get? (d : Dim3) (dim : Nat) : Option UInt64 :=
  if h : dim < 3 then some (d.get ⟨dim, h⟩) else none

/-- Combines two sizes dimension by dimension. -/
def zipWith (f : UInt64 → UInt64 → UInt64) (a b : Dim3) : Dim3 :=
  ⟨f a.x b.x, f a.y b.y, f a.z b.z⟩

@[simp] theorem get_zipWith (f : UInt64 → UInt64 → UInt64) (a b : Dim3) (i : Fin 3) :
    (zipWith f a b).get i = f (a.get i) (b.get i) :=
  match i with
  | 0 | 1 | 2 => rfl

/-- The number of positions in an index space of this size, or the largest
word when it does not fit. -/
def total (d : Dim3) : UInt64 :=
  Word.saturatingMul (Word.saturatingMul d.x d.y) d.z

/-- The printed form, `(x, y, z)`. -/
def text (d : Dim3) : String := s!"({d.x}, {d.y}, {d.z})"

end Dim3

end NetReplay
