import NetReplay.Json.Printer
import NetReplay.Weights.Store

/-!
# Building weight containers

A `Builder` collects named tensors of single-precision numbers and pairs of
metadata; of several values under one name the last counts. `Builder.toBytes`
lays the tensors out one behind the other in the order of their names, and pads
the header with spaces so that the tensor data starts at a multiple of eight
bytes.
-/

namespace NetReplay

namespace Weights

open Json

structure Tensor where
  shape : List UInt64
  values : List Single
  deriving DecidableEq, Repr, Inhabited

def Tensor.byteLength (t : Tensor) : Nat := 4 * t.values.length

structure Builder where
  tensors : Table Tensor
  metadata : Table String
  deriving DecidableEq

namespace Builder

def empty : Builder := ⟨.empty, .empty⟩

instance : Inhabited Builder := ⟨empty⟩

/-- Adds a tensor, or replaces the one of that name. -/
def add (b : Builder) (name : String) (shape : List UInt64) (values : List Single) : Builder :=
  { b with tensors := b.tensors.insert name ⟨shape, values⟩ }

/-- Adds a pair of metadata, or replaces the one of that key. -/
def note (b : Builder) (key value : String) : Builder :=
  { b with metadata := b.metadata.insert key value }

/-- An object with the entries of a table, in order. -/
def objectTree (t : Table Tree) : Tree :=
  .object (Tree.membersOf t.toList) true

/-- The header entry of a tensor that starts at a given byte, with its fields in
the order of their names. -/
def entryTree (start : Nat) (t : Tensor) : Tree :=
  .object (Tree.membersOf
    [("data_offsets", .array [.ofNat start, .ofNat (start + t.byteLength)] true),
      ("dtype", .ofText ElementType.f32.tag), ("shape", .array (t.shape.map .ofWord) true)])
    true

/-- The entries of tensors laid out from a given byte on. -/
def layout (start : Nat) : List (String × Tensor) → List (String × Tree)
  | [] => []
  | (name, t) :: rest => (name, entryTree start t) :: layout (start + t.byteLength) rest

/-- The members of the header. A tensor named like the metadata takes their
place. -/
def headerTable (b : Builder) : Table Tree :=
  let metadata : Table Tree :=
    if b.metadata.isEmpty then .empty
    else Table.empty.insert metadataKey (objectTree (b.metadata.map fun _ value => .ofText value))
  (layout 0 b.tensors.toList).foldl (fun t (name, entry) => t.insert name entry) metadata

def header (b : Builder) : List UInt8 := (objectTree b.headerTable).render

/-- Spaces up to the next multiple of eight. -/
def pad (s : List UInt8) : List UInt8 := s ++ List.replicate ((8 - s.length % 8) % 8) 0x20

def toBytes (b : Builder) : List UInt8 :=
  let header := pad b.header
  LittleEndian.bytes Store.lengthBytes header.length ++ header ++
    b.tensors.values.flatMap fun t => Single.toBytes t.values

end Builder

end Weights

end NetReplay
