import NetReplay.Error
import NetReplay.Weights.ElementType

/-!
# Headers of weight containers

The header of a container is a JSON object that maps each tensor to its element
type, its shape and the range of its bytes. One member, `__metadata__`, is no
tensor and holds pairs of texts.

A header is first read as a whole (`Header.read`): it has to be settled, and of
equal keys the last counts, at every level. Its members are then visited in the
order of their names, and the first defect is reported. `Entry.read` reads one
entry, and `Record.ofEntry` checks it against the bytes that are there.
-/

namespace NetReplay

namespace Weights

open Json

/-- The members of an object by name; of equal keys the last counts. -/
def membersByName (members : List (RawText × Tree)) : Decoded (Table Tree) := do
  let entries ← members.mapM fun (key, t) => do pure (← Tree.decodeText key, t)
  pure (Table.ofList entries)

/-- One entry of a header, before it is checked. -/
structure Entry where
  dtype : String
  shape : List UInt64
  /-- The first byte of the tensor and the first behind it. -/
  offsets : UInt64 × UInt64
  deriving DecidableEq, Repr, Inhabited

/-- A tensor of a container. -/
structure Record where
  name : String
  elementType : ElementType
  /-- The declared shape; the range alone decides what is decoded. -/
  shape : List UInt64
  /-- The first byte, counted from the start of the tensor data. -/
  start : Nat
  /-- The first byte behind the tensor. -/
  stop : Nat
  deriving DecidableEq, Repr, Inhabited

namespace Record

def byteLength (r : Record) : Nat := r.stop - r.start

/-- The number of elements that the range holds, where their width is known. -/
def elementCount? (r : Record) : Option Nat := r.elementType.width?.map (r.byteLength / ·)

end Record

namespace Entry

def readOffsets (t : Tree) : Decoded (UInt64 × UInt64) := do
  match ← t.list Tree.word with
  | [start, stop] => pure (start, stop)
  | _ => throw .invalid

/-- Reads an entry: its three fields by name, or in an array by position. A
field of the wrong kind is reported before one that is missing. -/
def read : Tree → Decoded Entry
  | .object members _ => do
    let table ← membersByName members
    let offsets ← (table.get? "data_offsets").mapM readOffsets
    let dtype ← (table.get? "dtype").mapM Tree.text
    let shape ← (table.get? "shape").mapM (Tree.list Tree.word)
    let dtype ← Tree.required "dtype" dtype
    let shape ← Tree.required "shape" shape
    let offsets ← Tree.required "data_offsets" offsets
    pure ⟨dtype, shape, offsets⟩
  | .array [dtype, shape, offsets] _ => do
    pure ⟨← dtype.text, ← shape.list Tree.word, ← readOffsets offsets⟩
  | _ => .error .invalid

end Entry

/-- The tensor of an entry, where `available` bytes of tensor data are there. -/
def Record.ofEntry (name : String) (available : Nat) (e : Entry) : Except Error Record :=
  let start := e.offsets.1
  let stop := e.offsets.2
  let elementType := ElementType.ofTag e.dtype
  let length := stop.toNat - start.toNat
  if stop < start then
    .error (.corruptHeader (.entry name (.reversed start stop)))
  else if available < stop.toNat then
    .error (.truncatedData name stop.toNat available)
  else if elementType.width?.any (length % · != 0) then
    .error (.corruptHeader (.entry name (.ragged length elementType.tag)))
  else
    .ok ⟨name, elementType, e.shape, start.toNat, stop.toNat⟩

/-- What a header says: its tensors and its metadata. -/
structure Header where
  records : Table Record
  metadata : Table String
  deriving DecidableEq

namespace Header

def readMetadata : Tree → Decoded (Table String)
  | .object members _ => do
    let table ← membersByName members
    let pairs ← table.toList.mapM fun (key, t) => do pure (key, ← t.text)
    pure (Table.ofList pairs)
  | _ => .error .invalid

/-- Takes in one member of a header. -/
def visit (available : Nat) (h : Header) (name : String) (t : Tree) : Except Error Header :=
  if name = metadataKey then
    match readMetadata t with
    | .ok metadata => .ok { h with metadata }
    | .error cause => .error (.corruptHeader (.metadata cause))
  else
    match Entry.read t with
    | .ok entry => do
      let record ← Record.ofEntry name available entry
      pure { h with records := h.records.insert name record }
    | .error cause => .error (.corruptHeader (.entry name (.unreadable cause)))

def members (s : List UInt8) : Decoded (Table Tree) :=
  document (fun t =>
    match t with
    | .object members _ =>
      if t.settled Tree.nestingLimit then membersByName members else throw .invalid
    | _ => throw .invalid) s

/-- Reads a header, where `available` bytes of tensor data follow it. -/
def read (available : Nat) (s : List UInt8) : Except Error Header :=
  match members s with
  | .ok table =>
    table.toList.foldlM (fun h (name, t) => visit available h name t) ⟨.empty, .empty⟩
  | .error cause => .error (.corruptHeader (.unreadable cause))

end Header

end Weights

end NetReplay
