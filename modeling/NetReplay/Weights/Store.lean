import NetReplay.LittleEndian
import NetReplay.Single
import NetReplay.Text.Quoted
import NetReplay.Weights.Header

/-!
# Weight stores

A weight container is the length of its header as eight bytes in little endian,
the header, and the bytes of the tensors. `Store.ofBytes` reads a container and
checks every tensor against the bytes that are there; `Store.values` decodes
one tensor.

Decoded tensors can be kept: a `Reader` is a store together with what was
decoded so far, and `Reader.get` looks there first.
-/

namespace NetReplay

namespace Weights

/-- A container that was read. -/
structure Store where
  header : Header
  raw : List UInt8
  deriving DecidableEq

namespace Store

/-- Bytes of the length field of a container. -/
def lengthBytes : Nat := 8

/-- Reads a container. -/
def ofBytes (s : List UInt8) : Except Error Store :=
  let declared := LittleEndian.value (s.take lengthBytes)
  let rest := s.drop lengthBytes
  if s.length < lengthBytes then
    .error (.corruptHeader (.tooShort s.length))
  else if maxHeaderLength < declared then
    .error (.corruptHeader (.oversized declared))
  else if rest.length < declared then
    .error (.corruptHeader (.overrun declared s.length))
  else do
    let raw := rest.drop declared
    let header ← Header.read raw.length (rest.take declared)
    pure ⟨header, raw⟩

def records (store : Store) : List Record := store.header.records.values

def names (store : Store) : List String := store.header.records.keys

def record (store : Store) (name : String) : Except Error Record :=
  match store.header.records.get? name with
  | some r => .ok r
  | none => .error (.unknownTensor name)

def contains (store : Store) (name : String) : Bool := store.header.records.contains name

def bytesOf (store : Store) (r : Record) : List UInt8 :=
  (store.raw.drop r.start).take r.byteLength

/-- The elements of a tensor of single-precision numbers. -/
def values (store : Store) (name : String) : Except Error (List Single) := do
  let r ← store.record name
  if r.elementType = .f32 then pure (Single.ofBytes (store.bytesOf r))
  else throw (.unsupportedElementType name r.elementType.tag)

def summary (store : Store) : String :=
  let pairs := store.header.metadata.toList.map fun (key, value) =>
    s!"{Text.quoted key}: {Text.quoted value}"
  let tensors := store.header.records.size
  let metadata := String.intercalate ", " pairs
  s!"WeightStore \x7b tensors: {tensors}, raw_len: {store.raw.length}, " ++
    s!"metadata: \x7b{metadata}\x7d \x7d"

end Store

/-- A store together with the tensors decoded so far. -/
structure Reader where
  store : Store
  decoded : Table (List Single)

namespace Reader

def ofStore (store : Store) : Reader := ⟨store, .empty⟩

/-- The elements of a tensor, kept for the next time when they had to be
decoded. -/
def get (r : Reader) (name : String) : Except Error (List Single) × Reader :=
  match r.decoded.get? name with
  | some values => (.ok values, r)
  | none =>
    match r.store.values name with
    | .ok values => (.ok values, { r with decoded := r.decoded.insert name values })
    | .error e => (.error e, r)

end Reader

end Weights

end NetReplay
