import NetReplay.Device.Error
import NetReplay.Single

/-!
# Host memory

Buffers are numbered from 1 in the order of their allocation and are never
freed, so memory is a list of buffers. A buffer of `n` bytes holds the `n / 4`
whole elements that fit. Transfers move elements at the front of a buffer and
fail when their bytes exceed its size. An allocation fails when its bytes cannot
be counted (`maxContentBytes`) or are more than the machine gives
(`Memory.available`).

For the time of a dispatch the contents of a buffer are taken out of memory
(`take`) and put back afterwards (`restore`).
-/

namespace NetReplay

namespace Host

/-- An allocated buffer. -/
structure Buffer where
  contents : Array Single
  byteSize : UInt64
  writable : Bool
  deriving DecidableEq, Repr, Inhabited

/-- All buffers, in the order of their allocation. -/
structure Memory where
  buffers : List Buffer
  /-- The most bytes that the machine gives to one buffer. -/
  available : Nat
  deriving DecidableEq, Repr

namespace Memory

def elementBytes : Nat := 4

/-- The most bytes of the elements of one buffer that can be counted. -/
def maxContentBytes : Nat := UInt64.size / 2 - 1

/-- Memory without buffers, on a machine that gives `available` bytes to one. -/
def empty (available : Nat) : Memory := ⟨[], available⟩

instance : Inhabited Memory := ⟨empty maxContentBytes⟩

def get? (m : Memory) (h : BufferHandle) : Option Buffer :=
  match h.id with
  | 0 => none
  | n + 1 => m.buffers[n]?

def contains (m : Memory) (h : BufferHandle) : Bool := (m.get? h).isSome

def modify (m : Memory) (h : BufferHandle) (f : Buffer → Buffer) : Memory :=
  match h.id with
  | 0 => m
  | n + 1 => { m with buffers := m.buffers.modify n f }

/-- The buffer of a handle, or the failure for a handle without one. -/
def find (m : Memory) (h : BufferHandle) : Except DeviceError Buffer :=
  match m.get? h with
  | some b => .ok b
  | none => .error (.invalidBufferHandle h.id)

/-- The number of elements of a buffer of a given size. -/
def elementsOf (byteSize : UInt64) : Nat := byteSize.toNat / elementBytes

/-- Why a number of bytes cannot be allocated, in the machine's words. -/
def refusal? (m : Memory) (bytes : Nat) : Option String :=
  if maxContentBytes < bytes then
    some "memory allocation failed because the computed capacity exceeded the collection's maximum"
  else if m.available < bytes then
    some "memory allocation failed because the memory allocator returned an error"
  else none

theorem refusal?_eq_none_iff (m : Memory) (bytes : Nat) :
    m.refusal? bytes = none ↔ bytes ≤ maxContentBytes ∧ bytes ≤ m.available := by
  unfold refusal?
  split
  · simp; omega
  · split
    · simp; omega
    · simp; omega

def allocate (m : Memory) (byteSize : UInt64) (writable : Bool) :
    Except DeviceError (BufferHandle × Memory) :=
  let elements := elementsOf byteSize
  match m.refusal? (elements * elementBytes) with
  | some reason => .error (.allocationFailed byteSize reason)
  | none =>
    let buffer : Buffer := ⟨Array.replicate elements Single.zero, byteSize, writable⟩
    .ok (⟨m.buffers.length + 1⟩, { m with buffers := m.buffers ++ [buffer] })

/-- The bytes of a transfer, as far as a word can count them. -/
def transferBytes (elements : Nat) : Nat := min (elements * elementBytes) (UInt64.size - 1)

/-- Refuses a transfer of more bytes than a buffer has. -/
def checkFits (h : BufferHandle) (elements : Nat) (byteSize : UInt64) : Except DeviceError Unit :=
  let bytes := transferBytes elements
  if byteSize.toNat < bytes then
    .error (.transferFailed h s!"{bytes} bytes exceed buffer size {byteSize}")
  else .ok ()

def write (m : Memory) (h : BufferHandle) (data : List Single) : Except DeviceError Memory := do
  let b ← m.find h
  checkFits h data.length b.byteSize
  pure (m.modify h fun b =>
    { b with contents := data.toArray ++ b.contents.extract data.length b.contents.size })

def read (m : Memory) (h : BufferHandle) (count : Nat) : Except DeviceError (List Single) := do
  let b ← m.find h
  checkFits h count b.byteSize
  pure (b.contents.toList.take count)

def take (m : Memory) (h : BufferHandle) : Except DeviceError (Array Single × Memory) := do
  let b ← m.find h
  pure (b.contents, m.modify h fun b => { b with contents := #[] })

def restore (m : Memory) (h : BufferHandle) (contents : Array Single) : Memory :=
  m.modify h fun b => { b with contents }

/-- Takes the contents of several buffers out, one after the other. A failure
leaves those behind that were taken before it. -/
def takeAll (m : Memory) : List BufferHandle → Except DeviceError (List (Array Single)) × Memory
  | [] => (.ok [], m)
  | h :: rest =>
    match m.take h with
    | .error e => (.error e, m)
    | .ok (contents, m) =>
      match m.takeAll rest with
      | (.ok slots, m) => (.ok (contents :: slots), m)
      | (.error e, m) => (.error e, m)

def restoreAll (m : Memory) (slots : List (BufferHandle × Array Single)) : Memory :=
  slots.foldl (fun m (h, contents) => m.restore h contents) m

end Memory

end Host

end NetReplay
