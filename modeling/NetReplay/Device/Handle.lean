/-!
# Handles

Buffers and compiled kernels are known outside a device only by the numbers it
issued for them. The two kinds of handle are distinct types, so neither can be
passed for the other.
-/

namespace NetReplay

/-- The number a device issued for a buffer. -/
structure BufferHandle where
  id : Nat
  deriving DecidableEq, Repr, Inhabited

/-- The number a device issued for a compiled kernel. -/
structure KernelHandle where
  id : Nat
  deriving DecidableEq, Repr, Inhabited

def BufferHandle.text (h : BufferHandle) : String := s!"buf{h.id}"

def KernelHandle.text (h : KernelHandle) : String := s!"kernel{h.id}"

end NetReplay
