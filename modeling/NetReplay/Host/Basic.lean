import NetReplay.Device.Basic
import NetReplay.Host.Binding
import NetReplay.Table
import NetReplay.Text.Quoted

/-!
# The host device

The host device runs kernels that were registered with it beforehand, one work
item after the other. Compiling a kernel looks its name up among the registered
ones; the source text only has to mention it.

A host can be cloned. Clones share the memory of buffers and have everything
else for themselves (`Host.Local`); `Host.Family` is a group of clones with the
memory that they share.
-/

namespace NetReplay

structure CompiledKernel where
  name : String
  body : Kernel.Body

/-- What a clone of a host has for itself. -/
structure Host.Local where
  initialized : Bool
  registry : Table Kernel.Body
  /-- The compiled kernels; the handle of the first is 1. -/
  kernels : List CompiledKernel

/-- A host device. -/
structure Host extends Host.Local where
  memory : Host.Memory

namespace Host

/-- The name under which host devices are reported. -/
def deviceName : String := "host"

/-- A host that was not set up and has no kernels and no buffers, on a machine
that gives `available` bytes to one buffer. -/
def new (available : Nat) : Host := ⟨⟨false, .empty, []⟩, .empty available⟩

instance : Inhabited Host := ⟨new Memory.maxContentBytes⟩

/-- Registers a kernel, or replaces the one of that name. -/
def register (host : Host) (name : String) (body : Kernel.Body) : Host :=
  { host with registry := host.registry.insert name body }

def bufferCount (host : Host) : Nat := host.memory.buffers.length

def kernelCount (host : Host) : Nat := host.kernels.length

def isWritable (host : Host) (h : BufferHandle) : Except DeviceError Bool :=
  (host.memory.find h).map Buffer.writable

def kernel? (host : Host) (h : KernelHandle) : Option CompiledKernel :=
  match h.id with
  | 0 => none
  | n + 1 => host.kernels[n]?

def summary (host : Host) : String :=
  let entryPoints := String.intercalate ", " (host.registry.keys.map Text.quoted)
  s!"HostBackend \x7b initialized: {host.initialized}, entry_points: [{entryPoints}], " ++
    s!"kernels: {host.kernelCount} \x7d"

def occursIn (pattern : List Char) : List Char → Bool
  | [] => pattern.isEmpty
  | c :: rest => pattern.isPrefixOf (c :: rest) || occursIn pattern rest

/-! ## Operations -/

/-- Takes a result over that does not depend on further state. -/
def ofExcept {α : Type} (x : Except DeviceError α) : DeviceM Host α := ExceptT.mk (pure x)

/-- Fails unless the host was set up. -/
def ensureInitialized : DeviceM Host Unit := do
  unless (← get).initialized do
    throw (.notInitialized deviceName)

/-- Sets the host up, which can be done once. -/
def setup : DeviceM Host Unit := do
  if (← get).initialized then
    throw (.alreadyInitialized deviceName)
  modify fun host => { host with initialized := true }

/-- Compiles a registered kernel whose name occurs in the source. -/
def createKernel (name source : String) : DeviceM Host KernelHandle := do
  ensureInitialized
  let host ← get
  let some body := host.registry.get? name
    | throw (.compileError name "no host implementation registered for entry point")
  unless occursIn name.toList source.toList do
    throw (.compileError name s!"entry point not found in {source.utf8ByteSize} bytes of source")
  set { host with kernels := host.kernels ++ [CompiledKernel.mk name body] }
  pure ⟨host.kernelCount + 1⟩

def createBuffer (byteSize : UInt64) (writable : Bool) : DeviceM Host BufferHandle := do
  ensureInitialized
  let host ← get
  let (h, memory) ← ofExcept (host.memory.allocate byteSize writable)
  set { host with memory }
  pure h

def writeBuffer (h : BufferHandle) (data : List Single) : DeviceM Host Unit := do
  ensureInitialized
  let host ← get
  let memory ← ofExcept (host.memory.write h data)
  set { host with memory }

def readBuffer (h : BufferHandle) (count : Nat) : DeviceM Host (List Single) := do
  ensureInitialized
  ofExcept ((← get).memory.read h count)

def bufferSize (h : BufferHandle) : DeviceM Host UInt64 := do
  ensureInitialized
  ofExcept (((← get).memory.find h).map Buffer.byteSize)

/-- Runs a kernel: checks the handle, the launch and the arguments, and then
carries the kernel out at every work item, on contents taken out of memory. -/
def runKernel (h : KernelHandle) (launch : Launch) (args : List BufferHandle) :
    DeviceM Host Unit := do
  ensureInitialized
  let host ← get
  let some kernel := host.kernel? h | throw (.invalidKernelHandle h.id)
  ofExcept (launch.validate.mapError fun e => .dispatchFailed kernel.name e.message)
  let binding ← ofExcept (Binding.ofArgs host.memory kernel.name args)
  let (taken, memory) := host.memory.takeAll binding.bound
  set { host with memory }
  let slots ← ofExcept taken
  let frame := kernel.body.runAll Frame.view launch.workItems ⟨slots, binding.positions⟩
  set { host with memory := memory.restoreAll (binding.bound.zip frame.slots) }

instance : Device Host where
  name := deviceName
  setup := setup
  createKernel := createKernel
  createBuffer := createBuffer
  writeBuffer := writeBuffer
  readBuffer := readBuffer
  bufferSize := bufferSize
  runKernel := runKernel

/-! ## Clones -/

/-- Clones of a host, with the memory that they share. -/
structure Family where
  clones : List Local
  memory : Memory

namespace Family

def ofHost (host : Host) : Family := ⟨[host.toLocal], host.memory⟩

/-- One clone, as a host of its own. -/
def host? (f : Family) (i : Nat) : Option Host := f.clones[i]?.map (⟨·, f.memory⟩)

/-- The family after one clone has come to a new state. -/
def update (f : Family) (i : Nat) (host : Host) : Family :=
  ⟨f.clones.set i host.toLocal, host.memory⟩

/-- Adds a clone that starts as a copy of an existing one. -/
def clone (f : Family) (i : Nat) : Option (Nat × Family) :=
  f.clones[i]?.map fun own => (f.clones.length, { f with clones := f.clones ++ [own] })

end Family

end Host

end NetReplay
