import NetReplay.Host.Basic
import NetReplay.Proofs.Device.Runs

/-!
# What the operations of a host do

One equation for each operation on a host that was set up. Nothing but an
allocation, a write or a dispatch touches memory, and a dispatch moves contents
only after its kernel, its launch and its arguments were accepted
(`runFrom_runKernel`). On a host that was not set up every operation but the
setup itself fails at once (`runFrom_ensureInitialized_bind`).
-/

namespace NetReplay

namespace Host

open DeviceM

variable {host : Host}

theorem runFrom_ofExcept {α : Type} (x : Except DeviceError α) (host : Host) :
    (ofExcept x).runFrom host = (x, host) := rfl

theorem runFrom_ensureInitialized (host : Host) :
    ensureInitialized.runFrom host =
      (if host.initialized then .ok () else .error (.notInitialized deviceName), host) := by
  simp only [ensureInitialized, runFrom_bind, runFrom_get]
  cases host.initialized with
  | false => rfl
  | true => rfl

theorem runFrom_setup (host : Host) :
    setup.runFrom host =
      if host.initialized then (.error (.alreadyInitialized deviceName), host)
      else (.ok (), { host with initialized := true }) := by
  simp only [setup, runFrom_bind, runFrom_get]
  cases host.initialized with
  | false => rfl
  | true => rfl

/-! ## Compiled kernels -/

/-- The host with a further compiled kernel. -/
def withKernel (host : Host) (kernel : CompiledKernel) : Host :=
  { host with kernels := host.kernels ++ [kernel] }

theorem kernel?_withKernel_next (host : Host) (kernel : CompiledKernel) :
    (host.withKernel kernel).kernel? ⟨host.kernels.length + 1⟩ = some kernel :=
  List.getElem?_concat_length

/-- A handle means the same kernel when others are compiled later. -/
theorem kernel?_withKernel_of_some {h : KernelHandle} {kernel : CompiledKernel}
    (hkernel : host.kernel? h = some kernel) (next : CompiledKernel) :
    (host.withKernel next).kernel? h = some kernel := by
  rw [kernel?] at hkernel ⊢
  split at hkernel
  · cases hkernel
  · obtain ⟨hlt, -⟩ := List.getElem?_eq_some_iff.mp hkernel
    rw [← hkernel]
    exact List.getElem?_append_left hlt

/-! ## Operations -/

section Initialized

variable (hinit : host.initialized = true)

include hinit

theorem runFrom_createKernel (name source : String) :
    (createKernel name source).runFrom host = match host.registry.get? name with
      | none => (.error (.compileError name
          "no host implementation registered for entry point"), host)
      | some body =>
        if occursIn name.toList source.toList then
          (.ok ⟨host.kernels.length + 1⟩, host.withKernel ⟨name, body⟩)
        else
          (.error (.compileError name
            s!"entry point not found in {source.utf8ByteSize} bytes of source"), host) := by
  simp only [createKernel, withKernel, runFrom_bind, runFrom_ensureInitialized, runFrom_get, hinit,
    if_true]
  cases host.registry.get? name with
  | none => rfl
  | some body => cases occursIn name.toList source.toList <;> rfl

theorem runFrom_createBuffer (byteSize : UInt64) (writable : Bool) :
    (createBuffer byteSize writable).runFrom host =
      match host.memory.allocate byteSize writable with
      | .ok (h, memory) => (.ok h, { host with memory })
      | .error e => (.error e, host) := by
  simp only [createBuffer, runFrom_bind, runFrom_ensureInitialized, runFrom_get, hinit, if_true,
    runFrom_ofExcept]
  cases host.memory.allocate byteSize writable <;> rfl

theorem runFrom_writeBuffer (h : BufferHandle) (data : List Single) :
    (writeBuffer h data).runFrom host = match host.memory.write h data with
      | .ok memory => (.ok (), { host with memory })
      | .error e => (.error e, host) := by
  simp only [writeBuffer, runFrom_bind, runFrom_ensureInitialized, runFrom_get, hinit, if_true,
    runFrom_ofExcept]
  cases host.memory.write h data <;> rfl

theorem runFrom_readBuffer (h : BufferHandle) (count : Nat) :
    (readBuffer h count).runFrom host = (host.memory.read h count, host) := by
  simp only [readBuffer, runFrom_bind, runFrom_ensureInitialized, runFrom_get, hinit, if_true,
    runFrom_ofExcept]

theorem runFrom_bufferSize (h : BufferHandle) :
    (bufferSize h).runFrom host = ((host.memory.find h).map Buffer.byteSize, host) := by
  simp only [bufferSize, runFrom_bind, runFrom_ensureInitialized, runFrom_get, hinit, if_true,
    runFrom_ofExcept]

/-- The contents are moved only once everything was accepted. -/
theorem runFrom_runKernel (h : KernelHandle) (launch : Launch) (args : List BufferHandle) :
    (runKernel h launch args).runFrom host = match host.kernel? h with
      | none => (.error (.invalidKernelHandle h.id), host)
      | some kernel =>
        match launch.validate with
        | .error e => (.error (.dispatchFailed kernel.name e.message), host)
        | .ok () =>
          match Binding.ofArgs host.memory kernel.name args with
          | .error e => (.error e, host)
          | .ok binding =>
            match host.memory.takeAll binding.bound with
            | (.error e, memory) => (.error e, { host with memory })
            | (.ok slots, memory) =>
              (.ok (), { host with
                memory := memory.restoreAll (binding.bound.zip
                  (kernel.body.runAll Frame.view launch.workItems
                    ⟨slots, binding.positions⟩).slots) }) := by
  simp only [runKernel, runFrom_bind, runFrom_ensureInitialized, runFrom_get, hinit, if_true]
  cases host.kernel? h with
  | none => rfl
  | some kernel =>
      simp only [runFrom_bind, runFrom_ofExcept, runFrom_set]
      cases launch.validate with
      | error e => rfl
      | ok u =>
          simp only [mapError_ok]
          cases Binding.ofArgs host.memory kernel.name args with
          | error e => rfl
          | ok binding =>
              simp only
              rcases host.memory.takeAll binding.bound with ⟨_ | slots, memory⟩
              · rfl
              · rfl

theorem runFrom_runKernel_of_invalid {h : KernelHandle} {kernel : CompiledKernel}
    (hkernel : host.kernel? h = some kernel) {launch : Launch} {e : DeviceError}
    (hlaunch : launch.validate = .error e) (args : List BufferHandle) :
    (runKernel h launch args).runFrom host =
      (.error (.dispatchFailed kernel.name e.message), host) := by
  rw [runFrom_runKernel hinit]
  simp only [hkernel, hlaunch]

end Initialized

end Host

end NetReplay
