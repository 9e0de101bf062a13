import NetReplay.Proofs.Host.Operations

/-!
# Reachable hosts

A family of clones grows from a new host by calls on its clones and by further
cloning (`Family.after`). A call changes what a clone has for itself in few ways
(`Local.Step`, `step_perform`), and so every clone that has compiled a kernel was
set up (`initialized_of_kernel?`).
-/

namespace NetReplay

namespace Host

/-- A call of a host. -/
inductive Call where
  | setup
  | register (name : String) (body : Kernel.Body)
  | createKernel (name source : String)
  | createBuffer (byteSize : UInt64) (writable : Bool)
  | writeBuffer (h : BufferHandle) (data : List Single)
  | readBuffer (h : BufferHandle) (count : Nat)
  | bufferSize (h : BufferHandle)
  | runKernel (h : KernelHandle) (launch : Launch) (args : List BufferHandle)

/-- What a call gives back. -/
inductive Answer where
  | nothing
  | kernel (h : KernelHandle)
  | buffer (h : BufferHandle)
  | values (values : List Single)
  | size (byteSize : UInt64)
  deriving DecidableEq, Repr

/-- Carries a call out. -/
def Call.perform : Call → DeviceM Host Answer
  | setup => do
    Host.setup
    pure .nothing
  | register name body => do
    modify (·.register name body)
    pure .nothing
  | createKernel name source => do
    let h ← Host.createKernel name source
    pure (.kernel h)
  | createBuffer byteSize writable => do
    let h ← Host.createBuffer byteSize writable
    pure (.buffer h)
  | writeBuffer h data => do
    Host.writeBuffer h data
    pure .nothing
  | readBuffer h count => do
    let values ← Host.readBuffer h count
    pure (.values values)
  | bufferSize h => do
    let byteSize ← Host.bufferSize h
    pure (.size byteSize)
  | runKernel h launch args => do
    Host.runKernel h launch args
    pure .nothing

namespace Family

/-- An operation on a family. -/
inductive Operation where
  /-- A call of the clone of a given number. -/
  | call (i : Nat) (c : Call)
  /-- A further clone, of the one of a given number. -/
  | clone (i : Nat)

/-- The family after an operation; one on a clone that does not exist changes
nothing. -/
def step (f : Family) : Operation → Family
  | .call i c =>
    match f.host? i with
    | some host => f.update i (c.perform.runFrom host).2
    | none => f
  | .clone i =>
    match f.clone i with
    | some (_, f) => f
    | none => f

/-- The family after operations, one after the other. -/
def after (f : Family) (ops : List Operation) : Family := ops.foldl step f

end Family

/-! ## What a call changes about a clone -/

/-- The ways in which a call changes what a clone has for itself. -/
inductive Local.Step (own : Local) : Local → Prop where
  | same : Step own own
  | setup : Step own { own with initialized := true }
  | register (name : String) (body : Kernel.Body) :
    Step own { own with registry := own.registry.insert name body }
  | compile (hinit : own.initialized = true) (name : String) (body : Kernel.Body)
    (hbody : own.registry.get? name = some body) :
    Step own { own with kernels := own.kernels ++ [⟨name, body⟩] }

open DeviceM

/-- The answer of a call is that of the operation behind it. -/
theorem runFrom_bind_pure {α : Type} (x : DeviceM Host α) (f : α → Answer) (host : Host) :
    (x >>= fun a => pure (f a)).runFrom host =
      ((x.runFrom host).1.map f, (x.runFrom host).2) := by
  rw [runFrom_bind]
  rcases x.runFrom host with ⟨_ | a, t⟩
  · rfl
  · rfl

theorem runFrom_bind_pure_snd {α : Type} (x : DeviceM Host α) (f : α → Answer) (host : Host) :
    ((x >>= fun a => pure (f a)).runFrom host).2 = (x.runFrom host).2 := by
  rw [runFrom_bind_pure]

/-- On a host that was not set up nothing happens behind the check. -/
theorem runFrom_ensureInitialized_bind {α : Type} {host : Host} (hinit : host.initialized = false)
    (rest : Unit → DeviceM Host α) :
    (ensureInitialized >>= rest).runFrom host =
      (.error (.notInitialized deviceName), host) := by
  rw [runFrom_bind, runFrom_ensureInitialized, hinit]
  rfl

theorem step_createKernel (host : Host) (name source : String) :
    host.toLocal.Step ((createKernel name source).runFrom host).2.toLocal := by
  cases hinit : host.initialized with
  | false =>
      rw [createKernel, runFrom_ensureInitialized_bind hinit]
      exact .same
  | true =>
      rw [runFrom_createKernel hinit]
      cases hbody : host.registry.get? name with
      | none => exact .same
      | some body =>
          dsimp only
          split
          · exact .compile hinit name body hbody
          · exact .same

theorem toLocal_createBuffer (host : Host) (byteSize : UInt64) (writable : Bool) :
    ((createBuffer byteSize writable).runFrom host).2.toLocal = host.toLocal := by
  cases hinit : host.initialized with
  | false => rw [createBuffer, runFrom_ensureInitialized_bind hinit]
  | true =>
      rw [runFrom_createBuffer hinit]
      cases host.memory.allocate byteSize writable <;> rfl

theorem toLocal_writeBuffer (host : Host) (h : BufferHandle) (data : List Single) :
    ((writeBuffer h data).runFrom host).2.toLocal = host.toLocal := by
  cases hinit : host.initialized with
  | false => rw [writeBuffer, runFrom_ensureInitialized_bind hinit]
  | true =>
      rw [runFrom_writeBuffer hinit]
      cases host.memory.write h data <;> rfl

theorem toLocal_readBuffer (host : Host) (h : BufferHandle) (count : Nat) :
    ((readBuffer h count).runFrom host).2.toLocal = host.toLocal := by
  cases hinit : host.initialized with
  | false => rw [readBuffer, runFrom_ensureInitialized_bind hinit]
  | true => rw [runFrom_readBuffer hinit]

theorem toLocal_bufferSize (host : Host) (h : BufferHandle) :
    ((bufferSize h).runFrom host).2.toLocal = host.toLocal := by
  cases hinit : host.initialized with
  | false => rw [bufferSize, runFrom_ensureInitialized_bind hinit]
  | true => rw [runFrom_bufferSize hinit]

theorem toLocal_runKernel (host : Host) (h : KernelHandle) (launch : Launch)
    (args : List BufferHandle) :
    ((runKernel h launch args).runFrom host).2.toLocal = host.toLocal := by
  cases hinit : host.initialized with
  | false => rw [runKernel, runFrom_ensureInitialized_bind hinit]
  | true =>
      rw [runFrom_runKernel hinit]
      repeat' split
      all_goals rfl

theorem step_perform (c : Call) (host : Host) :
    host.toLocal.Step (c.perform.runFrom host).2.toLocal := by
  cases c with
  | setup =>
      rw [Call.perform, runFrom_bind_pure_snd, runFrom_setup]
      split
      · exact .same
      · exact .setup
  | register name body => exact .register name body
  | createKernel name source =>
      rw [Call.perform, runFrom_bind_pure_snd]
      exact step_createKernel host name source
  | createBuffer byteSize writable =>
      rw [Call.perform, runFrom_bind_pure_snd, toLocal_createBuffer]
      exact .same
  | writeBuffer h data =>
      rw [Call.perform, runFrom_bind_pure_snd, toLocal_writeBuffer]
      exact .same
  | readBuffer h count =>
      rw [Call.perform, runFrom_bind_pure_snd, toLocal_readBuffer]
      exact .same
  | bufferSize h =>
      rw [Call.perform, runFrom_bind_pure_snd, toLocal_bufferSize]
      exact .same
  | runKernel h launch args =>
      rw [Call.perform, runFrom_bind_pure_snd, toLocal_runKernel]
      exact .same

/-! ## Compiled kernels belong to clones that were set up -/

/-- A clone with a compiled kernel was set up. -/
def Local.Sound (own : Local) : Prop := own.kernels ≠ [] → own.initialized = true

theorem Local.Step.sound {own next : Local} (hstep : own.Step next) (h : own.Sound) :
    next.Sound := by
  cases hstep with
  | same => exact h
  | setup => exact fun _ => rfl
  | register name body => exact h
  | compile hinit name body hbody => exact fun _ => hinit

namespace Family

/-- Every clone with a compiled kernel was set up. -/
def Sound (f : Family) : Prop := ∀ own ∈ f.clones, own.Sound

theorem sound_ofHost_new (available : Nat) : (ofHost (new available)).Sound := by
  intro own hown
  rw [ofHost, List.mem_singleton] at hown
  rw [hown]
  exact fun hne => absurd rfl hne

theorem sound_step {f : Family} (h : f.Sound) (op : Operation) : (f.step op).Sound := by
  cases op with
  | call i c =>
      rw [step, host?]
      cases hi : f.clones[i]? with
      | none => exact h
      | some own =>
          intro next hnext
          rcases List.mem_or_eq_of_mem_set hnext with hmem | rfl
          · exact h next hmem
          · exact (step_perform c ⟨own, f.memory⟩).sound (h own (List.mem_of_getElem? hi))
  | clone i =>
      rw [step, clone]
      cases hi : f.clones[i]? with
      | none => exact h
      | some own =>
          intro next hnext
          rcases List.mem_append.mp hnext with hmem | hmem
          · exact h next hmem
          · rw [List.mem_singleton.mp hmem]
            exact h own (List.mem_of_getElem? hi)

theorem sound_after {f : Family} (h : f.Sound) (ops : List Operation) : (f.after ops).Sound := by
  induction ops generalizing f with
  | nil => exact h
  | cons op ops ih => exact ih (sound_step h op)

/-- In a reachable family, a clone with a kernel of some handle was set up. -/
theorem initialized_of_kernel? {available : Nat} {ops : List Operation} {i : Nat} {host : Host}
    (hhost : ((ofHost (new available)).after ops).host? i = some host) {h : KernelHandle}
    {kernel : CompiledKernel} (hkernel : host.kernel? h = some kernel) :
    host.initialized = true := by
  obtain ⟨own, hown, rfl⟩ := Option.map_eq_some_iff.mp hhost
  refine sound_after (sound_ofHost_new available) ops own (List.mem_of_getElem? hown) ?_
  intro hnil
  rw [kernel?] at hkernel
  split at hkernel
  · cases hkernel
  · rw [hnil] at hkernel
    cases hkernel

end Family

end Host

end NetReplay
