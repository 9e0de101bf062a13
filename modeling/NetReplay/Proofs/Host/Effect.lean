import NetReplay.Proofs.Host.Dispatch

/-!
# What calls do to shared memory

An answered call is known to memory by its effect alone: a buffer is added, the
front of one is written over, a body is run on some, or nothing happens
(`Call.effect`, `Effect.Happens`). A call that fails has no effect. For a dispatch
this rests on `runKernel_cases`: it is refused before anything was moved, or it is
carried out.

The memory of a family of clones has gone through the effects of all calls, whoever
made them (`Family.effects`). What every effect preserves therefore holds after any
history (`Family.after_preserves`).
-/

namespace NetReplay

namespace Host

/-! ## Dispatches that are refused -/

/-- Why a dispatch is refused on a host that was set up. -/
inductive Refuses (host : Host) (h : KernelHandle) (launch : Launch) (args : List BufferHandle) :
    DeviceError → Prop
  | kernel (hkernel : host.kernel? h = none) :
      Refuses host h launch args (.invalidKernelHandle h.id)
  | launch {kernel : CompiledKernel} {cause : DeviceError} (hkernel : host.kernel? h = some kernel)
      (hlaunch : launch.validate = .error cause) :
      Refuses host h launch args (.dispatchFailed kernel.name cause.message)
  /-- The first argument without a buffer is reported. -/
  | argument {kernel : CompiledKernel} {index : Nat} {a : BufferHandle}
      (hkernel : host.kernel? h = some kernel) (hlaunch : launch.validate = .ok ())
      (ha : args[index]? = some a) (hnone : host.memory.contains a = false)
      (hfront : ∀ j < index, ∀ b, args[j]? = some b → host.memory.contains b) :
      Refuses host h launch args
        (.argBindingFailed kernel.name index (DeviceError.invalidBufferHandle a.id).message)

/-- A dispatch is refused and changes nothing, or its body is run on memory. -/
theorem runKernel_cases {host : Host} (hinit : host.initialized = true) (h : KernelHandle)
    (launch : Launch) (args : List BufferHandle) :
    (∃ e, Refuses host h launch args e ∧
        (runKernel h launch args).runFrom host = (.error e, host)) ∨
      ∃ kernel, host.kernel? h = some kernel ∧ launch.validate = .ok () ∧
        (∀ a ∈ args, host.memory.contains a) ∧
        (runKernel h launch args).runFrom host = (.ok (), { host with
          memory := kernel.body.runAll (Memory.view args) launch.workItems host.memory }) := by
  cases hkernel : host.kernel? h with
  | none =>
      refine Or.inl ⟨_, .kernel hkernel, ?_⟩
      rw [runFrom_runKernel hinit, hkernel]
  | some kernel =>
      cases hlaunch : launch.validate with
      | error cause =>
          exact Or.inl ⟨_, .launch hkernel hlaunch,
            runFrom_runKernel_of_invalid hinit hkernel hlaunch args⟩
      | ok u =>
          rcases Binding.addAll_cases host.memory kernel.name 0 .empty args with
            hargs | ⟨index, a, ha, hnone, hfront, herror⟩
          · exact Or.inr ⟨kernel, rfl, rfl, hargs, runKernel_eq hinit hkernel hlaunch hargs⟩
          · refine Or.inl ⟨_, .argument hkernel hlaunch ha hnone hfront, ?_⟩
            rw [Nat.zero_add] at herror
            rw [runFrom_runKernel hinit]
            simp only [hkernel, hlaunch, Binding.ofArgs, herror]

/-! ## Effects -/

/-- What an answered call has done to memory. -/
inductive Effect where
  | nothing
  | created (h : BufferHandle) (byteSize : UInt64) (writable : Bool)
  | written (h : BufferHandle) (data : List Single)
  | dispatched (body : Kernel.Body) (launch : Launch) (args : List BufferHandle)

/-- The effect of a call that was answered. -/
def Call.effectOf (host : Host) : Call → Answer → Effect
  | createBuffer byteSize writable, .buffer h => .created h byteSize writable
  | writeBuffer h data, _ => .written h data
  | runKernel h launch args, _ =>
    match host.kernel? h with
    | some kernel => .dispatched kernel.body launch args
    | none => .nothing
  | _, _ => .nothing

/-- The effect of a call, which has none when it fails. -/
def Call.effect (c : Call) (host : Host) : Effect :=
  match (c.perform.runFrom host).1 with
  | .ok answer => c.effectOf host answer
  | .error _ => .nothing

/-- The effect takes the first memory to the second. -/
inductive Effect.Happens (m : Memory) : Effect → Memory → Prop
  | nothing : Happens m .nothing m
  | created {h : BufferHandle} {byteSize : UInt64} {writable : Bool} {n : Memory}
      (hallocate : m.allocate byteSize writable = .ok (h, n)) :
      Happens m (.created h byteSize writable) n
  | written {h : BufferHandle} {data : List Single} {n : Memory}
      (hwrite : m.write h data = .ok n) : Happens m (.written h data) n
  | dispatched (body : Kernel.Body) {launch : Launch} {args : List BufferHandle}
      (hlaunch : launch.validate = .ok ()) (hargs : ∀ a ∈ args, m.contains a) :
      Happens m (.dispatched body launch args)
        (body.runAll (Memory.view args) launch.workItems m)

/-- Every effect keeps the buffers of whole elements. -/
theorem Effect.Happens.keepsWhole {m n : Memory} {e : Effect} (he : e.Happens m n) :
    m.KeepsWhole n := by
  cases he with
  | nothing => exact .refl m
  | created hallocate => exact (Memory.keeps_of_allocate hallocate).keepsWhole
  | written hwrite => exact Memory.keepsWhole_of_write hwrite
  | dispatched body hlaunch hargs =>
      exact (Memory.changedOnly_runAll _ body _ m).shape.keeps.keepsWhole

/-- The call is one that a host refuses before it was set up. -/
def Call.NeedsSetup : Call → Prop
  | setup | register .. => False
  | _ => True

/-- On a host that was not set up, such a call fails and changes nothing. -/
theorem perform_of_not_initialized {host : Host} (hinit : host.initialized = false) {c : Call}
    (hc : c.NeedsSetup) : c.perform.runFrom host = (.error (.notInitialized deviceName), host) := by
  cases c with
  | setup => exact hc.elim
  | register name body => exact hc.elim
  | createKernel name source =>
      rw [Call.perform, runFrom_bind_pure, createKernel, runFrom_ensureInitialized_bind hinit]
      rfl
  | createBuffer byteSize writable =>
      rw [Call.perform, runFrom_bind_pure, createBuffer, runFrom_ensureInitialized_bind hinit]
      rfl
  | writeBuffer h data =>
      rw [Call.perform, runFrom_bind_pure, writeBuffer, runFrom_ensureInitialized_bind hinit]
      rfl
  | readBuffer h count =>
      rw [Call.perform, runFrom_bind_pure, readBuffer, runFrom_ensureInitialized_bind hinit]
      rfl
  | bufferSize h =>
      rw [Call.perform, runFrom_bind_pure, bufferSize, runFrom_ensureInitialized_bind hinit]
      rfl
  | runKernel h launch args =>
      rw [Call.perform, runFrom_bind_pure, runKernel, runFrom_ensureInitialized_bind hinit]
      rfl

theorem effect_of_error {host : Host} {c : Call} {e : DeviceError}
    (h : (c.perform.runFrom host).1 = .error e) : c.effect host = .nothing := by
  rw [Call.effect, h]

/-- A call that leaves memory alone, whatever it answers, has no effect. -/
theorem happens_of_memory_eq {host : Host} {c : Call}
    (heffect : ∀ answer, c.effectOf host answer = .nothing)
    (hmemory : (c.perform.runFrom host).2.memory = host.memory) :
    (c.effect host).Happens host.memory (c.perform.runFrom host).2.memory := by
  rw [hmemory, Call.effect]
  cases (c.perform.runFrom host).1 with
  | error e => exact .nothing
  | ok answer =>
      dsimp only
      rw [heffect]
      exact .nothing

theorem happens_perform_of_initialized {host : Host} (hinit : host.initialized = true) (c : Call) :
    (c.effect host).Happens host.memory (c.perform.runFrom host).2.memory := by
  cases c with
  | setup =>
      refine happens_of_memory_eq (fun _ => rfl) ?_
      rw [Call.perform, runFrom_bind_pure_snd, runFrom_setup, if_pos hinit]
  | register name body => exact .nothing
  | createKernel name source =>
      refine happens_of_memory_eq (fun _ => rfl) ?_
      rw [Call.perform, runFrom_bind_pure_snd, runFrom_createKernel hinit]
      repeat' split
      all_goals rfl
  | createBuffer byteSize writable =>
      rw [Call.effect, Call.perform, runFrom_bind_pure, runFrom_createBuffer hinit]
      cases hallocate : host.memory.allocate byteSize writable with
      | error e => exact .nothing
      | ok allocated => exact .created hallocate
  | writeBuffer h data =>
      rw [Call.effect, Call.perform, runFrom_bind_pure, runFrom_writeBuffer hinit]
      cases hwrite : host.memory.write h data with
      | error e => exact .nothing
      | ok memory => exact .written hwrite
  | readBuffer h count =>
      refine happens_of_memory_eq (fun _ => rfl) ?_
      rw [Call.perform, runFrom_bind_pure_snd, runFrom_readBuffer hinit]
  | bufferSize h =>
      refine happens_of_memory_eq (fun _ => rfl) ?_
      rw [Call.perform, runFrom_bind_pure_snd, runFrom_bufferSize hinit]
  | runKernel h launch args =>
      rw [Call.effect, Call.perform, runFrom_bind_pure]
      rcases runKernel_cases hinit h launch args with
        ⟨e, -, hrun⟩ | ⟨kernel, hkernel, hlaunch, hargs, hrun⟩
      · rw [hrun]
        exact .nothing
      · rw [hrun]
        dsimp only [Except.map]
        rw [Call.effectOf, hkernel]
        exact .dispatched kernel.body hlaunch hargs

/-- The effect of a call is what happens to memory. -/
theorem happens_perform (c : Call) (host : Host) :
    (c.effect host).Happens host.memory (c.perform.runFrom host).2.memory := by
  cases hinit : host.initialized with
  | true => exact happens_perform_of_initialized hinit c
  | false =>
      by_cases hc : c.NeedsSetup
      · have hfails := perform_of_not_initialized hinit hc
        rw [effect_of_error (congrArg Prod.fst hfails), hfails]
        exact .nothing
      · cases c with
        | setup =>
            refine happens_of_memory_eq (fun _ => rfl) ?_
            rw [Call.perform, runFrom_bind_pure_snd, runFrom_setup, hinit]
            rfl
        | register name body => exact .nothing
        | _ => exact absurd trivial hc

/-! ## Histories -/

namespace Family

/-- The effect of an operation on the memory of a family. -/
def effect (f : Family) : Operation → Effect
  | .call i c =>
    match f.host? i with
    | some host => c.effect host
    | none => .nothing
  | .clone _ => .nothing

/-- The effects of operations, one after the other. -/
def effects (f : Family) : List Operation → List Effect
  | [] => []
  | op :: ops => f.effect op :: (f.step op).effects ops

theorem happens_step (f : Family) (op : Operation) :
    (f.effect op).Happens f.memory (f.step op).memory := by
  cases op with
  | call i c =>
      rw [effect, step, host?]
      cases f.clones[i]? with
      | none => exact .nothing
      | some own => exact happens_perform c ⟨own, f.memory⟩
  | clone i =>
      rw [effect, step, clone]
      cases f.clones[i]? with
      | none => exact .nothing
      | some own => exact .nothing

/-- What every effect preserves holds after all effects of a history. It may speak
of the effects so far. -/
theorem after_preserves (invariant : List Effect → Memory → Prop)
    (hstep : ∀ done m e n, invariant done m → e.Happens m n → invariant (done ++ [e]) n)
    {f : Family} {done : List Effect} (h : invariant done f.memory) (ops : List Operation) :
    invariant (done ++ f.effects ops) (f.after ops).memory := by
  induction ops generalizing f done with
  | nil =>
      rw [effects, List.append_nil]
      exact h
  | cons op ops ih =>
      have hfirst := hstep done f.memory (f.effect op) (f.step op).memory h (f.happens_step op)
      have hrest := ih hfirst
      rw [List.append_assoc] at hrest
      exact hrest

end Family

end Host

end NetReplay
