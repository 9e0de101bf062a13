import NetReplay.Proofs.Host.Clones
import NetReplay.Proofs.Launch.Groups

/-!
# Dispatches that are rejected

A dispatch is rejected for the first of its faults, in the order in which a host checks
for them: the setup, the kernel, the launch, the arguments (`Rejects`). A rejected
dispatch leaves its host and every clone as they were, and no body has been run: the
outcome is the same for a host whose kernels have other bodies (`withBodies`). Any other
dispatch is answered (`runKernel_atomic`).

That nothing can fail between taking contents out and putting them back is
`Memory.exists_takeAll_of_ofArgs`: arguments that could be bound can be taken.
-/

namespace NetReplay

namespace Host

/-! ## Binding and taking -/

/-- Binding reports the first argument without a buffer. -/
theorem Binding.ofArgs_eq_error {m : Memory} {args : List BufferHandle} {index : Nat}
    {a : BufferHandle} (ha : args[index]? = some a) (hnone : m.contains a = false)
    (hfront : ∀ j < index, ∀ b, args[j]? = some b → m.contains b) (kernel : String) :
    ofArgs m kernel args = .error (.argBindingFailed kernel index
      (DeviceError.invalidBufferHandle a.id).message) := by
  rcases addAll_cases m kernel 0 empty args with hall | ⟨k, g, hg, hgnone, hgfront, herror⟩
  · exact absurd (hall a (List.mem_of_getElem? ha)) (Bool.eq_false_iff.mp hnone)
  · -- Both are the first without a buffer, so neither comes before the other.
    have hindex : k = index := by
      rcases Nat.lt_trichotomy k index with hlt | heq | hgt
      · exact absurd (hfront k hlt g hg) (Bool.eq_false_iff.mp hgnone)
      · exact heq
      · exact absurd (hgfront index hgt a ha) (Bool.eq_false_iff.mp hnone)
    subst hindex
    obtain rfl : g = a := Option.some.inj (hg.symm.trans ha)
    rw [ofArgs, herror, Nat.zero_add]

/-- Whatever could be bound can be taken out of memory. -/
theorem Memory.exists_takeAll_of_ofArgs {m : Memory} {kernel : String} {args : List BufferHandle}
    {binding : Binding} (hbinding : Binding.ofArgs m kernel args = .ok binding) :
    ∃ slots taken, m.takeAll binding.bound = (.ok slots, taken) := by
  rcases Binding.addAll_cases m kernel 0 .empty args with hargs | ⟨_, _, _, _, _, herror⟩
  · obtain ⟨b, hb, hof⟩ := Binding.exists_ofArgs hargs kernel
    obtain rfl : b = binding := Except.ok.inj (hb.symm.trans hbinding)
    obtain ⟨slots, taken, htake, -, -⟩ :=
      takeAll_eq hof.nodup fun a ha => hargs a ((hof.mem_iff a).mp ha)
    exact ⟨slots, taken, htake⟩
  · rw [Binding.ofArgs, herror] at hbinding
    cases hbinding

/-! ## Kernel handles -/

variable {host : Host} {h : KernelHandle} {launch : Launch} {args : List BufferHandle}
  {e : DeviceError}

theorem kernel?_eq_none_iff (host : Host) (h : KernelHandle) :
    host.kernel? h = none ↔ h.id = 0 ∨ host.kernelCount < h.id := by
  rw [kernel?, kernelCount]
  rcases h with ⟨_ | n⟩
  · exact ⟨fun _ => Or.inl rfl, fun _ => rfl⟩
  · dsimp only
    rw [List.getElem?_eq_none_iff]
    omega

/-- The same host with other bodies behind its compiled kernels. -/
def withBodies (host : Host) (bodies : CompiledKernel → Kernel.Body) : Host :=
  { host with kernels := host.kernels.map fun kernel => ⟨kernel.name, bodies kernel⟩ }

theorem kernel?_withBodies (host : Host) (bodies : CompiledKernel → Kernel.Body)
    (h : KernelHandle) : (host.withBodies bodies).kernel? h =
      (host.kernel? h).map fun kernel => ⟨kernel.name, bodies kernel⟩ := by
  rcases h with ⟨_ | n⟩
  · rfl
  · exact List.getElem?_map

theorem exists_kernel?_withBodies {kernel : CompiledKernel}
    (hkernel : host.kernel? h = some kernel) (bodies : CompiledKernel → Kernel.Body) :
    ∃ other, (host.withBodies bodies).kernel? h = some other ∧ other.name = kernel.name :=
  ⟨⟨kernel.name, bodies kernel⟩, by rw [kernel?_withBodies, hkernel, Option.map_some], rfl⟩

/-! ## Refusals -/

/-- A refused dispatch changes nothing. -/
theorem runKernel_of_refuses (hinit : host.initialized = true)
    (hrefuses : Refuses host h launch args e) :
    (runKernel h launch args).runFrom host = (.error e, host) := by
  cases hrefuses with
  | kernel hkernel => rw [runFrom_runKernel hinit, hkernel]
  | launch hkernel hlaunch => exact runFrom_runKernel_of_invalid hinit hkernel hlaunch args
  | argument hkernel hlaunch ha hnone hfront =>
      rw [runFrom_runKernel hinit]
      simp only [hkernel, hlaunch, Binding.ofArgs_eq_error ha hnone hfront]

/-- Bodies have no part in a refusal. -/
theorem Refuses.withBodies (hrefuses : Refuses host h launch args e)
    (bodies : CompiledKernel → Kernel.Body) : Refuses (host.withBodies bodies) h launch args e := by
  cases hrefuses with
  | kernel hkernel =>
      refine .kernel ?_
      rw [kernel?_withBodies, hkernel, Option.map_none]
  | launch hkernel hlaunch =>
      obtain ⟨other, hother, hname⟩ := exists_kernel?_withBodies hkernel bodies
      rw [← hname]
      exact .launch hother hlaunch
  | argument hkernel hlaunch ha hnone hfront =>
      obtain ⟨other, hother, hname⟩ := exists_kernel?_withBodies hkernel bodies
      rw [← hname]
      exact .argument hother hlaunch ha hnone hfront

/-- Why a dispatch is rejected. Each fault is reported only in the absence of those
before it. -/
inductive Rejects (host : Host) (h : KernelHandle) (launch : Launch) (args : List BufferHandle) :
    DeviceError → Prop
  | notInitialized (hinit : host.initialized = false) :
      Rejects host h launch args (.notInitialized deviceName)
  | kernel (hinit : host.initialized = true) (hkernel : h.id = 0 ∨ host.kernelCount < h.id) :
      Rejects host h launch args (.invalidKernelHandle h.id)
  /-- The lowest dimension with a misfit is reported. -/
  | launch {kernel : CompiledKernel} {dim : Fin 3} (hinit : host.initialized = true)
      (hkernel : host.kernel? h = some kernel) (hmisfit : launch.Misfit dim)
      (hlowest : ∀ lower < dim, ¬ launch.Misfit lower) :
      Rejects host h launch args (.dispatchFailed kernel.name (DeviceError.invalidWorkSize dim
        (launch.items.get dim) (launch.groupSize.get dim)).message)
  /-- The first argument without a buffer is reported. -/
  | argument {kernel : CompiledKernel} {index : Nat} {a : BufferHandle}
      (hinit : host.initialized = true) (hkernel : host.kernel? h = some kernel)
      (hlaunch : ∀ dim, ¬ launch.Misfit dim) (ha : args[index]? = some a)
      (hnone : host.memory.contains a = false)
      (hfront : ∀ j < index, ∀ b, args[j]? = some b → host.memory.contains b) :
      Rejects host h launch args
        (.argBindingFailed kernel.name index (DeviceError.invalidBufferHandle a.id).message)

theorem rejects_iff_refuses (hinit : host.initialized = true) :
    Rejects host h launch args e ↔ Refuses host h launch args e := by
  constructor
  · intro hrejects
    cases hrejects with
    | notInitialized hnot => exact absurd hinit (Bool.eq_false_iff.mp hnot)
    | kernel _ hkernel => exact .kernel ((kernel?_eq_none_iff host h).mpr hkernel)
    | launch _ hkernel hmisfit hlowest =>
        exact .launch hkernel
          ((Launch.validate_eq_error_iff _ _).mpr ⟨_, hmisfit, hlowest, rfl⟩)
    | argument _ hkernel hlaunch ha hnone hfront =>
        exact .argument hkernel ((Launch.validate_eq_ok_iff _).mpr hlaunch) ha hnone hfront
  · intro hrefuses
    cases hrefuses with
    | kernel hkernel => exact .kernel hinit ((kernel?_eq_none_iff host h).mp hkernel)
    | launch hkernel hlaunch =>
        obtain ⟨dim, hmisfit, hlowest, rfl⟩ := (Launch.validate_eq_error_iff _ _).mp hlaunch
        exact .launch hinit hkernel hmisfit hlowest
    | argument hkernel hlaunch ha hnone hfront =>
        exact .argument hinit hkernel ((Launch.validate_eq_ok_iff _).mp hlaunch) ha hnone hfront

/-- A rejected dispatch changes nothing. -/
theorem runKernel_of_rejects (hrejects : Rejects host h launch args e) :
    (runKernel h launch args).runFrom host = (.error e, host) := by
  cases hinit : host.initialized with
  | true => exact runKernel_of_refuses hinit ((rejects_iff_refuses hinit).mp hrejects)
  | false =>
      cases hrejects with
      | notInitialized => rw [runKernel, runFrom_ensureInitialized_bind hinit]
      | kernel hset | launch hset | argument hset =>
          rw [hset] at hinit
          cases hinit

/-- Bodies have no part in a rejection. -/
theorem Rejects.withBodies (hrejects : Rejects host h launch args e)
    (bodies : CompiledKernel → Kernel.Body) : Rejects (host.withBodies bodies) h launch args e := by
  cases hinit : host.initialized with
  | true =>
      have hinit' : (host.withBodies bodies).initialized = true := hinit
      have hrefuses := (rejects_iff_refuses hinit).mp hrejects
      exact (rejects_iff_refuses hinit').mpr (hrefuses.withBodies bodies)
  | false =>
      cases hrejects with
      | notInitialized => exact .notInitialized hinit
      | kernel hset | launch hset | argument hset =>
          rw [hset] at hinit
          cases hinit

/-- A dispatch is rejected, or all its parts are there and it is answered. -/
theorem rejects_or_answered (host : Host) (h : KernelHandle) (launch : Launch)
    (args : List BufferHandle) :
    (∃ e, Rejects host h launch args e) ∨
      (host.initialized = true ∧ (∃ kernel, host.kernel? h = some kernel) ∧
        (∀ dim, ¬ launch.Misfit dim) ∧ ∀ a ∈ args, host.memory.contains a) ∧
      ((runKernel h launch args).runFrom host).1 = .ok () := by
  cases hinit : host.initialized with
  | false => exact Or.inl ⟨_, .notInitialized hinit⟩
  | true =>
      rcases runKernel_cases hinit h launch args with
        ⟨e, hrefuses, -⟩ | ⟨kernel, hkernel, hlaunch, hargs, hrun⟩
      · exact Or.inl ⟨e, (rejects_iff_refuses hinit).mpr hrefuses⟩
      · refine Or.inr ⟨⟨rfl, ⟨kernel, hkernel⟩, ?_, hargs⟩, congrArg Prod.fst hrun⟩
        exact (Launch.validate_eq_ok_iff launch).mp hlaunch

theorem runKernel_eq_error_iff (host : Host) (h : KernelHandle) (launch : Launch)
    (args : List BufferHandle) (e : DeviceError) :
    ((runKernel h launch args).runFrom host).1 = .error e ↔ Rejects host h launch args e := by
  refine ⟨fun herror => ?_, fun hrejects => congrArg Prod.fst (runKernel_of_rejects hrejects)⟩
  rcases rejects_or_answered host h launch args with ⟨cause, hrejects⟩ | ⟨-, hok⟩
  · rw [runKernel_of_rejects hrejects] at herror
    cases herror
    exact hrejects
  · rw [hok] at herror
    cases herror

/-- A dispatch fails for the first of its faults, and is answered when it has none: when
the host was set up, the handle is that of a compiled kernel, no dimension of the launch
has a misfit and every argument has a buffer. A dispatch that fails changes neither its
host nor a family of clones to which the host belongs, and does so whatever the bodies of
the kernels are. Contents are taken out only of what was bound, and that never fails. -/
theorem runKernel_atomic (host : Host) (h : KernelHandle) (launch : Launch)
    (args : List BufferHandle) :
    (∀ e, ((runKernel h launch args).runFrom host).1 = .error e ↔ Rejects host h launch args e) ∧
    (((runKernel h launch args).runFrom host).1 = .ok () ↔
      host.initialized = true ∧ (h.id ≠ 0 ∧ h.id ≤ host.kernelCount) ∧
        (∀ dim, ¬ launch.Misfit dim) ∧ ∀ a ∈ args, host.memory.contains a) ∧
    (∀ e, ((runKernel h launch args).runFrom host).1 = .error e →
      ((runKernel h launch args).runFrom host).2 = host ∧
      (∀ (f : Family) (i : Nat), f.host? i = some host →
        f.step (.call i (.runKernel h launch args)) = f) ∧
      ∀ bodies, (runKernel h launch args).runFrom (host.withBodies bodies) =
        (.error e, host.withBodies bodies)) ∧
    ∀ kernel binding, Binding.ofArgs host.memory kernel args = .ok binding →
      ∃ slots taken, host.memory.takeAll binding.bound = (.ok slots, taken) := by
  have hkernel : (∃ kernel, host.kernel? h = some kernel) ↔
      h.id ≠ 0 ∧ h.id ≤ host.kernelCount := by
    rw [← Option.ne_none_iff_exists', ne_eq, kernel?_eq_none_iff, not_or, Nat.not_lt]
  refine ⟨runKernel_eq_error_iff host h launch args, ?_, fun e herror => ?_,
    fun kernel binding => Memory.exists_takeAll_of_ofArgs⟩
  · rw [← hkernel]
    constructor
    · intro hok
      rcases rejects_or_answered host h launch args with ⟨e, hrejects⟩ | ⟨hparts, -⟩
      · rw [runKernel_of_rejects hrejects] at hok
        cases hok
      · exact hparts
    · rintro ⟨hinit, ⟨kernel, hkernel⟩, hlaunch, hargs⟩
      rw [runKernel_eq hinit hkernel ((Launch.validate_eq_ok_iff launch).mpr hlaunch) hargs]
  · have hrejects := (runKernel_eq_error_iff host h launch args e).mp herror
    have hrun := runKernel_of_rejects hrejects
    refine ⟨congrArg Prod.snd hrun, fun f i hhost => ?_,
      fun bodies => runKernel_of_rejects (hrejects.withBodies bodies)⟩
    refine Family.step_call_eq_self hhost ?_
    rw [Call.perform, runFrom_bind_pure_snd, hrun]

end Host

end NetReplay
