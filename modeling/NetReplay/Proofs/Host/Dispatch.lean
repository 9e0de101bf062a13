import NetReplay.Proofs.Host.Binding
import NetReplay.Proofs.Host.Reachable
import NetReplay.Proofs.Launch.Coverage

/-!
# Dispatches on memory

An accepted dispatch is its body, run at every work item on memory itself
(`runKernel_eq`): nothing shows of the contents having been taken out, listed
once each and put back. Such a run changes elements of its arguments and nothing
else (`Memory.ChangedOnly`, `changedOnly_runAll`). The items are those that cover
the launch, in their order (`runKernel_covers`).
-/

namespace NetReplay

namespace Host

namespace Memory

/-- A memory in which at most elements of certain buffers were replaced. -/
structure ChangedOnly (args : List BufferHandle) (m n : Memory) : Prop where
  available : n.available = m.available
  count : n.buffers.length = m.buffers.length
  outside : ∀ h, h ∉ args → n.get? h = m.get? h
  shape : SameShape m n

theorem ChangedOnly.refl (args : List BufferHandle) (m : Memory) : ChangedOnly args m m :=
  ⟨rfl, rfl, fun _ _ => rfl, SameShape.refl m⟩

theorem ChangedOnly.write {args : List BufferHandle} {m n : Memory} (hn : ChangedOnly args m n)
    (arg index : Nat) (x : Single) :
    ChangedOnly args m ((Memory.view args).write n arg index x) := by
  rw [Memory.view]
  dsimp only
  cases harg : args[arg]? with
  | none => exact hn
  | some h =>
      have hmem : h ∈ args := List.mem_of_getElem? harg
      refine ⟨?_, ?_, fun k hk => ?_, hn.shape.trans (sameShape_modify fun b _ => ?_)⟩
      · rw [available_modify, hn.available]
      · rw [length_buffers_modify, hn.count]
      · have hne : h ≠ k := fun heq => hk (heq ▸ hmem)
        rw [get?_modify_of_ne n hne, hn.outside k hk]
      · rw [Buffer.shape, Array.size_setIfInBounds, Buffer.shape]

/-- A body changes at most elements of its arguments. -/
theorem changedOnly_runAll (args : List BufferHandle) (body : Kernel.Body)
    (items : List WorkItem) (m : Memory) :
    ChangedOnly args m (body.runAll (Memory.view args) items m) :=
  body.runAll_preserves (fun _ hn => hn.write) items (ChangedOnly.refl args m)

/-- An element written through one argument is that of every argument with the
same buffer. -/
theorem contents?_write_of_same {args : List BufferHandle} {i j : Nat}
    (hsame : args[i]? = args[j]?) (m : Memory) (index : Nat) (x : Single) :
    (Memory.view args).contents? ((Memory.view args).write m i index x) j =
      ((Memory.view args).contents? m j).map (·.setIfInBounds index x) := by
  rw [Memory.view]
  dsimp only
  rw [hsame]
  cases args[j]? with
  | none => rfl
  | some h =>
      simp only [Option.bind_some, get?_modify_self, Option.map_map]
      rfl

end Memory

variable {host : Host} {h : KernelHandle} {kernel : CompiledKernel} {launch : Launch}
  {args : List BufferHandle}

/-- An accepted dispatch runs its body on memory itself. -/
theorem runKernel_eq (hinit : host.initialized = true) (hkernel : host.kernel? h = some kernel)
    (hlaunch : launch.validate = .ok ()) (hargs : ∀ a ∈ args, host.memory.contains a) :
    (runKernel h launch args).runFrom host = (.ok (), { host with
      memory := kernel.body.runAll (Memory.view args) launch.workItems host.memory }) := by
  obtain ⟨binding, hbinding, hof⟩ := Binding.exists_ofArgs hargs kernel.name
  have hbound : ∀ a ∈ binding.bound, host.memory.contains a := by
    intro a ha
    exact hargs a ((hof.mem_iff a).mp ha)
  obtain ⟨slots, taken, htake, hlength, hrestore⟩ := Memory.takeAll_eq hof.nodup hbound
  have htaken : ∀ a ∈ args, taken.contains a := by
    intro a ha
    rw [← Memory.contains_restoreAll taken, hrestore]
    exact hargs a ha
  have hstart : Frame.StandsFor binding taken ⟨slots, binding.positions⟩ host.memory :=
    ⟨rfl, hlength, hrestore⟩
  have hend := kernel.body.runAll_agree (Frame.view_agree hof htaken) launch.workItems hstart
  rw [runFrom_runKernel hinit]
  simp only [hkernel, hlaunch, hbinding, htake, hend.restored]

/-- In every reachable family, a dispatch of a compiled kernel over a usable
launch and existing buffers succeeds and is the run of its body on memory
itself, whichever arguments are the same buffer. It replaces at most elements of
its arguments and changes nothing else about the host. -/
theorem runKernel_transparent {available : Nat} {ops : List Family.Operation} {i : Nat}
    (hhost : ((Family.ofHost (new available)).after ops).host? i = some host)
    (hkernel : host.kernel? h = some kernel) (hlaunch : launch.validate = .ok ())
    (hargs : ∀ a ∈ args, host.memory.contains a) :
    ∃ memory, (runKernel h launch args).runFrom host = (.ok (), { host with memory }) ∧
      memory = kernel.body.runAll (Memory.view args) launch.workItems host.memory ∧
      (∀ j k, args[j]? = args[k]? → ∀ m index x,
        (Memory.view args).contents? ((Memory.view args).write m j index x) k =
          ((Memory.view args).contents? m k).map (·.setIfInBounds index x)) ∧
      Memory.ChangedOnly args host.memory memory := by
  have hinit := Family.initialized_of_kernel? hhost hkernel
  exact ⟨_, runKernel_eq hinit hkernel hlaunch hargs, rfl,
    fun _ _ hsame => Memory.contents?_write_of_same hsame,
    Memory.changedOnly_runAll args kernel.body launch.workItems host.memory⟩

/-- Writes a number through the first argument and copies what the second then
shows to its next element. -/
def sampleBody : Kernel.Body := fun _ =>
  .store 0 0 ⟨7⟩ (.load 1 0 fun x => .store 1 1 (x.getD Single.zero) (.done ()))

/-- Sets a host up with a buffer of two elements and a kernel. -/
def sampleOperations : List Family.Operation :=
  [.call 0 .setup, .call 0 (.register "k" sampleBody), .call 0 (.createBuffer 8 true),
    .call 0 (.createKernel "k" "k")]

theorem runKernel_transparent_aliased :
    ∃ host kernel,
      ((Family.ofHost (new 8)).after sampleOperations).host? 0 = some host ∧
      host.kernel? ⟨1⟩ = some kernel ∧ (Launch.linear 1 1).validate = .ok () ∧
      (∀ a ∈ [⟨1⟩, ⟨1⟩], host.memory.contains a) ∧
      ∃ memory, (runKernel ⟨1⟩ (Launch.linear 1 1) [⟨1⟩, ⟨1⟩]).runFrom host =
          (.ok (), { host with memory }) ∧
        memory.get? ⟨1⟩ = some ⟨#[⟨7⟩, ⟨7⟩], 8, true⟩ := by
  have hhost : ((Family.ofHost (new 8)).after sampleOperations).host? 0 =
      some ⟨⟨true, Table.empty.insert "k" sampleBody, [⟨"k", sampleBody⟩]⟩,
        ⟨[⟨#[Single.zero, Single.zero], 8, true⟩], 8⟩⟩ := by
    rfl
  have hlaunch : (Launch.linear 1 1).validate = .ok () :=
    (Launch.validate_eq_ok_iff _).mpr (by decide)
  have hargs : ∀ a ∈ [(⟨1⟩ : BufferHandle), ⟨1⟩],
      Memory.contains ⟨[⟨#[Single.zero, Single.zero], 8, true⟩], 8⟩ a := by
    decide
  obtain ⟨memory, hrun, hmemory, -, -⟩ := runKernel_transparent hhost (h := ⟨1⟩) rfl hlaunch hargs
  refine ⟨_, _, hhost, rfl, hlaunch, hargs, memory, hrun, ?_⟩
  rw [hmemory]
  rfl

/-! ## The items of a dispatch -/

/-- A dispatch over a usable launch calls its body on items that cover the launch, one
after the other: each starts on the memory that the one before it left, and memory is
in the end what the last one left. When a dimension of the launch is empty the body is
never called and the host stays as it is. -/
theorem runKernel_covers (hlaunch : launch.validate = .ok ()) (hinit : host.initialized = true)
    (hkernel : host.kernel? h = some kernel) (hargs : ∀ a ∈ args, host.memory.contains a) :
    launch.Covers launch.workItems ∧
      (runKernel h launch args).runFrom host = (.ok (), { host with
        memory := launch.workItems.foldl
          (fun m w => ((kernel.body w).run (Memory.view args) m).2) host.memory }) ∧
      ((∃ dim, launch.items.get dim = 0) →
        (runKernel h launch args).runFrom host = (.ok (), host)) := by
  have hcovers := Launch.covers_workItems hlaunch
  have hrun := runKernel_eq hinit hkernel hlaunch hargs
  rw [Kernel.Body.runAll] at hrun
  refine ⟨hcovers, hrun, fun hzero => ?_⟩
  rw [hrun, hcovers.empty hzero, List.foldl_nil]

/-- Counts, in one element of the first argument for each position, at how many items of
a launch of width 4 it is called. -/
def tallyBody : Kernel.Body := fun w =>
  let index := (w.globalId 1 * 4 + w.globalId 0).toNat
  .load 0 index fun x => .store 0 index ⟨(x.getD Single.zero).bits + 1⟩ (.done ())

/-- A host that was set up and has a buffer for the tally of eight items. -/
def tallyHost (contents : Array Single) : Host :=
  ⟨⟨true, Table.empty.insert "tally" tallyBody, [⟨"tally", tallyBody⟩]⟩,
    ⟨[⟨contents, 32, true⟩], 32⟩⟩

theorem runKernel_covers_tally :
    Launch.validate ⟨⟨4, 2, 1⟩, ⟨2, 1, 1⟩⟩ = .ok () ∧
      (tallyHost (Array.replicate 8 Single.zero)).kernel? ⟨1⟩ = some ⟨"tally", tallyBody⟩ ∧
      ((Launch.workItems ⟨⟨4, 2, 1⟩, ⟨2, 1, 1⟩⟩).map WorkItem.position).count (3, 1, 0) = 1 ∧
      (runKernel ⟨1⟩ ⟨⟨4, 2, 1⟩, ⟨2, 1, 1⟩⟩ [⟨1⟩]).runFrom
          (tallyHost (Array.replicate 8 Single.zero)) =
        (.ok (), tallyHost (Array.replicate 8 ⟨1⟩)) := by
  have hlaunch : Launch.validate ⟨⟨4, 2, 1⟩, ⟨2, 1, 1⟩⟩ = .ok () :=
    (Launch.validate_eq_ok_iff _).mpr (by decide)
  have hkernel : (tallyHost (Array.replicate 8 Single.zero)).kernel? ⟨1⟩ =
      some ⟨"tally", tallyBody⟩ := rfl
  have hargs : ∀ a ∈ [(⟨1⟩ : BufferHandle)],
      (tallyHost (Array.replicate 8 Single.zero)).memory.contains a := by
    decide
  obtain ⟨hcovers, hrun, -⟩ := runKernel_covers hlaunch rfl hkernel hargs
  refine ⟨hlaunch, hkernel, ?_, ?_⟩
  · rw [hcovers.once]
    decide
  · rw [hrun]
    rfl

end Host

end NetReplay
