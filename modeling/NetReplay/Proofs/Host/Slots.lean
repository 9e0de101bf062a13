import NetReplay.Proofs.Host.Dispatch

/-!
# The slots of a dispatch

However often a buffer occurs among the arguments of a dispatch, it has one slot. The
binding of the arguments lists their buffers in the order of first occurrence and gives
two arguments the same position exactly when they are the same buffer
(`Binding.Deduplicates`). Each listed buffer is therefore taken out of memory once, whole
(`Memory.TakenOnce`).

A kernel body moves from frame to frame by writing elements (`Frame.Reached`). In every
frame on its way each argument has its slot, and each buffer would be put back from its
own (`Frame.Serves`). That a dispatch is made of these parts, for every list of
arguments with buffers, is `runKernel_deduplicates`.
-/

namespace NetReplay

namespace Host

/-! ## Bindings without repetitions -/

namespace Binding

/-- A list in the order in which its buffers first occur among some arguments. -/
def InOrder (args l : List BufferHandle) : Prop :=
  l.Pairwise fun a c => args.idxOf a < args.idxOf c

/-- The buffers of some arguments, each listed once, and the way from every argument to
its own. -/
structure Deduplicates (b : Binding) (args : List BufferHandle) : Prop where
  nodup : b.bound.Nodup
  mem_iff : ∀ a, a ∈ b.bound ↔ a ∈ args
  order : InOrder args b.bound
  length_positions : b.positions.length = args.length
  position : ∀ (i : Nat) a, args[i]? = some a →
    ∃ p, b.positions[i]? = some p ∧ p < b.bound.length ∧ b.bound[p]? = some a
  position_eq_iff : ∀ i j : Nat, b.positions[i]? = b.positions[j]? ↔ args[i]? = args[j]?

theorem inOrder_nil (args : List BufferHandle) : InOrder args [] := List.Pairwise.nil

/-- Further arguments leave the first occurrences of the earlier ones where they are. -/
theorem InOrder.append {args l : List BufferHandle} (hl : InOrder args l)
    (hmem : ∀ a ∈ l, a ∈ args) (more : List BufferHandle) : InOrder (args ++ more) l := by
  refine List.Pairwise.imp_of_mem (fun ha hc hlt => ?_) hl
  rw [List.idxOf_append, List.idxOf_append, if_pos (hmem _ ha), if_pos (hmem _ hc)]
  exact hlt

theorem inOrder_add {args : List BufferHandle} {b : Binding} (hb : Of args b)
    (horder : InOrder args b.bound) (h : BufferHandle) :
    InOrder (args ++ [h]) (b.add h).bound := by
  have hmem : ∀ a ∈ b.bound, a ∈ args := fun a => (hb.mem_iff a).mp
  have hearlier : InOrder (args ++ [h]) b.bound := horder.append hmem [h]
  rw [add]
  cases hidx : b.bound.idxOf? h with
  | some slot => exact hearlier
  | none =>
      have hnot : h ∉ args := fun hin =>
        List.idxOf?_eq_none_iff.mp hidx ((hb.mem_iff h).mpr hin)
      refine List.pairwise_append.mpr ⟨hearlier, List.pairwise_singleton .., fun a ha c hc => ?_⟩
      -- What was listed occurs among the arguments before the new one.
      obtain rfl := List.mem_singleton.mp hc
      rw [List.idxOf_append, List.idxOf_append, if_pos (hmem a ha), if_neg hnot]
      exact Nat.lt_of_lt_of_le (List.idxOf_lt_length_of_mem (hmem a ha)) (Nat.le_add_left ..)

theorem inOrder_foldl (args : List BufferHandle) : InOrder args (args.foldl add empty).bound := by
  -- An argument comes in its order as the binding stands for those before it.
  have hboth := foldl_add_preserves (fun before b => Of before b ∧ InOrder before b.bound)
    (fun _ _ h hb => ⟨of_add hb.1 h, inOrder_add hb.1 hb.2 h⟩) ⟨of_empty, inOrder_nil []⟩ args
  exact hboth.2

theorem Of.position_eq_iff {args : List BufferHandle} {b : Binding} (hb : Of args b)
    (i j : Nat) : b.positions[i]? = b.positions[j]? ↔ args[i]? = args[j]? := by
  rcases hb.position_cases i with ⟨hi, hargi⟩ | ⟨p, a, hi, hargi, hp⟩
  · rcases hb.position_cases j with ⟨hj, hargj⟩ | ⟨q, c, hj, hargj, hq⟩
    · simp [hi, hargi, hj, hargj]
    · simp [hi, hargi, hj, hargj]
  · rcases hb.position_cases j with ⟨hj, hargj⟩ | ⟨q, c, hj, hargj, hq⟩
    · simp [hi, hargi, hj, hargj]
    · have hlt : p < b.bound.length := (List.getElem?_eq_some_iff.mp hp).1
      rw [hi, hj, hargi, hargj, ← hp, ← hq, List.getElem?_inj hlt hb.nodup, Option.some.injEq]

/-- The loop over the arguments leaves a binding without repetitions behind. -/
theorem deduplicates_foldl (args : List BufferHandle) :
    (args.foldl add empty).Deduplicates args := by
  have hof : Of args (args.foldl add empty) := of_foldl args
  refine ⟨hof.nodup, hof.mem_iff, inOrder_foldl args,
    hof.length_positions, fun i a hi => ?_, hof.position_eq_iff⟩
  rcases hof.position_cases i with ⟨-, hnone⟩ | ⟨p, c, hp, hc, hbound⟩
  · rw [hnone] at hi
    cases hi
  · obtain rfl : c = a := Option.some.inj (hc.symm.trans hi)
    exact ⟨p, hp, (List.getElem?_eq_some_iff.mp hbound).1, hbound⟩

end Binding

/-! ## Taking each buffer once -/

/-- The buffers of some arguments were taken out of memory, each once and whole. -/
structure Memory.TakenOnce (m : Memory) (args bound : List BufferHandle)
    (slots : List (Array Single)) (taken : Memory) : Prop where
  once : ∀ a, bound.count a = if a ∈ args then 1 else 0
  length_slots : slots.length = bound.length
  /-- A slot holds what its buffer held before anything was taken. -/
  slot : ∀ (p : Nat) a, bound[p]? = some a → slots[p]? = (m.get? a).map Buffer.contents
  emptied : ∀ a, taken.get? a = if a ∈ args
    then (m.get? a).map fun b => { b with contents := #[] } else m.get? a

theorem Binding.Deduplicates.takenOnce {m : Memory} {args : List BufferHandle} {b : Binding}
    (hb : b.Deduplicates args) (hargs : ∀ a ∈ args, m.contains a) :
    ∃ slots taken, m.takeAll b.bound = (.ok slots, taken) ∧
      m.TakenOnce args b.bound slots taken := by
  have hbound : ∀ a ∈ b.bound, m.contains a := fun a ha => hargs a ((hb.mem_iff a).mp ha)
  obtain ⟨slots, taken, htake, hlength, hrestore⟩ := Memory.takeAll_eq hb.nodup hbound
  refine ⟨slots, taken, htake, fun a => ?_, hlength, fun p a hp => ?_, fun a => ?_⟩
  · simp only [hb.nodup.count, hb.mem_iff]
  · -- Putting the slots back at once gives the memory from before.
    have hmem : taken.contains a := by
      rw [← Memory.contains_restoreAll taken, hrestore]
      exact hbound a (List.mem_of_getElem? hp)
    obtain ⟨c, hc⟩ := Memory.exists_of_contains hmem
    rw [← hrestore, Memory.get?_restoreAll_zip hb.nodup hlength hp, hc, Option.bind_some]
  · simp only [Memory.get?_of_takeAll htake, hb.mem_iff]

/-! ## Frames on the way of a body -/

namespace Frame

@[simp] theorem positions_write (f : Frame) (arg index : Nat) (x : Single) :
    (f.write arg index x).positions = f.positions := by
  rw [write]
  split <;> rfl

@[simp] theorem length_slots_write (f : Frame) (arg index : Nat) (x : Single) :
    (f.write arg index x).slots.length = f.slots.length := by
  rw [write]
  split
  · exact List.length_modify ..
  · rfl

/-- A write through one argument shows through those with the same position. -/
theorem contents?_write (f : Frame) (i j index : Nat) (x : Single) :
    (f.write i index x).contents? j = if f.positions[i]? = f.positions[j]?
      then (f.contents? j).map (·.setIfInBounds index x) else f.contents? j := by
  rw [contents?, contents?, positions_write, write]
  cases hj : f.positions[j]? with
  | none => simp
  | some q =>
      cases hi : f.positions[i]? with
      | none => simp
      | some p =>
          rw [Option.bind_some, Option.bind_some, List.getElem?_modify]
          by_cases hpq : p = q
          · simp [hpq]
          · simp [hpq]

/-- A frame that a body can come to: elements were written through its arguments, one
after the other. -/
inductive Reached (start : Frame) : Frame → Prop
  | start : Reached start start
  | write {f : Frame} (hf : Reached start f) (arg index : Nat) (x : Single) :
      Reached start (f.write arg index x)

theorem reached_runAll (start : Frame) (body : Kernel.Body) (items : List WorkItem) :
    Reached start (body.runAll view items start) :=
  body.runAll_preserves (fun _ hf => hf.write) items .start

theorem Reached.positions_eq {start f : Frame} (hf : Reached start f) :
    f.positions = start.positions := by
  induction hf with
  | start => rfl
  | write _ arg index x ih => rw [positions_write, ih]

theorem Reached.length_slots_eq {start f : Frame} (hf : Reached start f) :
    f.slots.length = start.slots.length := by
  induction hf with
  | start => rfl
  | write _ arg index x ih => rw [length_slots_write, ih]

/-- A frame that serves a dispatch: every argument has contents, which it shares with the
arguments of the same buffer alone, and every buffer is put back from its own slot. -/
structure Serves (f : Frame) (args bound : List BufferHandle) (m taken : Memory) : Prop where
  count : f.positions.length = args.length
  length_slots : f.slots.length = bound.length
  /-- The look-up with which reading and writing an argument begin. -/
  isSome_contents? : ∀ i, (f.contents? i).isSome ↔ i < args.length
  shared : ∀ (i j index : Nat) (x : Single), (f.write i index x).contents? j =
    if args[i]? = args[j]? then (f.contents? j).map (·.setIfInBounds index x)
    else f.contents? j
  restored : ∀ (p : Nat) a, bound[p]? = some a → ∃ contents, f.slots[p]? = some contents ∧
    (taken.restoreAll (bound.zip f.slots)).get? a = (m.get? a).map fun b => { b with contents }
  others : ∀ a, a ∉ args → (taken.restoreAll (bound.zip f.slots)).get? a = m.get? a

/-- Every frame that a body can come to serves the dispatch. -/
theorem Reached.serves {m taken : Memory} {args : List BufferHandle} {b : Binding}
    (hb : b.Deduplicates args) {slots : List (Array Single)}
    (htaken : m.TakenOnce args b.bound slots taken) {f : Frame}
    (hf : Reached ⟨slots, b.positions⟩ f) : f.Serves args b.bound m taken := by
  have hpositions : f.positions = b.positions := hf.positions_eq
  have hlength : f.slots.length = b.bound.length :=
    hf.length_slots_eq.trans htaken.length_slots
  refine ⟨?_, hlength, fun i => ?_, fun i j index x => ?_, fun p a hp => ?_, fun a ha => ?_⟩
  · rw [hpositions, hb.length_positions]
  · rw [contents?, hpositions]
    by_cases hi : i < args.length
    · obtain ⟨p, hp, hlt, -⟩ := hb.position i _ (List.getElem?_eq_getElem hi)
      have hslot : p < f.slots.length := hlength ▸ hlt
      simp [hp, hslot, hi]
    · have hnone : b.positions[i]? = none :=
        List.getElem?_eq_none (hb.length_positions ▸ Nat.le_of_not_lt hi)
      simp [hnone, hi]
  · rw [contents?_write, hpositions]
    simp only [hb.position_eq_iff]
  · have hlt : p < f.slots.length := hlength ▸ (List.getElem?_eq_some_iff.mp hp).1
    have hmem : a ∈ args := (hb.mem_iff a).mp (List.mem_of_getElem? hp)
    refine ⟨f.slots[p], List.getElem?_eq_getElem hlt, ?_⟩
    rw [Memory.get?_restoreAll_zip_eq hb.nodup hlength hp, htaken.emptied, if_pos hmem,
      List.getElem?_eq_getElem hlt]
    cases m.get? a <;> rfl
  · have hnot : a ∉ (b.bound.zip f.slots).map Prod.fst := by
      rw [List.map_fst_zip (Nat.le_of_eq hlength.symm), hb.mem_iff]
      exact ha
    rw [Memory.get?_restoreAll_of_not_mem hnot, htaken.emptied, if_neg ha]

end Frame

/-- Arguments that all have a buffer are bound without repetitions, whatever their kernel
is called; each of their buffers is taken out of memory once and whole; and every frame that
a body can come to from there serves the dispatch. An accepted dispatch with these
arguments puts back the last of those frames. -/
theorem runKernel_deduplicates {m : Memory} {args : List BufferHandle}
    (hargs : ∀ a ∈ args, m.contains a) :
    ∃ binding slots taken, (∀ kernel, Binding.ofArgs m kernel args = .ok binding) ∧
      binding.Deduplicates args ∧
      m.takeAll binding.bound = (.ok slots, taken) ∧
      m.TakenOnce args binding.bound slots taken ∧
      (∀ f, Frame.Reached ⟨slots, binding.positions⟩ f →
        f.Serves args binding.bound m taken) ∧
      ∀ (host : Host) (h : KernelHandle) (launch : Launch) (kernel : CompiledKernel),
        host.memory = m → host.initialized = true → host.kernel? h = some kernel →
        launch.validate = .ok () →
        ∃ f, f = kernel.body.runAll Frame.view launch.workItems ⟨slots, binding.positions⟩ ∧
          Frame.Reached ⟨slots, binding.positions⟩ f ∧
          (runKernel h launch args).runFrom host =
            (.ok (), { host with memory := taken.restoreAll (binding.bound.zip f.slots) }) := by
  have hbinding : ∀ kernel, Binding.ofArgs m kernel args = .ok (args.foldl Binding.add .empty) :=
    fun kernel => Binding.addAll_eq_ok hargs kernel 0 .empty
  have hdedup := Binding.deduplicates_foldl args
  obtain ⟨slots, taken, htake, htaken⟩ := hdedup.takenOnce hargs
  refine ⟨_, slots, taken, hbinding, hdedup, htake, htaken, fun f hf => hf.serves hdedup htaken,
    fun host h launch kernel hmemory hinit hkernel hlaunch => ?_⟩
  refine ⟨_, rfl, Frame.reached_runAll _ kernel.body launch.workItems, ?_⟩
  rw [runFrom_runKernel hinit]
  simp only [hkernel, hlaunch, hmemory, hbinding, htake]

/-- A host with three buffers and a kernel that writes through its first argument and
copies what the third then shows to the fourth. -/
def threeBufferHost : Host where
  initialized := true
  registry := .empty
  kernels := [⟨"copy", fun _ =>
    .store 0 0 ⟨7⟩ (.load 2 0 fun x => .store 3 0 (x.getD Single.zero) (.done ()))⟩]
  memory := ⟨[⟨#[⟨1⟩], 4, true⟩, ⟨#[⟨2⟩], 4, true⟩, ⟨#[⟨3⟩], 4, false⟩], 4⟩

/-- Arguments with two buffers that occur twice. -/
def repeatedArgs : List BufferHandle := [⟨2⟩, ⟨1⟩, ⟨2⟩, ⟨3⟩, ⟨1⟩]

theorem runKernel_deduplicates_repeatedArgs :
    (∀ a ∈ repeatedArgs, threeBufferHost.memory.contains a) ∧
    ∃ (binding : Binding) (slots : List (Array Single)) (taken : Memory),
      binding = ⟨[⟨2⟩, ⟨1⟩, ⟨3⟩], [0, 1, 0, 2, 1]⟩ ∧
      binding.Deduplicates repeatedArgs ∧
      slots = [#[⟨2⟩], #[⟨1⟩], #[⟨3⟩]] ∧
      threeBufferHost.memory.TakenOnce repeatedArgs binding.bound slots taken ∧
      (∀ f, Frame.Reached ⟨slots, binding.positions⟩ f →
        f.Serves repeatedArgs binding.bound threeBufferHost.memory taken) ∧
      (runKernel ⟨1⟩ (Launch.linear 1 1) repeatedArgs).runFrom threeBufferHost =
        (.ok (), { threeBufferHost with memory :=
          ⟨[⟨#[⟨1⟩], 4, true⟩, ⟨#[⟨7⟩], 4, true⟩, ⟨#[⟨7⟩], 4, false⟩], 4⟩ }) := by
  have hargs : ∀ a ∈ repeatedArgs, threeBufferHost.memory.contains a := by decide
  have hlaunch : (Launch.linear 1 1).validate = .ok () :=
    (Launch.validate_eq_ok_iff _).mpr (by decide)
  obtain ⟨binding, slots, taken, hbinding, hdedup, htake, htaken, hserves, hrun⟩ :=
    runKernel_deduplicates hargs
  obtain rfl : ⟨[⟨2⟩, ⟨1⟩, ⟨3⟩], [0, 1, 0, 2, 1]⟩ = binding := Except.ok.inj (hbinding "copy")
  cases htake
  obtain ⟨f, rfl, -, hrun⟩ := hrun threeBufferHost ⟨1⟩ _ _ rfl rfl rfl hlaunch
  exact ⟨hargs, _, _, _, rfl, hdedup, rfl, htaken, hserves, hrun⟩

end Host

end NetReplay
