import NetReplay.Proofs.Host.Transfers
import NetReplay.Proofs.Model.Provisioning
import NetReplay.Proofs.Model.Refinement

/-!
# What a setup comes to

Setting a model up is decided by its program, the kernels that are registered, the
weights and the bytes that the machine gives to one buffer, and by nothing that lies in
memory already (`Program.prepare`, `setup_new`). A failure is the same wherever the
buffers of the model come to lie, but for the handles that it may carry
(`Error.anonymous`).

An action that furnishes a model does to the bound lists what a function says, and
touches no buffer that was there before (`Supplies`, `Furnished`). Such actions can be
put one after the other (`Supplies.bind`, `Supplies.forM`).
-/

namespace NetReplay

/-! ## Failures without handles -/

/-- The failure without the handles of buffers that it carries. -/
def DeviceError.anonymous : DeviceError → DeviceError
  | invalidBufferHandle _ => .invalidBufferHandle 0
  | transferFailed _ reason => .transferFailed ⟨0⟩ reason
  | e => e

/-- The failure without the handles of buffers that it carries. -/
def Error.anonymous : Error → Error
  | kernelDispatchFailed statement kernel source =>
    .kernelDispatchFailed statement kernel source.anonymous
  | device source => .device source.anonymous
  | e => e

/-! ## The meaning of a setup -/

namespace Program

open Host (Memory)

/-- No lists under any key. -/
def Contents.empty : Contents := fun _ => none

/-- The numbers in a buffer of a given size once it was filled, if it has a tensor. -/
def Descriptor.filled (weights : Weights.Store) (size : UInt64) (d : Descriptor) :
    Except Error (List Single) :=
  let zeros := List.replicate (Memory.elementsOf size) Single.zero
  match d.source with
  | none => .ok zeros
  | some source => do
    let values ← weights.values source
    (Memory.checkFits ⟨0⟩ values.length size).mapError .device
    pure (values ++ zeros.drop values.length)

/-- The numbers that a buffer starts with, on a machine that gives `available` bytes to
one buffer. -/
def Descriptor.supply (available : Nat) (weights : Weights.Store) (d : Descriptor) :
    Except Error (List Single) :=
  match Model.allocationSize d with
  | .error e => .error e
  | .ok size =>
    match (Memory.empty available).refusal? (Memory.elementsOf size * Memory.elementBytes) with
    | some reason => .error (.device (.allocationFailed size reason))
    | none => d.filled weights size

/-- Whether a kernel can be compiled, among registered bodies. -/
def checkKernel (bodies : Table Kernel.Body) (key source : String) : Except Error Unit :=
  match bodies.get? key with
  | none => .error (.device (.compileError key
      "no host implementation registered for entry point"))
  | some _ =>
    if Host.occursIn key.toList source.toList then .ok ()
    else .error (.device (.compileError key
      s!"entry point not found in {source.utf8ByteSize} bytes of source"))

/-- The lists with that of a further buffer. -/
def supplied (available : Nat) (weights : Weights.Store) (c : Contents)
    (e : String × Descriptor) : Except Error Contents :=
  (e.2.supply available weights).map (c.set e.1)

/-- The same lists, provided that a kernel can be compiled. -/
def compiled (bodies : Table Kernel.Body) (c : Contents) (e : String × String) :
    Except Error Contents :=
  (checkKernel bodies e.1 e.2).map fun _ => c

/-- The lists with those of the declared buffers, of the input and of the output,
provided that the kernels can be compiled. -/
def prepare (p : Program) (bodies : Table Kernel.Body) (available : Nat)
    (weights : Weights.Store) (c : Contents) : Except Error Contents := do
  let c ← p.buffers.toList.foldlM (supplied available weights) c
  let c ← supplied available weights c (inputKey, { p.input with source := none })
  let c ← supplied available weights c (outputKey, { p.output with source := none })
  p.kernels.toList.foldlM (compiled bodies) c

end Program

namespace Model

open ModelM Program
open Host (Memory)

/-! ## Furnishing a model -/

/-- A model on a host that was set up, with the given bodies registered, whose buffers
came after those of `base` and which has left these alone. -/
structure Furnished (base : Memory) (bodies : Table Kernel.Body) (m : Model Host) : Prop where
  initialized : m.device.initialized = true
  registry : m.device.registry = bodies
  available : m.device.memory.available = base.available
  kept : ∀ h b, base.get? h = some b → m.device.memory.get? h = some b
  held : ∀ key h, m.buffers.get? key = some h →
    base.get? h = none ∧ ∃ b, m.device.memory.get? h = some b

/-- The action furnishes a model, and does to the bound lists what a function says. It
fails where the function does. -/
def Supplies (base : Memory) (bodies : Table Kernel.Body) (x : ModelM Host Unit)
    (f : Contents → Except Error Contents) : Prop :=
  ∀ m, Furnished base bodies m → Furnished base bodies (x.runFrom m).2 ∧
    ((∃ c, f m.contents? = .ok c ∧ (x.runFrom m).1 = .ok () ∧ (x.runFrom m).2.contents? = c) ∨
      ∃ d e, f m.contents? = .error d ∧ (x.runFrom m).1 = .error e ∧ e.anonymous = d.anonymous)

section

variable {base : Memory} {bodies : Table Kernel.Body} {m : Model Host}

theorem Supplies.bind {x y : ModelM Host Unit} {f g : Contents → Except Error Contents}
    (hx : Supplies base bodies x f) (hy : Supplies base bodies y g) :
    Supplies base bodies (x >>= fun _ => y) fun c => f c >>= g := by
  intro m hm
  obtain ⟨hfirst, hresult⟩ := hx m hm
  rw [runFrom_bind]
  rcases hrun : x.runFrom m with ⟨e | u, n⟩
  · rw [hrun] at hfirst hresult
    rcases hresult with ⟨_, -, hok, -⟩ | ⟨d, e', hd, herror, heq⟩
    · cases hok
    · cases herror
      refine ⟨hfirst, Or.inr ⟨d, e, ?_, rfl, heq⟩⟩
      dsimp only
      rw [hd]
      rfl
  · rw [hrun] at hfirst hresult
    rcases hresult with ⟨c, hc, -, rfl⟩ | ⟨_, _, -, herror, -⟩
    · dsimp only
      rw [hc]
      exact hy n hfirst
    · cases herror

theorem supplies_pure : Supplies base bodies (pure ()) .ok :=
  fun m hm => ⟨hm, Or.inl ⟨m.contents?, rfl, rfl, rfl⟩⟩

/-- A loop of such actions does what the functions do one after the other. -/
theorem Supplies.forM {α : Type} {round : α → ModelM Host Unit}
    {f : Contents → α → Except Error Contents}
    (hround : ∀ a, Supplies base bodies (round a) (f · a)) (l : List α) :
    Supplies base bodies (l.forM round) (l.foldlM f) := by
  induction l with
  | nil => exact supplies_pure
  | cons a l ih => exact (hround a).bind ih

/-! ## Single steps -/

theorem Furnished.base_of_adds (hm : Furnished base bodies m) {h : BufferHandle} {b : Host.Buffer}
    {n : Memory} (hadds : m.device.memory.Adds h b n) : base.get? h = none := by
  cases hbase : base.get? h with
  | none => rfl
  | some c => exact absurd ((hm.kept h c hbase).symm.trans hadds.fresh) (by simp)

theorem Furnished.withMemory (hm : Furnished base bodies m) {h : BufferHandle} {b : Host.Buffer}
    {n : Memory} (hadds : m.device.memory.Adds h b n) : Furnished base bodies (m.withMemory n) := by
  refine ⟨hm.initialized, hm.registry, hadds.available.trans hm.available, fun k c hc => ?_,
    fun key k hk => ?_⟩
  · exact hadds.get?_of_some (hm.kept k c hc)
  · obtain ⟨hbase, c, hc⟩ := hm.held key k hk
    exact ⟨hbase, c, hadds.get?_of_some hc⟩

/-- A further buffer can be made known, and its key is then bound to its list. -/
theorem Furnished.withBuffer (hm : Furnished base bodies m) {h : BufferHandle} {b : Host.Buffer}
    {n : Memory} (hadds : m.device.memory.Adds h b n) (key : String) :
    Furnished base bodies ((m.withMemory n).withBuffer key h) ∧
      ((m.withMemory n).withBuffer key h).contents? =
        m.contents?.set key b.contents.toList := by
  have hn := hm.withMemory hadds
  refine ⟨⟨hn.initialized, hn.registry, hn.available, hn.kept, fun k i hi => ?_⟩, ?_⟩
  · rw [Model.withBuffer, Table.get?_insert] at hi
    split at hi
    · cases hi
      exact ⟨hm.base_of_adds hadds, b, hadds.here⟩
    · exact hn.held k i hi
  · funext k
    rw [contents?, Contents.set, Model.withBuffer, Table.get?_insert]
    by_cases hk : k = key
    · rw [if_pos hk, if_pos hk, Option.bind_some]
      exact congrArg (Option.map _) hadds.here
    · rw [if_neg hk, if_neg hk]
      refine Option.bind_congr fun i hi => congrArg (Option.map _) (hadds.elsewhere i ?_)
      rintro rfl
      obtain ⟨-, c, hc⟩ := hm.held k i hi
      exact absurd (hc.symm.trans hadds.fresh) (by simp)

/-- An allocation fails for the number of its bytes, or adds a buffer of zeros. -/
theorem Furnished.createBuffer_cases (hm : Furnished base bodies m) (size : UInt64)
    (writable : Bool) (wrap : DeviceError → Error) :
    (∃ reason, (Memory.empty base.available).refusal?
          (Memory.elementsOf size * Memory.elementBytes) = some reason ∧
        (onDevice (Device.createBuffer size writable) wrap).runFrom m =
          (.error (wrap (.allocationFailed size reason)), m)) ∨
      (Memory.empty base.available).refusal?
          (Memory.elementsOf size * Memory.elementBytes) = none ∧
        ∃ h n, m.device.memory.Adds h
            ⟨Array.replicate (Memory.elementsOf size) Single.zero, size, writable⟩ n ∧
          (onDevice (Device.createBuffer size writable) wrap).runFrom m =
            (.ok h, m.withMemory n) := by
  have hcreate : (Device.createBuffer size writable).runFrom m.device = _ :=
    Host.runFrom_createBuffer hm.initialized size writable
  rw [← hm.available]
  rcases m.device.memory.allocate_cases size writable with
    ⟨reason, hrefusal, hallocate⟩ | ⟨hrefusal, h, n, hallocate⟩
  · refine Or.inl ⟨reason, hrefusal, ?_⟩
    rw [runFrom_onDevice, hcreate, hallocate]
    rfl
  · refine Or.inr ⟨hrefusal, h, n, Memory.adds_of_allocate hallocate, ?_⟩
    rw [runFrom_onDevice, hcreate, hallocate]
    rfl

/-- Filling a buffer of zeros leaves it with the numbers that the weights say. -/
theorem fill_cases (hinit : m.device.initialized = true) (weights : Weights.Store)
    (d : Descriptor) {size : UInt64} {writable : Bool} {h : BufferHandle} {n : Memory}
    (hadds : m.device.memory.Adds h
      ⟨Array.replicate (Memory.elementsOf size) Single.zero, size, writable⟩ n) :
    (∃ b k, d.filled weights size = .ok b.contents.toList ∧ m.device.memory.Adds h b k ∧
        (fill weights d h).runFrom (m.withMemory n) = (.ok (), m.withMemory k)) ∨
      ∃ e e', d.filled weights size = .error e ∧
        (fill weights d h).runFrom (m.withMemory n) = (.error e', m.withMemory n) ∧
        e'.anonymous = e.anonymous := by
  rw [Descriptor.filled, fill]
  cases d.source with
  | none =>
      refine Or.inl ⟨_, n, ?_, hadds, rfl⟩
      rw [Array.toList_replicate]
  | some source =>
      dsimp only
      rw [runFrom_bind, runFrom_ofExcept]
      cases weights.values source with
      | error e => exact Or.inr ⟨e, e, rfl, rfl, rfl⟩
      | ok values =>
          have hinit : (m.withMemory n).device.initialized = true := hinit
          have hwrite : (Device.writeBuffer h values).runFrom (m.withMemory n).device = _ :=
            Host.runFrom_writeBuffer hinit h values
          have hmemory : (m.withMemory n).device.memory = n := rfl
          dsimp only
          rw [runFrom_onDevice, hwrite, hmemory]
          rcases Memory.write_cases hadds.here values with ⟨reason, hfits, hn⟩ | ⟨hfits, hn⟩
          · rw [hn]
            refine Or.inr ⟨.device (.transferFailed ⟨0⟩ reason), _, ?_, rfl, rfl⟩
            simp only [bind, Except.bind, hfits, mapError_error]
          · rw [hn]
            refine Or.inl ⟨_, _, ?_, hadds.modify (Memory.overwrite values), rfl⟩
            simp only [bind, Except.bind, hfits, mapError_ok, Memory.toList_contents_overwrite,
              Array.toList_replicate]
            rfl

/-- Allocating and filling a buffer binds its key to the numbers that it starts with. -/
theorem supplies_allocate (weights : Weights.Store) (key : String) (d : Descriptor)
    (writable : Bool) :
    Supplies base bodies (allocate key d writable (fill weights d))
      (supplied base.available weights · (key, d)) := by
  intro m hm
  dsimp only [supplied, Descriptor.supply]
  rw [allocate, runFrom_bind, runFrom_ofExcept]
  cases allocationSize d with
  | error e => exact ⟨hm, Or.inr ⟨e, e, rfl, rfl, rfl⟩⟩
  | ok size =>
      dsimp only
      rw [runFrom_bind]
      rcases hm.createBuffer_cases size writable .device with
        ⟨reason, hrefusal, hcreate⟩ | ⟨hrefusal, h, n, hadds, hcreate⟩
      · rw [hrefusal, hcreate]
        exact ⟨hm, Or.inr ⟨_, _, rfl, rfl, rfl⟩⟩
      · rw [hrefusal, hcreate]
        dsimp only
        rw [runFrom_bind]
        rcases fill_cases hm.initialized weights d hadds with
          ⟨b, k, hlist, hadds, hfill⟩ | ⟨e, e', hlist, hfill, heq⟩
        · obtain ⟨hfurnished, hcontents⟩ := hm.withBuffer hadds key
          rw [hlist, hfill]
          exact ⟨hfurnished, Or.inl ⟨_, rfl, rfl, hcontents⟩⟩
        · rw [hlist, hfill]
          exact ⟨hm.withMemory hadds, Or.inr ⟨_, _, rfl, rfl, heq⟩⟩

theorem supplies_compile (key source : String) :
    Supplies base bodies (compile key source) (Program.compiled bodies · (key, source)) := by
  intro m hm
  dsimp only [Program.compiled, checkKernel]
  have hcreate : (Device.createKernel key source).runFrom m.device = _ :=
    Host.runFrom_createKernel hm.initialized key source
  rw [compile, runFrom_bind, runFrom_onDevice, hcreate, hm.registry]
  cases bodies.get? key with
  | none => exact ⟨hm, Or.inr ⟨_, _, rfl, rfl, rfl⟩⟩
  | some body =>
      dsimp only
      by_cases hoccurs : Host.occursIn key.toList source.toList
      · rw [if_pos hoccurs, if_pos hoccurs]
        exact ⟨⟨hm.initialized, hm.registry, hm.available, hm.kept, hm.held⟩,
          Or.inl ⟨_, rfl, rfl, rfl⟩⟩
      · rw [if_neg hoccurs, if_neg hoccurs]
        exact ⟨hm, Or.inr ⟨_, _, rfl, rfl, rfl⟩⟩

/-! ## The whole setup -/

theorem supplies_equip (weights : Weights.Store) (p : Program) :
    Supplies base bodies (equip weights p) (p.prepare bodies base.available weights) := by
  have hplace : ∀ e, Supplies base bodies (place weights e) (supplied base.available weights · e) :=
    fun e => supplies_allocate weights e.1 e.2 e.2.writable
  have hcompile : ∀ e, Supplies base bodies (compileEntry e) (Program.compiled bodies · e) :=
    fun e => supplies_compile e.1 e.2
  have hbuffers := Supplies.forM hplace p.buffers.toList
  have hkernels := Supplies.forM hcompile p.kernels.toList
  -- the input and the output are allocated like buffers without a tensor
  have hinput : Supplies base bodies (allocate inputKey p.input false fun _ => pure ()) _ :=
    supplies_allocate weights inputKey { p.input with source := none } false
  have houtput : Supplies base bodies (allocate outputKey p.output true fun _ => pure ()) _ :=
    supplies_allocate weights outputKey { p.output with source := none } true
  exact hbuffers.bind (hinput.bind (houtput.bind hkernels))

end

/-- A new model on a host that has just been set up. -/
def started (host : Host) (p : Program) : Model Host :=
  { Model.new host p with device := { host with initialized := true } }

theorem furnished_started (host : Host) (p : Program) :
    Furnished host.memory host.registry (started host p) where
  initialized := rfl
  registry := rfl
  available := rfl
  kept _ _ hb := hb
  held _ _ hh := by cases hh

theorem provision_new {host : Host} (hinit : host.initialized = false) (p : Program)
    (weights : Weights.Store) :
    (provision weights).runFrom (Model.new host p) =
      (equip weights p).runFrom (started host p) := by
  have hsetup : (Device.setup).runFrom host = (.ok (), { host with initialized := true }) := by
    have hrun := Host.runFrom_setup host
    rw [hinit] at hrun
    exact hrun
  have hdevice : (Model.new host p).device = host := rfl
  rw [provision, runFrom_bind, runFrom_onDevice, hdevice, hsetup]
  rfl

/-- The setup of a new model comes to what the program, the registered kernels, the
weights and the machine say. It adds buffers of its own and leaves all others alone. -/
theorem setup_new {host : Host} (hinit : host.initialized = false) (p : Program)
    (weights : Weights.Store) :
    let result := (setup weights).runFrom (Model.new host p)
    let means := p.prepare host.registry host.memory.available weights .empty
    Furnished host.memory host.registry result.2 ∧
      ((∃ c, means = .ok c ∧ result.1 = .ok () ∧ result.2.phase = .ready ∧
          result.2.contents? = c) ∨
        ∃ d e, means = .error d ∧ result.1 = .error e ∧ result.2.phase = .faulted ∧
          e.anonymous = d.anonymous) := by
  intro result means
  have hphase : (Model.new host p).phase = .unconfigured := rfl
  have hresult : result = _ := runFrom_setup weights (Model.new host p)
  obtain ⟨hm, hends⟩ := supplies_equip weights p _ (furnished_started host p)
  rw [if_pos hphase, provision_new hinit] at hresult
  rw [hresult]
  rcases hrun : (equip weights p).runFrom (started host p) with ⟨e | u, n⟩
  · rw [hrun] at hm hends
    rcases hends with ⟨_, -, hok, -⟩ | ⟨d, e', hd, herror, heq⟩
    · cases hok
    · cases herror
      exact ⟨⟨hm.initialized, hm.registry, hm.available, hm.kept, hm.held⟩,
        Or.inr ⟨d, e, hd, rfl, rfl, heq⟩⟩
  · rw [hrun] at hm hends
    rcases hends with ⟨c, hc, -, hcontents⟩ | ⟨_, _, -, herror, -⟩
    · exact ⟨⟨hm.initialized, hm.registry, hm.available, hm.kept, hm.held⟩,
        Or.inl ⟨c, hc, rfl, rfl, hcontents⟩⟩
    · cases herror

end Model

end NetReplay
