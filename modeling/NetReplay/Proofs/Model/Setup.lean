import NetReplay.Proofs.Host.Operations
import NetReplay.Proofs.Host.Memory
import NetReplay.Proofs.Model.Resolve
import NetReplay.Proofs.Table

/-!
# What a setup leaves behind

A model on a host is built up key by key. `Built` says what is there once
certain buffers and kernels are: every known key has a buffer of its own, of the
size that the program declares, and every known kernel is compiled to the body
that is registered under its key. Each step of the setup adds one key
(`Built.allocate`, `Built.compile`), and a successful setup has added those of
the program (`built_of_setup`).

An allocation that succeeds adds one buffer under a handle that had none, starting with
the values of its tensor and zero behind them, and binds it to its key
(`allocate_eq_ok`). What the allocations and the compilations keep, a successful
provisioning keeps (`provision_preserves`).
-/

namespace NetReplay

/-- The number of elements of the buffer of each key; the input and the output
take the place of declared buffers of their names. -/
def Program.sizes (p : Program) : Table Nat :=
  ((p.buffers.map fun _ d => d.elements.toNat).insert Program.inputKey p.inputLength).insert
    Program.outputKey p.outputLength

/-- The buffer to allocate under each key, and whether it can be written; the input and
the output take the place of declared buffers of their names, and no tensor fills them. -/
def Program.wanted (p : Program) : Table (Program.Descriptor × Bool) :=
  ((p.buffers.map fun _ d => (d, d.writable)).insert Program.inputKey
    ({ p.input with source := none }, false)).insert Program.outputKey
      ({ p.output with source := none }, true)

theorem Program.sizes_eq_map_wanted (p : Program) :
    p.sizes = p.wanted.map fun _ w => w.1.elements.toNat := by
  rw [sizes, wanted, Table.map_insert, Table.map_insert]
  refine congrArg (fun t => (Table.insert t _ _).insert _ _) (Table.ext_get? fun key => ?_)
  rw [Table.get?_map, Table.get?_map, Table.get?_map, Option.map_map]
  rfl

/-- The values that a buffer is filled with: those of its tensor, or none. -/
def Program.Descriptor.values (weights : Weights.Store) (d : Program.Descriptor) :
    Except Error (List Single) :=
  match d.source with
  | none => .ok []
  | some source => weights.values source

namespace Model

open ModelM

/-- The model with another memory of its host. -/
def withMemory (m : Model Host) (memory : Host.Memory) : Model Host :=
  { m with device := { m.device with memory } }

/-- The key has a buffer of `n` whole elements. -/
def Holds (m : Model Host) (key : String) (n : Nat) : Prop :=
  ∃ h b, m.buffers.get? key = some h ∧ m.device.memory.get? h = some b ∧ b.Whole ∧
    b.contents.size = n

/-- A model with the buffers of `sizes` and the kernels of `sources`, whose
bodies are those of `bodies`. -/
structure Built (p : Program) (bodies : Table Kernel.Body) (sizes : Table Nat)
    (sources : Table String) (m : Model Host) : Prop where
  program : m.program = p
  initialized : m.device.initialized = true
  registry : m.device.registry = bodies
  holds : ∀ key n, sizes.get? key = some n → m.Holds key n
  noBuffer : ∀ key, sizes.get? key = none → m.buffers.get? key = none
  injective : ∀ j k h, m.buffers.get? j = some h → m.buffers.get? k = some h → j = k
  compiled : ∀ key source, sources.get? key = some source →
    ∃ h body, m.kernels.get? key = some h ∧ bodies.get? key = some body ∧
      m.device.kernel? h = some ⟨key, body⟩
  noKernel : ∀ key, sources.get? key = none → m.kernels.get? key = none

variable {p : Program} {bodies : Table Kernel.Body} {sizes : Table Nat} {sources : Table String}
  {m n : Model Host}

theorem Built.exists_buffer (hm : Built p bodies sizes sources m) {key : String} {h : BufferHandle}
    (hkey : m.buffers.get? key = some h) : ∃ b, m.device.memory.get? h = some b ∧ b.Whole := by
  cases hsize : sizes.get? key with
  | none =>
      rw [hm.noBuffer key hsize] at hkey
      cases hkey
  | some size =>
      obtain ⟨h', b, hh, hb, hwhole, -⟩ := hm.holds key size hsize
      cases hkey.symm.trans hh
      exact ⟨b, hb, hwhole⟩

theorem Built.exists_kernel (hm : Built p bodies sizes sources m) {key : String} {h : KernelHandle}
    (hkey : m.kernels.get? key = some h) :
    ∃ body, bodies.get? key = some body ∧ m.device.kernel? h = some ⟨key, body⟩ := by
  cases hsource : sources.get? key with
  | none =>
      rw [hm.noKernel key hsource] at hkey
      cases hkey
  | some source =>
      obtain ⟨h', body, hh, hbody, hkernel⟩ := hm.compiled key source hsource
      cases hkey.symm.trans hh
      exact ⟨body, hbody, hkernel⟩

/-- All that matters of memory are the buffers of whole elements. -/
theorem Built.withMemory_of_keepsWhole (hm : Built p bodies sizes sources m) {memory : Host.Memory}
    (hkeeps : m.device.memory.KeepsWhole memory) :
    Built p bodies sizes sources (m.withMemory memory) where
  program := hm.program
  initialized := hm.initialized
  registry := hm.registry
  holds key size hsize := by
    obtain ⟨h, b, hh, hb, hwhole, hn⟩ := hm.holds key size hsize
    obtain ⟨c, hc, hcwhole, hcontents⟩ := hkeeps h b hb hwhole
    exact ⟨h, c, hh, hc, hcwhole, hcontents.trans hn⟩
  noBuffer := hm.noBuffer
  injective := hm.injective
  compiled := hm.compiled
  noKernel := hm.noKernel

/-- Values of elements do not matter. -/
theorem Built.withMemory (hm : Built p bodies sizes sources m) {memory : Host.Memory}
    (hkeeps : m.device.memory.Keeps memory) :
    Built p bodies sizes sources (m.withMemory memory) :=
  hm.withMemory_of_keepsWhole hkeeps.keepsWhole

/-! ## Steps of the device -/

theorem createBuffer_eq_ok (hinit : m.device.initialized = true) {byteSize : UInt64}
    {writable : Bool} {wrap : DeviceError → Error} {h : BufferHandle}
    (hrun : (onDevice (Device.createBuffer byteSize writable) wrap).runFrom m = (.ok h, n)) :
    ∃ memory, m.device.memory.allocate byteSize writable = .ok (h, memory) ∧
      n = m.withMemory memory := by
  obtain ⟨device, hdevice, rfl⟩ := runFrom_onDevice_eq_ok_iff.mp hrun
  have hcreate := (Host.runFrom_createBuffer hinit byteSize writable).symm.trans hdevice
  cases hallocate : m.device.memory.allocate byteSize writable with
  | error e =>
      rw [hallocate] at hcreate
      cases hcreate
  | ok allocated =>
      rw [hallocate] at hcreate
      cases hcreate
      exact ⟨_, rfl, rfl⟩

theorem writeBuffer_eq_ok (hinit : m.device.initialized = true) {h : BufferHandle}
    {data : List Single} {wrap : DeviceError → Error}
    (hrun : (onDevice (Device.writeBuffer h data) wrap).runFrom m = (.ok (), n)) :
    ∃ memory, m.device.memory.write h data = .ok memory ∧ n = m.withMemory memory := by
  obtain ⟨device, hdevice, rfl⟩ := runFrom_onDevice_eq_ok_iff.mp hrun
  have hwrite := (Host.runFrom_writeBuffer hinit h data).symm.trans hdevice
  cases hmemory : m.device.memory.write h data with
  | error e =>
      rw [hmemory] at hwrite
      cases hwrite
  | ok memory =>
      rw [hmemory] at hwrite
      cases hwrite
      exact ⟨memory, rfl, rfl⟩

theorem createKernel_eq_ok (hinit : m.device.initialized = true) {key source : String}
    {wrap : DeviceError → Error} {h : KernelHandle}
    (hrun : (onDevice (Device.createKernel key source) wrap).runFrom m = (.ok h, n)) :
    ∃ body, m.device.registry.get? key = some body ∧ h = ⟨m.device.kernels.length + 1⟩ ∧
      n = { m with device := m.device.withKernel ⟨key, body⟩ } := by
  obtain ⟨device, hdevice, rfl⟩ := runFrom_onDevice_eq_ok_iff.mp hrun
  have hcreate := (Host.runFrom_createKernel hinit key source).symm.trans hdevice
  cases hbody : m.device.registry.get? key with
  | none =>
      rw [hbody] at hcreate
      cases hcreate
  | some body =>
      rw [hbody] at hcreate
      dsimp only at hcreate
      split at hcreate
      · cases hcreate
        exact ⟨body, rfl, rfl, rfl⟩
      · cases hcreate

theorem allocationSize_eq_ok {d : Program.Descriptor} {size : UInt64}
    (hsize : allocationSize d = .ok size) : size.toNat = 4 * d.elements.toNat := by
  rw [allocationSize] at hsize
  cases hbytes : d.byteSize? with
  | none =>
      rw [hbytes] at hsize
      cases hsize
  | some bytes =>
      rw [hbytes] at hsize
      cases hsize
      have hmul := (Word.mul?_eq_some_iff _ _ _).mp hbytes
      rw [← hmul, Nat.mul_comm]
      rfl

/-- The model with a further key for a buffer. -/
def withBuffer (m : Model Host) (key : String) (h : BufferHandle) : Model Host :=
  { m with buffers := m.buffers.insert key h }

/-- Filling a buffer that succeeds has written the values to its front. -/
theorem fill_eq_ok (hinit : m.device.initialized = true) {weights : Weights.Store}
    {d : Program.Descriptor} {h : BufferHandle} {b : Host.Buffer} (hb : m.device.memory.get? h = some b)
    (hwhole : b.Whole) (hrun : (fill weights d h).runFrom m = (.ok (), n)) :
    ∃ values, d.values weights = .ok values ∧ values.length ≤ b.contents.size ∧
      n = m.withMemory (m.device.memory.modify h (Host.Memory.overwrite values)) := by
  rw [fill] at hrun
  cases hsource : d.source with
  | none =>
      rw [hsource] at hrun
      cases hrun
      refine ⟨[], by rw [Program.Descriptor.values, hsource], Nat.zero_le _, ?_⟩
      rw [Host.Memory.modify_eq_self hb (Host.Memory.overwrite_nil b)]
      rfl
  | some source =>
      rw [hsource] at hrun
      obtain ⟨values, _, hvalues, hwrite⟩ := runFrom_bind_eq_ok_iff.mp hrun
      rw [runFrom_ofExcept, Prod.mk.injEq] at hvalues
      obtain ⟨hvalues, rfl⟩ := hvalues
      obtain ⟨memory, hmemory, rfl⟩ := writeBuffer_eq_ok hinit hwrite
      obtain ⟨c, hc, hfits, rfl⟩ := Host.Memory.write_eq_ok_iff.mp hmemory
      cases hb.symm.trans hc
      refine ⟨values, ?_, Host.Memory.length_le_of_fits hwhole hfits, rfl⟩
      rw [Program.Descriptor.values, hsource]
      exact hvalues

/-- An allocation that succeeds binds its key to a further buffer that starts with the
values of the tensor. -/
theorem allocate_eq_ok (hinit : m.device.initialized = true) {weights : Weights.Store}
    {key : String} {d : Program.Descriptor} {writable : Bool}
    (hrun : (allocate key d writable (fill weights d)).runFrom m = (.ok (), n)) :
    ∃ h b memory values, d.values weights = .ok values ∧ m.device.memory.Adds h b memory ∧
      b.StartsWith d.elements.toNat writable values ∧
      n = (m.withMemory memory).withBuffer key h := by
  rw [allocate] at hrun
  obtain ⟨size, _, hsize, hrun⟩ := runFrom_bind_eq_ok_iff.mp hrun
  rw [runFrom_ofExcept, Prod.mk.injEq] at hsize
  obtain ⟨hsize, rfl⟩ := hsize
  obtain ⟨h, _, hcreate, hrun⟩ := runFrom_bind_eq_ok_iff.mp hrun
  obtain ⟨memory, hallocate, rfl⟩ := createBuffer_eq_ok hinit hcreate
  obtain ⟨_, _, hfill, hinsert⟩ := runFrom_bind_eq_ok_iff.mp hrun
  have hsize := allocationSize_eq_ok hsize
  have helements : Host.Memory.elementsOf size = d.elements.toNat := by
    rw [Host.Memory.elementsOf, Host.Memory.elementBytes, hsize]
    exact Nat.mul_div_cancel_left _ (by decide)
  have hadds := Host.Memory.adds_of_allocate hallocate
  rw [helements] at hadds
  have hwhole : (⟨Array.replicate d.elements.toNat Single.zero, size, writable⟩ :
      Host.Buffer).Whole := by
    rw [Host.Buffer.Whole, Array.size_replicate]
    exact hsize
  obtain ⟨values, hvalues, hle, rfl⟩ :=
    fill_eq_ok (m := m.withMemory memory) hinit hadds.here hwhole hfill
  rw [Array.size_replicate] at hle
  cases hinsert
  exact ⟨h, _, _, values, hvalues, hadds.modify _,
    Host.Memory.startsWith_overwrite hsize writable hle, rfl⟩

/-! ## Adding a key -/

/-- A buffer whose handle is not in use can be made known under a key. -/
theorem Built.withBuffer (hm : Built p bodies sizes sources m) {key : String} {h : BufferHandle}
    {b : Host.Buffer} (hb : m.device.memory.get? h = some b) (hwhole : b.Whole)
    (hfresh : ∀ k, m.buffers.get? k ≠ some h) :
    Built p bodies (sizes.insert key b.contents.size) sources (m.withBuffer key h) where
  program := hm.program
  initialized := hm.initialized
  registry := hm.registry
  holds k size hsize := by
    rw [Table.get?_insert] at hsize
    rw [Holds, Model.withBuffer, Table.get?_insert]
    by_cases hk : k = key
    · rw [if_pos hk] at hsize
      rw [if_pos hk]
      exact ⟨h, b, rfl, hb, hwhole, Option.some.inj hsize⟩
    · rw [if_neg hk] at hsize
      rw [if_neg hk]
      exact hm.holds k size hsize
  noBuffer k hsize := by
    rw [Table.get?_insert] at hsize
    rw [Model.withBuffer, Table.get?_insert]
    by_cases hk : k = key
    · rw [if_pos hk] at hsize
      cases hsize
    · rw [if_neg hk] at hsize
      rw [if_neg hk]
      exact hm.noBuffer k hsize
  injective j k i hj hk := by
    rw [Model.withBuffer, Table.get?_insert] at hj hk
    by_cases hjkey : j = key
    · by_cases hkkey : k = key
      · exact hjkey.trans hkkey.symm
      · rw [if_pos hjkey] at hj
        rw [if_neg hkkey] at hk
        cases hj
        exact absurd hk (hfresh k)
    · rw [if_neg hjkey] at hj
      by_cases hkkey : k = key
      · rw [if_pos hkkey] at hk
        cases hk
        exact absurd hj (hfresh j)
      · rw [if_neg hkkey] at hk
        exact hm.injective j k i hj hk
  compiled := hm.compiled
  noKernel := hm.noKernel

/-- Allocating and filling a buffer adds its key. -/
theorem Built.allocate (hm : Built p bodies sizes sources m) {weights : Weights.Store}
    {key : String} {d : Program.Descriptor} {writable : Bool}
    (hrun : (Model.allocate key d writable (fill weights d)).runFrom m = (.ok (), n)) :
    Built p bodies (sizes.insert key d.elements.toNat) sources n := by
  obtain ⟨h, b, memory, values, -, hadds, hstarts, rfl⟩ := allocate_eq_ok hm.initialized hrun
  rw [← hstarts.size_contents]
  refine (hm.withMemory hadds.keeps).withBuffer hadds.here hstarts.whole fun k hk => ?_
  obtain ⟨c, hc, -⟩ := hm.exists_buffer hk
  rw [hadds.fresh] at hc
  cases hc

/-- Compiling a kernel adds its key. -/
theorem Built.compile (hm : Built p bodies sizes sources m) {key source : String}
    (hrun : (Model.compile key source).runFrom m = (.ok (), n)) :
    Built p bodies sizes (sources.insert key source) n := by
  rw [Model.compile] at hrun
  obtain ⟨h, _, hcreate, hinsert⟩ := runFrom_bind_eq_ok_iff.mp hrun
  obtain ⟨body, hbody, rfl, rfl⟩ := createKernel_eq_ok hm.initialized hcreate
  cases hinsert
  refine ⟨hm.program, hm.initialized, hm.registry, hm.holds, hm.noBuffer, hm.injective,
    fun k text htext => ?_, fun k hnone => ?_⟩
  · rw [Table.get?_insert] at htext
    simp only [Table.get?_insert]
    by_cases hk : k = key
    · rw [if_pos hk, hk]
      rw [hm.registry] at hbody
      exact ⟨_, body, rfl, hbody, Host.kernel?_withKernel_next _ _⟩
    · rw [if_neg hk] at htext
      rw [if_neg hk]
      obtain ⟨h, other, hh, hother, hkernel⟩ := hm.compiled k text htext
      exact ⟨h, other, hh, hother, Host.kernel?_withKernel_of_some hkernel _⟩
  · rw [Table.get?_insert] at hnone
    simp only [Table.get?_insert]
    by_cases hk : k = key
    · rw [if_pos hk] at hnone
      cases hnone
    · rw [if_neg hk] at hnone
      rw [if_neg hk]
      exact hm.noKernel k hnone

/-! ## The whole setup -/

theorem built_new (host : Host) (p : Program) :
    Built p host.registry .empty .empty
      { Model.new host p with device := { host with initialized := true } } where
  program := rfl
  initialized := rfl
  registry := rfl
  holds key size hsize := by cases hsize
  noBuffer key _ := rfl
  injective j k h hj _ := by cases hj
  compiled key source hsource := by cases hsource
  noKernel key _ := rfl

theorem setup_eq_ok {host : Host} {p : Program} {wrap : DeviceError → Error}
    (hrun : (onDevice Device.setup wrap).runFrom (Model.new host p) = (.ok (), n)) :
    n = { Model.new host p with device := { host with initialized := true } } := by
  obtain ⟨device, hdevice, rfl⟩ := runFrom_onDevice_eq_ok_iff.mp hrun
  have hsetup := (Host.runFrom_setup host).symm.trans hdevice
  split at hsetup
  · cases hsetup
  · cases hsetup
    rfl

/-- Provisioning that succeeds keeps what its allocations and compilations keep. The
invariant may speak of the buffers and the kernels that are there so far. -/
theorem provision_preserves {weights : Weights.Store} {host : Host}
    (invariant : Table (Program.Descriptor × Bool) → Table String → Model Host → Prop)
    (hnew : invariant .empty .empty
      { Model.new host p with device := { host with initialized := true } })
    (hallocate : ∀ wanted sources key d writable m n, invariant wanted sources m →
      (allocate key d writable (fill weights d)).runFrom m = (.ok (), n) →
      invariant (wanted.insert key (d, writable)) sources n)
    (hcompile : ∀ wanted sources key source m n, invariant wanted sources m →
      (compile key source).runFrom m = (.ok (), n) →
      invariant wanted (sources.insert key source) n)
    (hrun : (provision weights).runFrom (Model.new host p) = (.ok (), n)) :
    invariant p.wanted p.kernels n := by
  rw [provision] at hrun
  obtain ⟨_, _, hsetup, hrun⟩ := runFrom_bind_eq_ok_iff.mp hrun
  cases setup_eq_ok hsetup
  obtain ⟨_, _, hget, hrun⟩ := runFrom_bind_eq_ok_iff.mp hrun
  cases hget
  obtain ⟨_, m₁, hbuffers, hrun⟩ := runFrom_bind_eq_ok_iff.mp hrun
  obtain ⟨_, m₂, hinput, hrun⟩ := runFrom_bind_eq_ok_iff.mp hrun
  obtain ⟨_, m₃, houtput, hkernels⟩ := runFrom_bind_eq_ok_iff.mp hrun
  have hdeclared := forM_preserves (fun wanted m => invariant wanted .empty m)
    (fun wanted e => wanted.insert e.1 (e.2, e.2.writable))
    (fun _ _ _ _ hm hround => hallocate _ _ _ _ _ _ _ hm hround) hnew hbuffers
  -- the input and the output are allocated like buffers without a tensor
  have hreserved := hallocate _ _ _ { p.input with source := none } false _ _ hdeclared hinput
  have hreserved := hallocate _ _ _ { p.output with source := none } true _ _ hreserved houtput
  have hcompiled := forM_preserves (fun sources m => invariant _ sources m)
    (fun sources e => sources.insert e.1 e.2)
    (fun _ _ _ _ hm hround => hcompile _ _ _ _ _ _ hm hround) hreserved hkernels
  rw [Program.wanted, ← Table.foldl_insert_map p.buffers fun d => (d, d.writable),
    ← Table.foldl_insert_toList p.kernels]
  exact hcompiled

/-- Provisioning adds the declared buffers, the input, the output and the
kernels, in this order. -/
theorem built_of_provision {weights : Weights.Store} {host : Host}
    (hrun : (provision weights).runFrom (Model.new host p) = (.ok (), n)) :
    Built p host.registry p.sizes p.kernels n := by
  rw [Program.sizes_eq_map_wanted]
  refine provision_preserves (fun wanted sources m => Built p host.registry
    (wanted.map fun _ (w : Program.Descriptor × Bool) => w.1.elements.toNat) sources m)
    (built_new host p) (fun wanted sources key d writable m n hm hround => ?_)
    (fun wanted sources key source m n hm hround => hm.compile hround) hrun
  rw [Table.map_insert]
  exact hm.allocate hround

/-- A setup succeeds when provisioning does, and makes the model ready. -/
theorem provision_of_setup {weights : Weights.Store} {host : Host}
    (hrun : (setup weights).runFrom (Model.new host p) = (.ok (), n)) :
    ∃ k, (provision weights).runFrom (Model.new host p) = (.ok (), k) ∧
      n = { k with phase := .ready } := by
  have hphase : (Model.new host p).phase = .unconfigured := rfl
  rw [runFrom_setup, if_pos hphase] at hrun
  rcases hprovision : (provision weights).runFrom (Model.new host p) with ⟨e | a, k⟩
  · rw [hprovision] at hrun
    cases hrun
  · rw [hprovision] at hrun
    cases hrun
    exact ⟨k, rfl, rfl⟩

/-- A successful setup leaves a ready model with the buffers and kernels of its
program. -/
theorem built_of_setup {weights : Weights.Store} {host : Host}
    (hrun : (setup weights).runFrom (Model.new host p) = (.ok (), n)) :
    Built p host.registry p.sizes p.kernels n ∧ n.phase = .ready := by
  obtain ⟨k, hprovision, rfl⟩ := provision_of_setup hrun
  have hbuilt := built_of_provision hprovision
  exact ⟨⟨hbuilt.program, hbuilt.initialized, hbuilt.registry, hbuilt.holds, hbuilt.noBuffer,
    hbuilt.injective, hbuilt.compiled, hbuilt.noKernel⟩, rfl⟩

/-- The keys of the sizes of a program are those that it declares. -/
theorem isSome_sizes (p : Program) (key : String) :
    (p.sizes.get? key).isSome = p.declaresBuffer key := by
  rw [Program.sizes, Table.get?_insert, Table.get?_insert, Table.get?_map, Program.declaresBuffer,
    Table.contains]
  by_cases houtput : key = Program.outputKey
  · simp [houtput]
  · by_cases hinput : key = Program.inputKey
    · rw [hinput] at houtput
      simp [houtput, hinput]
    · simp [houtput, hinput]

/-- A model that was built for a program knows its keys. -/
theorem Built.knows (hm : Built p bodies p.sizes p.kernels m) : m.Knows p where
  buffers key := by
    rw [← isSome_sizes]
    cases hsize : p.sizes.get? key with
    | none =>
        rw [hm.noBuffer key hsize]
        rfl
    | some size =>
        obtain ⟨h, b, hh, -⟩ := hm.holds key size hsize
        rw [hh, Option.isSome_some, Option.isSome_some]
  kernels key := by
    rw [Table.contains]
    cases hsource : p.kernels.get? key with
    | none =>
        rw [hm.noKernel key hsource]
        rfl
    | some source =>
        obtain ⟨h, body, hh, -⟩ := hm.compiled key source hsource
        rw [hh, Option.isSome_some, Option.isSome_some]

end Model

end NetReplay
