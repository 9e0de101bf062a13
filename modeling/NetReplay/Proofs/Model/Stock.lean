import NetReplay.Proofs.Model.Allocation
import NetReplay.Proofs.Model.Furnishing

/-!
# What lies in the buffers after a setup

Every allocation of a setup adds a buffer that starts with the values of its tensor, or
with none, and is zero behind them, and nothing that follows touches it. At the end every
wanted buffer is stocked like this, and every kernel has a handle of its own that is new
(`stocked_of_setup`). For an accepted program this says what its document is set up to
(`setup_establishes`).
-/

namespace NetReplay

namespace Program

/-- An accepted program is the one that its document describes. -/
theorem exists_document_of_ofBytes {s : List UInt8} {p : Program} (h : ofBytes s = .ok p) :
    ∃ doc, Document.read s = .ok doc ∧ p = ofDocument doc := by
  obtain ⟨doc, hread, -, -, hp⟩ := (ofBytes_eq_ok_iff s p).mp h
  exact ⟨doc, hread, hp⟩

theorem wanted_inputKey (p : Program) :
    p.wanted.get? inputKey = some ({ p.input with source := none }, false) := by
  simp [wanted, Table.get?_insert, inputKey, outputKey]

theorem wanted_outputKey (p : Program) :
    p.wanted.get? outputKey = some ({ p.output with source := none }, true) := by
  simp [wanted, Table.get?_insert]

theorem wanted_of_ne (p : Program) {key : String} (hinput : key ≠ inputKey)
    (houtput : key ≠ outputKey) :
    p.wanted.get? key = (p.buffers.get? key).map fun d => (d, d.writable) := by
  rw [wanted, Table.get?_insert, if_neg houtput, Table.get?_insert, if_neg hinput, Table.get?_map]

end Program

namespace Model

open ModelM
open Host (Memory)

/-- The key is bound to a buffer of so many elements that starts with the values and is
zero behind them. -/
def Stocks (m : Model Host) (key : String) (elements : Nat) (writable : Bool)
    (values : List Single) : Prop :=
  ∃ h b, m.buffers.get? key = some h ∧ m.device.memory.get? h = some b ∧
    b.StartsWith elements writable values

variable {p : Program} {weights : Weights.Store} {host : Host} {m n : Model Host}

/-! ## Stocked models -/

/-- The wanted buffers are there and stocked, and the kernels that were compiled came
after those of the host. -/
structure Stocked (host : Host) (weights : Weights.Store)
    (wanted : Table (Program.Descriptor × Bool)) (m : Model Host) : Prop where
  initialized : m.device.initialized = true
  stocked : ∀ key d writable, wanted.get? key = some (d, writable) →
    ∃ values, d.values weights = .ok values ∧ m.Stocks key d.elements.toNat writable values
  kernels : host.kernels.length ≤ m.device.kernels.length
  later : ∀ key h, m.kernels.get? key = some h → host.kernels.length < h.id

variable {wanted : Table (Program.Descriptor × Bool)}

/-- A further buffer leaves the others stocked, as their handles were in use. -/
theorem Stocks.withBuffer {key other : String} {elements : Nat} {writable : Bool}
    {values : List Single} (hm : m.Stocks key elements writable values) {h : BufferHandle}
    {b : Host.Buffer} {memory : Memory} (hadds : m.device.memory.Adds h b memory)
    (hne : key ≠ other) :
    ((m.withMemory memory).withBuffer other h).Stocks key elements writable values := by
  obtain ⟨k, c, hk, hc, hstarts⟩ := hm
  refine ⟨k, c, ?_, hadds.get?_of_some hc, hstarts⟩
  rw [Model.withBuffer, Table.get?_insert, if_neg hne]
  exact hk

theorem Stocked.allocate (hm : Stocked host weights wanted m) {key : String}
    {d : Program.Descriptor} {writable : Bool}
    (hrun : (Model.allocate key d writable (fill weights d)).runFrom m = (.ok (), n)) :
    Stocked host weights (wanted.insert key (d, writable)) n := by
  obtain ⟨h, b, memory, values, hvalues, hadds, hstarts, rfl⟩ :=
    allocate_eq_ok hm.initialized hrun
  refine ⟨hm.initialized, fun k e access hk => ?_, hm.kernels, hm.later⟩
  rw [Table.get?_insert] at hk
  by_cases hkey : k = key
  · rw [if_pos hkey] at hk
    cases hk
    refine ⟨values, hvalues, h, b, ?_, hadds.here, hstarts⟩
    rw [Model.withBuffer, Table.get?_insert, if_pos hkey]
  · rw [if_neg hkey] at hk
    obtain ⟨others, hothers, hstocks⟩ := hm.stocked k e access hk
    exact ⟨others, hothers, hstocks.withBuffer hadds hkey⟩

theorem Stocked.compile (hm : Stocked host weights wanted m) {key source : String}
    (hrun : (Model.compile key source).runFrom m = (.ok (), n)) :
    Stocked host weights wanted n := by
  rw [Model.compile] at hrun
  obtain ⟨h, _, hcreate, hinsert⟩ := runFrom_bind_eq_ok_iff.mp hrun
  obtain ⟨body, -, rfl, rfl⟩ := createKernel_eq_ok hm.initialized hcreate
  cases hinsert
  have hkernels := hm.kernels
  refine ⟨hm.initialized, hm.stocked, ?_, fun k h hk => ?_⟩
  · simp only [Host.withKernel, List.length_append]
    exact Nat.le_add_right_of_le hkernels
  · simp only [Table.get?_insert] at hk
    by_cases hkey : k = key
    · rw [if_pos hkey] at hk
      cases hk
      exact Nat.lt_succ_of_le hkernels
    · rw [if_neg hkey] at hk
      exact hm.later k h hk

theorem stocked_new (host : Host) (p : Program) (weights : Weights.Store) :
    Stocked host weights .empty
      { Model.new host p with device := { host with initialized := true } } where
  initialized := rfl
  stocked key d writable hnone := by cases hnone
  kernels := Nat.le_refl _
  later key h hnone := by cases hnone

theorem stocked_of_setup (hrun : (setup weights).runFrom (Model.new host p) = (.ok (), n)) :
    Stocked host weights p.wanted n := by
  obtain ⟨k, hprovision, rfl⟩ := provision_of_setup hrun
  have hk : Stocked host weights p.wanted k :=
    provision_preserves (fun wanted _ m => Stocked host weights wanted m)
      (stocked_new host p weights)
      (fun _ _ _ _ _ _ _ hm hround => hm.allocate hround)
      (fun _ _ _ _ _ _ hm hround => hm.compile hround) hprovision
  exact ⟨hk.initialized, hk.stocked, hk.kernels, hk.later⟩

theorem furnished_of_setup (hrun : (setup weights).runFrom (Model.new host p) = (.ok (), n)) :
    Furnished host.memory host.registry n := by
  have hinit : host.initialized = false := by
    obtain ⟨k, hprovision, -⟩ := provision_of_setup hrun
    rw [provision] at hprovision
    obtain ⟨_, _, hsetup, -⟩ := runFrom_bind_eq_ok_iff.mp hprovision
    obtain ⟨device, hdevice, -⟩ := runFrom_onDevice_eq_ok_iff.mp hsetup
    have hsetup := (Host.runFrom_setup host).symm.trans hdevice
    split at hsetup
    · cases hsetup
    · exact Bool.eq_false_iff.mpr ‹_›
  obtain ⟨hm, -⟩ := setup_new hinit p weights
  rwa [hrun] at hm

/-! ## The whole setup -/

/-- A kernel that was compiled has a handle that the host did not know. -/
theorem Stocked.kernel?_eq_none (hm : Stocked host weights wanted m) {key : String}
    {h : KernelHandle} (hkey : m.kernels.get? key = some h) : host.kernel? h = none := by
  have hlater := hm.later key h hkey
  rw [Host.kernel?]
  split
  · rfl
  · rename_i id hid
    exact List.getElem?_eq_none (by omega)

theorem Built.kernels_injective {bodies : Table Kernel.Body} {sizes : Table Nat}
    {sources : Table String} (hm : Built p bodies sizes sources m) {j k : String}
    {h : KernelHandle} (hj : m.kernels.get? j = some h) (hk : m.kernels.get? k = some h) :
    j = k := by
  obtain ⟨_, -, hjkernel⟩ := hm.exists_kernel hj
  obtain ⟨_, -, hkkernel⟩ := hm.exists_kernel hk
  rw [hjkernel] at hkkernel
  exact congrArg CompiledKernel.name (Option.some.inj hkkernel)

/-- The buffer of a declared key is the one that its layout describes. -/
theorem Stocked.of_layout {doc : Program.Document}
    (hm : Stocked host weights (Program.ofDocument doc).wanted m) {key : String}
    {layout : Program.Layout} (hlayout : doc.buffers.get? key = some layout)
    (hinput : key ≠ Program.inputKey) (houtput : key ≠ Program.outputKey) :
    ∃ values, (if layout.id.isEmpty then values = [] else weights.values layout.id = .ok values) ∧
      m.Stocks key layout.size.toNat layout.id.isEmpty values := by
  have hwanted := Program.wanted_of_ne (Program.ofDocument doc) hinput houtput
  rw [Program.ofDocument, Table.get?_map, hlayout, Option.map_some, Option.map_some] at hwanted
  obtain ⟨values, hvalues, hstocks⟩ := hm.stocked _ _ _ hwanted
  refine ⟨values, ?_, ?_⟩
  · rw [Program.Descriptor.values, Program.Descriptor.ofLayout] at hvalues
    cases hempty : layout.id.isEmpty with
    | true =>
        rw [hempty] at hvalues
        exact (Except.ok.inj hvalues).symm
    | false =>
        rw [hempty] at hvalues
        exact hvalues
  · have hwritable : (Program.Descriptor.ofLayout key layout).writable = layout.id.isEmpty := by
      rw [Program.Descriptor.writable, Program.Descriptor.ofLayout]
      cases layout.id.isEmpty <;> rfl
    rwa [hwritable] at hstocks

/-- A setup that succeeds, of a model of an accepted program, makes the model ready and
gives it what its document describes. The keys of the model are those of the program,
each has a handle of its own, and the host knew none of these before. A declared buffer
holds its tensor and is zero behind it, or is zero all through where it has none and can
be written; so are the buffers of the input and the output, which take the place of
declared ones. What was in memory before is as it was. -/
theorem setup_establishes {s : List UInt8} (hp : Program.ofBytes s = .ok p)
    (hrun : (setup weights).runFrom (Model.new host p) = (.ok (), m)) :
    m.phase = .ready ∧
    (∀ key, (m.buffers.get? key).isSome ↔
      key ∈ p.buffers.keys ∨ key = Program.inputKey ∨ key = Program.outputKey) ∧
    (∀ key, (m.kernels.get? key).isSome ↔ key ∈ p.kernels.keys) ∧
    (∀ key h, m.buffers.get? key = some h → host.memory.get? h = none ∧
      ∀ other, m.buffers.get? other = some h → other = key) ∧
    (∀ key h, m.kernels.get? key = some h → host.kernel? h = none ∧
      ∀ other, m.kernels.get? other = some h → other = key) ∧
    (∀ h b, host.memory.get? h = some b → m.device.memory.get? h = some b) ∧
    m.Stocks Program.inputKey p.inputLength false [] ∧
    m.Stocks Program.outputKey p.outputLength true [] ∧
    ∃ doc, Program.Document.read s = .ok doc ∧ p = Program.ofDocument doc ∧
      ∀ key layout, doc.buffers.get? key = some layout →
        key ≠ Program.inputKey → key ≠ Program.outputKey →
        ∃ values,
          (if layout.id.isEmpty then values = [] else weights.values layout.id = .ok values) ∧
          m.Stocks key layout.size.toNat layout.id.isEmpty values := by
  obtain ⟨hbuilt, hready⟩ := built_of_setup hrun
  have hfurnished := furnished_of_setup hrun
  have hstocked := stocked_of_setup hrun
  obtain ⟨doc, hdoc, rfl⟩ := Program.exists_document_of_ofBytes hp
  have hknows := hbuilt.knows
  refine ⟨hready, fun key => ?_, fun key => ?_, fun key h hkey => ?_, fun key h hkey => ?_,
    hfurnished.kept, ?_, ?_, doc, hdoc, rfl, fun key layout => hstocked.of_layout⟩
  · rw [hknows.buffers, Program.declaresBuffer, Table.contains, Table.mem_keys_iff]
    simp only [Bool.or_eq_true, beq_iff_eq]
    exact or_comm
  · rw [hknows.kernels, Table.contains, Table.mem_keys_iff]
  · exact ⟨(hfurnished.held key h hkey).1, fun other hother => hbuilt.injective _ _ h hother hkey⟩
  · exact ⟨hstocked.kernel?_eq_none hkey, fun other hother =>
      hbuilt.kernels_injective hother hkey⟩
  · obtain ⟨values, hvalues, hstocks⟩ := hstocked.stocked _ _ _ (Program.wanted_inputKey _)
    cases hvalues
    exact hstocks
  · obtain ⟨values, hvalues, hstocks⟩ := hstocked.stocked _ _ _ (Program.wanted_outputKey _)
    cases hvalues
    exact hstocks

/-- A program with a buffer that is longer than its tensor and one without a tensor. -/
def stockedText : List UInt8 :=
  ("\x7b\"backend\":\"GPU\",\"input_size\":2,\"output_size\":\x7b\"size\":1\x7d," ++
    "\"functions\":\x7b\"copy\":\"copy\"\x7d,\"statements\":[]," ++
    "\"buffers\":\x7b\"z\":\x7b\"size\":1\x7d,\"w\":\x7b\"id\":\"t\",\"size\":3\x7d\x7d\x7d").toUTF8.toList

/-- A host that was not set up, in whose memory somebody else has a buffer. -/
def sharedHost : Host :=
  { (Host.new 4096).register "copy" copyBody with memory := ⟨[⟨#[⟨7⟩], 4, true⟩], 4096⟩ }

/-- The program, set up on that host. -/
def stockedModel (p : Program) : Except Error Unit × Model Host :=
  (setup Weights.Store.pair).runFrom (Model.new sharedHost p)

theorem setup_establishes_stockedText :
    ∃ p m, Program.ofBytes stockedText = .ok p ∧
      (setup Weights.Store.pair).runFrom (Model.new sharedHost p) = (.ok (), m) ∧
      m.Stocks "w" 3 false [⟨5⟩, ⟨6⟩] ∧ m.Stocks "z" 1 true [] ∧
      m.device.memory.get? ⟨1⟩ = some ⟨#[⟨7⟩], 4, true⟩ := by
  have hset : ((Program.ofBytes stockedText).toOption.bind fun p =>
      (stockedModel p).1.toOption) = some () := by
    decide +kernel
  have hlayouts : ((Program.Document.read stockedText).toOption.map fun doc =>
      (doc.buffers.get? "w", doc.buffers.get? "z")) =
        some (some ⟨3, none, "t"⟩, some ⟨1, none, ""⟩) := by
    decide +kernel
  cases hp : Program.ofBytes stockedText with
  | error e =>
      rw [hp] at hset
      cases hset
  | ok p =>
      have hset : (stockedModel p).1.toOption = some () := by rwa [hp] at hset
      rcases hrun : (setup Weights.Store.pair).runFrom (Model.new sharedHost p) with ⟨e | _, m⟩
      · rw [stockedModel, hrun] at hset
        cases hset
      obtain ⟨-, -, -, -, -, hkept, -, -, doc, hdoc, -, hstocks⟩ := setup_establishes hp hrun
      rw [hdoc] at hlayouts
      obtain ⟨hw, hz⟩ := Prod.ext_iff.mp (Option.some.inj hlayouts)
      obtain ⟨values, htensor, hwstocks⟩ := hstocks "w" _ hw (by decide) (by decide)
      obtain ⟨zeros, hnone, hzstocks⟩ := hstocks "z" _ hz (by decide) (by decide)
      cases Weights.Store.values_pair.symm.trans htensor
      cases hnone
      exact ⟨p, m, rfl, hrun, hwstocks, hzstocks, hkept _ _ rfl⟩

end Model

end NetReplay
