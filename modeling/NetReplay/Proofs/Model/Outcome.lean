import Mathlib.Data.List.ModifyLast
import NetReplay.Proofs.Host.Kernels
import NetReplay.Proofs.Model.Allocation
import NetReplay.Proofs.Model.Setup

/-!
# The outcome of a setup

A setup on a host goes through the steps of its program (`Program.setupSteps`): it sets
the host up, allocates each declared buffer and loads its tensor, allocates the input and
the output, and compiles the kernels. Each step has its own ways to fail
(`SetupStep.Fails`), which depend on the host as it was, on the weights and on the step,
but not on the other steps.

The setup ends with the first step that fails, or after all steps (`Follows`, one lemma
for each part). The host is then as it was with what the steps before have added
(`Host.carried`). The main result is `setup_outcome`.
-/

namespace NetReplay

open Host (Memory)

/-! ## Steps -/

/-- A step of a setup. -/
inductive SetupStep where
  | start
  | reserve (d : Program.Descriptor) (writable : Bool)
  /-- The tensor of a name is loaded into the buffer that was allocated last. -/
  | upload (d : Program.Descriptor) (source : String)
  | compile (key source : String)
  deriving DecidableEq, Repr

theorem Program.Descriptor.eq_mul_of_byteSize? {d : Program.Descriptor} {size : UInt64}
    (h : d.byteSize? = some size) : size = d.elements * 4 := by
  rw [byteSize?, Word.mul?] at h
  obtain ⟨-, hsize⟩ := Option.ite_none_right_eq_some.mp h
  exact (Option.some.inj hsize).symm

/-- The steps for a declared buffer. -/
def Program.Descriptor.setupSteps (d : Program.Descriptor) : List SetupStep :=
  .reserve d d.writable :: (d.source.map (SetupStep.upload d)).toList

/-- The steps of a setup, in their order. -/
def Program.setupSteps (p : Program) : List SetupStep :=
  .start :: (p.buffers.values.flatMap Descriptor.setupSteps ++
    .reserve p.input false :: .reserve p.output true ::
      p.kernels.toList.map fun e => .compile e.1 e.2)

namespace SetupStep

/-- The step fails on a host with these weights, when there are so many buffers already.
Allocations are taken to fail only for sizes that no machine can address. -/
inductive Fails (weights : Weights.Store) (host : Host) (buffers : Nat) : SetupStep → Error → Prop
  | start (hinit : host.initialized = true) :
      Fails weights host buffers start (.device (.alreadyInitialized "host"))
  | reserve {d : Program.Descriptor} {size : UInt64} (hsize : size.toNat = 4 * d.elements.toNat)
      (hlarge : Nat.pow 2 63 - 1 < 4 * d.elements.toNat) (writable : Bool) :
      Fails weights host buffers (reserve d writable) (.device (.allocationFailed size
        ("memory allocation failed because the computed capacity exceeded the " ++
          "collection's maximum")))
  | unknown {source : String} (hnone : weights.header.records.get? source = none)
      (d : Program.Descriptor) :
      Fails weights host buffers (upload d source) (.unknownTensor source)
  | type {source : String} {r : Weights.Record}
      (hrecord : weights.header.records.get? source = some r) (htype : r.elementType ≠ .f32)
      (d : Program.Descriptor) :
      Fails weights host buffers (upload d source)
        (.unsupportedElementType source r.elementType.tag)
  | long {source : String} {values : List Single} (hvalues : weights.values source = .ok values)
      {d : Program.Descriptor} (hlong : d.elements.toNat < values.length) {size : UInt64}
      (hsize : size.toNat = 4 * d.elements.toNat) :
      Fails weights host buffers (upload d source) (.device (.transferFailed ⟨buffers⟩
        s!"{Memory.transferBytes values.length} bytes exceed buffer size {size}"))
  | unregistered {key : String} (hnone : host.registry.get? key = none) (source : String) :
      Fails weights host buffers (compile key source) (.device (.compileError key
        "no host implementation registered for entry point"))
  | unmentioned {key source : String} {body : Kernel.Body}
      (hbody : host.registry.get? key = some body) (hsource : ¬ key.toList <:+: source.toList) :
      Fails weights host buffers (compile key source) (.device (.compileError key
        s!"entry point not found in {source.utf8ByteSize} bytes of source"))

/-- The step does not fail. -/
def Passes (weights : Weights.Store) (host : Host) (step : SetupStep) : Prop :=
  ∀ buffers e, ¬ step.Fails weights host buffers e

/-- The buffers with what a step adds to them. -/
def addTo (weights : Weights.Store) (added : List Host.Buffer) : SetupStep → List Host.Buffer
  | start | compile .. => added
  | reserve d writable =>
    added ++ [⟨Array.replicate d.elements.toNat Single.zero, d.elements * 4, writable⟩]
  | upload _ source =>
    match weights.values source with
    | .ok values => added.modifyLast (Memory.overwrite values)
    | .error _ => added

/-- The buffers that steps add. -/
def buffers (weights : Weights.Store) (steps : List SetupStep) : List Host.Buffer :=
  steps.foldl (addTo weights) []

theorem buffers_concat (weights : Weights.Store) (steps : List SetupStep) (step : SetupStep) :
    buffers weights (steps ++ [step]) = step.addTo weights (buffers weights steps) :=
  List.foldl_append

/-- The kernel that a step adds. -/
def kernel? (registry : Table Kernel.Body) : SetupStep → Option CompiledKernel
  | compile key _ => (registry.get? key).map (CompiledKernel.mk key)
  | start | reserve .. | upload .. => none

/-- The kernels that steps add. -/
def kernels (registry : Table Kernel.Body) (steps : List SetupStep) : List CompiledKernel :=
  steps.filterMap (kernel? registry)

theorem kernels_concat (registry : Table Kernel.Body) (steps : List SetupStep) (step : SetupStep) :
    kernels registry (steps ++ [step]) =
      kernels registry steps ++ (step.kernel? registry).toList := by
  rw [kernels, List.filterMap_append, ← kernels, List.filterMap_cons]
  cases step.kernel? registry with
  | none => rfl
  | some kernel => rfl

end SetupStep

namespace Host

/-- The host with what some steps have added. -/
def carried (host : Host) (weights : Weights.Store) (done : List SetupStep) : Host where
  initialized := host.initialized || decide (.start ∈ done)
  registry := host.registry
  kernels := host.kernels ++ SetupStep.kernels host.registry done
  memory := ⟨host.memory.buffers ++ SetupStep.buffers weights done, host.memory.available⟩

variable {base : Host} {weights : Weights.Store} {done : List SetupStep}

/-- Steps that add neither kernels nor buffers can only set the host up. -/
theorem carried_of_nil (hkernels : SetupStep.kernels base.registry done = [])
    (hbuffers : SetupStep.buffers weights done = []) :
    base.carried weights done =
      { base with initialized := base.initialized || decide (.start ∈ done) } := by
  rw [carried, hkernels, hbuffers, List.append_nil, List.append_nil]

theorem carried_nil (base : Host) (weights : Weights.Store) : base.carried weights [] = base := by
  rw [carried_of_nil rfl rfl, decide_eq_false List.not_mem_nil, Bool.or_false]

theorem carried_start (base : Host) (weights : Weights.Store) :
    base.carried weights [.start] = { base with initialized := true } := by
  rw [carried_of_nil rfl rfl, decide_eq_true (List.mem_singleton_self _), Bool.or_true]

theorem initialized_carried (hstart : .start ∈ done) :
    (base.carried weights done).initialized = true := by
  rw [carried, decide_eq_true hstart, Bool.or_true]

theorem carried_concat (hstart : .start ∈ done) (step : SetupStep) :
    base.carried weights (done ++ [step]) =
      { base.carried weights done with
        kernels := (base.carried weights done).kernels ++ (step.kernel? base.registry).toList
        memory := { (base.carried weights done).memory with
          buffers := base.memory.buffers ++
            step.addTo weights (SetupStep.buffers weights done) } } := by
  rw [carried, carried, SetupStep.kernels_concat, SetupStep.buffers_concat, List.append_assoc,
    decide_eq_true hstart, decide_eq_true (List.mem_append_left _ hstart)]

/-- An allocation adds a buffer of zeros. -/
theorem carried_reserve (hstart : .start ∈ done) (d : Program.Descriptor) (writable : Bool) :
    base.carried weights (done ++ [.reserve d writable]) =
      { base.carried weights done with
        memory := { (base.carried weights done).memory with
          buffers := (base.carried weights done).memory.buffers ++
            [⟨Array.replicate d.elements.toNat Single.zero, d.elements * 4, writable⟩] } } := by
  rw [carried_concat hstart, SetupStep.addTo, SetupStep.kernel?, Option.toList_none,
    List.append_nil, ← List.append_assoc]
  rfl

/-- A kernel is added by compiling it. -/
theorem carried_compile (hstart : .start ∈ done) {key : String} {body : Kernel.Body}
    (hbody : base.registry.get? key = some body) (source : String) :
    base.carried weights (done ++ [.compile key source]) =
      (base.carried weights done).withKernel ⟨key, body⟩ := by
  rw [carried_concat hstart, SetupStep.addTo, SetupStep.kernel?, hbody]
  rfl

namespace Memory

/-- The last buffer is changed through its handle. -/
theorem modify_concat (m : Memory) (b : Buffer) (f : Buffer → Buffer) :
    modify { m with buffers := m.buffers ++ [b] } ⟨m.buffers.length + 1⟩ f =
      { m with buffers := m.buffers ++ [f b] } :=
  congrArg (Memory.mk · m.available) (List.modifyTailIdx_add (List.modifyHead f) 0 m.buffers [b])

theorem get?_concat (m : Memory) (b : Buffer) :
    get? { m with buffers := m.buffers ++ [b] } ⟨m.buffers.length + 1⟩ = some b :=
  List.getElem?_concat_length

end Memory

/-- A tensor is loaded into the buffer that was added last. -/
theorem carried_upload (hstart : .start ∈ done) (d : Program.Descriptor) (writable : Bool)
    {source : String} {values : List Single} (hvalues : weights.values source = .ok values) :
    base.carried weights (done ++ [.reserve d writable] ++ [.upload d source]) =
      { base.carried weights done with
        memory := { (base.carried weights done).memory with
          buffers := (base.carried weights done).memory.buffers ++
            [Memory.overwrite values
              ⟨Array.replicate d.elements.toNat Single.zero, d.elements * 4, writable⟩] } } := by
  rw [carried_concat (List.mem_append_left _ hstart), carried_reserve hstart, SetupStep.addTo,
    SetupStep.kernel?, hvalues, SetupStep.buffers_concat, SetupStep.addTo, Option.toList_none,
    List.append_nil]
  dsimp only
  rw [List.modifyLast_concat, ← List.append_assoc]
  rfl

/-! ## Allocations and writes -/

namespace Memory

variable {m : Memory} {size : UInt64} {elements : Nat}

theorem elementsOf_eq (hsize : size.toNat = 4 * elements) : elementsOf size = elements := by
  rw [elementsOf, elementBytes, hsize]
  exact Nat.mul_div_cancel_left _ (by decide)

theorem allocate_of_le (havailable : maxContentBytes ≤ m.available)
    (hsize : size.toNat = 4 * elements) (hle : 4 * elements ≤ maxContentBytes) (writable : Bool) :
    m.allocate size writable = .ok (⟨m.buffers.length + 1⟩,
      { m with buffers := m.buffers ++
          [⟨Array.replicate elements Single.zero, size, writable⟩] }) := by
  have hrefusal : m.refusal? (elements * elementBytes) = none := by
    rw [refusal?_eq_none_iff, elementBytes, Nat.mul_comm]
    exact ⟨hle, Nat.le_trans hle havailable⟩
  rw [allocate, elementsOf_eq hsize, hrefusal]

theorem allocate_of_lt (hsize : size.toNat = 4 * elements) (hlt : maxContentBytes < 4 * elements)
    (writable : Bool) :
    m.allocate size writable = .error (.allocationFailed size
      ("memory allocation failed because the computed capacity exceeded the " ++
        "collection's maximum")) := by
  have hrefusal : m.refusal? (elements * elementBytes) = some
      ("memory allocation failed because the computed capacity exceeded the " ++
        "collection's maximum") := by
    rw [refusal?, elementBytes, Nat.mul_comm, if_pos hlt]
    rfl
  rw [allocate, elementsOf_eq hsize, hrefusal]

theorem write_of_length_le {h : BufferHandle} {b : Buffer} (hb : m.get? h = some b)
    (hwhole : b.Whole) {data : List Single} (hle : data.length ≤ b.contents.size) :
    m.write h data = .ok (m.modify h (overwrite data)) :=
  write_eq_ok_iff.mpr ⟨b, hb, fits_of_length_le hwhole hle, rfl⟩

theorem write_of_lt_length {h : BufferHandle} {b : Buffer} (hb : m.get? h = some b)
    (hwhole : b.Whole) {data : List Single} (hlt : b.contents.size < data.length) :
    m.write h data = .error (.transferFailed h
      s!"{transferBytes data.length} bytes exceed buffer size {b.byteSize}") := by
  have hexceeds : b.byteSize.toNat < transferBytes data.length := by
    refine Nat.lt_of_not_le fun hfits => ?_
    exact absurd (length_le_of_fits hwhole hfits) (Nat.not_le_of_lt hlt)
  rw [write, find_of_get? hb]
  simp only [bind, Except.bind, checkFits, if_pos hexceeds]

end Memory

end Host

/-! ## Following the steps -/

namespace SetupStep

/-- An action that had some steps behind it has come to an end: it has gone through its
own steps, or it has failed with the first of them that fails. -/
inductive Ends (weights : Weights.Store) (base : Host) (done steps : List SetupStep) :
    Except Error Unit → Host → Prop
  | passed {host : Host} (hpasses : ∀ step ∈ steps, step.Passes weights base)
      (hhost : host = base.carried weights (done ++ steps)) :
      Ends weights base done steps (.ok ()) host
  | failed (front back : List SetupStep) {step : SetupStep} {e : Error} {host : Host}
      (hsteps : steps = front ++ step :: back)
      (hpasses : ∀ step ∈ front, step.Passes weights base)
      (hfails : step.Fails weights base host.bufferCount e)
      (hhost : host = base.carried weights (done ++ front)) :
      Ends weights base done steps (.error e) host

variable {weights : Weights.Store} {base host : Host} {done xs ys : List SetupStep}

theorem Ends.append_error {e : Error} (h : Ends weights base done xs (.error e) host)
    (ys : List SetupStep) : Ends weights base done (xs ++ ys) (.error e) host := by
  cases h with
  | failed front back hsteps hpasses hfails hhost =>
      refine .failed front (back ++ ys) ?_ hpasses hfails hhost
      rw [hsteps, List.append_assoc, List.cons_append]

theorem Ends.append_ok (h : Ends weights base done xs (.ok ()) host) {r : Except Error Unit}
    {after : Host} (hrest : Ends weights base (done ++ xs) ys r after) :
    Ends weights base done (xs ++ ys) r after := by
  cases h with
  | passed hfirst _ =>
      cases hrest with
      | passed hpasses hhost =>
          refine .passed (List.forall_mem_append.mpr ⟨hfirst, hpasses⟩) ?_
          rw [hhost, List.append_assoc]
      | failed front back hsteps hpasses hfails hhost =>
          refine .failed (xs ++ front) back ?_
            (List.forall_mem_append.mpr ⟨hfirst, hpasses⟩) hfails ?_
          · rw [hsteps, List.append_assoc]
          · rw [hhost, List.append_assoc]

/-- The first step fails. -/
theorem Ends.of_fails {step : SetupStep} {e : Error} (hhost : host = base.carried weights done)
    (hfails : step.Fails weights base host.bufferCount e) :
    Ends weights base done (step :: ys) (.error e) host :=
  .failed [] ys rfl (List.forall_mem_nil _) hfails (by rw [hhost, List.append_nil])

/-- The only step passes. -/
theorem Ends.of_passes {step : SetupStep} (hpasses : step.Passes weights base)
    (hhost : host = base.carried weights (done ++ [step])) :
    Ends weights base done [step] (.ok ()) host :=
  .passed (List.forall_mem_singleton.mpr hpasses) hhost

end SetupStep

namespace Model

open ModelM SetupStep

/-- The action goes through the steps, behind any others of a setup. -/
def Follows (weights : Weights.Store) (base : Host) (x : ModelM Host Unit)
    (steps : List SetupStep) : Prop :=
  ∀ m done, .start ∈ done → m.device = base.carried weights done →
    Ends weights base done steps (x.runFrom m).1 (x.runFrom m).2.device

variable {weights : Weights.Store} {base : Host}

theorem follows_pure : Follows weights base (pure ()) [] := by
  intro m done hstart hm
  refine .passed (List.forall_mem_nil _) ?_
  rw [List.append_nil]
  exact hm

/-- Actions one after the other go through their steps one after the other. -/
theorem Follows.bind {x y : ModelM Host Unit} {xs ys : List SetupStep}
    (hx : Follows weights base x xs) (hy : Follows weights base y ys) :
    Follows weights base (x >>= fun _ => y) (xs ++ ys) := by
  intro m done hstart hm
  have hfirst := hx m done hstart hm
  rw [runFrom_bind]
  rcases hrun : x.runFrom m with ⟨e | u, n⟩
  · rw [hrun] at hfirst
    exact hfirst.append_error ys
  · rw [hrun] at hfirst
    have hn : n.device = base.carried weights (done ++ xs) := by
      cases hfirst with
      | passed _ hhost => exact hhost
    exact hfirst.append_ok (hy n (done ++ xs) (List.mem_append_left _ hstart) hn)

theorem Follows.forM {α : Type} {round : α → ModelM Host Unit} {f : α → List SetupStep}
    {l : List α} (hround : ∀ a ∈ l, Follows weights base (round a) (f a)) :
    Follows weights base (l.forM round) (l.flatMap f) := by
  induction l with
  | nil => exact follows_pure
  | cons a l ih =>
      rw [List.forall_mem_cons] at hround
      exact hround.1.bind (ih hround.2)

/-! ## Buffers -/

theorem passes_reserve {d : Program.Descriptor} (hle : 4 * d.elements.toNat ≤ Nat.pow 2 63 - 1)
    (writable : Bool) : (reserve d writable).Passes weights base := by
  intro buffers e hfails
  cases hfails with
  | reserve _ hlarge => exact absurd hle (Nat.not_le_of_lt hlarge)

theorem runFrom_createBuffer_of_le {m : Model Host} (hinit : m.device.initialized = true)
    (hroom : Memory.maxContentBytes ≤ m.device.memory.available) {d : Program.Descriptor}
    {size : UInt64} (hsize : d.byteSize? = some size)
    (hle : 4 * d.elements.toNat ≤ Memory.maxContentBytes) (writable : Bool) :
    (onDevice (Device.createBuffer size writable) .device).runFrom m =
      (.ok ⟨m.device.bufferCount + 1⟩, m.withMemory { m.device.memory with
        buffers := m.device.memory.buffers ++
          [⟨Array.replicate d.elements.toNat Single.zero, d.elements * 4, writable⟩] }) := by
  have hbytes := (Program.Descriptor.byteSize?_eq_some_iff d size).mp hsize
  obtain rfl := Program.Descriptor.eq_mul_of_byteSize? hsize
  have hcreate : (Device.createBuffer (d.elements * 4) writable).runFrom m.device = _ :=
    Host.runFrom_createBuffer hinit (d.elements * 4) writable
  rw [runFrom_onDevice, hcreate, Memory.allocate_of_le hroom hbytes hle]
  rfl

theorem runFrom_createBuffer_of_lt {m : Model Host} (hinit : m.device.initialized = true)
    {d : Program.Descriptor} {size : UInt64} (hsize : d.byteSize? = some size)
    (hlt : Memory.maxContentBytes < 4 * d.elements.toNat) (writable : Bool) :
    (onDevice (Device.createBuffer size writable) .device).runFrom m =
      (.error (.device (.allocationFailed size
        ("memory allocation failed because the computed capacity exceeded the " ++
          "collection's maximum"))), m) := by
  have hbytes := (Program.Descriptor.byteSize?_eq_some_iff d size).mp hsize
  have hcreate : (Device.createBuffer size writable).runFrom m.device = _ :=
    Host.runFrom_createBuffer hinit size writable
  rw [runFrom_onDevice, hcreate, Memory.allocate_of_lt hbytes hlt]
  rfl

/-- Allocating is one step, which goes before what fills the buffer. -/
theorem follows_allocate (havailable : Memory.maxContentBytes ≤ base.memory.available)
    {d : Program.Descriptor} {size : UInt64} (hsize : d.byteSize? = some size) (key : String)
    (writable : Bool) {f : BufferHandle → ModelM Host Unit} {more : List SetupStep}
    (hfill : ∀ m done, .start ∈ done →
      m.device = base.carried weights (done ++ [.reserve d writable]) →
      Ends weights base (done ++ [.reserve d writable]) more
        ((f ⟨m.device.bufferCount⟩).runFrom m).1 ((f ⟨m.device.bufferCount⟩).runFrom m).2.device) :
    Follows weights base (allocate key d writable f) (.reserve d writable :: more) := by
  intro m done hstart hm
  have hinit : m.device.initialized = true := by
    rw [hm, Host.initialized_carried hstart]
  have hroom : Memory.maxContentBytes ≤ m.device.memory.available := by
    rw [hm]
    exact havailable
  rw [allocate, allocationSize, hsize, runFrom_bind, runFrom_ofExcept]
  dsimp only
  rw [runFrom_bind]
  by_cases hle : 4 * d.elements.toNat ≤ Memory.maxContentBytes
  · rw [runFrom_createBuffer_of_le hinit hroom hsize hle]
    dsimp only
    set n := m.withMemory _ with hset
    have hcount : n.device.bufferCount = m.device.bufferCount + 1 := List.length_append
    have hn : n.device = base.carried weights (done ++ [.reserve d writable]) := by
      rw [Host.carried_reserve hstart, ← hm]
      rfl
    have hended := hfill n done hstart hn
    rw [hcount] at hended
    have hpassed := Ends.of_passes (passes_reserve hle writable) hn
    rw [runFrom_bind]
    rcases hrun : (f ⟨m.device.bufferCount + 1⟩).runFrom n with ⟨e | u, k⟩
    · rw [hrun] at hended
      exact hpassed.append_ok hended
    · rw [hrun] at hended
      exact hpassed.append_ok hended
  · have hlarge := Nat.lt_of_not_le hle
    rw [runFrom_createBuffer_of_lt hinit hsize hlarge]
    exact .of_fails hm
      (.reserve ((Program.Descriptor.byteSize?_eq_some_iff d size).mp hsize) hlarge writable)

/-- A tensor that cannot be read is reported by its upload. -/
theorem fails_of_values_eq_error {source : String} {e : Error}
    (hvalues : weights.values source = .error e) (d : Program.Descriptor) (buffers : Nat) :
    (upload d source).Fails weights base buffers e := by
  cases hrecord : weights.header.records.get? source with
  | none =>
      rw [Weights.Store.values_of_none hrecord] at hvalues
      cases hvalues
      exact .unknown hrecord d
  | some r =>
      rw [Weights.Store.values_of_some hrecord] at hvalues
      split at hvalues
      · cases hvalues
      · rename_i htype
        cases hvalues
        exact .type hrecord htype d

theorem passes_upload {d : Program.Descriptor} {source : String} {values : List Single}
    (hvalues : weights.values source = .ok values) (hle : values.length ≤ d.elements.toNat) :
    (upload d source).Passes weights base := by
  intro buffers e hfails
  cases hfails with
  | unknown hnone =>
      rw [Weights.Store.values_of_none hnone] at hvalues
      cases hvalues
  | type hrecord htype =>
      rw [Weights.Store.values_of_some hrecord, if_neg htype] at hvalues
      cases hvalues
  | long hother hlong =>
      cases hvalues.symm.trans hother
      exact absurd hle (Nat.not_le_of_lt hlong)

/-- Filling a buffer from a tensor is one step. -/
theorem ends_fill {d : Program.Descriptor} {size : UInt64} (hsize : d.byteSize? = some size)
    {source : String} (hsource : d.source = some source) {m : Model Host} {done : List SetupStep}
    (hstart : .start ∈ done) {writable : Bool}
    (hm : m.device = base.carried weights (done ++ [.reserve d writable])) :
    Ends weights base (done ++ [.reserve d writable]) [.upload d source]
      ((fill weights d ⟨m.device.bufferCount⟩).runFrom m).1
      ((fill weights d ⟨m.device.bufferCount⟩).runFrom m).2.device := by
  have hinit : m.device.initialized = true := by
    rw [hm, Host.initialized_carried (List.mem_append_left _ hstart)]
  rw [fill, hsource]
  dsimp only
  rw [runFrom_bind, runFrom_ofExcept]
  cases hvalues : weights.values source with
  | error e => exact .of_fails hm (fails_of_values_eq_error hvalues d _)
  | ok values =>
      have hwrite : (Device.writeBuffer ⟨m.device.bufferCount⟩ values).runFrom m.device = _ :=
        Host.runFrom_writeBuffer hinit ⟨m.device.bufferCount⟩ values
      dsimp only
      rw [runFrom_onDevice, hwrite]
      -- The buffer of the handle is the one that was added last.
      have hbytes := (Program.Descriptor.byteSize?_eq_some_iff d size).mp hsize
      obtain rfl := Program.Descriptor.eq_mul_of_byteSize? hsize
      set b : Host.Buffer :=
        ⟨Array.replicate d.elements.toNat Single.zero, d.elements * 4, writable⟩
      have hcontents : b.contents.size = d.elements.toNat := Array.size_replicate
      have hwhole : b.Whole := by
        rw [Host.Buffer.Whole, hcontents]
        exact hbytes
      have hlast := hm.trans (Host.carried_reserve hstart d writable)
      have hcount : m.device.bufferCount =
          (base.carried weights done).memory.buffers.length + 1 := by
        rw [hlast]
        exact List.length_append
      have hget : m.device.memory.get? ⟨m.device.bufferCount⟩ = some b := by
        rw [hcount, hlast]
        exact Memory.get?_concat _ b
      rcases Nat.lt_or_ge b.contents.size values.length with hlong | hle
      · rw [Memory.write_of_lt_length hget hwhole hlong]
        rw [hcontents] at hlong
        exact .of_fails hm (.long hvalues hlong hbytes)
      · rw [Memory.write_of_length_le hget hwhole hle]
        rw [hcontents] at hle
        refine .of_passes (passes_upload hvalues hle) ?_
        rw [Host.carried_upload hstart d writable hvalues, ← Memory.modify_concat, ← hcount]
        dsimp only
        rw [hlast]

/-- A declared buffer is placed in one or two steps. -/
theorem follows_place (havailable : Memory.maxContentBytes ≤ base.memory.available)
    {e : String × Program.Descriptor} {size : UInt64} (hsize : e.2.byteSize? = some size) :
    Follows weights base (place weights e) e.2.setupSteps := by
  refine follows_allocate havailable hsize e.1 e.2.writable fun m done hstart hm => ?_
  cases hsource : e.2.source with
  | none =>
      rw [fill, hsource]
      exact follows_pure m _ (List.mem_append_left _ hstart) hm
  | some source => exact ends_fill hsize hsource hstart hm

/-- A buffer without a tensor is placed in one step. -/
theorem follows_allocate_pure (havailable : Memory.maxContentBytes ≤ base.memory.available)
    {d : Program.Descriptor} {size : UInt64} (hsize : d.byteSize? = some size) (key : String)
    (writable : Bool) :
    Follows weights base (allocate key d writable fun _ => pure ()) [.reserve d writable] :=
  follows_allocate havailable hsize key writable fun m _ hstart hm =>
    follows_pure m _ (List.mem_append_left _ hstart) hm

/-! ## Kernels -/

/-- Compiling is one step. -/
theorem follows_compile (e : String × String) :
    Follows weights base (compileEntry e) [.compile e.1 e.2] := by
  intro m done hstart hm
  have hinit : m.device.initialized = true := by
    rw [hm, Host.initialized_carried hstart]
  have hregistry : m.device.registry = base.registry := by
    rw [hm, Host.carried]
  have hcreate : (Device.createKernel e.1 e.2).runFrom m.device = _ :=
    Host.runFrom_createKernel hinit e.1 e.2
  rw [compileEntry, compile, runFrom_bind, runFrom_onDevice, hcreate, hregistry]
  cases hbody : base.registry.get? e.1 with
  | none => exact .of_fails hm (.unregistered hbody e.2)
  | some body =>
      dsimp only
      by_cases hoccurs : Host.occursIn e.1.toList e.2.toList = true
      · have hinfix := (Host.occursIn_iff _ _).mp hoccurs
        have hpasses : (SetupStep.compile e.1 e.2).Passes weights base := by
          intro buffers cause hfails
          cases hfails with
          | unregistered hnone => cases hbody.symm.trans hnone
          | unmentioned _ hsource => exact hsource hinfix
        rw [if_pos hoccurs]
        refine .of_passes hpasses ?_
        rw [Host.carried_compile hstart hbody, ← hm]
        rfl
      · have hinfix := mt (Host.occursIn_iff _ _).mpr hoccurs
        rw [if_neg hoccurs]
        exact .of_fails hm (.unmentioned hbody hinfix)

/-! ## The whole setup -/

theorem follows_equip (havailable : Memory.maxContentBytes ≤ base.memory.available) {p : Program}
    (hsizes : ∀ d ∈ p.descriptors, ∃ size, d.byteSize? = some size) :
    Follows weights base (equip weights p) p.setupSteps.tail := by
  have hbuffers : ∀ e ∈ p.buffers.toList,
      Follows weights base (place weights e) e.2.setupSteps := by
    intro e he
    obtain ⟨size, hsize⟩ := hsizes e.2 (List.mem_append_left _ (List.mem_map_of_mem he))
    exact follows_place havailable hsize
  obtain ⟨inputSize, hinput⟩ := hsizes p.input (List.mem_append_right _ List.mem_cons_self)
  obtain ⟨outputSize, houtput⟩ :=
    hsizes p.output (List.mem_append_right _ (List.mem_cons_of_mem _ List.mem_cons_self))
  have hkernels := Follows.forM (l := p.kernels.toList) fun e _ =>
    (follows_compile e : Follows weights base (compileEntry e) _)
  have hall := (Follows.forM hbuffers).bind
    ((follows_allocate_pure havailable hinput Program.inputKey false).bind
      ((follows_allocate_pure havailable houtput Program.outputKey true).bind hkernels))
  have hplace : p.buffers.values.flatMap Program.Descriptor.setupSteps =
      p.buffers.toList.flatMap fun e => e.2.setupSteps :=
    List.flatMap_map ..
  rw [Program.setupSteps, List.tail_cons, hplace, List.map_eq_flatMap]
  exact hall

/-- Provisioning goes through all steps. -/
theorem ends_provision (weights : Weights.Store) {m : Model Host}
    (havailable : Memory.maxContentBytes ≤ m.device.memory.available)
    (hsizes : ∀ d ∈ m.program.descriptors, ∃ size, d.byteSize? = some size) :
    Ends weights m.device [] m.program.setupSteps ((provision weights).runFrom m).1
      ((provision weights).runFrom m).2.device := by
  have hsetup : (Device.setup).runFrom m.device = _ := Host.runFrom_setup m.device
  rw [provision, runFrom_bind, runFrom_onDevice, hsetup]
  cases hinit : m.device.initialized with
  | true => exact .of_fails (Host.carried_nil m.device weights).symm (.start hinit)
  | false =>
      have hpasses : SetupStep.start.Passes weights m.device := by
        intro buffers e hfails
        cases hfails with
        | start htrue => cases hinit.symm.trans htrue
      have hstarted := (Host.carried_start m.device weights).symm
      have hfirst : Ends weights m.device [] [.start] (.ok ()) _ :=
        .of_passes hpasses hstarted
      exact hfirst.append_ok (follows_equip havailable hsizes
        { m with device := { m.device with initialized := true } } [.start]
        (List.mem_singleton_self _) hstarted)

/-- The outcome of a setup, for every accepted program on every host. Declared buffers and
kernels take their turns in the order of the bytes of their keys. Either no step fails, and
the model is ready and its host has what all steps add; or the first step that fails gives
the error, the model is faulted and its host has what the steps before have added. -/
theorem setup_outcome {s : List UInt8} {m : Model Host} (hp : Program.ofBytes s = .ok m.program)
    (hphase : m.phase = .unconfigured)
    (havailable : Memory.maxContentBytes ≤ m.device.memory.available) (weights : Weights.Store) :
    let p := m.program
    let result := (setup weights).runFrom m
    (p.buffers.keys.Pairwise fun j k => j.toUTF8.toList < k.toUTF8.toList) ∧
    (p.kernels.keys.Pairwise fun j k => j.toUTF8.toList < k.toUTF8.toList) ∧
    ((∀ step ∈ p.setupSteps, step.Passes weights m.device) ∧ result.1 = .ok () ∧
        result.2.phase = .ready ∧ result.2.device = m.device.carried weights p.setupSteps ∨
      ∃ done step rest e, p.setupSteps = done ++ step :: rest ∧
        (∀ earlier ∈ done, earlier.Passes weights m.device) ∧
        step.Fails weights m.device result.2.device.bufferCount e ∧ result.1 = .error e ∧
        result.2.phase = .faulted ∧ result.2.device = m.device.carried weights done) := by
  intro p result
  refine ⟨p.buffers.pairwise_utf8_keys, p.kernels.pairwise_utf8_keys, ?_⟩
  obtain ⟨doc, -, -, hover, hdoc⟩ := (Program.ofBytes_eq_ok_iff s p).mp hp
  have hsizes : ∀ d ∈ m.program.descriptors, ∃ size, d.byteSize? = some size := fun d hd =>
    Program.exists_byteSize?_of_oversized? hover (hdoc ▸ hd)
  have hends := ends_provision weights havailable hsizes
  have hresult : result = _ := runFrom_setup weights m
  rw [if_pos hphase] at hresult
  rcases hrun : (provision weights).runFrom m with ⟨e | u, n⟩
  · rw [hrun] at hends hresult
    rw [hresult]
    cases hends with
    | failed front back hsteps hpasses hfails hhost =>
        exact Or.inr ⟨_, _, _, e, hsteps, hpasses, hfails, rfl, rfl, hhost⟩
  · rw [hrun] at hends hresult
    rw [hresult]
    cases hends with
    | passed hpasses hhost => exact Or.inl ⟨hpasses, rfl, rfl, hhost⟩

/-- A program whose second buffer is too short for its tensor, and whose kernel is not
registered either. -/
def overfilledText : List UInt8 :=
  ("\x7b\"backend\":\"GPU\",\"input_size\":1,\"output_size\":1," ++
    "\"functions\":\x7b\"copy\":\"copy\"\x7d,\"statements\":[],\"buffers\":" ++
    "\x7b\"w\":\x7b\"id\":\"t\",\"size\":1\x7d,\"a\":\x7b\"size\":3\x7d\x7d\x7d").toUTF8.toList

/-- The program, set up on a new host. -/
def overfilledModel (p : Program) : Except Error Unit × Model Host :=
  (setup Weights.Store.pair).runFrom (Model.new (Host.new Memory.maxContentBytes) p)

/-- How the upload of that tensor fails, behind the buffers `a` and `w`. -/
def overfilledError : Error :=
  .device (.transferFailed ⟨2⟩ "8 bytes exceed buffer size 4")

theorem setup_outcome_overfilledText :
    ∃ p, Program.ofBytes overfilledText = .ok p ∧
      (overfilledModel p).1 = .error overfilledError ∧ (overfilledModel p).2.phase = .faulted ∧
      ∃ done step rest, p.setupSteps = done ++ step :: rest ∧
        step.Fails Weights.Store.pair (Host.new Memory.maxContentBytes) 2 overfilledError ∧
        (overfilledModel p).2.device =
          (Host.new Memory.maxContentBytes).carried Weights.Store.pair done := by
  have hfails : (Program.ofBytes overfilledText).toOption.map (fun p =>
      ((overfilledModel p).1, (overfilledModel p).2.device.bufferCount)) =
        some (.error overfilledError, 2) := by
    decide +kernel
  cases hp : Program.ofBytes overfilledText with
  | error e =>
      rw [hp] at hfails
      cases hfails
  | ok p =>
      rw [hp] at hfails
      obtain ⟨herror, hcount⟩ : (overfilledModel p).1 = _ ∧ _ = 2 :=
        Prod.ext_iff.mp (Option.some.inj hfails)
      have hprogram : Program.ofBytes overfilledText =
          .ok (Model.new (Host.new Memory.maxContentBytes) p).program := hp
      rcases setup_outcome hprogram rfl (Nat.le_refl _) Weights.Store.pair with
        ⟨-, -, ⟨-, hok, -⟩ | ⟨done, step, rest, e, hsteps, -, hstep, hcause, hphase, hdevice⟩⟩
      · cases herror.symm.trans hok
      · cases herror.symm.trans hcause
        exact ⟨p, rfl, herror, hphase, done, step, rest, hsteps, hcount ▸ hstep, hdevice⟩

end Model

end NetReplay
