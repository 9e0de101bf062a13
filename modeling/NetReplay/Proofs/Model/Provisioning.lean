import NetReplay.Proofs.Model.Conversation
import NetReplay.Proofs.Model.Resolve
import NetReplay.Proofs.Table

/-!
# The conversation of a setup

A setup that succeeds has made exactly these calls: it set the device up, gave
every declared buffer its place and filled it where a tensor does (`Placement`),
gave places to the input and the output, and compiled the kernels
(`Provisioned`). A setup that fails has made no calls but such (`Provides`).
-/

namespace NetReplay

/-- The call gives a program something that it needs. -/
def DeviceCall.Provides : DeviceCall → Prop
  | createKernel .. | createBuffer .. | writeBuffer .. => True
  | setup | readBuffer .. | runKernel .. => False

/-- A declared buffer and the place that the device gave it, with the values that
were written there. -/
structure Placement where
  key : String
  descriptor : Program.Descriptor
  size : UInt64
  handle : BufferHandle
  data : Option (List Single)

namespace Placement

/-- The place is of the size that the buffer needs, and holds the whole tensor
that fills the buffer, if there is one. -/
structure Right (weights : Weights.Store) (c : Placement) : Prop where
  size : c.descriptor.byteSize? = some c.size
  data : c.data.map Except.ok = c.descriptor.source.map weights.values

/-- One allocation, and one transfer where there is data. -/
def exchanges (c : Placement) : List Exchange :=
  ⟨.createBuffer c.size c.descriptor.writable, .ok (.buffer c.handle)⟩ ::
    c.data.toList.map fun values => ⟨.writeBuffer c.handle values, .ok .done⟩

end Placement

/-- A kernel with its source, and the handle that the device gave it. -/
structure Compilation where
  key : String
  source : String
  handle : KernelHandle

def Compilation.exchange (c : Compilation) : Exchange :=
  ⟨.createKernel c.key c.source, .ok (.kernel c.handle)⟩

/-- The handles of placements, by key. -/
def placedAt (placed : List Placement) : Table BufferHandle :=
  placed.foldl (fun t c => t.insert c.key c.handle) .empty

/-- The handles of compilations, by key. -/
def compiledAs (compiled : List Compilation) : Table KernelHandle :=
  compiled.foldl (fun t c => t.insert c.key c.handle) .empty

/-- A device was given all that a program needs, in this conversation, and these
are the handles. -/
inductive Provisioned (weights : Weights.Store) (p : Program) :
    List Exchange → Table BufferHandle → Table KernelHandle → Prop
  | intro {placed : List Placement} {compiled : List Compilation}
      {inputSize outputSize : UInt64} {input output : BufferHandle}
      (hplaced : placed.map (fun c => (c.key, c.descriptor)) = p.buffers.toList)
      (hright : ∀ c ∈ placed, c.Right weights)
      (hinput : p.input.byteSize? = some inputSize)
      (houtput : p.output.byteSize? = some outputSize)
      (hcompiled : compiled.map (fun c => (c.key, c.source)) = p.kernels.toList) :
      Provisioned weights p
        (⟨.setup, .ok .done⟩ ::
          (placed.flatMap Placement.exchanges ++
            ⟨.createBuffer inputSize false, .ok (.buffer input)⟩ ::
            ⟨.createBuffer outputSize true, .ok (.buffer output)⟩ ::
            compiled.map Compilation.exchange))
        (((placedAt placed).insert Program.inputKey input).insert Program.outputKey output)
        (compiledAs compiled)

namespace Model

open ModelM

variable {σ : Type} [Device σ]

/-- The action fails, after no calls but such that provide something. -/
def Gives (x : ModelM σ Unit) (y : ModelM (Recorder σ) Unit) (m : Model σ) : Prop :=
  ∃ talk e n, Runs x y m talk (.error e) n ∧ ∀ exchange ∈ talk, exchange.call.Provides

theorem Gives.bind {x : ModelM σ Unit} {y : ModelM (Recorder σ) Unit} {f : Unit → ModelM σ Unit}
    {g : Unit → ModelM (Recorder σ) Unit} {m : Model σ} (h : Gives x y m) :
    Gives (x >>= f) (y >>= g) m := by
  obtain ⟨talk, e, n, hruns, htalk⟩ := h
  exact ⟨talk, e, n, hruns.bind_error, htalk⟩

theorem Gives.bind_error {α : Type} {x : ModelM σ α} {y : ModelM (Recorder σ) α}
    {f : α → ModelM σ Unit} {g : α → ModelM (Recorder σ) Unit} {m n : Model σ} {e : Error}
    {talk : List Exchange} (h : Runs x y m talk (.error e) n)
    (htalk : ∀ exchange ∈ talk, exchange.call.Provides) : Gives (x >>= f) (y >>= g) m :=
  ⟨talk, e, n, h.bind_error, htalk⟩

theorem Gives.bind_ok {α : Type} {x : ModelM σ α} {y : ModelM (Recorder σ) α}
    {f : α → ModelM σ Unit} {g : α → ModelM (Recorder σ) Unit} {m n : Model σ} {a : α}
    {talk : List Exchange} (h : Runs x y m talk (.ok a) n)
    (htalk : ∀ exchange ∈ talk, exchange.call.Provides) (hrest : Gives (f a) (g a) n) :
    Gives (x >>= f) (y >>= g) m := by
  obtain ⟨others, e, k, hothers, hprovides⟩ := hrest
  refine ⟨talk ++ others, e, k, h.bind hothers, fun exchange hmem => ?_⟩
  rcases List.mem_append.mp hmem with hmem | hmem
  · exact htalk exchange hmem
  · exact hprovides exchange hmem

/-! ## Buffers -/

/-- The transfer of values to a buffer, if there are any. -/
def transfer (h : BufferHandle) (data : Option (List Single)) : List Exchange :=
  data.toList.map fun values => ⟨.writeBuffer h values, .ok .done⟩

theorem provides_transfer (h : BufferHandle) (data : Option (List Single)) :
    ∀ exchange ∈ transfer h data, exchange.call.Provides := by
  intro exchange hmem
  obtain ⟨values, -, rfl⟩ := List.mem_map.mp hmem
  exact trivial

/-- The actions transfer what the source gives to a buffer, or fail. -/
def Fills (source : Option (Except Error (List Single))) (x : BufferHandle → ModelM σ Unit)
    (y : BufferHandle → ModelM (Recorder σ) Unit) : Prop :=
  ∀ h m, (∃ data device, Option.map Except.ok data = source ∧
      Runs (x h) (y h) m (transfer h data) (.ok ()) { m with device }) ∨ Gives (x h) (y h) m

theorem fills_pure : Fills (σ := σ) none (fun _ => pure ()) fun _ => pure () :=
  fun _ m => Or.inl ⟨none, m.device, rfl, Runs.pure () m⟩

/-- Filling transfers the whole tensor, or nothing where there is none. -/
theorem fills_fill (weights : Weights.Store) (d : Program.Descriptor) :
    Fills (σ := σ) (d.source.map weights.values) (fill weights d) (fill weights d) := by
  intro h m
  unfold fill
  cases d.source with
  | none => exact fills_pure h m
  | some source =>
      have hvalues := Runs.ofExcept (weights.values source) m
      dsimp only
      rw [Option.map_some]
      cases hsource : weights.values source with
      | error e =>
          rw [hsource] at hvalues
          exact Or.inr (Gives.bind_error hvalues (by simp))
      | ok values =>
          rw [hsource] at hvalues
          obtain ⟨_, device, hwrite⟩ | ⟨cause, device, hwrite⟩ :=
            Runs.onDevice_cases (DeviceCall.perform_writeBuffer h values) .device m
          · exact Or.inl ⟨some values, device, rfl, hvalues.bind hwrite⟩
          · refine Or.inr ⟨_, _, _, hvalues.bind hwrite, ?_⟩
            simp [DeviceCall.Provides]

/-- Allocating makes one place, fills it, and makes it known under its key. -/
theorem runs_allocate {source : Option (Except Error (List Single))}
    {x : BufferHandle → ModelM σ Unit} {y : BufferHandle → ModelM (Recorder σ) Unit}
    (hfill : Fills source x y) (key : String) (d : Program.Descriptor) (writable : Bool)
    (m : Model σ) :
    (∃ size h data device, d.byteSize? = some size ∧ Option.map Except.ok data = source ∧
        Runs (allocate key d writable x) (allocate key d writable y) m
          (⟨.createBuffer size writable, .ok (.buffer h)⟩ :: transfer h data) (.ok ())
          { m with device, buffers := m.buffers.insert key h }) ∨
      Gives (allocate key d writable x) (allocate key d writable y) m := by
  have hsize := Runs.ofExcept (allocationSize d) m
  unfold allocate
  cases hbytes : d.byteSize? with
  | none =>
      obtain ⟨e, hfails⟩ : ∃ e, allocationSize d = .error e := by
        rw [allocationSize, hbytes]
        exact ⟨_, rfl⟩
      rw [hfails] at hsize ⊢
      exact Or.inr (Gives.bind_error hsize (by simp))
  | some size =>
      have hok : allocationSize d = .ok size := by
        rw [allocationSize, hbytes]
      rw [hok] at hsize ⊢
      obtain ⟨h, device, hcreate⟩ | ⟨cause, device, hcreate⟩ :=
        Runs.onDevice_cases (DeviceCall.perform_createBuffer size writable) .device m
      · obtain ⟨data, after, hdata, hfilled⟩ | hgives := hfill h { m with device }
        · refine Or.inl ⟨size, h, data, after, rfl, hdata, ?_⟩
          have hinsert := Runs.modify (m := { m with device := after })
            (f := fun m => { m with buffers := m.buffers.insert key h })
            (g := fun m => { m with buffers := m.buffers.insert key h }) rfl fun _ => rfl
          refine Runs.of_talk_eq (hsize.bind (hcreate.bind (hfilled.bind hinsert))) ?_
          rw [List.append_nil]
          rfl
        · refine Or.inr (Gives.bind_ok hsize (by simp) (Gives.bind_ok hcreate ?_ hgives.bind))
          simp [DeviceCall.Provides]
      · refine Or.inr (Gives.bind_ok hsize (by simp) (Gives.bind_error hcreate ?_))
        simp [DeviceCall.Provides]

/-- The input and the output get places that nothing fills. -/
theorem runs_reserve (key : String) (d : Program.Descriptor) (writable : Bool) (m : Model σ) :
    (∃ size h device, d.byteSize? = some size ∧
        Runs (allocate key d writable fun _ => pure ()) (allocate key d writable fun _ => pure ())
          m [⟨.createBuffer size writable, .ok (.buffer h)⟩] (.ok ())
          { m with device, buffers := m.buffers.insert key h }) ∨
      Gives (allocate key d writable fun _ => pure ()) (allocate key d writable fun _ => pure ())
        m := by
  refine (runs_allocate fills_pure key d writable m).imp_left ?_
  rintro ⟨size, h, data, device, hsize, hdata, hrun⟩
  cases data with
  | none => exact ⟨size, h, device, hsize, hrun⟩
  | some values => cases hdata

theorem forM_cons {τ α : Type} (f : α → ModelM τ Unit) (a : α) (l : List α) :
    (a :: l).forM f = f a >>= fun _ => l.forM f := rfl

/-- Gives a declared buffer its place. -/
def place (weights : Weights.Store) (e : String × Program.Descriptor) : ModelM σ Unit :=
  allocate e.1 e.2 e.2.writable (fill weights e.2)

/-- Every buffer of a list gets its place, or the device fails. -/
theorem runs_place (weights : Weights.Store) (entries : List (String × Program.Descriptor))
    (m : Model σ) :
    (∃ (placed : List Placement) (device : σ),
        placed.map (fun c => (c.key, c.descriptor)) = entries ∧
        (∀ c ∈ placed, c.Right weights) ∧
        Runs (entries.forM (place weights)) (entries.forM (place weights)) m
          (placed.flatMap Placement.exchanges) (.ok ⟨⟩)
          { m with
            device
            buffers := placed.foldl (fun t c => t.insert c.key c.handle) m.buffers }) ∨
      Gives (entries.forM (place weights)) (entries.forM (place weights)) m := by
  induction entries generalizing m with
  | nil => exact Or.inl ⟨[], m.device, rfl, by simp, Runs.pure () m⟩
  | cons e entries ih =>
      obtain ⟨key, d⟩ := e
      rw [forM_cons, forM_cons]
      obtain ⟨size, h, data, device, hsize, hdata, hfirst⟩ | hgives :=
        runs_allocate (fills_fill weights d) key d d.writable m
      · obtain ⟨placed, after, hentries, hright, hrest⟩ | hgives :=
          ih { m with device, buffers := m.buffers.insert key h }
        · refine Or.inl ⟨⟨key, d, size, h, data⟩ :: placed, after, ?_, ?_, ?_⟩
          · rw [List.map_cons, hentries]
          · exact List.forall_mem_cons.mpr ⟨⟨hsize, hdata⟩, hright⟩
          · exact hfirst.bind hrest
        · refine Or.inr (Gives.bind_ok hfirst ?_ hgives)
          exact List.forall_mem_cons.mpr ⟨trivial, provides_transfer h data⟩
      · exact Or.inr hgives.bind

/-! ## Kernels -/

/-- Compiling makes one kernel known under its key, or the device fails. -/
theorem runs_compile (key source : String) (m : Model σ) :
    (∃ h device, Runs (compile key source) (compile key source) m
        [⟨.createKernel key source, .ok (.kernel h)⟩] (.ok ())
        { m with device, kernels := m.kernels.insert key h }) ∨
      Gives (compile key source) (compile key source) m := by
  unfold compile
  obtain ⟨h, device, hcreate⟩ | ⟨cause, device, hcreate⟩ :=
    Runs.onDevice_cases (DeviceCall.perform_createKernel key source) .device m
  · have hinsert := Runs.modify (m := { m with device })
      (f := fun m => { m with kernels := m.kernels.insert key h })
      (g := fun m => { m with kernels := m.kernels.insert key h }) rfl fun _ => rfl
    exact Or.inl ⟨h, device, hcreate.bind hinsert⟩
  · refine Or.inr (Gives.bind_error hcreate ?_)
    simp [DeviceCall.Provides]

/-- Compiles a kernel of a program. -/
def compileEntry (e : String × String) : ModelM σ Unit := compile e.1 e.2

/-- Every kernel of a list is compiled, or the device fails. -/
theorem runs_compileEntry (entries : List (String × String)) (m : Model σ) :
    (∃ (compiled : List Compilation) (device : σ),
        compiled.map (fun c => (c.key, c.source)) = entries ∧
        Runs (entries.forM compileEntry) (entries.forM compileEntry) m
          (compiled.map Compilation.exchange) (.ok ⟨⟩)
          { m with
            device
            kernels := compiled.foldl (fun t c => t.insert c.key c.handle) m.kernels }) ∨
      Gives (entries.forM compileEntry) (entries.forM compileEntry) m := by
  induction entries generalizing m with
  | nil => exact Or.inl ⟨[], m.device, rfl, Runs.pure () m⟩
  | cons e entries ih =>
      obtain ⟨key, source⟩ := e
      rw [forM_cons, forM_cons]
      obtain ⟨h, device, hfirst⟩ | hgives := runs_compile key source m
      · obtain ⟨compiled, after, hentries, hrest⟩ | hgives :=
          ih { m with device, kernels := m.kernels.insert key h }
        · refine Or.inl ⟨⟨key, source, h⟩ :: compiled, after, ?_, hfirst.bind hrest⟩
          rw [List.map_cons, hentries]
        · refine Or.inr (Gives.bind_ok hfirst ?_ hgives)
          simp [DeviceCall.Provides]
      · exact Or.inr hgives.bind

/-! ## The whole setup -/

/-- What is left of provisioning once the device is set up. -/
def equip (weights : Weights.Store) (p : Program) : ModelM σ Unit := do
  p.buffers.toList.forM (place weights)
  allocate Program.inputKey p.input false fun _ => pure ()
  allocate Program.outputKey p.output true fun _ => pure ()
  p.kernels.toList.forM compileEntry

theorem runs_equip (weights : Weights.Store) (p : Program) {m : Model σ}
    (hbuffers : m.buffers = .empty) (hkernels : m.kernels = .empty) :
    (∃ talk device buffers kernels,
        Provisioned weights p (⟨.setup, .ok .done⟩ :: talk) buffers kernels ∧
        Runs (equip weights p) (equip weights p) m talk (.ok ())
          { m with device, buffers, kernels }) ∨
      Gives (equip weights p) (equip weights p) m := by
  obtain ⟨device, program, phase, _, _⟩ := m
  subst hbuffers hkernels
  unfold equip
  obtain ⟨placed, d₁, hplaced, hright, hplace⟩ | hgives :=
    runs_place weights p.buffers.toList ⟨device, program, phase, .empty, .empty⟩
  · have hprovides : ∀ exchange ∈ placed.flatMap Placement.exchanges, exchange.call.Provides := by
      intro exchange hmem
      obtain ⟨c, -, hmem⟩ := List.mem_flatMap.mp hmem
      exact List.forall_mem_cons.mpr ⟨trivial, provides_transfer c.handle c.data⟩ exchange hmem
    obtain ⟨inputSize, input, d₂, hinput, hreserve⟩ | hgives :=
      runs_reserve Program.inputKey p.input false
        ⟨d₁, program, phase, placedAt placed, .empty⟩
    · obtain ⟨outputSize, output, d₃, houtput, hreserve'⟩ | hgives :=
        runs_reserve Program.outputKey p.output true
          ⟨d₂, program, phase, (placedAt placed).insert Program.inputKey input, .empty⟩
      · obtain ⟨compiled, d₄, hcompiled, hcompile⟩ | hgives :=
          runs_compileEntry p.kernels.toList
            ⟨d₃, program, phase, ((placedAt placed).insert Program.inputKey input).insert
              Program.outputKey output, .empty⟩
        · have hprovisioned : Provisioned weights p _
              (((placedAt placed).insert Program.inputKey input).insert Program.outputKey output)
              (compiledAs compiled) := .intro hplaced hright hinput houtput hcompiled
          exact Or.inl ⟨_, d₄, _, _, hprovisioned,
            hplace.bind (hreserve.bind (hreserve'.bind hcompile))⟩
        · refine Or.inr (Gives.bind_ok hplace hprovides (Gives.bind_ok hreserve ?_
            (Gives.bind_ok hreserve' ?_ hgives)))
          · simp [DeviceCall.Provides]
          · simp [DeviceCall.Provides]
      · refine Or.inr (Gives.bind_ok hplace hprovides (Gives.bind_ok hreserve ?_ hgives.bind))
        simp [DeviceCall.Provides]
    · exact Or.inr (Gives.bind_ok hplace hprovides hgives.bind)
  · exact Or.inr hgives.bind

/-- A setup that goes wrong: the device is set up, or cannot be, and what else is
said provides something. -/
def FailedTalk (talk : List Exchange) : Prop :=
  ∃ answer rest, talk = ⟨.setup, answer⟩ :: rest ∧ ∀ exchange ∈ rest, exchange.call.Provides

theorem runs_provision (weights : Weights.Store) {m : Model σ}
    (hbuffers : m.buffers = .empty) (hkernels : m.kernels = .empty) :
    (∃ talk n, Provisioned weights m.program talk n.buffers n.kernels ∧
        n.program = m.program ∧
        Runs (provision weights) (provision weights) m talk (.ok ()) n) ∨
      ∃ talk e n, FailedTalk talk ∧
        Runs (provision weights) (provision weights) m talk (.error e) n := by
  unfold provision
  obtain ⟨_, device, hsetup⟩ | ⟨cause, device, hsetup⟩ :=
    Runs.onDevice_cases DeviceCall.perform_setup .device m
  · have hget : ∀ {talk r n}, Runs (equip weights m.program) (equip weights m.program)
        { m with device } talk r n → Runs (get >>= fun m => equip weights m.program)
          (get >>= fun m => equip weights m.program) { m with device } talk r n :=
      fun h => Runs.get_bind (fun _ => rfl) h
    obtain ⟨talk, after, buffers, kernels, hprovisioned, hequip⟩ |
        ⟨talk, e, n, hequip, hprovides⟩ :=
      runs_equip (m := { m with device }) weights m.program hbuffers hkernels
    · exact Or.inl ⟨_, ⟨after, m.program, m.phase, buffers, kernels⟩, hprovisioned, rfl,
        hsetup.bind (hget hequip)⟩
    · exact Or.inr ⟨_, e, n, ⟨_, talk, rfl, hprovides⟩, hsetup.bind (hget hequip)⟩
  · exact Or.inr ⟨_, _, _, ⟨_, [], rfl, by simp⟩, hsetup.bind_error⟩

/-- The phase of a model that was provisioned with this result. -/
def phaseAfter : Except Error Unit → Phase
  | .ok _ => .ready
  | .error _ => .faulted

section

variable {weights : Weights.Store} {m n : Model σ} {talk : List Exchange} {r : Except Error Unit}

/-- The first setup is provisioning, and a new phase. -/
theorem runs_setup (hphase : m.phase = .unconfigured)
    (h : Runs (provision weights) (provision weights) m talk r n) :
    Runs (setup weights) (setup weights) m talk r { n with phase := phaseAfter r } where
  plain := by
    rw [runFrom_setup, if_pos hphase, h.plain]
    cases r with
    | ok _ => rfl
    | error _ => rfl
  recorded log := by
    have hrecorded : (m.recorded log).phase = .unconfigured := hphase
    rw [runFrom_setup, if_pos hrecorded, h.recorded]
    cases r with
    | ok _ => rfl
    | error _ => rfl
  holds := h.holds

theorem runs_setup_of_phase (weights : Weights.Store) (hphase : m.phase ≠ .unconfigured) :
    Runs (setup weights) (setup weights) m [] (.error (.invalidState .unconfigured m.phase)) m
    where
  plain := by rw [runFrom_setup, if_neg hphase]
  recorded log := by
    have hrecorded : (m.recorded log).phase ≠ .unconfigured := hphase
    rw [runFrom_setup, if_neg hrecorded, List.map_nil, List.append_nil]
    rfl
  holds := Conversation.holds_nil m.device

end

/-! ## Known keys -/

omit [Device σ] in
/-- A model with the handles of what was provided knows the keys of the program. -/
theorem knows_of_provisioned {weights : Weights.Store} {p : Program} {talk : List Exchange}
    {m : Model σ} (h : Provisioned weights p talk m.buffers m.kernels) : m.Knows p := by
  obtain ⟨device, program, phase, buffers, kernels⟩ := m
  dsimp only at h
  cases h with
  | @intro placed compiled _ _ _ _ hplaced hright hinput houtput hcompiled =>
      refine ⟨fun key => ?_, fun key => ?_⟩
      · have hkeys : placed.map Placement.key = p.buffers.keys := by
          rw [Table.keys, ← hplaced, List.map_map]
          rfl
        have hdeclared : ((placedAt placed).get? key).isSome = p.buffers.contains key := by
          rw [Bool.eq_iff_iff, placedAt, Table.isSome_get?_foldl_insert, hkeys, Table.mem_keys_iff,
            Table.contains]
        dsimp only
        rw [Table.get?_insert, Table.get?_insert, Program.declaresBuffer]
        by_cases houtput : key = Program.outputKey
        · simp [houtput]
        · by_cases hinput : key = Program.inputKey
          · rw [if_neg houtput, if_pos hinput]
            simp [hinput]
          · rw [if_neg houtput, if_neg hinput, hdeclared]
            simp [houtput, hinput]
      · have hkeys : compiled.map Compilation.key = p.kernels.keys := by
          rw [Table.keys, ← hcompiled, List.map_map]
          rfl
        rw [Bool.eq_iff_iff, compiledAs, Table.isSome_get?_foldl_insert, hkeys, Table.mem_keys_iff,
          Table.contains]

end Model

end NetReplay
