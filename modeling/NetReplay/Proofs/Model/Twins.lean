import NetReplay.Proofs.Model.Furnishing
import NetReplay.Proofs.Model.Protocol

/-!
# Models that go along with each other

Two models of one program go along with each other when their buffers hold the same
numbers, wherever they lie in memory (`Twin`). Such models answer every request alike
and still go along afterwards (`Twin.request`).

The models may share their memory with others. A request changes only buffers that its
model holds, and the model comes to hold only buffers that were not there before
(`Spares`, `Twin.spares`). For a run this follows its statements (`ChangesOwn`): the
arguments of a dispatch are resolved among the handles of the model.
-/

namespace NetReplay

namespace Model

open ModelM Program

/-! ## What a run touches -/

/-- In the second model at most the buffers that the first one holds were changed. -/
structure ChangesOwn (m n : Model Host) : Prop where
  rest : n = m.withMemory n.device.memory
  available : n.device.memory.available = m.device.memory.available
  outside : ∀ h, (∀ key, m.buffers.get? key ≠ some h) →
    n.device.memory.get? h = m.device.memory.get? h

namespace ChangesOwn

variable {m n o : Model Host}

theorem refl (m : Model Host) : ChangesOwn m m := ⟨rfl, rfl, fun _ _ => rfl⟩

theorem buffers (h : ChangesOwn m n) : n.buffers = m.buffers := by
  rw [h.rest]
  rfl

theorem trans (hmn : ChangesOwn m n) (hno : ChangesOwn n o) : ChangesOwn m o where
  rest := by
    rw [hno.rest, hmn.rest]
    rfl
  available := hno.available.trans hmn.available
  outside h hh := (hno.outside h (hmn.buffers ▸ hh)).trans (hmn.outside h hh)

theorem knows {p : Program} (h : ChangesOwn m n) (hm : m.Knows p) : n.Knows p := by
  rw [h.rest]
  exact ⟨hm.buffers, hm.kernels⟩

theorem initialized (h : ChangesOwn m n) (hinit : m.device.initialized = true) :
    n.device.initialized = true := by
  rw [h.rest]
  exact hinit

/-- What comes after an action starts from where it has led. -/
theorem bind {α β : Type} {x : ModelM Host α} {f : α → ModelM Host β}
    (hx : ChangesOwn m (x.runFrom m).2)
    (hf : ∀ a n, ChangesOwn m n → ChangesOwn n ((f a).runFrom n).2) :
    ChangesOwn m ((x >>= f).runFrom m).2 := by
  rw [runFrom_bind]
  rcases hrun : x.runFrom m with ⟨e | a, n⟩
  · rw [hrun] at hx
    exact hx
  · rw [hrun] at hx
    exact hx.trans (hf a n hx)

end ChangesOwn

section

variable {p : Program} {m : Model Host}

theorem changesOwn_runKernel (hinit : m.device.initialized = true) (kernel : KernelHandle)
    (launch : Launch) {args : List BufferHandle}
    (hargs : ∀ a ∈ args, ∃ key, m.buffers.get? key = some a) (wrap : DeviceError → Error) :
    ChangesOwn m ((onDevice (Device.runKernel kernel launch args) wrap).runFrom m).2 := by
  rw [runFrom_onDevice]
  rcases Host.runKernel_cases hinit kernel launch args with ⟨e, -, hrun⟩ | ⟨k, -, -, -, hrun⟩
  · have hdevice : (Device.runKernel kernel launch args).runFrom m.device = _ := hrun
    rw [hdevice]
    exact .refl m
  · have hdevice : (Device.runKernel kernel launch args).runFrom m.device = _ := hrun
    rw [hdevice]
    have hchanged := Host.Memory.changedOnly_runAll args k.body launch.workItems m.device.memory
    refine ⟨rfl, hchanged.available, fun h hh => hchanged.outside h fun hmem => ?_⟩
    obtain ⟨key, hkey⟩ := hargs h hmem
    exact hh key hkey

theorem changesOwn_writeBuffer (hinit : m.device.initialized = true) {key : String}
    {h : BufferHandle} (hkey : m.buffers.get? key = some h) (data : List Single)
    (wrap : DeviceError → Error) :
    ChangesOwn m ((onDevice (Device.writeBuffer h data) wrap).runFrom m).2 := by
  have hwrite : (Device.writeBuffer h data).runFrom m.device = _ :=
    Host.runFrom_writeBuffer hinit h data
  rw [runFrom_onDevice, hwrite]
  cases hmemory : m.device.memory.write h data with
  | error e => exact .refl m
  | ok memory =>
      obtain ⟨-, -, -, rfl⟩ := Host.Memory.write_eq_ok_iff.mp hmemory
      refine ⟨rfl, Host.Memory.available_modify _ _ _, fun k hk => ?_⟩
      refine Host.Memory.get?_modify_of_ne _ ?_ _
      rintro rfl
      exact hk key hkey

theorem changesOwn_readBuffer (hinit : m.device.initialized = true) (h : BufferHandle)
    (count : Nat) (wrap : DeviceError → Error) :
    ChangesOwn m ((onDevice (Device.readBuffer h count) wrap).runFrom m).2 := by
  have hread : (Device.readBuffer h count).runFrom m.device = _ :=
    Host.runFrom_readBuffer hinit h count
  rw [runFrom_onDevice, hread]
  exact .refl m

theorem changesOwn_dispatch (hm : m.Knows p) (hinit : m.device.initialized = true) (index : Nat)
    (s : Statement) : ChangesOwn m ((dispatch index s).runFrom m).2 := by
  rw [runFrom_dispatch]
  rcases resolve_of_check hm index s with
    ⟨e, -, hresolve⟩ | ⟨-, launch, kernel, args, -, -, hargs, hresolve⟩
  · rw [hresolve]
    exact .refl m
  · rw [hresolve]
    refine changesOwn_runKernel hinit kernel launch (fun a ha => ?_) _
    have hmem : some a ∈ s.args.map m.buffers.get? := hargs ▸ List.mem_map_of_mem ha
    obtain ⟨key, -, hkey⟩ := List.mem_map.mp hmem
    exact ⟨key, hkey⟩

theorem changesOwn_dispatchFrom (hm : m.Knows p) (hinit : m.device.initialized = true)
    (index : Nat) (statements : List Statement) :
    ChangesOwn m ((dispatchFrom index statements).runFrom m).2 := by
  induction statements generalizing m index with
  | nil => exact .refl m
  | cons s statements ih =>
      refine (changesOwn_dispatch hm hinit index s).bind fun _ n hn => ?_
      exact ih (hn.knows hm) (hn.initialized hinit) (index + 1)

/-- A run changes at most the buffers that its model holds. -/
theorem changesOwn_run (hm : m.Knows m.program) (hinit : m.device.initialized = true)
    (hready : m.phase = .ready) (input : List Single) :
    ChangesOwn m ((run input).runFrom m).2 := by
  by_cases hlength : input.length = m.program.inputLength
  · obtain ⟨source, hsource⟩ := Option.isSome_iff_exists.mp (hm.buffers inputKey)
    obtain ⟨target, htarget⟩ := Option.isSome_iff_exists.mp (hm.buffers outputKey)
    rw [runFrom_run_eq_runWith hready hlength hsource htarget, runWith]
    refine (changesOwn_writeBuffer hinit hsource input _).bind fun _ n hn => ?_
    have hinit := hn.initialized hinit
    refine (changesOwn_dispatchFrom (hn.knows hm) hinit 0 _).bind fun _ k hk => ?_
    exact changesOwn_readBuffer (hk.initialized hinit) target _ _
  · rw [runFrom_run_of_length_ne hready hlength]
    exact .refl m

end

/-! ## Models that go along with each other -/

section

variable {σ : Type} [Device σ]

/-- What a request gives back. -/
inductive Reply where
  | done
  | outputs (values : List Single)
  deriving DecidableEq, Repr

/-- The answer to a request. -/
def answer (m : Model σ) : Request → Except Error Reply
  | .setup weights => ((setup weights).runFrom m).1.map fun _ => .done
  | .run input => ((run input).runFrom m).1.map .outputs

end

/-- Two models that go along with each other: both are new and their hosts alike, or
both are ready with equal lists, or both are faulted. -/
inductive Twin : Model Host → Model Host → Prop
  | unconfigured {host other : Host} (p : Program) (hhost : host.initialized = false)
      (hother : other.initialized = false) (hregistry : host.registry = other.registry)
      (havailable : host.memory.available = other.memory.available) :
      Twin (Model.new host p) (Model.new other p)
  | ready {m n : Model Host} {p : Program} {bodies : Table Kernel.Body}
      (hm : Built p bodies p.sizes p.kernels m) (hn : Built p bodies p.sizes p.kernels n)
      (hready : m.phase = .ready) (hready' : n.phase = .ready)
      (hcontents : m.contents? = n.contents?) : Twin m n
  | faulted {m n : Model Host} (hm : m.phase = .faulted) (hn : n.phase = .faulted) : Twin m n

namespace Twin

variable {m n : Model Host}

theorem phase_eq (h : Twin m n) : m.phase = n.phase := by
  cases h with
  | unconfigured => rfl
  | ready _ _ hready hready' => rw [hready, hready']
  | faulted hm hn => rw [hm, hn]

theorem contents_eq (h : Twin m n) (hready : m.phase = .ready) :
    m.contents? = n.contents? := by
  cases h with
  | unconfigured => cases hready
  | ready _ _ _ _ hcontents => exact hcontents
  | faulted hfaulted => exact absurd (hready.symm.trans hfaulted) (by simp)

/-- The setups of models on hosts that are alike come to the same. -/
theorem setup_unconfigured {host other : Host} (p : Program) (hhost : host.initialized = false)
    (hother : other.initialized = false) (hregistry : host.registry = other.registry)
    (havailable : host.memory.available = other.memory.available) (weights : Weights.Store) :
    ((new host p).answer (.setup weights)).mapError Error.anonymous =
        ((new other p).answer (.setup weights)).mapError Error.anonymous ∧
      Twin ((new host p).step (.setup weights)) ((new other p).step (.setup weights)) := by
  obtain ⟨-, hends⟩ := setup_new hhost p weights
  obtain ⟨-, hends'⟩ := setup_new hother p weights
  rw [hregistry, havailable] at hends
  rw [answer, answer, step, step]
  rcases hrun : (Model.setup weights).runFrom (new host p) with ⟨r, m⟩
  rcases hrun' : (Model.setup weights).runFrom (new other p) with ⟨r', n⟩
  rw [hrun] at hends
  rw [hrun'] at hends'
  rcases hends with ⟨c, hc, rfl, hready, hcontents⟩ | ⟨d, e, hd, rfl, hfaulted, heq⟩
  · rcases hends' with ⟨c', hc', rfl, hready', hcontents'⟩ | ⟨d', _, hd', -⟩
    · cases hc.symm.trans hc'
      obtain ⟨hm, -⟩ := built_of_setup hrun
      obtain ⟨hn, -⟩ := built_of_setup hrun'
      rw [hregistry] at hm
      exact ⟨rfl, .ready hm hn hready hready' (hcontents.trans hcontents'.symm)⟩
    · cases hc.symm.trans hd'
  · rcases hends' with ⟨c', hc', -⟩ | ⟨d', e', hd', rfl, hfaulted', heq'⟩
    · cases hd.symm.trans hc'
    · cases hd.symm.trans hd'
      exact ⟨congrArg Except.error (heq.trans heq'.symm), .faulted hfaulted hfaulted'⟩

/-- A setup has the same answer on both sides, and they still go along. -/
theorem setup (h : Twin m n) (weights : Weights.Store) :
    (m.answer (.setup weights)).mapError Error.anonymous =
        (n.answer (.setup weights)).mapError Error.anonymous ∧
      Twin (m.step (.setup weights)) (n.step (.setup weights)) := by
  by_cases hphase : m.phase = .unconfigured
  · cases h with
    | unconfigured p hhost hother hregistry havailable =>
        exact setup_unconfigured p hhost hother hregistry havailable weights
    | ready _ _ hready => exact absurd (hphase.symm.trans hready) (by simp)
    | faulted hfaulted => exact absurd (hphase.symm.trans hfaulted) (by simp)
  · have hphase' : n.phase ≠ .unconfigured := h.phase_eq ▸ hphase
    rw [answer, answer, step, step, (runs_setup_of_phase weights hphase).plain,
      (runs_setup_of_phase weights hphase').plain, h.phase_eq]
    exact ⟨rfl, h⟩

/-- Runs of ready models on an input of the right length come to the same, since what a
run does is said by the program and the bound lists. -/
theorem run_ready {p : Program} {bodies : Table Kernel.Body}
    (hm : Built p bodies p.sizes p.kernels m) (hn : Built p bodies p.sizes p.kernels n)
    (hready : m.phase = .ready) (hready' : n.phase = .ready)
    (hcontents : m.contents? = n.contents?) {input : List Single}
    (hlength : input.length = p.inputLength) :
    m.answer (.run input) = n.answer (.run input) ∧
      Twin (m.step (.run input)) (n.step (.run input)) := by
  obtain ⟨memory, hrun, hshape, hlists, hresult⟩ := runFrom_run_of_built hm hready hlength
  obtain ⟨memory', hrun', hshape', hlists', hresult'⟩ := runFrom_run_of_built hn hready' hlength
  rw [← hcontents] at hlists' hresult'
  constructor
  · rw [answer, answer]
    cases hmeans : (p.interpret bodies 0 p.statements (m.contents?.set inputKey input)).1 with
    | error e =>
        rw [hmeans] at hresult hresult'
        rw [hresult, hresult']
    | ok u =>
        rw [hmeans] at hresult hresult'
        obtain ⟨outputs, houtputs, -, hok⟩ := hresult
        obtain ⟨outputs', houtputs', -, hok'⟩ := hresult'
        rw [hlists] at houtputs
        rw [hlists'] at houtputs'
        cases houtputs.symm.trans houtputs'
        rw [hok, hok']
  · rw [step, step, hrun, hrun']
    exact .ready (hm.withMemory hshape.keeps) (hn.withMemory hshape'.keeps) hready hready'
      (hlists.trans hlists'.symm)

/-- A run has the same answer on both sides, and they still go along. -/
theorem run (h : Twin m n) (input : List Single) :
    m.answer (.run input) = n.answer (.run input) ∧
      Twin (m.step (.run input)) (n.step (.run input)) := by
  by_cases hphase : m.phase = .ready
  · cases h with
    | @ready _ _ p _ hm hn hready hready' hcontents =>
        by_cases hlength : input.length = p.inputLength
        · exact run_ready hm hn hready hready' hcontents hlength
        · have hlength : input.length ≠ m.program.inputLength := hm.program ▸ hlength
          have hlength' : input.length ≠ n.program.inputLength := hn.program ▸ hm.program ▸ hlength
          rw [answer, answer, step, step, runFrom_run_of_length_ne hready hlength,
            runFrom_run_of_length_ne hready' hlength', hm.program, hn.program]
          exact ⟨rfl, .ready hm hn hready hready' hcontents⟩
    | unconfigured => cases hphase
    | faulted hfaulted => exact absurd (hphase.symm.trans hfaulted) (by simp)
  · have hphase' : n.phase ≠ .ready := h.phase_eq ▸ hphase
    rw [answer, answer, step, step, runFrom_run_of_phase_ne hphase,
      runFrom_run_of_phase_ne hphase', h.phase_eq]
    exact ⟨rfl, h⟩

/-- Every request has the same answer on both sides, but for handles in a failure, and
they still go along. -/
theorem request (h : Twin m n) (request : Request) :
    (m.answer request).mapError Error.anonymous = (n.answer request).mapError Error.anonymous ∧
      Twin (m.step request) (n.step request) := by
  cases request with
  | setup weights => exact h.setup weights
  | run input => exact (h.run input).imp_left (congrArg (Except.mapError Error.anonymous))

/-- What happens in memory beside a model does not matter to it, as long as the buffers
that it holds stay as they are. -/
theorem withMemory (h : Twin m n) {memory : Host.Memory}
    (havailable : memory.available = m.device.memory.available)
    (hkeeps : m.device.memory.KeepsWhole memory)
    (hown : ∀ key h, m.buffers.get? key = some h → memory.get? h = m.device.memory.get? h) :
    Twin (m.withMemory memory) n := by
  cases h with
  | unconfigured p hhost hother hregistry hsame =>
      exact .unconfigured p hhost hother hregistry (havailable.trans hsame)
  | ready hm hn hready hready' hcontents =>
      refine .ready (hm.withMemory_of_keepsWhole hkeeps) hn hready hready' (Eq.trans ?_ hcontents)
      funext key
      exact Option.bind_congr fun h hh => congrArg (Option.map _) (hown key h hh)
  | faulted hm hn => exact .faulted hm hn

end Twin

/-! ## What a request leaves alone -/

/-- What a request to a model does to shared memory: it changes only buffers that the
model holds, and the model comes to hold only buffers that were not there before. -/
structure Spares (m n : Model Host) : Prop where
  available : n.device.memory.available = m.device.memory.available
  keeps : m.device.memory.KeepsWhole n.device.memory
  outside : ∀ h b, m.device.memory.get? h = some b → (∀ key, m.buffers.get? key ≠ some h) →
    n.device.memory.get? h = some b
  held : ∀ key h, n.buffers.get? key = some h → n.device.memory.contains h
  own : ∀ key h, n.buffers.get? key = some h →
    m.buffers.get? key = some h ∨ m.device.memory.get? h = none

/-- All buffers that a model holds are there. -/
def Held (m : Model Host) : Prop :=
  ∀ key h, m.buffers.get? key = some h → m.device.memory.contains h

theorem Spares.refl {m : Model Host} (hm : m.Held) : Spares m m where
  available := rfl
  keeps := .refl _
  outside _ _ hb _ := hb
  held := hm
  own _ _ hh := Or.inl hh

theorem Furnished.spares {host : Host} {p : Program} {n : Model Host}
    (hn : Furnished host.memory host.registry n) : Spares (new host p) n where
  available := hn.available
  keeps h b hb hwhole := ⟨b, hn.kept h b hb, hwhole, rfl⟩
  outside h b hb _ := hn.kept h b hb
  held key h hh := by
    obtain ⟨-, b, hb⟩ := hn.held key h hh
    exact Option.isSome_iff_exists.mpr ⟨b, hb⟩
  own key h hh := Or.inr (hn.held key h hh).1

theorem Built.spares {p : Program} {bodies : Table Kernel.Body} {m : Model Host}
    (hm : Built p bodies p.sizes p.kernels m) (hready : m.phase = .ready) {input : List Single}
    (hlength : input.length = p.inputLength) : Spares m (m.step (.run input)) := by
  have hchanges : ChangesOwn m (m.step (.run input)) :=
    changesOwn_run (hm.program ▸ hm.knows) hm.initialized hready input
  obtain ⟨memory, hrun, hshape, -⟩ := runFrom_run_of_built hm hready hlength
  have hkeeps := hshape.keeps
  rw [step, hrun] at hchanges ⊢
  refine ⟨hchanges.available, hkeeps.keepsWhole, fun h b hb hh => (hchanges.outside h hh).trans hb,
    fun key h hh => ?_, fun _ _ hh => Or.inl hh⟩
  obtain ⟨b, hb, -⟩ := (hm.withMemory hkeeps).exists_buffer hh
  exact Option.isSome_iff_exists.mpr ⟨b, hb⟩

/-- A request to a model that goes along with another spares what is not its own. -/
theorem Twin.spares {m n : Model Host} (h : Twin m n) (hheld : m.Held) (request : Request) :
    Spares m (m.step request) := by
  cases request with
  | setup weights =>
      by_cases hphase : m.phase = .unconfigured
      · cases h with
        | unconfigured p hhost => exact (setup_new hhost p weights).1.spares
        | ready _ _ hready => exact absurd (hphase.symm.trans hready) (by simp)
        | faulted hfaulted => exact absurd (hphase.symm.trans hfaulted) (by simp)
      · rw [step, (runs_setup_of_phase weights hphase).plain]
        exact .refl hheld
  | run input =>
      by_cases hphase : m.phase = .ready
      · cases h with
        | unconfigured => cases hphase
        | @ready _ _ p _ hm _ hready =>
            by_cases hlength : input.length = p.inputLength
            · exact hm.spares hready hlength
            · rw [step, runFrom_run_of_length_ne hready (hm.program ▸ hlength)]
              exact .refl hheld
        | faulted hfaulted => exact absurd (hphase.symm.trans hfaulted) (by simp)
      · rw [step, runFrom_run_of_phase_ne hphase]
        exact .refl hheld

end Model

end NetReplay
