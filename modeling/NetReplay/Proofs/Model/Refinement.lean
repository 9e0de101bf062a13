import NetReplay.Proofs.Host.Dispatch
import NetReplay.Proofs.Model.Setup

/-!
# Runs of a model are runs on named lists

A model on a host binds a list of numbers to every key of a buffer
(`Model.contents?`). A dispatch sees these lists through handles, and since every
key has a handle of its own it cannot tell them from lists that are found by name
(`view_agree`). So a statement does to the bound lists what it does to named
lists, and is refused for the same reasons (`runFrom_dispatch_of_accepted`,
`runFrom_dispatch_of_refused`). By induction on the statements and on the runs
before, a run does what the program means (`run_refines`).
-/

namespace NetReplay

namespace Model

open ModelM Program

/-- The list of numbers bound to each key. -/
def contents? (m : Model Host) : Contents := fun key =>
  (m.buffers.get? key).bind fun h =>
    (m.device.memory.get? h).map fun b => b.contents.toList

/-- The model after runs on inputs, whether or not they succeeded. -/
def afterRuns (m : Model Host) (history : List (List Single)) : Model Host :=
  history.foldl (fun m input => ((run input).runFrom m).2) m

variable {p : Program} {bodies : Table Kernel.Body} {sizes : Table Nat} {sources : Table String}
  {m : Model Host}

/-! ## Handles and names -/

/-- A change of the buffer of one key changes the list of that key alone. -/
theorem contents?_modify (hm : Built p bodies sizes sources m) {key : String} {h : BufferHandle}
    (hkey : m.buffers.get? key = some h) (memory : Host.Memory) (f : Host.Buffer → Host.Buffer)
    (k : String) :
    (m.withMemory (memory.modify h f)).contents? k =
      if k = key then (memory.get? h).map fun b => (f b).contents.toList
      else (m.withMemory memory).contents? k := by
  rw [contents?, contents?]
  show (m.buffers.get? k).bind _ = if k = key then _ else (m.buffers.get? k).bind _
  by_cases hk : k = key
  · rw [if_pos hk, hk, hkey, Option.bind_some]
    show ((memory.modify h f).get? h).map _ = _
    rw [Host.Memory.get?_modify_self, Option.map_map]
    rfl
  · rw [if_neg hk]
    refine Option.bind_congr fun i hi => ?_
    have hne : h ≠ i := fun heq => hk (hm.injective k key i hi (heq ▸ hkey))
    show ((memory.modify h f).get? i).map _ = (memory.get? i).map _
    rw [Host.Memory.get?_modify_of_ne memory hne]

/-- An argument and its name are both there or both missing. -/
theorem argument_cases {names : List String} {args : List BufferHandle}
    (hargs : names.map m.buffers.get? = args.map some) (arg : Nat) :
    (args[arg]? = none ∧ names[arg]? = none) ∨
      ∃ h name, args[arg]? = some h ∧ names[arg]? = some name ∧
        m.buffers.get? name = some h := by
  have hget := congrArg (·[arg]?) hargs
  simp only [List.getElem?_map] at hget
  cases hname : names[arg]? with
  | none =>
      rw [hname, Option.map_none, eq_comm, Option.map_eq_none_iff] at hget
      exact Or.inl ⟨hget, rfl⟩
  | some name =>
      rw [hname, Option.map_some, eq_comm, Option.map_eq_some_iff] at hget
      obtain ⟨h, harg, hh⟩ := hget
      exact Or.inr ⟨h, name, harg, rfl, hh.symm⟩

/-- A body runs on buffers by their handles as it does on lists by their names. -/
theorem view_agree (hm : Built p bodies sizes sources m) {names : List String}
    {args : List BufferHandle} (hargs : names.map m.buffers.get? = args.map some) :
    (Host.Memory.view args).Agree (Contents.view names)
      (fun memory c => (m.withMemory memory).contents? = c) where
  count memory c hc := by
    show args.length = names.length
    rw [← List.length_map some, ← hargs, List.length_map]
  contents? memory c hc arg := by
    show (args[arg]?.bind memory.get?).map Host.Buffer.contents =
      (names[arg]?.bind c).map List.toArray
    rcases argument_cases hargs arg with ⟨harg, hname⟩ | ⟨h, name, harg, hname, hh⟩
    · rw [harg, hname]
      rfl
    · rw [harg, hname, ← hc]
      show (memory.get? h).map _ = (((m.buffers.get? name).bind _).map _)
      rw [hh, Option.bind_some, Option.map_map]
      rfl
  write memory c hc arg index x := by
    show (m.withMemory ((Host.Memory.view args).write memory arg index x)).contents? =
      (Contents.view names).write c arg index x
    rw [Host.Memory.view, Contents.view]
    dsimp only
    rcases argument_cases hargs arg with ⟨harg, hname⟩ | ⟨h, name, harg, hname, hh⟩
    · rw [harg, hname]
      exact hc
    · rw [harg, hname]
      funext k
      dsimp only
      rw [contents?_modify hm hh, hc]
      by_cases hk : k = name
      · rw [if_pos hk, if_pos hk, hk, ← hc]
        show _ = Option.map _ ((m.buffers.get? name).bind _)
        rw [hh, Option.bind_some, Option.map_map]
        refine Option.map_congr fun b _ => ?_
        exact Array.toList_setIfInBounds ..
      · rw [if_neg hk, if_neg hk]

/-! ## Statements -/

theorem runFrom_dispatch (m : Model Host) (index : Nat) (s : Statement) :
    (dispatch index s).runFrom m = match m.resolve index s with
      | .error e => (.error e, m)
      | .ok (launch, kernel, args) =>
        (onDevice (Device.runKernel kernel launch args)
          (.kernelDispatchFailed index s.kernel)).runFrom m := by
  rw [dispatch, runFrom_bind, runFrom_get]
  dsimp only
  rw [runFrom_bind, runFrom_ofExcept]
  cases m.resolve index s with
  | error e => rfl
  | ok resolved => rfl

/-- A refused statement fails and changes nothing. -/
theorem runFrom_dispatch_of_refused (hm : Built p bodies p.sizes p.kernels m) {index : Nat}
    {s : Statement} {e : Error} (h : p.accept index s = .error e) :
    (dispatch index s).runFrom m = (.error e, m) := by
  rw [runFrom_dispatch]
  rcases resolve_of_check hm.knows index s with
    ⟨e', hcheck, hresolve⟩ | ⟨hcheck, launch, kernel, args, hlaunch, hkernel, -, hresolve⟩
  · rw [accept, hcheck] at h
    cases h
    rw [hresolve]
  · rw [hresolve]
    rcases accept_eq_error_cases h with hcheck' | ⟨_, cause, -, hlaunch', hvalid, rfl⟩
    · rw [hcheck] at hcheck'
      cases hcheck'
    · cases hlaunch.symm.trans hlaunch'
      obtain ⟨body, -, hbody⟩ := hm.exists_kernel hkernel
      have hrun := Host.runFrom_runKernel_of_invalid hm.initialized hbody hvalid args
      have hdevice : (Device.runKernel kernel launch args).runFrom m.device = _ := hrun
      dsimp only
      rw [runFrom_onDevice, hdevice]
      rfl

/-- An accepted statement does to the bound lists what it does to named lists. -/
theorem runFrom_dispatch_of_accepted (hm : Built p bodies p.sizes p.kernels m) {index : Nat}
    {s : Statement} {launch : Launch} (h : p.accept index s = .ok launch) :
    ∃ memory, (dispatch index s).runFrom m = (.ok (), m.withMemory memory) ∧
      m.device.memory.SameShape memory ∧
      (m.withMemory memory).contents? = s.effect bodies m.contents? := by
  obtain ⟨hcheck, hlaunch, hvalid⟩ := accept_eq_ok_iff.mp h
  rcases resolve_of_check hm.knows index s with
    ⟨e, hcheck', -⟩ | ⟨-, launch', kernel, args, hlaunch', hkernel, hargs, hresolve⟩
  · rw [hcheck] at hcheck'
    cases hcheck'
  · cases hlaunch.symm.trans hlaunch'
    obtain ⟨body, hbody, hcompiled⟩ := hm.exists_kernel hkernel
    have hcontains : ∀ a ∈ args, m.device.memory.contains a := by
      intro a ha
      have hmem : some a ∈ s.args.map m.buffers.get? := hargs ▸ List.mem_map_of_mem ha
      obtain ⟨name, -, hname⟩ := List.mem_map.mp hmem
      obtain ⟨b, hb, -⟩ := hm.exists_buffer hname
      exact Option.isSome_iff_exists.mpr ⟨b, hb⟩
    refine ⟨_, ?_, (Host.Memory.changedOnly_runAll args body launch.workItems _).shape, ?_⟩
    · rw [runFrom_dispatch, hresolve]
      exact runFrom_onDevice_eq_ok_iff.mpr
        ⟨_, Host.runKernel_eq hm.initialized hcompiled hvalid hcontains, rfl⟩
    · rw [Statement.effect, (Statement.launch_eq_ok_iff index s launch).mp hlaunch, hbody]
      exact body.runAll_agree (view_agree hm hargs) launch.workItems rfl

/-- Statements are carried out on the bound lists as the program means, up to
the first that is refused. -/
theorem runFrom_dispatchFrom (hm : Built p bodies p.sizes p.kernels m) (index : Nat)
    (statements : List Statement) :
    ∃ memory, (dispatchFrom index statements).runFrom m =
        ((p.interpret bodies index statements m.contents?).1, m.withMemory memory) ∧
      m.device.memory.SameShape memory ∧
      (m.withMemory memory).contents? = (p.interpret bodies index statements m.contents?).2 := by
  induction statements generalizing m index with
  | nil => exact ⟨m.device.memory, rfl, Host.Memory.SameShape.refl _, rfl⟩
  | cons s rest ih =>
      rw [dispatchFrom, runFrom_bind, interpret]
      cases haccept : p.accept index s with
      | error e =>
          rw [runFrom_dispatch_of_refused hm haccept]
          exact ⟨m.device.memory, rfl, Host.Memory.SameShape.refl _, rfl⟩
      | ok launch =>
          obtain ⟨memory, hrun, hshape, hcontents⟩ := runFrom_dispatch_of_accepted hm haccept
          obtain ⟨memory', hrun', hshape', hcontents'⟩ :=
            ih (hm.withMemory hshape.keeps) (index + 1)
          rw [hrun]
          rw [hcontents] at hrun' hcontents'
          exact ⟨memory', hrun', hshape.trans hshape', hcontents'⟩

/-! ## Runs -/

theorem sizes_inputKey (p : Program) : p.sizes.get? inputKey = some p.inputLength := by
  rw [sizes, Table.get?_insert, if_neg (by decide), Table.get?_insert, if_pos rfl]

theorem sizes_outputKey (p : Program) : p.sizes.get? outputKey = some p.outputLength := by
  rw [sizes, Table.get?_insert, if_pos rfl]

/-- Writing the input replaces the list of its key. -/
theorem runFrom_writeInput (hm : Built p bodies p.sizes p.kernels m) {input : List Single}
    (hlength : input.length = p.inputLength) {h : BufferHandle}
    (hkey : m.buffers.get? inputKey = some h) (wrap : DeviceError → Error) :
    ∃ memory, (onDevice (Device.writeBuffer h input) wrap).runFrom m =
        (.ok (), m.withMemory memory) ∧
      m.device.memory.SameShape memory ∧
      (m.withMemory memory).contents? = m.contents?.set inputKey input := by
  obtain ⟨h', b, hh, hb, hwhole, hsize⟩ := hm.holds inputKey _ (sizes_inputKey p)
  cases hkey.symm.trans hh
  have hfits := Host.Memory.fits_of_length_le hwhole (Nat.le_of_eq (hlength.trans hsize.symm))
  have hwrite := Host.Memory.write_eq_ok_iff.mpr ⟨b, hb, hfits, rfl⟩
  refine ⟨_, ?_, Host.Memory.sameShape_of_write hwrite hb hwhole, ?_⟩
  · refine runFrom_onDevice_eq_ok_iff.mpr ⟨_, ?_, rfl⟩
    have hrun := Host.runFrom_writeBuffer hm.initialized h input
    rw [hwrite] at hrun
    exact hrun
  · funext k
    rw [contents?_modify hm hkey, hb, Option.map_some,
      Host.Memory.toList_overwrite (hlength.trans hsize.symm)]
    rfl

/-- Reading the output gives the list of its key, which has the length that the
program says. -/
theorem runFrom_readOutput (hm : Built p bodies p.sizes p.kernels m) {h : BufferHandle}
    (hkey : m.buffers.get? outputKey = some h) (wrap : DeviceError → Error) :
    ∃ outputs, m.contents? outputKey = some outputs ∧
      (outputs.take p.outputLength).length = p.outputLength ∧
      (onDevice (Device.readBuffer h p.outputLength) wrap).runFrom m =
        (.ok (outputs.take p.outputLength), m) := by
  obtain ⟨h', b, hh, hb, hwhole, hsize⟩ := hm.holds outputKey _ (sizes_outputKey p)
  cases hkey.symm.trans hh
  have hfits := Host.Memory.fits_of_length_le hwhole (Nat.le_of_eq hsize.symm)
  have hread := Host.Memory.read_eq_ok_iff.mpr ⟨b, hb, hfits, rfl⟩
  refine ⟨b.contents.toList, ?_, ?_, ?_⟩
  · rw [contents?, hkey, Option.bind_some, hb, Option.map_some]
  · rw [List.length_take, Array.length_toList, hsize, Nat.min_self]
  · refine runFrom_onDevice_eq_ok_iff.mpr ⟨m.device, ?_, rfl⟩
    have hrun := Host.runFrom_readBuffer hm.initialized h p.outputLength
    rw [hread] at hrun
    exact hrun

/-- A run on an input of the right length does to the bound lists what the
program means, and gives the output or the error of the refused statement. -/
theorem runFrom_run_of_built (hm : Built p bodies p.sizes p.kernels m) (hready : m.phase = .ready)
    {input : List Single} (hlength : input.length = p.inputLength) :
    ∃ memory, ((run input).runFrom m).2 = m.withMemory memory ∧
      m.device.memory.SameShape memory ∧
      (m.withMemory memory).contents? =
        (p.interpret bodies 0 p.statements (m.contents?.set inputKey input)).2 ∧
      match (p.interpret bodies 0 p.statements (m.contents?.set inputKey input)).1 with
      | .error e => ((run input).runFrom m).1 = .error e
      | .ok () => ∃ outputs, (m.withMemory memory).contents? outputKey = some outputs ∧
          (outputs.take p.outputLength).length = p.outputLength ∧
          ((run input).runFrom m).1 = .ok (outputs.take p.outputLength) := by
  obtain ⟨source, _, hsource, -⟩ := hm.holds inputKey _ (sizes_inputKey p)
  obtain ⟨target, _, htarget, -⟩ := hm.holds outputKey _ (sizes_outputKey p)
  obtain ⟨written, hwrite, hshape, hcontents⟩ := runFrom_writeInput hm hlength hsource .device
  have hm₁ := hm.withMemory hshape.keeps
  obtain ⟨memory, hrun, hshape', hcontents'⟩ := runFrom_dispatchFrom hm₁ 0 p.statements
  have hm₂ := hm₁.withMemory hshape'.keeps
  obtain ⟨outputs, houtputs, hcount, hread⟩ := runFrom_readOutput hm₂ htarget .device
  rw [hcontents] at hrun hcontents'
  rw [runFrom_run hready (hm.program ▸ hlength) hsource htarget, hwrite]
  dsimp only
  rw [hm.program, hrun]
  refine ⟨memory, ?_, hshape.trans hshape', hcontents', ?_⟩
  · cases (p.interpret bodies 0 p.statements (m.contents?.set inputKey input)).1 with
    | error e => rfl
    | ok u =>
        dsimp only
        rw [hread]
        rfl
  · cases (p.interpret bodies 0 p.statements (m.contents?.set inputKey input)).1 with
    | error e => rfl
    | ok u =>
        dsimp only
        rw [hread]
        exact ⟨outputs, houtputs, hcount, rfl⟩

/-- Runs leave the buffers in place and do to the bound lists what they do to
named lists. -/
theorem afterRuns_of_built (hm : Built p bodies p.sizes p.kernels m) (hready : m.phase = .ready)
    (history : List (List Single)) :
    ∃ memory, m.afterRuns history = m.withMemory memory ∧ m.device.memory.SameShape memory ∧
      (m.withMemory memory).contents? = history.foldl (p.replay bodies) m.contents? := by
  induction history generalizing m with
  | nil => exact ⟨m.device.memory, rfl, Host.Memory.SameShape.refl _, rfl⟩
  | cons input history ih =>
      rw [afterRuns, List.foldl_cons, List.foldl_cons, replay]
      by_cases hlength : input.length = p.inputLength
      · obtain ⟨memory, hrun, hshape, hcontents, -⟩ := runFrom_run_of_built hm hready hlength
        obtain ⟨memory', hafter, hshape', hcontents'⟩ :=
          ih (hm.withMemory hshape.keeps) hready
        rw [if_pos hlength, hrun, ← hcontents]
        exact ⟨memory', hafter, hshape.trans hshape', hcontents'⟩
      · rw [if_neg hlength, runFrom_run_of_length_ne hready (hm.program ▸ hlength)]
        exact ih hm hready

/-- After a successful setup and any earlier runs, a run on an input of the right
length does what the program means on named lists, starting from the lists that
the earlier runs have left. Either all statements are carried out and the output
is read off its list, or the run fails with the error of the first refused
statement and has carried out exactly those in front of it. -/
theorem run_refines {weights : Weights.Store} {host : Host} {m₀ : Model Host}
    (hsetup : (setup weights).runFrom (Model.new host p) = (.ok (), m₀))
    (history : List (List Single)) {input : List Single} (hlength : input.length = p.inputLength) :
    let lists := history.foldl (p.replay host.registry) m₀.contents?
    let start := lists.set inputKey input
    let run := (run input).runFrom (m₀.afterRuns history)
    (∀ key, p.kernels.contains key → (host.registry.get? key).isSome) ∧
      (m₀.afterRuns history).contents? = lists ∧
      ((p.Accepts 0 p.statements ∧
          run.2.contents? = effect host.registry p.statements start ∧
          ∃ outputs, run.2.contents? outputKey = some outputs ∧
            (outputs.take p.outputLength).length = p.outputLength ∧
            run.1 = .ok (outputs.take p.outputLength)) ∨
        ∃ k s e, p.statements[k]? = some s ∧ p.accept k s = .error e ∧
          p.Accepts 0 (p.statements.take k) ∧ e.statement? = some k ∧ run.1 = .error e ∧
          run.2.contents? = effect host.registry (p.statements.take k) start) := by
  intro lists start run
  obtain ⟨hm, hready⟩ := built_of_setup hsetup
  obtain ⟨memory, hafter, hshape, hlists⟩ := afterRuns_of_built hm hready history
  have hlists : (m₀.afterRuns history).contents? = lists := by
    rw [hafter, hlists]
  have hm : Built p host.registry p.sizes p.kernels (m₀.afterRuns history) := by
    rw [hafter]
    exact hm.withMemory hshape.keeps
  have hready : (m₀.afterRuns history).phase = .ready := by
    rw [hafter]
    exact hready
  obtain ⟨memory', hrun, -, hcontents, hresult⟩ := runFrom_run_of_built hm hready hlength
  rw [hlists] at hcontents hresult
  rw [← hrun] at hcontents hresult
  refine ⟨fun key hkey => ?_, hlists, ?_⟩
  · obtain ⟨source, hsource⟩ := Option.isSome_iff_exists.mp hkey
    obtain ⟨_, body, -, hbody, -⟩ := hm.compiled key source hsource
    exact Option.isSome_iff_exists.mpr ⟨body, hbody⟩
  · rcases interpret_cases p host.registry 0 p.statements start with
      ⟨haccepts, hmeans⟩ | ⟨k, s, e, hs, he, haccepts, hmeans⟩
    · rw [hmeans] at hcontents hresult
      exact Or.inl ⟨haccepts, hcontents, hresult⟩
    · rw [hmeans] at hcontents hresult
      rw [Nat.zero_add] at he
      exact Or.inr ⟨k, s, e, hs, he, haccepts, statement?_of_accept he, hresult, hcontents⟩

/-- Copies the first argument to the second, element by element. -/
def copyBody : Kernel.Body := fun item =>
  .load 0 (item.globalId 0).toNat fun x =>
    .store 1 (item.globalId 0).toNat (x.getD Single.zero) (.done ())

/-- Copies an input of two elements to the output. -/
def copyProgram : Program where
  backendTag := supportedTag
  input := ⟨inputKey, 2, none, none⟩
  output := ⟨outputKey, 2, none, none⟩
  buffers := .empty
  kernels := Table.empty.insert "copy" "copy"
  statements := [⟨"copy", [inputKey, outputKey], [1], [2]⟩]

/-- The copying program, set up on a host of its own. -/
def copyModel : Except Error Unit × Model Host :=
  (setup ⟨⟨.empty, .empty⟩, []⟩).runFrom
    (Model.new ((Host.new 4096).register "copy" copyBody) copyProgram)

theorem run_refines_copyProgram :
    copyModel.1 = .ok () ∧ [(⟨5⟩ : Single), ⟨6⟩].length = copyProgram.inputLength ∧
      ((run [⟨5⟩, ⟨6⟩]).runFrom (copyModel.2.afterRuns [[⟨1⟩], [⟨3⟩, ⟨4⟩]])).1 =
        .ok [⟨5⟩, ⟨6⟩] := by
  have hsetup : copyModel = (.ok (), copyModel.2) := rfl
  have hlength : [(⟨5⟩ : Single), ⟨6⟩].length = copyProgram.inputLength := rfl
  obtain ⟨-, -, ⟨-, hcontents, outputs, houtputs, -, hrun⟩ | ⟨k, s, e, hs, he, -⟩⟩ :=
    run_refines hsetup [[⟨1⟩], [⟨3⟩, ⟨4⟩]] hlength
  · refine ⟨rfl, hlength, hrun.trans ?_⟩
    rw [hcontents] at houtputs
    cases houtputs
    rfl
  · cases k with
    | zero =>
        cases hs
        cases he
    | succ k => cases hs

end Model

end NetReplay
