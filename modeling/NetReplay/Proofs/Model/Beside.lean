import NetReplay.Proofs.Host.Effect
import NetReplay.Proofs.Launch.Groups
import NetReplay.Proofs.Model.Validation

/-!
# Runs beside other clones

A model that was set up shares its memory with whatever clones of its host there are.
These can create buffers of their own and change the values of those of the model,
but none of the handles that the model holds becomes invalid, and no buffer changes
its size (`Company.built_step`). So a run fails for what can be read off the program
and for nothing else (`run_fails_for_program`): an input of another length, a
statement that fails its check, or a launch of no use.
-/

namespace NetReplay

namespace Program

/-- The statement has a launch, and one that can be used. -/
def Statement.Launches (s : Statement) : Prop :=
  ∃ launch, s.launch? = some launch ∧ launch.validate = .ok ()

/-- Why the statement at a given position is refused: it fails its check, or the groups
of its launch do not fit. -/
inductive Refuses (p : Program) (k : Nat) (s : Statement) : Error → Prop
  | check {e : Error} (he : p.checkStatement k s = .error e) : Refuses p k s e
  | launch {launch : Launch} {dim : Fin 3} (hcheck : p.checkStatement k s = .ok ())
      (hlaunch : s.launch? = some launch) (hmisfit : launch.Misfit dim)
      (hvalidate : launch.validate =
        .error (.invalidWorkSize dim (launch.items.get dim) (launch.groupSize.get dim))) :
      Refuses p k s (.kernelDispatchFailed k s.kernel (.dispatchFailed s.kernel
        (DeviceError.invalidWorkSize dim (launch.items.get dim)
          (launch.groupSize.get dim)).message))

variable {p : Program}

theorem refuses_of_accept {k : Nat} {s : Statement} {e : Error} (h : p.accept k s = .error e) :
    p.Refuses k s e := by
  rcases accept_eq_error_cases h with hcheck | ⟨launch, cause, hcheck, hlaunch, hvalidate, rfl⟩
  · exact .check hcheck
  · obtain ⟨dim, hmisfit, -, rfl⟩ := (Launch.validate_eq_error_iff launch cause).mp hvalidate
    exact .launch hcheck ((s.launch_eq_ok_iff k launch).mp hlaunch) hmisfit hvalidate

/-- A statement that is refused does not both pass its check and launch. -/
theorem Refuses.not_fine {k : Nat} {s : Statement} {e : Error} (h : p.Refuses k s e) :
    ¬ (p.checkStatement k s = .ok () ∧ s.Launches) := by
  rintro ⟨hcheck, launch, hlaunch, hvalidate⟩
  cases h with
  | check he => exact absurd (hcheck.symm.trans he) (by simp)
  | launch _ hlaunch' _ hvalidate' =>
      cases hlaunch.symm.trans hlaunch'
      exact absurd (hvalidate.symm.trans hvalidate') (by simp)

/-- A statement is refused for a reference or for its launch. -/
theorem Refuses.source {k : Nat} {s : Statement} {e : Error} (h : p.Refuses k s e) :
    (∀ source, e ≠ .device source) ∧ (∀ expected actual, e ≠ .invalidState expected actual) ∧
      (∀ expected actual, e ≠ .inputLength expected actual) ∧
      ∀ source, e.deviceSource? = some source →
        ∃ kernel reason, source = .dispatchFailed kernel reason := by
  cases h with
  | check he =>
      rcases checkStatement_eq_error_cases he with ⟨_, rfl⟩ | rfl | ⟨_, rfl⟩
      all_goals simp [Error.deviceSource?]
  | launch => simp [Error.deviceSource?]

/-- All statements are accepted when each passes its check and has a launch that can
be used. -/
theorem accepts_iff (p : Program) (index : Nat) (statements : List Statement) :
    p.Accepts index statements ↔ ∀ k s, statements[k]? = some s →
      p.checkStatement (index + k) s = .ok () ∧ s.Launches := by
  have haccept : ∀ index s, (∃ launch, p.accept index s = .ok launch) ↔
      p.checkStatement index s = .ok () ∧ s.Launches := by
    intro index s
    simp only [accept_eq_ok_iff, Statement.launch_eq_ok_iff, exists_and_left, Statement.Launches]
  induction statements generalizing index with
  | nil => simp [Accepts]
  | cons s statements ih =>
      rw [Accepts, haccept]
      refine (and_congr_right' (ih (index + 1))).trans ?_
      constructor
      · rintro ⟨hfirst, hrest⟩ k t ht
        cases k with
        | zero =>
            cases ht
            exact hfirst
        | succ k =>
            rw [← Nat.add_assoc, Nat.add_right_comm]
            exact hrest k t ht
      · intro hall
        refine ⟨hall 0 s rfl, fun k t ht => ?_⟩
        rw [Nat.add_right_comm, Nat.add_assoc]
        exact hall (k + 1) t ht

theorem checkReferences_eq_ok_iff (p : Program) :
    p.checkReferences = .ok () ↔
      ∀ k s, p.statements[k]? = some s → p.checkStatement k s = .ok () := by
  rw [checkReferences]
  rcases checkFrom_cases p 0 p.statements with ⟨hok, hall⟩ | ⟨k, s, e, herror, hs, he, -⟩
  · simp only [Nat.zero_add] at hall
    exact iff_of_true hok hall
  · rw [Nat.zero_add] at he
    rw [herror]
    simp only [reduceCtorEq, false_iff]
    intro hall
    rw [hall k s hs] at he
    cases he

/-- A program is accepted when its references are fine and all launches can be used. -/
theorem accepts_statements_iff (p : Program) :
    p.Accepts 0 p.statements ↔ p.checkReferences = .ok () ∧ ∀ s ∈ p.statements, s.Launches := by
  rw [accepts_iff, checkReferences_eq_ok_iff]
  simp only [Nat.zero_add]
  constructor
  · intro hall
    refine ⟨fun k s hs => (hall k s hs).1, fun s hs => ?_⟩
    obtain ⟨k, hk⟩ := List.mem_iff_getElem?.mp hs
    exact (hall k s hk).2
  · exact fun hall k s hs => ⟨hall.1 k s hs, hall.2 s (List.mem_of_getElem? hs)⟩

end Program

namespace Model

open Program

variable {p : Program} {bodies : Table Kernel.Body} {m : Model Host}

/-! ## Other clones -/

/-- A model together with the other clones of its host. -/
structure Company where
  model : Model Host
  others : List Host.Local

/-- Something is asked of the model, or happens to the other clones. -/
inductive Company.Event where
  | ask (request : Request)
  | beside (op : Host.Family.Operation)

namespace Company

/-- The other clones, with the memory that they share with the model. -/
def family (c : Company) : Host.Family := ⟨c.others, c.model.device.memory⟩

def step (c : Company) : Event → Company
  | .ask request => { c with model := c.model.step request }
  | .beside op => ⟨c.model.withMemory (c.family.step op).memory, (c.family.step op).clones⟩

/-- The company after events, one after the other. -/
def after (c : Company) (events : List Event) : Company := events.foldl step c

end Company

/-- A model that was set up stays so, whatever is asked of it. -/
theorem built_step (hm : Built p bodies p.sizes p.kernels m) (hready : m.phase = .ready)
    (request : Request) :
    Built p bodies p.sizes p.kernels (m.step request) ∧ (m.step request).phase = .ready := by
  cases request with
  | setup weights =>
      have hother : m.phase ≠ .unconfigured := by simp [hready]
      rw [step, (runs_setup_of_phase weights hother).plain]
      exact ⟨hm, hready⟩
  | run input =>
      rw [step]
      by_cases hlength : input.length = p.inputLength
      · obtain ⟨memory, hrun, hshape, -⟩ := runFrom_run_of_built hm hready hlength
        rw [hrun]
        exact ⟨hm.withMemory hshape.keeps, hready⟩
      · rw [runFrom_run_of_length_ne hready (hm.program ▸ hlength)]
        exact ⟨hm, hready⟩

/-- Nothing that happens beside a model takes its buffers and kernels away. -/
theorem Company.built_step {c : Company} (hm : Built p bodies p.sizes p.kernels c.model)
    (hready : c.model.phase = .ready) (event : Event) :
    Built p bodies p.sizes p.kernels (c.step event).model ∧
      (c.step event).model.phase = .ready := by
  cases event with
  | ask request => exact Model.built_step hm hready request
  | beside op =>
      have hkeeps := (c.family.happens_step op).keepsWhole
      exact ⟨hm.withMemory_of_keepsWhole hkeeps, hready⟩

theorem Company.built_after {c : Company} (hm : Built p bodies p.sizes p.kernels c.model)
    (hready : c.model.phase = .ready) (events : List Event) :
    Built p bodies p.sizes p.kernels (c.after events).model ∧
      (c.after events).model.phase = .ready := by
  induction events generalizing c with
  | nil => exact ⟨hm, hready⟩
  | cons event events ih =>
      obtain ⟨hm, hready⟩ := built_step hm hready event
      exact ih hm hready

/-! ## How runs fail -/

/-- A run on an input of the right length ends as its statements say. -/
theorem run_cases_of_built (hm : Built p bodies p.sizes p.kernels m) (hready : m.phase = .ready)
    {input : List Single} (hlength : input.length = p.inputLength) :
    (p.Accepts 0 p.statements ∧ ∃ outputs, ((run input).runFrom m).1 = .ok outputs) ∨
      ∃ k s e, p.statements[k]? = some s ∧ p.Accepts 0 (p.statements.take k) ∧
        p.Refuses k s e ∧ ((run input).runFrom m).1 = .error e := by
  obtain ⟨memory, -, -, -, hresult⟩ := runFrom_run_of_built hm hready hlength
  rcases interpret_cases p bodies 0 p.statements (m.contents?.set inputKey input) with
    ⟨haccepts, hmeans⟩ | ⟨k, s, e, hs, he, haccepts, hmeans⟩
  · rw [hmeans] at hresult
    obtain ⟨outputs, -, -, hrun⟩ := hresult
    exact Or.inl ⟨haccepts, _, hrun⟩
  · rw [hmeans] at hresult
    rw [Nat.zero_add] at he
    exact Or.inr ⟨k, s, e, hs, haccepts, refuses_of_accept he, hresult⟩

/-- After a successful setup, and whatever else was asked of the model or of the other
clones of its host, a run fails for what can be read off the program. An input of
another length is refused as such. Any other run succeeds exactly when the references
of the program are fine and all launches can be used; otherwise it fails for the first
statement that is refused. It never fails for a device, for a phase, or for anything
that a dispatch could be turned down for but its launch. -/
theorem run_fails_for_program {weights : Weights.Store} {host : Host} {m₀ : Model Host}
    (hsetup : (setup weights).runFrom (Model.new host p) = (.ok (), m₀))
    (others : List Host.Local) (events : List Company.Event) (input : List Single) :
    let result := ((run input).runFrom ((Company.mk m₀ others).after events).model).1
    (input.length ≠ p.inputLength → result = .error (.inputLength p.inputLength input.length)) ∧
      (∀ expected actual, result = .error (.inputLength expected actual) →
        input.length ≠ p.inputLength) ∧
      (input.length = p.inputLength →
        ((∃ outputs, result = .ok outputs) ↔
          p.checkReferences = .ok () ∧ ∀ s ∈ p.statements, s.Launches) ∧
        ∀ e, result = .error e → ∃ k s, p.statements[k]? = some s ∧
          (∀ j < k, ∀ t, p.statements[j]? = some t →
            p.checkStatement j t = .ok () ∧ t.Launches) ∧ p.Refuses k s e) ∧
      ∀ e, result = .error e → (∀ source, e ≠ .device source) ∧
        (∀ expected actual, e ≠ .invalidState expected actual) ∧
        ∀ source, e.deviceSource? = some source →
          ∃ kernel reason, source = .dispatchFailed kernel reason := by
  intro result
  obtain ⟨hm, hready⟩ := built_of_setup hsetup
  obtain ⟨hm, hready⟩ := Company.built_after (c := ⟨m₀, others⟩) hm hready events
  by_cases hlength : input.length = p.inputLength
  · rcases run_cases_of_built hm hready hlength with
      ⟨haccepts, outputs, hrun⟩ | ⟨k, s, e, hs, haccepts, hrefuses, hrun⟩
    · have hresult : result = .ok outputs := hrun
      rw [hresult]
      exact ⟨fun hne => absurd hlength hne, by simp,
        fun _ => ⟨iff_of_true ⟨_, rfl⟩ (p.accepts_statements_iff.mp haccepts), by simp⟩, by simp⟩
    · have hresult : result = .error e := hrun
      have hfirst : ¬ p.Accepts 0 p.statements := by
        intro hall
        have hfine := (p.accepts_iff 0 p.statements).mp hall k s hs
        rw [Nat.zero_add] at hfine
        exact hrefuses.not_fine hfine
      obtain ⟨hdevice, hstate, hinput, hsource⟩ := hrefuses.source
      rw [hresult]
      refine ⟨fun hne => absurd hlength hne, ?_, fun _ => ⟨?_, ?_⟩, ?_⟩
      · intro expected actual herror
        exact absurd (Except.error.inj herror) (hinput expected actual)
      · rw [← p.accepts_statements_iff]
        exact iff_of_false (by simp) hfirst
      · rintro d ⟨⟩
        refine ⟨k, s, hs, fun j hj t ht => ?_, hrefuses⟩
        have hfront := (p.accepts_iff 0 (p.statements.take k)).mp haccepts j t
        rw [List.getElem?_take_of_lt hj, Nat.zero_add] at hfront
        exact hfront ht
      · rintro d ⟨⟩
        exact ⟨hdevice, hstate, hsource⟩
  · have hresult : result = .error (.inputLength p.inputLength input.length) := by
      have hrun := runFrom_run_of_length_ne hready (hm.program ▸ hlength)
      rw [hm.program] at hrun
      exact congrArg Prod.fst hrun
    rw [hresult]
    exact ⟨fun _ => rfl, fun _ _ _ => hlength, fun heq => absurd heq hlength, by
      simp [Error.deviceSource?]⟩

/-- Another clone creates a buffer and writes over the input, before and after a run. -/
def besideCopying : List Company.Event :=
  [.beside (.call 0 (.createBuffer 4 true)), .ask (.run [⟨3⟩, ⟨4⟩]),
    .beside (.call 0 (.writeBuffer ⟨1⟩ [⟨9⟩]))]

theorem run_fails_for_program_besideCopying :
    copyModel.1 = .ok () ∧ ∃ outputs, ((run [⟨5⟩, ⟨6⟩]).runFrom
      ((Company.mk copyModel.2 [⟨true, .empty, []⟩]).after besideCopying).model).1 =
        .ok outputs := by
  have hsetup : copyModel = (.ok (), copyModel.2) := rfl
  have hlength : [(⟨5⟩ : Single), ⟨6⟩].length = copyProgram.inputLength := rfl
  have hlaunches : ∀ s ∈ copyProgram.statements, s.Launches := by
    intro s hs
    rw [List.mem_singleton.mp hs]
    exact ⟨_, rfl, (Launch.validate_eq_ok_iff _).mpr (by decide)⟩
  obtain ⟨-, -, hends, -⟩ :=
    run_fails_for_program hsetup [⟨true, .empty, []⟩] besideCopying [⟨5⟩, ⟨6⟩]
  exact ⟨rfl, (hends hlength).1.mpr ⟨rfl, hlaunches⟩⟩

end Model

end NetReplay
