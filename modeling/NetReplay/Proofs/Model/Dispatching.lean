import Mathlib.Data.List.Forall2
import NetReplay.Proofs.Model.Conversation
import NetReplay.Proofs.Model.Resolve

/-!
# The conversation of a run

A run writes the input, dispatches the statements in order and reads the output,
and each of these calls can be the last (`RunTalk`). Which statements are
dispatched is decided by two things alone: the check of a statement against the
program, and what the device answers (`runs_run`).
-/

namespace NetReplay

/-- Calls that were all carried out. -/
def Conversation.done (calls : List DeviceCall) : List Exchange :=
  calls.map fun call => ⟨call, .ok .done⟩

namespace Model

open ModelM Program

variable {σ : Type}

/-- The call dispatches a statement: the handle of its kernel, its launch, and the
handles of its arguments in their order. -/
def Dispatches (m : Model σ) (s : Statement) (call : DeviceCall) : Prop :=
  ∃ launch kernel args, s.launch? = some launch ∧ m.kernels.get? s.kernel = some kernel ∧
    s.args.map m.buffers.get? = args.map some ∧ call = .runKernel kernel launch args

/-- How the statements of a program are carried out from a given position on, and
with what result: all of them, or those in front of the first that fails its
check or is turned down by the device. The calls are those that `dispatches`
allows for the statements, one for each and in their order. -/
inductive DispatchTalk (p : Program) (dispatches : Statement → DeviceCall → Prop) (index : Nat)
    (statements : List Statement) : List Exchange → Except Error Unit → Prop
  | finished {calls : List DeviceCall} (hcalls : List.Forall₂ dispatches statements calls) :
      DispatchTalk p dispatches index statements (Conversation.done calls) (.ok ())
  | unresolved {k : Nat} {s : Statement} {e : Error} {calls : List DeviceCall}
      (hs : statements[k]? = some s) (he : p.checkStatement (index + k) s = .error e)
      (hcalls : List.Forall₂ dispatches (statements.take k) calls) :
      DispatchTalk p dispatches index statements (Conversation.done calls) (.error e)
  | failed {k : Nat} {s : Statement} {call : DeviceCall} {cause : DeviceError}
      {calls : List DeviceCall} (hs : statements[k]? = some s) (hcall : dispatches s call)
      (hcalls : List.Forall₂ dispatches (statements.take k) calls) :
      DispatchTalk p dispatches index statements
        (Conversation.done calls ++ [⟨call, .error cause⟩])
        (.error (.kernelDispatchFailed (index + k) s.kernel cause))

/-- How a run with an input of the right length goes, and with what result. -/
inductive RunTalk (m : Model σ) (input : List Single) :
    List Exchange → Except Error (List Single) → Prop
  /-- The device does not take the input. -/
  | writeFailed {source : BufferHandle} {cause : DeviceError}
      (hsource : m.buffers.get? inputKey = some source) :
      RunTalk m input [⟨.writeBuffer source input, .error cause⟩] (.error (.device cause))
  /-- A statement fails, by its check or on the device. -/
  | dispatchFailed {source : BufferHandle} {talk : List Exchange} {e : Error}
      (hsource : m.buffers.get? inputKey = some source)
      (htalk : DispatchTalk m.program m.Dispatches 0 m.program.statements talk (.error e)) :
      RunTalk m input (⟨.writeBuffer source input, .ok .done⟩ :: talk) (.error e)
  /-- All statements were dispatched, and the output is read or cannot be. -/
  | finished {source target : BufferHandle} {talk : List Exchange}
      {outputs : Except DeviceError (List Single)}
      (hsource : m.buffers.get? inputKey = some source)
      (htarget : m.buffers.get? outputKey = some target)
      (htalk : DispatchTalk m.program m.Dispatches 0 m.program.statements talk (.ok ())) :
      RunTalk m input
        (⟨.writeBuffer source input, .ok .done⟩ :: (talk ++
          [⟨.readBuffer target m.program.outputLength, outputs.map .values⟩]))
        (outputs.mapError .device)

/-! ## Statements -/

section

variable [Device σ] {p : Program} {m : Model σ}

/-- Dispatches a statement that was resolved. -/
def launchResolved (index : Nat) (s : Statement) (t : Launch × KernelHandle × List BufferHandle) :
    ModelM σ Unit :=
  onDevice (Device.runKernel t.2.1 t.1 t.2.2) (.kernelDispatchFailed index s.kernel)

theorem runs_dispatch_of_resolved {index : Nat} {s : Statement} {talk : List Exchange}
    {r : Except Error Unit} {n : Model σ}
    (h : Runs (ofExcept (m.resolve index s) >>= launchResolved index s)
      (ofExcept (m.resolve index s) >>= launchResolved index s) m talk r n) :
    Runs (dispatch index s) (dispatch index s) m talk r n :=
  Runs.get_bind (fun _ => rfl) h

/-- A statement that fails its check leaves the device alone, and any other is one
call, which is answered or turned down. -/
theorem runs_dispatch (hm : m.Knows p) (index : Nat) (s : Statement) :
    (∃ e, p.checkStatement index s = .error e ∧
        Runs (dispatch index s) (dispatch index s) m [] (.error e) m) ∨
      ∃ call, m.Dispatches s call ∧
        ((∃ device, Runs (dispatch index s) (dispatch index s) m [⟨call, .ok .done⟩] (.ok ())
            { m with device }) ∨
          ∃ cause device, Runs (dispatch index s) (dispatch index s) m [⟨call, .error cause⟩]
            (.error (.kernelDispatchFailed index s.kernel cause)) { m with device }) := by
  have hresolved := Runs.ofExcept (m.resolve index s) m
  obtain ⟨e, hcheck, hresolve⟩ | ⟨-, launch, kernel, args, hlaunch, hkernel, hargs, hresolve⟩ :=
    resolve_of_check hm index s
  · refine Or.inl ⟨e, hcheck, runs_dispatch_of_resolved ?_⟩
    rw [hresolve] at hresolved ⊢
    exact hresolved.bind_error
  · rw [Statement.launch_eq_ok_iff] at hlaunch
    refine Or.inr ⟨_, ⟨launch, kernel, args, hlaunch, hkernel, hargs, rfl⟩, ?_⟩
    rw [hresolve] at hresolved
    refine (Runs.onDevice_cases (DeviceCall.perform_runKernel kernel launch args)
      (.kernelDispatchFailed index s.kernel) m).imp ?_ ?_
    · rintro ⟨_, device, h⟩
      refine ⟨device, runs_dispatch_of_resolved ?_⟩
      rw [hresolve]
      exact hresolved.bind h
    · rintro ⟨cause, device, h⟩
      refine ⟨cause, device, runs_dispatch_of_resolved ?_⟩
      rw [hresolve]
      exact hresolved.bind h

theorem DispatchTalk.cons {dispatches : Statement → DeviceCall → Prop} {index : Nat}
    {s : Statement} {call : DeviceCall} (hcall : dispatches s call)
    {statements : List Statement} {talk : List Exchange} {r : Except Error Unit}
    (h : DispatchTalk p dispatches (index + 1) statements talk r) :
    DispatchTalk p dispatches index (s :: statements) (⟨call, .ok .done⟩ :: talk) r := by
  cases h with
  | @finished calls hcalls =>
      have hall : List.Forall₂ dispatches (s :: statements) (call :: calls) :=
        .cons hcall hcalls
      exact .finished hall
  | @unresolved k t e calls hs he hcalls =>
      have hall : List.Forall₂ dispatches ((s :: statements).take (k + 1)) (call :: calls) :=
        .cons hcall hcalls
      have hs' : (s :: statements)[k + 1]? = some t := hs
      rw [Nat.add_assoc, Nat.add_comm 1] at he
      exact .unresolved hs' he hall
  | @failed k t last cause calls hs hlast hcalls =>
      have hall : List.Forall₂ dispatches ((s :: statements).take (k + 1)) (call :: calls) :=
        .cons hcall hcalls
      have hs' : (s :: statements)[k + 1]? = some t := hs
      rw [Nat.add_assoc, Nat.add_comm 1]
      exact .failed hs' hlast hall

/-- Statements are dispatched up to the first that fails. -/
theorem runs_dispatchFrom (hm : m.Knows p) (index : Nat) (statements : List Statement) :
    ∃ talk r device,
      Runs (dispatchFrom index statements) (dispatchFrom index statements) m talk r
        { m with device } ∧
      DispatchTalk p m.Dispatches index statements talk r := by
  induction statements generalizing index m with
  | nil => exact ⟨[], .ok (), m.device, Runs.pure () m, .finished .nil⟩
  | cons s statements ih =>
      obtain ⟨e, hcheck, hfirst⟩ |
        ⟨call, hcall, ⟨device, hfirst⟩ | ⟨cause, device, hfirst⟩⟩ := runs_dispatch hm index s
      · exact ⟨[], .error e, m.device, hfirst.bind_error,
          .unresolved (k := 0) rfl hcheck .nil⟩
      · obtain ⟨talk, r, after, hrest, htalk⟩ :=
          ih (m := { m with device }) ⟨hm.buffers, hm.kernels⟩ (index + 1)
        exact ⟨⟨call, .ok .done⟩ :: talk, r, after, hfirst.bind hrest, htalk.cons hcall⟩
      · exact ⟨[⟨call, .error cause⟩], .error _, device, hfirst.bind_error,
          .failed (k := 0) rfl hcall .nil⟩

end

/-! ## Runs -/

section

variable [Device σ] {m : Model σ}

/-- What a run does once its buffers are known. -/
def runWith (source target : BufferHandle) (statements : List Statement) (outputLength : Nat)
    (input : List Single) : ModelM σ (List Single) := do
  onDevice (Device.writeBuffer source input) .device
  dispatchFrom 0 statements
  onDevice (Device.readBuffer target outputLength) .device

theorem runFrom_run_eq_runWith (hready : m.phase = .ready) {input : List Single}
    (hlength : input.length = m.program.inputLength) {source target : BufferHandle}
    (hsource : m.buffers.get? inputKey = some source)
    (htarget : m.buffers.get? outputKey = some target) :
    (run input).runFrom m =
      (runWith source target m.program.statements m.program.outputLength input).runFrom m := by
  rw [runFrom_run hready hlength hsource htarget, runWith, runFrom_bind]
  rcases (onDevice (Device.writeBuffer source input) Error.device).runFrom m with ⟨e | _, n⟩
  · rfl
  · dsimp only
    rw [runFrom_bind]
    rcases (dispatchFrom 0 m.program.statements).runFrom n with ⟨e | _, k⟩
    · rfl
    · rfl

theorem runFrom_run_of_phase_ne (hphase : m.phase ≠ .ready) (input : List Single) :
    (run input).runFrom m = (.error (.invalidState .ready m.phase), m) := by
  rw [run, runFrom_bind, runFrom_expectPhase, if_neg hphase]

/-- A model that is not ready leaves the device alone. -/
theorem runs_run_of_phase (hphase : m.phase ≠ .ready) (input : List Single) :
    Runs (run input) (run input) m [] (.error (.invalidState .ready m.phase)) m where
  plain := runFrom_run_of_phase_ne hphase input
  recorded log := by
    have hrecorded : (m.recorded log).phase ≠ .ready := hphase
    rw [runFrom_run_of_phase_ne hrecorded, List.map_nil, List.append_nil]
    rfl
  holds := Conversation.holds_nil m.device

/-- An input of another length never reaches the device. -/
theorem runs_run_of_length (hready : m.phase = .ready) {input : List Single}
    (hlength : input.length ≠ m.program.inputLength) :
    Runs (run input) (run input) m []
      (.error (.inputLength m.program.inputLength input.length)) m where
  plain := runFrom_run_of_length_ne hready hlength
  recorded log := by
    have hrecorded : (m.recorded log).phase = .ready := hready
    rw [runFrom_run_of_length_ne hrecorded hlength, List.map_nil, List.append_nil]
    rfl
  holds := Conversation.holds_nil m.device

/-- A run with an input of the right length goes as `RunTalk` tells, and leaves all
but the device as it was. -/
theorem runs_run (hm : m.Knows m.program) (hready : m.phase = .ready) {input : List Single}
    (hlength : input.length = m.program.inputLength) :
    ∃ talk r device, Runs (run input) (run input) m talk r { m with device } ∧
      RunTalk m input talk r := by
  obtain ⟨source, hsource⟩ : ∃ source, m.buffers.get? inputKey = some source :=
    Option.isSome_iff_exists.mp (hm.buffers inputKey)
  obtain ⟨target, htarget⟩ : ∃ target, m.buffers.get? outputKey = some target :=
    Option.isSome_iff_exists.mp (hm.buffers outputKey)
  have hrun : ∀ {talk r n}, Runs (runWith source target m.program.statements
      m.program.outputLength input) (runWith source target m.program.statements
      m.program.outputLength input) m talk r n → Runs (run input) (run input) m talk r n :=
    Runs.congr (runFrom_run_eq_runWith hready hlength hsource htarget)
      fun log => runFrom_run_eq_runWith (m := m.recorded log) hready hlength hsource htarget
  obtain ⟨_, device, hwrite⟩ | ⟨cause, device, hwrite⟩ :=
    Runs.onDevice_cases (DeviceCall.perform_writeBuffer source input) .device m
  · obtain ⟨talk, r, after, hdispatch, htalk⟩ :=
      runs_dispatchFrom (m := { m with device }) ⟨hm.buffers, hm.kernels⟩ 0 m.program.statements
    cases r with
    | error e =>
        exact ⟨_, .error e, after, hrun (hwrite.bind hdispatch.bind_error),
          .dispatchFailed hsource htalk⟩
    | ok u =>
        have hread := Runs.onDevice
          (DeviceCall.perform_readBuffer target m.program.outputLength) .device
          { m with device := after }
        exact ⟨_, _, _, hrun (hwrite.bind (hdispatch.bind hread)),
          .finished hsource htarget htalk⟩
  · exact ⟨_, _, device, hrun hwrite.bind_error, .writeFailed hsource⟩

end

end Model

end NetReplay
