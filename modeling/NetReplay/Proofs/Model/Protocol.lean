import NetReplay.Proofs.Model.Dispatching
import NetReplay.Proofs.Model.Provisioning

/-!
# The protocol of a model

Whatever is asked of a model, in any order, it passes through its phases at most
once (`Stage`): the first setup makes it ready or faulted, and nothing else does
anything to its phase. A request is refused without a word to the device, or it
goes as the phase and the program say (`SetupGoes`, `RunGoes`). This holds for
every device and whatever it answers (`Model.phase_and_requests_after`). The stages do
not depend on the device, so others may reach it in between (`Model.stage_used`).
-/

namespace NetReplay

namespace Model

open ModelM

variable {σ : Type} [Device σ]

/-- What can be asked of a model. -/
inductive Request where
  | setup (weights : Weights.Store)
  | run (input : List Single)

/-- The model that a request leaves behind, whatever its result. -/
def step (m : Model σ) : Request → Model σ
  | .setup weights => ((setup weights).runFrom m).2
  | .run input => ((run input).runFrom m).2

/-- The model after requests, one after the other. -/
def after (m : Model σ) (history : List Request) : Model σ := history.foldl step m

/-- How a setup goes: what is said to the device, the result, and the model left
behind. -/
inductive SetupGoes (p : Program) (weights : Weights.Store) (m : Model σ) :
    List Exchange → Except Error Unit → Model σ → Prop
  | refused (hphase : m.phase ≠ .unconfigured) :
      SetupGoes p weights m [] (.error (.invalidState .unconfigured m.phase)) m
  | ready {talk : List Exchange} {n : Model σ} (hphase : m.phase = .unconfigured)
      (hprovisioned : Provisioned weights p talk n.buffers n.kernels)
      (hready : n.phase = .ready) : SetupGoes p weights m talk (.ok ()) n
  | faulted {talk : List Exchange} {e : Error} {n : Model σ} (hphase : m.phase = .unconfigured)
      (htalk : FailedTalk talk) (hfaulted : n.phase = .faulted) :
      SetupGoes p weights m talk (.error e) n

/-- How a run goes: what is said to the device, the result, and the model left
behind, in which only the device has changed. -/
inductive RunGoes (p : Program) (input : List Single) (m : Model σ) :
    List Exchange → Except Error (List Single) → Model σ → Prop
  | refused (hphase : m.phase ≠ .ready) :
      RunGoes p input m [] (.error (.invalidState .ready m.phase)) m
  | misfit (hphase : m.phase = .ready) (hlength : input.length ≠ p.inputLength) :
      RunGoes p input m [] (.error (.inputLength p.inputLength input.length)) m
  | talks {talk : List Exchange} {r : Except Error (List Single)} {device : σ}
      (hphase : m.phase = .ready) (hlength : input.length = p.inputLength)
      (hprogram : m.program = p) (htalk : RunTalk m input talk r) :
      RunGoes p input m talk r { m with device }

/-- How far a model of a program has come after some requests. -/
inductive Stage (p : Program) (history : List Request) (m : Model σ) : Prop
  | unconfigured (hphase : m.phase = .unconfigured) (hprogram : m.program = p)
      (hbuffers : m.buffers = .empty) (hkernels : m.kernels = .empty)
      (hhistory : ∀ weights, .setup weights ∉ history)
  | ready (hphase : m.phase = .ready) (hprogram : m.program = p) {weights : Weights.Store}
      {talk : List Exchange} (hhistory : .setup weights ∈ history)
      (hprovisioned : Provisioned weights p talk m.buffers m.kernels)
  | faulted (hphase : m.phase = .faulted) {weights : Weights.Store}
      (hhistory : .setup weights ∈ history)

/-! ## Single requests -/

section

variable {p : Program} {history : List Request} {m : Model σ}

/-- A setup that is tried for the first time goes through, as far as the device
and the weights let it. -/
theorem goes_setup_of_stage (h : Stage p history m) (weights : Weights.Store) :
    ∃ talk r n, Runs (setup weights) (setup weights) m talk r n ∧
      SetupGoes p weights m talk r n ∧ Stage p (history ++ [.setup weights]) n := by
  have hhistory : Request.setup weights ∈ history ++ [.setup weights] := by simp
  cases h with
  | unconfigured hphase hprogram hbuffers hkernels =>
      obtain ⟨talk, n, hprovisioned, hkept, hruns⟩ | ⟨talk, e, n, htalk, hruns⟩ :=
        runs_provision weights hbuffers hkernels
      · rw [hprogram] at hprovisioned hkept
        exact ⟨talk, .ok (), _, runs_setup hphase hruns, .ready hphase hprovisioned rfl,
          .ready rfl hkept hhistory hprovisioned⟩
      · exact ⟨talk, .error e, _, runs_setup hphase hruns, .faulted hphase htalk rfl,
          .faulted rfl hhistory⟩
  | ready hphase hprogram _ hprovisioned =>
      have hother : m.phase ≠ .unconfigured := by simp [hphase]
      exact ⟨[], _, m, runs_setup_of_phase weights hother, .refused hother,
        .ready hphase hprogram (List.mem_append_left _ ‹_›) hprovisioned⟩
  | faulted hphase hsetup =>
      have hother : m.phase ≠ .unconfigured := by simp [hphase]
      exact ⟨[], _, m, runs_setup_of_phase weights hother, .refused hother,
        .faulted hphase (List.mem_append_left _ hsetup)⟩

/-- A run changes nothing but the device, and goes as the phase and the program
say. -/
theorem goes_run_of_stage (h : Stage p history m) (input : List Single) :
    ∃ talk r n, Runs (run input) (run input) m talk r n ∧ RunGoes p input m talk r n := by
  by_cases hphase : m.phase = .ready
  · cases h with
    | ready _ hprogram _ hprovisioned =>
        have hknows : m.Knows m.program := hprogram ▸ knows_of_provisioned hprovisioned
        by_cases hlength : input.length = m.program.inputLength
        · obtain ⟨talk, r, device, hruns, htalk⟩ := runs_run hknows hphase hlength
          exact ⟨talk, r, _, hruns, .talks hphase (hprogram ▸ hlength) hprogram htalk⟩
        · have hmisfit := runs_run_of_length hphase hlength
          rw [hprogram] at hmisfit hlength
          exact ⟨[], _, m, hmisfit, .misfit hphase hlength⟩
    | unconfigured hother =>
        rw [hother] at hphase
        cases hphase
    | faulted hother =>
        rw [hother] at hphase
        cases hphase
  · exact ⟨[], _, m, runs_run_of_phase hphase input, .refused hphase⟩

omit [Device σ] in
theorem Stage.withDevice (h : Stage p history m) (device : σ) :
    Stage p history { m with device } := by
  cases h with
  | unconfigured hphase hprogram hbuffers hkernels hhistory =>
      exact .unconfigured hphase hprogram hbuffers hkernels hhistory
  | ready hphase hprogram hhistory hprovisioned =>
      exact .ready hphase hprogram hhistory hprovisioned
  | faulted hphase hhistory => exact .faulted hphase hhistory

omit [Device σ] in
theorem Stage.afterRun (h : Stage p history m) (input : List Single) :
    Stage p (history ++ [.run input]) m := by
  cases h with
  | unconfigured hphase hprogram hbuffers hkernels hhistory =>
      refine .unconfigured hphase hprogram hbuffers hkernels fun weights hmem => ?_
      exact hhistory weights (by simpa using hmem)
  | ready hphase hprogram hhistory hprovisioned =>
      exact .ready hphase hprogram (List.mem_append_left _ hhistory) hprovisioned
  | faulted hphase hhistory => exact .faulted hphase (List.mem_append_left _ hhistory)

/-- A request takes a model from stage to stage. -/
theorem stage_step (h : Stage p history m) (request : Request) :
    Stage p (history ++ [request]) (m.step request) := by
  cases request with
  | setup weights =>
      obtain ⟨talk, r, n, hruns, -, hstage⟩ := goes_setup_of_stage h weights
      rw [step, hruns.plain]
      exact hstage
  | run input =>
      obtain ⟨talk, r, n, hruns, hgoes⟩ := goes_run_of_stage h input
      rw [step, hruns.plain]
      cases hgoes with
      | refused => exact h.afterRun input
      | misfit => exact h.afterRun input
      | talks => exact (h.afterRun input).withDevice _

end

/-! ## Sequences of uses -/

/-- What can happen to a model: a request, or someone else leaves its device in another
state. -/
inductive Use (σ : Type) where
  | ask (request : Request)
  | reach (device : σ)

omit [Device σ] in
/-- What is asked of the model itself. -/
def Use.request? : Use σ → Option Request
  | ask request => some request
  | reach _ => none

def use (m : Model σ) : Use σ → Model σ
  | .ask request => m.step request
  | .reach device => { m with device }

/-- The model after uses, one after the other. -/
def used (m : Model σ) (uses : List (Use σ)) : Model σ := uses.foldl use m

theorem stage_use {p : Program} {history : List Request} {m : Model σ} (h : Stage p history m)
    (u : Use σ) : Stage p (history ++ u.request?.toList) (m.use u) := by
  cases u with
  | ask request => exact stage_step h request
  | reach device =>
      rw [Use.request?, Option.toList_none, List.append_nil]
      exact h.withDevice device

/-- A model is at a stage that the requests say, whatever was done to its device. -/
theorem stage_used {p : Program} {history : List Request} {m : Model σ} (h : Stage p history m)
    (uses : List (Use σ)) : Stage p (history ++ uses.filterMap Use.request?) (m.used uses) := by
  induction uses generalizing history m with
  | nil =>
      rw [List.filterMap_nil, List.append_nil]
      exact h
  | cons u uses ih =>
      have hrest := ih (stage_use h u)
      rw [List.append_assoc] at hrest
      rw [List.filterMap_cons]
      cases hu : u.request? with
      | none =>
          rw [hu] at hrest
          exact hrest
      | some request =>
          rw [hu] at hrest
          exact hrest

omit [Device σ] in
theorem stage_new (device : σ) (p : Program) : Stage p [] (new device p) :=
  .unconfigured rfl rfl rfl rfl (by simp)

/-- A model that is used from the start is at a stage that its history says. -/
theorem stage_after (device : σ) (p : Program) (history : List Request) :
    Stage p history ((new device p).after history) := by
  have hused := stage_used (stage_new device p) (history.map Use.ask)
  have hmodel : (new device p).used (history.map Use.ask) = (new device p).after history :=
    List.foldl_map
  have hrequests : (history.map (Use.ask : Request → Use σ)).filterMap Use.request? = history := by
    rw [List.filterMap_map]
    exact List.filterMap_some
  rw [hmodel, hrequests] at hused
  exact hused

/-- However a model is used, on whatever device: it is unconfigured until it is
first set up, a ready model has the handles of that setup, and every request goes
as the phase and the program say. -/
theorem phase_and_requests_after (device : σ) (p : Program) (history : List Request) :
    let m := (new device p).after history
    (m.phase = .unconfigured ↔ ∀ weights, .setup weights ∉ history) ∧
      (m.phase = .ready → ∃ weights talk, .setup weights ∈ history ∧
        Provisioned weights p talk m.buffers m.kernels) ∧
      (∀ weights, Faithful (setup weights) (setup weights) m ∧
        SetupGoes p weights m (talk (setup weights) m)
          ((setup weights).runFrom m).1 ((setup weights).runFrom m).2) ∧
      ∀ input, Faithful (run input) (run input) m ∧
        RunGoes p input m (talk (run input) m)
          ((run input).runFrom m).1 ((run input).runFrom m).2 := by
  intro m
  have hstage : Stage p history m := stage_after device p history
  refine ⟨?_, fun hready => ?_, fun weights => ?_, fun input => ?_⟩
  · cases hstage with
    | unconfigured hphase _ _ _ hhistory => simp [hphase, hhistory]
    | @ready hphase _ weights _ hhistory =>
        simp only [hphase, reduceCtorEq, false_iff]
        exact fun hnone => hnone weights hhistory
    | @faulted hphase weights hhistory =>
        simp only [hphase, reduceCtorEq, false_iff]
        exact fun hnone => hnone weights hhistory
  · cases hstage with
    | ready _ _ hhistory hprovisioned => exact ⟨_, _, hhistory, hprovisioned⟩
    | unconfigured hother =>
        rw [hother] at hready
        cases hready
    | faulted hother =>
        rw [hother] at hready
        cases hready
  · obtain ⟨said, r, n, hruns, hgoes, -⟩ := goes_setup_of_stage hstage weights
    refine ⟨hruns.faithful, ?_⟩
    rw [hruns.talk_eq, hruns.plain]
    exact hgoes
  · obtain ⟨said, r, n, hruns, hgoes⟩ := goes_run_of_stage hstage input
    refine ⟨hruns.faithful, ?_⟩
    rw [hruns.talk_eq, hruns.plain]
    exact hgoes

end Model

end NetReplay
