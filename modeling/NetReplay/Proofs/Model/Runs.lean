import NetReplay.Model.Basic
import NetReplay.Proofs.Device.Runs

/-!
# Running actions on a model

How an action that is put together from others runs (`runFrom_bind`), and what
its success says about its parts (`runFrom_bind_eq_ok_iff`). A loop that succeeds
keeps an invariant that each of its rounds keeps (`forM_preserves`). The device
of a model takes part through `onDevice` alone (`runFrom_onDevice`).
-/

namespace NetReplay

namespace ModelM

variable {σ α β γ : Type}

theorem runFrom_pure (a : α) (m : Model σ) : (pure a : ModelM σ α).runFrom m = (.ok a, m) := rfl

theorem runFrom_get (m : Model σ) : (get : ModelM σ (Model σ)).runFrom m = (.ok m, m) := rfl

theorem runFrom_modify (f : Model σ → Model σ) (m : Model σ) :
    (modify f : ModelM σ PUnit).runFrom m = (.ok ⟨⟩, f m) := rfl

theorem runFrom_bind (x : ModelM σ α) (f : α → ModelM σ β) (m : Model σ) :
    (x >>= f).runFrom m = match x.runFrom m with
      | (.ok a, n) => (f a).runFrom n
      | (.error e, n) => (.error e, n) := by
  unfold runFrom ExceptT.run StateT.run
  simp only [bind, ExceptT.bind, ExceptT.mk, StateT.bind, ExceptT.bindCont]
  rcases x m with ⟨e | a, n⟩
  · rfl
  · rfl

theorem runFrom_tryCatch (x : ModelM σ α) (handle : Error → ModelM σ α) (m : Model σ) :
    (tryCatch x handle).runFrom m = match x.runFrom m with
      | (.ok a, n) => (.ok a, n)
      | (.error e, n) => (handle e).runFrom n := by
  unfold runFrom ExceptT.run StateT.run
  simp only [tryCatch, tryCatchThe, MonadExceptOf.tryCatch, ExceptT.tryCatch, ExceptT.mk, bind,
    StateT.bind]
  rcases x m with ⟨e | a, n⟩
  · rfl
  · rfl

theorem runFrom_bind_eq_ok_iff {x : ModelM σ α} {f : α → ModelM σ β} {m n : Model σ} {b : β} :
    (x >>= f).runFrom m = (.ok b, n) ↔
      ∃ a between, x.runFrom m = (.ok a, between) ∧ (f a).runFrom between = (.ok b, n) := by
  rw [runFrom_bind]
  rcases x.runFrom m with ⟨e | a, between⟩
  · simp
  · constructor
    · intro h
      exact ⟨a, between, rfl, h⟩
    · rintro ⟨_, _, heq, h⟩
      cases heq
      exact h

/-- A loop that succeeds keeps what every round keeps. The invariant may speak
of what was done so far, which `advance` accumulates. -/
theorem forM_preserves (invariant : γ → Model σ → Prop) (advance : γ → α → γ)
    {round : α → ModelM σ PUnit}
    (hround : ∀ done a m n, invariant done m → (round a).runFrom m = (.ok ⟨⟩, n) →
      invariant (advance done a) n)
    {l : List α} {done : γ} {m n : Model σ} (hm : invariant done m)
    (hrun : (l.forM round).runFrom m = (.ok ⟨⟩, n)) : invariant (l.foldl advance done) n := by
  induction l generalizing done m with
  | nil =>
      cases hrun
      exact hm
  | cons a l ih =>
      obtain ⟨_, between, hfirst, hrest⟩ := runFrom_bind_eq_ok_iff.mp hrun
      exact ih (hround done a m between hm hfirst) hrest

end ModelM

namespace Model

open ModelM

variable {σ α : Type}

theorem runFrom_ofExcept (x : Except Error α) (m : Model σ) :
    (ofExcept x).runFrom m = (x, m) := rfl

theorem runFrom_onDevice (x : DeviceM σ α) (wrap : DeviceError → Error) (m : Model σ) :
    (onDevice x wrap).runFrom m =
      ((x.runFrom m.device).1.mapError wrap, { m with device := (x.runFrom m.device).2 }) := rfl

theorem runFrom_expectPhase (expected : Phase) (m : Model σ) :
    (expectPhase expected).runFrom m =
      (if m.phase = expected then .ok () else .error (.invalidState expected m.phase), m) := by
  rw [expectPhase, runFrom_bind, runFrom_get]
  dsimp only
  split
  · rfl
  · rfl

/-- A step of the device succeeds when the device does. -/
theorem runFrom_onDevice_eq_ok_iff {x : DeviceM σ α} {wrap : DeviceError → Error} {m n : Model σ}
    {a : α} :
    (onDevice x wrap).runFrom m = (.ok a, n) ↔
      ∃ device, x.runFrom m.device = (.ok a, device) ∧ n = { m with device } := by
  rw [runFrom_onDevice]
  rcases x.runFrom m.device with ⟨e | b, device⟩
  · simp [mapError_error]
  · simp only [mapError_ok, Prod.mk.injEq, Except.ok.injEq]
    constructor
    · rintro ⟨rfl, rfl⟩
      exact ⟨device, ⟨rfl, rfl⟩, rfl⟩
    · rintro ⟨_, ⟨rfl, rfl⟩, rfl⟩
      exact ⟨rfl, rfl⟩

/-- The setup makes a model ready or faulted, as provisioning succeeds or not;
what provisioning did is kept in both cases. -/
theorem runFrom_setup [Device σ] (weights : Weights.Store) (m : Model σ) :
    (setup weights).runFrom m =
      if m.phase = .unconfigured then
        match (provision weights).runFrom m with
        | (.ok (), n) => (.ok (), { n with phase := .ready })
        | (.error e, n) => (.error e, { n with phase := .faulted })
      else (.error (.invalidState .unconfigured m.phase), m) := by
  rw [setup, runFrom_bind, runFrom_expectPhase]
  by_cases hphase : m.phase = .unconfigured
  · rw [if_pos hphase, if_pos hphase]
    simp only [runFrom_bind, runFrom_tryCatch]
    rcases (provision weights).runFrom m with ⟨e | a, n⟩
    · rfl
    · rfl
  · rw [if_neg hphase, if_neg hphase]

theorem reservedBuffer_of_get? {m : Model σ} {key : String} {h : BufferHandle}
    (hkey : m.buffers.get? key = some h) : m.reservedBuffer key = .ok h := by
  rw [reservedBuffer, hkey]

/-- An input of another length is refused before anything happens. -/
theorem runFrom_run_of_length_ne [Device σ] {m : Model σ} (hready : m.phase = .ready)
    {input : List Single} (hlength : input.length ≠ m.program.inputLength) :
    (run input).runFrom m = (.error (.inputLength m.program.inputLength input.length), m) := by
  rw [run, runFrom_bind, runFrom_expectPhase, if_pos hready]
  dsimp only
  rw [runFrom_bind, runFrom_get]
  dsimp only
  rw [if_neg hlength]
  rfl

/-- A run writes the input, carries the statements out and reads the output. -/
theorem runFrom_run [Device σ] {m : Model σ} (hready : m.phase = .ready) {input : List Single}
    (hlength : input.length = m.program.inputLength) {source target : BufferHandle}
    (hsource : m.buffers.get? Program.inputKey = some source)
    (htarget : m.buffers.get? Program.outputKey = some target) :
    (run input).runFrom m =
      match (onDevice (Device.writeBuffer source input) .device).runFrom m with
      | (.error e, n) => (.error e, n)
      | (.ok (), n) =>
        match (dispatchFrom 0 m.program.statements).runFrom n with
        | (.error e, n) => (.error e, n)
        | (.ok (), n) =>
          (onDevice (Device.readBuffer target m.program.outputLength) .device).runFrom n := by
  rw [run, runFrom_bind, runFrom_expectPhase, if_pos hready]
  dsimp only
  rw [runFrom_bind, runFrom_get]
  dsimp only
  rw [if_pos hlength, reservedBuffer_of_get? hsource, reservedBuffer_of_get? htarget]
  simp only [runFrom_bind, runFrom_ofExcept]
  rcases (onDevice (Device.writeBuffer source input) Error.device).runFrom m with ⟨e | _, n⟩
  · rfl
  · dsimp only
    rcases (dispatchFrom 0 m.program.statements).runFrom n with ⟨e | _, n⟩
    · rfl
    · rfl

end Model

end NetReplay
