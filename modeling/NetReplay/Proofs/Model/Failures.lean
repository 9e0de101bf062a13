import NetReplay.Proofs.Model.Validation
import NetReplay.Proofs.Weights.Acceptance
import NetReplay.Proofs.Weights.Safety

/-!
# Which phase a failure comes from

A failure tells where it comes from (`Error.Classed`). Reading a container or a program
gives load errors. A setup gives failures of no statement, since each of the steps it is
put together from does (`Model.FailsWith`). A failure of a run names the statement that
the conversation with the device came to (`Model.BreaksAt`): those in front were
dispatched, and this one was not resolved or was turned down. It names none where the
conversation ended outside the statements (`Model.BreaksOutside`). A conversation shows
by itself which of these it is.

The main result is `Model.failures_by_phase`.
-/

namespace NetReplay

/-- Whether a failure is one of loading, and the statement it belongs to. -/
structure Error.Classed (load : Bool) (place : Option Nat) (e : Error) : Prop where
  isLoadError : e.isLoadError = load
  statement? : e.statement? = place

/-! ## Loading -/

namespace Weights

theorem Header.Defect.classed {available : Nat} {name : String} {t : Json.Tree} {e : Error}
    (h : Header.Defect available name t e) : e.Classed true none := by
  cases h with
  | metadata => exact ⟨rfl, rfl⟩
  | unreadable => exact ⟨rfl, rfl⟩
  | reversed => exact ⟨rfl, rfl⟩
  | truncated => exact ⟨rfl, rfl⟩
  | ragged => exact ⟨rfl, rfl⟩

theorem Store.classed_of_ofBytes {b : List UInt8} {e : Error} (h : Store.ofBytes b = .error e) :
    e.Classed true none := by
  cases (Store.ofBytes_eq_error_iff b e).mp h with
  | short => exact ⟨rfl, rfl⟩
  | oversized => exact ⟨rfl, rfl⟩
  | overrun => exact ⟨rfl, rfl⟩
  | header _ hheader =>
      cases hheader with
      | unlisted => exact ⟨rfl, rfl⟩
      | member _ _ hdefect => exact hdefect.classed

/-- Looking a tensor up is no loading: it is done while a model is set up. -/
theorem Store.classed_of_values {store : Store} {name : String} {e : Error}
    (h : store.values name = .error e) : e.Classed false none := by
  cases hr : store.header.records.get? name with
  | none =>
      rw [values_of_none hr] at h
      cases h
      exact ⟨rfl, rfl⟩
  | some r =>
      rw [values_of_some hr] at h
      split at h
      · cases h
      · cases h
        exact ⟨rfl, rfl⟩

end Weights

namespace Program

theorem classed_of_ofBytes {s : List UInt8} {e : Error} (h : ofBytes s = .error e) :
    e.Classed true none := by
  rw [ofBytes] at h
  cases hread : Document.read s with
  | error cause =>
      rw [hread] at h
      cases h
      exact ⟨rfl, rfl⟩
  | ok d =>
      rw [hread] at h
      dsimp only at h
      split at h
      · cases h
        exact ⟨rfl, rfl⟩
      · split at h
        · cases h
          exact ⟨rfl, rfl⟩
        · cases h

theorem classed_of_checkStatement {p : Program} {index : Nat} {s : Statement} {e : Error}
    (h : p.checkStatement index s = .error e) : e.Classed false (some index) := by
  rcases checkStatement_eq_error_cases h with ⟨_, rfl⟩ | rfl | ⟨_, rfl⟩
  · exact ⟨rfl, rfl⟩
  · exact ⟨rfl, rfl⟩
  · exact ⟨rfl, rfl⟩

end Program

namespace Model

open ModelM Program

variable {σ : Type}

/-! ## Setting up -/

/-- Whatever the action fails with, on whatever model, is of one kind. -/
def FailsWith {α : Type} (kind : Error → Prop) (x : ModelM σ α) : Prop :=
  ∀ m e, (x.runFrom m).1 = .error e → kind e

namespace FailsWith

variable {α β : Type} {kind : Error → Prop}

theorem pure (a : α) : FailsWith kind (pure a : ModelM σ α) := by
  intro m e he
  rw [runFrom_pure] at he
  cases he

theorem modify (f : Model σ → Model σ) : FailsWith kind (modify f : ModelM σ PUnit) := by
  intro m e he
  rw [runFrom_modify] at he
  cases he

theorem ofExcept {r : Except Error α} (h : ∀ e, r = .error e → kind e) :
    FailsWith kind (ofExcept r : ModelM σ α) :=
  fun _ e he => h e he

theorem onDevice {wrap : DeviceError → Error} (h : ∀ cause, kind (wrap cause)) (x : DeviceM σ α) :
    FailsWith kind (onDevice x wrap) := by
  intro m e he
  rw [runFrom_onDevice] at he
  cases hx : (x.runFrom m.device).1 with
  | error cause =>
      rw [hx] at he
      cases he
      exact h cause
  | ok a =>
      rw [hx] at he
      cases he

theorem bind {x : ModelM σ α} {f : α → ModelM σ β} (hx : FailsWith kind x)
    (hf : ∀ a, FailsWith kind (f a)) : FailsWith kind (x >>= f) := by
  intro m e he
  rw [runFrom_bind] at he
  cases hrun : x.runFrom m with
  | mk r n =>
      rw [hrun] at he
      cases r with
      | error d =>
          cases he
          exact hx m e (congrArg Prod.fst hrun)
      | ok a => exact hf a n e he

theorem get_bind {f : Model σ → ModelM σ β} (hf : ∀ m, FailsWith kind (f m)) :
    FailsWith kind (get >>= f) := by
  intro m e he
  rw [runFrom_bind, runFrom_get] at he
  exact hf m m e he

theorem forM {f : α → ModelM σ Unit} (hf : ∀ a, FailsWith kind (f a)) (l : List α) :
    FailsWith kind (l.forM f) := by
  induction l with
  | nil => exact pure PUnit.unit
  | cons a l ih =>
      rw [forM_cons]
      exact (hf a).bind fun _ => ih

end FailsWith

variable [Device σ]

theorem failsWith_fill (weights : Weights.Store) (d : Descriptor) (h : BufferHandle) :
    FailsWith (Error.Classed false none) (fill weights d h : ModelM σ Unit) := by
  unfold fill
  cases d.source with
  | none => exact .pure ()
  | some source =>
      refine .bind (.ofExcept fun e => Weights.Store.classed_of_values) fun values => ?_
      exact .onDevice (fun _ => ⟨rfl, rfl⟩) _

theorem failsWith_allocate {x : BufferHandle → ModelM σ Unit}
    (hx : ∀ h, FailsWith (Error.Classed false none) (x h)) (key : String) (d : Descriptor)
    (writable : Bool) : FailsWith (Error.Classed false none) (allocate key d writable x) := by
  have hsize : ∀ e, allocationSize d = .error e → e.Classed false none := by
    intro e he
    rw [allocationSize] at he
    split at he
    · cases he
    · cases he
      exact ⟨rfl, rfl⟩
  unfold allocate
  refine .bind (.ofExcept hsize) fun size => ?_
  refine .bind (.onDevice (fun _ => ⟨rfl, rfl⟩) _) fun h => ?_
  exact (hx h).bind fun _ => .modify _

theorem failsWith_compile (key source : String) :
    FailsWith (Error.Classed false none) (compile key source : ModelM σ Unit) := by
  unfold compile
  exact .bind (.onDevice (fun _ => ⟨rfl, rfl⟩) _) fun _ => .modify _

theorem failsWith_place (weights : Weights.Store) (e : String × Descriptor) :
    FailsWith (Error.Classed false none) (place weights e : ModelM σ Unit) :=
  failsWith_allocate (failsWith_fill weights e.2) e.1 e.2 e.2.writable

theorem failsWith_equip (weights : Weights.Store) (p : Program) :
    FailsWith (Error.Classed false none) (equip weights p : ModelM σ Unit) := by
  have hnothing : ∀ _ : BufferHandle,
      FailsWith (Error.Classed false none) (pure () : ModelM σ Unit) := fun _ => .pure ()
  unfold equip
  refine .bind (.forM (failsWith_place weights) _) fun _ => ?_
  refine .bind (failsWith_allocate hnothing _ _ _) fun _ => ?_
  refine .bind (failsWith_allocate hnothing _ _ _) fun _ => ?_
  exact .forM (fun e : String × String => failsWith_compile e.1 e.2) _

theorem failsWith_provision (weights : Weights.Store) :
    FailsWith (Error.Classed false none) (provision weights : ModelM σ Unit) := by
  unfold provision
  refine .bind (.onDevice (fun _ => ⟨rfl, rfl⟩) _) fun _ => .get_bind fun m => ?_
  exact failsWith_equip weights m.program

/-- A setup fails for the phase, or as one of its steps does. -/
theorem failsWith_setup (weights : Weights.Store) :
    FailsWith (Error.Classed false none) (setup weights : ModelM σ Unit) := by
  intro m e he
  rw [runFrom_setup] at he
  split at he
  · cases hrun : (provision weights).runFrom m with
    | mk r n =>
        rw [hrun] at he
        cases r with
        | ok u => cases he
        | error d =>
            cases he
            exact failsWith_provision weights m e (congrArg Prod.fst hrun)
  · cases he
    exact ⟨rfl, rfl⟩

/-! ## Running -/

omit [Device σ]

variable {m : Model σ} {input : List Single} {k : Nat} {said : List Exchange}

/-- The conversation of a run that came to a statement and no further: the device took the
input and dispatched the statements in front, and then this one did not pass its check or
was turned down. -/
inductive BreaksAt (m : Model σ) (input : List Single) (k : Nat) : List Exchange → Prop
  | unresolved {source : BufferHandle} {s : Statement} {e : Error} {calls : List DeviceCall}
      (hsource : m.buffers.get? inputKey = some source)
      (hs : m.program.statements[k]? = some s) (he : m.program.checkStatement k s = .error e)
      (hcalls : List.Forall₂ m.Dispatches (m.program.statements.take k) calls) :
      BreaksAt m input k (⟨.writeBuffer source input, .ok .done⟩ :: Conversation.done calls)
  | turnedDown {source : BufferHandle} {s : Statement} {call : DeviceCall}
      {cause : DeviceError} {calls : List DeviceCall}
      (hsource : m.buffers.get? inputKey = some source)
      (hs : m.program.statements[k]? = some s) (hcall : m.Dispatches s call)
      (hcalls : List.Forall₂ m.Dispatches (m.program.statements.take k) calls) :
      BreaksAt m input k
        (⟨.writeBuffer source input, .ok .done⟩ ::
          (Conversation.done calls ++ [⟨call, .error cause⟩]))

/-- The conversation of a run that failed, but at no statement: nothing was said, or the
device did not take the input, or all statements were dispatched and the output could not
be read. -/
inductive BreaksOutside (m : Model σ) (input : List Single) : List Exchange → Prop
  | unsaid : BreaksOutside m input []
  | input {source : BufferHandle} {cause : DeviceError}
      (hsource : m.buffers.get? inputKey = some source) :
      BreaksOutside m input [⟨.writeBuffer source input, .error cause⟩]
  | output {source target : BufferHandle} {cause : DeviceError} {calls : List DeviceCall}
      (hsource : m.buffers.get? inputKey = some source)
      (htarget : m.buffers.get? outputKey = some target)
      (hcalls : List.Forall₂ m.Dispatches m.program.statements calls) :
      BreaksOutside m input
        (⟨.writeBuffer source input, .ok .done⟩ :: (Conversation.done calls ++
          [⟨.readBuffer target m.program.outputLength, .error cause⟩]))

theorem BreaksAt.lt_length (h : BreaksAt m input k said) : k < m.program.statements.length := by
  cases h with
  | unresolved _ hs => exact (List.getElem?_eq_some_iff.mp hs).1
  | turnedDown _ hs => exact (List.getElem?_eq_some_iff.mp hs).1

/-- Calls that were carried out do not end with one that failed. -/
theorem done_ne_append_error (calls : List DeviceCall) (others : List Exchange)
    (call : DeviceCall) (cause : DeviceError) :
    Conversation.done calls ≠ others ++ [⟨call, .error cause⟩] := by
  intro h
  have hmem : (⟨call, .error cause⟩ : Exchange) ∈ Conversation.done calls := by
    rw [h]
    exact List.mem_append_right _ (List.mem_singleton_self _)
  obtain ⟨_, -, heq⟩ := List.mem_map.mp hmem
  cases heq

theorem length_of_done_eq {calls others : List DeviceCall}
    (h : Conversation.done calls = Conversation.done others) : calls.length = others.length := by
  have hlength := congrArg List.length h
  rwa [Conversation.done, Conversation.done, List.length_map, List.length_map] at hlength

/-- As many calls were carried out as there are statements in front. -/
theorem length_of_dispatches {s : Statement} {calls : List DeviceCall}
    (hs : m.program.statements[k]? = some s)
    (hcalls : List.Forall₂ m.Dispatches (m.program.statements.take k) calls) :
    calls.length = k := by
  have hlt := (List.getElem?_eq_some_iff.mp hs).1
  rw [← hcalls.length_eq, List.length_take, Nat.min_eq_left (Nat.le_of_lt hlt)]

/-- A conversation breaks off at one statement only. -/
theorem BreaksAt.unique {j : Nat} (hk : BreaksAt m input k said) (hj : BreaksAt m input j said) :
    k = j := by
  cases hk with
  | @unresolved _ _ _ calls _ hs _ hcalls =>
      generalize hsaid : Conversation.done calls = talk at hj
      cases hj with
      | unresolved _ hs' _ hcalls' =>
          rw [← length_of_dispatches hs hcalls, length_of_done_eq hsaid,
            length_of_dispatches hs' hcalls']
      | turnedDown => exact (done_ne_append_error _ _ _ _ hsaid).elim
  | @turnedDown _ _ call cause calls _ hs hcall hcalls =>
      generalize hsaid : Conversation.done calls ++ [⟨call, .error cause⟩] = talk at hj
      cases hj with
      | unresolved => exact (done_ne_append_error _ _ _ _ hsaid.symm).elim
      | turnedDown _ hs' _ hcalls' =>
          rw [← length_of_dispatches hs hcalls,
            length_of_done_eq (List.append_inj' hsaid rfl).1, length_of_dispatches hs' hcalls']

/-- A conversation does not break off at a statement and outside the statements. -/
theorem BreaksAt.not_outside (h : BreaksAt m input k said) : ¬ BreaksOutside m input said := by
  intro hout
  cases h with
  | @unresolved _ _ _ calls =>
      generalize hsaid : Conversation.done calls = talk at hout
      cases hout with
      | output => exact (done_ne_append_error _ _ _ _ hsaid).elim
  | @turnedDown _ s call cause calls _ hs hcall hcalls =>
      generalize hsaid : Conversation.done calls ++ [⟨call, .error cause⟩] = talk at hout
      cases hout with
      | output =>
          obtain ⟨-, hlast⟩ := List.append_inj' hsaid rfl
          obtain ⟨_, _, _, -, -, -, rfl⟩ := hcall
          cases hlast

/-- The failure of a run tells where its conversation broke off. -/
def Tells (m : Model σ) (input : List Single) (said : List Exchange) (e : Error) : Prop :=
  e.isLoadError = false ∧ (∀ k, e.statement? = some k ↔ BreaksAt m input k said) ∧
    (e.statement? = none ↔ BreaksOutside m input said)

theorem BreaksAt.tells {e : Error} (h : BreaksAt m input k said) (he : e.Classed false (some k)) :
    Tells m input said e := by
  refine ⟨he.isLoadError, fun j => ?_, ?_⟩
  · rw [he.statement?, Option.some_inj]
    constructor
    · rintro rfl
      exact h
    · exact h.unique
  · rw [he.statement?]
    exact iff_of_false nofun h.not_outside

theorem BreaksOutside.tells {e : Error} (h : BreaksOutside m input said)
    (he : e.Classed false none) : Tells m input said e := by
  refine ⟨he.isLoadError, fun j => ?_, ?_⟩
  · rw [he.statement?]
    exact iff_of_false nofun fun hj => hj.not_outside h
  · rw [he.statement?]
    exact iff_of_true rfl h

theorem RunTalk.tells {e : Error} (h : RunTalk m input said (.error e)) :
    Tells m input said e := by
  generalize hr : (Except.error e : Except Error (List Single)) = r at h
  cases h with
  | writeFailed hsource =>
      cases hr
      exact BreaksOutside.tells (.input hsource) ⟨rfl, rfl⟩
  | dispatchFailed hsource htalk =>
      cases hr
      cases htalk with
      | unresolved hs he hcalls =>
          rw [Nat.zero_add] at he
          exact BreaksAt.tells (.unresolved hsource hs he hcalls) (classed_of_checkStatement he)
      | failed hs hcall hcalls =>
          rw [Nat.zero_add]
          exact BreaksAt.tells (.turnedDown hsource hs hcall hcalls) ⟨rfl, rfl⟩
  | @finished _ _ _ outputs hsource htarget htalk =>
      cases outputs with
      | ok xs => cases hr
      | error cause =>
          cases hr
          cases htalk with
          | finished hcalls =>
              exact BreaksOutside.tells (.output hsource htarget hcalls) ⟨rfl, rfl⟩

theorem RunGoes.tells {p : Program} {e : Error} {n : Model σ}
    (h : RunGoes p input m said (.error e) n) :
    Tells m input said e ∧ ∀ k, e.statement? = some k → k < p.statements.length := by
  cases h with
  | refused => exact ⟨BreaksOutside.unsaid.tells ⟨rfl, rfl⟩, nofun⟩
  | misfit => exact ⟨BreaksOutside.unsaid.tells ⟨rfl, rfl⟩, nofun⟩
  | talks _ _ hprogram htalk =>
      refine ⟨htalk.tells, fun k hk => ?_⟩
      rw [← hprogram]
      exact ((htalk.tells.2.1 k).mp hk).lt_length

section

variable [Device σ]

/-- Which phase a failure comes from, for all bytes, and for every device and program,
whatever was asked of the model and done to its device before. Readings fail with load
errors and nothing else does. The failure of a setup belongs to no statement. That of a
run belongs to a statement of the program if and only if the conversation of the run broke
off there, after the statements in front were dispatched; and to none if and only if it
broke off outside the statements. -/
theorem failures_by_phase :
    (∀ b e, Weights.Store.ofBytes b = .error e → e.Classed true none) ∧
    (∀ s e, Program.ofBytes s = .error e → e.Classed true none) ∧
    ∀ (device : σ) (p : Program) (uses : List (Use σ)),
      let m := (new device p).used uses
      (∀ weights e, ((setup weights).runFrom m).1 = .error e → e.Classed false none) ∧
      ∀ input e, ((run input).runFrom m).1 = .error e →
        Faithful (run input) (run input) m ∧ Tells m input (talk (run input) m) e ∧
          ∀ k, e.statement? = some k → k < p.statements.length := by
  refine ⟨fun _ _ => Weights.Store.classed_of_ofBytes, fun _ _ => classed_of_ofBytes, ?_⟩
  intro device p uses m
  refine ⟨fun weights => failsWith_setup weights m, fun input e he => ?_⟩
  have hstage : Stage p _ m := stage_used (stage_new device p) uses
  obtain ⟨said, r, n, hruns, hgoes⟩ := goes_run_of_stage hstage input
  rw [hruns.plain] at he
  obtain rfl : r = .error e := he
  rw [hruns.talk_eq]
  exact ⟨hruns.faithful, hgoes.tells⟩

end

/-- A setup after which someone else fills the second buffer of the device. -/
def reachedHistory : List (Use Host) :=
  let ready := (new copyHost danglingProgram).used [.ask (.setup ⟨⟨.empty, .empty⟩, []⟩)]
  let reached := ready.device.memory.modify ⟨2⟩ (Host.Memory.overwrite [⟨9⟩])
  [.ask (.setup ⟨⟨.empty, .empty⟩, []⟩), .reach { ready.device with memory := reached }]

theorem failures_by_phase_reachedHistory :
    let m := (new copyHost danglingProgram).used reachedHistory
    ((run [⟨5⟩, ⟨6⟩]).runFrom m).1 = .error (.unresolvedBuffer 1 "ghost") ∧
      BreaksAt m [⟨5⟩, ⟨6⟩] 1 (talk (run [⟨5⟩, ⟨6⟩]) m) ∧
      (∃ e, ((setup ⟨⟨.empty, .empty⟩, []⟩).runFrom m).1 = .error e ∧ e.Classed false none) ∧
      (∃ e, Weights.Store.ofBytes [8, 0] = .error e ∧ e.Classed true none) ∧
      (∃ e, Program.ofBytes [8, 0] = .error e ∧ e.Classed true none) := by
  intro m
  have hresult : ((run [⟨5⟩, ⟨6⟩]).runFrom m).1 = .error (.unresolvedBuffer 1 "ghost") := rfl
  have hsetup : ((setup ⟨⟨.empty, .empty⟩, []⟩).runFrom m).1 =
      .error (.invalidState .unconfigured .ready) := rfl
  have hstore : Weights.Store.ofBytes [8, 0] = .error (.corruptHeader (.tooShort 2)) := rfl
  have hunread : (Program.ofBytes [8, 0]).toOption.isNone = true := by decide +kernel
  obtain ⟨hweights, hprogram, hmodel⟩ := failures_by_phase (σ := Host)
  obtain ⟨hsetups, hruns⟩ := hmodel copyHost danglingProgram reachedHistory
  obtain ⟨-, ⟨-, hbreaks, -⟩, -⟩ := hruns _ _ hresult
  refine ⟨hresult, (hbreaks 1).mp rfl, ⟨_, hsetup, hsetups _ _ hsetup⟩,
    ⟨_, hstore, hweights _ _ hstore⟩, ?_⟩
  cases hread : Program.ofBytes [8, 0] with
  | ok p =>
      rw [hread] at hunread
      cases hunread
  | error e => exact ⟨e, rfl, hprogram _ _ hread⟩

end Model

end NetReplay
