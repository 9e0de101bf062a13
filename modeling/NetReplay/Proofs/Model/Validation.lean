import NetReplay.Proofs.Model.Protocol
import NetReplay.Proofs.Model.Refinement

/-!
# Checking before a run and during it

Checking the references of a program beforehand and resolving them while it runs
come to the same. A program that passes the check never fails for a reference. A
program that does not pass never gets further than the statement that the check
names: it fails there with the error of the check, unless the device fails before
(`run_of_checkReferences`).
-/

namespace NetReplay

/-- The failure comes from what a statement refers to, and not from the device. -/
def Error.IsReference : Error → Prop
  | invalidWorkDimensions .. | unresolvedKernel .. | unresolvedBuffer .. => True
  | _ => False

namespace Program

theorem isReference_of_checkStatement {p : Program} {index : Nat} {s : Statement} {e : Error}
    (h : p.checkStatement index s = .error e) : e.IsReference := by
  rcases checkStatement_eq_error_cases h with ⟨_, rfl⟩ | rfl | ⟨_, rfl⟩
  · trivial
  · trivial
  · trivial

/-- All statements pass the check, or those in front of the one that is reported. -/
theorem checkFrom_cases (p : Program) (index : Nat) (statements : List Statement) :
    (p.checkFrom index statements = .ok () ∧
        ∀ k s, statements[k]? = some s → p.checkStatement (index + k) s = .ok ()) ∨
      ∃ k s e, p.checkFrom index statements = .error e ∧ statements[k]? = some s ∧
        p.checkStatement (index + k) s = .error e ∧
        ∀ j < k, ∀ t, statements[j]? = some t → p.checkStatement (index + j) t = .ok () := by
  induction statements generalizing index with
  | nil => exact Or.inl ⟨rfl, by simp⟩
  | cons s statements ih =>
      rw [checkFrom]
      cases hs : p.checkStatement index s with
      | error e => exact Or.inr ⟨0, s, e, rfl, rfl, hs, by simp⟩
      | ok u =>
          rcases ih (index + 1) with ⟨hrest, hall⟩ | ⟨k, t, e, hrest, ht, he, hfront⟩
          · refine Or.inl ⟨hrest, fun k t hk => ?_⟩
            cases k with
            | zero =>
                cases hk
                exact hs
            | succ k =>
                rw [← Nat.add_assoc, Nat.add_right_comm]
                exact hall k t hk
          · refine Or.inr ⟨k + 1, t, e, hrest, ht, ?_, fun j hj u hu => ?_⟩
            · rw [← Nat.add_assoc, Nat.add_right_comm]
              exact he
            · cases j with
              | zero =>
                  cases hu
                  exact hs
              | succ j =>
                  rw [← Nat.add_assoc, Nat.add_right_comm]
                  exact hfront j (Nat.lt_of_succ_lt_succ hj) u hu

end Program

namespace Model

open Program

variable {σ : Type} {p : Program} {m : Model σ}

/-- A statement that can be dispatched passes the check. -/
theorem check_of_dispatches (hm : m.Knows p) {s : Statement} {call : DeviceCall}
    (h : m.Dispatches s call) (index : Nat) : p.checkStatement index s = .ok () := by
  obtain ⟨launch, kernel, args, hlaunch, hkernel, hargs, -⟩ := h
  have hcontains : p.kernels.contains s.kernel = true := by
    rw [← hm.kernels, hkernel, Option.isSome_some]
  have hfind : s.args.find? (!p.declaresBuffer ·) = none := by
    refine List.find?_eq_none.mpr fun key hkey => ?_
    have hmem : m.buffers.get? key ∈ args.map some := hargs ▸ List.mem_map_of_mem hkey
    obtain ⟨a, -, ha⟩ := List.mem_map.mp hmem
    rw [← hm.buffers, ← ha]
    simp
  rw [← Statement.launch_eq_ok_iff index, Statement.launch] at hlaunch
  rw [checkStatement]
  cases hsizes : s.workSizes index with
  | error e =>
      rw [hsizes] at hlaunch
      cases hlaunch
  | ok sizes =>
      simp only [bind, Except.bind, hcontains, hfind]
      rfl

theorem exists_call_of_forall₂ {dispatches : Statement → DeviceCall → Prop} {k n : Nat}
    {statements : List Statement} {calls : List DeviceCall} {s : Statement}
    (h : List.Forall₂ dispatches (statements.take n) calls) (hs : statements[k]? = some s)
    (hk : k < n) : ∃ call, dispatches s call := by
  have hmem : s ∈ statements.take n := by
    rw [List.mem_iff_getElem?]
    exact ⟨k, by rw [List.getElem?_take_of_lt hk, hs]⟩
  obtain ⟨i, hi, rfl⟩ := List.mem_iff_getElem.mp hmem
  exact ⟨_, h.get hi (h.length_eq ▸ hi)⟩

/-- Where the check stops, a run does not get past that statement: it fails there
with the same error, or the device has turned an earlier statement down. -/
theorem DispatchTalk.of_check_error (hm : m.Knows p) {statements : List Statement}
    {talk : List Exchange} {r : Except Error Unit}
    (h : DispatchTalk p m.Dispatches 0 statements talk r) {k : Nat} {s : Statement} {e : Error}
    (hs : statements[k]? = some s) (he : p.checkStatement k s = .error e)
    (hfront : ∀ j < k, ∀ t, statements[j]? = some t → p.checkStatement j t = .ok ()) :
    (∃ calls, List.Forall₂ m.Dispatches (statements.take k) calls ∧
        talk = Conversation.done calls ∧ r = .error e) ∨
      ∃ j t call cause calls, j < k ∧ statements[j]? = some t ∧ m.Dispatches t call ∧
        List.Forall₂ m.Dispatches (statements.take j) calls ∧
        talk = Conversation.done calls ++ [⟨call, .error cause⟩] ∧
        r = .error (.kernelDispatchFailed j t.kernel cause) := by
  -- a statement that was dispatched passes the check, so that at `k` never was
  have hnever : ∀ call, ¬ m.Dispatches s call := by
    intro call hcall
    rw [check_of_dispatches hm hcall k] at he
    cases he
  have hbefore : ∀ n calls, List.Forall₂ m.Dispatches (statements.take n) calls → n ≤ k := by
    intro n calls hcalls
    refine Nat.not_lt.mp fun hlt => ?_
    obtain ⟨call, hcall⟩ := exists_call_of_forall₂ hcalls hs hlt
    exact hnever call hcall
  cases h with
  | @finished calls hcalls =>
      have hall : List.Forall₂ m.Dispatches (statements.take statements.length) calls := by
        rwa [List.take_length]
      have hlt := (List.getElem?_eq_some_iff.mp hs).1
      exact absurd (hbefore _ _ hall) (Nat.not_le.mpr hlt)
  | @unresolved n t d calls ht hd hcalls =>
      rw [Nat.zero_add] at hd
      rcases Nat.lt_or_eq_of_le (hbefore n calls hcalls) with hlt | rfl
      · rw [hfront n hlt t ht] at hd
        cases hd
      · rw [hs] at ht
        cases ht
        rw [he] at hd
        cases hd
        exact Or.inl ⟨calls, hcalls, rfl, rfl⟩
  | @failed n t call cause calls ht hcall hcalls =>
      rw [Nat.zero_add]
      rcases Nat.lt_or_eq_of_le (hbefore n calls hcalls) with hlt | rfl
      · exact Or.inr ⟨n, t, call, cause, calls, hlt, ht, hcall, hcalls, rfl, rfl⟩
      · rw [hs] at ht
        cases ht
        exact absurd hcall (hnever call)

/-- Where the check finds nothing, no statement fails for a reference. -/
theorem DispatchTalk.of_check_ok {statements : List Statement} {talk : List Exchange} {e : Error}
    (h : DispatchTalk p m.Dispatches 0 statements talk (.error e))
    (hall : ∀ k s, statements[k]? = some s → p.checkStatement k s = .ok ()) :
    ¬ e.IsReference := by
  cases h with
  | @unresolved k s _ _ hs he =>
      rw [Nat.zero_add, hall k s hs] at he
      cases he
  | failed => exact id

/-- How a run ends that cannot get past statement `k`, which fails with `e`. -/
inductive StopsAt (m : Model σ) (input : List Single) (k : Nat) (e : Error) :
    List Exchange → Except Error (List Single) → Prop
  /-- All statements in front were dispatched, and nothing else was said. -/
  | resolving {source : BufferHandle} {calls : List DeviceCall}
      (hsource : m.buffers.get? inputKey = some source)
      (hcalls : List.Forall₂ m.Dispatches (m.program.statements.take k) calls) :
      StopsAt m input k e
        (⟨.writeBuffer source input, .ok .done⟩ :: Conversation.done calls) (.error e)
  /-- The device did not take the input. -/
  | writing {source : BufferHandle} {cause : DeviceError}
      (hsource : m.buffers.get? inputKey = some source) :
      StopsAt m input k e [⟨.writeBuffer source input, .error cause⟩] (.error (.device cause))
  /-- The device turned down a statement in front. -/
  | dispatching {source : BufferHandle} {j : Nat} {s : Statement} {call : DeviceCall}
      {cause : DeviceError} {calls : List DeviceCall}
      (hsource : m.buffers.get? inputKey = some source) (hj : j < k)
      (hs : m.program.statements[j]? = some s) (hcall : m.Dispatches s call)
      (hcalls : List.Forall₂ m.Dispatches (m.program.statements.take j) calls) :
      StopsAt m input k e
        (⟨.writeBuffer source input, .ok .done⟩ ::
          (Conversation.done calls ++ [⟨call, .error cause⟩]))
        (.error (.kernelDispatchFailed j s.kernel cause))

theorem stopsAt_of_runTalk (hm : m.Knows m.program) {input : List Single}
    {said : List Exchange} {r : Except Error (List Single)} (h : RunTalk m input said r)
    {k : Nat} {s : Statement} {e : Error} (hs : m.program.statements[k]? = some s)
    (he : m.program.checkStatement k s = .error e)
    (hfront : ∀ j < k, ∀ t, m.program.statements[j]? = some t →
      m.program.checkStatement j t = .ok ()) : StopsAt m input k e said r := by
  cases h with
  | writeFailed hsource => exact .writing hsource
  | dispatchFailed hsource htalk =>
      rcases htalk.of_check_error hm hs he hfront with
        ⟨calls, hcalls, rfl, hr⟩ | ⟨j, t, call, cause, calls, hj, ht, hcall, hcalls, rfl, hr⟩
      · cases hr
        exact .resolving hsource hcalls
      · cases hr
        exact .dispatching hsource hj ht hcall hcalls
  | finished hsource htarget htalk =>
      rcases htalk.of_check_error hm hs he hfront with
        ⟨_, _, _, hr⟩ | ⟨_, _, _, _, _, _, _, _, _, _, hr⟩
      · cases hr
      · cases hr

/-- Dispatched statements are no reads. -/
theorem ne_readBuffer_of_done {statements : List Statement} {calls : List DeviceCall}
    (h : List.Forall₂ m.Dispatches statements calls) :
    ∀ exchange ∈ Conversation.done calls, ∀ target count,
      exchange.call ≠ .readBuffer target count := by
  induction h with
  | nil => simp [Conversation.done]
  | cons hcall _ ih =>
      obtain ⟨_, _, _, -, -, -, rfl⟩ := hcall
      exact List.forall_mem_cons.mpr ⟨fun _ _ => by simp, ih⟩

/-- Such a run gives nothing, fails for no other reference, and does not read the
output. -/
theorem StopsAt.never {input : List Single} {k : Nat} {e : Error} {said : List Exchange}
    {r : Except Error (List Single)} (h : StopsAt m input k e said r) :
    (∀ outputs, r ≠ .ok outputs) ∧ (∀ d, r = .error d → d.IsReference → d = e) ∧
      ∀ exchange ∈ said, ∀ target count, exchange.call ≠ .readBuffer target count := by
  cases h with
  | resolving _ hcalls =>
      refine ⟨by simp, fun d hd _ => (Except.error.inj hd).symm, ?_⟩
      exact List.forall_mem_cons.mpr ⟨fun _ _ => by simp, ne_readBuffer_of_done hcalls⟩
  | writing =>
      refine ⟨by simp, fun d hd href => ?_, by simp⟩
      cases hd
      exact href.elim
  | dispatching _ _ _ hcall hcalls =>
      obtain ⟨_, _, _, -, -, -, rfl⟩ := hcall
      refine ⟨by simp, fun d hd href => ?_, ?_⟩
      · cases hd
        exact href.elim
      · refine List.forall_mem_cons.mpr ⟨fun _ _ => by simp, ?_⟩
        exact List.forall_mem_append.mpr ⟨ne_readBuffer_of_done hcalls, by simp⟩

/-- Where the check finds nothing, a run fails for the device alone. -/
theorem RunTalk.of_check_ok {input : List Single} {said : List Exchange}
    {r : Except Error (List Single)} (h : RunTalk m input said r)
    (hall : ∀ k s, m.program.statements[k]? = some s → m.program.checkStatement k s = .ok ())
    {e : Error} (he : r = .error e) : ¬ e.IsReference := by
  cases h with
  | writeFailed =>
      cases he
      exact id
  | dispatchFailed _ htalk =>
      cases he
      exact htalk.of_check_ok hall
  | @finished _ _ _ outputs =>
      cases outputs with
      | ok xs => cases he
      | error cause =>
          cases he
          exact id

section

variable [Device σ]

/-- Checking the references of a program beforehand tells what a ready model does,
on whatever device and after whatever requests. If the check passes, no run fails
for a reference. If it stops at a statement, a run stops there too with the same
error, unless the device fails before; it never gives anything, never fails for
another reference and never reads the output. -/
theorem run_of_checkReferences (device : σ) (p : Program) (history : List Request)
    (hready : ((new device p).after history).phase = .ready) {input : List Single}
    (hlength : input.length = p.inputLength) :
    let m := (new device p).after history
    let result := ((run input).runFrom m).1
    let said := talk (run input) m
    Faithful (run input) (run input) m ∧ m.program = p ∧
      (p.checkReferences = .ok () → ∀ e, result = .error e → ¬ e.IsReference) ∧
      ∀ e, p.checkReferences = .error e →
        ∃ k < p.statements.length, e.statement? = some k ∧ e.IsReference ∧
          StopsAt m input k e said result ∧ (∀ outputs, result ≠ .ok outputs) ∧
          (∀ d, result = .error d → d.IsReference → d = e) ∧
          ∀ exchange ∈ said, ∀ target count, exchange.call ≠ .readBuffer target count := by
  intro m result said
  have hstage : Stage p history m := stage_after device p history
  have hknows : m.Knows p := by
    cases hstage with
    | ready _ _ _ hprovisioned => exact knows_of_provisioned hprovisioned
    | unconfigured hother => exact absurd (hother.symm.trans hready) (by simp)
    | faulted hother => exact absurd (hother.symm.trans hready) (by simp)
  obtain ⟨talked, r, n, hruns, hgoes⟩ := goes_run_of_stage hstage input
  have hsaid : said = talked := hruns.talk_eq
  have hresult : result = r := congrArg Prod.fst hruns.plain
  rw [hsaid, hresult]
  cases hgoes with
  | refused hphase => exact absurd hready hphase
  | misfit _ hother => exact absurd hlength hother
  | talks _ _ hprogram htalk =>
      refine ⟨hruns.faithful, hprogram, fun hcheck e he => ?_, fun e he => ?_⟩
      · obtain ⟨-, hall⟩ | ⟨k, s, d, hd, -⟩ := checkFrom_cases p 0 p.statements
        · simp only [Nat.zero_add] at hall
          rw [← hprogram] at hall
          exact htalk.of_check_ok hall he
        · exact absurd (hcheck.symm.trans hd) (by simp)
      · obtain ⟨hok, -⟩ | ⟨k, s, d, hd, hs, hcheck, hfront⟩ := checkFrom_cases p 0 p.statements
        · exact absurd (hok.symm.trans he) (by simp)
        · obtain rfl : d = e := Except.error.inj (hd.symm.trans he)
          simp only [Nat.zero_add] at hcheck hfront
          have hstops : StopsAt m input k d talked r := by
            rw [← hprogram] at hknows hs hcheck hfront
            exact stopsAt_of_runTalk hknows htalk hs hcheck hfront
          exact ⟨k, (List.getElem?_eq_some_iff.mp hs).1, statement?_of_checkStatement hcheck,
            isReference_of_checkStatement hcheck, hstops, hstops.never⟩

end

/-- The copying program with a statement that refers to a buffer of no name. -/
def danglingProgram : Program :=
  { copyProgram with
    statements := copyProgram.statements ++ [⟨"copy", [inputKey, "ghost"], [1], [2]⟩] }

/-- A host that knows the kernel of the copying program. -/
def copyHost : Host := (Host.new 4096).register "copy" copyBody

/-- A setup, and runs with inputs of the wrong and of the right length. -/
def sampleHistory : List Request :=
  [.setup ⟨⟨.empty, .empty⟩, []⟩, .run [⟨1⟩], .run [⟨3⟩, ⟨4⟩]]

theorem run_of_checkReferences_danglingProgram :
    ((new copyHost danglingProgram).after sampleHistory).phase = .ready ∧
      [(⟨5⟩ : Single), ⟨6⟩].length = danglingProgram.inputLength ∧
      danglingProgram.checkReferences = .error (.unresolvedBuffer 1 "ghost") ∧
      StopsAt ((new copyHost danglingProgram).after sampleHistory) [⟨5⟩, ⟨6⟩] 1
        (.unresolvedBuffer 1 "ghost")
        (talk (run [⟨5⟩, ⟨6⟩]) ((new copyHost danglingProgram).after sampleHistory))
        (.error (.unresolvedBuffer 1 "ghost")) := by
  have hready : ((new copyHost danglingProgram).after sampleHistory).phase = .ready := rfl
  have hlength : [(⟨5⟩ : Single), ⟨6⟩].length = danglingProgram.inputLength := rfl
  have hcheck : danglingProgram.checkReferences = .error (.unresolvedBuffer 1 "ghost") := rfl
  have hresult : ((run [⟨5⟩, ⟨6⟩]).runFrom
      ((new copyHost danglingProgram).after sampleHistory)).1 =
        .error (.unresolvedBuffer 1 "ghost") := rfl
  obtain ⟨-, -, -, hstops⟩ :=
    run_of_checkReferences copyHost danglingProgram sampleHistory hready hlength
  obtain ⟨k, -, hk, -, hstops, -⟩ := hstops _ hcheck
  cases hk
  rw [hresult] at hstops
  exact ⟨hready, hlength, hcheck, hstops⟩

end Model

end NetReplay
