import NetReplay.Kernel.Body
import NetReplay.Program.Basic
import NetReplay.Proofs.Device.Runs

/-!
# Programs on named lists

What a program means without any device. Every key of a buffer names a list of
numbers (`Contents`), and the arguments of a statement are the lists of their
names, so that one name given twice is one list (`Contents.view`). A statement
is accepted or refused for what stands in the program alone (`accept`), and an
accepted one runs its kernel body on the named lists (`Statement.effect`).

`interpret` carries statements out up to the first that is refused;
`interpret_cases` says which statements these are.
-/

namespace NetReplay

namespace Program

/-- The list of numbers under each key that has one. -/
def Contents := String → Option (List Single)

namespace Contents

/-- The list of one key replaced. -/
def set (c : Contents) (key : String) (values : List Single) : Contents :=
  fun k => if k = key then some values else c k

/-- Named lists as the arguments of a kernel body. -/
def view (names : List String) : Kernel.View Contents where
  count _ := names.length
  contents? c arg := (names[arg]?.bind c).map List.toArray
  write c arg index x :=
    match names[arg]? with
    | some name => fun k => if k = name then (c k).map (·.set index x) else c k
    | none => c

end Contents

/-! ## Single statements -/

namespace Statement

/-- The launch of a statement of at most three dimensions. -/
def launch? (s : Statement) : Option Launch := do
  let groups ← Dim3.ofDims? s.globalSize
  let groupSize ← Dim3.ofDims? s.localSize
  pure (Launch.ofGroups groups groupSize)

theorem launch_eq_ok_iff (index : Nat) (s : Statement) (launch : Launch) :
    s.launch index = .ok launch ↔ s.launch? = some launch := by
  rw [Statement.launch, workSizes, launch?]
  cases Dim3.ofDims? s.globalSize with
  | none => simp [bind, Except.bind]
  | some groups =>
      cases Dim3.ofDims? s.localSize with
      | none => simp [bind, Except.bind]
      | some groupSize => simp [bind, Except.bind, pure, Except.pure]

/-- The lists after a statement, whose kernel is found among given bodies. -/
def effect (bodies : Table Kernel.Body) (s : Statement) (c : Contents) : Contents :=
  match s.launch?, bodies.get? s.kernel with
  | some launch, some body => body.runAll (Contents.view s.args) launch.workItems c
  | _, _ => c

end Statement

/-- Accepts the statement at a given position with its launch, when its sizes,
its kernel and its arguments are those of the program and the launch is usable. -/
def accept (p : Program) (index : Nat) (s : Statement) : Except Error Launch := do
  p.checkStatement index s
  let launch ← s.launch index
  launch.validate.mapError fun e =>
    Error.kernelDispatchFailed index s.kernel (.dispatchFailed s.kernel e.message)
  pure launch

theorem accept_eq_ok_iff {p : Program} {index : Nat} {s : Statement} {launch : Launch} :
    p.accept index s = .ok launch ↔
      p.checkStatement index s = .ok () ∧ s.launch index = .ok launch ∧
        launch.validate = .ok () := by
  rw [accept]
  cases p.checkStatement index s with
  | error e => simp [bind, Except.bind]
  | ok u =>
      cases s.launch index with
      | error e => simp [bind, Except.bind]
      | ok l =>
          simp only [bind, Except.bind, true_and, Except.ok.injEq]
          cases hvalid : l.validate with
          | error e =>
              simp only [mapError_error, reduceCtorEq, false_iff]
              rintro ⟨rfl, hok⟩
              rw [hvalid] at hok
              cases hok
          | ok u =>
              simp only [mapError_ok, pure, Except.pure, Except.ok.injEq]
              constructor
              · rintro rfl
                exact ⟨rfl, hvalid⟩
              · exact fun h => h.1

theorem launch_of_checkStatement {p : Program} {index : Nat} {s : Statement}
    (h : p.checkStatement index s = .ok ()) : ∃ launch, s.launch index = .ok launch := by
  rw [checkStatement] at h
  rw [Statement.launch]
  cases hsizes : s.workSizes index with
  | error e =>
      rw [hsizes] at h
      cases h
  | ok sizes => exact ⟨_, rfl⟩

/-- Checking fails for the sizes, for the kernel or for an argument. -/
theorem checkStatement_eq_error_cases {p : Program} {index : Nat} {s : Statement} {e : Error}
    (h : p.checkStatement index s = .error e) :
    (∃ dims, e = .invalidWorkDimensions index dims) ∨ e = .unresolvedKernel index s.kernel ∨
      ∃ key, e = .unresolvedBuffer index key := by
  rw [checkStatement, Statement.workSizes] at h
  cases hglobal : Dim3.ofDims? s.globalSize with
  | none =>
      simp only [hglobal, bind, Except.bind, Except.error.injEq] at h
      exact Or.inl ⟨_, h.symm⟩
  | some groups =>
      cases hlocal : Dim3.ofDims? s.localSize with
      | none =>
          simp only [hglobal, hlocal, bind, Except.bind, Except.error.injEq] at h
          exact Or.inl ⟨_, h.symm⟩
      | some groupSize =>
          simp only [hglobal, hlocal, bind, Except.bind] at h
          cases hkernel : p.kernels.contains s.kernel with
          | false =>
              simp only [hkernel, Bool.not_false, if_true] at h
              cases h
              exact Or.inr (Or.inl rfl)
          | true =>
              simp only [hkernel, Bool.not_true, Bool.false_eq_true, if_false] at h
              cases hargs : s.args.find? (!p.declaresBuffer ·) with
              | none =>
                  rw [hargs] at h
                  cases h
              | some key =>
                  rw [hargs] at h
                  cases h
                  exact Or.inr (Or.inr ⟨key, rfl⟩)

/-- Checking fails with errors of the statement that is checked. -/
theorem statement?_of_checkStatement {p : Program} {index : Nat} {s : Statement} {e : Error}
    (h : p.checkStatement index s = .error e) : e.statement? = some index := by
  rcases checkStatement_eq_error_cases h with ⟨_, rfl⟩ | rfl | ⟨_, rfl⟩
  · rfl
  · rfl
  · rfl

/-- A statement is refused by its check or for its launch. -/
theorem accept_eq_error_cases {p : Program} {index : Nat} {s : Statement} {e : Error}
    (h : p.accept index s = .error e) :
    p.checkStatement index s = .error e ∨
      ∃ launch cause, p.checkStatement index s = .ok () ∧ s.launch index = .ok launch ∧
        launch.validate = .error cause ∧
        e = .kernelDispatchFailed index s.kernel (.dispatchFailed s.kernel cause.message) := by
  rw [accept] at h
  cases hcheck : p.checkStatement index s with
  | error e' =>
      rw [hcheck] at h
      cases h
      exact Or.inl rfl
  | ok u =>
      obtain ⟨launch, hlaunch⟩ := launch_of_checkStatement hcheck
      rw [hcheck, hlaunch] at h
      simp only [bind, Except.bind] at h
      cases hvalid : launch.validate with
      | error cause =>
          rw [hvalid] at h
          cases h
          exact Or.inr ⟨launch, cause, rfl, hlaunch, hvalid, rfl⟩
      | ok u =>
          rw [hvalid] at h
          cases h

/-- A statement is refused with an error of its own. -/
theorem statement?_of_accept {p : Program} {index : Nat} {s : Statement} {e : Error}
    (h : p.accept index s = .error e) : e.statement? = some index := by
  rcases accept_eq_error_cases h with hcheck | ⟨_, _, -, -, -, rfl⟩
  · exact statement?_of_checkStatement hcheck
  · rfl

/-! ## Whole programs -/

/-- The lists after statements, one after the other. -/
def effect (bodies : Table Kernel.Body) (statements : List Statement) (c : Contents) : Contents :=
  statements.foldl (fun c s => s.effect bodies c) c

/-- Whether all statements of a list that starts at a given position are
accepted. -/
def Accepts (p : Program) (index : Nat) : List Statement → Prop
  | [] => True
  | s :: rest => (∃ launch, p.accept index s = .ok launch) ∧ p.Accepts (index + 1) rest

/-- Carries statements out from a given position on, up to the first that is
refused. -/
def interpret (p : Program) (bodies : Table Kernel.Body) (index : Nat) :
    List Statement → Contents → Except Error Unit × Contents
  | [], c => (.ok (), c)
  | s :: rest, c =>
    match p.accept index s with
    | .error e => (.error e, c)
    | .ok _ => p.interpret bodies (index + 1) rest (s.effect bodies c)

/-- Either all statements are carried out, or those in front of the first that
is refused. -/
theorem interpret_cases (p : Program) (bodies : Table Kernel.Body) (index : Nat)
    (statements : List Statement) (c : Contents) :
    (p.Accepts index statements ∧
        p.interpret bodies index statements c = (.ok (), effect bodies statements c)) ∨
      ∃ k s e, statements[k]? = some s ∧ p.accept (index + k) s = .error e ∧
        p.Accepts index (statements.take k) ∧
        p.interpret bodies index statements c =
          (.error e, effect bodies (statements.take k) c) := by
  induction statements generalizing index c with
  | nil => exact Or.inl ⟨trivial, rfl⟩
  | cons s rest ih =>
      rw [interpret]
      cases haccept : p.accept index s with
      | error e => exact Or.inr ⟨0, s, e, rfl, haccept, trivial, rfl⟩
      | ok launch =>
          rcases ih (index + 1) (s.effect bodies c) with
            ⟨haccepts, heq⟩ | ⟨k, t, e, ht, he, haccepts, heq⟩
          · exact Or.inl ⟨⟨⟨launch, haccept⟩, haccepts⟩, heq⟩
          · refine Or.inr ⟨k + 1, t, e, ht, ?_, ⟨⟨launch, haccept⟩, haccepts⟩, heq⟩
            rw [← he, Nat.add_right_comm, Nat.add_assoc]

/-- The lists after a run on an input, which is refused when it has another
length than the program says. -/
def replay (p : Program) (bodies : Table Kernel.Body) (c : Contents) (input : List Single) :
    Contents :=
  if input.length = p.inputLength then
    (p.interpret bodies 0 p.statements (c.set inputKey input)).2
  else c

end Program

end NetReplay
