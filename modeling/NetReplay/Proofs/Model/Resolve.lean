import NetReplay.Proofs.Program.Reference
import NetReplay.Proofs.Model.Runs

/-!
# Resolving statements

A model that knows exactly the buffers and kernels of its program
(`Model.Knows`) resolves a statement just when checking the statement against
the program succeeds, and fails with the same error when checking does
(`resolve_of_check`).
-/

namespace NetReplay

namespace Model

variable {σ : Type} {p : Program} {m : Model σ}

/-- The model knows the buffers and kernels of a program, and no others. -/
structure Knows (p : Program) (m : Model σ) : Prop where
  buffers : ∀ key, (m.buffers.get? key).isSome = p.declaresBuffer key
  kernels : ∀ key, (m.kernels.get? key).isSome = p.kernels.contains key

theorem resolveBuffer_of_get? {key : String} {h : BufferHandle}
    (hkey : m.buffers.get? key = some h) (index : Nat) :
    m.resolveBuffer index key = .ok h := by
  rw [resolveBuffer, hkey]

/-- Arguments are resolved together, or the first that is not declared is
reported. -/
theorem mapM_resolveBuffer (hm : m.Knows p) (index : Nat) (keys : List String) :
    keys.mapM (m.resolveBuffer index) = match keys.find? (!p.declaresBuffer ·) with
      | some key => .error (.unresolvedBuffer index key)
      | none => .ok (keys.map fun key => (m.buffers.get? key).getD default) := by
  induction keys with
  | nil => rfl
  | cons key keys ih =>
      have hdeclares := hm.buffers key
      rw [List.mapM_cons, List.find?_cons]
      cases hkey : m.buffers.get? key with
      | none =>
          rw [hkey, Option.isSome_none] at hdeclares
          rw [← hdeclares, resolveBuffer, hkey]
          rfl
      | some h =>
          rw [hkey, Option.isSome_some] at hdeclares
          rw [← hdeclares, resolveBuffer_of_get? hkey, ih]
          cases hfind : keys.find? (!p.declaresBuffer ·) with
          | none =>
              simp [bind, Except.bind, pure, Except.pure, hkey]
          | some other => simp [bind, Except.bind]

theorem map_get?_of_declared (hm : m.Knows p) {keys : List String}
    (hnone : keys.find? (!p.declaresBuffer ·) = none) :
    keys.map m.buffers.get? =
      (keys.map fun key => (m.buffers.get? key).getD default).map some := by
  rw [List.map_map]
  refine List.map_congr_left fun key hkey => ?_
  have hdeclared := List.find?_eq_none.mp hnone key hkey
  rw [Bool.not_eq_true, Bool.not_eq_false', ← hm.buffers] at hdeclared
  obtain ⟨h, hh⟩ := Option.isSome_iff_exists.mp hdeclared
  rw [Function.comp_apply, hh, Option.getD_some]

/-- Resolving and checking a statement come to the same: the same error, or the
launch with the handles of the kernel and of every argument. -/
theorem resolve_of_check (hm : m.Knows p) (index : Nat) (s : Program.Statement) :
    (∃ e, p.checkStatement index s = .error e ∧ m.resolve index s = .error e) ∨
      (p.checkStatement index s = .ok () ∧ ∃ launch kernel args,
        s.launch index = .ok launch ∧ m.kernels.get? s.kernel = some kernel ∧
          s.args.map m.buffers.get? = args.map some ∧
          m.resolve index s = .ok (launch, kernel, args)) := by
  rw [resolve, Program.checkStatement, Program.Statement.launch, resolveKernel]
  cases s.workSizes index with
  | error e => exact Or.inl ⟨e, rfl, rfl⟩
  | ok sizes =>
      have hknown := hm.kernels s.kernel
      cases hkernel : m.kernels.get? s.kernel with
      | none =>
          rw [hkernel, Option.isSome_none] at hknown
          simp only [bind, Except.bind, pure, Except.pure, ← hknown]
          exact Or.inl ⟨_, rfl, rfl⟩
      | some kernel =>
          rw [hkernel, Option.isSome_some] at hknown
          simp only [bind, Except.bind, pure, Except.pure, ← hknown,
            mapM_resolveBuffer hm]
          cases hfind : s.args.find? (!p.declaresBuffer ·) with
          | some key => exact Or.inl ⟨_, rfl, rfl⟩
          | none => exact Or.inr ⟨rfl, _, kernel, _, rfl, rfl, map_get?_of_declared hm hfind, rfl⟩

end Model

end NetReplay
