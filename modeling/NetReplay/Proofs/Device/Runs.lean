import NetReplay.Device.Basic

/-!
# Running device operations

How an operation that is put together from others runs: its parts run one after
the other, each from the state that the one before it left behind, and the first
failure ends it (`runFrom_bind`).
-/

namespace NetReplay

theorem mapError_error {ε δ α : Type} (f : ε → δ) (e : ε) :
    (Except.error e : Except ε α).mapError f = .error (f e) := rfl

theorem mapError_ok {ε δ α : Type} (f : ε → δ) (a : α) :
    (Except.ok a : Except ε α).mapError f = .ok a := rfl

namespace DeviceM

variable {σ α β : Type}

theorem runFrom_get (s : σ) : (get : DeviceM σ σ).runFrom s = (.ok s, s) := rfl

theorem runFrom_set (s t : σ) : (set t : DeviceM σ PUnit).runFrom s = (.ok ⟨⟩, t) := rfl

theorem runFrom_bind (x : DeviceM σ α) (f : α → DeviceM σ β) (s : σ) :
    (x >>= f).runFrom s = match x.runFrom s with
      | (.ok a, t) => (f a).runFrom t
      | (.error e, t) => (.error e, t) := by
  unfold runFrom ExceptT.run StateT.run
  simp only [bind, ExceptT.bind, ExceptT.mk, StateT.bind, ExceptT.bindCont]
  rcases x s with ⟨e | a, t⟩
  · rfl
  · rfl

end DeviceM

end NetReplay
