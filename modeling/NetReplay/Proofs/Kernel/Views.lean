import NetReplay.Kernel.Body

/-!
# Bodies do not know where their arguments lie

A body learns about its arguments only what a view answers. Two views that
answer alike in related states, and whose writes keep the states related
(`View.Agree`), therefore carry every body through the same computation
(`Action.run_agree`, `Body.runAll_agree`). What every write of a single view
preserves is in the same way preserved by whole bodies (`Body.runAll_preserves`).
-/

namespace NetReplay

namespace Kernel

variable {σ τ α : Type}

/-- Two views answer alike in related states, and writing through both leaves
related states behind. -/
structure View.Agree (v : View σ) (w : View τ) (related : σ → τ → Prop) : Prop where
  count : ∀ s t, related s t → v.count s = w.count t
  contents? : ∀ s t, related s t → ∀ arg, v.contents? s arg = w.contents? t arg
  write : ∀ s t, related s t → ∀ arg index x,
    related (v.write s arg index x) (w.write t arg index x)

theorem Action.run_agree {v : View σ} {w : View τ} {related : σ → τ → Prop}
    (hviews : v.Agree w related) (a : Action α) {s : σ} {t : τ} (h : related s t) :
    (a.run v s).1 = (a.run w t).1 ∧ related (a.run v s).2 (a.run w t).2 := by
  induction a generalizing s t with
  | done a => exact ⟨rfl, h⟩
  | count next ih =>
      rw [run, run, hviews.count s t h]
      exact ih _ h
  | length arg next ih =>
      rw [run, run, hviews.contents? s t h]
      exact ih _ h
  | load arg index next ih =>
      rw [run, run, hviews.contents? s t h]
      exact ih _ h
  | store arg index x next ih =>
      rw [run, run]
      exact ih (hviews.write s t h arg index x)

/-- Through views that agree, a body takes related states to related states. -/
theorem Body.runAll_agree {v : View σ} {w : View τ} {related : σ → τ → Prop}
    (hviews : v.Agree w related) (body : Body) (items : List WorkItem) {s : σ} {t : τ}
    (h : related s t) : related (body.runAll v items s) (body.runAll w items t) := by
  induction items generalizing s t with
  | nil => exact h
  | cons item items ih => exact ih ((body item).run_agree hviews h).2

theorem Action.run_preserves {v : View σ} {invariant : σ → Prop}
    (hwrite : ∀ s, invariant s → ∀ arg index x, invariant (v.write s arg index x))
    (a : Action α) {s : σ} (h : invariant s) : invariant (a.run v s).2 := by
  induction a generalizing s with
  | done a => exact h
  | count next ih => exact ih _ h
  | length arg next ih => exact ih _ h
  | load arg index next ih => exact ih _ h
  | store arg index x next ih => exact ih (hwrite s h arg index x)

/-- A body preserves what every single write preserves. -/
theorem Body.runAll_preserves {v : View σ} {invariant : σ → Prop}
    (hwrite : ∀ s, invariant s → ∀ arg index x, invariant (v.write s arg index x))
    (body : Body) (items : List WorkItem) {s : σ} (h : invariant s) :
    invariant (body.runAll v items s) := by
  induction items generalizing s with
  | nil => exact h
  | cons item items ih => exact ih ((body item).run_preserves hwrite h)

end Kernel

end NetReplay
