import NetReplay.Launch.WorkItem
import NetReplay.Single

/-!
# Kernel bodies

A kernel body sees its arguments only one element at a time. `Kernel.Action` is
the language of such computations: asking for the number of arguments and for
the length of one, reading an element, writing an element. An element or an
argument that does not exist reads as `none`, and writing to it does nothing.

What the arguments are is left open. A `Kernel.View` says how they are found in
a state, and `Action.run` carries a computation out through a view, so that one
body can be run over the slots of a dispatch or over memory itself.
-/

namespace NetReplay

namespace Kernel

/-- A computation over the arguments of a kernel. -/
inductive Action (α : Type) where
  | done (a : α)
  | count (next : Nat → Action α)
  | length (arg : Nat) (next : Option Nat → Action α)
  | load (arg index : Nat) (next : Option Single → Action α)
  | store (arg index : Nat) (x : Single) (next : Action α)

namespace Action

variable {α β : Type}

def bind : Action α → (α → Action β) → Action β
  | done a, f => f a
  | count next, f => count fun n => bind (next n) f
  | length arg next, f => length arg fun n => bind (next n) f
  | load arg index next, f => load arg index fun x => bind (next x) f
  | store arg index x next, f => store arg index x (bind next f)

instance : Monad Action where
  pure := done
  bind := bind

end Action

/-- How the arguments of a kernel are found in a state. -/
structure View (σ : Type) where
  count : σ → Nat
  contents? : σ → Nat → Option (Array Single)
  write : σ → Nat → Nat → Single → σ

/-- Carries a computation out on the arguments found in a state. -/
def Action.run {σ α : Type} (view : View σ) : Action α → σ → α × σ
  | done a, s => (a, s)
  | count next, s => (next (view.count s)).run view s
  | length arg next, s => (next ((view.contents? s arg).map Array.size)).run view s
  | load arg index next, s => (next ((view.contents? s arg).bind (·[index]?))).run view s
  | store arg index x next, s => next.run view (view.write s arg index x)

/-- The computation of a kernel at one work item. -/
abbrev Body := WorkItem → Action Unit

/-- Carries a body out at work items, one after the other. -/
def Body.runAll {σ : Type} (view : View σ) (body : Body) (items : List WorkItem) (s : σ) : σ :=
  items.foldl (fun s item => ((body item).run view s).2) s

end Kernel

end NetReplay
