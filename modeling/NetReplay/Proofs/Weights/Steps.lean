import NetReplay.Proofs.Table
import NetReplay.Weights.Builder

/-!
# Filling builders

A builder is filled step by step, from nothing. Whatever the steps are, its
content is a matter of the last step under each name: `lastTensor?` and
`lastNote?` read that off the steps, and `get?_tensors_ofSteps` and
`get?_metadata_ofSteps` say that the builder holds it.
-/

namespace NetReplay

namespace Weights

namespace Builder

/-- A step of filling a builder. -/
inductive Step where
  | add (name : String) (shape : List UInt64) (values : List Single)
  | note (key value : String)
  deriving DecidableEq, Repr

/-- The tensor that a step leaves under a name, if it is about that name. -/
def Step.tensor? (name : String) : Step → Option Tensor
  | add other shape values => if name = other then some ⟨shape, values⟩ else none
  | note .. => none

/-- The metadata that a step leaves under a key, if it is about that key. -/
def Step.note? (key : String) : Step → Option String
  | add .. => none
  | note other value => if key = other then some value else none

/-- Takes a step. -/
def step (b : Builder) : Step → Builder
  | .add name shape values => b.add name shape values
  | .note key value => b.note key value

/-- The builder that steps fill. -/
def ofSteps (steps : List Step) : Builder := steps.foldl step empty

/-- The tensor last added under a name. -/
def lastTensor? (steps : List Step) (name : String) : Option Tensor :=
  steps.reverse.findSome? (Step.tensor? name)

/-- The metadata last noted under a key. -/
def lastNote? (steps : List Step) (key : String) : Option String :=
  steps.reverse.findSome? (Step.note? key)

theorem get?_tensors_step (b : Builder) (s : Step) (name : String) :
    (b.step s).tensors.get? name = (s.tensor? name).or (b.tensors.get? name) := by
  cases s with
  | add other shape values =>
      rw [step, add, Table.get?_insert, Step.tensor?]
      by_cases h : name = other <;> simp [h]
  | note key value => rfl

theorem get?_metadata_step (b : Builder) (s : Step) (key : String) :
    (b.step s).metadata.get? key = (s.note? key).or (b.metadata.get? key) := by
  cases s with
  | add name shape values => rfl
  | note other value =>
      rw [step, note, Table.get?_insert, Step.note?]
      by_cases h : key = other <;> simp [h]

/-- What every step either sets or leaves alone is, after steps, what the last of them to
set it has set. -/
theorem find_foldl_step {α : Type} (find : Builder → Option α) (told : Step → Option α)
    (hstep : ∀ b s, find (step b s) = (told s).or (find b)) (steps : List Step) (b : Builder) :
    find (steps.foldl step b) = (steps.reverse.findSome? told).or (find b) := by
  induction steps generalizing b with
  | nil => rfl
  | cons s steps ih =>
      rw [List.foldl_cons, ih, hstep, List.reverse_cons, List.findSome?_append, Option.or_assoc]
      cases h : told s <;> simp [h]

/-- A builder holds under each name the tensor last added. -/
theorem get?_tensors_ofSteps (steps : List Step) (name : String) :
    (ofSteps steps).tensors.get? name = lastTensor? steps name := by
  have hfold := find_foldl_step (fun b => b.tensors.get? name) (Step.tensor? name)
    (fun b s => get?_tensors_step b s name) steps empty
  rw [ofSteps, hfold, empty, Table.get?_empty, Option.or_none, lastTensor?]

/-- A builder holds under each key the metadata last noted. -/
theorem get?_metadata_ofSteps (steps : List Step) (key : String) :
    (ofSteps steps).metadata.get? key = lastNote? steps key := by
  have hfold := find_foldl_step (fun b => b.metadata.get? key) (Step.note? key)
    (fun b s => get?_metadata_step b s key) steps empty
  rw [ofSteps, hfold, empty, Table.get?_empty, Option.or_none, lastNote?]

theorem tensor?_eq_some_iff (s : Step) (name : String) (t : Tensor) :
    s.tensor? name = some t ↔ s = .add name t.shape t.values := by
  obtain ⟨shape, values⟩ := t
  cases s with
  | add other dims elements =>
      rw [Step.tensor?]
      by_cases h : name = other
      · simp [h]
      · simp [h, Ne.symm h]
  | note key value => simp [Step.tensor?]

theorem isSome_lastTensor?_iff (steps : List Step) (name : String) :
    (lastTensor? steps name).isSome ↔ ∃ shape values, .add name shape values ∈ steps := by
  rw [lastTensor?, List.isSome_findSome?, List.any_eq_true]
  constructor
  · rintro ⟨s, hs, hsome⟩
    obtain ⟨t, ht⟩ := Option.isSome_iff_exists.mp hsome
    rw [tensor?_eq_some_iff] at ht
    subst ht
    exact ⟨t.shape, t.values, List.mem_reverse.mp hs⟩
  · rintro ⟨shape, values, hs⟩
    exact ⟨_, List.mem_reverse.mpr hs, by simp [Step.tensor?]⟩

/-- A builder has no tensor of a name that no step has added. -/
theorem get?_tensors_ofSteps_eq_none_iff (steps : List Step) (name : String) :
    (ofSteps steps).tensors.get? name = none ↔
      ∀ shape values, Step.add name shape values ∉ steps := by
  rw [get?_tensors_ofSteps, ← Option.not_isSome_iff_eq_none, isSome_lastTensor?_iff]
  simp only [not_exists]

end Builder

end Weights

end NetReplay
