/-!
# Phases of a model

A model is unconfigured until it is set up, and then either ready or faulted
for good.
-/

namespace NetReplay

/-- How far a model has come. -/
inductive Phase where
  /-- Nothing was allocated yet. -/
  | unconfigured
  /-- Buffers and kernels exist, and the model can run any number of times. -/
  | ready
  /-- Setting up failed part way, and the model cannot be used. -/
  | faulted
  deriving DecidableEq, Repr, Inhabited

def Phase.text : Phase → String
  | unconfigured => "unconfigured"
  | ready => "ready"
  | faulted => "faulted"

/-- The capitalised form of a phase, as it stands in the summary of a model. -/
def Phase.title : Phase → String
  | unconfigured => "Unconfigured"
  | ready => "Ready"
  | faulted => "Faulted"

end NetReplay
