import NetReplay.Device.Recorder
import NetReplay.Proofs.Device.Runs

/-!
# Conversations with a device

A conversation is the calls made to a device, each with the answer it gave
(`Exchange`). `Conversation.on` holds calls against a device, one after the other,
and collects the answers.
-/

namespace NetReplay

/-- What a device answers to a call. -/
inductive DeviceReply where
  | done
  | kernel (h : KernelHandle)
  | buffer (h : BufferHandle)
  | values (xs : List Single)
  deriving DecidableEq, Repr

namespace DeviceCall

variable {σ : Type} [Device σ]

/-- Makes a call to a device. -/
def perform : DeviceCall → DeviceM σ DeviceReply
  | setup => (fun _ => .done) <$> Device.setup
  | createKernel name source => .kernel <$> Device.createKernel name source
  | createBuffer byteSize writable => .buffer <$> Device.createBuffer byteSize writable
  | writeBuffer buffer data => (fun _ => .done) <$> Device.writeBuffer buffer data
  | readBuffer buffer count => .values <$> Device.readBuffer buffer count
  | runKernel kernel launch args => (fun _ => .done) <$> Device.runKernel kernel launch args

theorem perform_setup :
    setup.perform = (fun _ => .done) <$> (Device.setup : DeviceM σ Unit) := rfl

theorem perform_createKernel (name source : String) :
    (createKernel name source).perform =
      .kernel <$> (Device.createKernel name source : DeviceM σ KernelHandle) := rfl

theorem perform_createBuffer (byteSize : UInt64) (writable : Bool) :
    (createBuffer byteSize writable).perform =
      .buffer <$> (Device.createBuffer byteSize writable : DeviceM σ BufferHandle) := rfl

theorem perform_writeBuffer (buffer : BufferHandle) (data : List Single) :
    (writeBuffer buffer data).perform =
      (fun _ => .done) <$> (Device.writeBuffer buffer data : DeviceM σ Unit) := rfl

theorem perform_readBuffer (buffer : BufferHandle) (count : Nat) :
    (readBuffer buffer count).perform =
      .values <$> (Device.readBuffer buffer count : DeviceM σ (List Single)) := rfl

theorem perform_runKernel (kernel : KernelHandle) (launch : Launch) (args : List BufferHandle) :
    (runKernel kernel launch args).perform =
      (fun _ => .done) <$> (Device.runKernel kernel launch args : DeviceM σ Unit) := rfl

end DeviceCall

/-- A call with its answer. -/
structure Exchange where
  call : DeviceCall
  answer : Except DeviceError DeviceReply

namespace Conversation

variable {σ : Type} [Device σ]

/-- Makes calls to a device, one after the other: the conversation, and the
device after it. -/
def on (s : σ) : List DeviceCall → List Exchange × σ
  | [] => ([], s)
  | call :: calls =>
    let (answer, t) := call.perform.runFrom s
    let (talk, u) := on t calls
    (⟨call, answer⟩ :: talk, u)

/-- The conversation took place with a device in the first state, which it left in
the second. -/
def Holds (s : σ) (talk : List Exchange) (t : σ) : Prop :=
  on s (talk.map Exchange.call) = (talk, t)

theorem holds_nil (s : σ) : Holds s [] s := rfl

theorem Holds.append {s t u : σ} {talk others : List Exchange} (h : Holds s talk t)
    (hothers : Holds t others u) : Holds s (talk ++ others) u := by
  induction talk generalizing s with
  | nil =>
      cases h
      exact hothers
  | cons exchange talk ih =>
      obtain ⟨call, answer⟩ := exchange
      rw [Holds, List.map_cons, on] at h
      rw [Holds, List.cons_append, List.map_cons, on]
      obtain ⟨hexchange, hrest⟩ := Prod.ext_iff.mp h
      obtain ⟨hanswer, htalk⟩ := List.cons.inj hexchange
      have htail := ih (Prod.ext htalk hrest)
      rw [Holds] at htail
      dsimp only at hanswer ⊢
      rw [htail, hanswer]

end Conversation

namespace DeviceM

variable {σ α β : Type}

theorem runFrom_map (f : α → β) (x : DeviceM σ α) (s : σ) :
    (f <$> x).runFrom s = ((x.runFrom s).1.map f, (x.runFrom s).2) := by
  rw [map_eq_pure_bind, runFrom_bind]
  rcases x.runFrom s with ⟨e | a, t⟩
  · rfl
  · rfl

end DeviceM

end NetReplay
