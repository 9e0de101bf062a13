import NetReplay.Proofs.Device.Conversation
import NetReplay.Proofs.Model.Runs

/-!
# The conversation of a model with its device

An action on a model can be tried on a recorder of its device, which takes the
calls down (`Model.talk`). Recording changes nothing else: `Runs` says of an
action, and of the same action on a recorder, that both end alike and that the
recorder has taken down the conversation that took place. Each way to put
actions together has its rule for `Runs`, so the conversation of an action is
read off its definition.
-/

namespace NetReplay

namespace Model

open ModelM

variable {σ α β : Type}

/-- The model on a recorder of its device, with the calls taken down so far. -/
def recorded (m : Model σ) (log : List DeviceCall) : Model (Recorder σ) :=
  ⟨⟨m.device, log, []⟩, m.program, m.phase, m.buffers, m.kernels⟩

/-- The calls that an action makes to the device of a model. -/
def calls (x : ModelM (Recorder σ) α) (m : Model σ) : List DeviceCall :=
  (x.runFrom (m.recorded [])).2.device.calls

variable [Device σ]

/-- The conversation with the device of a model during an action. -/
def talk (x : ModelM (Recorder σ) α) (m : Model σ) : List Exchange :=
  (Conversation.on m.device (calls x m)).1

/-- An action, and the same action on a recorder, end with this result and leave
this model behind, after this conversation with the device. -/
structure Runs (x : ModelM σ α) (y : ModelM (Recorder σ) α) (m : Model σ)
    (talk : List Exchange) (r : Except Error α) (n : Model σ) : Prop where
  plain : x.runFrom m = (r, n)
  recorded : ∀ log, y.runFrom (m.recorded log) = (r, n.recorded (log ++ talk.map Exchange.call))
  holds : Conversation.Holds m.device talk n.device

/-- Taking the conversation down shows in nothing: the recorded action ends like the
action itself, and its calls, made to the device, leave it as the action does. -/
structure Faithful (x : ModelM σ α) (y : ModelM (Recorder σ) α) (m : Model σ) : Prop where
  recorded : y.runFrom (m.recorded []) = ((x.runFrom m).1, (x.runFrom m).2.recorded (calls y m))
  holds : Conversation.Holds m.device (talk y m) (x.runFrom m).2.device

namespace Runs

variable {x : ModelM σ α} {y : ModelM (Recorder σ) α} {f : α → ModelM σ β}
  {g : α → ModelM (Recorder σ) β} {m n k : Model σ} {said others : List Exchange}

theorem talk_eq {r : Except Error α} (h : Runs x y m said r n) : talk y m = said := by
  rw [talk, calls, h.recorded []]
  exact congrArg Prod.fst h.holds

theorem faithful {r : Except Error α} (h : Runs x y m said r n) : Faithful x y m where
  recorded := by
    rw [calls, h.plain, h.recorded []]
    rfl
  holds := by
    rw [h.talk_eq, h.plain]
    exact h.holds

theorem pure (a : α) (m : Model σ) : Runs (pure a) (pure a) m [] (.ok a) m where
  plain := rfl
  recorded log := by
    rw [List.map_nil, List.append_nil]
    rfl
  holds := Conversation.holds_nil m.device

theorem ofExcept (r : Except Error α) (m : Model σ) :
    Runs (ofExcept r) (Model.ofExcept r) m [] r m where
  plain := rfl
  recorded log := by
    rw [List.map_nil, List.append_nil]
    rfl
  holds := Conversation.holds_nil m.device

theorem modify {f : Model σ → Model σ} {g : Model (Recorder σ) → Model (Recorder σ)}
    (hdevice : (f m).device = m.device)
    (hg : ∀ log, g (m.recorded log) = (f m).recorded log) :
    Runs (modify f) (modify g) m [] (.ok ⟨⟩) (f m) where
  plain := rfl
  recorded log := by
    rw [runFrom_modify, hg, List.map_nil, List.append_nil]
  holds := by
    rw [hdevice]
    exact Conversation.holds_nil m.device

/-- What is read off a model does not show whether it is recorded. -/
theorem get_bind {f : Model σ → ModelM σ α} {g : Model (Recorder σ) → ModelM (Recorder σ) α}
    {r : Except Error α} (hg : ∀ log, g (m.recorded log) = y) (h : Runs (f m) y m said r n) :
    Runs (get >>= f) (get >>= g) m said r n where
  plain := by
    rw [runFrom_bind, runFrom_get]
    exact h.plain
  recorded log := by
    rw [runFrom_bind, runFrom_get]
    dsimp only
    rw [hg]
    exact h.recorded log
  holds := h.holds

theorem bind {a : α} {r : Except Error β} (hx : Runs x y m said (.ok a) n)
    (hf : Runs (f a) (g a) n others r k) :
    Runs (x >>= f) (y >>= g) m (said ++ others) r k where
  plain := by
    rw [runFrom_bind, hx.plain]
    exact hf.plain
  recorded log := by
    rw [runFrom_bind, hx.recorded, List.map_append, ← List.append_assoc]
    exact hf.recorded _
  holds := hx.holds.append hf.holds

theorem bind_error {e : Error} (hx : Runs x y m said (.error e) n) :
    Runs (x >>= f) (y >>= g) m said (.error e) n where
  plain := by
    rw [runFrom_bind, hx.plain]
  recorded log := by
    rw [runFrom_bind, hx.recorded]
  holds := hx.holds

theorem of_talk_eq {r : Except Error α} (h : Runs x y m said r n) (heq : said = others) :
    Runs x y m others r n :=
  heq ▸ h

/-- Actions that run alike have the same conversations. -/
theorem congr {x' : ModelM σ α} {y' : ModelM (Recorder σ) α} {r : Except Error α}
    (hx : x'.runFrom m = x.runFrom m)
    (hy : ∀ log, y'.runFrom (m.recorded log) = y.runFrom (m.recorded log))
    (h : Runs x y m said r n) : Runs x' y' m said r n where
  plain := hx.trans h.plain
  recorded log := (hy log).trans (h.recorded log)
  holds := h.holds

/-- A step of the device is a conversation of one call. -/
theorem onDevice {d : DeviceM σ α} {call : DeviceCall} {reply : α → DeviceReply}
    (hcall : call.perform = reply <$> d) (wrap : DeviceError → Error) (m : Model σ) :
    Runs (onDevice d wrap) (Model.onDevice (Recorder.pass call d) wrap) m
      [⟨call, (d.runFrom m.device).1.map reply⟩] ((d.runFrom m.device).1.mapError wrap)
      { m with device := (d.runFrom m.device).2 } where
  plain := rfl
  recorded log := rfl
  holds := by
    rw [Conversation.Holds, List.map_singleton, Conversation.on, hcall, DeviceM.runFrom_map]
    rfl

/-- A call is answered or fails. -/
theorem onDevice_cases {d : DeviceM σ α} {call : DeviceCall} {reply : α → DeviceReply}
    (hcall : call.perform = reply <$> d) (wrap : DeviceError → Error) (m : Model σ) :
    (∃ a device, Runs (Model.onDevice d wrap) (Model.onDevice (Recorder.pass call d) wrap) m
        [⟨call, .ok (reply a)⟩] (.ok a) { m with device }) ∨
      ∃ cause device, Runs (Model.onDevice d wrap)
        (Model.onDevice (Recorder.pass call d) wrap) m
        [⟨call, .error cause⟩] (.error (wrap cause)) { m with device } := by
  have h := onDevice hcall wrap m
  rcases hd : d.runFrom m.device with ⟨cause | a, device⟩
  · rw [hd] at h
    exact Or.inr ⟨cause, device, h⟩
  · rw [hd] at h
    exact Or.inl ⟨a, device, h⟩

end Runs

end Model

end NetReplay
