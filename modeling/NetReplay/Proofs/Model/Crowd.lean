import NetReplay.Proofs.Model.Twins
import NetReplay.Proofs.Model.Validation

/-!
# Models on clones of one host

Models on clones of one host share its memory and are asked in any order (`Crowd`). No
two of them hold the same buffer, because a handle is issued once, and a request to one
model leaves the buffers of all others as they are (`Apart`, `apart_step`). So each of
them goes along with a model that is alone on a host of its own, and none can tell that
it is not alone (`models_apart`).
-/

namespace NetReplay

namespace Host

/-- A host of its own that was not set up, with given kernels registered. -/
def alone (available : Nat) (bodies : Table Kernel.Body) : Host :=
  bodies.toList.foldl (fun host e => host.register e.1 e.2) (new available)

theorem foldl_register (l : List (String × Kernel.Body)) (host : Host) :
    l.foldl (fun host e => host.register e.1 e.2) host =
      { host with registry := l.foldl (fun t e => t.insert e.1 e.2) host.registry } := by
  induction l generalizing host with
  | nil => rfl
  | cons e l ih =>
      rw [List.foldl_cons, ih]
      rfl

theorem alone_eq (available : Nat) (bodies : Table Kernel.Body) :
    alone available bodies = { new available with registry := bodies } := by
  rw [alone, foldl_register]
  exact congrArg (fun registry => ({ new available with registry } : Host))
    (Table.foldl_insert_toList bodies)

end Host

namespace Model

/-- The model, with the memory that its host shares with others. -/
def attach (m : Model Host.Local) (memory : Host.Memory) : Model Host :=
  ⟨⟨m.device, memory⟩, m.program, m.phase, m.buffers, m.kernels⟩

/-- The model without the shared memory. -/
def detach (m : Model Host) : Model Host.Local :=
  ⟨m.device.toLocal, m.program, m.phase, m.buffers, m.kernels⟩

/-- Models on clones of one host, with the memory that they share. -/
structure Crowd where
  models : List (Model Host.Local)
  memory : Host.Memory

namespace Crowd

/-- New models, each on a clone of its own. -/
def ofMembers (members : List (Host.Local × Program)) (memory : Host.Memory) : Crowd :=
  ⟨members.map fun e => Model.new e.1 e.2, memory⟩

/-- One of the models, on its clone. -/
def model? (c : Crowd) (i : Nat) : Option (Model Host) := c.models[i]?.map (·.attach c.memory)

/-- Asks one of the models; a request to one that does not exist changes nothing. -/
def step (c : Crowd) (e : Nat × Request) : Crowd :=
  match c.model? e.1 with
  | some m => ⟨c.models.set e.1 (m.step e.2).detach, (m.step e.2).device.memory⟩
  | none => c

/-- The crowd after requests, one after the other. -/
def after (c : Crowd) (history : List (Nat × Request)) : Crowd := history.foldl step c

/-- After a request, the model that was asked is as the request leaves it, and any other
has got the new memory. -/
theorem model?_step {c : Crowd} {e : Nat × Request} {m : Model Host}
    (hm : c.model? e.1 = some m) (j : Nat) :
    (c.step e).model? j = if e.1 = j then some (m.step e.2)
      else (c.model? j).map (·.withMemory (m.step e.2).device.memory) := by
  rw [step, hm, model?]
  dsimp only
  rw [List.getElem?_set]
  by_cases hj : e.1 = j
  · rw [if_pos hj, if_pos hj]
    obtain ⟨own, hown, -⟩ := Option.map_eq_some_iff.mp hm
    obtain ⟨hlt, -⟩ := List.getElem?_eq_some_iff.mp hown
    rw [if_pos hlt]
    rfl
  · rw [if_neg hj, if_neg hj, model?, Option.map_map]
    rfl

theorem memory_of_model? {c : Crowd} {i : Nat} {m : Model Host} (hm : c.model? i = some m) :
    m.device.memory = c.memory := by
  obtain ⟨own, -, rfl⟩ := Option.map_eq_some_iff.mp hm
  rfl

end Crowd

/-- Every model goes along with one of its own, and no two hold the same buffer. -/
structure Apart (c : Crowd) (solo : Nat → Model Host) : Prop where
  twins : ∀ i m, c.model? i = some m → Twin m (solo i)
  held : ∀ i m, c.model? i = some m → m.Held
  disjoint : ∀ i j m n, i ≠ j → c.model? i = some m → c.model? j = some n →
    ∀ key other h, m.buffers.get? key = some h → n.buffers.get? other ≠ some h

section

variable {c : Crowd} {solo : Nat → Model Host} {e : Nat × Request} {m k : Model Host} {i : Nat}

/-- A buffer that another model holds is still there, and as it was, after a request. -/
theorem Apart.get?_of_spares (h : Apart c solo) (hm : c.model? e.1 = some m)
    (hspares : Spares m (m.step e.2)) (hne : e.1 ≠ i) (hk : c.model? i = some k) {key : String}
    {a : BufferHandle} (ha : k.buffers.get? key = some a) :
    ∃ b, k.device.memory.get? a = some b ∧ (m.step e.2).device.memory.get? a = some b := by
  obtain ⟨b, hb⟩ := Host.Memory.exists_of_contains (h.held i k hk key a ha)
  refine ⟨b, hb, hspares.outside a b ?_ fun other hother => ?_⟩
  · rw [Crowd.memory_of_model? hm, ← Crowd.memory_of_model? hk]
    exact hb
  · exact h.disjoint e.1 i m k hne hm hk other key a hother ha

/-- What a model holds after a request, no other model holds. -/
theorem Apart.disjoint_of_spares (h : Apart c solo) (hm : c.model? e.1 = some m)
    (hspares : Spares m (m.step e.2)) (hne : e.1 ≠ i) (hk : c.model? i = some k)
    (key other : String) (a : BufferHandle) (ha : (m.step e.2).buffers.get? key = some a) :
    k.buffers.get? other ≠ some a := by
  intro hother
  rcases hspares.own key a ha with hold | hnew
  · exact h.disjoint e.1 i m k hne hm hk key other a hold hother
  · obtain ⟨b, hb⟩ := Host.Memory.exists_of_contains (h.held i k hk other a hother)
    rw [Crowd.memory_of_model? hm, ← Crowd.memory_of_model? hk, hb] at hnew
    cases hnew

/-- A request to one of the models, and to the one that it goes along with, keeps all of
them apart. -/
theorem apart_step (h : Apart c solo) (e : Nat × Request) :
    Apart (c.step e) fun i => if e.1 = i then (solo i).step e.2 else solo i := by
  cases hm : c.model? e.1 with
  | none =>
      rw [Crowd.step, hm]
      refine ⟨fun i k hk => ?_, h.held, h.disjoint⟩
      have hne : e.1 ≠ i := by
        rintro rfl
        exact absurd (hm.symm.trans hk) (by simp)
      rw [if_neg hne]
      exact h.twins i k hk
  | some m =>
      have hspares := (h.twins e.1 m hm).spares (h.held e.1 m hm) e.2
      have hstep := Crowd.model?_step hm
      refine ⟨fun i k hk => ?_, fun i k hk => ?_, fun i j k n hne hk hn => ?_⟩
      · rw [hstep] at hk
        by_cases hi : e.1 = i
        · rw [if_pos hi] at hk
          cases hk
          rw [if_pos hi, ← hi]
          exact ((h.twins e.1 m hm).request e.2).2
        · rw [if_neg hi, Option.map_eq_some_iff] at hk
          obtain ⟨k, hk, rfl⟩ := hk
          rw [if_neg hi]
          have hmemory := (Crowd.memory_of_model? hk).trans (Crowd.memory_of_model? hm).symm
          refine (h.twins i k hk).withMemory ?_ ?_ fun key a ha => ?_
          · rw [hmemory]
            exact hspares.available
          · rw [hmemory]
            exact hspares.keeps
          · obtain ⟨b, hb, hb'⟩ := h.get?_of_spares hm hspares hi hk ha
            exact hb'.trans hb.symm
      · rw [hstep] at hk
        by_cases hi : e.1 = i
        · rw [if_pos hi] at hk
          cases hk
          exact hspares.held
        · rw [if_neg hi, Option.map_eq_some_iff] at hk
          obtain ⟨k, hk, rfl⟩ := hk
          intro key a ha
          obtain ⟨b, -, hb⟩ := h.get?_of_spares hm hspares hi hk ha
          exact Option.isSome_iff_exists.mpr ⟨b, hb⟩
      · intro key other a ha hother
        rw [hstep] at hk hn
        by_cases hi : e.1 = i
        · have hj : e.1 ≠ j := hi ▸ hne
          rw [if_pos hi] at hk
          rw [if_neg hj, Option.map_eq_some_iff] at hn
          cases hk
          obtain ⟨n, hn, rfl⟩ := hn
          exact h.disjoint_of_spares hm hspares hj hn key other a ha hother
        · rw [if_neg hi, Option.map_eq_some_iff] at hk
          obtain ⟨k, hk, rfl⟩ := hk
          by_cases hj : e.1 = j
          · rw [if_pos hj] at hn
            cases hn
            exact h.disjoint_of_spares hm hspares hi hk other key a hother ha
          · rw [if_neg hj, Option.map_eq_some_iff] at hn
            obtain ⟨n, hn, rfl⟩ := hn
            exact h.disjoint i j k n hne hk hn key other a ha hother

end

/-! ## Whole histories -/

/-- The requests of a history that one model was asked. -/
def requestsOf (i : Nat) (history : List (Nat × Request)) : List Request :=
  history.filterMap fun e => if e.1 = i then some e.2 else none

theorem apart_after {c : Crowd} {solo : Nat → Model Host} (h : Apart c solo)
    (history : List (Nat × Request)) :
    Apart (c.after history) fun i => (solo i).after (requestsOf i history) := by
  induction history generalizing c solo with
  | nil => exact h
  | cons e history ih =>
      have hrest := ih (apart_step h e)
      have hsolo : ∀ i, (if e.1 = i then (solo i).step e.2 else solo i).after
          (requestsOf i history) = (solo i).after (requestsOf i (e :: history)) := by
        intro i
        rw [requestsOf, requestsOf, List.filterMap_cons]
        by_cases hi : e.1 = i
        · rw [if_pos hi, if_pos hi]
          rfl
        · rw [if_neg hi, if_neg hi]
      simp only [hsolo] at hrest
      exact hrest

theorem Crowd.length_models_after (c : Crowd) (history : List (Nat × Request)) :
    (c.after history).models.length = c.models.length := by
  induction history generalizing c with
  | nil => rfl
  | cons e history ih =>
      refine (ih (c.step e)).trans ?_
      rw [step]
      cases c.model? e.1 with
      | none => rfl
      | some m => exact List.length_set ..

/-- New models on clones that were not set up go along with new models on hosts of their
own. -/
theorem apart_ofMembers {members : List (Host.Local × Program)}
    (hfresh : ∀ e ∈ members, e.1.initialized = false) (memory : Host.Memory)
    {solo : Nat → Model Host} (hsolo : ∀ (i : Nat) (e : Host.Local × Program),
      members[i]? = some e → solo i = new (Host.alone memory.available e.1.registry) e.2) :
    Apart (Crowd.ofMembers members memory) solo := by
  have hnew : ∀ i m, (Crowd.ofMembers members memory).model? i = some m →
      ∃ e : Host.Local × Program, members[i]? = some e ∧ m = new ⟨e.1, memory⟩ e.2 := by
    intro i m hm
    rw [Crowd.model?, Crowd.ofMembers, List.getElem?_map, Option.map_map,
      Option.map_eq_some_iff] at hm
    obtain ⟨e, he, rfl⟩ := hm
    exact ⟨e, he, rfl⟩
  refine ⟨fun i m hm => ?_, fun i m hm key h hh => ?_, fun i j m n _ hm _ key _ h hh => ?_⟩
  · obtain ⟨e, he, rfl⟩ := hnew i m hm
    rw [hsolo i e he, Host.alone_eq]
    exact .unconfigured e.2 (hfresh e (List.mem_of_getElem? he)) rfl rfl rfl
  · obtain ⟨e, -, rfl⟩ := hnew i m hm
    cases hh
  · obtain ⟨e, -, rfl⟩ := hnew i m hm
    cases hh

/-- Models on clones of one host do not interfere, whatever lies in the memory that the
clones share, and however setups and runs of the models alternate: each answers every
request as it would after its own requests alone, on a host of its own with the same
kernels and as much memory, but for the handles in a failure. It is in the same phase,
and when it is ready its buffers hold the same numbers. -/
theorem models_apart (memory : Host.Memory) {members : List (Host.Local × Program)}
    (hfresh : ∀ e ∈ members, e.1.initialized = false) (history : List (Nat × Request)) {i : Nat}
    {own : Host.Local} {p : Program} (hi : members[i]? = some (own, p)) :
    let solo := (new (Host.alone memory.available own.registry) p).after (requestsOf i history)
    ∃ m, ((Crowd.ofMembers members memory).after history).model? i = some m ∧
      m.phase = solo.phase ∧ (m.phase = .ready → m.contents? = solo.contents?) ∧
      ∀ request, (m.answer request).mapError Error.anonymous =
          (solo.answer request).mapError Error.anonymous ∧
        (m.step request).phase = (solo.step request).phase := by
  intro solo
  have hstart : Apart (Crowd.ofMembers members memory) fun k =>
      let e := (members[k]?).getD (own, p)
      new (Host.alone memory.available e.1.registry) e.2 := by
    refine apart_ofMembers hfresh memory fun k e he => ?_
    rw [he, Option.getD_some]
  have hafter := apart_after hstart history
  obtain ⟨m, hm⟩ : ∃ m, ((Crowd.ofMembers members memory).after history).model? i = some m := by
    have hlt : i < ((Crowd.ofMembers members memory).after history).models.length := by
      rw [Crowd.length_models_after, Crowd.ofMembers, List.length_map]
      exact (List.getElem?_eq_some_iff.mp hi).1
    rw [Crowd.model?, List.getElem?_eq_getElem hlt]
    exact ⟨_, rfl⟩
  have htwin := hafter.twins i m hm
  rw [hi, Option.getD_some] at htwin
  refine ⟨m, hm, htwin.phase_eq, htwin.contents_eq, fun request => ?_⟩
  obtain ⟨hanswer, hnext⟩ := htwin.request request
  exact ⟨hanswer, hnext.phase_eq⟩

/-- Two models of the copying program on clones of one host. -/
def copyMembers : List (Host.Local × Program) :=
  [(copyHost.toLocal, copyProgram), (copyHost.toLocal, copyProgram)]

/-- Both are set up, and the second runs between two runs of the first. -/
def copyRequests : List (Nat × Request) :=
  [(0, .setup ⟨⟨.empty, .empty⟩, []⟩), (1, .setup ⟨⟨.empty, .empty⟩, []⟩), (0, .run [⟨3⟩, ⟨4⟩]),
    (1, .run [⟨7⟩, ⟨8⟩])]

theorem models_apart_copyMembers :
    (∀ e ∈ copyMembers, e.1.initialized = false) ∧
      copyMembers[0]? = some (copyHost.toLocal, copyProgram) ∧
      ∃ m, ((Crowd.ofMembers copyMembers copyHost.memory).after copyRequests).model? 0 = some m ∧
        m.answer (.run [⟨5⟩, ⟨6⟩]) = .ok (.outputs [⟨5⟩, ⟨6⟩]) := by
  have hfresh : ∀ e ∈ copyMembers, e.1.initialized = false := by
    simp [copyMembers, copyHost, Host.register, Host.new]
  obtain ⟨m, hm, -, -, hanswers⟩ :=
    models_apart copyHost.memory hfresh copyRequests (i := 0) rfl
  have halone : ((new (Host.alone copyHost.memory.available copyHost.registry) copyProgram).after
      (requestsOf 0 copyRequests)).answer (.run [⟨5⟩, ⟨6⟩]) = .ok (.outputs [⟨5⟩, ⟨6⟩]) := rfl
  have hanswer := (hanswers (.run [⟨5⟩, ⟨6⟩])).1
  rw [halone, mapError_ok] at hanswer
  refine ⟨hfresh, rfl, m, hm, ?_⟩
  cases hm : m.answer (.run [⟨5⟩, ⟨6⟩]) with
  | ok reply =>
      rw [hm, mapError_ok] at hanswer
      exact hanswer
  | error e =>
      rw [hm, mapError_error] at hanswer
      cases hanswer

end Model

end NetReplay
