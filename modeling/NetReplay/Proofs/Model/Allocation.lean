import NetReplay.Host.Basic
import NetReplay.Proofs.Model.Provisioning
import NetReplay.Proofs.Program.Decoding
import NetReplay.Proofs.Weights.Safety

/-!
# Accepted programs can be allocated

An accepted program has no buffer whose bytes a word cannot count
(`Program.ofBytes_eq_ok_iff`), so every size that a setup asks for is there, and the
failure of `Model.allocationSize` is never met. It would be a failure of the device
that no device has answered; but every failure of the device that a setup reports was
answered in its conversation (`Model.Answers`, one lemma for each way to put actions
together). The main result is `Program.allocatable_of_ofBytes`.
-/

namespace NetReplay

namespace Program

/-! ## What an accepted program is like -/

/-- An accepted program is the one that its document describes. It is for the right
kind of device, and the bytes of its buffers can be counted. -/
theorem ofBytes_eq_ok_iff (s : List UInt8) (p : Program) :
    ofBytes s = .ok p ↔
      ∃ doc, Document.read s = .ok doc ∧ doc.backend = supportedTag ∧
        (ofDocument doc).oversized? = none ∧ p = ofDocument doc := by
  rw [ofBytes]
  cases Document.read s with
  | error cause => simp
  | ok doc =>
      by_cases hbackend : doc.backend = supportedTag
      · cases hover : (ofDocument doc).oversized? with
        | some b => simp [hbackend, hover]
        | none => simp [hbackend, hover, eq_comm]
      · simp [hbackend]

namespace Descriptor

theorem source_ofLayout_ne (key : String) (layout : Layout) :
    (ofLayout key layout).source ≠ some "" := by
  rw [ofLayout_eq]
  dsimp only
  split
  · simp
  · rename_i hid
    exact fun hsource => hid (Option.some.inj hsource)

/-- The bytes of a buffer, where they can be counted, are four for each element. -/
theorem byteSize?_eq_some_iff (d : Descriptor) (size : UInt64) :
    d.byteSize? = some size ↔ size.toNat = 4 * d.elements.toNat := by
  rw [byteSize?, Word.mul?_eq_some_iff, elementBytes, eq_comm, Nat.mul_comm]
  rfl

theorem elements_le_of_byteSize? {d : Descriptor} {size : UInt64}
    (h : d.byteSize? = some size) : d.elements.toNat ≤ Description.maxElements := by
  have hmax : Description.maxElements = 4611686018427387903 := rfl
  have hlt := size.toNat_lt
  rw [byteSize?_eq_some_iff] at h
  omega

end Descriptor

theorem exists_byteSize?_of_oversized? {p : Program} (h : p.oversized? = none)
    {d : Descriptor} (hd : d ∈ p.descriptors) : ∃ size, d.byteSize? = some size := by
  rw [oversized?, List.find?_eq_none] at h
  cases hsize : d.byteSize? with
  | some size => exact ⟨size, rfl⟩
  | none =>
      have hfail := h d hd
      rw [hsize] at hfail
      exact absurd rfl hfail

end Program

/-! ## Failures of the device -/

namespace Model

open ModelM

variable {σ α β : Type} [Device σ]

/-- The action keeps the program, and a failure of the device that it ends with was
answered in its conversation. -/
def Answers (x : ModelM σ α) (y : ModelM (Recorder σ) α) (m : Model σ) : Prop :=
  ∃ talk r n, Runs x y m talk r n ∧ n.program = m.program ∧
    ∀ cause, r = .error (.device cause) → ∃ exchange ∈ talk, exchange.answer = .error cause

namespace Answers

variable {m : Model σ}

theorem pure (a : α) (m : Model σ) : Answers (pure a) (pure a) m :=
  ⟨[], .ok a, m, .pure a m, rfl, nofun⟩

theorem ofExcept {r : Except Error α} (h : ∀ cause, r ≠ .error (.device cause)) (m : Model σ) :
    Answers (Model.ofExcept r) (Model.ofExcept r) m :=
  ⟨[], r, m, .ofExcept r m, rfl, fun cause heq => absurd heq (h cause)⟩

theorem onDevice {d : DeviceM σ α} {call : DeviceCall} {reply : α → DeviceReply}
    (hcall : call.perform = reply <$> d) (m : Model σ) :
    Answers (Model.onDevice d .device) (Model.onDevice (Recorder.pass call d) .device) m := by
  obtain ⟨a, device, hruns⟩ | ⟨cause, device, hruns⟩ := Runs.onDevice_cases hcall .device m
  · exact ⟨_, _, _, hruns, rfl, nofun⟩
  · refine ⟨_, _, _, hruns, rfl, fun c heq => ⟨_, List.mem_singleton_self _, ?_⟩⟩
    cases heq
    rfl

theorem bind {x : ModelM σ α} {y : ModelM (Recorder σ) α} {f : α → ModelM σ β}
    {g : α → ModelM (Recorder σ) β} (hx : Answers x y m)
    (hf : ∀ a n, n.program = m.program → Answers (f a) (g a) n) :
    Answers (x >>= f) (y >>= g) m := by
  obtain ⟨said, r, n, hruns, hprogram, hsaid⟩ := hx
  cases r with
  | error e =>
      refine ⟨said, .error e, n, hruns.bind_error, hprogram, fun cause heq => ?_⟩
      cases heq
      exact hsaid cause rfl
  | ok a =>
      obtain ⟨others, r, k, hothers, hkept, hanswers⟩ := hf a n hprogram
      refine ⟨said ++ others, r, k, hruns.bind hothers, hkept.trans hprogram, fun cause heq => ?_⟩
      obtain ⟨exchange, hmem, hanswer⟩ := hanswers cause heq
      exact ⟨exchange, List.mem_append_right _ hmem, hanswer⟩

theorem forM {τ : Type} {f : τ → ModelM σ Unit} {g : τ → ModelM (Recorder σ) Unit} {l : List τ}
    (h : ∀ a ∈ l, ∀ n : Model σ, Answers (f a) (g a) n) (m : Model σ) :
    Answers (l.forM f) (l.forM g) m := by
  induction l generalizing m with
  | nil => exact .pure PUnit.unit m
  | cons a l ih =>
      rw [forM_cons, forM_cons]
      rw [List.forall_mem_cons] at h
      exact (h.1 m).bind fun _ n _ => ih h.2 n

end Answers

/-- Weights have no failures of a device. -/
theorem values_ne_device (weights : Weights.Store) (name : String) (cause : DeviceError) :
    weights.values name ≠ .error (.device cause) := by
  cases hr : weights.header.records.get? name with
  | none =>
      rw [Weights.Store.values_of_none hr]
      nofun
  | some r =>
      rw [Weights.Store.values_of_some hr]
      split
      · nofun
      · nofun

theorem answers_fill (weights : Weights.Store) (d : Program.Descriptor) (h : BufferHandle)
    (m : Model σ) : Answers (fill weights d h) (fill weights d h) m := by
  unfold fill
  cases d.source with
  | none => exact .pure () m
  | some source =>
      refine .bind (.ofExcept (values_ne_device weights source) m) fun values n _ => ?_
      exact .onDevice (DeviceCall.perform_writeBuffer h values) n

/-- Where the size is there, an allocation meets no other failure of the device than
those that the device answers. -/
theorem answers_allocate {d : Program.Descriptor} {size : UInt64}
    (hsize : d.byteSize? = some size) (key : String) (writable : Bool)
    {x : BufferHandle → ModelM σ Unit} {y : BufferHandle → ModelM (Recorder σ) Unit}
    (hfill : ∀ h n, Answers (x h) (y h) n) (m : Model σ) :
    Answers (allocate key d writable x) (allocate key d writable y) m := by
  have hok : allocationSize d = .ok size := by
    rw [allocationSize, hsize]
  have hfine : ∀ cause, (Except.ok size : Except Error UInt64) ≠ .error (.device cause) := by
    simp
  unfold allocate
  rw [hok]
  refine .bind (.ofExcept hfine m) fun size n _ => ?_
  refine .bind (.onDevice (DeviceCall.perform_createBuffer size writable) n) fun h n _ => ?_
  refine .bind (hfill h n) fun _ n _ => ?_
  exact ⟨[], _, _, Runs.modify rfl fun _ => rfl, rfl, by simp⟩

theorem answers_compile (key source : String) (m : Model σ) :
    Answers (compile key source) (compile key source) m := by
  unfold compile
  refine .bind (.onDevice (DeviceCall.perform_createKernel key source) m) fun h n _ => ?_
  exact ⟨[], _, _, Runs.modify rfl fun _ => rfl, rfl, nofun⟩

theorem answers_equip (weights : Weights.Store) {p : Program}
    (hsizes : ∀ d ∈ p.descriptors, ∃ size, d.byteSize? = some size) (m : Model σ) :
    Answers (equip weights p) (equip weights p) m := by
  have hbuffers : ∀ e ∈ p.buffers.toList, ∀ n : Model σ,
      Answers (place weights e) (place weights e) n := by
    intro e he n
    obtain ⟨size, hsize⟩ := hsizes e.2 (List.mem_append_left _ (List.mem_map_of_mem he))
    exact answers_allocate hsize e.1 _ (answers_fill weights e.2) n
  obtain ⟨inputSize, hinput⟩ :=
    hsizes p.input (List.mem_append_right _ List.mem_cons_self)
  obtain ⟨outputSize, houtput⟩ :=
    hsizes p.output (List.mem_append_right _ (List.mem_cons_of_mem _ List.mem_cons_self))
  unfold equip
  refine .bind (.forM hbuffers m) fun _ n _ => ?_
  refine .bind (answers_allocate hinput _ _ (fun _ => .pure ()) n) fun _ n _ => ?_
  refine .bind (answers_allocate houtput _ _ (fun _ => .pure ()) n) fun _ n _ => ?_
  exact .forM (fun e _ => answers_compile e.1 e.2) n

theorem answers_provision (weights : Weights.Store) {m : Model σ}
    (hsizes : ∀ d ∈ m.program.descriptors, ∃ size, d.byteSize? = some size) :
    Answers (provision weights) (provision weights) m := by
  unfold provision
  refine .bind (.onDevice DeviceCall.perform_setup m) fun _ n hprogram => ?_
  obtain ⟨talk, r, k, hequip, hkept, hanswers⟩ :=
    answers_equip weights (hprogram ▸ hsizes : ∀ d ∈ n.program.descriptors, _) n
  exact ⟨talk, r, k, Runs.get_bind (fun _ => rfl) hequip, hkept, hanswers⟩

/-- A failure of the device that a setup reports was answered by the device. -/
theorem answers_setup (weights : Weights.Store) {m : Model σ}
    (hsizes : ∀ d ∈ m.program.descriptors, ∃ size, d.byteSize? = some size) :
    Answers (setup weights) (setup weights) m := by
  by_cases hphase : m.phase = .unconfigured
  · obtain ⟨talk, r, n, hruns, hprogram, hanswers⟩ := answers_provision weights hsizes
    exact ⟨talk, r, _, runs_setup hphase hruns, hprogram, hanswers⟩
  · exact ⟨[], _, m, runs_setup_of_phase weights hphase, rfl, nofun⟩

end Model

namespace Program

/-- Every program that is accepted can be allocated. Its buffers carry their keys, none
of them is filled from an empty name, and each has so few elements that a word counts
its bytes. So a setup reports no failure of the device but those that the device
answers, and the lengths of the input and the output are the declared ones, which are
no largest words. -/
theorem allocatable_of_ofBytes {s : List UInt8} {p : Program} (h : ofBytes s = .ok p) :
    p.backendTag = "GPU" ∧
    (∀ key d, p.buffers.get? key = some d → d.key = key ∧ d.source ≠ some "") ∧
    (p.input.key = "input" ∧ p.input.source = none) ∧
    (p.output.key = "outputs" ∧ p.output.source = none) ∧
    (∀ d ∈ p.descriptors, d.elements.toNat ≤ Description.maxElements ∧
      ∃ size, d.byteSize? = some size ∧ size.toNat = 4 * d.elements.toNat ∧
        Model.allocationSize d = .ok size) ∧
    (∀ (σ : Type) [Device σ] (m : Model σ) weights cause, m.program = p →
      ((Model.setup weights).runFrom m).1 = .error (.device cause) →
      ∃ exchange ∈ Model.talk (Model.setup weights) m, exchange.answer = .error cause) ∧
    ∃ doc, Document.read s = .ok doc ∧
      p.inputLength = doc.inputSize.port.elements.toNat ∧ p.inputLength < Word.largest.toNat ∧
      p.outputLength = doc.outputSize.port.elements.toNat ∧
      p.outputLength < Word.largest.toNat := by
  obtain ⟨doc, hread, hbackend, hover, rfl⟩ := (ofBytes_eq_ok_iff s p).mp h
  have hinput := ofSizeField_eq inputKey doc.inputSize
  have houtput := ofSizeField_eq outputKey doc.outputSize
  have hsizes : ∀ d ∈ (ofDocument doc).descriptors, ∃ size, d.byteSize? = some size :=
    fun d hd => exists_byteSize?_of_oversized? hover hd
  have hle : ∀ d ∈ (ofDocument doc).descriptors, d.elements.toNat < Word.largest.toNat := by
    intro d hd
    obtain ⟨size, hsize⟩ := hsizes d hd
    have hle := Descriptor.elements_le_of_byteSize? hsize
    rw [Word.toNat_largest]
    exact Nat.lt_of_le_of_lt hle (by decide)
  refine ⟨hbackend, fun key d hget => ?_, ?_, ?_, fun d hd => ?_, ?_, doc, hread, ?_, ?_, ?_, ?_⟩
  · rw [ofDocument, Table.get?_map, Option.map_eq_some_iff] at hget
    obtain ⟨layout, -, rfl⟩ := hget
    exact ⟨rfl, Descriptor.source_ofLayout_ne key layout⟩
  · rw [ofDocument, hinput]
    exact ⟨rfl, rfl⟩
  · rw [ofDocument, houtput]
    exact ⟨rfl, rfl⟩
  · obtain ⟨size, hsize⟩ := hsizes d hd
    refine ⟨Descriptor.elements_le_of_byteSize? hsize, size, hsize,
      (Descriptor.byteSize?_eq_some_iff d size).mp hsize, ?_⟩
    rw [Model.allocationSize, hsize]
  · intro σ _ m weights cause hprogram herror
    obtain ⟨talk, r, n, hruns, -, hanswers⟩ :=
      Model.answers_setup weights (hprogram ▸ hsizes : ∀ d ∈ m.program.descriptors, _)
    rw [hruns.plain] at herror
    rw [hruns.talk_eq]
    exact hanswers cause herror
  · rw [inputLength, ofDocument, hinput]
  · exact hle _ (List.mem_append_right _ List.mem_cons_self)
  · rw [outputLength, ofDocument, houtput]
  · exact hle _ (List.mem_append_right _ (List.mem_cons_of_mem _ List.mem_cons_self))

/-- A program whose input is as long as it can be, with a size as a number, two as
objects and one as an array. -/
def largeText : List UInt8 :=
  ("\x7b\"backend\":\"GPU\",\"input_size\":4611686018427387903," ++
    "\"output_size\":\x7b\"size\":3,\"id\":\"w\"\x7d," ++
    "\"buffers\":\x7b\"w\":[2,null,\"a\"]," ++
    "\"h\":\x7b\"id\":\"\",\"size\":3\x7d\x7d\x7d").toUTF8.toList

theorem allocatable_of_ofBytes_largeText :
    ∃ p, ofBytes largeText = .ok p ∧ p.inputLength = 4611686018427387903 ∧
      p.outputLength = 3 ∧
      (∀ d ∈ p.descriptors, ∃ size, Model.allocationSize d = .ok size ∧
        size.toNat = 4 * d.elements.toNat) ∧
      ∀ (host : Host) weights cause,
        ((Model.setup weights).runFrom (Model.new host p)).1 = .error (.device cause) →
        ∃ exchange ∈ Model.talk (Model.setup weights) (Model.new host p),
          exchange.answer = .error cause := by
  have hlengths : (ofBytes largeText).toOption.map (fun p => (p.inputLength, p.outputLength)) =
      some (4611686018427387903, 3) := by
    decide +kernel
  cases h : ofBytes largeText with
  | error e =>
      rw [h] at hlengths
      cases hlengths
  | ok p =>
      rw [h] at hlengths
      obtain ⟨hinput, houtput⟩ : p.inputLength = _ ∧ p.outputLength = _ :=
        Prod.ext_iff.mp (Option.some.inj hlengths)
      obtain ⟨-, -, -, -, hsizes, hsetup, -⟩ := allocatable_of_ofBytes h
      refine ⟨p, rfl, hinput, houtput, fun d hd => ?_, fun host weights cause => ?_⟩
      · obtain ⟨-, size, -, hsize, halloc⟩ := hsizes d hd
        exact ⟨size, halloc, hsize⟩
      · exact hsetup Host (Model.new host p) weights cause rfl

end Program

end NetReplay
