import Mathlib.Data.List.Nodup
import NetReplay.Proofs.Host.Creation
import NetReplay.Proofs.Model.Stock

/-!
# Declared buffers of reserved names

The input and the output are bound after the declared buffers, so a declared buffer of
one of their names is allocated and filled, and then its handle is given up. This is
the only way in which a setup loses a buffer (`setup_binds_created`): the handles that
were created are distinct, and each stays bound unless its key is reserved.
-/

namespace NetReplay

open Conversation (created)

/-- The handle of a placement is found under its key, as no other has that key. -/
theorem get?_placedAt_eq_some_iff {placed : List Placement}
    (hnodup : (placed.map Placement.key).Nodup) (key : String) (h : BufferHandle) :
    (placedAt placed).get? key = some h ↔ ∃ c ∈ placed, c.key = key ∧ c.handle = h := by
  have hlist : placedAt placed = Table.ofList (placed.map fun c => (c.key, c.handle)) := by
    rw [placedAt, Table.ofList, List.foldl_map]
  have hkeys : ((placed.map fun c => (c.key, c.handle)).map Prod.fst).Nodup := by
    rw [List.map_map]
    exact hnodup
  rw [hlist, Table.get?_ofList, Table.lookup_reverse hkeys, ← Table.mem_iff_lookup_eq hkeys,
    List.mem_map]
  simp only [Prod.mk.injEq]

/-! ## What a setup creates -/

theorem created_exchanges (placed : List Placement) :
    created (placed.flatMap Placement.exchanges) = placed.map Placement.handle := by
  induction placed with
  | nil => rfl
  | cons c placed ih =>
      have htransfer : created (c.data.toList.map fun values =>
          ⟨.writeBuffer c.handle values, .ok .done⟩) = [] := by
        cases c.data <;> rfl
      rw [List.flatMap_cons, Conversation.created_append, ih, Placement.exchanges,
        Conversation.created_cons, htransfer]
      rfl

theorem created_compilations (compiled : List Compilation) :
    created (compiled.map Compilation.exchange) = [] := by
  rw [created, List.filterMap_eq_nil_iff]
  intro exchange hmem
  obtain ⟨c, -, rfl⟩ := List.mem_map.mp hmem
  rfl

/-- How the handles that are bound at the end relate to those that were created: there is
a place for each declared buffer, and the input and the output have the last word. -/
structure Bindings (p : Program) (buffers : Table BufferHandle) (made : List BufferHandle)
    (placed : List Placement) (input output : BufferHandle) : Prop where
  keys : placed.map Placement.key = p.buffers.keys
  made : made = placed.map Placement.handle ++ [input, output]
  buffers : buffers =
    ((placedAt placed).insert Program.inputKey input).insert Program.outputKey output

theorem Provisioned.bindings {weights : Weights.Store} {p : Program} {talk : List Exchange}
    {buffers : Table BufferHandle} {kernels : Table KernelHandle}
    (h : Provisioned weights p talk buffers kernels) :
    ∃ placed input output, Bindings p buffers (created talk) placed input output := by
  cases h with
  | @intro placed compiled inputSize outputSize input output hplaced =>
      refine ⟨placed, input, output, ?_, ?_, rfl⟩
      · rw [Table.keys, ← hplaced, List.map_map]
        rfl
      · rw [Conversation.created_cons, Conversation.created_append, created_exchanges,
          Conversation.created_cons, Conversation.created_cons, created_compilations]
        rfl

namespace Bindings

variable {p : Program} {buffers : Table BufferHandle} {made : List BufferHandle}
  {placed : List Placement} {input output : BufferHandle}

theorem get?_inputKey (h : Bindings p buffers made placed input output) :
    buffers.get? Program.inputKey = some input := by
  rw [h.buffers, Table.get?_insert, if_neg (by decide), Table.get?_insert, if_pos rfl]

theorem get?_outputKey (h : Bindings p buffers made placed input output) :
    buffers.get? Program.outputKey = some output := by
  rw [h.buffers, Table.get?_insert, if_pos rfl]

theorem get?_eq_some_iff (h : Bindings p buffers made placed input output) {key : String}
    (hinput : key ≠ Program.inputKey) (houtput : key ≠ Program.outputKey) (k : BufferHandle) :
    buffers.get? key = some k ↔ ∃ c ∈ placed, c.key = key ∧ c.handle = k := by
  have hnodup : (placed.map Placement.key).Nodup := h.keys ▸ p.buffers.nodup_keys
  rw [h.buffers, Table.get?_insert, if_neg houtput, Table.get?_insert, if_neg hinput,
    get?_placedAt_eq_some_iff hnodup]

/-- What is bound was created. -/
theorem mem_made (h : Bindings p buffers made placed input output) {key : String}
    {k : BufferHandle} (hkey : buffers.get? key = some k) : k ∈ made := by
  rw [h.made, List.mem_append]
  by_cases hinput : key = Program.inputKey
  · subst hinput
    cases h.get?_inputKey.symm.trans hkey
    exact Or.inr List.mem_cons_self
  · by_cases houtput : key = Program.outputKey
    · subst houtput
      cases h.get?_outputKey.symm.trans hkey
      exact Or.inr (List.mem_cons_of_mem _ List.mem_cons_self)
    · obtain ⟨c, hc, -, rfl⟩ := (h.get?_eq_some_iff hinput houtput k).mp hkey
      exact Or.inl (List.mem_map_of_mem hc)

/-- The place of a declared buffer of a reserved name is bound to no key. -/
theorem not_bound (h : Bindings p buffers made placed input output) (hnodup : made.Nodup)
    {c : Placement} (hc : c ∈ placed)
    (hreserved : c.key = Program.inputKey ∨ c.key = Program.outputKey) (key : String) :
    buffers.get? key ≠ some c.handle := by
  intro hkey
  rw [h.made, List.nodup_append] at hnodup
  obtain ⟨hplaces, -, hapart⟩ := hnodup
  have hmem : c.handle ∈ placed.map Placement.handle := List.mem_map_of_mem hc
  by_cases hinput : key = Program.inputKey
  · subst hinput
    cases h.get?_inputKey.symm.trans hkey
    exact hapart _ hmem _ List.mem_cons_self rfl
  · by_cases houtput : key = Program.outputKey
    · subst houtput
      cases h.get?_outputKey.symm.trans hkey
      exact hapart _ hmem _ (List.mem_cons_of_mem _ List.mem_cons_self) rfl
    · obtain ⟨d, hd, hdkey, hhandle⟩ := (h.get?_eq_some_iff hinput houtput _).mp hkey
      cases List.inj_on_of_nodup_map hplaces hd hc hhandle
      rcases hreserved with heq | heq
      · exact hinput (hdkey.symm.trans heq)
      · exact houtput (hdkey.symm.trans heq)

/-- Everything that was created is bound just when no declared buffer has a reserved
name. -/
theorem all_bound_iff (h : Bindings p buffers made placed input output) (hnodup : made.Nodup) :
    (∀ k ∈ made, ∃ key, buffers.get? key = some k) ↔
      Program.inputKey ∉ p.buffers.keys ∧ Program.outputKey ∉ p.buffers.keys := by
  constructor
  · intro hall
    rw [← not_or]
    intro hdeclared
    obtain ⟨c, hc, hreserved⟩ : ∃ c ∈ placed,
        c.key = Program.inputKey ∨ c.key = Program.outputKey := by
      rw [← h.keys, List.mem_map, List.mem_map] at hdeclared
      rcases hdeclared with ⟨c, hc, hkey⟩ | ⟨c, hc, hkey⟩
      · exact ⟨c, hc, Or.inl hkey⟩
      · exact ⟨c, hc, Or.inr hkey⟩
    have hmade : c.handle ∈ made := by
      rw [h.made]
      exact List.mem_append_left _ (List.mem_map_of_mem hc)
    obtain ⟨key, hkey⟩ := hall c.handle hmade
    exact h.not_bound hnodup hc hreserved key hkey
  · rintro ⟨hinput, houtput⟩ k hk
    rw [h.made, List.mem_append, List.mem_map] at hk
    rcases hk with ⟨c, hc, rfl⟩ | hk
    · have hkey : c.key ∈ p.buffers.keys := h.keys ▸ List.mem_map_of_mem hc
      refine ⟨c.key, (h.get?_eq_some_iff ?_ ?_ _).mpr ⟨c, hc, rfl, rfl⟩⟩
      · rintro heq
        exact hinput (heq ▸ hkey)
      · rintro heq
        exact houtput (heq ▸ hkey)
    · simp only [List.mem_cons, List.not_mem_nil, or_false] at hk
      rcases hk with rfl | rfl
      · exact ⟨_, h.get?_inputKey⟩
      · exact ⟨_, h.get?_outputKey⟩

end Bindings

namespace Model

open Program

variable {p : Program} {weights : Weights.Store} {host : Host} {m : Model Host}

/-- A setup that succeeds is what was said to the host, and its handles are bound. -/
theorem bindings_of_setup (hrun : (setup weights).runFrom (Model.new host p) = (.ok (), m)) :
    Faithful (setup weights) (setup weights) (Model.new host p) ∧
      ∃ placed input output,
        Bindings p m.buffers (created (talk (setup weights) (Model.new host p))) placed input
          output := by
  have hphase : (Model.new host p).phase = .unconfigured := rfl
  obtain ⟨said, n, hprovisioned, -, hruns⟩ | ⟨said, e, n, -, hruns⟩ :=
    runs_provision (m := Model.new host p) weights rfl rfl
  · have hsetup := runs_setup hphase hruns
    cases hsetup.plain.symm.trans hrun
    refine ⟨hsetup.faithful, ?_⟩
    rw [hsetup.talk_eq]
    exact hprovisioned.bindings
  · have hsetup := runs_setup hphase hruns
    cases hsetup.plain.symm.trans hrun

theorem nodup_created (hrun : (setup weights).runFrom (Model.new host p) = (.ok (), m)) :
    (created (talk (setup weights) (Model.new host p))).Nodup := by
  obtain ⟨hfaithful, -⟩ := bindings_of_setup hrun
  exact (Host.gains_of_holds hfaithful.holds).nodup

/-- A declared buffer of an unreserved name is what an argument of that name binds, of
the declared size and with its tensor at the front. -/
theorem Stocked.of_declared (hm : Stocked host weights p.wanted m) {key source : String}
    {d : Descriptor} (hdeclared : p.buffers.get? key = some d) (hsource : d.source = some source)
    (hinput : key ≠ inputKey) (houtput : key ≠ outputKey) :
    ∃ h b values, (∀ index, m.resolveBuffer index key = .ok h) ∧
      m.device.memory.get? h = some b ∧ b.byteSize.toNat = 4 * d.elements.toNat ∧
      weights.values source = .ok values ∧ values <+: b.contents.toList := by
  have hwanted := wanted_of_ne p hinput houtput
  rw [hdeclared] at hwanted
  obtain ⟨values, hvalues, h, b, hkey, hb, hstarts⟩ := hm.stocked _ _ _ hwanted
  rw [Descriptor.values, hsource] at hvalues
  refine ⟨h, b, values, resolveBuffer_of_get? hkey, hb, hstarts.byteSize,
    hvalues, ?_⟩
  rw [hstarts.contents]
  exact List.prefix_append _ _

/-- A setup that succeeds creates distinct buffers. The handles that the model knows at
its end are among them, and they are all of them just when no declared buffer has the name
of the input or of the output. An argument that names any other declared buffer binds one
of the declared size, with the tensor at its front. -/
theorem setup_binds_created
    (hrun : (setup weights).runFrom (Model.new host p) = (.ok (), m)) :
    let made := created (talk (setup weights) (Model.new host p))
    Faithful (setup weights) (setup weights) (Model.new host p) ∧ made.Nodup ∧
      (∀ key h, m.buffers.get? key = some h → h ∈ made) ∧
      ((∀ h ∈ made, ∃ key, m.buffers.get? key = some h) ↔
        inputKey ∉ p.buffers.keys ∧ outputKey ∉ p.buffers.keys) ∧
      ∀ key d source, p.buffers.get? key = some d → d.source = some source →
        key ≠ inputKey → key ≠ outputKey →
        ∃ h b values, (∀ index, m.resolveBuffer index key = .ok h) ∧
          m.device.memory.get? h = some b ∧ b.byteSize.toNat = 4 * d.elements.toNat ∧
          weights.values source = .ok values ∧ values <+: b.contents.toList := by
  intro made
  obtain ⟨hfaithful, placed, input, output, hbindings⟩ := bindings_of_setup hrun
  have hnodup : made.Nodup := nodup_created hrun
  have hstocked := stocked_of_setup hrun
  exact ⟨hfaithful, hnodup, fun key h hkey => hbindings.mem_made hkey,
    hbindings.all_bound_iff hnodup,
    fun key d source hdeclared hsource => hstocked.of_declared hdeclared hsource⟩

/-- A program that declares a buffer of the name of the input, longer than the input and
filled with a tensor. -/
def shadowedText : List UInt8 :=
  ("\x7b\"backend\":\"GPU\",\"input_size\":1,\"output_size\":1,\"functions\":\x7b\x7d," ++
    "\"statements\":[],\"buffers\":\x7b\"input\":\x7b\"size\":2,\"id\":\"t\"\x7d\x7d\x7d").toUTF8.toList

/-- What the document says. -/
def shadowedProgram : Program where
  backendTag := supportedTag
  input := ⟨inputKey, 1, none, none⟩
  output := ⟨outputKey, 1, none, none⟩
  buffers := Table.empty.insert inputKey ⟨inputKey, 2, none, some "t"⟩
  kernels := .empty
  statements := []

theorem setup_binds_created_shadowedProgram :
    ∃ m, (setup Weights.Store.pair).runFrom (Model.new sharedHost shadowedProgram) = (.ok (), m) ∧
      ¬ ∀ h ∈ created (talk (setup Weights.Store.pair) (Model.new sharedHost shadowedProgram)),
        ∃ key, m.buffers.get? key = some h := by
  have hrun : (setup Weights.Store.pair).runFrom (Model.new sharedHost shadowedProgram) =
      (.ok (), ((setup Weights.Store.pair).runFrom (Model.new sharedHost shadowedProgram)).2) := rfl
  obtain ⟨-, -, -, hall, -⟩ := setup_binds_created hrun
  refine ⟨_, hrun, fun hbound => ?_⟩
  exact (hall.mp hbound).1 (by decide)

/-- A declared buffer can be lost: the program is accepted and its setup succeeds, but
among the handles that were created one is bound to no key, and an argument that names the
declared buffer binds the input, which is shorter and starts with a zero. -/
theorem exists_lost_buffer :
    ∃ p m, Program.ofBytes shadowedText = .ok p ∧
      (setup Weights.Store.pair).runFrom (Model.new sharedHost p) = (.ok (), m) ∧
      (∃ h ∈ created (talk (setup Weights.Store.pair) (Model.new sharedHost p)),
        ∀ key, m.buffers.get? key ≠ some h) ∧
      p.buffers.get? inputKey = some ⟨inputKey, 2, none, some "t"⟩ ∧
      Weights.Store.pair.values "t" = .ok [⟨5⟩, ⟨6⟩] ∧
      ∃ h b, (∀ index, m.resolveBuffer index inputKey = .ok h) ∧
        m.device.memory.get? h = some b ∧ b.byteSize.toNat = 4 ∧
        b.contents.toList = [Single.zero] := by
  have hp : Program.ofBytes shadowedText = .ok shadowedProgram := by decide +kernel
  have hrun : (setup Weights.Store.pair).runFrom (Model.new sharedHost shadowedProgram) =
      (.ok (), ((setup Weights.Store.pair).runFrom (Model.new sharedHost shadowedProgram)).2) := rfl
  obtain ⟨-, placed, input, output, hbindings⟩ := bindings_of_setup hrun
  have hlost : ∃ h ∈
      created (talk (setup Weights.Store.pair) (Model.new sharedHost shadowedProgram)),
      ∀ key, ((setup Weights.Store.pair).runFrom
        (Model.new sharedHost shadowedProgram)).2.buffers.get? key ≠ some h := by
    by_contra hnone
    push Not at hnone
    exact ((hbindings.all_bound_iff (nodup_created hrun)).mp hnone).1 (by decide)
  obtain ⟨values, hvalues, h, b, hkey, hb, hstarts⟩ :=
    (stocked_of_setup hrun).stocked _ _ _ (wanted_inputKey _)
  cases hvalues
  exact ⟨_, _, hp, hrun, hlost, rfl, rfl, h, b, resolveBuffer_of_get? hkey, hb,
    hstarts.byteSize, hstarts.contents⟩

end Model

end NetReplay
