import NetReplay.Proofs.Host.Transfers

/-!
# Handles and flags of clones

All clones of a family share one memory, so the buffers that any of them creates are
numbered in one row, and a handle means the same buffer to all of them for good
(`Memory.Issued`, kept by every effect in `Memory.Issued.of_happens`). Whether a clone
was set up is its own affair: the flag is copied when the clone is made and changed by
its own setup alone (`Family.flagsAfter`).

Both together say what a clone takes in any reachable family (`handles_of_clones`): a
clone that was set up takes every handle issued so far by anyone, and one that was not
refuses whatever needs a setup.
-/

namespace NetReplay

namespace Host

/-! ## Handles -/

/-- A buffer as it was created: its handle, its size and whether it is written. -/
structure Creation where
  handle : BufferHandle
  byteSize : UInt64
  writable : Bool
  deriving DecidableEq, Repr

def Effect.creation? : Effect → Option Creation
  | created h byteSize writable => some ⟨h, byteSize, writable⟩
  | _ => none

/-- The buffers that operations create in a family, in their order. -/
def Family.creations (f : Family) (ops : List Operation) : List Creation :=
  (f.effects ops).filterMap Effect.creation?

namespace Memory

variable {m n : Memory} {created : List Creation}

/-- The buffers of a memory are those that were created, numbered from 1. -/
structure Issued (m : Memory) (created : List Creation) : Prop where
  count : m.buffers.length = created.length
  handle : ∀ (k : Nat) (c : Creation), created[k]? = some c → c.handle = ⟨k + 1⟩
  kept : ∀ c ∈ created, ∃ b, m.get? c.handle = some b ∧ b.byteSize = c.byteSize ∧
    b.writable = c.writable

theorem issued_empty (available : Nat) : (empty available).Issued [] :=
  ⟨rfl, by simp, by simp⟩

theorem Issued.of_sameShape (hm : m.Issued created) (hshape : SameShape m n)
    (hcount : n.buffers.length = m.buffers.length) : n.Issued created where
  count := hcount.trans hm.count
  handle := hm.handle
  kept c hc := by
    obtain ⟨b, hb, hbytes, hwritable⟩ := hm.kept c hc
    have hmap := hshape c.handle
    rw [hb, Option.map_some, Option.map_eq_some_iff] at hmap
    obtain ⟨d, hd, heq⟩ := hmap
    rw [Buffer.shape, Buffer.shape, Prod.mk.injEq, Prod.mk.injEq] at heq
    exact ⟨d, hd, heq.2.1.trans hbytes, heq.2.2.trans hwritable⟩

/-- A further buffer gets the next handle, and no other handle means another buffer
than before. -/
theorem Issued.of_allocate (hm : m.Issued created) {byteSize : UInt64} {writable : Bool}
    {h : BufferHandle} (hok : m.allocate byteSize writable = .ok (h, n)) :
    n.Issued (created ++ [⟨h, byteSize, writable⟩]) := by
  obtain ⟨hnone, hget⟩ := get?_of_allocate hok
  obtain ⟨rfl, hn⟩ := allocate_eq_ok hok
  refine ⟨?_, fun k c hc => ?_, fun c hc => ?_⟩
  · rw [hn, List.length_append, List.length_append, hm.count]
    rfl
  · rw [List.getElem?_append] at hc
    split at hc
    · exact hm.handle k c hc
    · rename_i hk
      obtain ⟨hlt, rfl⟩ := List.getElem?_eq_some_iff.mp hc
      rw [List.length_singleton] at hlt
      have hk : m.buffers.length = k := by
        rw [hm.count]
        omega
      rw [List.getElem_singleton, hk]
  · rcases List.mem_append.mp hc with hold | hnew
    · obtain ⟨b, hb, hkept⟩ := hm.kept c hold
      refine ⟨b, ?_, hkept⟩
      rw [hget, if_neg ?_, hb]
      intro heq
      rw [heq, hnone] at hb
      cases hb
    · rw [List.mem_singleton.mp hnew]
      exact ⟨_, (hget _).trans (if_pos rfl), rfl, rfl⟩

/-- An effect issues a handle for what it creates and leaves all others valid. -/
theorem Issued.of_happens (hm : m.Issued created) (hsound : m.Sound) {e : Effect}
    (he : e.Happens m n) : n.Issued (created ++ e.creation?.toList) := by
  cases he with
  | nothing =>
      show m.Issued (created ++ [])
      rwa [List.append_nil]
  | created hallocate => exact hm.of_allocate hallocate
  | @written h data n hwrite =>
      show n.Issued (created ++ [])
      rw [List.append_nil]
      refine hm.of_sameShape (hsound.sameShape_of_write hwrite) ?_
      obtain ⟨-, -, -, rfl⟩ := write_eq_ok_iff.mp hwrite
      exact length_buffers_modify m h _
  | @dispatched body launch args hlaunch hargs =>
      show Memory.Issued _ (created ++ [])
      rw [List.append_nil]
      have hchanged := changedOnly_runAll args body launch.workItems m
      exact hm.of_sameShape hchanged.shape hchanged.count

end Memory

theorem Family.issued_after (available : Nat) (ops : List Operation) :
    ((ofHost (new available)).after ops).memory.Issued
      ((ofHost (new available)).creations ops) := by
  have hstart : (Memory.empty available).Sound ∧
      (Memory.empty available).Issued ([].filterMap Effect.creation?) :=
    ⟨Memory.sound_empty available, Memory.issued_empty available⟩
  have hall := after_preserves (f := ofHost (new available))
    (fun done m => m.Sound ∧ m.Issued (done.filterMap Effect.creation?))
    (fun done m e n hm he => ⟨hm.1.of_happens he, ?_⟩) hstart ops
  · exact hall.2
  · rw [List.filterMap_append]
    have hsingle : [e].filterMap Effect.creation? = e.creation?.toList := by
      cases hcreation : e.creation? <;> simp [hcreation]
    rw [hsingle]
    exact hm.2.of_happens hm.1 he

theorem Family.effects_append (f : Family) (ops later : List Operation) :
    f.effects (ops ++ later) = f.effects ops ++ (f.after ops).effects later := by
  induction ops generalizing f with
  | nil => rfl
  | cons op ops ih =>
      rw [List.cons_append, effects, effects, ih, List.cons_append]
      rfl

/-- What was created stays in the row. -/
theorem Family.creations_prefix (f : Family) (ops later : List Operation) :
    f.creations ops <+: f.creations (ops ++ later) := by
  rw [creations, creations, effects_append, List.filterMap_append]
  exact List.prefix_append ..

/-- A host takes a handle for the buffer that was created under it: it tells the size,
carries out whatever transfers fit, and binds the buffer to any argument of a kernel. -/
structure Takes (host : Host) (c : Creation) : Prop where
  size : (bufferSize c.handle).runFrom host = (.ok c.byteSize, host)
  write : ∀ data, min (4 * data.length) (UInt64.size - 1) ≤ c.byteSize.toNat →
    ((writeBuffer c.handle data).runFrom host).1 = .ok ()
  read : ∀ count, min (4 * count) (UInt64.size - 1) ≤ c.byteSize.toNat →
    ∃ values, (readBuffer c.handle count).runFrom host = (.ok values, host)
  argument : ∀ kernel launch args index, args[index]? = some c.handle → ∀ name reason,
    ((runKernel kernel launch args).runFrom host).1 ≠ .error (.argBindingFailed name index reason)

theorem isWritable_of_issued {host : Host} {created : List Creation}
    (hissued : host.memory.Issued created) {c : Creation} (hc : c ∈ created) :
    host.isWritable c.handle = .ok c.writable := by
  obtain ⟨b, hb, -, hwritable⟩ := hissued.kept c hc
  rw [isWritable, Memory.find_of_get? hb, ← hwritable]
  rfl

/-- A host that was set up takes whatever was issued. -/
theorem takes_of_issued {host : Host} (hinit : host.initialized = true) {created : List Creation}
    (hissued : host.memory.Issued created) {c : Creation} (hc : c ∈ created) : Takes host c := by
  obtain ⟨b, hb, hbytes, -⟩ := hissued.kept c hc
  refine ⟨?_, fun data hfits => ?_, fun count hfits => ?_,
    fun kernel launch args index hindex name reason herror => ?_⟩
  · rw [runFrom_bufferSize hinit, Memory.find_of_get? hb, ← hbytes]
    rfl
  · rw [← Memory.transferBytes_eq, ← hbytes] at hfits
    rw [runFrom_writeBuffer hinit, Memory.write_eq_ok_iff.mpr ⟨b, hb, hfits, rfl⟩]
  · rw [← Memory.transferBytes_eq, ← hbytes] at hfits
    rw [runFrom_readBuffer hinit, Memory.read_eq_ok_iff.mpr ⟨b, hb, hfits, rfl⟩]
    exact ⟨_, rfl⟩
  · rcases runKernel_cases hinit kernel launch args with ⟨e, hrefuses, hrun⟩ | ⟨_, -, -, -, hrun⟩
    · rw [hrun] at herror
      cases herror
      cases hrefuses with
      | argument _ _ ha hnone _ =>
          cases hindex.symm.trans ha
          rw [Memory.contains, hb] at hnone
          cases hnone
    · rw [hrun] at herror
      cases herror

/-! ## Flags -/

/-- The set-up flags of clones after an operation: a setup of a clone raises its own,
and a further clone starts with that of the one it is made from. -/
def Family.flagsStep (flags : List Bool) : Family.Operation → List Bool
  | .call i .setup => flags.set i true
  | .call _ _ => flags
  | .clone i => flags ++ flags[i]?.toList

/-- The set-up flags of the clones that operations leave behind, starting from one
host that was not set up. -/
def Family.flagsAfter (ops : List Family.Operation) : List Bool := ops.foldl flagsStep [false]

/-- No call but the setup changes the flag of a clone. -/
theorem initialized_perform {c : Call} (hc : c ≠ .setup) (host : Host) :
    (c.perform.runFrom host).2.initialized = host.initialized := by
  cases c with
  | setup => exact absurd rfl hc
  | register name body => rfl
  | createKernel name source =>
      rw [Call.perform, runFrom_bind_pure_snd]
      cases hinit : host.initialized with
      | false => rw [createKernel, runFrom_ensureInitialized_bind hinit, hinit]
      | true =>
          rw [runFrom_createKernel hinit]
          repeat' split
          all_goals exact hinit
  | createBuffer byteSize writable =>
      rw [Call.perform, runFrom_bind_pure_snd, toLocal_createBuffer]
  | writeBuffer h data => rw [Call.perform, runFrom_bind_pure_snd, toLocal_writeBuffer]
  | readBuffer h count => rw [Call.perform, runFrom_bind_pure_snd, toLocal_readBuffer]
  | bufferSize h => rw [Call.perform, runFrom_bind_pure_snd, toLocal_bufferSize]
  | runKernel h launch args => rw [Call.perform, runFrom_bind_pure_snd, toLocal_runKernel]

theorem initialized_perform_setup (host : Host) :
    (Call.setup.perform.runFrom host).2.initialized = true := by
  rw [Call.perform, runFrom_bind_pure_snd, runFrom_setup]
  split
  · assumption
  · rfl

namespace Family

variable {f : Family} {i : Nat} {host : Host}

/-- A call that leaves a clone as it was leaves the family as it was. -/
theorem step_call_eq_self (hhost : f.host? i = some host) {c : Call}
    (hcall : (c.perform.runFrom host).2 = host) : f.step (.call i c) = f := by
  obtain ⟨own, hown, rfl⟩ := Option.map_eq_some_iff.mp hhost
  obtain ⟨hlt, rfl⟩ := List.getElem?_eq_some_iff.mp hown
  rw [step, hhost]
  dsimp only
  rw [hcall, update, List.set_getElem_self]

theorem flagsStep_call {c : Call} (hc : c ≠ .setup) (flags : List Bool) (i : Nat) :
    flagsStep flags (.call i c) = flags := by
  cases c with
  | setup => exact absurd rfl hc
  | _ => rfl

theorem flags_step (f : Family) (op : Operation) :
    (f.step op).clones.map Local.initialized =
      flagsStep (f.clones.map Local.initialized) op := by
  cases op with
  | call i c =>
      rw [step, host?]
      cases hown : f.clones[i]? with
      | none =>
          have hlength := List.getElem?_eq_none_iff.mp hown
          by_cases hc : c = .setup
          · rw [hc, flagsStep, List.set_eq_of_length_le (by rwa [List.length_map])]
            rfl
          · rw [flagsStep_call hc]
            rfl
      | some own =>
          obtain ⟨hlt, rfl⟩ := List.getElem?_eq_some_iff.mp hown
          dsimp only [Option.map_some, update]
          rw [List.map_set]
          by_cases hc : c = .setup
          · rw [hc, flagsStep, initialized_perform_setup]
          · rw [flagsStep_call hc, initialized_perform hc, ← List.map_set, List.set_getElem_self]
  | clone i =>
      rw [step, clone, flagsStep, List.getElem?_map]
      cases f.clones[i]? with
      | none => exact (List.append_nil _).symm
      | some own => exact List.map_append

theorem flags_after (available : Nat) (ops : List Operation) :
    ((ofHost (new available)).after ops).clones.map Local.initialized = flagsAfter ops := by
  suffices hall : ∀ f : Family, (f.after ops).clones.map Local.initialized =
      ops.foldl flagsStep (f.clones.map Local.initialized) from hall _
  intro f
  induction ops generalizing f with
  | nil => rfl
  | cons op ops ih =>
      rw [List.foldl_cons, ← flags_step]
      exact ih (f.step op)

end Family

/-- In every reachable family of clones, and whoever created a buffer: the one created
after `k` others has the handle `k + 1`, every clone counts all of them and knows how
they may be used, and one that was set up takes all handles. Later operations only add
to the row. The flags are those of `flagsAfter`. A clone that was not set up refuses
whatever needs a setup, and one that was refuses another setup; neither changes
anything. -/
theorem handles_of_clones (available : Nat) (ops : List Family.Operation) :
    let start := Family.ofHost (new available)
    let f := start.after ops
    let created := start.creations ops
    (∀ (k : Nat) (c : Creation), created[k]? = some c → c.handle = ⟨k + 1⟩) ∧
      (∀ later, created <+: start.creations (ops ++ later)) ∧
      f.clones.map Local.initialized = Family.flagsAfter ops ∧
      ∀ i host, f.host? i = some host →
        host.bufferCount = created.length ∧
        (∀ c ∈ created, host.isWritable c.handle = .ok c.writable) ∧
        (host.initialized = true →
          (∀ c ∈ created, Takes host c) ∧
          Call.setup.perform.runFrom host = (.error (.alreadyInitialized deviceName), host) ∧
          f.step (.call i .setup) = f) ∧
        (host.initialized = false → ∀ call : Call, call.NeedsSetup →
          call.perform.runFrom host = (.error (.notInitialized deviceName), host) ∧
          f.step (.call i call) = f) := by
  intro start f created
  have hissued : f.memory.Issued created := Family.issued_after available ops
  refine ⟨hissued.handle, Family.creations_prefix start ops, Family.flags_after available ops,
    fun i host hhost => ?_⟩
  have hmemory : host.memory = f.memory := by
    obtain ⟨own, -, rfl⟩ := Option.map_eq_some_iff.mp hhost
    rfl
  rw [← hmemory] at hissued
  refine ⟨hissued.count, fun c hc => isWritable_of_issued hissued hc, fun hinit => ?_,
    fun hinit call hcall => ?_⟩
  · have hfails : Call.setup.perform.runFrom host =
        (.error (.alreadyInitialized deviceName), host) := by
      rw [Call.perform, runFrom_bind_pure, runFrom_setup, if_pos hinit]
      rfl
    exact ⟨fun c hc => takes_of_issued hinit hissued hc, hfails,
      Family.step_call_eq_self hhost (congrArg Prod.snd hfails)⟩
  · have hfails := perform_of_not_initialized hinit hcall
    exact ⟨hfails, Family.step_call_eq_self hhost (congrArg Prod.snd hfails)⟩

end Host

end NetReplay
