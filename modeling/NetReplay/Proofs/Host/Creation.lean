import NetReplay.Proofs.Device.Conversation
import NetReplay.Proofs.Host.Effect

/-!
# What a conversation creates on a host

Memory gains a buffer with every allocation that a host answers and with nothing else
(`Memory.Gains`, `gains_perform`). The handles that a conversation has created
(`Conversation.created`) are therefore distinct, none of them had a buffer before, and
they are all that is new (`gains_of_holds`).
-/

namespace NetReplay

/-- The handle that was given for an allocation. -/
def Exchange.created? : Exchange → Option BufferHandle
  | ⟨.createBuffer .., .ok (.buffer h)⟩ => some h
  | _ => none

/-- The handles that were given for allocations, in their order. -/
def Conversation.created (talk : List Exchange) : List BufferHandle :=
  talk.filterMap Exchange.created?

theorem Conversation.created_cons (exchange : Exchange) (talk : List Exchange) :
    created (exchange :: talk) = exchange.created?.toList ++ created talk := by
  rw [created, List.filterMap_cons]
  cases exchange.created? <;> rfl

theorem Conversation.created_append (talk others : List Exchange) :
    created (talk ++ others) = created talk ++ created others :=
  List.filterMap_append ..

namespace Host

namespace Memory

variable {m n o : Memory}

/-- The second memory has buffers under new handles, and no others that the first has
not. -/
structure Gains (m : Memory) (new : List BufferHandle) (n : Memory) : Prop where
  nodup : new.Nodup
  fresh : ∀ h ∈ new, m.contains h = false
  contains_iff : ∀ k, n.contains k ↔ m.contains k ∨ k ∈ new

theorem gains_nil (h : ∀ k, n.contains k = m.contains k) : m.Gains [] n where
  nodup := List.nodup_nil
  fresh := by simp
  contains_iff k := by simp [h]

theorem gains_of_allocate {byteSize : UInt64} {writable : Bool} {h : BufferHandle}
    (hok : m.allocate byteSize writable = .ok (h, n)) : m.Gains [h] n := by
  obtain ⟨hnone, hget⟩ := get?_of_allocate hok
  refine ⟨by simp, fun k hk => ?_, fun k => ?_⟩
  · rw [List.mem_singleton.mp hk, contains, hnone]
    rfl
  · rw [contains, contains, hget, List.mem_singleton]
    by_cases hk : k = h
    · simp [hk]
    · simp [hk]

theorem Gains.trans {new later : List BufferHandle} (hmn : m.Gains new n)
    (hno : n.Gains later o) : m.Gains (new ++ later) o := by
  have hapart : ∀ h ∈ later, m.contains h = false ∧ h ∉ new := by
    intro h hh
    have hfresh := hno.fresh h hh
    rw [← Bool.not_eq_true, hmn.contains_iff, not_or, Bool.not_eq_true] at hfresh
    exact hfresh
  refine ⟨?_, fun h hh => ?_, fun k => ?_⟩
  · refine List.nodup_append.mpr ⟨hmn.nodup, hno.nodup, ?_⟩
    rintro h hh _ hk rfl
    exact (hapart h hk).2 hh
  · rcases List.mem_append.mp hh with hh | hh
    · exact hmn.fresh h hh
    · exact (hapart h hh).1
  · rw [hno.contains_iff, hmn.contains_iff, List.mem_append, or_assoc]

theorem contains_of_sameShape (hmn : SameShape m n) (k : BufferHandle) :
    n.contains k = m.contains k := by
  have hshape := congrArg Option.isSome (hmn k)
  rwa [Option.isSome_map, Option.isSome_map] at hshape

end Memory

/-! ## Single calls -/

/-- The call as one of a host. -/
def Call.ofDevice : DeviceCall → Call
  | .setup => setup
  | .createKernel name source => createKernel name source
  | .createBuffer byteSize writable => createBuffer byteSize writable
  | .writeBuffer h data => writeBuffer h data
  | .readBuffer h count => readBuffer h count
  | .runKernel h launch args => runKernel h launch args

/-- The answer as that of a device. -/
def Answer.reply : Answer → DeviceReply
  | nothing => .done
  | kernel h => .kernel h
  | buffer h => .buffer h
  | values xs => .values xs
  | size _ => .done

theorem runFrom_reply {α : Type} (x : DeviceM Host α) (f : α → Answer) (host : Host) :
    ((fun a => (f a).reply) <$> x : DeviceM Host DeviceReply).runFrom host =
      (((x >>= fun a => pure (f a)).runFrom host).1.map Answer.reply,
        ((x >>= fun a => pure (f a)).runFrom host).2) := by
  rw [DeviceM.runFrom_map, runFrom_bind_pure]
  cases (x.runFrom host).1 <;> rfl

/-- A host answers a call of a device as its own. -/
theorem runFrom_perform (call : DeviceCall) (host : Host) :
    call.perform.runFrom host =
      (((Call.ofDevice call).perform.runFrom host).1.map Answer.reply,
        ((Call.ofDevice call).perform.runFrom host).2) := by
  cases call with
  | setup => exact runFrom_reply setup (fun _ => .nothing) host
  | createKernel name source => exact runFrom_reply (createKernel name source) .kernel host
  | createBuffer byteSize writable =>
      exact runFrom_reply (createBuffer byteSize writable) .buffer host
  | writeBuffer h data => exact runFrom_reply (writeBuffer h data) (fun _ => .nothing) host
  | readBuffer h count => exact runFrom_reply (readBuffer h count) .values host
  | runKernel h launch args =>
      exact runFrom_reply (runKernel h launch args) (fun _ => .nothing) host

/-- The handle of the buffer that an effect has created. -/
def Effect.handle? : Effect → Option BufferHandle
  | created h _ _ => some h
  | _ => none

theorem Effect.Happens.gains {m n : Memory} {e : Effect} (he : e.Happens m n) :
    m.Gains e.handle?.toList n := by
  cases he with
  | nothing => exact Memory.gains_nil fun _ => rfl
  | created hallocate => exact Memory.gains_of_allocate hallocate
  | written hwrite =>
      obtain ⟨b, -, -, rfl⟩ := Memory.write_eq_ok_iff.mp hwrite
      exact Memory.gains_nil fun k => Memory.contains_modify ..
  | dispatched body hlaunch hargs =>
      exact Memory.gains_nil
        (Memory.contains_of_sameShape (Memory.changedOnly_runAll _ body _ m).shape)

theorem created?_of_error (call : DeviceCall) (e : DeviceError) :
    Exchange.created? ⟨call, .error e⟩ = none := by
  cases call <;> rfl

/-- What a conversation notes of an allocation is the effect that the call had. -/
theorem created?_eq_handle? (call : DeviceCall) (host : Host) :
    Exchange.created? ⟨call, (call.perform.runFrom host).1⟩ =
      ((Call.ofDevice call).effect host).handle? := by
  rw [runFrom_perform, Call.effect]
  cases ((Call.ofDevice call).perform.runFrom host).1 with
  | error e => exact created?_of_error call e
  | ok answer =>
      cases call with
      | createBuffer byteSize writable => cases answer <;> rfl
      | runKernel h launch args =>
          dsimp only [Call.ofDevice, Call.effectOf]
          cases host.kernel? h <;> rfl
      | _ => rfl

theorem gains_perform (call : DeviceCall) (host : Host) :
    host.memory.Gains (Exchange.created? ⟨call, (call.perform.runFrom host).1⟩).toList
      (call.perform.runFrom host).2.memory := by
  rw [created?_eq_handle?, runFrom_perform]
  exact (happens_perform (Call.ofDevice call) host).gains

/-! ## Conversations -/

/-- What a conversation has created is distinct and new, and it is all that is new. -/
theorem gains_of_holds {talk : List Exchange} {host after : Host}
    (h : Conversation.Holds host talk after) :
    host.memory.Gains (Conversation.created talk) after.memory := by
  induction talk generalizing host with
  | nil =>
      cases h
      exact Memory.gains_nil fun _ => rfl
  | cons exchange talk ih =>
      obtain ⟨call, answer⟩ := exchange
      rw [Conversation.Holds, List.map_cons, Conversation.on] at h
      obtain ⟨hexchange, hrest⟩ := Prod.ext_iff.mp h
      obtain ⟨hanswer, htalk⟩ := List.cons.inj hexchange
      have hfirst := gains_perform call host
      dsimp only at hanswer
      rw [hanswer] at hfirst
      rw [Conversation.created_cons]
      exact hfirst.trans (ih (Prod.ext htalk hrest))

end Host

end NetReplay
