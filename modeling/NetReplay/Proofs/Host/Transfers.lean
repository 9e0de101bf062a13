import NetReplay.Proofs.Host.Effect

/-!
# Memory as lists of numbers

A buffer holds the whole elements of its size, and their bytes can be counted
(`Buffer.Sound`). The second half matters for transfers: their bytes are counted only
up to the largest word, and a buffer of nearly that size would accept more than it
holds. Every effect keeps buffers sound, so a transfer that is accepted stays inside
the contents (`Buffer.Sound.length_le`).

Seen from outside, memory is a list of numbers under each handle (`Memory.lists`).
What an effect does to lists is said without buffers (`Effect.onLists`) and comes to
the same (`lists_of_happens`), so that after any history of a family of clones a
buffer reads as its list (`transfers_refine_lists`).
-/

namespace NetReplay

namespace Host

/-- The buffer holds the whole elements of its size, and no more of them than can be
counted in bytes. -/
structure Buffer.Sound (b : Buffer) : Prop where
  size : b.contents.size = Memory.elementsOf b.byteSize
  counted : Memory.elementsOf b.byteSize * Memory.elementBytes ≤ Memory.maxContentBytes

namespace Buffer

variable {b c : Buffer}

/-- A transfer that is accepted stays inside the contents. -/
theorem Sound.length_le (hb : b.Sound) {count : Nat}
    (hfits : Memory.transferBytes count ≤ b.byteSize.toNat) : count ≤ b.contents.size := by
  have hcounted := hb.counted
  rw [hb.size]
  rw [Memory.elementsOf, Memory.elementBytes, Memory.maxContentBytes, UInt64.size] at hcounted
  rw [Memory.transferBytes, Memory.elementBytes, UInt64.size] at hfits
  rw [Memory.elementsOf, Memory.elementBytes]
  omega

theorem Sound.of_shape (hb : b.Sound) (hshape : c.shape = b.shape) : c.Sound := by
  rw [shape, shape, Prod.mk.injEq, Prod.mk.injEq] at hshape
  obtain ⟨hsize, hbytes, -⟩ := hshape
  refine ⟨?_, ?_⟩
  · rw [hsize, hbytes]
    exact hb.size
  · rw [hbytes]
    exact hb.counted

end Buffer

namespace Memory

variable {m n : Memory}

/-- All buffers are sound. -/
def Sound (m : Memory) : Prop := ∀ h b, m.get? h = some b → b.Sound

theorem sound_empty (available : Nat) : (empty available).Sound := by
  rintro ⟨_ | id⟩ b hb
  · cases hb
  · cases hb

theorem Sound.of_sameShape (hm : m.Sound) (hshape : SameShape m n) : n.Sound := by
  intro h c hc
  have hmap := hshape h
  rw [hc, Option.map_some, eq_comm, Option.map_eq_some_iff] at hmap
  obtain ⟨b, hb, heq⟩ := hmap
  exact (hm h b hb).of_shape heq.symm

theorem Sound.of_allocate (hm : m.Sound) {byteSize : UInt64} {writable : Bool} {h : BufferHandle}
    (hok : m.allocate byteSize writable = .ok (h, n)) : n.Sound := by
  have hcounted : elementsOf byteSize * elementBytes ≤ maxContentBytes := by
    cases hrefusal : m.refusal? (elementsOf byteSize * elementBytes) with
    | none => exact ((refusal?_eq_none_iff m _).mp hrefusal).1
    | some reason =>
        rw [allocate, hrefusal] at hok
        cases hok
  obtain ⟨-, hget⟩ := get?_of_allocate hok
  intro k b hb
  rw [hget] at hb
  split at hb
  · cases hb
    exact ⟨Array.size_replicate, hcounted⟩
  · exact hm k b hb

/-- A write that fits a sound buffer keeps the shape of memory. -/
theorem Sound.sameShape_of_write (hm : m.Sound) {h : BufferHandle} {data : List Single}
    (hwrite : m.write h data = .ok n) : SameShape m n := by
  obtain ⟨b, hb, hfits, rfl⟩ := write_eq_ok_iff.mp hwrite
  refine sameShape_modify fun c hc => ?_
  cases hb.symm.trans hc
  exact shape_overwrite ((hm h b hb).length_le hfits)

/-- Every effect keeps buffers sound. -/
theorem Sound.of_happens (hm : m.Sound) {e : Effect} (he : e.Happens m n) : n.Sound := by
  cases he with
  | nothing => exact hm
  | created hallocate => exact hm.of_allocate hallocate
  | written hwrite => exact hm.of_sameShape (hm.sameShape_of_write hwrite)
  | dispatched body hlaunch hargs => exact hm.of_sameShape (changedOnly_runAll _ body _ m).shape

end Memory

/-! ## Lists of numbers -/

/-- A list of numbers under each handle that has one. -/
def Lists := BufferHandle → Option (List Single)

namespace Lists

def empty : Lists := fun _ => none

/-- The list of one handle put in. -/
def set (l : Lists) (h : BufferHandle) (values : List Single) : Lists :=
  fun k => if k = h then some values else l k

/-- The list of one handle changed. -/
def modify (l : Lists) (h : BufferHandle) (f : List Single → List Single) : Lists :=
  fun k => if k = h then (l k).map f else l k

/-- Lists under handles as the arguments of a kernel body. -/
def view (args : List BufferHandle) : Kernel.View Lists where
  count _ := args.length
  contents? l arg := (args[arg]?.bind l).map List.toArray
  write l arg index x :=
    match args[arg]? with
    | some h => l.modify h (·.set index x)
    | none => l

end Lists

namespace Effect

/-- What an effect does to lists: a new one is all zeros and as long as whole elements
fit, data goes over the front of one, and a body runs on those that are bound. -/
def onLists : Effect → Lists → Lists
  | nothing, l => l
  | created h byteSize _, l => l.set h (List.replicate (byteSize.toNat / 4) Single.zero)
  | written h data, l => l.modify h fun old => data ++ old.drop data.length
  | dispatched body launch args, l => body.runAll (Lists.view args) launch.workItems l

/-- The effect is about a handle. -/
def Touches (h : BufferHandle) : Effect → Prop
  | nothing => False
  | created k .. | written k _ => h = k
  | dispatched _ _ args => h ∈ args

/-- A list is changed by effects on its own handle alone. -/
theorem onLists_of_not_touches {e : Effect} {h : BufferHandle} (he : ¬ e.Touches h) (l : Lists) :
    e.onLists l h = l h := by
  cases e with
  | nothing => rfl
  | created k byteSize writable => exact if_neg he
  | written k data => exact if_neg he
  | dispatched body launch args =>
      have hwrite : ∀ s : Lists, s h = l h → ∀ arg index x,
          (Lists.view args).write s arg index x h = l h := by
        intro s hs arg index x
        rw [Lists.view]
        dsimp only
        cases harg : args[arg]? with
        | none => exact hs
        | some k =>
            have hne : h ≠ k := by
              rintro rfl
              exact he (List.mem_of_getElem? harg)
            exact (if_neg hne).trans hs
      exact body.runAll_preserves hwrite launch.workItems rfl

end Effect

namespace Memory

/-- The list of numbers that each buffer holds. -/
def lists (m : Memory) : Lists := fun h => (m.get? h).map fun b => b.contents.toList

theorem lists_modify (m : Memory) (h : BufferHandle) {f : Buffer → Buffer}
    {g : List Single → List Single}
    (hf : ∀ b, m.get? h = some b → (f b).contents.toList = g b.contents.toList) :
    (m.modify h f).lists = m.lists.modify h g := by
  funext k
  rw [lists, Lists.modify, lists, get?_modify]
  by_cases hk : h = k
  · rw [if_pos hk, if_pos hk.symm, Option.map_map, Option.map_map]
    exact Option.map_congr fun b hb => hf b (hk ▸ hb)
  · rw [if_neg hk, if_neg (Ne.symm hk)]

/-- A body cannot tell buffers from their lists. -/
theorem view_agree_lists (args : List BufferHandle) :
    (view args).Agree (Lists.view args) fun m l => m.lists = l where
  count m l hl := rfl
  contents? m l hl arg := by
    show (args[arg]?.bind m.get?).map Buffer.contents = (args[arg]?.bind l).map List.toArray
    rw [← hl]
    cases args[arg]? with
    | none => rfl
    | some h =>
        show (m.get? h).map _ = ((m.get? h).map _).map _
        rw [Option.map_map]
        rfl
  write m l hl arg index x := by
    rw [view, Lists.view]
    dsimp only
    cases args[arg]? with
    | none => exact hl
    | some h =>
        rw [← hl]
        exact lists_modify m h fun b _ => Array.toList_setIfInBounds ..

/-- What happens to memory happens to its lists. -/
theorem lists_of_happens {m n : Memory} {e : Effect} (he : e.Happens m n) :
    n.lists = e.onLists m.lists := by
  cases he with
  | nothing => rfl
  | @created h byteSize writable n hallocate =>
      obtain ⟨-, hget⟩ := get?_of_allocate hallocate
      funext k
      rw [lists, hget, Effect.onLists, Lists.set]
      by_cases hk : k = h
      · rw [if_pos hk, if_pos hk, Option.map_some, Array.toList_replicate]
        rfl
      · rw [if_neg hk, if_neg hk]
        rfl
  | written hwrite =>
      obtain ⟨b, hb, hfits, rfl⟩ := write_eq_ok_iff.mp hwrite
      exact lists_modify m _ fun b _ => toList_contents_overwrite _ b
  | dispatched body hlaunch hargs => exact body.runAll_agree (view_agree_lists _) _ rfl

/-! ## How transfers end -/

/-- How a transfer of some elements ends: it succeeds exactly when the buffer exists
and its bytes, as far as a word counts them, are no more than the buffer has. -/
structure TransferEnds {α : Type} (m : Memory) (h : BufferHandle) (count : Nat)
    (r : Except DeviceError α) : Prop where
  ok_iff : (∃ a, r = .ok a) ↔
    ∃ b, m.get? h = some b ∧ min (4 * count) (UInt64.size - 1) ≤ b.byteSize.toNat
  tooLarge_iff : (∃ reason, r = .error (.transferFailed h reason)) ↔
    ∃ b, m.get? h = some b ∧ b.byteSize.toNat < min (4 * count) (UInt64.size - 1)
  missing_iff : r = .error (.invalidBufferHandle h.id) ↔ m.get? h = none

theorem transferBytes_eq (count : Nat) :
    transferBytes count = min (4 * count) (UInt64.size - 1) := by
  rw [transferBytes, elementBytes, Nat.mul_comm]

/-- Looking a buffer up, checking the size and doing something with the buffer is a
transfer. -/
theorem transferEnds {α : Type} (m : Memory) (h : BufferHandle) (count : Nat) (f : Buffer → α) :
    TransferEnds m h count (do
      let b ← m.find h
      checkFits h count b.byteSize
      pure (f b)) := by
  cases hb : m.get? h with
  | none =>
      rw [find, hb]
      constructor <;> simp [bind, Except.bind, hb]
  | some b =>
      rw [find_of_get? hb]
      by_cases hlt : b.byteSize.toNat < transferBytes count
      · have hle := Nat.not_le.mpr hlt
        refine ⟨?_, ?_, ?_⟩
        · rw [← transferBytes_eq]
          simp [bind, Except.bind, checkFits, hb, hlt, hle]
        · rw [← transferBytes_eq]
          simp [bind, Except.bind, checkFits, hb, hlt]
        · simp [bind, Except.bind, checkFits, hb, hlt]
      · have hle := Nat.not_lt.mp hlt
        refine ⟨?_, ?_, ?_⟩
        · rw [← transferBytes_eq]
          simp [bind, Except.bind, pure, Except.pure, checkFits, hb, hlt, hle]
        · rw [← transferBytes_eq]
          simp [bind, Except.bind, pure, Except.pure, checkFits, hb, hlt]
        · simp [bind, Except.bind, pure, Except.pure, checkFits, hb, hlt]

theorem TransferEnds.map {α β : Type} {m : Memory} {h : BufferHandle} {count : Nat}
    {r : Except DeviceError α} (hr : TransferEnds m h count r) (g : α → β) :
    TransferEnds m h count (r.map g) := by
  obtain ⟨hok, htooLarge, hmissing⟩ := hr
  cases r with
  | ok a => exact ⟨by simpa [Except.map] using hok, by simpa [Except.map] using htooLarge,
      by simpa [Except.map] using hmissing⟩
  | error e => exact ⟨by simpa [Except.map] using hok, by simpa [Except.map] using htooLarge,
      by simpa [Except.map] using hmissing⟩

/-- A write that is accepted stays inside the list of the buffer. -/
theorem Sound.length_le_of_write {m n : Memory} (hm : m.Sound) {h : BufferHandle}
    {data : List Single} (hwrite : m.write h data = .ok n) :
    ∃ list, m.lists h = some list ∧ data.length ≤ list.length := by
  obtain ⟨b, hb, hfits, -⟩ := write_eq_ok_iff.mp hwrite
  refine ⟨b.contents.toList, ?_, (hm h b hb).length_le hfits⟩
  rw [lists, hb, Option.map_some]

/-- A read that is accepted gives the front of the list, and stays inside it. -/
theorem Sound.values_of_read {m : Memory} (hm : m.Sound) {h : BufferHandle} {count : Nat}
    {values : List Single} (hread : m.read h count = .ok values) :
    ∃ list, m.lists h = some list ∧ count ≤ list.length ∧ values = list.take count := by
  obtain ⟨b, hb, hfits, hvalues⟩ := read_eq_ok_iff.mp hread
  refine ⟨b.contents.toList, ?_, (hm h b hb).length_le hfits, hvalues⟩
  rw [lists, hb, Option.map_some]

end Memory

/-! ## Transfers of a host -/

/-- Reads into a slice, which is filled from the front, or left alone when the read
fails. -/
def readInto (h : BufferHandle) (out : List Single) (host : Host) :
    Except DeviceError Unit × List Single × Host :=
  match (readBuffer h out.length).runFrom host with
  | (.ok values, host) => (.ok (), values ++ out.drop values.length, host)
  | (.error e, host) => (.error e, out, host)

section

variable {host : Host} (hinit : host.initialized = true) (hsound : host.memory.Sound)

include hinit hsound

/-- A write stays inside the list of its buffer, and one that fails changes nothing. -/
theorem writeBuffer_ends (h : BufferHandle) (data : List Single) :
    let write := (writeBuffer h data).runFrom host
    host.memory.TransferEnds h data.length write.1 ∧
      (∀ e, write.1 = .error e → write.2 = host) ∧
      (write.1 = .ok () → ∃ list, host.memory.lists h = some list ∧
        data.length ≤ list.length) := by
  intro write
  have hends : host.memory.TransferEnds h data.length (host.memory.write h data) :=
    Memory.transferEnds host.memory h data.length _
  have hunit := hends.map fun _ => ()
  have hwrite : write = _ := runFrom_writeBuffer hinit h data
  rw [hwrite]
  cases hmemory : host.memory.write h data with
  | ok memory =>
      rw [hmemory] at hunit
      exact ⟨hunit, by simp, fun _ => hsound.length_le_of_write hmemory⟩
  | error e =>
      rw [hmemory] at hunit
      exact ⟨hunit, fun _ _ => rfl, by simp⟩

/-- A read gives the front of a list, stays inside it and changes nothing but the
slice; one that fails does not change this either. -/
theorem readInto_ends (h : BufferHandle) (out : List Single) :
    let read := readInto h out host
    host.memory.TransferEnds h out.length read.1 ∧
      (∀ e, read.1 = .error e → read.2.1 = out) ∧ read.2.2 = host ∧
      (read.1 = .ok () → ∃ list, host.memory.lists h = some list ∧
        out.length ≤ list.length ∧ read.2.1 = list.take out.length) := by
  intro read
  have hends : host.memory.TransferEnds h out.length (host.memory.read h out.length) :=
    Memory.transferEnds host.memory h out.length _
  have hunit := hends.map fun _ => ()
  have hread : read = readInto h out host := rfl
  rw [readInto, runFrom_readBuffer hinit] at hread
  rw [hread]
  cases hvalues : host.memory.read h out.length with
  | ok values =>
      rw [hvalues] at hunit
      refine ⟨hunit, by simp, rfl, fun _ => ?_⟩
      obtain ⟨list, hlist, hle, rfl⟩ := hsound.values_of_read hvalues
      refine ⟨list, hlist, hle, ?_⟩
      -- the slice is filled to its end
      dsimp only
      rw [List.length_take, Nat.min_eq_left hle, List.drop_length, List.append_nil]
  | error e =>
      rw [hvalues] at hunit
      exact ⟨hunit, fun _ _ => rfl, rfl, by simp⟩

end

/-! ## Histories -/

/-- The lists after effects, of which there were none before. -/
def Lists.after (effects : List Effect) : Lists :=
  effects.foldl (fun l e => e.onLists l) empty

/-- After any history all buffers are sound, and their lists are those that the
effects leave behind. -/
theorem Family.lists_after (available : Nat) (ops : List Operation) :
    ((ofHost (new available)).after ops).memory.Sound ∧
      ((ofHost (new available)).after ops).memory.lists =
        Lists.after ((ofHost (new available)).effects ops) := by
  have hstart : (Memory.empty available).Sound ∧
      (Memory.empty available).lists = Lists.after [] := by
    refine ⟨Memory.sound_empty available, ?_⟩
    funext h
    obtain ⟨_ | id⟩ := h
    · rfl
    · rfl
  refine after_preserves (f := ofHost (new available))
    (fun done m => m.Sound ∧ m.lists = Lists.after done)
    (fun done m e n hm he => ⟨hm.1.of_happens he, ?_⟩) hstart ops
  rw [Memory.lists_of_happens he, hm.2, Lists.after, Lists.after, List.foldl_append]
  rfl

/-- After any history of a family of clones, memory is the lists that the effects of
all calls leave behind: those of a creation, of a write, and of a dispatch on what it
binds. Every buffer holds the whole elements of its size, and a clone that was set up
transfers to and from these lists, always inside of them. -/
theorem transfers_refine_lists {available : Nat} {ops : List Family.Operation} {i : Nat}
    {host : Host} (hhost : ((Family.ofHost (new available)).after ops).host? i = some host) :
    let lists := Lists.after ((Family.ofHost (new available)).effects ops)
    (∀ h b, host.memory.get? h = some b → b.contents.size = b.byteSize.toNat / 4) ∧
      (∀ h, host.memory.lists h = lists h) ∧
      (∀ e ∈ (Family.ofHost (new available)).effects ops, ∀ l h, ¬ e.Touches h →
        e.onLists l h = l h) ∧
      (host.initialized = true → ∀ h,
        (∀ data, let write := (writeBuffer h data).runFrom host
          host.memory.TransferEnds h data.length write.1 ∧
            (∀ e, write.1 = .error e → write.2 = host) ∧
            (write.1 = .ok () → ∃ list, lists h = some list ∧ data.length ≤ list.length)) ∧
        ∀ out, let read := readInto h out host
          host.memory.TransferEnds h out.length read.1 ∧
            (∀ e, read.1 = .error e → read.2.1 = out) ∧ read.2.2 = host ∧
            (read.1 = .ok () → ∃ list, lists h = some list ∧ out.length ≤ list.length ∧
              read.2.1 = list.take out.length)) := by
  intro lists
  obtain ⟨own, -, rfl⟩ := Option.map_eq_some_iff.mp hhost
  obtain ⟨hsound, hlists⟩ := Family.lists_after available ops
  refine ⟨fun h b hb => (hsound h b hb).size, fun h => congrFun hlists h,
    fun e _ l h he => Effect.onLists_of_not_touches he l, fun hinit h => ⟨?_, ?_⟩⟩
  · intro data
    have hends := writeBuffer_ends hinit hsound h data
    rw [hlists] at hends
    exact hends
  · intro out
    have hends := readInto_ends hinit hsound h out
    rw [hlists] at hends
    exact hends

/-- Two clones share a buffer of ten bytes, which one writes and the other gives to a
kernel. -/
def sharingOperations : List Family.Operation :=
  [.call 0 .setup, .call 0 (.register "k" sampleBody), .call 0 (.createKernel "k" "k"),
    .call 0 (.createBuffer 10 true), .clone 0, .call 1 (.writeBuffer ⟨1⟩ [⟨5⟩, ⟨6⟩]),
    .call 0 (.runKernel ⟨1⟩ (Launch.linear 1 1) [⟨1⟩, ⟨1⟩])]

theorem transfers_refine_lists_shared :
    ∃ host, ((Family.ofHost (new 16)).after sharingOperations).host? 1 = some host ∧
      host.initialized = true ∧ (readInto ⟨1⟩ [⟨0⟩] host).2.1 = [⟨7⟩] ∧
      (∃ reason, (readInto ⟨1⟩ [⟨0⟩, ⟨0⟩, ⟨0⟩] host).1 = .error (.transferFailed ⟨1⟩ reason)) ∧
      (readInto ⟨2⟩ [] host).1 = .error (.invalidBufferHandle 2) := by
  have hhost : ((Family.ofHost (new 16)).after sharingOperations).host? 1 =
      some ⟨⟨true, Table.empty.insert "k" sampleBody, [⟨"k", sampleBody⟩]⟩,
        ⟨[⟨#[⟨7⟩, ⟨7⟩], 10, true⟩], 16⟩⟩ := by
    rfl
  obtain ⟨-, hlists, -, hends⟩ := transfers_refine_lists hhost
  have hread := fun h out => (hends rfl h).2 out
  refine ⟨_, hhost, rfl, ?_, ?_, ?_⟩
  · obtain ⟨hends, -, -, hvalues⟩ := hread ⟨1⟩ [⟨0⟩]
    obtain ⟨_, hok⟩ := hends.ok_iff.mpr ⟨_, rfl, by decide⟩
    obtain ⟨list, hlist, -, hout⟩ := hvalues hok
    rw [← hlists] at hlist
    cases hlist
    exact hout
  · exact (hread ⟨1⟩ [⟨0⟩, ⟨0⟩, ⟨0⟩]).1.tooLarge_iff.mpr ⟨_, rfl, by decide⟩
  · exact (hread ⟨2⟩ []).1.missing_iff.mpr rfl

end Host

end NetReplay
