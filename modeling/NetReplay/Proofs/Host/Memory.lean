import NetReplay.Host.Memory

/-!
# The laws of host memory

Memory is known by the buffer of each handle (`ext_get?`), and every operation is
described by what it does to `get?`. A change of one buffer shows under its
handle alone (`get?_modify`); an allocation adds one handle that had no buffer
before (`get?_of_allocate`). Two memories have the same shape when they differ in
the values of elements only (`SameShape`); a write that fits keeps the shape. Whether
an allocation or a write fails, and why, does not depend on what else lies in memory
(`allocate_cases`, `write_cases`).

Distinct buffers can be taken out together, and putting back what was taken gives
the memory from before (`takeAll_eq`); until then they are empty (`get?_of_takeAll`).
Each buffer is filled from its own slot (`get?_restoreAll_zip_eq`), so a slot that is
changed in between changes its buffer (`restoreAll_zip_modify`).
-/

namespace NetReplay

namespace Host

/-- What a dispatch never changes about a buffer: the number of its elements, its
size and whether it is written. -/
def Buffer.shape (b : Buffer) : Nat × UInt64 × Bool := (b.contents.size, b.byteSize, b.writable)

/-- The size of a buffer counts whole elements. -/
def Buffer.Whole (b : Buffer) : Prop := b.byteSize.toNat = 4 * b.contents.size

/-- The buffer has so many elements, starts with the values and is zero behind them. -/
structure Buffer.StartsWith (b : Buffer) (elements : Nat) (writable : Bool)
    (values : List Single) : Prop where
  byteSize : b.byteSize.toNat = 4 * elements
  writable : b.writable = writable
  length_le : values.length ≤ elements
  contents : b.contents.toList =
    values ++ List.replicate (elements - values.length) Single.zero

theorem Buffer.StartsWith.size_contents {b : Buffer} {elements : Nat} {writable : Bool}
    {values : List Single} (h : b.StartsWith elements writable values) :
    b.contents.size = elements := by
  have hle := h.length_le
  rw [← Array.length_toList, h.contents, List.length_append, List.length_replicate]
  omega

theorem Buffer.StartsWith.whole {b : Buffer} {elements : Nat} {writable : Bool}
    {values : List Single} (h : b.StartsWith elements writable values) : b.Whole := by
  rw [Whole, h.size_contents]
  exact h.byteSize

namespace Memory

theorem ext_get? {m n : Memory} (havailable : m.available = n.available)
    (hget : ∀ h, m.get? h = n.get? h) : m = n := by
  obtain ⟨buffers, available⟩ := m
  obtain ⟨others, _⟩ := n
  cases havailable
  have hbuffers : buffers = others := List.ext_getElem? fun i => hget ⟨i + 1⟩
  rw [hbuffers]

/-! ## What stays of a memory -/

/-- The same buffers up to the values of their elements. -/
def SameShape (m n : Memory) : Prop :=
  ∀ h, (n.get? h).map Buffer.shape = (m.get? h).map Buffer.shape

theorem SameShape.refl (m : Memory) : SameShape m m := fun _ => rfl

theorem SameShape.trans {m n o : Memory} (hmn : SameShape m n) (hno : SameShape n o) :
    SameShape m o := fun h => (hno h).trans (hmn h)

/-- Every buffer is still there, up to the values of its elements. -/
def Keeps (m n : Memory) : Prop :=
  ∀ h b, m.get? h = some b →
    ∃ c, n.get? h = some c ∧ c.contents.size = b.contents.size ∧ c.byteSize = b.byteSize

theorem SameShape.keeps {m n : Memory} (hmn : SameShape m n) : Keeps m n := by
  intro h b hb
  have hshape := hmn h
  rw [hb, Option.map_some, Option.map_eq_some_iff] at hshape
  obtain ⟨c, hc, hshape⟩ := hshape
  rw [Buffer.shape, Buffer.shape, Prod.mk.injEq, Prod.mk.injEq] at hshape
  exact ⟨c, hc, hshape.1, hshape.2.1⟩

/-- Every buffer of whole elements is still there, with as many of them. -/
def KeepsWhole (m n : Memory) : Prop :=
  ∀ h b, m.get? h = some b → b.Whole →
    ∃ c, n.get? h = some c ∧ c.Whole ∧ c.contents.size = b.contents.size

theorem KeepsWhole.refl (m : Memory) : KeepsWhole m m := fun _ b hb hwhole => ⟨b, hb, hwhole, rfl⟩

theorem Keeps.keepsWhole {m n : Memory} (hmn : Keeps m n) : KeepsWhole m n := by
  intro h b hb hwhole
  obtain ⟨c, hc, hcontents, hbytes⟩ := hmn h b hb
  refine ⟨c, hc, ?_, hcontents⟩
  rw [Buffer.Whole, hbytes, hcontents]
  exact hwhole

/-! ## Changing one buffer -/

theorem get?_modify (m : Memory) (h : BufferHandle) (f : Buffer → Buffer) (k : BufferHandle) :
    (m.modify h f).get? k = if h = k then (m.get? k).map f else m.get? k := by
  obtain ⟨h⟩ := h
  obtain ⟨k⟩ := k
  cases h with
  | zero =>
      cases k with
      | zero => rfl
      | succ k => simp [modify, get?]
  | succ h =>
      cases k with
      | zero => simp [get?]
      | succ k => by_cases hk : h = k <;> simp [modify, get?, hk]

theorem get?_modify_self (m : Memory) (h : BufferHandle) (f : Buffer → Buffer) :
    (m.modify h f).get? h = (m.get? h).map f := by
  rw [get?_modify, if_pos rfl]

theorem get?_modify_of_ne (m : Memory) {h k : BufferHandle} (hne : h ≠ k) (f : Buffer → Buffer) :
    (m.modify h f).get? k = m.get? k := by
  rw [get?_modify, if_neg hne]

@[simp] theorem available_modify (m : Memory) (h : BufferHandle) (f : Buffer → Buffer) :
    (m.modify h f).available = m.available := by
  rw [modify]
  split
  · rfl
  · rfl

@[simp] theorem length_buffers_modify (m : Memory) (h : BufferHandle) (f : Buffer → Buffer) :
    (m.modify h f).buffers.length = m.buffers.length := by
  rw [modify]
  split
  · rfl
  · exact List.length_modify ..

theorem contains_modify (m : Memory) (h : BufferHandle) (f : Buffer → Buffer) (k : BufferHandle) :
    (m.modify h f).contains k = m.contains k := by
  rw [contains, contains, get?_modify]
  split
  · exact Option.isSome_map
  · rfl

theorem sameShape_modify {m : Memory} {h : BufferHandle} {f : Buffer → Buffer}
    (hf : ∀ b, m.get? h = some b → (f b).shape = b.shape) : SameShape m (m.modify h f) := by
  intro k
  rw [get?_modify]
  split
  · rename_i hk
    rw [Option.map_map]
    refine Option.map_congr fun b hb => ?_
    exact hf b (hk ▸ hb)
  · rfl

theorem modify_modify (m : Memory) (h : BufferHandle) (f g : Buffer → Buffer) :
    (m.modify h f).modify h g = m.modify h fun b => g (f b) := by
  refine ext_get? (by simp) fun k => ?_
  rw [get?_modify, get?_modify, get?_modify]
  split
  · exact Option.map_map ..
  · rfl

theorem modify_comm (m : Memory) {h k : BufferHandle} (hne : h ≠ k) (f g : Buffer → Buffer) :
    (m.modify h f).modify k g = (m.modify k g).modify h f := by
  refine ext_get? (by simp) fun i => ?_
  rw [get?_modify, get?_modify, get?_modify, get?_modify]
  by_cases hh : h = i
  · rw [if_neg fun hk => hne (hh.trans hk.symm), if_pos hh, if_pos hh,
      if_neg fun hk => hne (hh.trans hk.symm)]
  · rw [if_neg hh, if_neg hh]

theorem modify_eq_self {m : Memory} {h : BufferHandle} {b : Buffer} (hb : m.get? h = some b)
    {f : Buffer → Buffer} (hf : f b = b) : m.modify h f = m := by
  refine ext_get? (by simp) fun k => ?_
  rw [get?_modify]
  split
  · rename_i hk
    rw [← hk, hb, Option.map_some, hf]
  · rfl

theorem exists_of_contains {m : Memory} {h : BufferHandle} (hmem : m.contains h) :
    ∃ b, m.get? h = some b :=
  Option.isSome_iff_exists.mp hmem

theorem find_of_get? {m : Memory} {h : BufferHandle} {b : Buffer} (hb : m.get? h = some b) :
    m.find h = .ok b := by
  rw [find, hb]

/-! ## Allocating and transferring -/

theorem get?_append (m : Memory) (b : Buffer) (k : BufferHandle) :
    ({ m with buffers := m.buffers ++ [b] } : Memory).get? k =
      if k = ⟨m.buffers.length + 1⟩ then some b else m.get? k := by
  obtain ⟨k⟩ := k
  cases k with
  | zero => simp [get?]
  | succ k =>
      rw [get?, get?]
      by_cases hk : k = m.buffers.length
      · simp [hk]
      · by_cases hlt : k < m.buffers.length
        · simp [hk, List.getElem?_append_left hlt]
        · have hle : m.buffers.length + 1 ≤ k := by omega
          simp [hk, List.getElem?_eq_none (Nat.le_of_succ_le hle),
            List.getElem?_eq_none (l := m.buffers ++ [b]) (by simpa using hle)]

theorem get?_next (m : Memory) : m.get? ⟨m.buffers.length + 1⟩ = none :=
  List.getElem?_eq_none (Nat.le_refl _)

/-- An allocation adds a buffer of zeros under a handle without one. -/
theorem allocate_eq_ok {m m' : Memory} {byteSize : UInt64} {writable : Bool} {h : BufferHandle}
    (hok : m.allocate byteSize writable = .ok (h, m')) :
    h = ⟨m.buffers.length + 1⟩ ∧ m' = { m with buffers := m.buffers ++
      [⟨Array.replicate (elementsOf byteSize) Single.zero, byteSize, writable⟩] } := by
  rw [allocate] at hok
  cases hrefusal : m.refusal? (elementsOf byteSize * elementBytes) with
  | some reason =>
      rw [hrefusal] at hok
      cases hok
  | none =>
      rw [hrefusal] at hok
      cases hok
      exact ⟨rfl, rfl⟩

theorem get?_of_allocate {m m' : Memory} {byteSize : UInt64} {writable : Bool} {h : BufferHandle}
    (hok : m.allocate byteSize writable = .ok (h, m')) :
    m.get? h = none ∧ ∀ k, m'.get? k = if k = h then
      some ⟨Array.replicate (elementsOf byteSize) Single.zero, byteSize, writable⟩
      else m.get? k := by
  obtain ⟨rfl, rfl⟩ := allocate_eq_ok hok
  exact ⟨get?_next m, fun k => get?_append m _ k⟩

theorem keeps_of_allocate {m m' : Memory} {byteSize : UInt64} {writable : Bool} {h : BufferHandle}
    (hok : m.allocate byteSize writable = .ok (h, m')) : Keeps m m' := by
  obtain ⟨hnone, hget⟩ := get?_of_allocate hok
  intro k b hb
  have hne : k ≠ h := by
    rintro rfl
    rw [hnone] at hb
    cases hb
  refine ⟨b, ?_, rfl, rfl⟩
  rw [hget, if_neg hne, hb]

theorem checkFits_eq_ok_iff (h : BufferHandle) (elements : Nat) (byteSize : UInt64) :
    checkFits h elements byteSize = .ok () ↔ transferBytes elements ≤ byteSize.toNat := by
  rw [checkFits]
  by_cases hlt : byteSize.toNat < transferBytes elements
  · simp [hlt]
  · simpa [hlt] using Nat.le_of_not_lt hlt

/-- The contents of a buffer after data was written to its front. -/
def overwrite (data : List Single) (b : Buffer) : Buffer :=
  { b with contents := data.toArray ++ b.contents.extract data.length b.contents.size }

/-- A transfer succeeds when the buffer exists and its bytes fit. -/
theorem transfer_eq_ok_iff {α : Type} {m : Memory} {h : BufferHandle} {count : Nat}
    (result : Buffer → α) (a : α) :
    (do let b ← m.find h; checkFits h count b.byteSize; pure (result b)) = Except.ok a ↔
      ∃ b, m.get? h = some b ∧ transferBytes count ≤ b.byteSize.toNat ∧ a = result b := by
  rw [find]
  cases hb : m.get? h with
  | none => simp [bind, Except.bind]
  | some b =>
      simp only [bind, Except.bind, Option.some.injEq, exists_eq_left']
      rw [← checkFits_eq_ok_iff h]
      cases hfits : checkFits h count b.byteSize with
      | error e => simp
      | ok u =>
          simp only [pure, Except.pure, Except.ok.injEq, true_and]
          exact eq_comm

theorem write_eq_ok_iff {m m' : Memory} {h : BufferHandle} {data : List Single} :
    m.write h data = .ok m' ↔ ∃ b, m.get? h = some b ∧
      transferBytes data.length ≤ b.byteSize.toNat ∧ m' = m.modify h (overwrite data) :=
  transfer_eq_ok_iff (fun _ => m.modify h (overwrite data)) m'

/-- Data that fits a buffer of whole elements is not longer than its contents. -/
theorem length_le_of_fits {data : List Single} {b : Buffer} (hb : b.Whole)
    (hfits : transferBytes data.length ≤ b.byteSize.toNat) : data.length ≤ b.contents.size := by
  have hlt := b.byteSize.toNat_lt
  rw [hb] at hfits hlt
  rw [transferBytes, elementBytes, UInt64.size] at hfits
  omega

/-- As many elements as a buffer has fit it. -/
theorem fits_of_length_le {count : Nat} {b : Buffer} (hb : b.Whole)
    (hle : count ≤ b.contents.size) : transferBytes count ≤ b.byteSize.toNat := by
  rw [hb, transferBytes, elementBytes]
  exact Nat.le_trans (Nat.min_le_left ..) (by omega)

theorem toList_contents_overwrite (data : List Single) (b : Buffer) :
    (overwrite data b).contents.toList = data ++ b.contents.toList.drop data.length := by
  have hlength : (b.contents.toList.drop data.length).length ≤ b.contents.size - data.length :=
    Nat.le_of_eq (by rw [List.length_drop, Array.length_toList])
  rw [overwrite, Array.toList_append, Array.toList_extract, List.extract_eq_take_drop,
    List.take_of_length_le hlength]

/-- Data as long as a buffer replaces all of its elements. -/
theorem toList_overwrite {data : List Single} {b : Buffer} (hlength : data.length = b.contents.size) :
    (overwrite data b).contents.toList = data := by
  simp [overwrite, hlength]

theorem overwrite_nil (b : Buffer) : overwrite [] b = b := by
  simp [overwrite]

/-- Data written to a buffer of zeros is followed by zeros. -/
theorem startsWith_overwrite {size : UInt64} {elements : Nat}
    (hsize : size.toNat = 4 * elements) (writable : Bool) {values : List Single}
    (hle : values.length ≤ elements) :
    (overwrite values ⟨Array.replicate elements Single.zero, size, writable⟩).StartsWith
      elements writable values where
  byteSize := hsize
  writable := rfl
  length_le := hle
  contents := by
    rw [toList_contents_overwrite, Array.toList_replicate, List.drop_replicate]

theorem shape_overwrite {data : List Single} {b : Buffer} (hle : data.length ≤ b.contents.size) :
    (overwrite data b).shape = b.shape := by
  simp [overwrite, Buffer.shape, Nat.add_sub_cancel' hle]

theorem sameShape_of_write {m n : Memory} {h : BufferHandle} {data : List Single} {b : Buffer}
    (hwrite : m.write h data = .ok n) (hb : m.get? h = some b) (hwhole : b.Whole) :
    SameShape m n := by
  obtain ⟨c, hc, hfits, rfl⟩ := write_eq_ok_iff.mp hwrite
  cases hb.symm.trans hc
  refine sameShape_modify fun d hd => ?_
  cases hc.symm.trans hd
  exact shape_overwrite (length_le_of_fits hwhole hfits)

/-- A write keeps the buffers of whole elements, whatever the others are like. -/
theorem keepsWhole_of_write {m n : Memory} {h : BufferHandle} {data : List Single}
    (hwrite : m.write h data = .ok n) : KeepsWhole m n := by
  obtain ⟨b, hb, hfits, rfl⟩ := write_eq_ok_iff.mp hwrite
  intro k c hc hwhole
  by_cases hk : h = k
  · subst hk
    cases hb.symm.trans hc
    have hle := length_le_of_fits hwhole hfits
    have hsize : (overwrite data b).contents.size = b.contents.size :=
      congrArg Prod.fst (shape_overwrite hle)
    refine ⟨overwrite data b, ?_, ?_, hsize⟩
    · rw [get?_modify_self, hb, Option.map_some]
    · rw [Buffer.Whole, hsize]
      exact hwhole
  · exact ⟨c, (get?_modify_of_ne m hk _).trans hc, hwhole, rfl⟩

theorem read_eq_ok_iff {m : Memory} {h : BufferHandle} {count : Nat} {values : List Single} :
    m.read h count = .ok values ↔ ∃ b, m.get? h = some b ∧
      transferBytes count ≤ b.byteSize.toNat ∧ values = b.contents.toList.take count :=
  transfer_eq_ok_iff (fun b => b.contents.toList.take count) values

/-! ## A further buffer -/

/-- A memory with one buffer more, under a handle that had none. -/
structure Adds (m : Memory) (h : BufferHandle) (b : Buffer) (n : Memory) : Prop where
  available : n.available = m.available
  fresh : m.get? h = none
  here : n.get? h = some b
  elsewhere : ∀ k, k ≠ h → n.get? k = m.get? k

section

variable {m n : Memory} {h : BufferHandle} {b : Buffer}

theorem adds_of_allocate {byteSize : UInt64} {writable : Bool}
    (hok : m.allocate byteSize writable = .ok (h, n)) :
    m.Adds h ⟨Array.replicate (elementsOf byteSize) Single.zero, byteSize, writable⟩ n := by
  obtain ⟨hnone, hget⟩ := get?_of_allocate hok
  refine ⟨?_, hnone, (hget h).trans (if_pos rfl), fun k hk => (hget k).trans (if_neg hk)⟩
  obtain ⟨-, rfl⟩ := allocate_eq_ok hok
  rfl

/-- What was there is still there. -/
theorem Adds.get?_of_some (hadds : m.Adds h b n) {k : BufferHandle} {c : Buffer}
    (hc : m.get? k = some c) : n.get? k = some c := by
  rw [hadds.elsewhere k ?_, hc]
  rintro rfl
  rw [hadds.fresh] at hc
  cases hc

theorem Adds.keeps (hadds : m.Adds h b n) : Keeps m n :=
  fun _ c hc => ⟨c, hadds.get?_of_some hc, rfl, rfl⟩

/-- What is changed about the further buffer alone leaves it the only further one. -/
theorem Adds.modify (hadds : m.Adds h b n) (f : Buffer → Buffer) :
    m.Adds h (f b) (n.modify h f) where
  available := (available_modify n h f).trans hadds.available
  fresh := hadds.fresh
  here := by rw [get?_modify_self, hadds.here, Option.map_some]
  elsewhere k hk := (get?_modify_of_ne n (Ne.symm hk) f).trans (hadds.elsewhere k hk)

/-- An allocation fails for the number of its bytes, or adds a buffer of zeros. -/
theorem allocate_cases (m : Memory) (byteSize : UInt64) (writable : Bool) :
    (∃ reason, (empty m.available).refusal? (elementsOf byteSize * elementBytes) = some reason ∧
        m.allocate byteSize writable = .error (.allocationFailed byteSize reason)) ∨
      (empty m.available).refusal? (elementsOf byteSize * elementBytes) = none ∧
        ∃ h n, m.allocate byteSize writable = .ok (h, n) := by
  have hrefusal : m.refusal? (elementsOf byteSize * elementBytes) =
      (empty m.available).refusal? (elementsOf byteSize * elementBytes) := rfl
  rw [← hrefusal, allocate]
  cases m.refusal? (elementsOf byteSize * elementBytes) with
  | some reason => exact Or.inl ⟨reason, rfl, rfl⟩
  | none => exact Or.inr ⟨rfl, _, _, rfl⟩

/-- Whether a write fits does not depend on where the buffer lies. -/
theorem write_cases (hb : m.get? h = some b) (data : List Single) :
    (∃ reason, (∀ k, checkFits k data.length b.byteSize = .error (.transferFailed k reason)) ∧
        m.write h data = .error (.transferFailed h reason)) ∨
      (∀ k, checkFits k data.length b.byteSize = .ok ()) ∧
        m.write h data = .ok (m.modify h (overwrite data)) := by
  rw [write, find_of_get? hb]
  by_cases hlt : b.byteSize.toNat < transferBytes data.length
  · refine Or.inl ⟨_, fun k => if_pos hlt, ?_⟩
    simp only [bind, Except.bind, checkFits, if_pos hlt]
  · refine Or.inr ⟨fun k => if_neg hlt, ?_⟩
    simp only [bind, Except.bind, checkFits, if_neg hlt]
    rfl

end

/-! ## Taking contents out and putting them back -/

theorem take_of_get? {m : Memory} {h : BufferHandle} {b : Buffer} (hb : m.get? h = some b) :
    m.take h = .ok (b.contents, m.restore h #[]) := by
  rw [take, find_of_get? hb]
  rfl

theorem take_of_get?_eq_none {m : Memory} {h : BufferHandle} (hnone : m.get? h = none) :
    m.take h = .error (.invalidBufferHandle h.id) := by
  rw [take, find, hnone]
  rfl

theorem restoreAll_cons (m : Memory) (h : BufferHandle) (contents : Array Single)
    (slots : List (BufferHandle × Array Single)) :
    m.restoreAll ((h, contents) :: slots) = (m.restore h contents).restoreAll slots := rfl

/-- A change of a buffer that is not among those put back can as well be made
afterwards. -/
theorem restoreAll_modify {h : BufferHandle} {slots : List (BufferHandle × Array Single)}
    (hnot : h ∉ slots.map Prod.fst) (m : Memory) (f : Buffer → Buffer) :
    (m.modify h f).restoreAll slots = (m.restoreAll slots).modify h f := by
  induction slots generalizing m with
  | nil => rfl
  | cons slot slots ih =>
      obtain ⟨k, contents⟩ := slot
      rw [List.map_cons, List.mem_cons, not_or] at hnot
      rw [restoreAll_cons, restoreAll_cons, ← ih hnot.2, restore, restore,
        modify_comm m hnot.1]

theorem contains_restoreAll (m : Memory) (slots : List (BufferHandle × Array Single))
    (h : BufferHandle) : (m.restoreAll slots).contains h = m.contains h := by
  induction slots generalizing m with
  | nil => rfl
  | cons slot slots ih =>
      rw [restoreAll_cons, ih, restore, contains_modify]

/-- Distinct buffers can be taken out together, and putting back what was taken
gives the memory from before. -/
theorem takeAll_eq {bound : List BufferHandle} (hnodup : bound.Nodup) {m : Memory}
    (hmem : ∀ h ∈ bound, m.contains h) :
    ∃ slots taken, m.takeAll bound = (.ok slots, taken) ∧ slots.length = bound.length ∧
      taken.restoreAll (bound.zip slots) = m := by
  induction bound generalizing m with
  | nil => exact ⟨[], m, rfl, rfl, rfl⟩
  | cons h bound ih =>
      obtain ⟨hnot, hnodup⟩ := List.nodup_cons.mp hnodup
      obtain ⟨b, hb⟩ := exists_of_contains (hmem h (List.mem_cons_self ..))
      have hrest : ∀ k ∈ bound, (m.restore h #[]).contains k := by
        intro k hk
        rw [restore, contains_modify]
        exact hmem k (List.mem_cons_of_mem h hk)
      obtain ⟨slots, taken, htake, hlength, hrestore⟩ := ih hnodup hrest
      refine ⟨b.contents :: slots, taken, ?_, congrArg Nat.succ hlength, ?_⟩
      · simp only [takeAll, take_of_get? hb, htake]
      · have hzip : h ∉ (bound.zip slots).map Prod.fst := by
          rw [List.map_fst_zip (Nat.le_of_eq hlength.symm)]
          exact hnot
        rw [List.zip_cons_cons, restoreAll_cons, restore, restoreAll_modify hzip, hrestore, restore,
          modify_modify]
        exact modify_eq_self hb rfl

/-- What was taken out is empty until it is put back, and nothing else is touched. -/
theorem get?_of_takeAll {bound : List BufferHandle} {m taken : Memory}
    {slots : List (Array Single)} (htake : m.takeAll bound = (.ok slots, taken))
    (k : BufferHandle) :
    taken.get? k = if k ∈ bound then (m.get? k).map fun b => { b with contents := #[] }
      else m.get? k := by
  induction bound generalizing m slots with
  | nil =>
      cases htake
      exact (if_neg List.not_mem_nil).symm
  | cons h bound ih =>
      rw [takeAll] at htake
      cases hb : m.get? h with
      | none =>
          rw [take_of_get?_eq_none hb] at htake
          cases htake
      | some b =>
          rw [take_of_get? hb] at htake
          cases hrest : (m.restore h #[]).takeAll bound with
          | mk result left =>
              simp only [hrest] at htake
              cases result with
              | error e => cases htake
              | ok rest =>
                  cases htake
                  rw [ih hrest, restore, get?_modify]
                  by_cases hk : h = k
                  · subst hk
                    simp [Function.comp_def]
                  · simp [hk, Ne.symm hk]

theorem get?_restoreAll_of_not_mem {h : BufferHandle}
    {slots : List (BufferHandle × Array Single)} (hnot : h ∉ slots.map Prod.fst) (m : Memory) :
    (m.restoreAll slots).get? h = m.get? h := by
  induction slots generalizing m with
  | nil => rfl
  | cons slot slots ih =>
      obtain ⟨k, contents⟩ := slot
      rw [List.map_cons, List.mem_cons, not_or] at hnot
      rw [restoreAll_cons, ih hnot.2, restore, get?_modify_of_ne m (Ne.symm hnot.1)]

variable {bound : List BufferHandle} {slots : List (Array Single)} {p : Nat} {h : BufferHandle}

/-- Each of several distinct buffers is filled from its own slot, and keeps the rest. -/
theorem get?_restoreAll_zip_eq (hnodup : bound.Nodup) (hlength : slots.length = bound.length)
    (hp : bound[p]? = some h) (m : Memory) :
    (m.restoreAll (bound.zip slots)).get? h =
      (m.get? h).bind fun b => slots[p]?.map fun contents => { b with contents } := by
  induction bound generalizing m slots p with
  | nil => cases hp
  | cons k bound ih =>
      obtain ⟨hnot, hnodup⟩ := List.nodup_cons.mp hnodup
      cases slots with
      | nil => cases hlength
      | cons contents slots =>
          have hlength : slots.length = bound.length := Nat.succ.inj hlength
          have hfst := List.map_fst_zip (Nat.le_of_eq hlength.symm)
          rw [List.zip_cons_cons, restoreAll_cons]
          cases p with
          | zero =>
              cases hp
              rw [get?_restoreAll_of_not_mem (by rw [hfst]; exact hnot), restore,
                get?_modify_self, List.getElem?_cons_zero]
              cases m.get? h <;> rfl
          | succ p =>
              have hne : k ≠ h := fun heq => hnot (heq ▸ List.mem_of_getElem? hp)
              rw [ih hnodup hlength hp, restore, get?_modify_of_ne m hne, List.getElem?_cons_succ]

/-- The contents of a buffer that was put back are its slot. -/
theorem get?_restoreAll_zip (hnodup : bound.Nodup) (hlength : slots.length = bound.length)
    (hp : bound[p]? = some h) (m : Memory) :
    ((m.restoreAll (bound.zip slots)).get? h).map Buffer.contents =
      (m.get? h).bind fun _ => slots[p]? := by
  rw [get?_restoreAll_zip_eq hnodup hlength hp, Option.map_bind]
  refine congrArg _ (funext fun b => ?_)
  cases slots[p]? <;> rfl

/-- Changing a slot before it is put back changes its buffer. -/
theorem restoreAll_zip_modify (hnodup : bound.Nodup) (hlength : slots.length = bound.length)
    (hp : bound[p]? = some h) (m : Memory) (f : Array Single → Array Single) :
    m.restoreAll (bound.zip (slots.modify p f)) =
      (m.restoreAll (bound.zip slots)).modify h fun b => { b with contents := f b.contents } := by
  induction bound generalizing m slots p with
  | nil => cases hp
  | cons k bound ih =>
      obtain ⟨hnot, hnodup⟩ := List.nodup_cons.mp hnodup
      cases slots with
      | nil => cases hlength
      | cons contents slots =>
          have hlength : slots.length = bound.length := Nat.succ.inj hlength
          have hzip : k ∉ (bound.zip slots).map Prod.fst := by
            rw [List.map_fst_zip (Nat.le_of_eq hlength.symm)]
            exact hnot
          cases p with
          | zero =>
              cases hp
              rw [List.modify_zero_cons, List.zip_cons_cons, List.zip_cons_cons, restoreAll_cons,
                restoreAll_cons, restore, restore, restoreAll_modify hzip, restoreAll_modify hzip,
                modify_modify]
          | succ p =>
              rw [List.modify_succ_cons, List.zip_cons_cons, List.zip_cons_cons, restoreAll_cons,
                restoreAll_cons]
              exact ih hnodup hlength hp _

end Memory

end Host

end NetReplay
