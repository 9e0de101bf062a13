import NetReplay.Proofs.Json.Decode

/-!
# How tensors are laid out

A builder writes its tensors one behind the other, in the order of their names.
`Builder.records` are the records of that layout, and the header lists their
entries (`layout_eq_map`). Each belongs to a tensor, fits the bytes that are
written, and its range holds the elements of the tensor (`get?_records_eq_some`).

A record fits (`Record.Fits`) when its range lies in the tensor data and holds
a whole number of elements: this is what reading checks, and what makes looking
at the bytes of the record safe.
-/

namespace NetReplay

namespace Weights

open Json

namespace Record

/-- The range lies in the tensor data and holds whole elements. -/
structure Fits (available : Nat) (r : Record) : Prop where
  start_le_stop : r.start ≤ r.stop
  stop_le : r.stop ≤ available
  whole : ∀ width, r.elementType.width? = some width → r.byteLength % width = 0

/-- The fields of a header entry, in the order of their names. -/
def fields (r : Record) : List (String × Tree) :=
  [("data_offsets", .array [.ofNat r.start, .ofNat r.stop] true),
    ("dtype", .ofText r.elementType.tag), ("shape", .array (r.shape.map .ofWord) true)]

/-- The header entry of a record. -/
def tree (r : Record) : Tree :=
  .object (Tree.membersOf r.fields) true

theorem written_tree {r : Record} (hstart : r.start < UInt64.size)
    (hstop : r.stop < UInt64.size) (room : Nat) : r.tree.Written (room + 2) := by
  refine .object (room + 1) r.fields fun m hm => ?_
  simp only [fields, List.mem_cons, List.not_mem_nil, or_false] at hm
  rcases hm with rfl | rfl | rfl
  · refine .array room _ fun t ht => ?_
    simp only [List.mem_cons, List.not_mem_nil, or_false] at ht
    rcases ht with rfl | rfl
    · exact .size room _ hstart
    · exact .size room _ hstop
  · exact .text _ _
  · refine .array room _ fun t ht => ?_
    obtain ⟨d, -, rfl⟩ := List.mem_map.mp ht
    exact .size room _ d.toNat_lt

theorem readOffsets_ofWord (start stop : UInt64) :
    Entry.readOffsets (.array [.ofWord start, .ofWord stop] true) = .ok (start, stop) := by
  have hlist := Tree.list_word_ofWord [start, stop]
  rw [List.map_cons, List.map_cons, List.map_nil] at hlist
  rw [Entry.readOffsets, hlist]
  rfl

/-- The entry of a record reads back as what it says. -/
theorem read_tree {r : Record} {start stop : UInt64} (hstart : r.start = start.toNat)
    (hstop : r.stop = stop.toNat) :
    Entry.read r.tree = .ok ⟨r.elementType.tag, r.shape, (start, stop)⟩ := by
  have hmembers := Builder.membersByName_membersOf r.fields
  have hoffsets : (Table.ofList r.fields).get? "data_offsets" =
      some (.array [.ofWord start, .ofWord stop] true) := by
    simp [Table.get?_ofList, fields, Table.lookup_entry, hstart, hstop, Tree.ofWord]
  have hdtype : (Table.ofList r.fields).get? "dtype" =
      some (.ofText r.elementType.tag) := by
    simp [Table.get?_ofList, fields, Table.lookup_entry]
  have hshape : (Table.ofList r.fields).get? "shape" =
      some (.array (r.shape.map .ofWord) true) := by
    simp [Table.get?_ofList, fields]
  rw [tree, Entry.read, hmembers]
  simp only [bind, Except.bind, hoffsets, hdtype, hshape, Option.mapM_some,
    readOffsets_ofWord, Tree.text_ofText, Tree.list_word_ofWord]
  rfl

theorem not_any_width_iff (t : ElementType) (length : Nat) :
    ¬ (t.width?.any fun width => length % width != 0) = true ↔
      ∀ width, t.width? = some width → length % width = 0 := by
  cases t.width? with
  | none => simp
  | some w => simp

/-- Checking an entry succeeds exactly when its record fits. -/
theorem ofEntry_eq_ok_iff (name : String) (available : Nat) (e : Entry) (r : Record) :
    ofEntry name available e = .ok r ↔
      r = ⟨name, ElementType.ofTag e.dtype, e.shape, e.offsets.1.toNat, e.offsets.2.toNat⟩ ∧
        r.Fits available := by
  unfold ofEntry
  dsimp only
  constructor
  · intro h
    split at h
    · cases h
    · rename_i horder
      split at h
      · cases h
      · rename_i havailable
        split at h
        · cases h
        · rename_i hwhole
          cases h
          refine ⟨rfl, ?_, ?_, (not_any_width_iff _ _).mp hwhole⟩
          · rw [UInt64.lt_iff_toNat_lt] at horder
            exact Nat.not_lt.mp horder
          · exact Nat.not_lt.mp havailable
  · rintro ⟨rfl, horder, havailable, hwhole⟩
    rw [if_neg, if_neg (Nat.not_lt.mpr havailable)]
    · exact if_neg ((not_any_width_iff _ _).mpr hwhole)
    · rw [UInt64.lt_iff_toNat_lt]
      exact Nat.not_lt.mpr horder

/-- A record that fits is what its own entry reads as. -/
theorem ofEntry_of_fits {available : Nat} {r : Record} (h : r.Fits available)
    (htag : ElementType.ofTag r.elementType.tag = r.elementType) {start stop : UInt64}
    (hstart : r.start = start.toNat) (hstop : r.stop = stop.toNat) :
    ofEntry r.name available ⟨r.elementType.tag, r.shape, (start, stop)⟩ = .ok r := by
  refine (ofEntry_eq_ok_iff _ _ _ _).mpr ⟨?_, h⟩
  rw [htag, ← hstart, ← hstop]

end Record

namespace Builder

/-- The records of tensors laid out from a given byte on. -/
def recordsFrom (start : Nat) : List (String × Tensor) → List (String × Record)
  | [] => []
  | (name, t) :: rest =>
    (name, ⟨name, .f32, t.shape, start, start + t.byteLength⟩) ::
      recordsFrom (start + t.byteLength) rest

theorem map_fst_recordsFrom (start : Nat) (l : List (String × Tensor)) :
    (recordsFrom start l).map Prod.fst = l.map Prod.fst := by
  induction l generalizing start with
  | nil => rfl
  | cons e rest ih => rw [recordsFrom, List.map_cons, ih, List.map_cons]

/-- The records of the tensors of a builder. -/
def records (b : Builder) : Table Record where
  toList := recordsFrom 0 b.tensors.toList
  ordered := by
    rw [map_fst_recordsFrom]
    exact b.tensors.ordered

/-- The elements of tensors, one behind the other. -/
def dataOf (l : List (String × Tensor)) : List UInt8 :=
  l.flatMap fun e => Single.toBytes e.2.values

theorem length_dataOf_cons (name : String) (t : Tensor) (l : List (String × Tensor)) :
    (dataOf ((name, t) :: l)).length = t.byteLength + (dataOf l).length := by
  rw [dataOf, List.flatMap_cons, List.length_append, Single.length_toBytes]
  rfl

/-- The tensor data. -/
def data (b : Builder) : List UInt8 := dataOf b.tensors.toList

/-- The header lists the entries of these records. -/
theorem layout_eq_map (start : Nat) (l : List (String × Tensor)) :
    layout start l = (recordsFrom start l).map fun e => (e.1, e.2.tree) := by
  induction l generalizing start with
  | nil => rfl
  | cons e rest ih =>
      rw [layout, recordsFrom, List.map_cons, ih]
      rfl

/-! ## Where the tensors lie -/

/-- A record of the layout belongs to a tensor and covers the bytes behind those
of the tensors in front of it. -/
theorem mem_recordsFrom {start : Nat} {l : List (String × Tensor)} {name : String} {r : Record}
    (h : (name, r) ∈ recordsFrom start l) :
    ∃ front t back, l = front ++ (name, t) :: back ∧
      r = ⟨name, .f32, t.shape, start + (dataOf front).length,
        start + (dataOf front).length + t.byteLength⟩ := by
  induction l generalizing start with
  | nil => cases h
  | cons e rest ih =>
      obtain ⟨k, u⟩ := e
      rw [recordsFrom, List.mem_cons] at h
      rcases h with h | h
      · cases h
        exact ⟨[], u, rest, rfl, rfl⟩
      · obtain ⟨front, t, back, rfl, rfl⟩ := ih h
        refine ⟨(k, u) :: front, t, back, rfl, ?_⟩
        rw [length_dataOf_cons, Nat.add_assoc]

theorem get?_records (b : Builder) (name : String) :
    (b.tensors.get? name = none ∧ b.records.get? name = none) ∨
      ∃ front t back, b.tensors.toList = front ++ (name, t) :: back ∧
        b.tensors.get? name = some t ∧
        b.records.get? name = some
          ⟨name, .f32, t.shape, (dataOf front).length, (dataOf front).length + t.byteLength⟩ := by
  cases hr : b.records.get? name with
  | none =>
      refine Or.inl ⟨?_, rfl⟩
      rw [Table.get?, Table.lookup_eq_none_iff] at hr ⊢
      rwa [records, map_fst_recordsFrom] at hr
  | some r =>
      have hmem := (Table.mem_toList_iff _ _ _).mpr hr
      obtain ⟨front, t, back, hsplit, rfl⟩ := mem_recordsFrom hmem
      refine Or.inr ⟨front, t, back, hsplit, ?_, ?_⟩
      · rw [← Table.mem_toList_iff, hsplit]
        exact List.mem_append_right _ List.mem_cons_self
      · rw [Nat.zero_add]

theorem data_eq_flatMap (b : Builder) :
    b.data = b.tensors.values.flatMap fun t => Single.toBytes t.values := by
  rw [data, dataOf, Table.values, List.flatMap_map]

theorem data_of_split {b : Builder} {front back : List (String × Tensor)} {name : String}
    {t : Tensor} (hsplit : b.tensors.toList = front ++ (name, t) :: back) :
    b.data = dataOf front ++ (Single.toBytes t.values ++ dataOf back) := by
  rw [data, hsplit, dataOf, List.flatMap_append, List.flatMap_cons]
  rfl

/-- Every record of a builder is about a tensor, fits the data, and its range
holds the elements of the tensor. -/
theorem get?_records_eq_some {b : Builder} {name : String} {r : Record}
    (h : b.records.get? name = some r) :
    ∃ t, b.tensors.get? name = some t ∧ r.name = name ∧ r.elementType = .f32 ∧
      r.shape = t.shape ∧ r.byteLength = t.byteLength ∧ r.Fits b.data.length ∧
      (b.data.drop r.start).take r.byteLength = Single.toBytes t.values := by
  rcases get?_records b name with ⟨-, hnone⟩ | ⟨front, t, back, hsplit, ht, hsome⟩
  · rw [h] at hnone
    cases hnone
  rw [h] at hsome
  cases hsome
  have hdata := data_of_split hsplit
  have htensor : (Single.toBytes t.values).length = t.byteLength := Single.length_toBytes t.values
  have htotal : b.data.length =
      (dataOf front).length + (t.byteLength + (dataOf back).length) := by
    rw [hdata, List.length_append, List.length_append, htensor]
  have hlength : ∀ n : Nat, n + t.byteLength - n = t.byteLength := fun n =>
    Nat.add_sub_cancel_left n _
  refine ⟨t, ht, rfl, rfl, rfl, hlength _, ⟨Nat.le_add_right _ _, ?_, ?_⟩, ?_⟩
  · rw [htotal, ← Nat.add_assoc]
    exact Nat.le_add_right _ _
  · intro width hwidth
    cases hwidth
    rw [Record.byteLength, hlength, Tensor.byteLength]
    exact Nat.mul_mod_right 4 _
  · rw [Record.byteLength, hlength, hdata, List.drop_left, ← htensor, List.take_left]

theorem get?_records_of_get?_tensors {b : Builder} {name : String} {t : Tensor}
    (h : b.tensors.get? name = some t) : ∃ r, b.records.get? name = some r := by
  rcases get?_records b name with ⟨hnone, -⟩ | ⟨front, u, back, -, -, hsome⟩
  · rw [h] at hnone
    cases hnone
  · exact ⟨_, hsome⟩

end Builder

end Weights

end NetReplay
