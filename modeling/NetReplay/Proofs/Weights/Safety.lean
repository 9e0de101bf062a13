import NetReplay.Proofs.Weights.Acceptance
import NetReplay.Proofs.Weights.Reader

/-!
# Reading an accepted container is safe

Every record of a container that was read stands for a header entry and fits the
tensor data (`Record.Checked`), so the bytes of a record can be cut out of the
container without looking whether they are there (`slice?_eq_bytesOf`). What
looking up a name gives is therefore settled by the records alone
(`Store.Gives`), for any bytes that were accepted and whatever was looked up
before (`Store.safe_of_ofBytes`).
-/

namespace NetReplay

namespace Weights

open Json

/-- What the checks establish of a record, given the entries of the header. -/
structure Record.Checked (available : Nat) (entries : List (String × Tree)) (r : Record) :
    Prop where
  name_ne : r.name ≠ metadataKey
  fits : r.Fits available
  count : ∀ width, r.elementType.width? = some width →
    ∃ n, r.elementCount? = some n ∧ n * width = r.byteLength
  entry : ∃ t e, (r.name, t) ∈ entries ∧ Entry.Tells t e ∧ r.elementType.tag = e.dtype ∧
    r.shape = e.shape ∧ r.start = e.offsets.1.toNat ∧ r.stop = e.offsets.2.toNat

namespace Record

/-- The elements of a record that fits take up its whole range. -/
theorem Fits.count {available : Nat} {r : Record} (h : r.Fits available) {width : Nat}
    (hwidth : r.elementType.width? = some width) :
    ∃ n, r.elementCount? = some n ∧ n * width = r.byteLength := by
  refine ⟨r.byteLength / width, ?_, ?_⟩
  · rw [elementCount?, hwidth, Option.map_some]
  · exact Nat.div_mul_cancel (Nat.dvd_of_mod_eq_zero (h.whole width hwidth))

end Record

namespace Store

variable {b : List UInt8} {store : Store}

/-- The bytes from one position up to another, where they are there. -/
def slice? (b : List UInt8) (start stop : Nat) : Option (List UInt8) :=
  if start ≤ stop ∧ stop ≤ b.length then some ((b.drop start).take (stop - start)) else none

/-- Where the tensor data starts. -/
def dataStart (b : List UInt8) : Nat := lengthBytes + declared b

/-- What looking up a name gives, in terms of the records and the bytes of the
container. -/
structure Gives (b : List UInt8) (store : Store) (name : String)
    (result : Except Error (List Single)) : Prop where
  unknown : ∀ other, result = .error (.unknownTensor other) ↔
    other = name ∧ ∀ r ∈ store.records, r.name ≠ name
  unsupported : ∀ other tag, result = .error (.unsupportedElementType other tag) ↔
    other = name ∧ ∃ r ∈ store.records, r.name = name ∧ r.elementType ≠ .f32 ∧
      r.elementType.tag = tag
  values : ∀ r ∈ store.records, r.name = name → r.elementType = .f32 →
    ∃ bytes values, slice? b (dataStart b + r.start) (dataStart b + r.stop) = some bytes ∧
      result = .ok values ∧ ∀ others, Single.toBytes others = bytes ↔ others = values

/-! ## Records -/

theorem length_raw (h : ofBytes b = .ok store) : store.raw.length = available b := by
  obtain ⟨-, -, hraw⟩ := (ofBytes_eq_ok_iff b store).mp h
  rw [hraw, List.length_drop, available, Nat.sub_sub]

/-- The records are those that the entries of the header ask for. -/
theorem exists_entries (h : ofBytes b = .ok store) :
    ∃ entries, Header.Lists (headerBytes b) entries ∧
      ∀ name r, store.header.records.get? name = some r →
        name ≠ metadataKey ∧ ∃ t e, (name, t) ∈ entries ∧ Entry.Tells t e ∧
          r = e.record name ∧ r.Fits (available b) := by
  obtain ⟨-, hread, -⟩ := (ofBytes_eq_ok_iff b store).mp h
  obtain ⟨entries, hlists, -⟩ := (Header.exists_read_eq_ok_iff _ _).mp ⟨_, hread⟩
  refine ⟨entries, hlists, fun name r hr => ?_⟩
  rw [Header.read_of_lists _ hlists] at hread
  have hnew := Header.get?_records_of_visitAll (Header.settled_of_lists hlists) hread hr
  rw [Table.get?_empty] at hnew
  simpa using hnew

theorem name_of_get?_records (h : ofBytes b = .ok store) {name : String} {r : Record}
    (hr : store.header.records.get? name = some r) : r.name = name := by
  obtain ⟨entries, -, hrecords⟩ := exists_entries h
  obtain ⟨-, t, e, -, -, rfl, -⟩ := hrecords name r hr
  rfl

/-- The records are found under their own names. -/
theorem mem_records_iff (h : ofBytes b = .ok store) (r : Record) :
    r ∈ store.records ↔ store.header.records.get? r.name = some r := by
  rw [records, Table.values, List.mem_map]
  constructor
  · rintro ⟨⟨name, _⟩, hmem, rfl⟩
    rw [Table.mem_toList_iff] at hmem
    rwa [name_of_get?_records h hmem]
  · intro hr
    exact ⟨(r.name, r), (Table.mem_toList_iff _ _ _).mpr hr, rfl⟩

theorem checked_of_mem_records {entries : List (String × Tree)}
    (h : ofBytes b = .ok store)
    (hrecords : ∀ name r, store.header.records.get? name = some r →
      name ≠ metadataKey ∧ ∃ t e, (name, t) ∈ entries ∧ Entry.Tells t e ∧
        r = e.record name ∧ r.Fits (available b))
    {r : Record} (hr : r ∈ store.records) : r.Checked store.raw.length entries := by
  rw [mem_records_iff h] at hr
  obtain ⟨hname, t, e, hmem, told, hrecord, fits⟩ := hrecords r.name r hr
  rw [length_raw h]
  refine ⟨hname, fits, fun width hwidth => fits.count hwidth, t, e, hmem, told, ?_⟩
  rw [hrecord]
  exact ⟨ElementType.tag_ofTag e.dtype, rfl, rfl, rfl⟩

theorem names_eq_map_name (h : ofBytes b = .ok store) :
    store.names = store.records.map Record.name := by
  rw [names, records, Table.keys, Table.values, List.map_map]
  refine List.map_congr_left fun m hm => ?_
  obtain ⟨name, r⟩ := m
  exact (name_of_get?_records h ((Table.mem_toList_iff _ _ _).mp hm)).symm

/-- The bytes of a record can be cut out of the container. -/
theorem slice?_eq_bytesOf (h : ofBytes b = .ok store) {r : Record}
    (hr : r.Fits (available b)) :
    slice? b (dataStart b + r.start) (dataStart b + r.stop) = some (store.bytesOf r) := by
  obtain ⟨hframed, -, hraw⟩ := (ofBytes_eq_ok_iff b store).mp h
  have hstop : dataStart b + r.stop ≤ b.length := by
    have hle := hr.stop_le
    have hheader := hframed.header_le
    rw [available] at hle
    rw [dataStart]
    omega
  rw [slice?, if_pos ⟨Nat.add_le_add_left hr.start_le_stop _, hstop⟩, bytesOf, hraw,
    List.drop_drop, Nat.add_sub_add_left]
  rfl

theorem length_bytesOf (h : ofBytes b = .ok store) {r : Record} (hr : r.Fits (available b)) :
    (store.bytesOf r).length = r.byteLength := by
  have hstop := hr.stop_le
  rw [← length_raw h] at hstop
  rw [bytesOf, List.length_take, List.length_drop, Nat.min_eq_left]
  exact Nat.sub_le_sub_right hstop r.start

/-- The bytes of a record of single-precision numbers are those of exactly one
run of numbers. -/
theorem toBytes_eq_bytesOf_iff (h : ofBytes b = .ok store) {r : Record}
    (hr : r.Fits (available b)) (htype : r.elementType = .f32) (others : List Single) :
    Single.toBytes others = store.bytesOf r ↔ others = Single.ofBytes (store.bytesOf r) := by
  have hwhole : (store.bytesOf r).length % 4 = 0 := by
    rw [length_bytesOf h hr]
    exact hr.whole 4 (by rw [htype]; rfl)
  constructor
  · intro heq
    rw [← heq, Single.ofBytes_toBytes]
  · intro heq
    rw [heq, Single.toBytes_ofBytes _ hwhole]

/-! ## Look-up -/

theorem values_of_none {name : String} (hr : store.header.records.get? name = none) :
    store.values name = .error (.unknownTensor name) := by
  simp only [values, record, hr]
  rfl

theorem values_of_some {name : String} {r : Record}
    (hr : store.header.records.get? name = some r) :
    store.values name =
      if r.elementType = .f32 then .ok (Single.ofBytes (store.bytesOf r))
      else .error (.unsupportedElementType name r.elementType.tag) := by
  simp only [values, record, hr]
  rfl

/-- A store with two numbers under the name `t`. -/
def pair : Store where
  header := ⟨Table.empty.insert "t" ⟨"t", .f32, [2], 0, 8⟩, .empty⟩
  raw := Single.toBytes [⟨5⟩, ⟨6⟩]

theorem values_pair : pair.values "t" = .ok [⟨5⟩, ⟨6⟩] := rfl

theorem gives_of_none {name : String} (hnone : ∀ r ∈ store.records, r.name ≠ name) :
    store.Gives b name (.error (.unknownTensor name)) where
  unknown other := by
    simp only [Except.error.injEq, Error.unknownTensor.injEq]
    exact ⟨fun heq => ⟨heq.symm, hnone⟩, fun h => h.1.symm⟩
  unsupported other tag := by
    simp only [Except.error.injEq, reduceCtorEq, false_iff, not_and]
    rintro - ⟨r, hr, hname, -⟩
    exact hnone r hr hname
  values r hr hname := absurd hname (hnone r hr)

section

variable {name : String} {r : Record}

theorem gives_of_other (hr : r ∈ store.records) (hname : r.name = name)
    (honly : ∀ s ∈ store.records, s.name = name → s = r) (htype : r.elementType ≠ .f32) :
    store.Gives b name (.error (.unsupportedElementType name r.elementType.tag)) where
  unknown other := by
    simp only [Except.error.injEq, reduceCtorEq, false_iff, not_and]
    exact fun _ hnone => hnone r hr hname
  unsupported other tag := by
    simp only [Except.error.injEq, Error.unsupportedElementType.injEq]
    constructor
    · rintro ⟨rfl, rfl⟩
      exact ⟨rfl, r, hr, hname, htype, rfl⟩
    · rintro ⟨rfl, s, hs, hsname, -, rfl⟩
      exact ⟨rfl, congrArg (·.elementType.tag) (honly s hs hsname).symm⟩
  values s hs hsname hstype := absurd (honly s hs hsname ▸ hstype) htype

theorem gives_of_f32 (h : ofBytes b = .ok store) (hr : r ∈ store.records) (hname : r.name = name)
    (honly : ∀ s ∈ store.records, s.name = name → s = r) (fits : r.Fits (available b))
    (htype : r.elementType = .f32) :
    store.Gives b name (.ok (Single.ofBytes (store.bytesOf r))) where
  unknown other := by
    simp only [reduceCtorEq, false_iff, not_and]
    exact fun _ hnone => hnone r hr hname
  unsupported other tag := by
    simp only [reduceCtorEq, false_iff, not_and]
    rintro - ⟨s, hs, hsname, hstype, -⟩
    exact hstype (honly s hs hsname ▸ htype)
  values s hs hsname _ := by
    rw [honly s hs hsname]
    exact ⟨_, _, slice?_eq_bytesOf h fits, rfl, toBytes_eq_bytesOf_iff h fits htype⟩

end

/-- Looking up a name gives what its record says, or that there is none. -/
theorem gives_values (h : ofBytes b = .ok store) (name : String) :
    store.Gives b name (store.values name) := by
  have hget : ∀ r ∈ store.records, r.name = name → store.header.records.get? name = some r :=
    fun r hr hname => hname ▸ (mem_records_iff h r).mp hr
  cases hr : store.header.records.get? name with
  | none =>
      rw [values_of_none hr]
      refine gives_of_none fun r hmem hname => ?_
      rw [hget r hmem hname] at hr
      cases hr
  | some r =>
      have hname : r.name = name := name_of_get?_records h hr
      have hmem : r ∈ store.records := (mem_records_iff h r).mpr (hname ▸ hr)
      have honly : ∀ s ∈ store.records, s.name = name → s = r := by
        intro s hs hsname
        rw [hget s hs hsname] at hr
        exact Option.some.inj hr
      obtain ⟨entries, -, hrecords⟩ := exists_entries h
      obtain ⟨-, t, e, -, -, -, fits⟩ := hrecords name r hr
      rw [values_of_some hr]
      by_cases htype : r.elementType = .f32
      · rw [if_pos htype]
        exact gives_of_f32 h hmem hname honly fits htype
      · rw [if_neg htype]
        exact gives_of_other hmem hname honly htype

/-- An accepted container is safe to read. Its records are checked, their names
increase, and their bytes are all there. What looking up a name gives depends on
the records alone, whatever was looked up before; the metadata are never found. -/
theorem safe_of_ofBytes (h : ofBytes b = .ok store) :
    (∃ entries, Header.Lists (headerBytes b) entries ∧
      ∀ r ∈ store.records, r.Checked store.raw.length entries) ∧
    store.names = store.records.map Record.name ∧
    store.names.Pairwise (fun j k => j.toUTF8.toList < k.toUTF8.toList) ∧
    (∀ r ∈ store.records,
      slice? b (dataStart b + r.start) (dataStart b + r.stop) = some (store.bytesOf r)) ∧
    ∀ history name,
      (((Reader.ofStore store).after history).get name).1 = store.values name ∧
      store.Gives b name (store.values name) ∧
      store.values metadataKey = .error (.unknownTensor metadataKey) := by
  obtain ⟨entries, hlists, hrecords⟩ := exists_entries h
  have hchecked : ∀ r ∈ store.records, r.Checked store.raw.length entries :=
    fun r hr => checked_of_mem_records h hrecords hr
  refine ⟨⟨entries, hlists, hchecked⟩, names_eq_map_name h, Table.pairwise_utf8_keys _,
    fun r hr => ?_, fun history name => ⟨Reader.get_after store history name,
      gives_values h name, ?_⟩⟩
  · exact slice?_eq_bytesOf h (length_raw h ▸ (hchecked r hr).fits)
  · refine ((gives_values h metadataKey).unknown metadataKey).mpr ⟨rfl, fun r hr => ?_⟩
    exact (hchecked r hr).name_ne

/-- A container with metadata, a tensor of numbers and one of an unknown type that
share bytes. -/
def sampleContainer : List UInt8 :=
  let header := ("\x7b\"b\":\x7b\"dtype\":\"X9\",\"shape\":[],\"data_offsets\":[3,8]\x7d," ++
    "\"__metadata__\":\x7b\"k\":\"v\"\x7d," ++
    "\"a\":\x7b\"dtype\":\"F32\",\"shape\":[9],\"data_offsets\":[4,8]\x7d\x7d").toUTF8.toList
  LittleEndian.bytes lengthBytes header.length ++ header ++ [0, 0, 0, 0, 1, 0, 192, 127]

theorem safe_of_ofBytes_sampleContainer :
    ∃ store, ofBytes sampleContainer = .ok store ∧
      slice? sampleContainer (dataStart sampleContainer + 4) (dataStart sampleContainer + 8) =
        some [1, 0, 192, 127] ∧
      (∀ history,
        (((Reader.ofStore store).after history).get "a").1 = .ok [⟨0x7fc00001⟩]) ∧
      ∀ history, (((Reader.ofStore store).after history).get "b").1 =
        .error (.unsupportedElementType "b" "X9") := by
  have hvalues : (ofBytes sampleContainer).toOption.map
      (fun store => (store.values "a", store.values "b")) =
        some (.ok [⟨0x7fc00001⟩], .error (.unsupportedElementType "b" "X9")) := by
    decide +kernel
  cases h : ofBytes sampleContainer with
  | error e =>
      rw [h] at hvalues
      cases hvalues
  | ok store =>
      rw [h] at hvalues
      obtain ⟨ha, hb⟩ := Prod.ext_iff.mp (Option.some.inj hvalues)
      obtain ⟨-, -, -, -, hlook⟩ := safe_of_ofBytes h
      exact ⟨store, rfl, by decide +kernel, fun history => (hlook history "a").1.trans ha,
        fun history => (hlook history "b").1.trans hb⟩

end Store

end Weights

end NetReplay
