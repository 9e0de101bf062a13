import NetReplay.Proofs.Weights.Members
import NetReplay.Proofs.Weights.Safety

/-!
# The form of written containers

A written container is a header in its compact form, padded to whole blocks of
eight bytes, and the values of the tensors one behind the other in the order of
the names (`Builder.Parts`). The ranges in the header cover the tensor data from
end to end (`Tiles`).

There is one container for what a builder holds: which steps have filled it, and
in which order, does not show (`ofSteps_congr`). So a container that is read and
written again is the same container (`refill_records`, `toBytes_canonical`).
-/

namespace NetReplay

namespace Weights

open Json

/-- The records follow one another from one byte up to another, with no gap and
no overlap. -/
def Tiles : Nat → List Record → Nat → Prop
  | start, [], stop => start = stop
  | start, r :: rest, stop => r.start = start ∧ r.start ≤ r.stop ∧ Tiles r.stop rest stop

namespace Builder

/-! ## The layout -/

theorem tiles_recordsFrom (start : Nat) (l : List (String × Tensor)) :
    Tiles start ((recordsFrom start l).map Prod.snd) (start + (dataOf l).length) := by
  induction l generalizing start with
  | nil => rfl
  | cons m rest ih =>
      obtain ⟨name, t⟩ := m
      rw [length_dataOf_cons, ← Nat.add_assoc]
      exact ⟨rfl, Nat.le_add_right _ _, ih _⟩

theorem map_name_recordsFrom (start : Nat) (l : List (String × Tensor)) :
    ((recordsFrom start l).map Prod.snd).map Record.name = l.map Prod.fst := by
  induction l generalizing start with
  | nil => rfl
  | cons m rest ih => rw [recordsFrom, List.map_cons, List.map_cons, ih, List.map_cons]

/-- The number of values of all tensors. -/
def valueCount (b : Builder) : Nat := (b.tensors.values.flatMap Tensor.values).length

theorem length_data (b : Builder) : b.data.length = 4 * b.valueCount := by
  rw [data_eq_flatMap, valueCount]
  induction b.tensors.values with
  | nil => rfl
  | cons t rest ih =>
      rw [List.flatMap_cons, List.length_append, ih, Single.length_toBytes, List.flatMap_cons,
        List.length_append, Nat.mul_add]

theorem length_pad_mod (s : List UInt8) : (pad s).length % 8 = 0 := by
  rw [pad, List.length_append, List.length_replicate]
  omega

/-- The parts of the container that steps make: a compact header with fewer than
eight spaces behind it, the tensor data, and the records of the tensors, which
cover the data and hold the values. -/
structure Parts (steps : List Step) (header raw : List UInt8) (records : List Record) : Prop where
  compact : Abuts (ofSteps steps).header (objectTree (ofSteps steps).headerTable).tokens
  padded : ∃ n < 8, header = (ofSteps steps).header ++ List.replicate n 0x20
  aligned : header.length % 8 = 0
  length_raw : raw.length = 4 * (ofSteps steps).valueCount
  ordered : (records.map Record.name).Pairwise fun j k => j.toUTF8.toList < k.toUTF8.toList
  complete : ∀ name, name ∈ records.map Record.name ↔
    ∃ shape values, Step.add name shape values ∈ steps
  tiles : Tiles 0 records raw.length
  placed : ∃ entries, Header.Lists header entries ∧ ∀ r ∈ records, ∃ t u e,
    lastTensor? steps r.name = some t ∧ (r.name, u) ∈ entries ∧ Entry.Tells u e ∧
      e.record r.name = r ∧ r.elementType = .f32 ∧ r.shape = t.shape ∧
      Store.slice? raw r.start r.stop = some (Single.toBytes t.values)

/-- The range of a record holds the values of its tensor, and the header tells of
it. -/
theorem placed_of_mem_records {b : Builder} (hname : b.tensors.get? metadataKey = none)
    (hsize : b.data.length < UInt64.size) {r : Record} (hr : r ∈ b.records.values) :
    ∃ t u e, b.tensors.get? r.name = some t ∧ (r.name, u) ∈ b.headerTable.toList ∧
      Entry.Tells u e ∧ e.record r.name = r ∧ r.elementType = .f32 ∧ r.shape = t.shape ∧
      Store.slice? b.data r.start r.stop = some (Single.toBytes t.values) := by
  obtain ⟨⟨name, q⟩, hmem, heq⟩ := List.mem_map.mp hr
  obtain rfl : q = r := heq
  rw [Table.mem_toList_iff] at hmem
  obtain ⟨t, ht, rfl, htype, hshape, -, fits, hbytes⟩ := get?_records_eq_some hmem
  have hne : q.name ≠ metadataKey := by
    intro heq
    rw [heq, hname] at ht
    cases ht
  have hu : (q.name, q.tree) ∈ b.headerTable.toList := by
    rw [Table.mem_toList_iff, get?_headerTable_of_ne b hne, hmem]
    rfl
  obtain ⟨e, told, hrecord, -⟩ := tells_of_mem_headerTable hsize hu hne
  rw [hmem] at hrecord
  refine ⟨t, q.tree, e, ht, hu, told, (Option.some.inj hrecord).symm, htype, hshape, ?_⟩
  rw [Store.slice?, if_pos ⟨fits.start_le_stop, fits.stop_le⟩]
  exact congrArg some hbytes

theorem parts_ofSteps (steps : List Step)
    (hname : ∀ shape values, Step.add metadataKey shape values ∉ steps)
    (hsize : (ofSteps steps).data.length < UInt64.size) :
    Parts steps (pad (ofSteps steps).header) (ofSteps steps).data
      (ofSteps steps).records.values where
  compact := Tree.abuts_render (written_header hsize 0)
  padded := ⟨_, Nat.mod_lt _ (by decide), rfl⟩
  aligned := length_pad_mod _
  length_raw := length_data _
  ordered := by
    have hnames := map_name_recordsFrom 0 (ofSteps steps).tensors.toList
    exact hnames ▸ (ofSteps steps).tensors.pairwise_utf8_keys
  complete name := by
    rw [← isSome_lastTensor?_iff, ← get?_tensors_ofSteps, ← Table.mem_keys_iff]
    exact iff_of_eq (congrArg (name ∈ ·) (map_name_recordsFrom 0 _))
  tiles := by
    have htiles := tiles_recordsFrom 0 (ofSteps steps).tensors.toList
    rwa [Nat.zero_add] at htiles
  placed := by
    have hnone := (get?_tensors_ofSteps_eq_none_iff steps metadataKey).mpr hname
    refine ⟨_, lists_pad_header hsize, fun r hr => ?_⟩
    rw [← get?_tensors_ofSteps]
    exact placed_of_mem_records hnone hsize hr

/-! ## Filling again -/

/-- What a builder holds is a matter of the last steps under each name and key. -/
theorem ofSteps_congr {steps others : List Step}
    (htensors : ∀ name, lastTensor? others name = lastTensor? steps name)
    (hnotes : ∀ key, lastNote? others key = lastNote? steps key) :
    ofSteps others = ofSteps steps := by
  have hsameTensors : (ofSteps others).tensors = (ofSteps steps).tensors :=
    Table.ext_get? fun name => by rw [get?_tensors_ofSteps, get?_tensors_ofSteps, htensors]
  have hsameMetadata : (ofSteps others).metadata = (ofSteps steps).metadata :=
    Table.ext_get? fun key => by rw [get?_metadata_ofSteps, get?_metadata_ofSteps, hnotes]
  calc ofSteps others = ⟨(ofSteps others).tensors, (ofSteps others).metadata⟩ := rfl
    _ = ⟨(ofSteps steps).tensors, (ofSteps steps).metadata⟩ := by
      rw [hsameTensors, hsameMetadata]

/-- The steps that fill a builder with what a store holds: its tensors with their
shapes and values, and its metadata. -/
def refill (store : Store) : Except Error (List Step) := do
  let adds ← store.names.mapM fun name => do
    pure (Step.add name (← store.record name).shape (← store.values name))
  pure (adds ++ store.header.metadata.toList.map fun (key, value) => .note key value)

/-- The steps that fill a builder with what another holds. -/
def contents (b : Builder) : List Step :=
  (b.tensors.toList.map fun (name, t) => Step.add name t.shape t.values) ++
    b.metadata.toList.map fun (key, value) => .note key value

theorem foldl_step_adds (l : List (String × Tensor)) (b : Builder) :
    (l.map fun (name, t) => Step.add name t.shape t.values).foldl step b =
      { b with tensors := l.foldl (fun t m => t.insert m.1 m.2) b.tensors } := by
  induction l generalizing b with
  | nil => rfl
  | cons m rest ih => exact ih _

theorem foldl_step_notes (l : List (String × String)) (b : Builder) :
    (l.map fun (key, value) => Step.note key value).foldl step b =
      { b with metadata := l.foldl (fun t m => t.insert m.1 m.2) b.metadata } := by
  induction l generalizing b with
  | nil => rfl
  | cons m rest ih => exact ih _

theorem ofSteps_contents (b : Builder) : ofSteps b.contents = b := by
  rw [ofSteps, contents, List.foldl_append, foldl_step_adds, foldl_step_notes]
  exact congr (congrArg Builder.mk b.tensors.foldl_insert_toList) b.metadata.foldl_insert_toList

/-- The store that a container reads back as is refilled with what was written. -/
theorem refill_records (b : Builder) :
    refill ⟨⟨b.records, b.metadata⟩, b.data⟩ = .ok b.contents := by
  have hread : ∀ m ∈ b.tensors.toList, (do
      pure (Step.add m.1 (← Store.record ⟨⟨b.records, b.metadata⟩, b.data⟩ m.1).shape
        (← Store.values ⟨⟨b.records, b.metadata⟩, b.data⟩ m.1)) : Except Error Step) =
      .ok (Step.add m.1 m.2.shape m.2.values) := by
    intro m hm
    obtain ⟨r, hr, -, hshape, -, hvalues⟩ := values_records ((Table.mem_toList_iff _ _ _).mp hm)
    have hrecord : Store.record ⟨⟨b.records, b.metadata⟩, b.data⟩ m.1 = .ok r := by
      simp only [Store.record, hr]
    rw [hrecord, hvalues, ← hshape]
    rfl
  have hnames : Store.names ⟨⟨b.records, b.metadata⟩, b.data⟩ = b.tensors.toList.map Prod.fst :=
    map_fst_recordsFrom 0 _
  rw [refill, hnames, List.mapM_map]
  exact congrArg (· >>= fun adds => pure (adds ++ _)) (mapM_eq_ok hread)

/-- Whatever steps fill a builder, its container is made of the parts that the
tensors last added give. It is the only container of what the steps leave, and
filling a builder again with what is read from it gives it once more. -/
theorem toBytes_canonical (steps : List Step)
    (hname : ∀ shape values, Step.add metadataKey shape values ∉ steps)
    (hsize : (ofSteps steps).data.length < UInt64.size / 2) :
    (∃ header raw records, Parts steps header raw records ∧
      (ofSteps steps).toBytes =
        LittleEndian.bytes Store.lengthBytes header.length ++ (header ++ raw) ∧
      (ofSteps steps).toBytes.length =
        Store.lengthBytes + header.length + 4 * (ofSteps steps).valueCount ∧
      (header.length < UInt64.size → Store.declared (ofSteps steps).toBytes = header.length) ∧
      (header.length ≤ maxHeaderLength → ∃ store again,
        Store.ofBytes (ofSteps steps).toBytes = .ok store ∧ refill store = .ok again ∧
          (ofSteps again).toBytes = (ofSteps steps).toBytes)) ∧
    ∀ others, (∀ name, lastTensor? others name = lastTensor? steps name) →
      (∀ key, lastNote? others key = lastNote? steps key) →
      (ofSteps others).toBytes = (ofSteps steps).toBytes := by
  have hword : (ofSteps steps).data.length < UInt64.size := Nat.lt_trans hsize (by decide)
  have hframe := toBytes_eq_frame (ofSteps steps)
  refine ⟨⟨_, _, _, parts_ofSteps steps hname hword, hframe, ?_, fun h => ?_, fun h => ?_⟩,
    fun others htensors hnotes => ?_⟩
  · rw [hframe, Store.length_frame, length_data]
  · rw [hframe]
    exact Store.declared_frame _ h
  · have hnone := (get?_tensors_ofSteps_eq_none_iff steps metadataKey).mpr hname
    refine ⟨_, _, ofBytes_toBytes hnone h hword, refill_records _, ?_⟩
    rw [ofSteps_contents]
  · rw [ofSteps_congr htensors hnotes]

theorem toBytes_canonical_sampleSteps :
    (∀ shape values, Step.add metadataKey shape values ∉ sampleSteps) ∧
      (ofSteps sampleSteps).data.length < UInt64.size / 2 ∧
      (∃ header raw records store again, Parts sampleSteps header raw records ∧
        Store.ofBytes (ofSteps sampleSteps).toBytes = .ok store ∧ refill store = .ok again ∧
        (ofSteps again).toBytes = (ofSteps sampleSteps).toBytes) ∧
      (ofSteps (.note "é" "lost" :: sampleSteps)).toBytes = (ofSteps sampleSteps).toBytes := by
  have hname : ∀ shape values, Step.add metadataKey shape values ∉ sampleSteps := by
    simp [sampleSteps, metadataKey]
  have hsize : (ofSteps sampleSteps).data.length < UInt64.size / 2 := by decide +kernel
  have hshort : (ofSteps sampleSteps).header.length + 8 ≤ maxHeaderLength := by decide +kernel
  obtain ⟨⟨header, raw, records, hparts, -, -, -, hagain⟩, hsame⟩ :=
    toBytes_canonical sampleSteps hname hsize
  have hheader : header.length ≤ maxHeaderLength := by
    obtain ⟨n, hn, rfl⟩ := hparts.padded
    rw [List.length_append, List.length_replicate]
    omega
  obtain ⟨store, again, hread, hrefill, hbytes⟩ := hagain hheader
  refine ⟨hname, hsize, ⟨header, raw, records, store, again, hparts, hread, hrefill, hbytes⟩,
    hsame _ (fun name => ?_) fun key => ?_⟩
  · simp [lastTensor?, Step.tensor?]
  · by_cases hkey : key = "é" <;>
      simp [lastNote?, Step.note?, sampleSteps, hkey, List.findSome?]

end Builder

end Weights

end NetReplay
