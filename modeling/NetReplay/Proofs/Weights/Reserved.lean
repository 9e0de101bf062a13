import NetReplay.Proofs.Weights.Members

/-!
# Which written containers are read

A builder writes whatever it holds, but a container is not read when its header
is too long or when the member that stands for the metadata is something else.
Written metadata are always sound, so it takes a tensor of that name to spoil the
member: the entry of a tensor is no object of texts (`not_isMetadata_tree`).
Everything else that a builder can hold is read (`ofBytes_toBytes_decides`).
-/

namespace NetReplay

namespace Weights

open Json

/-- The entry of a tensor cannot be taken for metadata: its range is no text. -/
theorem Record.not_isMetadata_tree (r : Record) : ¬ Header.IsMetadata r.tree := by
  have hmembers := Builder.membersByName_membersOf r.fields
  have hoffsets : ("data_offsets",
      Tree.array [.ofNat r.start, .ofNat r.stop] true) ∈
        (Table.ofList r.fields).toList := by
    rw [Table.mem_toList_iff]
    simp [Table.get?_ofList, fields, Table.lookup_entry]
  rw [tree, Header.isMetadata_object_iff hmembers]
  intro h
  obtain ⟨s, _, hstring, -⟩ := h _ hoffsets
  cases hstring

namespace Builder

variable {b : Builder}

/-- A tensor that is named like the metadata has its entry in their place. -/
theorem mem_headerTable_metadataKey {t : Tensor} (h : b.tensors.get? metadataKey = some t) :
    ∃ r : Record, (metadataKey, r.tree) ∈ b.headerTable.toList := by
  obtain ⟨r, hr⟩ := get?_records_of_get?_tensors h
  refine ⟨r, ?_⟩
  rw [Table.mem_toList_iff, get?_headerTable, hr]
  rfl

/-- The entry of a tensor in the place of the metadata is the first defect, as
every other tensor is there. -/
theorem refused_of_metadataKey (hsize : b.data.length < UInt64.size) {t : Tensor}
    (h : b.tensors.get? metadataKey = some t) :
    Header.Refused b.data.length (pad b.header) (.corruptHeader (.metadata .invalid)) := by
  obtain ⟨r, hmem⟩ := mem_headerTable_metadataKey h
  obtain ⟨front, back, hsplit⟩ := List.append_of_mem hmem
  have hlists := lists_pad_header hsize
  rw [hsplit] at hlists
  refine .member hlists (fun m hm => ?_) (.metadata r.not_isMetadata_tree)
  have hm' : m ∈ b.headerTable.toList := by
    rw [hsplit]
    exact List.mem_append_left _ hm
  have hname : m.1 ≠ metadataKey := by
    have hnodup := b.headerTable.nodup_keys
    rw [hsplit, List.map_append, List.map_cons, List.nodup_append] at hnodup
    exact hnodup.2.2 m.1 (List.mem_map_of_mem hm) metadataKey List.mem_cons_self
  obtain ⟨e, told, -, fits⟩ := tells_of_mem_headerTable hsize hm' hname
  exact .tensor hname told fits

theorem ofBytes_toBytes_of_metadataKey (hheader : (pad b.header).length ≤ maxHeaderLength)
    (hsize : b.data.length < UInt64.size) {t : Tensor}
    (h : b.tensors.get? metadataKey = some t) :
    Store.ofBytes b.toBytes = .error (.corruptHeader (.metadata .invalid)) := by
  rw [toBytes_eq_frame, Store.ofBytes_frame_eq_error_iff _ hheader]
  exact refused_of_metadataKey hsize h

theorem ofBytes_toBytes_of_oversized (hsize : (pad b.header).length < UInt64.size)
    (hheader : maxHeaderLength < (pad b.header).length) :
    Store.ofBytes b.toBytes = .error (.corruptHeader (.oversized (pad b.header).length)) := by
  rw [toBytes_eq_frame]
  exact Store.ofBytes_of_refused (Store.refused_of_oversized _ hsize hheader)

/-- Whatever steps fill a builder, its container is read just when its header is
not too long and no tensor has the name of the metadata. Otherwise the container
is corrupt, and it is one of these two that is reported. -/
theorem ofBytes_toBytes_decides (steps : List Step)
    (hsize : (ofSteps steps).toBytes.length < UInt64.size) :
    ((∃ store, Store.ofBytes (ofSteps steps).toBytes = .ok store) ↔
      (pad (ofSteps steps).header).length ≤ maxHeaderLength ∧
        ∀ shape values, Step.add metadataKey shape values ∉ steps) ∧
    (maxHeaderLength < (pad (ofSteps steps).header).length →
      Store.ofBytes (ofSteps steps).toBytes =
        .error (.corruptHeader (.oversized (pad (ofSteps steps).header).length))) ∧
    ((pad (ofSteps steps).header).length ≤ maxHeaderLength →
      (∃ shape values, Step.add metadataKey shape values ∈ steps) →
      Store.ofBytes (ofSteps steps).toBytes = .error (.corruptHeader (.metadata .invalid))) := by
  have hlength := hsize
  rw [toBytes_eq_frame, Store.length_frame] at hlength
  have hlong (h : maxHeaderLength < (pad (ofSteps steps).header).length) :=
    ofBytes_toBytes_of_oversized (by omega) h
  have hnamed (hheader : (pad (ofSteps steps).header).length ≤ maxHeaderLength)
      (h : ∃ shape values, Step.add metadataKey shape values ∈ steps) :
      Store.ofBytes (ofSteps steps).toBytes = .error (.corruptHeader (.metadata .invalid)) := by
    rw [← isSome_lastTensor?_iff, ← get?_tensors_ofSteps, Option.isSome_iff_exists] at h
    obtain ⟨t, ht⟩ := h
    exact ofBytes_toBytes_of_metadataKey hheader (by omega) ht
  refine ⟨⟨?_, ?_⟩, hlong, hnamed⟩
  · rintro ⟨store, hread⟩
    by_cases hheader : (pad (ofSteps steps).header).length ≤ maxHeaderLength
    · refine ⟨hheader, fun shape values hmem => ?_⟩
      rw [hnamed hheader ⟨shape, values, hmem⟩] at hread
      cases hread
    · rw [hlong (Nat.not_le.mp hheader)] at hread
      cases hread
  · rintro ⟨hheader, hnone⟩
    have hname := (get?_tensors_ofSteps_eq_none_iff steps metadataKey).mpr hnone
    exact ⟨_, ofBytes_toBytes hname hheader (by omega)⟩

/-- One tensor, named like the metadata. -/
def reservedSteps : List Step := [.add "__metadata__" [1] [⟨0x3f800000⟩]]

theorem ofBytes_toBytes_decides_reservedSteps :
    (ofSteps reservedSteps).toBytes.length < UInt64.size ∧
      Store.ofBytes (ofSteps reservedSteps).toBytes =
        .error (.corruptHeader (.metadata .invalid)) := by
  have hsize : (ofSteps reservedSteps).toBytes.length < UInt64.size := by decide +kernel
  have hheader : (pad (ofSteps reservedSteps).header).length ≤ maxHeaderLength := by
    decide +kernel
  obtain ⟨-, -, hnamed⟩ := ofBytes_toBytes_decides reservedSteps hsize
  exact ⟨hsize, hnamed hheader ⟨[1], [⟨0x3f800000⟩], List.mem_cons_self⟩⟩

/-- Not everything that a builder writes is read. -/
theorem not_forall_ofBytes_toBytes :
    ¬ ∀ steps, ∃ store, Store.ofBytes (ofSteps steps).toBytes = .ok store := by
  intro h
  obtain ⟨store, hread⟩ := h reservedSteps
  have hheader : (pad (ofSteps reservedSteps).header).length ≤ maxHeaderLength := by
    decide +kernel
  have hsize : (ofSteps reservedSteps).data.length < UInt64.size := by decide +kernel
  have hnamed : (ofSteps reservedSteps).tensors.get? metadataKey =
      some ⟨[1], [⟨0x3f800000⟩]⟩ := by decide +kernel
  rw [ofBytes_toBytes_of_metadataKey hheader hsize hnamed] at hread
  cases hread

end Builder

end Weights

end NetReplay
