import NetReplay.Proofs.Weights.Frame
import NetReplay.Proofs.Weights.Layout
import NetReplay.Proofs.Weights.Reader
import NetReplay.Proofs.Weights.Steps

/-!
# Written containers read back

Reading the container of a builder gives the records of the builder, its
metadata and its data (`ofBytes_toBytes`), unless a tensor takes the place of
the metadata or the header is too long to be looked at.

What the records say and what look-ups in the store give is then a matter of the
steps that filled the builder (`ofBytes_toBytes_ofSteps`).
-/

namespace NetReplay

namespace Weights

open Json

/-! ## Visiting the members of a header -/

namespace Header

theorem visit_metadata {t : Tree} {metadata : Table String} (h : readMetadata t = .ok metadata)
    (available : Nat) (header : Header) :
    visit available header metadataKey t = .ok { header with metadata } := by
  rw [visit, if_pos rfl, h]

theorem visit_entry {name : String} {available : Nat} {t : Tree} {e : Entry} {r : Record}
    (hname : name ≠ metadataKey) (hread : Entry.read t = .ok e)
    (hrecord : Record.ofEntry name available e = .ok r) (header : Header) :
    visit available header name t =
      .ok { header with records := header.records.insert name r } := by
  rw [visit, if_neg hname, hread]
  dsimp only
  rw [hrecord]
  rfl

/-- Where every member is sound, visiting them puts the records and the
metadata in, and leaves the rest as it was. -/
theorem foldlM_visit {available : Nat} {records : Table Record} {metadata : Table String}
    {l : List (String × Tree)}
    (hmetadata : ∀ t, (metadataKey, t) ∈ l → readMetadata t = .ok metadata)
    (hentry : ∀ name t, (name, t) ∈ l → name ≠ metadataKey →
      ∃ e r, Entry.read t = .ok e ∧ Record.ofEntry name available e = .ok r ∧
        records.get? name = some r)
    (header : Header) :
    ∃ final, l.foldlM (fun h e => visit available h e.1 e.2) header = .ok final ∧
      (∀ name, final.records.get? name =
        if name ∈ l.map Prod.fst ∧ name ≠ metadataKey then records.get? name
        else header.records.get? name) ∧
      final.metadata =
        if metadataKey ∈ l.map Prod.fst then metadata else header.metadata := by
  induction l generalizing header with
  | nil => exact ⟨header, rfl, fun name => by simp, by simp⟩
  | cons m rest ih =>
      obtain ⟨name, t⟩ := m
      have ihrest := ih (fun t ht => hmetadata t (List.mem_cons_of_mem _ ht))
        fun name t ht => hentry name t (List.mem_cons_of_mem _ ht)
      by_cases hname : name = metadataKey
      · subst hname
        have hvisit := visit_metadata (hmetadata t List.mem_cons_self) available header
        obtain ⟨final, hfold, hrecords, hfinal⟩ := ihrest { header with metadata }
        refine ⟨final, ?_, fun other => ?_, ?_⟩
        · rw [List.foldlM_cons, hvisit]
          exact hfold
        · rw [hrecords other]
          by_cases hother : other = metadataKey
          · simp only [hother, ne_eq, not_true_eq_false, and_false]
          · simp only [List.map_cons, List.mem_cons, hother, false_or]
        · rw [hfinal, List.map_cons, if_pos List.mem_cons_self, ite_self]
      · obtain ⟨e, r, hread, hrecord, hr⟩ := hentry name t List.mem_cons_self hname
        have hvisit := visit_entry hname hread hrecord header
        obtain ⟨final, hfold, hrecords, hfinal⟩ :=
          ihrest { header with records := header.records.insert name r }
        refine ⟨final, ?_, fun other => ?_, ?_⟩
        · rw [List.foldlM_cons, hvisit]
          exact hfold
        · rw [hrecords other, Table.get?_insert]
          by_cases hother : other = name
          · subst hother
            simp only [List.map_cons, List.mem_cons, true_or, ne_eq, hname, not_false_eq_true,
              and_self, if_true, hr, ite_self]
          · simp only [List.map_cons, List.mem_cons, hother, false_or, if_false]
        · simp only [hfinal, List.map_cons, List.mem_cons, Ne.symm hname, false_or]

end Header

namespace Builder

/-- The metadata as a value of a document. -/
def metadataTree (b : Builder) : Tree := objectTree (b.metadata.map fun _ value => .ofText value)

theorem readMetadata_metadataTree (b : Builder) :
    Header.readMetadata b.metadataTree = .ok b.metadata := by
  have hmembers := membersByName_objectTree (b.metadata.map fun _ value => Tree.ofText value)
  have hpairs : (b.metadata.map fun _ value => Tree.ofText value).toList.mapM
      (fun e => do pure (e.1, ← e.2.text)) = Except.ok (b.metadata.toList.map id) := by
    rw [Table.toList_map, List.mapM_map]
    refine mapM_eq_ok fun e _ => ?_
    simp only [Function.comp_apply, Tree.text_ofText]
    rfl
  rw [List.map_id] at hpairs
  rw [metadataTree, objectTree, Header.readMetadata]
  have hread := congrArg (· >>= fun table => table.toList.mapM
    (fun e => do pure (e.1, ← e.2.text)) >>= fun pairs => pure (Table.ofList pairs)) hmembers
  refine Eq.trans hread ?_
  refine Eq.trans (congrArg (· >>= fun pairs => pure (Table.ofList pairs)) hpairs) ?_
  exact congrArg Except.ok (Table.ofList_toList b.metadata)

/-- The members of the header: the entries of the records, and the metadata
where no tensor has taken their place. -/
theorem get?_headerTable (b : Builder) (name : String) :
    b.headerTable.get? name =
      ((b.records.get? name).map Record.tree).or
        (if name = metadataKey ∧ b.metadata.isEmpty = false then some b.metadataTree
        else none) := by
  have hkeys : ((layout 0 b.tensors.toList).map Prod.fst).Nodup := by
    rw [layout_eq_map, List.map_map]
    exact b.records.nodup_keys
  have hentries : (layout 0 b.tensors.toList).lookup name =
      (b.records.get? name).map Record.tree := by
    rw [layout_eq_map]
    exact Table.lookup_map (fun _ (r : Record) => r.tree) _ name
  have hinsert := Table.get?_foldl_insert (layout 0 b.tensors.toList)
    (if b.metadata.isEmpty then .empty else Table.empty.insert metadataKey b.metadataTree) name
  rw [Table.lookup_reverse hkeys, hentries] at hinsert
  refine Eq.trans hinsert (congrArg _ ?_)
  cases b.metadata.isEmpty with
  | true => simp
  | false => simp [Table.get?_insert]

theorem get?_records_metadataKey {b : Builder} (hname : b.tensors.get? metadataKey = none) :
    b.records.get? metadataKey = none := by
  rcases get?_records b metadataKey with ⟨-, hnone⟩ | ⟨_, t, _, -, hsome, -⟩
  · exact hnone
  · rw [hname] at hsome
    cases hsome

/-- A member of the header under another name than that of the metadata is the
entry of a record. -/
theorem get?_headerTable_of_ne (b : Builder) {name : String} (h : name ≠ metadataKey) :
    b.headerTable.get? name = (b.records.get? name).map Record.tree := by
  rw [get?_headerTable, if_neg fun hand => h hand.1, Option.or_none]

theorem get?_headerTable_metadataKey {b : Builder} (hname : b.tensors.get? metadataKey = none) :
    b.headerTable.get? metadataKey =
      if b.metadata.isEmpty = false then some b.metadataTree else none := by
  rw [get?_headerTable, get?_records_metadataKey hname, Option.map_none, Option.none_or]
  simp only [true_and]

/-- The header is a value that this library writes, three containers deep. -/
theorem written_header {b : Builder} (hsize : b.data.length < UInt64.size) (room : Nat) :
    (objectTree b.headerTable).Written (room + 3) := by
  refine written_objectTree fun m hm => ?_
  obtain ⟨name, t⟩ := m
  have hget := (Table.mem_toList_iff _ _ _).mp hm
  rw [get?_headerTable] at hget
  rcases Option.or_eq_some_iff.mp hget with htree | ⟨-, htree⟩
  · obtain ⟨r, hr, rfl⟩ := Option.map_eq_some_iff.mp htree
    obtain ⟨_, -, -, -, -, -, hfits, -⟩ := get?_records_eq_some hr
    have hstart := hfits.start_le_stop
    have hstop := hfits.stop_le
    exact Record.written_tree (by omega) (by omega) room
  · split at htree
    · cases htree
      refine written_objectTree fun e he => ?_
      obtain ⟨_, -, rfl⟩ := List.mem_map.mp he
      exact Tree.written_ofText _ _
    · cases htree

/-- The written header reads back as its members. -/
theorem members_pad_header {b : Builder} (hsize : b.data.length < UInt64.size) :
    Header.members (pad b.header) = .ok b.headerTable := by
  have hwritten : (objectTree b.headerTable).Written Tree.nestingLimit := written_header hsize 124
  rw [Header.members, pad, header, document_render _ hwritten]
  have hsettled := Tree.settled_of_written hwritten
  rw [objectTree] at hsettled ⊢
  dsimp only
  rw [if_pos hsettled]
  exact membersByName_objectTree b.headerTable

theorem readMetadata_of_mem_headerTable {b : Builder}
    (hname : b.tensors.get? metadataKey = none) {t : Tree}
    (ht : (metadataKey, t) ∈ b.headerTable.toList) : Header.readMetadata t = .ok b.metadata := by
  rw [Table.mem_toList_iff, get?_headerTable_metadataKey hname] at ht
  split at ht
  · cases ht
    exact readMetadata_metadataTree b
  · cases ht

theorem ofEntry_of_mem_headerTable {b : Builder} (hsize : b.data.length < UInt64.size) {name : String}
    {t : Tree} (ht : (name, t) ∈ b.headerTable.toList) (hne : name ≠ metadataKey) :
    ∃ e r, Entry.read t = .ok e ∧ Record.ofEntry name b.data.length e = .ok r ∧
      b.records.get? name = some r := by
  rw [Table.mem_toList_iff, get?_headerTable_of_ne b hne] at ht
  obtain ⟨r, hr, rfl⟩ := Option.map_eq_some_iff.mp ht
  obtain ⟨_, -, rfl, htype, -, -, hfits, -⟩ := get?_records_eq_some hr
  have horder := hfits.start_le_stop
  have havailable := hfits.stop_le
  have hstart : r.start = (UInt64.ofNat r.start).toNat :=
    (UInt64.toNat_ofNat_of_lt' (show r.start < UInt64.size by omega)).symm
  have hstop : r.stop = (UInt64.ofNat r.stop).toNat :=
    (UInt64.toNat_ofNat_of_lt' (show r.stop < UInt64.size by omega)).symm
  have htag : ElementType.ofTag r.elementType.tag = r.elementType := by
    rw [htype]
    rfl
  exact ⟨_, r, Record.read_tree hstart hstop, Record.ofEntry_of_fits hfits htag hstart hstop, hr⟩

theorem mem_keys_headerTable_of_ne (b : Builder) {name : String} (hne : name ≠ metadataKey) :
    name ∈ b.headerTable.toList.map Prod.fst ↔ (b.records.get? name).isSome := by
  rw [← Table.keys, Table.mem_keys_iff, get?_headerTable_of_ne b hne, Option.isSome_map]

theorem mem_keys_headerTable_metadataKey {b : Builder}
    (hname : b.tensors.get? metadataKey = none) :
    metadataKey ∈ b.headerTable.toList.map Prod.fst ↔ b.metadata.isEmpty = false := by
  rw [← Table.keys, Table.mem_keys_iff, get?_headerTable_metadataKey hname]
  cases b.metadata.isEmpty <;> simp

theorem read_pad_header {b : Builder} (hname : b.tensors.get? metadataKey = none)
    (hsize : b.data.length < UInt64.size) :
    Header.read b.data.length (pad b.header) = .ok ⟨b.records, b.metadata⟩ := by
  obtain ⟨⟨records, metadata⟩, hfold, hrecords, hmetadata⟩ := Header.foldlM_visit
    (fun _ ht => readMetadata_of_mem_headerTable hname ht)
    (fun _ _ ht hne => ofEntry_of_mem_headerTable hsize ht hne) ⟨.empty, .empty⟩
  have hsameRecords : records = b.records := by
    refine Table.ext_get? fun name => Eq.trans (hrecords name) ?_
    by_cases hne : name = metadataKey
    · rw [if_neg fun hand => hand.2 hne, hne, get?_records_metadataKey hname]
      rfl
    · simp only [mem_keys_headerTable_of_ne b hne]
      cases b.records.get? name with
      | none => rfl
      | some r => simp [hne]
  have hsameMetadata : metadata = b.metadata := by
    refine Eq.trans hmetadata ?_
    simp only [mem_keys_headerTable_metadataKey hname]
    cases hempty : b.metadata.isEmpty with
    | false => rfl
    | true => exact Table.ext_toList (List.isEmpty_iff.mp hempty).symm
  rw [Header.read, members_pad_header hsize]
  rw [hsameRecords, hsameMetadata] at hfold
  exact hfold

/-! ## The container -/

theorem toBytes_eq_frame (b : Builder) : b.toBytes = Store.frame (pad b.header) b.data := by
  rw [toBytes, Store.frame, List.append_assoc, data_eq_flatMap]

/-- Reading the container of a builder gives its records, its metadata and its
data. -/
theorem ofBytes_toBytes {b : Builder} (hname : b.tensors.get? metadataKey = none)
    (hheader : (pad b.header).length ≤ maxHeaderLength) (hsize : b.data.length < UInt64.size) :
    Store.ofBytes b.toBytes = .ok ⟨⟨b.records, b.metadata⟩, b.data⟩ := by
  rw [toBytes_eq_frame, Store.ofBytes_frame b.data hheader, read_pad_header hname hsize]
  rfl

/-- The store that a container reads back as decodes each tensor to the values
that were written. -/
theorem values_records {b : Builder} {name : String} {t : Tensor}
    (h : b.tensors.get? name = some t) :
    ∃ r, b.records.get? name = some r ∧ r.elementType = .f32 ∧ r.shape = t.shape ∧
      r.byteLength = 4 * t.values.length ∧
      Store.values ⟨⟨b.records, b.metadata⟩, b.data⟩ name = .ok t.values := by
  obtain ⟨r, hr⟩ := get?_records_of_get?_tensors h
  obtain ⟨u, hu, -, htype, hshape, hlength, -, hbytes⟩ := get?_records_eq_some hr
  rw [h] at hu
  cases hu
  refine ⟨r, hr, htype, hshape, hlength, ?_⟩
  have hrecord : Store.record ⟨⟨b.records, b.metadata⟩, b.data⟩ name = .ok r := by
    simp only [Store.record, hr]
  have hdecode : Single.ofBytes (Store.bytesOf ⟨⟨b.records, b.metadata⟩, b.data⟩ r) = t.values := by
    rw [Store.bytesOf, hbytes, Single.ofBytes_toBytes]
  rw [Store.values, hrecord]
  refine Eq.trans (if_pos htype) ?_
  exact congrArg Except.ok hdecode

/-- Whatever steps fill a builder, its container reads back as a store with
exactly the tensors last added and the metadata last noted, provided that no
tensor has the name of the metadata and the header is not too long. Every value
comes back bit for bit, whatever was looked up in the store before. -/
theorem ofBytes_toBytes_ofSteps (steps : List Step)
    (hname : ∀ shape values, Step.add metadataKey shape values ∉ steps)
    (hheader : (pad (ofSteps steps).header).length ≤ maxHeaderLength)
    (hsize : (ofSteps steps).data.length < UInt64.size / 2) :
    ∃ store, Store.ofBytes (ofSteps steps).toBytes = .ok store ∧
      (∀ name, name ∈ store.names ↔ ∃ shape values, Step.add name shape values ∈ steps) ∧
      store.names.Pairwise (fun j k => j.toUTF8.toList < k.toUTF8.toList) ∧
      (∀ key, store.header.metadata.get? key = lastNote? steps key) ∧
      ∀ name t, lastTensor? steps name = some t →
        (∃ r, store.record name = .ok r ∧ r.elementType = .f32 ∧ r.shape = t.shape ∧
          r.byteLength = 4 * t.values.length) ∧
        ∀ history, (((Reader.ofStore store).after history).get name).1 = .ok t.values := by
  have hnone := (get?_tensors_ofSteps_eq_none_iff steps metadataKey).mpr hname
  have hread := ofBytes_toBytes hnone hheader (Nat.lt_trans hsize (by decide))
  refine ⟨_, hread, fun name => ?_, Table.pairwise_utf8_keys _,
    fun key => get?_metadata_ofSteps steps key, fun name t ht => ?_⟩
  · rw [← isSome_lastTensor?_iff, ← get?_tensors_ofSteps, ← Table.mem_keys_iff]
    exact iff_of_eq (congrArg (name ∈ ·) (map_fst_recordsFrom 0 _))
  · rw [← get?_tensors_ofSteps] at ht
    obtain ⟨r, hr, htype, hshape, hlength, hvalues⟩ := values_records ht
    refine ⟨⟨r, ?_, htype, hshape, hlength⟩, fun history => ?_⟩
    · simp only [Store.record, hr]
    · rw [Reader.get_after, hvalues]

/-- Steps with a quote, a newline, an empty name, an accent, a negative zero and
a number that is none. -/
def sampleSteps : List Step :=
  [.add "w\"\n" [2] [⟨0x7fc00001⟩, ⟨0x80000000⟩], .note "é" "", .add "" [] [],
    .add "w\"\n" [1, 1] [⟨0xff800001⟩]]

theorem ofBytes_toBytes_sampleSteps :
    (∀ shape values, Step.add metadataKey shape values ∉ sampleSteps) ∧
      (pad (ofSteps sampleSteps).header).length ≤ maxHeaderLength ∧
      (ofSteps sampleSteps).data.length < UInt64.size / 2 ∧
      ∃ store, Store.ofBytes (ofSteps sampleSteps).toBytes = .ok store ∧
        ((Reader.ofStore store).get "w\"\n").1 = .ok [⟨0xff800001⟩] := by
  have hname : ∀ shape values, Step.add metadataKey shape values ∉ sampleSteps := by
    simp [sampleSteps, metadataKey]
  have hheader : (pad (ofSteps sampleSteps).header).length ≤ maxHeaderLength := by
    decide +kernel
  have hsize : (ofSteps sampleSteps).data.length < UInt64.size / 2 := by
    decide +kernel
  obtain ⟨store, hread, -, -, -, htensors⟩ :=
    ofBytes_toBytes_ofSteps sampleSteps hname hheader hsize
  refine ⟨hname, hheader, hsize, store, hread, ?_⟩
  exact (htensors "w\"\n" ⟨[1, 1], [⟨0xff800001⟩]⟩ (by decide +kernel)).2 []

end Builder

end Weights

end NetReplay
