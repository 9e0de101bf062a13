import NetReplay.Proofs.Weights.Frame
import NetReplay.Proofs.Weights.Safety

/-!
# More tensor data and less

Of the tensor data, only its length has a part in reading a container, and only
where a tensor ends beyond it (`Header.Accepts.of_stop_le`, `Header.read_of_stop_le`).
So a container that was read keeps its tensors when data is put behind it, and it
keeps them when data is taken away, as long as every tensor still ends within what
is left. Otherwise the first tensor that does not is reported
(`Store.FirstBeyond`, `Store.ofBytes_raw_decides`).
-/

namespace NetReplay

namespace Weights

open Json

namespace Header

/-! ## One member -/

section

variable {room available available' : Nat} {name : String} {t : Tree}

/-- An accepted member is accepted with any tensor data in which its tensor ends. -/
theorem Accepts.of_stop_le (h : Accepts available name t)
    (hstop : name ≠ metadataKey → ∀ e, Entry.Tells t e → e.offsets.2.toNat ≤ available') :
    Accepts available' name t := by
  cases h with
  | metadata hmetadata => exact .metadata hmetadata
  | tensor hname told fits =>
      exact .tensor hname told ⟨fits.start_le_stop, hstop hname _ told, fits.whole⟩

theorem Accepts.stop_le (h : Accepts available name t) (hsettled : t.settled room = true)
    (hname : name ≠ metadataKey) {e : Entry} (told : Entry.Tells t e) :
    e.offsets.2.toNat ≤ available := by
  cases h with
  | metadata => exact absurd rfl hname
  | tensor _ htold fits =>
      cases Entry.tells_unique hsettled told htold
      exact fits.stop_le

/-- The only defect that other tensor data can give an accepted member is that its
tensor ends beyond them. -/
theorem Accepts.defect (h : Accepts available name t) (hsettled : t.settled room = true)
    {e : Error} (hdefect : Defect available' name t e) :
    name ≠ metadataKey ∧ ∃ f, Entry.Tells t f ∧ available' < f.offsets.2.toNat ∧
      e = .truncatedData name f.offsets.2.toNat available' := by
  cases h with
  | metadata hmetadata =>
      cases hdefect with
      | metadata hnot => exact absurd hmetadata hnot
      | _ => contradiction
  | @tensor _ _ f hname told fits =>
      cases hdefect with
      | metadata => exact absurd rfl hname
      | unreadable _ h =>
          have hread := Entry.read_of_unreadable hsettled h
          rw [Entry.read_of_tells hsettled told] at hread
          cases hread
      | reversed _ htold h =>
          cases Entry.tells_unique hsettled told htold
          exact absurd fits.start_le_stop (Nat.not_le.mpr h)
      | truncated _ htold _ h =>
          cases Entry.tells_unique hsettled told htold
          exact ⟨hname, f, told, h, rfl⟩
      | ragged _ htold _ _ hwidth h =>
          cases Entry.tells_unique hsettled told htold
          exact absurd (fits.whole _ hwidth) h

/-- What a visit of an accepted member does is the same with any tensor data. -/
theorem visit_eq_visit (hsettled : t.settled room = true) (h : Accepts available name t)
    (h' : Accepts available' name t) (header : Header) :
    visit available' header name t = visit available header name t := by
  cases h with
  | metadata => rfl
  | tensor hname told fits =>
      cases h' with
      | metadata => exact absurd rfl hname
      | tensor _ htold hfits =>
          cases Entry.tells_unique hsettled told htold
          rw [visit_tensor_of_accepts hsettled header hname told fits,
            visit_tensor_of_accepts hsettled header hname told hfits]

/-- A visit leaves the records of other names as they are. -/
theorem get?_records_visit_of_ne (hsettled : t.settled room = true) {header header' : Header}
    (h : visit available header name t = .ok header') {other : String} (hne : other ≠ name) :
    header'.records.get? other = header.records.get? other := by
  cases (exists_visit_eq_ok_iff hsettled header).mp ⟨header', h⟩ with
  | metadata hmetadata =>
      obtain ⟨metadata, hvisit⟩ := visit_metadata_of_accepts hsettled header hmetadata
      rw [hvisit] at h
      cases h
      rfl
  | tensor hname told fits =>
      rw [visit_tensor_of_accepts hsettled header hname told fits] at h
      cases h
      rw [Table.get?_insert, if_neg hne]

end

/-! ## All members -/

section

variable {room available available' : Nat} {entries : List (String × Tree)}

theorem visitAll_eq_visitAll (hsettled : ∀ m ∈ entries, m.2.settled room = true)
    (h : ∀ m ∈ entries, Accepts available m.1 m.2)
    (h' : ∀ m ∈ entries, Accepts available' m.1 m.2) (header : Header) :
    visitAll available' header entries = visitAll available header entries := by
  induction entries generalizing header with
  | nil => rfl
  | cons m entries ih =>
      obtain ⟨name, t⟩ := m
      rw [List.forall_mem_cons] at hsettled h h'
      obtain ⟨header', hvisit⟩ := visit_of_accepts hsettled.1 header h.1
      have hvisit' := (visit_eq_visit hsettled.1 h.1 h'.1 header).trans hvisit
      rw [visitAll_cons_of_ok hvisit, visitAll_cons_of_ok hvisit',
        ih hsettled.2 h.2 h'.2 header']

theorem get?_records_visitAll_of_notMem (hsettled : ∀ m ∈ entries, m.2.settled room = true)
    {header header' : Header} (h : visitAll available header entries = .ok header')
    {name : String} (hname : name ∉ entries.map Prod.fst) :
    header'.records.get? name = header.records.get? name := by
  induction entries generalizing header with
  | nil =>
      cases h
      rfl
  | cons m entries ih =>
      obtain ⟨other, u⟩ := m
      rw [List.forall_mem_cons] at hsettled
      rw [List.map_cons, List.mem_cons, not_or] at hname
      cases hvisit : visit available header other u with
      | error e =>
          rw [visitAll_cons_of_error hvisit] at h
          cases h
      | ok next =>
          rw [visitAll_cons_of_ok hvisit] at h
          rw [ih hsettled.2 h hname.2, get?_records_visit_of_ne hsettled.1 hvisit hname.1]

/-- The tensor of every member has its record after the visits. -/
theorem get?_records_of_tells (hsettled : ∀ m ∈ entries, m.2.settled room = true)
    (hnodup : (entries.map Prod.fst).Nodup) {header header' : Header}
    (h : visitAll available header entries = .ok header') {name : String} {t : Tree}
    (hmem : (name, t) ∈ entries) (hname : name ≠ metadataKey) {e : Entry}
    (told : Entry.Tells t e) : header'.records.get? name = some (e.record name) := by
  induction entries generalizing header with
  | nil => cases hmem
  | cons m entries ih =>
      obtain ⟨other, u⟩ := m
      rw [List.map_cons, List.nodup_cons] at hnodup
      have haccepts := (exists_visitAll_eq_ok_iff hsettled header).mp ⟨header', h⟩
      rw [List.forall_mem_cons] at hsettled haccepts
      obtain ⟨next, hvisit⟩ := visit_of_accepts hsettled.1 header haccepts.1
      rw [visitAll_cons_of_ok hvisit] at h
      rcases List.mem_cons.mp hmem with heq | hrest
      · cases heq
        rw [get?_records_visitAll_of_notMem hsettled.2 h hnodup.1]
        cases haccepts.1 with
        | metadata => exact absurd rfl hname
        | tensor _ htold fits =>
            cases Entry.tells_unique hsettled.1 told htold
            rw [visit_tensor_of_accepts hsettled.1 header hname told fits] at hvisit
            cases hvisit
            rw [Table.get?_insert, if_pos rfl]
      · exact ih hsettled.2 hnodup.2 h hrest

end

/-! ## Headers -/

section

variable {s : List UInt8} {entries : List (String × Tree)} {available available' : Nat}
  {header : Header}

theorem nodup_of_lists (h : Lists s entries) : (entries.map Prod.fst).Nodup := by
  obtain ⟨table, rfl⟩ := exists_toList_of_lists h
  exact table.nodup_keys

theorem accepts_of_read (hlists : Lists s entries) (h : read available s = .ok header) :
    ∀ m ∈ entries, Accepts available m.1 m.2 := by
  obtain ⟨others, hothers, haccepts⟩ := (exists_read_eq_ok_iff available s).mp ⟨header, h⟩
  rwa [lists_unique hlists hothers]

/-- The records of a header are those that its members ask for. -/
theorem get?_records_eq_some_iff (hlists : Lists s entries) (h : read available s = .ok header)
    (name : String) (r : Record) :
    header.records.get? name = some r ↔
      name ≠ metadataKey ∧ ∃ t e, (name, t) ∈ entries ∧ Entry.Tells t e ∧ r = e.record name := by
  have hsettled := settled_of_lists hlists
  rw [read_of_lists _ hlists] at h
  constructor
  · intro hr
    have hnew := get?_records_of_visitAll hsettled h hr
    rw [Table.get?_empty] at hnew
    obtain ⟨hname, t, e, hmem, told, hrecord, -⟩ := hnew.resolve_left nofun
    exact ⟨hname, t, e, hmem, told, hrecord⟩
  · rintro ⟨hname, t, e, hmem, told, rfl⟩
    exact get?_records_of_tells hsettled (nodup_of_lists hlists) h hmem hname told

/-- With tensor data in which every tensor ends, a header is read as before. -/
theorem read_of_stop_le (h : read available s = .ok header)
    (hstop : ∀ name r, header.records.get? name = some r → r.stop ≤ available') :
    read available' s = .ok header := by
  obtain ⟨entries, hlists, haccepts⟩ := (exists_read_eq_ok_iff available s).mp ⟨header, h⟩
  have haccepts' : ∀ m ∈ entries, Accepts available' m.1 m.2 := by
    intro m hm
    refine (haccepts m hm).of_stop_le fun hname e told => ?_
    exact hstop m.1 _ ((get?_records_eq_some_iff hlists h _ _).mpr ⟨hname, m.2, e, hm, told, rfl⟩)
  rw [read_of_lists available' hlists,
    visitAll_eq_visitAll (settled_of_lists hlists) haccepts haccepts',
    ← read_of_lists available hlists, h]

/-- Where a header is read with other tensor data, every tensor ends within them. -/
theorem stop_le_of_read {header' : Header} (h : read available s = .ok header)
    (h' : read available' s = .ok header') {name : String} {r : Record}
    (hr : header.records.get? name = some r) : r.stop ≤ available' := by
  obtain ⟨entries, hlists, -⟩ := (exists_read_eq_ok_iff available s).mp ⟨header, h⟩
  obtain ⟨hname, t, e, hmem, told, rfl⟩ := (get?_records_eq_some_iff hlists h name r).mp hr
  exact (accepts_of_read hlists h' _ hmem).stop_le (settled_of_lists hlists _ hmem) hname told

/-- With other tensor data, the only error of an accepted header is that a tensor
ends beyond them, and it is the first such tensor that is reported. -/
theorem error_of_read (h : read available s = .ok header) {e : Error}
    (herror : read available' s = .error e) :
    ∃ name r, header.records.get? name = some r ∧ available' < r.stop ∧
      (∀ other q, header.records.get? other = some q →
        other.toUTF8.toList < name.toUTF8.toList → q.stop ≤ available') ∧
      e = .truncatedData name r.stop available' := by
  rw [read_eq_error_iff] at herror
  obtain ⟨entries, hlists, -⟩ := (exists_read_eq_ok_iff available s).mp ⟨header, h⟩
  cases herror with
  | unlisted hnot => exact absurd ⟨entries, hlists⟩ hnot
  | @member front back name t _ hothers hfront hdefect =>
      have hsettled := settled_of_lists hothers
      have ht : (name, t) ∈ front ++ (name, t) :: back :=
        List.mem_append_right _ List.mem_cons_self
      obtain ⟨hname, f, told, hbeyond, rfl⟩ :=
        (accepts_of_read hothers h (name, t) ht).defect (hsettled _ ht) hdefect
      refine ⟨name, f.record name, ?_, hbeyond, fun other q hq hlt => ?_, rfl⟩
      · exact (get?_records_eq_some_iff hothers h _ _).mpr ⟨hname, t, f, ht, told, rfl⟩
      · obtain ⟨hother, u, g, hu, gtold, rfl⟩ :=
          (get?_records_eq_some_iff hothers h other q).mp hq
        -- the visits come to members of smaller names before
        obtain ⟨table, htable⟩ := exists_toList_of_lists hothers
        have hbefore : (other, u) ∈ front :=
          Table.mem_of_lt_of_split htable (htable ▸ hu) ((Text.lt_iff_utf8_lt _ _).mpr hlt)
        exact (hfront _ hbefore).stop_le (hsettled _ hu) hother gtold

end

end Header

/-! ## Containers -/

namespace Store

/-- Of the tensors that end beyond a number of bytes of tensor data, the record
is that of the first one in the order of the bytes of the names. -/
structure FirstBeyond (store : Store) (available : Nat) (r : Record) : Prop where
  mem : r ∈ store.records
  beyond : available < r.stop
  first : ∀ s ∈ store.records,
    s.name.toUTF8.toList < r.name.toUTF8.toList → s.stop ≤ available

/-- Two stores hold the same: the records and the metadata of their headers, and
whatever is looked up, after whatever was looked up before. -/
structure Agrees (store other : Store) : Prop where
  header : other.header = store.header
  get : ∀ history others name,
    (((Reader.ofStore other).after others).get name).1 =
      (((Reader.ofStore store).after history).get name).1

theorem agrees_of_values {store other : Store} (hheader : other.header = store.header)
    (hvalues : ∀ name, other.values name = store.values name) : store.Agrees other where
  header := hheader
  get history others name := by
    rw [Reader.get_after, Reader.get_after, hvalues]

/-- Data behind a record has no part in its bytes. -/
theorem bytesOf_append {header : Header} {raw : List UInt8} {r : Record}
    (h : r.stop ≤ raw.length) (more : List UInt8) :
    bytesOf ⟨header, raw ++ more⟩ r = bytesOf ⟨header, raw⟩ r := by
  rw [bytesOf, bytesOf, Record.byteLength, ← List.drop_take, ← List.drop_take,
    List.take_append_of_le_length h]

/-- Data behind every record has no part in what is looked up. -/
theorem values_append {header : Header} {raw : List UInt8}
    (h : ∀ name r, header.records.get? name = some r → r.stop ≤ raw.length)
    (more : List UInt8) (name : String) :
    values ⟨header, raw ++ more⟩ name = values ⟨header, raw⟩ name := by
  cases hr : header.records.get? name with
  | none => rw [values_of_none hr, values_of_none hr]
  | some r => rw [values_of_some hr, values_of_some hr, bytesOf_append (h name r hr)]

section

variable {b : List UInt8} {store : Store}

/-- A container that was read is its header and its tensor data in a frame. -/
theorem take_dataStart_append (h : ofBytes b = .ok store) (raw : List UInt8) :
    b.take (dataStart b) ++ raw = frame (headerBytes b) raw := by
  obtain ⟨hframed, -, -⟩ := (ofBytes_eq_ok_iff b store).mp h
  have hfield : (b.take lengthBytes).length = lengthBytes :=
    List.length_take_of_le hframed.length_field
  have hheader : (headerBytes b).length = declared b := by
    have hle := hframed.header_le
    rw [headerBytes, List.length_take, List.length_drop]
    omega
  have hbytes : LittleEndian.bytes lengthBytes (declared b) = b.take lengthBytes := by
    have hvalue := LittleEndian.bytes_value (b.take lengthBytes)
    rwa [hfield] at hvalue
  rw [frame, hheader, hbytes, dataStart, List.take_add, headerBytes, List.append_assoc]

theorem eq_frame (h : ofBytes b = .ok store) : b = frame (headerBytes b) store.raw := by
  obtain ⟨-, -, hraw⟩ := (ofBytes_eq_ok_iff b store).mp h
  rw [← take_dataStart_append h, hraw, dataStart, List.take_append_drop]

theorem length_headerBytes_le (h : ofBytes b = .ok store) :
    (headerBytes b).length ≤ maxHeaderLength := by
  obtain ⟨hframed, -, -⟩ := (ofBytes_eq_ok_iff b store).mp h
  exact Nat.le_trans (List.length_take_le _ _) hframed.declared_le

theorem read_headerBytes (h : ofBytes b = .ok store) :
    Header.read store.raw.length (headerBytes b) = .ok store.header := by
  obtain ⟨-, hread, -⟩ := (ofBytes_eq_ok_iff b store).mp h
  rwa [length_raw h]

theorem mem_records_of_get? {name : String} {r : Record}
    (hr : store.header.records.get? name = some r) : r ∈ store.records :=
  List.mem_map_of_mem ((Table.mem_toList_iff _ _ _).mpr hr)

theorem stop_le_length_raw (h : ofBytes b = .ok store) {name : String} {r : Record}
    (hr : store.header.records.get? name = some r) : r.stop ≤ store.raw.length :=
  Header.stop_le_of_read (read_headerBytes h) (read_headerBytes h) hr

/-- With tensor data in which every tensor ends, the header makes a container. -/
theorem ofBytes_frame_of_stop_le (h : ofBytes b = .ok store) {raw : List UInt8}
    (hstop : ∀ r ∈ store.records, r.stop ≤ raw.length) :
    ofBytes (frame (headerBytes b) raw) = .ok ⟨store.header, raw⟩ := by
  have hread : Header.read raw.length (headerBytes b) = .ok store.header :=
    Header.read_of_stop_le (read_headerBytes h) fun _ _ hr => hstop _ (mem_records_of_get? hr)
  rw [ofBytes_frame raw (length_headerBytes_le h), hread]
  rfl

/-- With tensor data that are too short for some tensor, the first such tensor is
reported. -/
theorem ofBytes_frame_of_lt_stop (h : ofBytes b = .ok store) {raw : List UInt8}
    (hbeyond : ∃ r ∈ store.records, raw.length < r.stop) :
    ∃ r, store.FirstBeyond raw.length r ∧
      ofBytes (frame (headerBytes b) raw) = .error (.truncatedData r.name r.stop raw.length) := by
  have hheader := length_headerBytes_le h
  cases hread : Header.read raw.length (headerBytes b) with
  | ok header =>
      obtain ⟨r, hr, hlt⟩ := hbeyond
      have hstop := Header.stop_le_of_read (read_headerBytes h) hread ((mem_records_iff h r).mp hr)
      exact absurd hlt (Nat.not_lt.mpr hstop)
  | error e =>
      obtain ⟨name, r, hr, hlt, hfirst, rfl⟩ := Header.error_of_read (read_headerBytes h) hread
      obtain rfl := name_of_get?_records h hr
      refine ⟨r, ⟨(mem_records_iff h r).mpr hr, hlt, fun q hq hqlt => ?_⟩, ?_⟩
      · exact hfirst q.name q ((mem_records_iff h q).mp hq) hqlt
      · rw [ofBytes_frame raw hheader, hread]
        rfl

/-- The tensor data of a container that was read may grow, and it may shrink as
long as every tensor still ends within it: the records, the metadata and every
look-up stay the same. When it shrinks further, the first tensor in the order of
the names that ends beyond it is reported, with the bytes that are left. -/
theorem ofBytes_raw_decides (h : ofBytes b = .ok store) :
    b.take (dataStart b) ++ store.raw = b ∧
    (∀ more, ∃ grown, ofBytes (b ++ more) = .ok grown ∧ store.Agrees grown ∧
      grown.raw = store.raw ++ more ∧ grown.raw.length = store.raw.length + more.length) ∧
    ∀ raw, raw <+: store.raw →
      ((∃ cut, ofBytes (b.take (dataStart b) ++ raw) = .ok cut) ↔
        ∀ r ∈ store.records, r.stop ≤ raw.length) ∧
      (∀ cut, ofBytes (b.take (dataStart b) ++ raw) = .ok cut →
        store.Agrees cut ∧ cut.raw = raw) ∧
      ((∃ r ∈ store.records, raw.length < r.stop) →
        ∃ r, store.FirstBeyond raw.length r ∧
          ofBytes (b.take (dataStart b) ++ raw) =
            .error (.truncatedData r.name r.stop raw.length)) := by
  have hframe : b = frame (headerBytes b) store.raw := eq_frame h
  refine ⟨(take_dataStart_append h _).trans hframe.symm, fun more => ?_, fun raw hprefix => ?_⟩
  · have hgrown : b ++ more = frame (headerBytes b) (store.raw ++ more) := by
      rw [← take_dataStart_append h, ← List.append_assoc, take_dataStart_append h, ← hframe]
    refine ⟨⟨store.header, store.raw ++ more⟩, ?_, agrees_of_values rfl fun name => ?_, rfl,
      List.length_append⟩
    · rw [hgrown]
      refine ofBytes_frame_of_stop_le h fun r hr => ?_
      rw [List.length_append]
      exact Nat.le_add_right_of_le (stop_le_length_raw h ((mem_records_iff h r).mp hr))
    · exact values_append (fun _ _ hr => stop_le_length_raw h hr) more name
  · rw [take_dataStart_append h]
    have hcut (hstop : ∀ r ∈ store.records, r.stop ≤ raw.length) :
        ofBytes (frame (headerBytes b) raw) = .ok ⟨store.header, raw⟩ :=
      ofBytes_frame_of_stop_le h hstop
    have hstop {cut : Store} (hread : ofBytes (frame (headerBytes b) raw) = .ok cut) :
        ∀ r ∈ store.records, r.stop ≤ raw.length := by
      intro r hr
      by_contra hbeyond
      obtain ⟨_, -, herror⟩ := ofBytes_frame_of_lt_stop h ⟨r, hr, Nat.not_le.mp hbeyond⟩
      rw [hread] at herror
      cases herror
    refine ⟨⟨fun ⟨_, hread⟩ => hstop hread, fun h => ⟨_, hcut h⟩⟩, fun cut hread => ?_,
      ofBytes_frame_of_lt_stop h⟩
    have heq := hcut (hstop hread)
    rw [hread] at heq
    cases heq
    obtain ⟨more, hmore⟩ := hprefix
    refine ⟨agrees_of_values rfl fun name => ?_, rfl⟩
    have hwhole : store = ⟨store.header, raw ++ more⟩ := by rw [hmore]
    rw [hwhole]
    exact (values_append (fun _ r hr => hstop hread r (mem_records_of_get? hr)) more name).symm

theorem ofBytes_raw_decides_sampleContainer :
    ∃ store, ofBytes sampleContainer = .ok store ∧
      (∃ grown, ofBytes (sampleContainer ++ [7]) = .ok grown ∧ store.Agrees grown) ∧
      [0, 0, 0, 0, 1] <+: store.raw ∧
      (∃ r ∈ store.records, 5 < r.stop) ∧
      ∃ r, store.FirstBeyond 5 r ∧
        ofBytes (sampleContainer.take (dataStart sampleContainer) ++ [0, 0, 0, 0, 1]) =
          .error (.truncatedData r.name r.stop 5) := by
  have hparts : (ofBytes sampleContainer).toOption.map (fun store => (store.raw, store.records)) =
      some ([0, 0, 0, 0, 1, 0, 192, 127],
        [⟨"a", .f32, [9], 4, 8⟩, ⟨"b", .ofTag "X9", [], 3, 8⟩]) := by
    decide +kernel
  cases h : ofBytes sampleContainer with
  | error e =>
      rw [h] at hparts
      cases hparts
  | ok store =>
      rw [h] at hparts
      obtain ⟨hraw, hrecords⟩ : store.raw = _ ∧ store.records = _ :=
        Prod.ext_iff.mp (Option.some.inj hparts)
      have hprefix : [0, 0, 0, 0, 1] <+: store.raw := ⟨[0, 192, 127], hraw.symm⟩
      have hbeyond : ∃ r ∈ store.records, 5 < r.stop := by
        rw [hrecords]
        exact ⟨_, List.mem_cons_self, by decide⟩
      obtain ⟨-, hgrow, hshrink⟩ := ofBytes_raw_decides h
      obtain ⟨grown, hgrown, hagrees, -⟩ := hgrow [7]
      obtain ⟨-, -, hfirst⟩ := hshrink _ hprefix
      exact ⟨store, rfl, ⟨grown, hgrown, hagrees⟩, hprefix, hbeyond, hfirst hbeyond⟩

end

end Store

end Weights

end NetReplay
