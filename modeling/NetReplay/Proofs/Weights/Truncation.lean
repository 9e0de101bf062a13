import NetReplay.Proofs.Weights.RawData
import NetReplay.Proofs.Weights.RoundTrip

/-!
# Cut containers are refused

A written container ends with its last tensor, so no part of the tensor data can
be missing without some tensor ending beyond what is left (`exists_stop_gt`). The
first such tensor in the order of the names is the one that is reported
(`Store.FirstBeyond`), and a container that is cut earlier has no whole header.
Whatever is cut off, the rest is no container (`ofBytes_take_toBytes`).
-/

namespace NetReplay

namespace Weights

open Json

namespace Builder

/-- Tensors that all end within some bytes have all their elements there. -/
theorem length_dataOf_le {available start : Nat} {l : List (String × Tensor)}
    (hstart : start ≤ available) (h : ∀ m ∈ recordsFrom start l, m.2.stop ≤ available) :
    start + (dataOf l).length ≤ available := by
  induction l generalizing start with
  | nil => exact hstart
  | cons m rest ih =>
      obtain ⟨name, t⟩ := m
      rw [recordsFrom, List.forall_mem_cons] at h
      rw [length_dataOf_cons, ← Nat.add_assoc]
      exact ih h.1 h.2

variable {b : Builder}

/-- The tensors cover the data to its end. -/
theorem exists_stop_gt {available : Nat} (h : available < b.data.length) :
    ∃ name r, b.records.get? name = some r ∧ available < r.stop := by
  by_contra hnone
  have hle : 0 + b.data.length ≤ available := by
    refine length_dataOf_le (Nat.zero_le _) fun m hm => Nat.not_lt.mp fun hlt => ?_
    exact hnone ⟨m.1, m.2, (Table.mem_toList_iff _ _ _).mp hm, hlt⟩
  omega

/-- Where data is missing, the container is refused for the first tensor that
ends beyond what is there. -/
theorem ofBytes_frame_of_lt (hname : b.tensors.get? metadataKey = none)
    (hsize : b.data.length < UInt64.size) (hheader : (pad b.header).length ≤ maxHeaderLength)
    {raw : List UInt8} (h : raw.length < b.data.length) :
    ∃ r, Store.FirstBeyond ⟨⟨b.records, b.metadata⟩, b.data⟩ raw.length r ∧
      Store.ofBytes (Store.frame (pad b.header) raw) =
        .error (.truncatedData r.name r.stop raw.length) := by
  have hread := ofBytes_toBytes hname hheader hsize
  obtain ⟨name, r, hr, hbeyond⟩ := exists_stop_gt h
  have hmem : r ∈ Store.records ⟨⟨b.records, b.metadata⟩, b.data⟩ := Store.mem_records_of_get? hr
  have hwritten : Store.headerBytes b.toBytes = pad b.header := by
    rw [toBytes_eq_frame]
    exact Store.headerBytes_frame _ (Nat.lt_of_le_of_lt hheader (by decide))
  rw [← hwritten]
  exact Store.ofBytes_frame_of_lt_stop hread ⟨r, hmem, hbeyond⟩

/-- A written container is whole or none. Cut within its length field or its
header it is corrupt; cut behind, the data of some tensor is missing, and the first
of these tensors in the order of the names is reported, with the end of its range
and the number of bytes that are left. -/
theorem ofBytes_take_toBytes (hname : b.tensors.get? metadataKey = none)
    (hheader : (pad b.header).length ≤ maxHeaderLength) (hsize : b.data.length < UInt64.size)
    {n : Nat} (hn : n < b.toBytes.length) :
    ∃ store, Store.ofBytes b.toBytes = .ok store ∧
      (n < Store.lengthBytes →
        Store.ofBytes (b.toBytes.take n) = .error (.corruptHeader (.tooShort n))) ∧
      (Store.lengthBytes ≤ n → n < Store.lengthBytes + (pad b.header).length →
        Store.ofBytes (b.toBytes.take n) =
          .error (.corruptHeader (.overrun (pad b.header).length n))) ∧
      (Store.lengthBytes + (pad b.header).length ≤ n →
        ∃ r, store.FirstBeyond (n - Store.lengthBytes - (pad b.header).length) r ∧
          Store.ofBytes (b.toBytes.take n) =
            .error (.truncatedData r.name r.stop
              (n - Store.lengthBytes - (pad b.header).length))) := by
  refine ⟨_, ofBytes_toBytes hname hheader hsize, fun h => ?_, fun hle hlt => ?_, fun hle => ?_⟩
  · rw [toBytes_eq_frame]
    exact Store.ofBytes_of_refused (Store.refused_take_of_lt _ h)
  · rw [toBytes_eq_frame]
    exact Store.ofBytes_of_refused (Store.refused_take_of_overrun _ hheader hle hlt)
  · rw [toBytes_eq_frame, Store.length_frame] at hn
    have hleft : (b.data.take (n - (Store.lengthBytes + (pad b.header).length))).length =
        n - Store.lengthBytes - (pad b.header).length := by
      rw [List.length_take]
      omega
    rw [toBytes_eq_frame, Store.frame_take _ hle, ← hleft]
    exact ofBytes_frame_of_lt hname hsize hheader (by omega)

/-- A builder with metadata, an empty tensor, one of two numbers and one of a
single number. -/
def sampleBuilder : Builder :=
  ((((empty.add "c" [1] [⟨0x3f800000⟩]).add "b" [2] [⟨0x7fc00001⟩, ⟨0x80000000⟩]).add "a" [0]
    []).note "k" "v")

theorem ofBytes_take_toBytes_sampleBuilder :
    sampleBuilder.tensors.get? metadataKey = none ∧
      (pad sampleBuilder.header).length ≤ maxHeaderLength ∧
      sampleBuilder.data.length < UInt64.size ∧
      sampleBuilder.toBytes.length - 5 < sampleBuilder.toBytes.length ∧
      ∃ store r, Store.ofBytes sampleBuilder.toBytes = .ok store ∧ store.FirstBeyond 7 r ∧
        r.name = "b" ∧ r.stop = 8 := by
  have hname : sampleBuilder.tensors.get? metadataKey = none := by decide +kernel
  have hheader : (pad sampleBuilder.header).length ≤ maxHeaderLength := by decide +kernel
  have hsize : sampleBuilder.data.length < UInt64.size := by decide +kernel
  have hn : sampleBuilder.toBytes.length - 5 < sampleBuilder.toBytes.length := by decide +kernel
  have hle : Store.lengthBytes + (pad sampleBuilder.header).length ≤
      sampleBuilder.toBytes.length - 5 := by decide +kernel
  have hleft : sampleBuilder.toBytes.length - 5 - Store.lengthBytes -
      (pad sampleBuilder.header).length = 7 := by decide +kernel
  have hcut : Store.ofBytes (sampleBuilder.toBytes.take (sampleBuilder.toBytes.length - 5)) =
      .error (.truncatedData "b" 8 7) := by decide +kernel
  obtain ⟨store, hread, -, -, hbehind⟩ := ofBytes_take_toBytes hname hheader hsize hn
  obtain ⟨r, hfirst, hrefused⟩ := hbehind hle
  rw [hleft] at hfirst hrefused
  rw [hcut] at hrefused
  cases r
  cases hrefused
  exact ⟨hname, hheader, hsize, hn, store, _, hread, hfirst, rfl, rfl⟩

end Builder

end Weights

end NetReplay
