import NetReplay.Proofs.Weights.RoundTrip

/-!
# The members of a written header

The header that a builder writes is a document that lists the members of the
builder (`lists_pad_header`). A member under another name than that of the metadata
tells of the record of that name, which ends within the data of the builder
(`tells_of_mem_headerTable`).
-/

namespace NetReplay

namespace Weights

open Json

namespace Builder

variable {b : Builder}

/-- The header is a document that lists the members of the builder. -/
theorem lists_pad_header (hsize : b.data.length < UInt64.size) :
    Header.Lists (pad b.header) b.headerTable.toList :=
  (Header.members_eq_ok_iff _ _).mp (members_pad_header hsize)

section

variable (hsize : b.data.length < UInt64.size) {name : String} {t : Tree}
  (ht : (name, t) ∈ b.headerTable.toList)

include hsize ht

theorem settled_of_mem_headerTable : t.settled (Tree.nestingLimit - 1) = true :=
  Header.settled_of_lists (lists_pad_header hsize) (name, t) ht

/-- A member of the header under another name than that of the metadata tells of
a record of the builder. -/
theorem tells_of_mem_headerTable (hname : name ≠ metadataKey) :
    ∃ e, Entry.Tells t e ∧ b.records.get? name = some (e.record name) ∧
      (e.record name).Fits b.data.length := by
  obtain ⟨e, r, hread, hrecord, hr⟩ := ofEntry_of_mem_headerTable hsize ht hname
  obtain ⟨rfl, fits⟩ := (Record.ofEntry_eq_ok_iff _ _ _ _).mp hrecord
  exact ⟨e, (Entry.read_eq_ok_iff (settled_of_mem_headerTable hsize ht) e).mp hread, hr, fits⟩

end

end Builder

end Weights

end NetReplay
