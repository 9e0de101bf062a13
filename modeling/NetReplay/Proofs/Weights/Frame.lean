import NetReplay.Proofs.Weights.Acceptance

/-!
# The frame of a container

A container is a header with its length in front and tensor data behind it
(`Store.frame`). It is read through its header (`ofBytes_frame`), and a frame that
is cut behind its header is again a frame, with less data (`frame_take`). Cut
earlier it has no whole header.
-/

namespace NetReplay

namespace Weights

namespace Store

/-- A header with its length in front and tensor data behind it. -/
def frame (header raw : List UInt8) : List UInt8 :=
  LittleEndian.bytes lengthBytes header.length ++ (header ++ raw)

theorem length_frame (header raw : List UInt8) :
    (frame header raw).length = lengthBytes + header.length + raw.length := by
  rw [frame, List.length_append, LittleEndian.length_bytes, List.length_append, Nat.add_assoc]

section

variable {header : List UInt8} (raw : List UInt8)

theorem drop_lengthBytes_frame : (frame header raw).drop lengthBytes = header ++ raw :=
  List.drop_left' (LittleEndian.length_bytes _ _)

/-- A frame declares the length of its header, which fits the length field. -/
theorem declared_frame (h : header.length < UInt64.size) :
    declared (frame header raw) = header.length := by
  rw [declared, frame, List.take_left' (LittleEndian.length_bytes _ _), LittleEndian.value_bytes]
  exact Nat.mod_eq_of_lt h

theorem headerBytes_frame (h : header.length < UInt64.size) :
    headerBytes (frame header raw) = header := by
  rw [headerBytes, declared_frame raw h, drop_lengthBytes_frame, List.take_left]

theorem available_frame (h : header.length < UInt64.size) :
    available (frame header raw) = raw.length := by
  rw [available, declared_frame raw h, length_frame]
  omega

theorem framed_frame (h : header.length ≤ maxHeaderLength) : Framed (frame header raw) := by
  have hdeclared := declared_frame raw (Nat.lt_of_le_of_lt h (by decide))
  have hlength := length_frame header raw
  exact ⟨by omega, by omega, by omega⟩

/-- The length field is what the first bytes say, however many follow. -/
theorem declared_take (b : List UInt8) {n : Nat} (h : lengthBytes ≤ n) :
    declared (b.take n) = declared b := by
  rw [declared, List.take_take, Nat.min_eq_left h, declared]

/-- A frame that is cut behind its header keeps the header. -/
theorem frame_take {n : Nat} (h : lengthBytes + header.length ≤ n) :
    (frame header raw).take n = frame header (raw.take (n - (lengthBytes + header.length))) := by
  have hfield : (LittleEndian.bytes lengthBytes header.length).length = lengthBytes :=
    LittleEndian.length_bytes _ _
  rw [frame, frame, List.take_append, List.take_of_length_le (by omega), hfield, List.take_append,
    List.take_of_length_le (by omega), Nat.sub_sub]

/-- A frame that is cut within its length field is too short. -/
theorem refused_take_of_lt {n : Nat} (h : n < lengthBytes) :
    Refused ((frame header raw).take n) (.corruptHeader (.tooShort n)) := by
  have hlength : ((frame header raw).take n).length = n := by
    rw [List.length_take, length_frame]
    omega
  have hrefused := Refused.short (b := (frame header raw).take n) (by omega)
  rwa [hlength] at hrefused

/-- A frame that is cut within its header declares more than is there. -/
theorem refused_take_of_overrun (hheader : header.length ≤ maxHeaderLength) {n : Nat}
    (hle : lengthBytes ≤ n) (hlt : n < lengthBytes + header.length) :
    Refused ((frame header raw).take n) (.corruptHeader (.overrun header.length n)) := by
  have hlength : ((frame header raw).take n).length = n := by
    rw [List.length_take, length_frame]
    omega
  have hdeclared : declared ((frame header raw).take n) = header.length := by
    rw [declared_take _ hle, declared_frame raw (Nat.lt_of_le_of_lt hheader (by decide))]
  have hrefused := Refused.overrun (b := (frame header raw).take n) (by omega) (by omega) (by omega)
  rwa [hlength, hdeclared] at hrefused

theorem refused_of_oversized (hsize : header.length < UInt64.size)
    (hheader : maxHeaderLength < header.length) :
    Refused (frame header raw) (.corruptHeader (.oversized header.length)) := by
  have hlength := length_frame header raw
  have hdeclared := declared_frame raw hsize
  have hrefused := Refused.oversized (b := frame header raw) (by omega) (by omega)
  rwa [hdeclared] at hrefused

/-- A frame is read through its header. -/
theorem ofBytes_frame (hheader : header.length ≤ maxHeaderLength) :
    ofBytes (frame header raw) = (⟨·, raw⟩) <$> Header.read raw.length header := by
  have hsize : header.length < UInt64.size := Nat.lt_of_le_of_lt hheader (by decide)
  have hraw : (frame header raw).drop (lengthBytes + header.length) = raw := by
    rw [← List.drop_drop, drop_lengthBytes_frame, List.drop_left]
  rw [ofBytes_of_framed (framed_frame raw hheader), available_frame raw hsize,
    headerBytes_frame raw hsize, declared_frame raw hsize, hraw]

/-- What refuses a header refuses the frame around it. -/
theorem ofBytes_frame_eq_error_iff (hheader : header.length ≤ maxHeaderLength) (e : Error) :
    ofBytes (frame header raw) = .error e ↔ Header.Refused raw.length header e := by
  rw [← Header.read_eq_error_iff, ofBytes_frame raw hheader]
  cases Header.read raw.length header <;> simp

end

end Store

end Weights

end NetReplay
