import Mathlib.Tactic.SplitIfs

/-!
# Texts as bytes

Keys are kept in the order of their code points, while containers are read and
written as bytes. The two orders are the same (`lt_iff_utf8_lt`), because the
encoding of a smaller character is smaller already at the first byte where the
two encodings differ, whatever follows (`utf8EncodeChar_append_lt`).
-/

namespace NetReplay

namespace Text

theorem toList_loop (b : ByteArray) (i : Nat) (r : List UInt8) :
    ByteArray.toList.loop b i r = r.reverse ++ b.data.toList.drop i := by
  fun_induction ByteArray.toList.loop b i r with
  | case1 i r h ih =>
      have hi : i < b.data.toList.length := by simpa using h
      rw [ih, List.drop_eq_getElem_cons hi]
      simp [ByteArray.get!, h]
  | case2 i r h =>
      have hsize : b.size = b.data.toList.length := by simp
      rw [List.drop_eq_nil_of_le (by omega), List.append_nil]

theorem toList_eq_data (b : ByteArray) : b.toList = b.data.toList := by
  rw [ByteArray.toList, toList_loop]
  rfl

/-- The bytes of a text are those of its characters, one after the other. -/
theorem toList_toUTF8 (s : String) :
    s.toUTF8.toList = s.toList.flatMap String.utf8EncodeChar := by
  rw [toList_eq_data, String.toUTF8, ← String.utf8Encode_toList, List.utf8Encode,
    List.toList_data_toByteArray]

theorem fromUTF8?_toUTF8 (s : String) : String.fromUTF8? ⟨s.toUTF8.toList.toArray⟩ = some s := by
  have hbytes : (⟨s.toUTF8.toList.toArray⟩ : ByteArray) = s.toByteArray := by
    rw [toList_eq_data]
    rfl
  rw [hbytes, String.fromUTF8?, dif_pos s.isValidUTF8]
  rfl

/-- Bytes are read as the text whose bytes they are. -/
theorem fromUTF8?_eq_some_iff (s : List UInt8) (text : String) :
    String.fromUTF8? ⟨s.toArray⟩ = some text ↔ text.toUTF8.toList = s := by
  constructor
  · intro h
    rw [String.fromUTF8?] at h
    split at h
    · cases h
      exact toList_eq_data _
    · cases h
  · rintro rfl
    exact fromUTF8?_toUTF8 text

/-! ## The order of texts -/

/-- The encodings of two characters in increasing order differ, and the first
byte where they do is in increasing order. -/
theorem utf8EncodeChar_append_lt {c d : Char} (h : c < d) (u v : List UInt8) :
    String.utf8EncodeChar c ++ u < String.utf8EncodeChar d ++ v := by
  have hlt : c.val.toNat < d.val.toNat := h
  have hd : d.val.toNat < 1114112 := by
    have := d.valid
    simp only [UInt32.isValidChar, Nat.isValidChar] at this
    omega
  generalize hm : c.val.toNat = m at hlt
  generalize hn : d.val.toNat = n at hlt hd
  simp only [String.utf8EncodeChar, hm, hn]
  -- one case for every pair of encoded lengths; those of a longer first one contradict `h`
  split_ifs <;>
    simp only [List.cons_append, List.nil_append, List.cons_lt_cons_iff,
      UInt8.lt_iff_toNat_lt, ← UInt8.toNat_inj, UInt8.toNat_ofNat'] <;>
    simp (disch := omega) only [Nat.mod_eq_of_lt] <;>
    omega

theorem flatMap_utf8EncodeChar_lt {l m : List Char} (h : l < m) :
    l.flatMap String.utf8EncodeChar < m.flatMap String.utf8EncodeChar := by
  induction l generalizing m with
  | nil =>
      cases m with
      | nil => exact absurd h (List.lt_irrefl [])
      | cons d m =>
          rw [List.flatMap_cons, List.flatMap_nil]
          cases hd : String.utf8EncodeChar d with
          | nil => exact absurd hd String.utf8EncodeChar_ne_nil
          | cons b rest => exact List.nil_lt_cons b _
  | cons c l ih =>
      cases m with
      | nil => exact absurd h (List.not_lt_nil _)
      | cons d m =>
          rw [List.flatMap_cons, List.flatMap_cons]
          rw [List.cons_lt_cons_iff] at h
          rcases h with hlt | ⟨rfl, hlt⟩
          · exact utf8EncodeChar_append_lt hlt _ _
          · exact List.append_left_lt (ih hlt)

/-- Texts are in the order of their bytes. -/
theorem lt_iff_utf8_lt (s t : String) : s < t ↔ s.toUTF8.toList < t.toUTF8.toList := by
  rw [String.lt_iff, toList_toUTF8, toList_toUTF8]
  constructor
  · exact flatMap_utf8EncodeChar_lt
  · intro h
    refine Decidable.byContradiction fun hnot => ?_
    rcases List.le_iff_lt_or_eq.mp (List.not_lt.mp hnot) with hlt | heq
    · exact List.lt_asymm h (flatMap_utf8EncodeChar_lt hlt)
    · rw [heq] at h
      exact List.lt_irrefl _ h

end Text

end NetReplay
