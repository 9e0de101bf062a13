import NetReplay.Proofs.Json.Lexeme
import NetReplay.Proofs.Text.Utf8

/-!
# Written literals

What is written for a text spells the literal of the text
(`spelled_render_ofString`), which decodes to the text (`decode?_ofString`), and
what is written for a natural number spells the number (`spelled_render_ofNat`).
-/

namespace NetReplay

namespace Json

/-! ## Pieces -/

theorem hexDigit?_hexDigit : ∀ n < 16, hexDigit? (hexDigit n) = some n := by decide

theorem hexUnit?_hexDigits (u : UInt16) :
    hexUnit? (hexDigit (u.toNat / 4096)) (hexDigit (u.toNat / 256 % 16))
      (hexDigit (u.toNat / 16 % 16)) (hexDigit (u.toNat % 16)) = some u := by
  have hu := u.toNat_lt
  have hfirst := hexDigit?_hexDigit (u.toNat / 4096) (by omega)
  have hsecond := hexDigit?_hexDigit (u.toNat / 256 % 16) (by omega)
  have hthird := hexDigit?_hexDigit (u.toNat / 16 % 16) (by omega)
  have hfourth := hexDigit?_hexDigit (u.toNat % 16) (by omega)
  have hvalue : ((u.toNat / 4096 * 16 + u.toNat / 256 % 16) * 16 + u.toNat / 16 % 16) * 16 +
      u.toNat % 16 = u.toNat := by omega
  simp only [hexUnit?, hfirst, hsecond, hthird, hfourth, bind, Option.bind_some, hvalue,
    UInt16.ofNat_toNat, pure]

namespace RawText

theorem unescape?_of_shortEscape? {b letter : UInt8} (h : shortEscape? b = some letter) :
    unescape? letter = some b := by
  revert h
  unfold shortEscape?
  split_ifs <;> (intro h; simp_all [unescape?]) <;> subst h <;> decide

theorem ne_of_shortEscape?_eq_none {b : UInt8} (h : shortEscape? b = none) :
    b ≠ 0x22 ∧ b ≠ 0x5C := by
  constructor
  · rintro rfl
    exact absurd h (by decide)
  · rintro rfl
    exact absurd h (by decide)

/-- What is written for a byte spells its piece. -/
theorem spelled_pieceOf (b : UInt8) {t : RawText} {s : List UInt8} (h : t.Spelled s) :
    Spelled (pieceOf b :: t) ((pieceOf b).render ++ s) := by
  cases hshort : shortEscape? b with
  | some letter =>
      have hpiece : pieceOf b = .byte b := by simp [pieceOf, hshort]
      simpa only [hpiece, Piece.render, hshort] using!
        .escape (unescape?_of_shortEscape? hshort) h
  | none =>
      by_cases hb : b < 0x20
      · have hpiece : pieceOf b = .unit b.toUInt16 := by simp [pieceOf, hshort, hb]
        simpa only [hpiece, Piece.render] using! .unit (hexUnit?_hexDigits b.toUInt16) h
      · have hpiece : pieceOf b = .byte b := by simp [pieceOf, hb]
        obtain ⟨hquote, hescape⟩ := ne_of_shortEscape?_eq_none hshort
        simpa only [hpiece, Piece.render, hshort] using! .plain hquote hescape hb h

theorem spelled_map_pieceOf (s : List UInt8) :
    Spelled (s.map pieceOf) ((s.map pieceOf).flatMap Piece.render) := by
  induction s with
  | nil => exact .nil
  | cons b s ih => exact spelled_pieceOf b ih

/-- What is written for a text spells its literal. -/
theorem spelled_render_ofString (text : String) :
    Token.Spelled (.string (ofString text)) (ofString text).render :=
  .string (spelled_map_pieceOf _)

/-! ## Decoding -/

theorem bytes?_unit_cons {u : UInt16} (htrailing : isTrailingHalf u = false)
    (hleading : isLeadingHalf u = false) (rest : RawText) :
    bytes? (.unit u :: rest) = (bytes? rest).map (codePointBytes u.toNat ++ ·) := by
  cases rest with
  | nil => simp [bytes?, htrailing, hleading]
  | cons p rest =>
      cases p with
      | byte b => simp [bytes?, htrailing, hleading]
      | unit v => simp [bytes?, htrailing, hleading]

theorem codePointBytes_of_lt {n : Nat} (h : n < 128) : codePointBytes n = [UInt8.ofNat n] := by
  have hvalid : n.isValidChar := Or.inl (by omega)
  have hle : n ≤ 127 := by omega
  have hvalue : (Char.ofNat n).val.toNat = n := by
    rw [Char.ofNat, dif_pos hvalid]
    rfl
  simp [codePointBytes, String.utf8EncodeChar, hvalue, hle]

theorem bytes?_map_pieceOf (s : List UInt8) : bytes? (s.map pieceOf) = some s := by
  induction s with
  | nil => rfl
  | cons b s ih =>
      rw [List.map_cons]
      by_cases h : b < 0x20 ∧ (shortEscape? b).isNone
      · have hpiece : pieceOf b = .unit b.toUInt16 := by simp [pieceOf, h]
        have hb : b.toNat < 32 := h.1
        have htrailing : isTrailingHalf b.toUInt16 = false := by
          simp [isTrailingHalf, UInt16.le_iff_toNat_le]
          omega
        have hleading : isLeadingHalf b.toUInt16 = false := by
          simp [isLeadingHalf, UInt16.le_iff_toNat_le]
          omega
        rw [hpiece, bytes?_unit_cons htrailing hleading, ih, UInt8.toNat_toUInt16,
          codePointBytes_of_lt (by omega)]
        simp
      · have hpiece : pieceOf b = .byte b := by simpa [pieceOf] using h
        rw [hpiece, bytes?, ih]
        rfl

/-- The literal of a text decodes to the text. -/
theorem decode?_ofString (text : String) : (ofString text).decode? = some text := by
  rw [decode?, ofString, bytes?_map_pieceOf, Option.bind_some, Text.fromUTF8?_toUTF8]

end RawText

/-! ## Numbers -/

namespace Numeral

theorem lt_ten_of_mem_digitsOf {n d : Nat} (h : d ∈ digitsOf n) : d < 10 := by
  fun_induction digitsOf n with
  | case1 n hn =>
      rw [List.mem_singleton] at h
      omega
  | case2 n hn ih =>
      rw [List.mem_append, List.mem_singleton] at h
      rcases h with h | h
      · exact ih h
      · omega

/-- Only zero is written with a zero in front. -/
theorem digitsOf_eq_cons (n : Nat) :
    (n = 0 ∧ digitsOf n = [0]) ∨ ∃ d rest, digitsOf n = d :: rest ∧ d ≠ 0 := by
  fun_induction digitsOf n with
  | case1 n hn =>
      by_cases h : n = 0
      · exact Or.inl ⟨h, by rw [h]⟩
      · exact Or.inr ⟨n, [], rfl, h⟩
  | case2 n hn ih =>
      rcases ih with ⟨hzero, -⟩ | ⟨d, rest, hd, hne⟩
      · omega
      · exact Or.inr ⟨d, rest ++ [n % 10], by rw [hd, List.cons_append], hne⟩

theorem digits_digitsOf (n : Nat) : Digits (digitsOf n) where
  ne_nil := by
    rcases digitsOf_eq_cons n with ⟨-, h⟩ | ⟨d, rest, h, -⟩
    · rw [h]
      exact List.cons_ne_nil _ _
    · rw [h]
      exact List.cons_ne_nil _ _
  lt_ten _ := lt_ten_of_mem_digitsOf

theorem eq_nil_of_digitsOf_eq_zero_cons {n : Nat} {rest : List Nat} (h : digitsOf n = 0 :: rest) :
    rest = [] := by
  rcases digitsOf_eq_cons n with ⟨-, hzero⟩ | ⟨d, tail, hcons, hd⟩
  · rw [hzero] at h
    exact (List.cons.inj h).2.symm
  · rw [hcons] at h
    exact absurd (List.cons.inj h).1 hd

/-- What is written for a natural number spells it. -/
theorem spelled_render_ofNat (n : Nat) :
    Token.Spelled (.number (ofNat n)) (ofNat n).render := by
  have hunsigned : (ofNat n).UnsignedSpelled (renderDigits (digitsOf n) ++ ([] ++ [])) :=
    .mk (digits_digitsOf n) (fun _ => eq_nil_of_digitsOf_eq_zero_cons) .none .none
  have hrender : (ofNat n).render = renderDigits (digitsOf n) ++ ([] ++ []) := by
    simp [render, ofNat]
  rw [hrender]
  exact .positive rfl hunsigned

/-! ## Numbers are finite -/

theorem le_foldl_digits (digits : List Nat) (s : Nat) :
    s ≤ digits.foldl (fun n d => 10 * n + d) s := by
  induction digits generalizing s with
  | nil => exact Nat.le_refl s
  | cons d digits ih =>
      have := ih (10 * s + d)
      rw [List.foldl_cons]
      omega

/-- Digits whose value fits in a word are all taken into the significand. -/
theorem absorb_of_lt {digits : List Nat} {s : Nat}
    (h : digits.foldl (fun n d => 10 * n + d) s < UInt64.size) :
    absorb s digits = (digits.foldl (fun n d => 10 * n + d) s, digits.length) := by
  induction digits generalizing s with
  | nil => rfl
  | cons d digits ih =>
      rw [List.foldl_cons] at h
      have hfits : 10 * s + d < UInt64.size := Nat.lt_of_le_of_lt (le_foldl_digits digits _) h
      rw [absorb, if_pos hfits, ih h, List.foldl_cons, List.length_cons]

theorem round53_le (n : Nat) (h : n ≠ 0) : round53 n ≤ 2 * n := by
  have hunit : 2 ^ (n.log2 - 52) ≤ n :=
    Nat.le_trans (Nat.pow_le_pow_right (by omega) (Nat.sub_le _ _)) (Nat.log2_self_le h)
  have hlow := Nat.div_mul_le_self n (2 ^ (n.log2 - 52))
  rw [round53, Nat.pow_eq]
  split
  · rw [Nat.add_mul, Nat.one_mul]
    omega
  · omega

/-- A plain run of digits whose value fits in a word is finite. -/
theorem finite_of_lt {digits : List Nat} (h : valueOf digits < UInt64.size) :
    finite ⟨false, digits, none, none⟩ := by
  have habsorb : absorb 0 digits = (valueOf digits, digits.length) := absorb_of_lt h
  simp only [finite, habsorb, Option.getD_none, absorb, Nat.sub_self]
  by_cases hn : valueOf digits = 0
  · simp only [hn, beq_self_eq_true, Bool.true_or]
  · have hround := round53_le (valueOf digits) hn
    have hn : valueOf digits < 2 ^ 64 := h
    have hone : round53 (Nat.pow 10 0) = 1 := by decide
    have hlimit : (2 : Nat) ^ 65 ≤ Nat.pow 2 1024 - Nat.pow 2 970 := by decide +kernel
    have hfits : round53 (valueOf digits) * round53 (Nat.pow 10 0) <
        Nat.pow 2 1024 - Nat.pow 2 970 := by
      rw [hone, Nat.mul_one]
      omega
    have hscale : (((0 : Nat) : Int) - ((0 : Nat) : Int) + 0).toNat = 0 := rfl
    rw [hscale, decide_eq_true hfits]
    simp

theorem finite_ofNat {n : Nat} (h : n < UInt64.size) : (ofNat n).finite :=
  finite_of_lt (by rwa [valueOf_digitsOf])

end Numeral

end Json

end NetReplay
