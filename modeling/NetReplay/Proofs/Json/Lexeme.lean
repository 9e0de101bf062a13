import NetReplay.Json.Printer

/-!
# The spelling of tokens

How each token is spelled, by the grammar of RFC 8259 and without a scanner
(`Token.Spelled`). A token has many spellings, since escapes and the letter of an
exponent are free.

There are two lemmas for each scanner. What it takes off the front is a spelling
of what it finds (`spelled_of_scanText`, `spelled_of_scanNumeral`). From a spelling
it finds what is spelled (`scanText_of_spelled`, `scanNumeral_of_spelled`), as long
as nothing behind continues a number.
-/

namespace NetReplay

namespace Json

/-! ## Lexemes -/

/-- The bytes of a string literal between its quotes. -/
inductive RawText.Spelled : RawText → List UInt8 → Prop where
  | nil : Spelled [] []
  | plain {b : UInt8} {t : RawText} {s : List UInt8} (hquote : b ≠ 0x22) (hescape : b ≠ 0x5C)
    (hcontrol : ¬ b < 0x20) (h : Spelled t s) : Spelled (.byte b :: t) (b :: s)
  | escape {e b : UInt8} {t : RawText} {s : List UInt8} (he : unescape? e = some b)
    (h : Spelled t s) : Spelled (.byte b :: t) (0x5C :: e :: s)
  | unit {a b c d : UInt8} {u : UInt16} {t : RawText} {s : List UInt8}
    (hu : hexUnit? a b c d = some u) (h : Spelled t s) :
    Spelled (.unit u :: t) (0x5C :: 0x75 :: a :: b :: c :: d :: s)

/-- A run of decimal digits. -/
structure Digits (digits : List Nat) : Prop where
  ne_nil : digits ≠ []
  lt_ten : ∀ d ∈ digits, d < 10

/-- The point of a number and the digits behind it. -/
inductive Numeral.FractionSpelled : Option (List Nat) → List UInt8 → Prop where
  | none : FractionSpelled none []
  | some {digits : List Nat} (h : Digits digits) :
    FractionSpelled (some digits) (0x2E :: renderDigits digits)

/-- The exponent of a number. -/
inductive Numeral.ExponentSpelled : Option Int → List UInt8 → Prop where
  | none : ExponentSpelled none []
  | plain {letter : UInt8} {digits : List Nat} (hletter : letter = 0x65 ∨ letter = 0x45)
    (h : Digits digits) :
    ExponentSpelled (some (valueOf digits)) (letter :: renderDigits digits)
  | plus {letter : UInt8} {digits : List Nat} (hletter : letter = 0x65 ∨ letter = 0x45)
    (h : Digits digits) :
    ExponentSpelled (some (valueOf digits)) (letter :: 0x2B :: renderDigits digits)
  | minus {letter : UInt8} {digits : List Nat} (hletter : letter = 0x65 ∨ letter = 0x45)
    (h : Digits digits) :
    ExponentSpelled (some (-valueOf digits)) (letter :: 0x2D :: renderDigits digits)

/-- A number without its sign. Only zero itself starts with a zero. -/
inductive Numeral.UnsignedSpelled : Numeral → List UInt8 → Prop where
  | mk {negative : Bool} {whole : List Nat} {fraction : Option (List Nat)} {exponent : Option Int}
    {f e : List UInt8} (hwhole : Digits whole) (hzero : ∀ rest, whole = 0 :: rest → rest = [])
    (hfraction : FractionSpelled fraction f) (hexponent : ExponentSpelled exponent e) :
    UnsignedSpelled ⟨negative, whole, fraction, exponent⟩ (renderDigits whole ++ (f ++ e))

/-- The bytes of a token. -/
inductive Token.Spelled : Token → List UInt8 → Prop where
  | openArray : Spelled .openArray [0x5B]
  | closeArray : Spelled .closeArray [0x5D]
  | openObject : Spelled .openObject [0x7B]
  | closeObject : Spelled .closeObject [0x7D]
  | colon : Spelled .colon [0x3A]
  | comma : Spelled .comma [0x2C]
  | null : Spelled .null [0x6E, 0x75, 0x6C, 0x6C]
  | true : Spelled (.bool true) [0x74, 0x72, 0x75, 0x65]
  | false : Spelled (.bool false) [0x66, 0x61, 0x6C, 0x73, 0x65]
  | positive {n : Numeral} {s : List UInt8} (hsign : n.negative = false)
    (h : n.UnsignedSpelled s) : Spelled (.number n) s
  | negative {n : Numeral} {s : List UInt8} (hsign : n.negative = true)
    (h : n.UnsignedSpelled s) : Spelled (.number n) (0x2D :: s)
  | string {t : RawText} {s : List UInt8} (h : t.Spelled s) :
    Spelled (.string t) (0x22 :: (s ++ [0x22]))

/-! ## Scanning strings -/

theorem scanText_quote (rest : List UInt8) : scanText (0x22 :: rest) = some ([], rest) := by
  simp [scanText]

theorem scanText_unit {a b c d : UInt8} {u : UInt16} (h : hexUnit? a b c d = some u)
    (rest : List UInt8) :
    scanText (0x5C :: 0x75 :: a :: b :: c :: d :: rest) =
      (scanText rest).map fun (t, left) => (.unit u :: t, left) := by
  rw [scanText, h]

theorem scanText_escape {e b : UInt8} (he : e ≠ 0x75) (h : unescape? e = some b)
    (rest : List UInt8) :
    scanText (0x5C :: e :: rest) =
      (scanText rest).map fun (t, left) => (.byte b :: t, left) := by
  rw [scanText, h]
  intro _ _ _ _ _ heq
  exact absurd heq he

theorem scanText_byte {b : UInt8} (hquote : b ≠ 0x22) (hescape : b ≠ 0x5C) (hspace : ¬ b < 0x20)
    (rest : List UInt8) :
    scanText (b :: rest) = (scanText rest).map fun (t, left) => (.byte b :: t, left) := by
  rw [scanText]
  · simp [hspace, hescape]
  · exact hquote
  · intro _ _ _ _ _ heq
    exact absurd heq hescape
  · intro _ _ heq
    exact absurd heq hescape

theorem scanText_of_spelled {t : RawText} {s : List UInt8} (h : t.Spelled s)
    (rest : List UInt8) : scanText (s ++ 0x22 :: rest) = some (t, rest) := by
  induction h with
  | nil => exact scanText_quote rest
  | plain hquote hescape hcontrol h ih =>
      rw [List.cons_append, scanText_byte hquote hescape hcontrol, ih]
      rfl
  | @escape e b t s he h ih =>
      have hne : e ≠ 0x75 := by
        rintro rfl
        cases he
      rw [List.cons_append, List.cons_append, scanText_escape hne he, ih]
      rfl
  | unit hu h ih =>
      simp only [List.cons_append]
      rw [scanText_unit hu, ih]
      rfl

theorem spelled_of_scanText {s : List UInt8} {t : RawText} {left : List UInt8}
    (h : scanText s = some (t, left)) : ∃ body, t.Spelled body ∧ s = body ++ 0x22 :: left := by
  fun_induction scanText s generalizing t left with
  | case1 => cases h
  | case2 rest =>
      cases h
      exact ⟨[], .nil, rfl⟩
  | case3 => cases h
  | case4 a b c d rest u hu ih =>
      obtain ⟨⟨t', left'⟩, hs, he⟩ := Option.map_eq_some_iff.mp h
      cases he
      obtain ⟨body, hbody, rfl⟩ := ih hs
      exact ⟨_, .unit hu hbody, rfl⟩
  | case5 => cases h
  | case6 e rest _ b hb ih =>
      obtain ⟨⟨t', left'⟩, hs, he⟩ := Option.map_eq_some_iff.mp h
      cases he
      obtain ⟨body, hbody, rfl⟩ := ih hs
      exact ⟨_, .escape hb hbody, rfl⟩
  | case7 => cases h
  | case8 b rest hquote _ _ hplain ih =>
      obtain ⟨⟨t', left'⟩, hs, he⟩ := Option.map_eq_some_iff.mp h
      cases he
      obtain ⟨body, hbody, rfl⟩ := ih hs
      simp only [Bool.or_eq_true, decide_eq_true_eq, beq_iff_eq, not_or] at hplain
      exact ⟨_, .plain hquote hplain.2 hplain.1 hbody, rfl⟩

/-! ## Scanning numbers -/

/-- What may follow a number literal: nothing that would continue it. -/
def Delimited : List UInt8 → Prop
  | [] => True
  | b :: _ => digit? b = none ∧ b ≠ 0x2E ∧ b ≠ 0x65 ∧ b ≠ 0x45

namespace Numeral

theorem digit?_ofNat {d : Nat} (h : d < 10) : digit? (UInt8.ofNat (0x30 + d)) = some d := by
  revert d
  decide

theorem scanDigits_of_delimited {rest : List UInt8} (h : Delimited rest) :
    scanDigits rest = ([], rest) := by
  cases rest with
  | nil => rfl
  | cons b rest => simp [scanDigits, h.1]

/-- A run of digits is taken as a whole when no further digit follows it. -/
theorem scanDigits_renderDigits {digits : List Nat} (hdigits : ∀ d ∈ digits, d < 10)
    {rest : List UInt8} (h : scanDigits rest = ([], rest)) :
    scanDigits (renderDigits digits ++ rest) = (digits, rest) := by
  induction digits with
  | nil => exact h
  | cons d digits ih =>
      have hd := digit?_ofNat (hdigits d List.mem_cons_self)
      have hrest := ih fun e he => hdigits e (List.mem_cons_of_mem d he)
      rw [renderDigits] at hrest ⊢
      rw [List.map_cons, List.cons_append, scanDigits, hd, hrest]

/-- So are the digits in front of the point, which start with a zero only when
they are this zero. -/
theorem scanWhole_renderDigits {digits : List Nat} (hne : digits ≠ [])
    (hdigits : ∀ d ∈ digits, d < 10) (hzero : ∀ rest, digits = 0 :: rest → rest = [])
    {rest : List UInt8} (h : scanDigits rest = ([], rest)) :
    scanWhole (renderDigits digits ++ rest) = some (digits, rest) := by
  have hscan := scanDigits_renderDigits hdigits h
  cases digits with
  | nil => exact absurd rfl hne
  | cons d digits =>
      by_cases hd : d = 0
      · subst hd
        rw [hzero digits rfl]
        rfl
      · have hlt : d < 10 := hdigits d List.mem_cons_self
        rw [scanWhole, hscan]
        intro left heq
        -- a first byte `0` would make the first digit zero
        have hbyte : UInt8.ofNat (0x30 + d) = 0x30 := (List.cons.inj heq).1
        have hdigit := digit?_ofNat hlt
        rw [hbyte] at hdigit
        exact hd (Option.some.inj hdigit).symm

theorem scanExponent_of_delimited {rest : List UInt8} (h : Delimited rest) :
    scanExponent rest = some (none, rest) := by
  cases rest with
  | nil => rfl
  | cons b rest => simp [scanExponent, h.2.2.1, h.2.2.2]

end Numeral

theorem eq_ofNat_of_digit? {b : UInt8} {d : Nat} (h : digit? b = some d) :
    b = UInt8.ofNat (0x30 + d) ∧ d < 10 := by
  rw [digit?] at h
  split at h
  · rename_i hrange
    cases h
    rw [Bool.and_eq_true, decide_eq_true_eq, decide_eq_true_eq] at hrange
    have hlow : 0x30 ≤ b.toNat := hrange.1
    have hhigh : b.toNat ≤ 0x39 := hrange.2
    refine ⟨?_, by omega⟩
    rw [← UInt8.toNat_inj, UInt8.toNat_ofNat']
    omega
  · cases h

theorem append_of_scanDigits {s left : List UInt8} {digits : List Nat}
    (h : scanDigits s = (digits, left)) :
    s = renderDigits digits ++ left ∧ ∀ d ∈ digits, d < 10 := by
  fun_induction scanDigits s generalizing digits left with
  | case1 =>
      cases h
      exact ⟨rfl, fun d hd => absurd hd List.not_mem_nil⟩
  | case2 =>
      cases h
      exact ⟨rfl, fun d hd => absurd hd List.not_mem_nil⟩
  | case3 b rest d hd ih =>
      cases h
      obtain ⟨hrest, hten⟩ := ih rfl
      obtain ⟨rfl, hlt⟩ := eq_ofNat_of_digit? hd
      refine ⟨congrArg (_ :: ·) hrest, fun e he => ?_⟩
      rcases List.mem_cons.mp he with rfl | he
      · exact hlt
      · exact hten e he

theorem Digits.length_scan {digits : List Nat} (h : Digits digits) {rest : List UInt8}
    (hrest : scanDigits rest = ([], rest)) :
    ∃ d ds, digits = d :: ds ∧ scanDigits (renderDigits digits ++ rest) = (d :: ds, rest) := by
  obtain ⟨d, ds, rfl⟩ := List.exists_cons_of_ne_nil h.ne_nil
  exact ⟨d, ds, rfl, Numeral.scanDigits_renderDigits h.lt_ten hrest⟩

theorem digits_of_scanDigits {s left : List UInt8} {d : Nat} {ds : List Nat}
    (h : scanDigits s = (d :: ds, left)) : s = renderDigits (d :: ds) ++ left ∧ Digits (d :: ds) :=
  ⟨(append_of_scanDigits h).1, List.cons_ne_nil d ds, (append_of_scanDigits h).2⟩

namespace Numeral

theorem digits_of_scanWhole {s left : List UInt8} {whole : List Nat}
    (h : scanWhole s = some (whole, left)) :
    s = renderDigits whole ++ left ∧ Digits whole ∧ ∀ rest, whole = 0 :: rest → rest = [] := by
  unfold scanWhole at h
  split at h
  · cases h
    exact ⟨rfl, ⟨List.cons_ne_nil _ _, by simp⟩, fun rest hrest => (List.cons.inj hrest).2.symm⟩
  · rename_i hfirst
    split at h
    · cases h
    · rename_i found hne
      rcases hscan : scanDigits s with ⟨_ | ⟨d, ds⟩, behind⟩
      · exact absurd hscan (hne behind)
      · rw [hscan] at h
        cases h
        obtain ⟨hs, hdigits⟩ := digits_of_scanDigits hscan
        refine ⟨hs, hdigits, fun rest hrest => ?_⟩
        cases hrest
        exact absurd hs (hfirst _)

theorem spelled_of_scanFraction {s left : List UInt8} {fraction : Option (List Nat)}
    (h : scanFraction s = some (fraction, left)) :
    ∃ f, FractionSpelled fraction f ∧ s = f ++ left := by
  unfold scanFraction at h
  split at h
  · rename_i rest
    split at h
    · cases h
    · rename_i digits behind hne hscan
      cases h
      rcases digits with _ | ⟨d, ds⟩
      · exact absurd rfl hne
      · obtain ⟨hs, hdigits⟩ := digits_of_scanDigits hscan
        exact ⟨_, .some hdigits, congrArg (_ :: ·) hs⟩
  · cases h
    exact ⟨[], .none, rfl⟩

theorem digits_of_scanPower {negative : Bool} {s left : List UInt8} {exponent : Option Int}
    (h : scanPower negative s = some (exponent, left)) :
    ∃ digits, Digits digits ∧ s = renderDigits digits ++ left ∧
      exponent = some (if negative then -(valueOf digits : Int) else valueOf digits) := by
  unfold scanPower at h
  split at h
  · cases h
  · rename_i digits behind hne hscan
    cases h
    rcases digits with _ | ⟨d, ds⟩
    · exact absurd rfl hne
    · obtain ⟨hs, hdigits⟩ := digits_of_scanDigits hscan
      exact ⟨_, hdigits, hs, rfl⟩

theorem spelled_of_scanExponent {s left : List UInt8} {exponent : Option Int}
    (h : scanExponent s = some (exponent, left)) :
    ∃ e, ExponentSpelled exponent e ∧ s = e ++ left := by
  unfold scanExponent at h
  split at h
  · rename_i letter rest
    split at h
    · rename_i hletter
      rw [Bool.or_eq_true, beq_iff_eq, beq_iff_eq] at hletter
      split at h
      · obtain ⟨digits, hdigits, rfl, rfl⟩ := digits_of_scanPower h
        exact ⟨_, .plus hletter hdigits, rfl⟩
      · obtain ⟨digits, hdigits, rfl, rfl⟩ := digits_of_scanPower h
        exact ⟨_, .minus hletter hdigits, rfl⟩
      · obtain ⟨digits, hdigits, rfl, rfl⟩ := digits_of_scanPower h
        exact ⟨_, .plain hletter hdigits, rfl⟩
    · cases h
      exact ⟨[], .none, rfl⟩
  · cases h
    exact ⟨[], .none, rfl⟩

theorem spelled_of_scanNumeral {negative : Bool} {s left : List UInt8} {n : Numeral}
    (h : scanNumeral negative s = some (n, left)) :
    n.negative = negative ∧ ∃ body, n.UnsignedSpelled body ∧ s = body ++ left := by
  simp only [scanNumeral, bind, Option.bind_eq_some_iff, pure, Option.some.injEq] at h
  obtain ⟨⟨whole, s₁⟩, hwhole, ⟨fraction, s₂⟩, hfraction, ⟨exponent, s₃⟩, hexponent, heq⟩ := h
  cases heq
  obtain ⟨rfl, hdigits, hzero⟩ := digits_of_scanWhole hwhole
  obtain ⟨f, hf, hs₁⟩ := spelled_of_scanFraction hfraction
  obtain ⟨e, he, hs₂⟩ := spelled_of_scanExponent hexponent
  dsimp only at hs₁ hs₂
  refine ⟨rfl, _, .mk hdigits hzero hf he, ?_⟩
  rw [hs₁, hs₂, List.append_assoc, List.append_assoc]

/-- Neither a digit nor a point stands in front. -/
structure Pointless (s : List UInt8) : Prop where
  undigited : scanDigits s = ([], s)
  unpointed : ∀ rest, s ≠ 0x2E :: rest

theorem scanDigits_cons {b : UInt8} (h : digit? b = none) (rest : List UInt8) :
    scanDigits (b :: rest) = ([], b :: rest) := by
  rw [scanDigits, h]

theorem digit?_of_letter {letter : UInt8} (h : letter = 0x65 ∨ letter = 0x45) :
    digit? letter = none ∧ letter ≠ 0x2E := by
  rcases h with rfl | rfl <;> decide

theorem pointless_exponent {exponent : Option Int} {e : List UInt8}
    (he : ExponentSpelled exponent e) {rest : List UInt8} (h : Delimited rest) :
    Pointless (e ++ rest) := by
  have hletter : ∀ {letter : UInt8} (_ : letter = 0x65 ∨ letter = 0x45) (s : List UInt8),
      Pointless (letter :: s) := fun h s =>
    ⟨scanDigits_cons (digit?_of_letter h).1 s, fun _ heq =>
      (digit?_of_letter h).2 (List.cons.inj heq).1⟩
  cases he with
  | none =>
      refine ⟨scanDigits_of_delimited h, fun left heq => ?_⟩
      rw [List.nil_append] at heq
      rw [heq] at h
      exact h.2.1 rfl
  | plain hl _ => exact hletter hl _
  | plus hl _ => exact hletter hl _
  | minus hl _ => exact hletter hl _

theorem undigited_fraction {fraction : Option (List Nat)} {f : List UInt8}
    (hf : FractionSpelled fraction f) {rest : List UInt8} (h : Pointless rest) :
    scanDigits (f ++ rest) = ([], f ++ rest) := by
  cases hf with
  | none => exact h.undigited
  | some _ => exact scanDigits_cons (by decide) _

theorem scanFraction_of_spelled {fraction : Option (List Nat)} {f : List UInt8}
    (hf : FractionSpelled fraction f) {rest : List UInt8} (h : Pointless rest) :
    scanFraction (f ++ rest) = some (fraction, rest) := by
  cases hf with
  | none =>
      rw [List.nil_append, scanFraction]
      exact h.unpointed
  | some hdigits =>
      obtain ⟨d, ds, rfl, hscan⟩ := hdigits.length_scan h.undigited
      rw [List.cons_append, scanFraction, hscan]

theorem scanPower_of_digits (negative : Bool) {digits : List Nat} (hdigits : Digits digits)
    {rest : List UInt8} (h : scanDigits rest = ([], rest)) :
    scanPower negative (renderDigits digits ++ rest) =
      some (some (if negative then -(valueOf digits : Int) else valueOf digits), rest) := by
  obtain ⟨d, ds, rfl, hscan⟩ := hdigits.length_scan h
  rw [scanPower, hscan]

theorem ne_sign_of_lt_ten {d : Nat} (h : d < 10) :
    UInt8.ofNat (0x30 + d) ≠ 0x2B ∧ UInt8.ofNat (0x30 + d) ≠ 0x2D := by
  revert d
  decide

theorem scanExponent_of_spelled {exponent : Option Int} {e : List UInt8}
    (he : ExponentSpelled exponent e) {rest : List UInt8} (h : Delimited rest) :
    scanExponent (e ++ rest) = some (exponent, rest) := by
  have hpower := fun negative {digits} (hdigits : Digits digits) =>
    scanPower_of_digits negative hdigits (scanDigits_of_delimited h)
  cases he with
  | none => exact scanExponent_of_delimited h
  | @plain letter digits hletter hdigits =>
      obtain ⟨d, ds, rfl⟩ := List.exists_cons_of_ne_nil hdigits.ne_nil
      have hd : UInt8.ofNat (0x30 + d) ≠ 0x2B ∧ UInt8.ofNat (0x30 + d) ≠ 0x2D :=
        ne_sign_of_lt_ten (hdigits.lt_ten d List.mem_cons_self)
      have hletter : (letter == 0x65 || letter == 0x45) = true := by
        rcases hletter with rfl | rfl <;> rfl
      rw [List.cons_append, scanExponent, if_pos hletter]
      · exact hpower false hdigits
      · exact fun _ heq => hd.1 (List.cons.inj heq).1
      · exact fun _ heq => hd.2 (List.cons.inj heq).1
  | plus hletter hdigits =>
      rcases hletter with rfl | rfl
      · exact hpower false hdigits
      · exact hpower false hdigits
  | minus hletter hdigits =>
      rcases hletter with rfl | rfl
      · exact hpower true hdigits
      · exact hpower true hdigits

/-- A number is scanned as it is spelled, when nothing continues it. -/
theorem scanNumeral_of_spelled {n : Numeral} {s : List UInt8} (hn : n.UnsignedSpelled s)
    {rest : List UInt8} (h : Delimited rest) :
    scanNumeral n.negative (s ++ rest) = some (n, rest) := by
  obtain ⟨hwhole, hzero, hf, he⟩ := hn
  have hpointless := pointless_exponent he h
  have hdigits := undigited_fraction hf hpointless
  have hscan := scanWhole_renderDigits hwhole.ne_nil hwhole.lt_ten hzero hdigits
  simp only [scanNumeral, List.append_assoc, hscan, scanFraction_of_spelled hf hpointless,
    scanExponent_of_spelled he h, bind, Option.bind_some, pure]

end Numeral

end Json

end NetReplay
