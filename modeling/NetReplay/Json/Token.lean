import NetReplay.Json.Numeral
import NetReplay.Json.RawText

/-!
# Tokens of a document

`tokens` cuts the bytes of a document into punctuation, words, numbers and
string literals, by the grammar of RFC 8259: between tokens only space, tab,
line feed and carriage return are skipped, numbers have no leading zeros, and
string literals hold no control characters. The run ends with `Token.bad` at
the first place where no token starts; what comes after it does not matter.

Each scanner takes the rest of the document and gives back what it leaves. The
scan of a document ends because `scan` never leaves more than it was given
(`length_scan_le`).
-/

namespace NetReplay

namespace Json

/-- A token of a document. -/
inductive Token where
  | openArray
  | closeArray
  | openObject
  | closeObject
  | colon
  | comma
  | null
  | bool (b : Bool)
  | number (n : Numeral)
  | string (t : RawText)
  /-- No token starts here. -/
  | bad
  deriving DecidableEq, Repr, Inhabited

def isSpace (b : UInt8) : Bool := b == 0x20 || b == 0x09 || b == 0x0A || b == 0x0D

def digit? (b : UInt8) : Option Nat :=
  if 0x30 ≤ b && b ≤ 0x39 then some (b.toNat - 0x30) else none

def hexDigit? (b : UInt8) : Option Nat :=
  if 0x30 ≤ b && b ≤ 0x39 then some (b.toNat - 0x30)
  else if 0x41 ≤ b && b ≤ 0x46 then some (b.toNat - 0x37)
  else if 0x61 ≤ b && b ≤ 0x66 then some (b.toNat - 0x57)
  else none

/-- The unit that four hexadecimal digits stand for. -/
def hexUnit? (a b c d : UInt8) : Option UInt16 := do
  let a ← hexDigit? a
  let b ← hexDigit? b
  let c ← hexDigit? c
  let d ← hexDigit? d
  pure (UInt16.ofNat (((a * 16 + b) * 16 + c) * 16 + d))

/-- The byte that a short escape stands for, given its letter. -/
def unescape? (b : UInt8) : Option UInt8 :=
  if b = 0x22 then some 0x22
  else if b = 0x5C then some 0x5C
  else if b = 0x2F then some 0x2F
  else if b = 0x62 then some 0x08
  else if b = 0x66 then some 0x0C
  else if b = 0x6E then some 0x0A
  else if b = 0x72 then some 0x0D
  else if b = 0x74 then some 0x09
  else none

/-- Scans the pieces of a string literal and its closing quote. -/
def scanText : List UInt8 → Option (RawText × List UInt8)
  | [] => none
  | 0x22 :: rest => some ([], rest)
  | 0x5C :: 0x75 :: a :: b :: c :: d :: rest =>
    match hexUnit? a b c d with
    | none => none
    | some u => (scanText rest).map fun (t, left) => (.unit u :: t, left)
  | 0x5C :: e :: rest =>
    match unescape? e with
    | none => none
    | some b => (scanText rest).map fun (t, left) => (.byte b :: t, left)
  | b :: rest =>
    if b < 0x20 || b == 0x5C then none
    else (scanText rest).map fun (t, left) => (.byte b :: t, left)

/-- Takes the digits in front. -/
def scanDigits : List UInt8 → List Nat × List UInt8
  | [] => ([], [])
  | b :: rest =>
    match digit? b with
    | none => ([], b :: rest)
    | some d => (d :: (scanDigits rest).1, (scanDigits rest).2)

/-- Scans the digits in front of the point: a single zero, or a run of digits
that does not start with one. -/
def scanWhole (s : List UInt8) : Option (List Nat × List UInt8) :=
  match s with
  | 0x30 :: rest => some ([0], rest)
  | _ =>
    match scanDigits s with
    | ([], _) => none
    | found => some found

/-- Scans a point and the digits behind it, if a point is there. -/
def scanFraction (s : List UInt8) : Option (Option (List Nat) × List UInt8) :=
  match s with
  | 0x2E :: rest =>
    match scanDigits rest with
    | ([], _) => none
    | (digits, left) => some (some digits, left)
  | _ => some (none, s)

/-- Scans the digits of an exponent of the given sign. -/
def scanPower (negative : Bool) (s : List UInt8) : Option (Option Int × List UInt8) :=
  match scanDigits s with
  | ([], _) => none
  | (digits, left) =>
    let value : Int := Numeral.valueOf digits
    some (some (if negative then -value else value), left)

/-- Scans an exponent, if one is there. -/
def scanExponent (s : List UInt8) : Option (Option Int × List UInt8) :=
  match s with
  | e :: rest =>
    if e == 0x65 || e == 0x45 then
      match rest with
      | 0x2B :: rest => scanPower false rest
      | 0x2D :: rest => scanPower true rest
      | _ => scanPower false rest
    else some (none, s)
  | [] => some (none, s)

/-- Scans a number literal of the given sign. -/
def scanNumeral (negative : Bool) (s : List UInt8) : Option (Numeral × List UInt8) := do
  let (whole, s) ← scanWhole s
  let (fraction, s) ← scanFraction s
  let (exponent, s) ← scanExponent s
  pure (⟨negative, whole, fraction, exponent⟩, s)

/-- Scans the one token that starts with `b`; where there is none the rest is
given up. -/
def scan (b : UInt8) (rest : List UInt8) : Token × List UInt8 :=
  match b, rest with
  | 0x5B, _ => (.openArray, rest)
  | 0x5D, _ => (.closeArray, rest)
  | 0x7B, _ => (.openObject, rest)
  | 0x7D, _ => (.closeObject, rest)
  | 0x3A, _ => (.colon, rest)
  | 0x2C, _ => (.comma, rest)
  | 0x6E, 0x75 :: 0x6C :: 0x6C :: rest => (.null, rest)
  | 0x74, 0x72 :: 0x75 :: 0x65 :: rest => (.bool true, rest)
  | 0x66, 0x61 :: 0x6C :: 0x73 :: 0x65 :: rest => (.bool false, rest)
  | 0x22, _ =>
    match scanText rest with
    | some (t, left) => (.string t, left)
    | none => (.bad, [])
  | 0x2D, _ =>
    match scanNumeral true rest with
    | some (n, left) => (.number n, left)
    | none => (.bad, [])
  | _, _ =>
    match scanNumeral false (b :: rest) with
    | some (n, left) => (.number n, left)
    | none => (.bad, [])

/-! ## What the scanners leave -/

theorem length_scanText_le {s : List UInt8} {t : RawText} {left : List UInt8}
    (h : scanText s = some (t, left)) : left.length ≤ s.length := by
  fun_induction scanText s generalizing t left with
  | case1 => simp at h
  | case2 rest => simp at h; simp [h]
  | case3 => simp at h
  | case4 a b c d rest u hu ih =>
      obtain ⟨⟨t', left'⟩, hs, he⟩ := Option.map_eq_some_iff.mp h
      have := ih hs
      simp only [Prod.mk.injEq] at he
      rw [← he.2]
      simp only [List.length_cons]
      omega
  | case5 => simp at h
  | case6 e rest _ b hb ih =>
      obtain ⟨⟨t', left'⟩, hs, he⟩ := Option.map_eq_some_iff.mp h
      have := ih hs
      simp only [Prod.mk.injEq] at he
      rw [← he.2]
      simp only [List.length_cons]
      omega
  | case7 => simp at h
  | case8 b rest _ _ _ _ ih =>
      obtain ⟨⟨t', left'⟩, hs, he⟩ := Option.map_eq_some_iff.mp h
      have := ih hs
      simp only [Prod.mk.injEq] at he
      rw [← he.2]
      simp only [List.length_cons]
      omega

theorem length_scanDigits_le (s : List UInt8) : (scanDigits s).2.length ≤ s.length := by
  fun_induction scanDigits s with
  | case1 => simp
  | case2 => simp
  | case3 b rest d hd ih =>
      simp only [List.length_cons]
      omega

/-- A run of digits that is not empty was taken off the front. -/
theorem length_scanDigits_lt {s : List UInt8} (h : (scanDigits s).1 ≠ []) :
    (scanDigits s).2.length < s.length := by
  cases s with
  | nil => simp [scanDigits] at h
  | cons b rest =>
      have := length_scanDigits_le rest
      cases hd : digit? b with
      | none => simp [scanDigits, hd] at h
      | some d => simp only [scanDigits, hd, List.length_cons]; omega

theorem length_scanWhole_lt {s : List UInt8} {digits : List Nat} {left : List UInt8}
    (h : scanWhole s = some (digits, left)) : left.length < s.length := by
  unfold scanWhole at h
  split at h
  · simp at h
    simp [h]
  · split at h
    · simp at h
    · rename_i hne
      simp only [Option.some.injEq] at h
      have := length_scanDigits_lt (s := s) (by
        intro hnil
        exact hne (scanDigits s).2 (by rw [← hnil]))
      rw [h] at this
      exact this

theorem length_scanFraction_le {s : List UInt8} {f : Option (List Nat)} {left : List UInt8}
    (h : scanFraction s = some (f, left)) : left.length ≤ s.length := by
  unfold scanFraction at h
  split at h
  · rename_i rest
    split at h
    · simp at h
    · rename_i digits left' _ hs
      simp only [Option.some.injEq, Prod.mk.injEq] at h
      have := length_scanDigits_le rest
      rw [hs] at this
      rw [← h.2, List.length_cons]
      exact Nat.le_succ_of_le this
  · simp at h
    simp [h]

theorem length_scanPower_le {negative : Bool} {s : List UInt8} {e : Option Int}
    {left : List UInt8} (h : scanPower negative s = some (e, left)) :
    left.length ≤ s.length := by
  unfold scanPower at h
  split at h
  · simp at h
  · rename_i hs
    simp only [Option.some.injEq, Prod.mk.injEq] at h
    have := length_scanDigits_le s
    rw [hs] at this
    rw [← h.2]
    exact this

theorem length_scanExponent_le {s : List UInt8} {e : Option Int} {left : List UInt8}
    (h : scanExponent s = some (e, left)) : left.length ≤ s.length := by
  unfold scanExponent at h
  split at h
  · split at h
    · split at h <;>
      · have := length_scanPower_le h
        simp only [List.length_cons] at this ⊢
        omega
    · simp at h
      simp [h]
  · simp at h
    simp [h]

theorem length_scanNumeral_lt {negative : Bool} {s : List UInt8} {n : Numeral}
    {left : List UInt8} (h : scanNumeral negative s = some (n, left)) :
    left.length < s.length := by
  simp only [scanNumeral, bind, Option.bind_eq_some_iff] at h
  obtain ⟨⟨_, s₁⟩, h₁, ⟨_, s₂⟩, h₂, ⟨_, s₃⟩, h₃, h₄⟩ := h
  simp only [pure, Option.some.injEq, Prod.mk.injEq] at h₄
  have h₁ := length_scanWhole_lt h₁
  have h₂ := length_scanFraction_le h₂
  have h₃ := length_scanExponent_le h₃
  dsimp only at h₂ h₃
  rw [← h₄.2]
  omega

theorem length_scan_le (b : UInt8) (rest : List UInt8) :
    (scan b rest).2.length ≤ rest.length := by
  unfold scan
  split
  · simp
  · simp
  · simp
  · simp
  · simp
  · simp
  · simp only [List.length_cons]; omega
  · simp only [List.length_cons]; omega
  · simp only [List.length_cons]; omega
  · split
    · rename_i h
      exact length_scanText_le h
    · simp
  · split
    · rename_i h
      exact Nat.le_of_lt (length_scanNumeral_lt h)
    · simp
  · split
    · rename_i h
      exact Nat.le_of_lt_succ (length_scanNumeral_lt h)
    · simp

/-! ## The run of tokens -/

/-- The tokens of a document, up to the first place where none starts. -/
def tokens : List UInt8 → List Token
  | [] => []
  | b :: rest =>
    if isSpace b then tokens rest
    else (scan b rest).1 :: tokens (scan b rest).2
termination_by s => s.length
decreasing_by
  · simp
  · have := length_scan_le b rest
    simp only [List.length_cons]
    omega

theorem tokens_nil : tokens [] = [] := by rw [tokens]

theorem tokens_cons (b : UInt8) (rest : List UInt8) :
    tokens (b :: rest) =
      if isSpace b then tokens rest
      else (scan b rest).1 :: tokens (scan b rest).2 := by rw [tokens]

end Json

end NetReplay
