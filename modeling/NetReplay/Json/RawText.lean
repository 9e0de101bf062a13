/-!
# String literals before decoding

Inside its quotes a string literal is a run of bytes and escapes. A `RawText`
keeps it piece by piece: a byte that stands for itself, written plainly or
through a short escape, or a 16-bit unit written as `\u` and four hexadecimal
digits. Reading a literal as text is a later step, because a value that nobody
looks at may hold anything: `RawText.decode?` succeeds when the units pair up
into code points and the bytes as a whole are UTF-8.

`RawText.ofString` is the literal that this library writes for a text.
-/

namespace NetReplay

namespace Json

/-- One piece of a string literal. -/
inductive Piece where
  /-- A byte, plain or through a short escape such as `\n`. -/
  | byte (b : UInt8)
  /-- A 16-bit unit, through `\u` and four digits. -/
  | unit (u : UInt16)
  deriving DecidableEq, Repr, Inhabited

/-- A string literal between its quotes, piece by piece. -/
abbrev RawText := List Piece

/-- Whether a unit is the first half of a pair that makes one code point. -/
def isLeadingHalf (u : UInt16) : Bool := 0xD800 ≤ u && u < 0xDC00

/-- Whether a unit is the second half of such a pair. -/
def isTrailingHalf (u : UInt16) : Bool := 0xDC00 ≤ u && u < 0xE000

/-- The code point that two halves make. -/
def joinHalves (u v : UInt16) : Nat :=
  0x10000 + (u.toNat - 0xD800) * 0x400 + (v.toNat - 0xDC00)

/-- The UTF-8 bytes of a code point. -/
def codePointBytes (n : Nat) : List UInt8 := String.utf8EncodeChar (Char.ofNat n)

namespace RawText

/-- The bytes that a literal stands for; `none` when a half of a pair stands
alone. -/
def bytes? : RawText → Option (List UInt8)
  | [] => some []
  | .byte b :: rest => (bytes? rest).map (b :: ·)
  | .unit u :: .unit v :: rest =>
    if isTrailingHalf u then none
    else if isLeadingHalf u then
      if isTrailingHalf v then (bytes? rest).map (codePointBytes (joinHalves u v) ++ ·)
      else none
    else (bytes? (.unit v :: rest)).map (codePointBytes u.toNat ++ ·)
  | .unit u :: rest =>
    if isTrailingHalf u || isLeadingHalf u then none
    else (bytes? rest).map (codePointBytes u.toNat ++ ·)

/-- The text that a literal stands for. -/
def decode? (t : RawText) : Option String :=
  (bytes? t).bind fun s => String.fromUTF8? ⟨s.toArray⟩

/-- The letter of the short escape for a byte. -/
def shortEscape? (b : UInt8) : Option UInt8 :=
  if b = 0x22 then some 0x22
  else if b = 0x5C then some 0x5C
  else if b = 0x08 then some 0x62
  else if b = 0x09 then some 0x74
  else if b = 0x0A then some 0x6E
  else if b = 0x0C then some 0x66
  else if b = 0x0D then some 0x72
  else none

/-- The piece that stands for one byte of UTF-8 text: control characters
without a short escape need four digits. -/
def pieceOf (b : UInt8) : Piece :=
  if b < 0x20 && (shortEscape? b).isNone then .unit b.toUInt16 else .byte b

/-- The literal written for a text. -/
def ofString (text : String) : RawText := text.toUTF8.toList.map pieceOf

end RawText

end Json

end NetReplay
