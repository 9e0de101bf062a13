import NetReplay.Json.Tree

/-!
# Compact documents

`Tree.ofText`, `Tree.ofNat` and `Tree.membersOf` are the values and members that
this library writes for texts, sizes and entries. `Tree.render` writes a tree
without any space between tokens. Members are written in the order in which the
tree has them, string literals piece by piece, so what is escaped is decided where
the literal is made (`RawText.ofString`).
-/

namespace NetReplay

namespace Json

/-- A hexadecimal digit in lower case. -/
def hexDigit (n : Nat) : UInt8 := if n < 10 then UInt8.ofNat (0x30 + n) else UInt8.ofNat (0x57 + n)

def Piece.render : Piece → List UInt8
  | byte b =>
    match RawText.shortEscape? b with
    | some letter => [0x5C, letter]
    | none => [b]
  | unit u =>
    let n := u.toNat
    [0x5C, 0x75, hexDigit (n / 4096), hexDigit (n / 256 % 16), hexDigit (n / 16 % 16),
      hexDigit (n % 16)]

def RawText.render (t : RawText) : List UInt8 := 0x22 :: t.flatMap Piece.render ++ [0x22]

def renderDigits (digits : List Nat) : List UInt8 := digits.map fun d => UInt8.ofNat (0x30 + d)

def Numeral.render (n : Numeral) : List UInt8 :=
  (if n.negative then [0x2D] else []) ++ renderDigits n.whole ++
    (match n.fraction with
      | some digits => 0x2E :: renderDigits digits
      | none => []) ++
    (match n.exponent with
      | some e =>
        0x65 :: (if e < 0 then [0x2D] else []) ++ renderDigits (Numeral.digitsOf e.natAbs)
      | none => [])

def wordBytes (text : String) : List UInt8 := text.toUTF8.toList

namespace Tree

/-- A text as a value. -/
def ofText (s : String) : Tree := .string (RawText.ofString s)

/-- A number as a value. -/
def ofNat (n : Nat) : Tree := .number (Numeral.ofNat n)

/-- A size as a value. -/
def ofWord (n : UInt64) : Tree := ofNat n.toNat

/-- Entries as members, with the literals written for their keys. -/
def membersOf (entries : List (String × Tree)) : List (RawText × Tree) :=
  entries.map fun e => (RawText.ofString e.1, e.2)

mutual

/-- The compact form of a value; nothing is written for one that is missing. -/
def render : Tree → List UInt8
  | .null => wordBytes "null"
  | .bool b => wordBytes (if b then "true" else "false")
  | .number n => n.render
  | .string t => RawText.render t
  | .array items _ => 0x5B :: renderItems items ++ [0x5D]
  | .object members _ => 0x7B :: renderMembers members ++ [0x7D]
  | .broken => []

def renderItems : List Tree → List UInt8
  | [] => []
  | [t] => render t
  | t :: rest => render t ++ 0x2C :: renderItems rest

def renderMembers : List (RawText × Tree) → List UInt8
  | [] => []
  | [(key, t)] => RawText.render key ++ 0x3A :: render t
  | (key, t) :: rest => RawText.render key ++ 0x3A :: render t ++ 0x2C :: renderMembers rest

end

end Tree

end Json

end NetReplay
