/-!
# Blank characters and spelling-insensitive words

Words given by a user are read without regard to blanks around them and to the
case of ASCII letters. Blank are the characters with the Unicode property
White_Space; the zero-width space and the byte order mark do not have it.
`trim` removes blanks at both ends, `fold` also brings ASCII letters to lower
case, and `isBlank` says that nothing but blanks is there.
-/

namespace NetReplay

namespace Text

/-- Whether a character has the Unicode property White_Space. -/
def blank (c : Char) : Bool :=
  let n := c.toNat
  (0x09 ≤ n && n ≤ 0x0D) || n == 0x20 || n == 0x85 || n == 0xA0 || n == 0x1680 ||
    (0x2000 ≤ n && n ≤ 0x200A) || n == 0x2028 || n == 0x2029 || n == 0x202F ||
    n == 0x205F || n == 0x3000

def trimChars (cs : List Char) : List Char :=
  ((cs.dropWhile blank).reverse.dropWhile blank).reverse

def trim (text : String) : String := String.ofList (trimChars text.toList)

def isBlank (text : String) : Bool := text.toList.all blank

/-- A character with ASCII capitals brought to lower case; all others stay. -/
def lowerChar (c : Char) : Char :=
  if 'A' ≤ c ∧ c ≤ 'Z' then Char.ofNat (c.toNat + 32) else c

def lower (text : String) : String := String.ofList (text.toList.map lowerChar)

/-- A text without blanks around it and in lower case. -/
def fold (text : String) : String :=
  String.ofList ((trimChars text.toList).map lowerChar)

theorem trimChars_eq_nil_iff (cs : List Char) :
    trimChars cs = [] ↔ ∀ c ∈ cs, blank c = true := by
  have hnil : ∀ l : List Char, l.dropWhile blank = [] ↔ ∀ c ∈ l, blank c = true := by
    intro l
    induction l with
    | nil => simp
    | cons c l ih => by_cases h : blank c <;> simp [h, ih]
  rw [trimChars, List.reverse_eq_nil_iff, hnil]
  constructor
  · intro h
    refine (hnil cs).mp ?_
    cases hd : cs.dropWhile blank with
    | nil => rfl
    | cons c l =>
        have hc : blank c = true := h c (by simp [hd])
        have := List.head?_dropWhile_not blank cs
        rw [hd] at this
        simp [hc] at this
  · intro h c hc
    exact h c ((List.dropWhile_sublist blank).mem (List.mem_reverse.mp hc))

end Text

end NetReplay
