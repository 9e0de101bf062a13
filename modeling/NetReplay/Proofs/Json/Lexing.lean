import NetReplay.Proofs.Json.Lexeme

/-!
# Cutting bytes into tokens

Bytes spell tokens when they are the lexemes of the tokens one after the other,
with blanks anywhere between them (`Lexes`) or with none (`Abuts`).

Cutting bytes finds the tokens that they spell. Whatever is cut is spelled
(`lexes_tokens`). Whatever is spelled is cut (`tokens_of_lexes`), as long as no two
numbers touch, whose digits would run together.
-/

namespace NetReplay

namespace Json

/-- The bytes are these tokens one after the other, with blanks anywhere between
them. -/
inductive Lexes : List UInt8 → List Token → Prop where
  | nil : Lexes [] []
  | space {b : UInt8} {s : List UInt8} {ts : List Token} (hb : isSpace b = true)
    (h : Lexes s ts) : Lexes (b :: s) ts
  | token {token : Token} {lexeme s : List UInt8} {ts : List Token}
    (ht : token.Spelled lexeme) (h : Lexes s ts) : Lexes (lexeme ++ s) (token :: ts)

/-- The bytes are these tokens one after the other, with nothing between them. -/
inductive Abuts : List UInt8 → List Token → Prop where
  | nil : Abuts [] []
  | token {token : Token} {lexeme s : List UInt8} {ts : List Token}
    (ht : token.Spelled lexeme) (h : Abuts s ts) : Abuts (lexeme ++ s) (token :: ts)

theorem Abuts.append {s u : List UInt8} {ts us : List Token} (hs : Abuts s ts)
    (hu : Abuts u us) : Abuts (s ++ u) (ts ++ us) := by
  induction hs with
  | nil => exact hu
  | token ht h ih =>
      rw [List.append_assoc]
      exact .token ht ih

/-- Tokens with nothing between them are lexed with whatever is behind them. -/
theorem Abuts.lexes_append {s u : List UInt8} {ts us : List Token} (hs : Abuts s ts)
    (hu : Lexes u us) : Lexes (s ++ u) (ts ++ us) := by
  induction hs with
  | nil => exact hu
  | token ht h ih =>
      rw [List.append_assoc]
      exact .token ht ih

theorem Token.Spelled.abuts {token : Token} {lexeme : List UInt8} (h : token.Spelled lexeme) :
    Abuts lexeme [token] := by
  have htoken := Abuts.token h .nil
  rwa [List.append_nil] at htoken

theorem lexes_replicate_space (n : Nat) : Lexes (List.replicate n 0x20) [] := by
  induction n with
  | zero => exact .nil
  | succ n ih => exact .space (by decide) ih

/-! ## What is cut is spelled -/

/-- What a scan that succeeds takes off the front is a lexeme of its token. -/
theorem spelled_of_scan {b : UInt8} {rest left : List UInt8} {token : Token}
    (h : scan b rest = (token, left)) (hbad : token ≠ .bad) :
    ∃ lexeme, token.Spelled lexeme ∧ b :: rest = lexeme ++ left := by
  unfold scan at h
  split at h
  · cases h; exact ⟨_, .openArray, rfl⟩
  · cases h; exact ⟨_, .closeArray, rfl⟩
  · cases h; exact ⟨_, .openObject, rfl⟩
  · cases h; exact ⟨_, .closeObject, rfl⟩
  · cases h; exact ⟨_, .colon, rfl⟩
  · cases h; exact ⟨_, .comma, rfl⟩
  · cases h; exact ⟨_, .null, rfl⟩
  · cases h; exact ⟨_, .true, rfl⟩
  · cases h; exact ⟨_, .false, rfl⟩
  · split at h
    · rename_i hscan
      cases h
      obtain ⟨body, hbody, rfl⟩ := spelled_of_scanText hscan
      exact ⟨_, .string hbody, by simp⟩
    · cases h
      exact absurd rfl hbad
  · split at h
    · rename_i hscan
      cases h
      obtain ⟨hsign, body, hbody, rfl⟩ := Numeral.spelled_of_scanNumeral hscan
      exact ⟨_, .negative hsign hbody, rfl⟩
    · cases h
      exact absurd rfl hbad
  · split at h
    · rename_i hscan
      cases h
      obtain ⟨hsign, body, hbody, hs⟩ := Numeral.spelled_of_scanNumeral hscan
      exact ⟨_, .positive hsign hbody, hs⟩
    · cases h
      exact absurd rfl hbad

/-- The tokens of bytes are spelled by them, unless the scan gets stuck. -/
theorem lexes_tokens (s : List UInt8) (hbad : .bad ∉ tokens s) : Lexes s (tokens s) := by
  fun_induction tokens s with
  | case1 => exact .nil
  | case2 b rest hspace ih => exact .space hspace (ih hbad)
  | case3 b rest hspace ih =>
      rw [List.mem_cons, not_or] at hbad
      obtain ⟨lexeme, hlexeme, hs⟩ := spelled_of_scan rfl (Ne.symm hbad.1)
      rw [hs]
      exact .token hlexeme (ih hbad.2)

/-! ## What is spelled is cut -/

/-- No number comes first. -/
def Unnumbered (ts : List Token) : Prop := ∀ n rest, ts ≠ .number n :: rest

/-- No number follows a number directly: their digits would run together. -/
def Separated : List Token → Prop
  | [] => True
  | token :: rest => (∀ n, token = .number n → Unnumbered rest) ∧ Separated rest

theorem delimited_of_isSpace {b : UInt8} (h : isSpace b = true) (s : List UInt8) :
    Delimited (b :: s) := by
  simp only [isSpace, Bool.or_eq_true, beq_iff_eq] at h
  rcases h with ((rfl | rfl) | rfl) | rfl <;> exact ⟨by decide, by decide, by decide, by decide⟩

theorem delimited_of_spelled {token : Token} {lexeme : List UInt8} (h : token.Spelled lexeme)
    (hnumber : ∀ n, token ≠ .number n) (s : List UInt8) : Delimited (lexeme ++ s) := by
  cases h with
  | positive _ _ => exact absurd rfl (hnumber _)
  | negative _ _ => exact absurd rfl (hnumber _)
  | _ => exact ⟨by decide, by decide, by decide, by decide⟩

theorem delimited_of_lexes {s : List UInt8} {ts : List Token} (h : Lexes s ts)
    (hts : Unnumbered ts) : Delimited s := by
  cases h with
  | nil => trivial
  | space hb _ => exact delimited_of_isSpace hb _
  | token ht _ => exact delimited_of_spelled ht (fun n hn => hts n _ (by rw [hn])) _

theorem tokens_of_scan {b : UInt8} {rest left : List UInt8} {token : Token}
    (hspace : isSpace b = false) (h : scan b rest = (token, left)) :
    tokens (b :: rest) = token :: tokens left := by
  rw [tokens_cons, hspace, h]
  rfl

/-- A digit starts a number and nothing else. -/
theorem scan_digit (d : Nat) (hd : d < 10) (rest : List UInt8) :
    isSpace (UInt8.ofNat (0x30 + d)) = false ∧
      scan (UInt8.ofNat (0x30 + d)) rest =
        match scanNumeral false (UInt8.ofNat (0x30 + d) :: rest) with
        | some (n, left) => (.number n, left)
        | none => (.bad, []) := by
  match d, hd with
  | 0, _ | 1, _ | 2, _ | 3, _ | 4, _ | 5, _ | 6, _ | 7, _ | 8, _ | 9, _ => exact ⟨rfl, rfl⟩

/-- A lexeme is cut off as its token; behind a number nothing may continue it. -/
theorem tokens_of_spelled {token : Token} {lexeme : List UInt8} (h : token.Spelled lexeme)
    {s : List UInt8} (hs : ∀ n, token = .number n → Delimited s) :
    tokens (lexeme ++ s) = token :: tokens s := by
  cases h with
  | string h =>
      rw [List.cons_append, List.append_assoc]
      refine tokens_of_scan (by decide) ?_
      rw [scan, List.singleton_append, scanText_of_spelled h]
  | @negative n body hsign h =>
      rw [List.cons_append]
      refine tokens_of_scan (by decide) ?_
      rw [scan, ← hsign, Numeral.scanNumeral_of_spelled h (hs n rfl)]
  | @positive n body hsign h =>
      have hscan := Numeral.scanNumeral_of_spelled h (hs n rfl)
      rw [hsign] at hscan
      obtain ⟨hwhole, hzero, hf, he⟩ := h
      obtain ⟨d, ds, rfl⟩ := List.exists_cons_of_ne_nil hwhole.ne_nil
      rw [renderDigits, List.map_cons, List.cons_append, List.cons_append] at hscan ⊢
      obtain ⟨hspace, hstart⟩ := scan_digit d (hwhole.lt_ten d List.mem_cons_self) _
      refine tokens_of_scan hspace (hstart.trans ?_)
      rw [hscan]
  | _ => exact tokens_of_scan (by decide) rfl

/-- Bytes that spell tokens are cut into these. -/
theorem tokens_of_lexes {s : List UInt8} {ts : List Token} (h : Lexes s ts)
    (hts : Separated ts) : tokens s = ts := by
  induction h with
  | nil => exact tokens_nil
  | space hb h ih => rw [tokens_cons, if_pos hb, ih hts]
  | token ht h ih =>
      rw [tokens_of_spelled ht fun n hn => delimited_of_lexes h (hts.1 n hn), ih hts.2]

end Json

end NetReplay
