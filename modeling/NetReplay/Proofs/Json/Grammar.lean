import NetReplay.Json.Decode
import NetReplay.Proofs.Json.Arrangement
import NetReplay.Proofs.Json.Lexing

/-!
# The grammar of documents

A document spells a value (`Tree.Spelled`) when its lexemes are the tokens of the
value, with blanks anywhere between them. Reading a document as a tree finds
exactly the value that it spells (`ofTokens_eq_iff`).
-/

namespace NetReplay

namespace Json

namespace Tree

/-- The bytes spell a value, of which nothing is missing. -/
structure Spelled (t : Tree) (s : List UInt8) : Prop where
  whole : t.Whole
  lexes : Lexes s t.tokens

/-! ## The tokens of a value -/

theorem separated_cons {token : Token} (h : ∀ n, token ≠ .number n) {ts : List Token}
    (hts : Separated ts) : Separated (token :: ts) :=
  ⟨fun n hn => absurd hn (h n), hts⟩

theorem unnumbered_cons {token : Token} (h : ∀ n, token ≠ .number n) (ts : List Token) :
    Unnumbered (token :: ts) :=
  fun n _ heq => h n (List.cons.inj heq).1

/-- In front of what does not start with a number, the numbers of a value stay
apart. -/
def KeepsApart (t : Tree) : Prop :=
  ∀ rest, Unnumbered rest → Separated rest → Separated (t.tokens ++ rest)

theorem separated_items {items : List Tree} (h : ∀ t ∈ items, t.KeepsApart) {rest : List Token}
    (hrest : Separated rest) :
    Unnumbered ((items.flatMap fun u => .comma :: u.tokens) ++ .closeArray :: rest) ∧
      Separated ((items.flatMap fun u => .comma :: u.tokens) ++ .closeArray :: rest) := by
  induction items with
  | nil => exact ⟨unnumbered_cons (by simp) _, separated_cons (by simp) hrest⟩
  | cons t items ih =>
      obtain ⟨hnumber, happart⟩ := ih fun u hu => h u (List.mem_cons_of_mem t hu)
      have ht := h t List.mem_cons_self _ hnumber happart
      rw [List.flatMap_cons, List.cons_append, List.cons_append, List.append_assoc]
      exact ⟨unnumbered_cons (by simp) _, separated_cons (by simp) ht⟩

theorem separated_members {members : List (RawText × Tree)} (h : ∀ m ∈ members, m.2.KeepsApart)
    {rest : List Token} (hrest : Separated rest) :
    Unnumbered ((members.flatMap fun n => .comma :: .string n.1 :: .colon :: n.2.tokens) ++
        .closeObject :: rest) ∧
      Separated ((members.flatMap fun n => .comma :: .string n.1 :: .colon :: n.2.tokens) ++
        .closeObject :: rest) := by
  induction members with
  | nil => exact ⟨unnumbered_cons (by simp) _, separated_cons (by simp) hrest⟩
  | cons m members ih =>
      obtain ⟨hnumber, happart⟩ := ih fun n hn => h n (List.mem_cons_of_mem m hn)
      have hm := h m List.mem_cons_self _ hnumber happart
      simp only [List.flatMap_cons, List.cons_append, List.append_assoc]
      exact ⟨unnumbered_cons (by simp) _, separated_cons (by simp)
        (separated_cons (by simp) (separated_cons (by simp) hm))⟩

theorem keepsApart_of_whole {t : Tree} (h : Whole t) : t.KeepsApart := by
  induction h with
  | number n => exact fun rest hnumber hrest => ⟨fun _ _ => hnumber, hrest⟩
  | array items h ih =>
      intro rest _ hrest
      rw [tokens, List.cons_append, List.cons_append, List.append_assoc, List.singleton_append]
      refine separated_cons (by simp) ?_
      cases items with
      | nil => exact separated_cons (by simp) hrest
      | cons t items =>
          obtain ⟨hnumber, happart⟩ :=
            separated_items (fun u hu => ih u (List.mem_cons_of_mem t hu)) hrest
          rw [itemTokens_cons, List.append_assoc]
          exact ih t List.mem_cons_self _ hnumber happart
  | object members h ih =>
      intro rest _ hrest
      rw [tokens, List.cons_append, List.cons_append, List.append_assoc, List.singleton_append]
      refine separated_cons (by simp) ?_
      cases members with
      | nil => exact separated_cons (by simp) hrest
      | cons m members =>
          obtain ⟨hnumber, happart⟩ :=
            separated_members (fun n hn => ih n (List.mem_cons_of_mem m hn)) hrest
          have hm := ih m List.mem_cons_self _ hnumber happart
          simp only [memberTokens_cons, List.cons_append, List.append_assoc]
          exact separated_cons (by simp) (separated_cons (by simp) hm)
  | _ => exact fun rest _ hrest => separated_cons (by simp) hrest

theorem bad_notMem_tokens {t : Tree} (h : Whole t) : .bad ∉ t.tokens := by
  induction h with
  | array items h ih =>
      cases items with
      | nil => simp [tokens, itemTokens]
      | cons t items =>
          simp only [List.mem_cons, forall_eq_or_imp] at ih
          simpa [tokens, itemTokens_cons, ih.1] using fun u hu => ih.2 u hu
  | object members h ih =>
      cases members with
      | nil => simp [tokens, memberTokens]
      | cons m members =>
          simp only [List.mem_cons, forall_eq_or_imp] at ih
          simpa [tokens, memberTokens_cons, ih.1] using fun key u hu => ih.2 (key, u) hu
  | _ => simp [tokens]

end Tree

open NetReplay.Json.Tree

/-! ## Documents -/

/-- A document with just the tokens of a value spells it. -/
theorem spelled_of_tokens_eq {t : Tree} (hwhole : t.Whole) {s : List UInt8}
    (h : Json.tokens s = t.tokens) : t.Spelled s := by
  refine ⟨hwhole, ?_⟩
  rw [← h]
  exact lexes_tokens s (h ▸ bad_notMem_tokens hwhole)

/-- A document is read as the value that it spells. -/
theorem ofTokens_eq_iff {t : Tree} (hwhole : t.Whole) (s : List UInt8) :
    ofTokens (Json.tokens s) = (t, []) ↔ t.Spelled s := by
  constructor
  · intro h
    have hstart : Await.value.Started := trivial
    have htokens : t.tokens ++ [] = Json.tokens s := tokens_of_arrange hstart h hwhole
    rw [List.append_nil] at htokens
    exact spelled_of_tokens_eq hwhole htokens.symm
  · intro h
    have hapart := keepsApart_of_whole hwhole [] (fun _ _ heq => by cases heq) trivial
    rw [List.append_nil] at hapart
    rw [tokens_of_lexes h.lexes hapart, ofTokens_tokens hwhole]

/-- The value is what readers of the document see, with nothing behind it. -/
theorem document_of_spelled {α : Type} (read : Tree → Decoded α) {t : Tree} {s : List UInt8}
    (h : t.Spelled s) : document read s = read t := by
  simp only [document, (ofTokens_eq_iff h.whole s).mpr h]
  cases read t <;> rfl

mutual

/-- What is settled is whole. -/
theorem whole_of_settled {room : Nat} : {t : Tree} → t.settled room = true → t.Whole
  | .null, _ => .null
  | .bool b, _ => .bool b
  | .number n, _ => .number n
  | .string t, _ => .string t
  | .array items whole, h => by
    rw [settled, Bool.and_eq_true, Bool.and_eq_true] at h
    rw [h.1.1]
    exact .array items (whole_of_settledItems h.2)
  | .object members whole, h => by
    rw [settled, Bool.and_eq_true, Bool.and_eq_true] at h
    rw [h.1.1]
    exact .object members (whole_of_settledMembers h.2)

theorem whole_of_settledItems {room : Nat} :
    {items : List Tree} → settledItems room items = true → ∀ t ∈ items, t.Whole
  | [], _, t, ht => absurd ht List.not_mem_nil
  | u :: rest, h, t, ht => by
    rw [settledItems, Bool.and_eq_true] at h
    rcases List.mem_cons.mp ht with heq | ht
    · exact heq ▸ whole_of_settled h.1
    · exact whole_of_settledItems h.2 t ht

theorem whole_of_settledMembers {room : Nat} :
    {members : List (RawText × Tree)} → settledMembers room members = true →
      ∀ m ∈ members, m.2.Whole
  | [], _, m, hm => absurd hm List.not_mem_nil
  | (key, u) :: rest, h, m, hm => by
    rw [settledMembers, Bool.and_eq_true, Bool.and_eq_true] at h
    rcases List.mem_cons.mp hm with heq | hm
    · exact heq ▸ whole_of_settled h.1.2
    · exact whole_of_settledMembers h.2 m hm

end

end Json

end NetReplay
