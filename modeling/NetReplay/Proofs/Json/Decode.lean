import NetReplay.Proofs.Json.RoundTrip
import NetReplay.Proofs.Table
import NetReplay.Weights.Builder

/-!
# Reading written values

Texts, sizes, lists and members that were written read back as what they were
written from. The members of an object come back as the table of their entries
(`membersByName_objectTree`), since no key occurs twice.
-/

namespace NetReplay

namespace Json

/-- A run that succeeds at every item gives the results in order. -/
theorem mapM_eq_ok {ε α β : Type} {f : α → Except ε β} {g : α → β} {l : List α}
    (h : ∀ a ∈ l, f a = .ok (g a)) : l.mapM f = .ok (l.map g) := by
  induction l with
  | nil => rfl
  | cons a l ih =>
      have ha := h a List.mem_cons_self
      have hl := ih fun b hb => h b (List.mem_cons_of_mem a hb)
      rw [List.mapM_cons, ha, hl]
      rfl

namespace Tree

theorem decodeText_ofString (s : String) : decodeText (RawText.ofString s) = .ok s := by
  rw [decodeText, RawText.decode?_ofString]

theorem list_array {α : Type} {read : Tree → Decoded α} {items : List Tree} {values : List α}
    (h : items.mapM read = .ok values) : list read (.array items true) = .ok values := by
  rw [list, h]
  rfl

theorem text_ofText (s : String) : (ofText s).text = .ok s :=
  decodeText_ofString s

theorem word_ofWord (w : UInt64) : (ofWord w).word = .ok w := by
  rw [ofWord, ofNat, word, Numeral.word?_ofNat]

theorem list_word_ofWord (dims : List UInt64) :
    list word (.array (dims.map ofWord) true) = .ok dims := by
  refine list_array ?_
  rw [List.mapM_map]
  have hwords : dims.mapM (fun d => (ofWord d).word) = .ok (dims.map id) :=
    mapM_eq_ok fun d _ => word_ofWord d
  rw [List.map_id] at hwords
  exact hwords

theorem written_ofText (room : Nat) (s : String) : (ofText s).Written room := .text room s

theorem written_ofWord (room : Nat) (w : UInt64) : (ofWord w).Written room :=
  .size room w.toNat w.toNat_lt

end Tree

end Json

namespace Weights

open Json

namespace Builder

theorem membersByName_membersOf (members : List (String × Tree)) :
    membersByName (Tree.membersOf members) = .ok (Table.ofList members) := by
  have hentries : (Tree.membersOf members).mapM
      (fun e => do pure (← Tree.decodeText e.1, e.2)) = Except.ok (members.map id) := by
    rw [Tree.membersOf, List.mapM_map]
    refine mapM_eq_ok fun m _ => ?_
    simp only [Function.comp_apply, Tree.decodeText_ofString]
    rfl
  rw [List.map_id] at hentries
  rw [membersByName]
  exact congrArg (· >>= fun entries => pure (Table.ofList entries)) hentries

/-- The members written for a table read back as the table. -/
theorem membersByName_objectTree (t : Table Tree) :
    membersByName (Tree.membersOf t.toList) = .ok t := by
  rw [membersByName_membersOf, Table.ofList_toList]

theorem written_objectTree {room : Nat} {t : Table Tree}
    (h : ∀ m ∈ t.toList, m.2.Written room) : (objectTree t).Written (room + 1) :=
  .object room t.toList h

end Builder

end Weights

end NetReplay
