import NetReplay.Proofs.Json.Grammar
import NetReplay.Proofs.Json.Literal

/-!
# Written documents read back

What this library writes for a tree are its tokens with nothing between them
(`abuts_render`). This spells the tree (`spelled_render`), so a written document
reads back as the tree that was written, also with spaces behind it
(`document_render`).

`Written` is an inductive predicate, so this goes by induction on the shape of the
tree. `Written room` bounds in addition how deep the containers are nested, which
is what readers with a limit ask for (`settled_of_written`).
-/

namespace NetReplay

namespace Json

namespace Tree

/-- A value as this library writes it, with at most `room` containers inside
each other. -/
inductive Written : Nat → Tree → Prop where
  | text (room : Nat) (s : String) : Written room (.string (RawText.ofString s))
  | size (room n : Nat) (h : n < UInt64.size) : Written room (.number (Numeral.ofNat n))
  | array (room : Nat) (items : List Tree) (h : ∀ t ∈ items, Written room t) :
    Written (room + 1) (.array items true)
  | object (room : Nat) (members : List (String × Tree)) (h : ∀ m ∈ members, Written room m.2) :
    Written (room + 1) (.object (membersOf members) true)

/-! ## The bytes of written values -/

theorem abuts_renderItems {items : List Tree} (h : ∀ t ∈ items, Abuts t.render t.tokens) :
    Abuts (renderItems items) (itemTokens items) := by
  induction items with
  | nil => exact .nil
  | cons t items ih =>
      have ht := h t List.mem_cons_self
      have hrest := ih fun u hu => h u (List.mem_cons_of_mem t hu)
      cases items with
      | nil => exact ht
      | cons u items => exact ht.append (.token .comma hrest)

theorem abuts_renderMembers {members : List (String × Tree)}
    (h : ∀ m ∈ members, Abuts m.2.render m.2.tokens) :
    Abuts (renderMembers (membersOf members)) (memberTokens (membersOf members)) := by
  induction members with
  | nil => exact .nil
  | cons m members ih =>
      have hkey := (RawText.spelled_render_ofString m.1).abuts
      have hm := hkey.append (.token .colon (h m List.mem_cons_self))
      have hrest := ih fun n hn => h n (List.mem_cons_of_mem m hn)
      cases members with
      | nil => exact hm
      | cons n members => exact hm.append (.token .comma hrest)

/-- What is written for a value are its tokens with nothing between them. -/
theorem abuts_render {room : Nat} {t : Tree} (h : Written room t) : Abuts t.render t.tokens := by
  induction h with
  | text room s => exact (RawText.spelled_render_ofString s).abuts
  | size room n h => exact (Numeral.spelled_render_ofNat n).abuts
  | array room items h ih =>
      have hopen := Token.Spelled.openArray.abuts.append (abuts_renderItems ih)
      exact hopen.append Token.Spelled.closeArray.abuts
  | object room members h ih =>
      have hopen := Token.Spelled.openObject.abuts.append (abuts_renderMembers ih)
      exact hopen.append Token.Spelled.closeObject.abuts

/-- A written value is settled. -/
theorem settled_of_written {room : Nat} {t : Tree} (h : Written room t) : t.settled room := by
  induction h with
  | text room s => simp [settled, RawText.decode?_ofString]
  | size room n h => simp [settled, Numeral.finite_ofNat h]
  | array room items h ih =>
      have hitems : settledItems room items := by
        clear h
        induction items with
        | nil => rfl
        | cons t items ihi =>
            have := ihi fun u hu => ih u (List.mem_cons_of_mem t hu)
            simp [settledItems, ih t List.mem_cons_self, this]
      simp [settled, hitems]
  | object room members h ih =>
      have hmembers : settledMembers room (membersOf members) := by
        clear h
        induction members with
        | nil => rfl
        | cons m members ihm =>
            have hrest := ihm fun n hn => ih n (List.mem_cons_of_mem m hn)
            rw [membersOf] at hrest
            simp [membersOf, settledMembers, ih m List.mem_cons_self, hrest,
              RawText.decode?_ofString]
      simp [settled, hmembers]

/-- What is written for a value spells it, also with spaces behind it. -/
theorem spelled_render {room : Nat} {t : Tree} (h : Written room t) (n : Nat) :
    t.Spelled (t.render ++ List.replicate n 0x20) where
  whole := whole_of_settled (settled_of_written h)
  lexes := by
    have hlexes := (abuts_render h).lexes_append (lexes_replicate_space n)
    rwa [List.append_nil] at hlexes

end Tree

/-- A written document reads back as the value that was written, also with
spaces behind it. -/
theorem document_render {α : Type} (read : Tree → Decoded α) {room : Nat} {t : Tree}
    (h : t.Written room) (n : Nat) :
    document read (t.render ++ List.replicate n 0x20) = read t :=
  document_of_spelled read (Tree.spelled_render h n)

end Json

end NetReplay
