import Mathlib.Data.List.Forall2
import NetReplay.Proofs.Json.Decode
import NetReplay.Proofs.Json.Grammar

/-!
# What readers accept

What a value means is put as a relation between trees and data (`IsText`, `IsWord`,
`IsList`), and a reader finds exactly that (`Reads`). These readers know a single
way to fail. Of several members with one name the last counts (`lastNamed?`), and
a whole document is read through the value that it spells (`document_eq_ok_iff`).
-/

namespace NetReplay

namespace Json

/-! ## Runs that may fail -/

/-- A run over a list succeeds when each item does. -/
theorem mapM_eq_ok_iff {ε α β : Type} {f : α → Except ε β} {l : List α} {m : List β} :
    l.mapM f = .ok m ↔ List.Forall₂ (fun a b => f a = .ok b) l m := by
  induction l generalizing m with
  | nil =>
      rw [List.mapM_nil, List.forall₂_nil_left_iff]
      constructor
      · intro h
        cases h
        rfl
      · rintro rfl
        rfl
  | cons a l ih =>
      rw [List.mapM_cons, List.forall₂_cons_left_iff]
      constructor
      · intro h
        cases hfirst : f a with
        | error e =>
            rw [hfirst] at h
            cases h
        | ok b =>
            cases hrest : l.mapM f with
            | error e =>
                rw [hfirst, hrest] at h
                cases h
            | ok bs =>
                rw [hfirst, hrest] at h
                cases h
                exact ⟨b, bs, rfl, ih.mp hrest, rfl⟩
      · rintro ⟨b, bs, hfirst, hrest, rfl⟩
        rw [hfirst, ih.mpr hrest]
        rfl

/-- A run over a list succeeds when every item has a result. -/
theorem exists_mapM_eq_ok_iff {ε α β : Type} {f : α → Except ε β} {l : List α} :
    (∃ m, l.mapM f = .ok m) ↔ ∀ a ∈ l, ∃ b, f a = .ok b := by
  simp only [mapM_eq_ok_iff]
  induction l with
  | nil => simp
  | cons a l ih =>
      simp only [List.forall₂_cons_left_iff, List.mem_cons, forall_eq_or_imp, ← ih]
      constructor
      · rintro ⟨_, b, bs, hb, hbs, rfl⟩
        exact ⟨⟨b, hb⟩, bs, hbs⟩
      · rintro ⟨⟨b, hb⟩, bs, hbs⟩
        exact ⟨_, b, bs, hb, hbs, rfl⟩

/-- A run over a list fails with the failure of one of its items. -/
theorem exists_of_mapM_eq_error {ε α β : Type} {f : α → Except ε β} {l : List α} {e : ε}
    (h : l.mapM f = .error e) : ∃ a ∈ l, f a = .error e := by
  induction l with
  | nil => cases h
  | cons a l ih =>
      rw [List.mapM_cons] at h
      cases hfirst : f a with
      | error c =>
          rw [hfirst] at h
          cases h
          exact ⟨a, List.mem_cons_self, hfirst⟩
      | ok b =>
          cases hrest : l.mapM f with
          | error c =>
              rw [hfirst, hrest] at h
              cases h
              obtain ⟨x, hx, hfail⟩ := ih hrest
              exact ⟨x, List.mem_cons_of_mem a hx, hfail⟩
          | ok bs =>
              rw [hfirst, hrest] at h
              cases h

/-! ## Values -/

namespace Tree

/-- The value is a literal of this text. -/
def IsText (t : Tree) (text : String) : Prop :=
  ∃ raw : RawText, t = .string raw ∧ raw.decode? = some text

/-- The value is this size: a plain run of digits that fits in a word. -/
def IsWord (t : Tree) (w : UInt64) : Prop :=
  ∃ digits, t = .number ⟨false, digits, none, none⟩ ∧ Numeral.valueOf digits = w.toNat

variable {α β : Type}

/-- The value is a whole list, and its items mean these data one by one. -/
def IsList (means : Tree → α → Prop) (t : Tree) (as : List α) : Prop :=
  ∃ items, t = .array items true ∧ List.Forall₂ means items as

/-- A reader that finds what a value means, and calls everything else invalid. -/
structure Reads (read : Tree → Decoded α) (means : Tree → α → Prop) : Prop where
  ok_iff : ∀ t a, read t = .ok a ↔ means t a
  invalid : ∀ t cause, read t = .error cause → cause = .invalid

namespace Reads

variable {read : Tree → Decoded α} {means : Tree → α → Prop}

/-- A reader fails where the value means nothing, and only there. -/
theorem eq_error_iff (h : Reads read means) (t : Tree) (cause : DecodeError) :
    read t = .error cause ↔ cause = .invalid ∧ ¬ ∃ a, means t a := by
  constructor
  · intro hread
    refine ⟨h.invalid t cause hread, ?_⟩
    rintro ⟨a, ha⟩
    rw [(h.ok_iff t a).mpr ha] at hread
    cases hread
  · rintro ⟨rfl, hnot⟩
    cases hread : read t with
    | ok a => exact absurd ⟨a, (h.ok_iff t a).mp hread⟩ hnot
    | error cause => rw [h.invalid t cause hread]

end Reads

theorem reads_text : Reads text IsText where
  ok_iff t s := by
    cases t with
    | string raw =>
        rw [text, decodeText]
        cases hraw : raw.decode? <;> simp [IsText, hraw]
    | _ => simp [text, IsText]
  invalid t cause h := by
    cases t with
    | string raw =>
        rw [text, decodeText] at h
        cases hraw : raw.decode? with
        | none =>
            rw [hraw] at h
            cases h
            rfl
        | some s =>
            rw [hraw] at h
            cases h
    | _ =>
        cases h
        rfl

theorem isText_ofText (s : String) : (ofText s).IsText s :=
  (reads_text.ok_iff _ s).mp (text_ofText s)

theorem word?_eq_some_iff (n : Numeral) (w : UInt64) :
    n.word? = some w ↔
      n = ⟨false, n.whole, none, none⟩ ∧ Numeral.valueOf n.whole = w.toNat := by
  obtain ⟨negative, whole, fraction, exponent⟩ := n
  have hw : w.toNat < UInt64.size := w.toNat_lt
  rw [Numeral.word?]
  dsimp only
  constructor
  · intro h
    split at h
    · cases h
    · rename_i hplain
      simp only [Bool.or_eq_true, not_or, Bool.not_eq_true, Option.isSome_eq_false_iff,
        Option.isNone_iff_eq_none] at hplain
      obtain ⟨⟨rfl, rfl⟩, rfl⟩ := hplain
      split at h
      · rename_i hfits
        cases h
        exact ⟨rfl, (UInt64.toNat_ofNat_of_lt' hfits).symm⟩
      · cases h
  · rintro ⟨heq, hvalue⟩
    cases heq
    rw [if_neg (by simp), hvalue, if_pos hw, UInt64.ofNat_toNat]

theorem reads_word : Reads word IsWord where
  ok_iff t w := by
    cases t with
    | number n =>
        have hiff := word?_eq_some_iff n w
        rw [word, IsWord]
        cases hn : n.word? with
        | none =>
            rw [hn] at hiff
            constructor
            · intro h
              cases h
            · rintro ⟨digits, heq, hvalue⟩
              cases heq
              exact absurd (hiff.mpr ⟨rfl, hvalue⟩) (by simp)
        | some v =>
            rw [hn] at hiff
            constructor
            · intro h
              cases h
              obtain ⟨heq, hvalue⟩ := hiff.mp rfl
              exact ⟨n.whole, congrArg Tree.number heq, hvalue⟩
            · rintro ⟨digits, heq, hvalue⟩
              cases heq
              exact congrArg Except.ok (Option.some.inj (hiff.mpr ⟨rfl, hvalue⟩))
    | _ => simp [word, IsWord]
  invalid t cause h := by
    cases t with
    | number n =>
        rw [word] at h
        cases hn : n.word? with
        | none =>
            rw [hn] at h
            cases h
            rfl
        | some w =>
            rw [hn] at h
            cases h
    | _ =>
        cases h
        rfl

theorem isWord_ofWord (w : UInt64) : (ofWord w).IsWord w :=
  (reads_word.ok_iff _ w).mp (word_ofWord w)

/-- A list is read by reading its items. -/
theorem Reads.list {read : Tree → Decoded α} {means : Tree → α → Prop} (h : Reads read means) :
    Reads (list read) (IsList means) where
  ok_iff t as := by
    cases t with
    | array items whole =>
        have hitems : items.mapM read = .ok as ↔ List.Forall₂ means items as :=
          mapM_eq_ok_iff.trans (by simp only [h.ok_iff])
        rw [Tree.list, IsList]
        constructor
        · intro hread
          cases hrun : items.mapM read with
          | error cause =>
              rw [hrun] at hread
              cases hread
          | ok bs =>
              rw [hrun] at hread hitems
              cases whole with
              | false => cases hread
              | true =>
                  cases hread
                  exact ⟨items, rfl, hitems.mp rfl⟩
        · rintro ⟨_, heq, hmeans⟩
          cases heq
          rw [hitems.mpr hmeans]
          rfl
    | _ => simp [Tree.list, IsList]
  invalid t cause hread := by
    cases t with
    | array items whole =>
        rw [Tree.list] at hread
        cases hrun : items.mapM read with
        | error c =>
            rw [hrun] at hread
            cases hread
            obtain ⟨u, -, hu⟩ := exists_of_mapM_eq_error hrun
            exact h.invalid u cause hu
        | ok bs =>
            rw [hrun] at hread
            cases whole <;> cases hread
            rfl
    | _ =>
        cases hread
        rfl

/-! ## Members -/

/-- The value of the last member of this name. -/
def lastNamed? (members : List (RawText × Tree)) (name : String) : Option Tree :=
  (members.reverse.find? fun m => m.1.decode? == some name).map Prod.snd

theorem lastNamed?_append (front back : List (RawText × Tree)) (name : String) :
    lastNamed? (front ++ back) name = (lastNamed? back name).or (lastNamed? front name) := by
  rw [lastNamed?, List.reverse_append, List.find?_append, Option.map_or]
  rfl

theorem lastNamed?_cons (key : RawText) (t : Tree) (rest : List (RawText × Tree))
    (name : String) :
    lastNamed? ((key, t) :: rest) name =
      (lastNamed? rest name).or (if key.decode? = some name then some t else none) := by
  rw [← List.singleton_append, lastNamed?_append]
  by_cases h : key.decode? = some name <;> simp [lastNamed?, h]

/-- A member, and the entry that it is read as. -/
def Names (m : RawText × Tree) (entry : String × Tree) : Prop :=
  m.1.decode? = some entry.1 ∧ m.2 = entry.2

theorem lookup_of_names {members : List (RawText × Tree)} {entries : List (String × Tree)}
    (h : List.Forall₂ Names members entries) (name : String) :
    entries.lookup name =
      (members.find? fun m => m.1.decode? == some name).map Prod.snd := by
  induction h with
  | nil => rfl
  | @cons m entry members entries hm _ ih =>
      obtain ⟨key, t⟩ := entry
      obtain ⟨hkey, hvalue⟩ := hm
      rw [Table.lookup_entry, List.find?_cons, hkey, ih]
      by_cases hname : name = key
      · rw [if_pos hname, hname, beq_self_eq_true, Option.map_some, hvalue]
      · have hother : (some key == some name) = false :=
          beq_eq_false_iff_ne.mpr fun heq => hname (Option.some.inj heq).symm
        rw [if_neg hname, hother]

/-- The last entry of a name is that of the last member of the name. -/
theorem get?_ofList_of_names {members : List (RawText × Tree)} {entries : List (String × Tree)}
    (h : List.Forall₂ Names members entries) (name : String) :
    (Table.ofList entries).get? name = lastNamed? members name := by
  rw [Table.get?_ofList, lookup_of_names (List.rel_reverse h), lastNamed?]

theorem exists_mem_of_lastNamed? {members : List (RawText × Tree)} {name : String} {t : Tree}
    (h : lastNamed? members name = some t) :
    ∃ m ∈ members, m.1.decode? = some name ∧ m.2 = t := by
  rw [lastNamed?, Option.map_eq_some_iff] at h
  obtain ⟨m, hfind, ht⟩ := h
  exact ⟨m, List.mem_reverse.mp (List.mem_of_find?_eq_some hfind),
    by simpa using List.find?_some hfind, ht⟩

/-- The keys of settled members are texts, and their values are settled. -/
theorem settled_of_mem_members {room : Nat} {members : List (RawText × Tree)}
    (h : settledMembers room members = true) {m : RawText × Tree} (hm : m ∈ members) :
    m.1.decode?.isSome ∧ m.2.settled room = true := by
  induction members with
  | nil => cases hm
  | cons n members ih =>
      obtain ⟨key, t⟩ := n
      rw [settledMembers, Bool.and_eq_true, Bool.and_eq_true] at h
      rcases List.mem_cons.mp hm with rfl | hm
      · exact h.1
      · exact ih h.2 hm

theorem settled_object {room : Nat} {members : List (RawText × Tree)} {whole : Bool}
    (h : (Tree.object members whole).settled room = true) :
    whole = true ∧ settledMembers (room - 1) members = true := by
  rw [settled, Bool.and_eq_true, Bool.and_eq_true] at h
  exact ⟨h.1.1, h.2⟩

theorem settled_of_lastNamed? {room : Nat} {members : List (RawText × Tree)} {whole : Bool}
    (h : (Tree.object members whole).settled room = true) {name : String} {t : Tree}
    (ht : lastNamed? members name = some t) : t.settled (room - 1) = true := by
  obtain ⟨m, hm, -, rfl⟩ := exists_mem_of_lastNamed? ht
  exact (settled_of_mem_members (settled_object h).2 hm).2

end Tree

/-! ## Documents -/

section

variable {α : Type} {read : Tree → Decoded α}

/-- A document is read by reading the value that it spells, when the reader takes what
the tokens are arranged as only where that is whole. -/
theorem document_eq_ok_iff {s : List UInt8}
    (hwhole : ∀ a, read (Tree.ofTokens (tokens s)).1 = .ok a → (Tree.ofTokens (tokens s)).1.Whole)
    (a : α) : document read s = .ok a ↔ ∃ t : Tree, t.Spelled s ∧ read t = .ok a := by
  constructor
  · intro h
    rw [document] at h
    cases harrange : Tree.ofTokens (tokens s) with
    | mk t behind =>
        rw [harrange] at h hwhole
        dsimp only at h hwhole
        cases hread : read t with
        | error cause =>
            rw [hread] at h
            cases h
        | ok b =>
            rw [hread] at h
            cases behind with
            | cons token rest => cases h
            | nil =>
                cases h
                exact ⟨t, (ofTokens_eq_iff (hwhole a hread) s).mp harrange, hread⟩
  · rintro ⟨t, hspelled, hread⟩
    rw [document_of_spelled read hspelled, hread]

theorem document_invalid (hinvalid : ∀ t cause, read t = .error cause → cause = .invalid)
    {s : List UInt8} {cause : DecodeError} (h : document read s = .error cause) :
    cause = .invalid := by
  rw [document] at h
  cases harrange : Tree.ofTokens (tokens s) with
  | mk t behind =>
      rw [harrange] at h
      dsimp only at h
      cases hread : read t with
      | error c =>
          rw [hread] at h
          cases h
          exact hinvalid t cause hread
      | ok a =>
          rw [hread] at h
          cases behind <;> cases h
          rfl

end

end Json

end NetReplay
