import NetReplay.Proofs.Weights.Visit

/-!
# Which containers are accepted

Reading a container goes through a fixed order of checks. `Store.Refused` lists
them as a relation between the bytes and the first failure: the length field,
the header as a document, then its members in the order of the bytes of their
names. Reading fails with an error exactly when the bytes are refused with it,
and succeeds exactly when every check passes (`Store.ofBytes_decides`).
-/

namespace NetReplay

namespace Weights

open Json

/-! ## Headers as documents -/

namespace Header

/-- The document is an object, sound all through, with these members: the last
of each name, in the order of the bytes of the names. -/
def Lists (s : List UInt8) (entries : List (String × Tree)) : Prop :=
  ∃ members, (Tree.object members true).Spelled s ∧
    (Tree.object members true).settled Tree.nestingLimit = true ∧
    (entries.map Prod.fst).Pairwise (fun j k => j.toUTF8.toList < k.toUTF8.toList) ∧
    ∀ name t, (name, t) ∈ entries ↔ Tree.lastNamed? members name = some t

theorem settled_of_lists {s : List UInt8} {entries : List (String × Tree)}
    (h : Lists s entries) : ∀ m ∈ entries, m.2.settled (Tree.nestingLimit - 1) = true := by
  obtain ⟨members, -, hsettled, -, hentries⟩ := h
  exact fun m hm => Tree.settled_of_lastNamed? hsettled ((hentries m.1 m.2).mp hm)

/-- Entries that a document lists are those of a table. -/
theorem exists_toList_of_lists {s : List UInt8} {entries : List (String × Tree)}
    (h : Lists s entries) : ∃ table : Table Tree, table.toList = entries := by
  obtain ⟨members, -, -, hordered, -⟩ := h
  exact ⟨⟨entries, hordered.imp fun {_ _} hlt => (Text.lt_iff_utf8_lt _ _).mpr hlt⟩, rfl⟩

/-- Reads a value as the members of a header. -/
def membersOf : Tree → Decoded (Table Tree)
  | .object members whole =>
    if (Tree.object members whole).settled Tree.nestingLimit then membersByName members
    else throw .invalid
  | _ => throw .invalid

theorem members_eq (s : List UInt8) : members s = document membersOf s := by
  rw [members]
  congr 1
  funext t
  cases t <;> rfl

theorem membersOf_eq_ok_iff (t : Tree) (table : Table Tree) :
    membersOf t = .ok table ↔
      ∃ members, t = .object members true ∧ t.settled Tree.nestingLimit = true ∧
        ∀ name u, (name, u) ∈ table.toList ↔ Tree.lastNamed? members name = some u := by
  constructor
  · intro h
    cases t with
    | object members whole =>
        rw [membersOf] at h
        split at h
        · rename_i hsettled
          obtain ⟨rfl, -⟩ := Tree.settled_object hsettled
          refine ⟨members, rfl, hsettled, fun name u => ?_⟩
          rw [Table.mem_toList_iff, get?_of_membersByName h]
        · cases h
    | _ => cases h
  · rintro ⟨members, rfl, hsettled, hentries⟩
    obtain ⟨found, hfound⟩ := exists_membersByName_of_settled hsettled
    rw [membersOf, if_pos hsettled, hfound]
    refine congrArg Except.ok (Table.ext_get? fun name => Option.ext fun u => ?_)
    rw [get?_of_membersByName hfound, ← hentries, Table.mem_toList_iff]

theorem membersOf_invalid (t : Tree) (cause : DecodeError) (h : membersOf t = .error cause) :
    cause = .invalid := by
  cases t with
  | object members whole =>
      rw [membersOf] at h
      split at h
      · rename_i hsettled
        obtain ⟨table, htable⟩ := exists_membersByName_of_settled hsettled
        rw [htable] at h
        cases h
      · cases h
        rfl
  | _ =>
      cases h
      rfl

/-- The members of a header are those that the document lists. -/
theorem members_eq_ok_iff (s : List UInt8) (table : Table Tree) :
    members s = .ok table ↔ Lists s table.toList := by
  rw [members_eq, document_eq_ok_iff]
  · simp only [membersOf_eq_ok_iff]
    constructor
    · rintro ⟨_, hspelled, members, rfl, hsettled, hentries⟩
      exact ⟨members, hspelled, hsettled, table.pairwise_utf8_keys, hentries⟩
    · rintro ⟨members, hspelled, hsettled, -, hentries⟩
      exact ⟨_, hspelled, members, rfl, hsettled, hentries⟩
  · intro found hfound
    obtain ⟨-, -, hsettled, -⟩ := (membersOf_eq_ok_iff _ found).mp hfound
    exact whole_of_settled hsettled

theorem members_eq_error_iff (s : List UInt8) (cause : DecodeError) :
    members s = .error cause ↔ cause = .invalid ∧ ¬ ∃ entries, Lists s entries := by
  constructor
  · intro h
    refine ⟨document_invalid membersOf_invalid (members_eq s ▸ h), ?_⟩
    rintro ⟨entries, hlists⟩
    obtain ⟨table, rfl⟩ := exists_toList_of_lists hlists
    rw [(members_eq_ok_iff s table).mpr hlists] at h
    cases h
  · rintro ⟨rfl, hnot⟩
    cases hmembers : members s with
    | ok table => exact absurd ⟨_, (members_eq_ok_iff s table).mp hmembers⟩ hnot
    | error cause =>
        exact congrArg Except.error (document_invalid membersOf_invalid (members_eq s ▸ hmembers))

/-- Why a header is refused: it is no such document, or it has a first member
with a defect. -/
inductive Refused (available : Nat) (s : List UInt8) : Error → Prop
  | unlisted (h : ¬ ∃ entries, Lists s entries) :
      Refused available s (.corruptHeader (.unreadable .invalid))
  | member {front back : List (String × Tree)} {name : String} {t : Tree} {e : Error}
      (hlists : Lists s (front ++ (name, t) :: back))
      (hfront : ∀ m ∈ front, Accepts available m.1 m.2)
      (hdefect : Defect available name t e) : Refused available s e

/-- A header without defect. -/
def Accepted (available : Nat) (s : List UInt8) : Prop :=
  ∃ entries, Lists s entries ∧ ∀ m ∈ entries, Accepts available m.1 m.2

theorem read_of_lists {s : List UInt8} {entries : List (String × Tree)} (available : Nat)
    (h : Lists s entries) : read available s = visitAll available ⟨.empty, .empty⟩ entries := by
  obtain ⟨table, rfl⟩ := exists_toList_of_lists h
  rw [read, (members_eq_ok_iff s table).mpr h]
  rfl

theorem read_of_unlisted {s : List UInt8} (available : Nat) (h : ¬ ∃ entries, Lists s entries) :
    read available s = .error (.corruptHeader (.unreadable .invalid)) := by
  rw [read, (members_eq_error_iff s .invalid).mpr ⟨rfl, h⟩]

theorem lists_unique {s : List UInt8} {entries others : List (String × Tree)}
    (h : Lists s entries) (hothers : Lists s others) : entries = others := by
  obtain ⟨table, rfl⟩ := exists_toList_of_lists h
  obtain ⟨other, rfl⟩ := exists_toList_of_lists hothers
  rw [← members_eq_ok_iff] at h hothers
  rw [h] at hothers
  cases hothers
  rfl

theorem read_eq_error_iff (available : Nat) (s : List UInt8) (e : Error) :
    read available s = .error e ↔ Refused available s e := by
  by_cases hlisted : ∃ entries, Lists s entries
  · obtain ⟨entries, hlists⟩ := hlisted
    rw [read_of_lists available hlists, visitAll_eq_error_iff (settled_of_lists hlists)]
    constructor
    · rintro ⟨front, name, t, back, rfl, hfront, hdefect⟩
      exact .member hlists hfront hdefect
    · intro h
      cases h with
      | unlisted hnot => exact absurd ⟨entries, hlists⟩ hnot
      | member hothers hfront hdefect =>
          exact ⟨_, _, _, _, lists_unique hlists hothers, hfront, hdefect⟩
  · rw [read_of_unlisted available hlisted]
    constructor
    · intro h
      cases h
      exact .unlisted hlisted
    · intro h
      cases h with
      | unlisted => rfl
      | member hlists => exact absurd ⟨_, hlists⟩ hlisted

theorem exists_read_eq_ok_iff (available : Nat) (s : List UInt8) :
    (∃ header, read available s = .ok header) ↔ Accepted available s := by
  by_cases hlisted : ∃ entries, Lists s entries
  · obtain ⟨entries, hlists⟩ := hlisted
    rw [read_of_lists available hlists, exists_visitAll_eq_ok_iff (settled_of_lists hlists)]
    constructor
    · exact fun h => ⟨entries, hlists, h⟩
    · rintro ⟨others, hothers, h⟩
      exact lists_unique hothers hlists ▸ h
  · rw [read_of_unlisted available hlisted]
    constructor
    · rintro ⟨header, h⟩
      cases h
    · rintro ⟨entries, hlists, -⟩
      exact absurd ⟨entries, hlists⟩ hlisted

end Header

/-! ## Containers -/

namespace Store

/-- The length of the header that a container declares. -/
def declared (b : List UInt8) : Nat := LittleEndian.value (b.take lengthBytes)

/-- The bytes of the header. -/
def headerBytes (b : List UInt8) : List UInt8 := (b.drop lengthBytes).take (declared b)

/-- The bytes of tensor data that are there. -/
def available (b : List UInt8) : Nat := b.length - lengthBytes - declared b

/-- The container holds the length field and the header it declares, which is not
too long to be looked at. -/
structure Framed (b : List UInt8) : Prop where
  length_field : lengthBytes ≤ b.length
  declared_le : declared b ≤ maxHeaderLength
  header_le : lengthBytes + declared b ≤ b.length

/-- Why a container is refused: the checks in their order, each of them with what
was not refused before. -/
inductive Refused (b : List UInt8) : Error → Prop
  | short (h : b.length < lengthBytes) : Refused b (.corruptHeader (.tooShort b.length))
  | oversized (hlength : lengthBytes ≤ b.length) (h : maxHeaderLength < declared b) :
      Refused b (.corruptHeader (.oversized (declared b)))
  | overrun (hlength : lengthBytes ≤ b.length) (hdeclared : declared b ≤ maxHeaderLength)
      (h : b.length < lengthBytes + declared b) :
      Refused b (.corruptHeader (.overrun (declared b) b.length))
  | header {e : Error} (hframed : Framed b) (h : Header.Refused (available b) (headerBytes b) e) :
      Refused b e

theorem declared_lt (b : List UInt8) : declared b < UInt64.size := by
  have hlt := LittleEndian.value_lt (b.take lengthBytes)
  have hle : (b.take lengthBytes).length ≤ 8 := List.length_take_le _ _
  exact Nat.lt_of_lt_of_le hlt (Nat.pow_le_pow_right (by decide) hle)

/-- A container with a frame is read through its header; the tensor data is what
lies behind. -/
theorem ofBytes_of_framed {b : List UInt8} (h : Framed b) :
    ofBytes b =
      (⟨·, b.drop (lengthBytes + declared b)⟩) <$>
        Header.read (available b) (headerBytes b) := by
  have hrest : ¬ (b.drop lengthBytes).length < declared b := by
    rw [List.length_drop]
    exact Nat.not_lt.mpr (Nat.le_sub_of_add_le' h.header_le)
  have hlength : ((b.drop lengthBytes).drop (declared b)).length = available b := by
    rw [List.length_drop, List.length_drop, available]
  rw [← List.drop_drop, ← hlength, map_eq_pure_bind]
  unfold ofBytes
  dsimp only
  rw [if_neg (Nat.not_lt.mpr h.length_field)]
  exact (if_neg (Nat.not_lt.mpr h.declared_le)).trans (if_neg hrest)

theorem ofBytes_of_refused {b : List UInt8} {e : Error} (h : Refused b e) :
    ofBytes b = .error e := by
  cases h with
  | short hlength =>
      unfold ofBytes
      exact if_pos hlength
  | oversized hlength hdeclared =>
      unfold ofBytes
      exact (if_neg (Nat.not_lt.mpr hlength)).trans (if_pos hdeclared)
  | overrun hlength hdeclared hoverrun =>
      have hrest : (b.drop lengthBytes).length < declared b := by
        rw [List.length_drop]
        exact Nat.sub_lt_left_of_lt_add hlength hoverrun
      unfold ofBytes
      exact (if_neg (Nat.not_lt.mpr hlength)).trans
        ((if_neg (Nat.not_lt.mpr hdeclared)).trans (if_pos hrest))
  | header hframed hheader =>
      rw [ofBytes_of_framed hframed, (Header.read_eq_error_iff _ _ e).mpr hheader]
      rfl

/-- A container has a frame, or it is refused for want of one. -/
theorem framed_or_refused (b : List UInt8) : Framed b ∨ ∃ e, Refused b e := by
  by_cases hlength : lengthBytes ≤ b.length
  · by_cases hdeclared : declared b ≤ maxHeaderLength
    · by_cases hheader : lengthBytes + declared b ≤ b.length
      · exact Or.inl ⟨hlength, hdeclared, hheader⟩
      · exact Or.inr ⟨_, .overrun hlength hdeclared (Nat.not_le.mp hheader)⟩
    · exact Or.inr ⟨_, .oversized hlength (Nat.not_le.mp hdeclared)⟩
  · exact Or.inr ⟨_, .short (Nat.not_le.mp hlength)⟩

theorem ofBytes_eq_error_iff (b : List UInt8) (e : Error) :
    ofBytes b = .error e ↔ Refused b e := by
  refine ⟨fun h => ?_, ofBytes_of_refused⟩
  obtain hframed | ⟨d, hd⟩ := framed_or_refused b
  · rw [ofBytes_of_framed hframed] at h
    cases hread : Header.read (available b) (headerBytes b) with
    | ok header =>
        rw [hread] at h
        cases h
    | error d =>
        rw [hread] at h
        cases h
        exact .header hframed ((Header.read_eq_error_iff _ _ e).mp hread)
  · rw [ofBytes_of_refused hd] at h
    cases h
    exact hd

/-- A container is read when it has a frame and a header without defect. -/
theorem ofBytes_eq_ok_iff (b : List UInt8) (store : Store) :
    ofBytes b = .ok store ↔
      Framed b ∧ Header.read (available b) (headerBytes b) = .ok store.header ∧
        store.raw = b.drop (lengthBytes + declared b) := by
  constructor
  · intro h
    obtain hframed | ⟨d, hd⟩ := framed_or_refused b
    · rw [ofBytes_of_framed hframed] at h
      cases hread : Header.read (available b) (headerBytes b) with
      | error d =>
          rw [hread] at h
          cases h
      | ok header =>
          rw [hread] at h
          cases h
          exact ⟨hframed, rfl, rfl⟩
    · rw [ofBytes_of_refused hd] at h
      cases h
  · rintro ⟨hframed, hread, hraw⟩
    rw [ofBytes_of_framed hframed, hread, ← hraw]
    rfl

/-- The first failing check decides: a container is refused with the failure of
that check, and it is read when there is none. The declared length is taken as a
word, and where the header is looked at its end is far from leaving a word. -/
theorem ofBytes_decides (b : List UInt8) :
    (∀ e, ofBytes b = .error e ↔ Refused b e) ∧
      ((∃ store, ofBytes b = .ok store) ↔
        Framed b ∧ Header.Accepted (available b) (headerBytes b)) ∧
      declared b < UInt64.size ∧
      (declared b ≤ maxHeaderLength → lengthBytes + declared b < UInt32.size) := by
  refine ⟨ofBytes_eq_error_iff b, ?_, declared_lt b, fun h => ?_⟩
  · simp only [ofBytes_eq_ok_iff, ← Header.exists_read_eq_ok_iff]
    constructor
    · rintro ⟨store, hframed, hread, -⟩
      exact ⟨hframed, store.header, hread⟩
    · rintro ⟨hframed, header, hread⟩
      exact ⟨⟨header, _⟩, hframed, hread, rfl⟩
  · exact Nat.lt_of_le_of_lt (Nat.add_le_add_left h lengthBytes) (by decide)

end Store

end Weights

end NetReplay
