import NetReplay.Proofs.Weights.Entry

/-!
# Visiting the members of a header

A member of a header is accepted (`Header.Accepts`) or has a first defect
(`Header.Defect`), and a visit reports just that. The members are visited in
order, so it is the first member with a defect whose defect is reported
(`visitAll_eq_error_iff`), and every record of the result was asked for by the
member of its name (`get?_records_of_visitAll`).
-/

namespace NetReplay

namespace Weights

open Json

/-! ## Members of a header -/

/-- The record that an entry asks for. -/
def Entry.record (e : Entry) (name : String) : Record :=
  ⟨name, ElementType.ofTag e.dtype, e.shape, e.offsets.1.toNat, e.offsets.2.toNat⟩

namespace Header

variable {room available : Nat} {name : String} {t : Tree}

/-- The value is an object whose values, the last of each key, are texts. -/
def IsMetadata (t : Tree) : Prop :=
  ∃ members, t = .object members true ∧
    ∀ key u, Tree.lastNamed? members key = some u → ∃ s, u.IsText s

theorem isMetadata_object_iff {members : List (RawText × Tree)} {table : Table Tree}
    (h : membersByName members = .ok table) :
    IsMetadata (.object members true) ↔ ∀ m ∈ table.toList, ∃ s, m.2.IsText s := by
  constructor
  · rintro ⟨_, heq, htexts⟩ ⟨key, u⟩ hmem
    cases heq
    rw [Table.mem_toList_iff, get?_of_membersByName h] at hmem
    exact htexts key u hmem
  · intro htexts
    refine ⟨members, rfl, fun key u hlast => ?_⟩
    rw [← get?_of_membersByName h, ← Table.mem_toList_iff] at hlast
    exact htexts (key, u) hlast

/-- Metadata are read when they are metadata, and anything else is invalid. -/
theorem readMetadata_cases (hsettled : t.settled room = true) :
    (IsMetadata t ∧ ∃ metadata, readMetadata t = .ok metadata) ∨
      ¬ IsMetadata t ∧ readMetadata t = .error .invalid := by
  match t with
  | .object members whole =>
      obtain ⟨rfl, -⟩ := Tree.settled_object hsettled
      obtain ⟨table, htable⟩ := exists_membersByName_of_settled hsettled
      have hpair : ∀ m : String × Tree,
          (∃ pair, (do pure (m.1, ← m.2.text) : Decoded (String × String)) = .ok pair) ↔
            ∃ s, m.2.IsText s := by
        intro m
        simp only [← Tree.reads_text.ok_iff]
        cases m.2.text <;> simp [bind, Except.bind, pure, Except.pure]
      have hiff := (isMetadata_object_iff htable).trans
        ((forall₂_congr fun m _ => (hpair m).symm).trans exists_mapM_eq_ok_iff.symm)
      rw [readMetadata, htable, hiff]
      cases hrun : table.toList.mapM fun m => do pure (m.1, ← m.2.text) with
      | ok pairs =>
          refine Or.inl ⟨⟨pairs, rfl⟩, Table.ofList pairs, ?_⟩
          exact congrArg (· >>= fun pairs => pure (Table.ofList pairs)) hrun
      | error cause =>
          obtain ⟨m, -, hfail⟩ := exists_of_mapM_eq_error hrun
          have hinvalid : cause = .invalid := by
            cases htext : m.2.text with
            | ok s =>
                rw [htext] at hfail
                cases hfail
            | error c =>
                rw [htext] at hfail
                cases hfail
                exact Tree.reads_text.invalid _ _ htext
          subst hinvalid
          refine Or.inr ⟨by simp, ?_⟩
          exact congrArg (· >>= fun pairs => pure (Table.ofList pairs)) hrun
  | .array _ _ => exact Or.inr ⟨by simp [IsMetadata], rfl⟩
  | .null => exact Or.inr ⟨by simp [IsMetadata], rfl⟩
  | .bool _ => exact Or.inr ⟨by simp [IsMetadata], rfl⟩
  | .number _ => exact Or.inr ⟨by simp [IsMetadata], rfl⟩
  | .string _ => exact Or.inr ⟨by simp [IsMetadata], rfl⟩
  | .broken => exact Or.inr ⟨by simp [IsMetadata], rfl⟩

/-- A member that passes every check. -/
inductive Accepts (available : Nat) : String → Tree → Prop
  | metadata {t : Tree} (h : IsMetadata t) : Accepts available metadataKey t
  | tensor {name : String} {t : Tree} {e : Entry} (hname : name ≠ metadataKey)
      (told : Entry.Tells t e) (fits : (e.record name).Fits available) :
      Accepts available name t

/-- The first defect of a member: the metadata are no object of texts, or the
entry of a tensor cannot be read, has its range reversed, lies outside the bytes
that are there, or does not hold whole elements. -/
inductive Defect (available : Nat) : String → Tree → Error → Prop
  | metadata {t : Tree} (h : ¬ IsMetadata t) :
      Defect available metadataKey t (.corruptHeader (.metadata .invalid))
  | unreadable {name : String} {t : Tree} {cause : DecodeError} (hname : name ≠ metadataKey)
      (h : Entry.Unreadable t cause) :
      Defect available name t (.corruptHeader (.entry name (.unreadable cause)))
  | reversed {name : String} {t : Tree} {e : Entry} (hname : name ≠ metadataKey)
      (told : Entry.Tells t e) (h : e.offsets.2.toNat < e.offsets.1.toNat) :
      Defect available name t
        (.corruptHeader (.entry name (.reversed e.offsets.1 e.offsets.2)))
  | truncated {name : String} {t : Tree} {e : Entry} (hname : name ≠ metadataKey)
      (told : Entry.Tells t e) (horder : e.offsets.1.toNat ≤ e.offsets.2.toNat)
      (h : available < e.offsets.2.toNat) :
      Defect available name t (.truncatedData name e.offsets.2.toNat available)
  | ragged {name : String} {t : Tree} {e : Entry} {width : Nat} (hname : name ≠ metadataKey)
      (told : Entry.Tells t e) (horder : e.offsets.1.toNat ≤ e.offsets.2.toNat)
      (hstop : e.offsets.2.toNat ≤ available)
      (hwidth : (ElementType.ofTag e.dtype).width? = some width)
      (h : (e.offsets.2.toNat - e.offsets.1.toNat) % width ≠ 0) :
      Defect available name t
        (.corruptHeader
          (.entry name (.ragged (e.offsets.2.toNat - e.offsets.1.toNat) e.dtype)))

/-- A member is accepted or has a defect. -/
theorem accepts_or_defect (available : Nat) (name : String) (t : Tree) :
    Accepts available name t ∨ ∃ e, Defect available name t e := by
  by_cases hname : name = metadataKey
  · subst hname
    by_cases hmetadata : IsMetadata t
    · exact Or.inl (.metadata hmetadata)
    · exact Or.inr ⟨_, .metadata hmetadata⟩
  · obtain ⟨e, told⟩ | ⟨cause, hcause⟩ := Entry.tells_or_unreadable t
    · by_cases horder : e.offsets.1.toNat ≤ e.offsets.2.toNat
      · by_cases hstop : e.offsets.2.toNat ≤ available
        · by_cases hwhole : ∀ width, (ElementType.ofTag e.dtype).width? = some width →
            (e.offsets.2.toNat - e.offsets.1.toNat) % width = 0
          · exact Or.inl (.tensor hname told ⟨horder, hstop, hwhole⟩)
          · push Not at hwhole
            obtain ⟨width, hwidth, hragged⟩ := hwhole
            exact Or.inr ⟨_, .ragged hname told horder hstop hwidth hragged⟩
        · exact Or.inr ⟨_, .truncated hname told horder (Nat.not_le.mp hstop)⟩
      · exact Or.inr ⟨_, .reversed hname told (Nat.not_le.mp horder)⟩
    · exact Or.inr ⟨_, .unreadable hname hcause⟩

theorem visit_metadata_of_accepts (hsettled : t.settled room = true) (header : Header)
    (h : IsMetadata t) :
    ∃ metadata, visit available header metadataKey t = .ok { header with metadata } := by
  obtain ⟨-, metadata, hread⟩ | ⟨hnot, -⟩ := readMetadata_cases hsettled
  · refine ⟨metadata, ?_⟩
    rw [visit, if_pos rfl, hread]
  · exact absurd h hnot

theorem visit_tensor_of_accepts (hsettled : t.settled room = true) (header : Header)
    (hname : name ≠ metadataKey) {e : Entry} (told : Entry.Tells t e)
    (fits : (e.record name).Fits available) :
    visit available header name t =
      .ok { header with records := header.records.insert name (e.record name) } := by
  rw [visit, if_neg hname, Entry.read_of_tells hsettled told]
  dsimp only
  rw [(Record.ofEntry_eq_ok_iff name available e (e.record name)).mpr ⟨rfl, fits⟩]
  rfl

theorem visit_of_accepts (hsettled : t.settled room = true) (header : Header)
    (h : Accepts available name t) : ∃ header', visit available header name t = .ok header' := by
  cases h with
  | metadata hmetadata =>
      obtain ⟨metadata, hvisit⟩ := visit_metadata_of_accepts hsettled header hmetadata
      exact ⟨_, hvisit⟩
  | tensor hname told fits =>
      exact ⟨_, visit_tensor_of_accepts hsettled header hname told fits⟩

theorem visit_of_defect (hsettled : t.settled room = true) (header : Header) {e : Error}
    (h : Defect available name t e) : visit available header name t = .error e := by
  cases h with
  | metadata hnot =>
      obtain ⟨hmetadata, -⟩ | ⟨-, hread⟩ := readMetadata_cases hsettled
      · exact absurd hmetadata hnot
      · rw [visit, if_pos rfl, hread]
  | unreadable hname hcause =>
      rw [visit, if_neg hname, Entry.read_of_unreadable hsettled hcause]
  | @reversed _ _ e hname told horder =>
      rw [visit, if_neg hname, Entry.read_of_tells hsettled told]
      dsimp only
      rw [Record.ofEntry, if_pos (UInt64.lt_iff_toNat_lt.mpr horder)]
      rfl
  | @truncated _ _ e hname told horder hstop =>
      have hordered : ¬ e.offsets.2 < e.offsets.1 := fun h =>
        Nat.not_lt.mpr horder (UInt64.lt_iff_toNat_lt.mp h)
      rw [visit, if_neg hname, Entry.read_of_tells hsettled told]
      dsimp only
      rw [Record.ofEntry, if_neg hordered, if_pos hstop]
      rfl
  | @ragged _ _ e width hname told horder hstop hwidth hragged =>
      have hordered : ¬ e.offsets.2 < e.offsets.1 := fun h =>
        Nat.not_lt.mpr horder (UInt64.lt_iff_toNat_lt.mp h)
      rw [visit, if_neg hname, Entry.read_of_tells hsettled told]
      dsimp only
      rw [Record.ofEntry, if_neg hordered, if_neg (Nat.not_lt.mpr hstop),
        if_pos (by simpa [hwidth] using hragged), ElementType.tag_ofTag]
      rfl

/-- A visit fails with the first defect of the member. -/
theorem visit_eq_error_iff (hsettled : t.settled room = true) (header : Header) (e : Error) :
    visit available header name t = .error e ↔ Defect available name t e := by
  refine ⟨fun h => ?_, visit_of_defect hsettled header⟩
  obtain haccepts | ⟨d, hd⟩ := accepts_or_defect available name t
  · obtain ⟨header', hvisit⟩ := visit_of_accepts hsettled header haccepts
    rw [hvisit] at h
    cases h
  · rw [visit_of_defect hsettled header hd] at h
    cases h
    exact hd

/-- A visit succeeds when the member is accepted. -/
theorem exists_visit_eq_ok_iff (hsettled : t.settled room = true) (header : Header) :
    (∃ header', visit available header name t = .ok header') ↔ Accepts available name t := by
  refine ⟨?_, visit_of_accepts hsettled header⟩
  rintro ⟨header', h⟩
  obtain haccepts | ⟨d, hd⟩ := accepts_or_defect available name t
  · exact haccepts
  · rw [visit_of_defect hsettled header hd] at h
    cases h

/-! ## All members -/

/-- Visits the members one after the other. -/
def visitAll (available : Nat) (header : Header) (entries : List (String × Tree)) :
    Except Error Header :=
  entries.foldlM (fun h m => visit available h m.1 m.2) header

theorem visitAll_cons_of_ok {entries : List (String × Tree)} {header header' : Header}
    (h : visit available header name t = .ok header') :
    visitAll available header ((name, t) :: entries) = visitAll available header' entries := by
  rw [visitAll, List.foldlM_cons, h]
  rfl

theorem visitAll_cons_of_error {entries : List (String × Tree)} {header : Header} {e : Error}
    (h : visit available header name t = .error e) :
    visitAll available header ((name, t) :: entries) = .error e := by
  rw [visitAll, List.foldlM_cons, h]
  rfl

section

variable {entries : List (String × Tree)}

/-- The visits succeed when every member is accepted. -/
theorem exists_visitAll_eq_ok_iff (hsettled : ∀ m ∈ entries, m.2.settled room = true)
    (header : Header) :
    (∃ header', visitAll available header entries = .ok header') ↔
      ∀ m ∈ entries, Accepts available m.1 m.2 := by
  induction entries generalizing header with
  | nil => simp [visitAll, pure, Except.pure]
  | cons m entries ih =>
      obtain ⟨name, t⟩ := m
      have ht := hsettled (name, t) List.mem_cons_self
      have hrest := fun m hm => hsettled m (List.mem_cons_of_mem (name, t) hm)
      rw [List.forall_mem_cons, ← exists_visit_eq_ok_iff ht header]
      cases hvisit : visit available header name t with
      | error e => simp [visitAll_cons_of_error hvisit]
      | ok header' =>
          rw [visitAll_cons_of_ok hvisit, ih hrest header']
          simp

/-- The visits fail with the defect of the first member that is not accepted. -/
theorem visitAll_eq_error_iff (hsettled : ∀ m ∈ entries, m.2.settled room = true)
    (header : Header) (e : Error) :
    visitAll available header entries = .error e ↔
      ∃ front name t back, entries = front ++ (name, t) :: back ∧
        (∀ m ∈ front, Accepts available m.1 m.2) ∧ Defect available name t e := by
  induction entries generalizing header with
  | nil => simp [visitAll, pure, Except.pure]
  | cons m entries ih =>
      obtain ⟨name, t⟩ := m
      have ht := hsettled (name, t) List.mem_cons_self
      have hrest := fun m hm => hsettled m (List.mem_cons_of_mem (name, t) hm)
      cases hvisit : visit available header name t with
      | error d =>
          rw [visitAll_cons_of_error hvisit]
          have hdefect := (visit_eq_error_iff ht header d).mp hvisit
          constructor
          · intro h
            cases h
            exact ⟨[], name, t, entries, rfl, by simp, hdefect⟩
          · rintro ⟨front, other, u, back, hsplit, haccepts, hd⟩
            cases front with
            | nil =>
                cases hsplit
                exact hvisit.symm.trans (visit_of_defect ht header hd)
            | cons m front =>
                cases hsplit
                obtain ⟨header', hok⟩ :=
                  visit_of_accepts ht header (haccepts (name, t) List.mem_cons_self)
                rw [hvisit] at hok
                cases hok
      | ok header' =>
          rw [visitAll_cons_of_ok hvisit, ih hrest header']
          have haccepts := (exists_visit_eq_ok_iff ht header).mp ⟨header', hvisit⟩
          constructor
          · rintro ⟨front, other, u, back, rfl, hfront, hd⟩
            exact ⟨(name, t) :: front, other, u, back, rfl,
              List.forall_mem_cons.mpr ⟨haccepts, hfront⟩, hd⟩
          · rintro ⟨front, other, u, back, hsplit, hfront, hd⟩
            cases front with
            | nil =>
                cases hsplit
                rw [visit_of_defect ht header hd] at hvisit
                cases hvisit
            | cons m front =>
                cases hsplit
                exact ⟨front, other, u, back, rfl, (List.forall_mem_cons.mp hfront).2, hd⟩

/-- Every record that is new after the visits fits, and was asked for by the
member of its name. -/
theorem get?_records_of_visitAll (hsettled : ∀ m ∈ entries, m.2.settled room = true)
    {header header' : Header} (h : visitAll available header entries = .ok header')
    {name : String} {r : Record} (hr : header'.records.get? name = some r) :
    header.records.get? name = some r ∨
      name ≠ metadataKey ∧ ∃ t e, (name, t) ∈ entries ∧ Entry.Tells t e ∧
        r = e.record name ∧ r.Fits available := by
  induction entries generalizing header with
  | nil =>
      cases h
      exact Or.inl hr
  | cons m entries ih =>
      obtain ⟨other, u⟩ := m
      have hu : u.settled room = true := hsettled (other, u) List.mem_cons_self
      have hrest := fun m hm => hsettled m (List.mem_cons_of_mem (other, u) hm)
      have haccepts : Accepts available other u :=
        (exists_visitAll_eq_ok_iff hsettled header).mp ⟨header', h⟩ (other, u)
          List.mem_cons_self
      cases haccepts with
      | metadata hmetadata =>
          obtain ⟨metadata, hvisit⟩ : ∃ metadata,
              visit available header metadataKey u = .ok { header with metadata } :=
            visit_metadata_of_accepts hu header hmetadata
          rw [visitAll_cons_of_ok hvisit] at h
          refine (ih hrest h).imp_right ?_
          rintro ⟨hname, t, e, hmem, htold⟩
          exact ⟨hname, t, e, List.mem_cons_of_mem _ hmem, htold⟩
      | @tensor _ _ e hother told fits =>
          rw [visitAll_cons_of_ok (visit_tensor_of_accepts hu header hother told fits)] at h
          rcases ih hrest h with hold | ⟨hname, t, e, hmem, htold⟩
          · rw [Table.get?_insert] at hold
            by_cases hname : name = other
            · rw [if_pos hname] at hold
              cases hold
              subst hname
              exact Or.inr ⟨hother, u, e, List.mem_cons_self, told, rfl, fits⟩
            · rw [if_neg hname] at hold
              exact Or.inl hold
          · exact Or.inr ⟨hname, t, e, List.mem_cons_of_mem _ hmem, htold⟩

end

end Header

end Weights

end NetReplay
