import NetReplay.Proofs.Json.Reading
import NetReplay.Proofs.Weights.Layout

/-!
# What header entries mean

An entry means a tensor (`Entry.Tells`), or there is a first reason why it does
not (`Entry.Unreadable`); reading an entry gives the one or the other. The same
is said of whole members of a header: a member is accepted (`Header.Accepts`) or
has a defect (`Header.Defect`), and a visit reports just that.

The fields of an entry may also be given by position. Other members of an entry
do not count, and of equal keys the last does.
-/

namespace NetReplay

namespace Weights

open Json

/-! ## Members -/

theorem get?_of_membersByName {members : List (RawText × Tree)} {table : Table Tree}
    (h : membersByName members = .ok table) (name : String) :
    table.get? name = Tree.lastNamed? members name := by
  rw [membersByName] at h
  cases hrun : members.mapM fun m => do pure (← Tree.decodeText m.1, m.2) with
  | error cause =>
      rw [hrun] at h
      cases h
  | ok entries =>
      rw [hrun] at h
      cases h
      refine Tree.get?_ofList_of_names ((mapM_eq_ok_iff.mp hrun).imp fun m entry hm => ?_) name
      rw [Tree.decodeText] at hm
      cases hkey : m.1.decode? with
      | none =>
          rw [hkey] at hm
          cases hm
      | some key =>
          rw [hkey] at hm
          cases hm
          exact ⟨hkey, rfl⟩

/-- Members whose keys are texts have a table. -/
theorem exists_membersByName {members : List (RawText × Tree)}
    (h : ∀ m ∈ members, m.1.decode?.isSome) : ∃ table, membersByName members = .ok table := by
  cases htable : membersByName members with
  | ok table => exact ⟨table, rfl⟩
  | error cause =>
      rw [membersByName] at htable
      cases hrun : members.mapM fun m => do pure (← Tree.decodeText m.1, m.2) with
      | ok entries =>
          rw [hrun] at htable
          cases htable
      | error c =>
          obtain ⟨m, hm, hfail⟩ := exists_of_mapM_eq_error hrun
          obtain ⟨key, hkey⟩ := Option.isSome_iff_exists.mp (h m hm)
          rw [Tree.decodeText, hkey] at hfail
          cases hfail

theorem exists_membersByName_of_settled {room : Nat} {members : List (RawText × Tree)}
    {whole : Bool} (h : (Tree.object members whole).settled room = true) :
    ∃ table, membersByName members = .ok table :=
  exists_membersByName fun _ hm =>
    (Tree.settled_of_mem_members (Tree.settled_object h).2 hm).1

/-! ## Entries -/

namespace Entry

/-- The value is the range of a tensor. -/
def IsOffsets (t : Tree) (offsets : UInt64 × UInt64) : Prop :=
  t.IsList Tree.IsWord [offsets.1, offsets.2]

theorem reads_offsets : Tree.Reads readOffsets IsOffsets where
  ok_iff t offsets := by
    rw [readOffsets, IsOffsets, ← Tree.reads_word.list.ok_iff]
    cases hwords : t.list Tree.word with
    | error cause => simp [bind, Except.bind]
    | ok words =>
        rcases words with _ | ⟨_, _ | ⟨_, _ | ⟨_, _⟩⟩⟩
        · simp [bind, Except.bind]
        · simp [bind, Except.bind]
        · simp [bind, Except.bind, pure, Except.pure, Prod.ext_iff]
        · simp [bind, Except.bind]
  invalid t cause h := by
    rw [readOffsets] at h
    cases hwords : t.list Tree.word with
    | error c =>
        rw [hwords] at h
        cases h
        exact Tree.reads_word.list.invalid t cause hwords
    | ok words =>
        rw [hwords] at h
        rcases words with _ | ⟨_, _ | ⟨_, _ | ⟨_, _⟩⟩⟩
        · cases h
          rfl
        · cases h
          rfl
        · cases h
        · cases h
          rfl

/-- Three values give the fields of an entry. -/
structure Told (dtype shape offsets : Tree) (e : Entry) : Prop where
  dtype : dtype.IsText e.dtype
  shape : shape.IsList Tree.IsWord e.shape
  offsets : IsOffsets offsets e.offsets

/-- A value means an entry. -/
inductive Tells : Tree → Entry → Prop
  | named {members : List (RawText × Tree)} {dtype shape offsets : Tree} {e : Entry}
      (hdtype : Tree.lastNamed? members "dtype" = some dtype)
      (hshape : Tree.lastNamed? members "shape" = some shape)
      (hoffsets : Tree.lastNamed? members "data_offsets" = some offsets)
      (told : Told dtype shape offsets e) : Tells (.object members true) e
  | positional {dtype shape offsets : Tree} {e : Entry} (told : Told dtype shape offsets e) :
      Tells (.array [dtype, shape, offsets] true) e

/-- One of the fields is there and of the wrong kind. -/
inductive Misfit (members : List (RawText × Tree)) : Prop
  | dtype {t : Tree} (hlast : Tree.lastNamed? members "dtype" = some t)
      (h : ¬ ∃ s, t.IsText s)
  | shape {t : Tree} (hlast : Tree.lastNamed? members "shape" = some t)
      (h : ¬ ∃ ws, t.IsList Tree.IsWord ws)
  | offsets {t : Tree} (hlast : Tree.lastNamed? members "data_offsets" = some t)
      (h : ¬ ∃ offsets, IsOffsets t offsets)

/-- Why a value does not mean an entry. Fields of the wrong kind come first, then
the first field that is missing. -/
inductive Unreadable : Tree → DecodeError → Prop
  | misfit {members : List (RawText × Tree)} (h : Misfit members) :
      Unreadable (.object members true) .invalid
  | dtype {members : List (RawText × Tree)} (h : ¬ Misfit members)
      (hdtype : Tree.lastNamed? members "dtype" = none) :
      Unreadable (.object members true) (.missingField "dtype")
  | shape {members : List (RawText × Tree)} (h : ¬ Misfit members)
      (hdtype : Tree.lastNamed? members "dtype" ≠ none)
      (hshape : Tree.lastNamed? members "shape" = none) :
      Unreadable (.object members true) (.missingField "shape")
  | offsets {members : List (RawText × Tree)} (h : ¬ Misfit members)
      (hdtype : Tree.lastNamed? members "dtype" ≠ none)
      (hshape : Tree.lastNamed? members "shape" ≠ none)
      (hoffsets : Tree.lastNamed? members "data_offsets" = none) :
      Unreadable (.object members true) (.missingField "data_offsets")
  | positional {items : List Tree} (h : ¬ ∃ e, Tells (.array items true) e) :
      Unreadable (.array items true) .invalid
  | other {t : Tree} (hobject : ∀ members, t ≠ .object members true)
      (harray : ∀ items, t ≠ .array items true) : Unreadable t .invalid

/-- There is an entry or a reason. -/
theorem tells_or_unreadable (t : Tree) : (∃ e, Tells t e) ∨ ∃ cause, Unreadable t cause := by
  by_cases hobject : ∃ members, t = .object members true
  · obtain ⟨members, rfl⟩ := hobject
    by_cases hmisfit : Misfit members
    · exact Or.inr ⟨_, .misfit hmisfit⟩
    cases hdtype : Tree.lastNamed? members "dtype" with
    | none => exact Or.inr ⟨_, .dtype hmisfit hdtype⟩
    | some dtype =>
        have hsome : Tree.lastNamed? members "dtype" ≠ none := by simp [hdtype]
        cases hshape : Tree.lastNamed? members "shape" with
        | none => exact Or.inr ⟨_, .shape hmisfit hsome hshape⟩
        | some shape =>
            have hboth : Tree.lastNamed? members "shape" ≠ none := by simp [hshape]
            cases hoffsets : Tree.lastNamed? members "data_offsets" with
            | none => exact Or.inr ⟨_, .offsets hmisfit hsome hboth hoffsets⟩
            | some offsets =>
                obtain ⟨d, hd⟩ := not_not.mp fun h => hmisfit (.dtype hdtype h)
                obtain ⟨s, hs⟩ := not_not.mp fun h => hmisfit (.shape hshape h)
                obtain ⟨o, ho⟩ := not_not.mp fun h => hmisfit (.offsets hoffsets h)
                exact Or.inl ⟨⟨d, s, o⟩, .named hdtype hshape hoffsets ⟨hd, hs, ho⟩⟩
  · by_cases harray : ∃ items, t = .array items true
    · obtain ⟨items, rfl⟩ := harray
      by_cases htells : ∃ e, Tells (.array items true) e
      · exact Or.inl htells
      · exact Or.inr ⟨_, .positional htells⟩
    · exact Or.inr ⟨_, .other (not_exists.mp hobject) (not_exists.mp harray)⟩

/-! ## Reading entries -/

/-- Puts an entry together from the fields that are there. -/
def assemble (dtype : Option String) (shape : Option (List UInt64))
    (offsets : Option (UInt64 × UInt64)) : Decoded Entry := do
  let dtype ← Tree.required "dtype" dtype
  let shape ← Tree.required "shape" shape
  let offsets ← Tree.required "data_offsets" offsets
  pure ⟨dtype, shape, offsets⟩

/-- Reads the fields of an entry from the last members of their names. -/
def readNamed (members : List (RawText × Tree)) : Decoded Entry := do
  let offsets ← (Tree.lastNamed? members "data_offsets").mapM readOffsets
  let dtype ← (Tree.lastNamed? members "dtype").mapM Tree.text
  let shape ← (Tree.lastNamed? members "shape").mapM (Tree.list Tree.word)
  assemble dtype shape offsets

theorem read_object {members : List (RawText × Tree)} {table : Table Tree} {whole : Bool}
    (h : membersByName members = .ok table) :
    read (.object members whole) = readNamed members := by
  rw [read, h, readNamed]
  simp only [← get?_of_membersByName h]
  rfl

/-- The reading of a field that may be missing: it succeeds when there is nothing
or the value means something, and is invalid otherwise. -/
theorem optional_cases {α : Type} {read : Tree → Decoded α} {means : Tree → α → Prop}
    (h : Tree.Reads read means) (t? : Option Tree) :
    (∃ a?, t?.mapM read = .ok a? ∧ (a? = none ↔ t? = none) ∧
        ∀ t, t? = some t → ∃ a, means t a) ∨
      t?.mapM read = .error .invalid ∧ ∃ t, t? = some t ∧ ¬ ∃ a, means t a := by
  cases t? with
  | none => exact Or.inl ⟨none, rfl, by simp, by simp⟩
  | some t =>
      cases hread : read t with
      | ok a =>
          refine Or.inl ⟨some a, ?_, by simp, ?_⟩
          · rw [Option.mapM_some, hread]
            rfl
          · intro u hu
            cases hu
            exact ⟨a, (h.ok_iff t a).mp hread⟩
      | error cause =>
          obtain ⟨rfl, hnot⟩ := (h.eq_error_iff t cause).mp hread
          refine Or.inr ⟨?_, t, rfl, hnot⟩
          rw [Option.mapM_some, hread]
          rfl

theorem readNamed_of_misfit {members : List (RawText × Tree)} (h : Misfit members) :
    readNamed members = .error .invalid := by
  rw [readNamed]
  rcases optional_cases reads_offsets (Tree.lastNamed? members "data_offsets") with
    ⟨o?, hoffsets, -, hfineOffsets⟩ | ⟨hoffsets, -⟩
  · rcases optional_cases Tree.reads_text (Tree.lastNamed? members "dtype") with
      ⟨d?, hdtype, -, hfineDtype⟩ | ⟨hdtype, -⟩
    · rcases optional_cases Tree.reads_word.list (Tree.lastNamed? members "shape") with
        ⟨s?, hshape, -, hfineShape⟩ | ⟨hshape, -⟩
      · cases h with
        | dtype hlast hnot => exact absurd (hfineDtype _ hlast) hnot
        | shape hlast hnot => exact absurd (hfineShape _ hlast) hnot
        | offsets hlast hnot => exact absurd (hfineOffsets _ hlast) hnot
      · rw [hoffsets, hdtype, hshape]
        rfl
    · rw [hoffsets, hdtype]
      rfl
  · rw [hoffsets]
    rfl

/-- Without a misfit only missing fields are left to report. -/
theorem readNamed_of_not_misfit {members : List (RawText × Tree)} (h : ¬ Misfit members) :
    ∃ (d? : Option String) (s? : Option (List UInt64)) (o? : Option (UInt64 × UInt64)),
      (d? = none ↔ Tree.lastNamed? members "dtype" = none) ∧
      (s? = none ↔ Tree.lastNamed? members "shape" = none) ∧
      (o? = none ↔ Tree.lastNamed? members "data_offsets" = none) ∧
      readNamed members = assemble d? s? o? := by
  obtain ⟨d?, hdtype, hd, -⟩ | ⟨-, t, hlast, hnot⟩ :=
    optional_cases Tree.reads_text (Tree.lastNamed? members "dtype")
  · obtain ⟨s?, hshape, hs, -⟩ | ⟨-, t, hlast, hnot⟩ :=
      optional_cases Tree.reads_word.list (Tree.lastNamed? members "shape")
    · obtain ⟨o?, hoffsets, ho, -⟩ | ⟨-, t, hlast, hnot⟩ :=
        optional_cases reads_offsets (Tree.lastNamed? members "data_offsets")
      · refine ⟨d?, s?, o?, hd, hs, ho, ?_⟩
        rw [readNamed, hoffsets, hdtype, hshape]
        rfl
      · exact absurd (.offsets hlast hnot) h
    · exact absurd (.shape hlast hnot) h
  · exact absurd (.dtype hlast hnot) h

theorem readNamed_of_unreadable {members : List (RawText × Tree)} {cause : DecodeError}
    (h : Unreadable (.object members true) cause) : readNamed members = .error cause := by
  cases h with
  | misfit hmisfit => exact readNamed_of_misfit hmisfit
  | dtype hfit hdtype =>
      obtain ⟨d?, s?, o?, hd, hs, ho, hread⟩ := readNamed_of_not_misfit hfit
      rw [hread, hd.mpr hdtype]
      rfl
  | shape hfit hdtype hshape =>
      obtain ⟨d?, s?, o?, hd, hs, ho, hread⟩ := readNamed_of_not_misfit hfit
      obtain ⟨d, rfl⟩ := Option.ne_none_iff_exists'.mp (mt hd.mp hdtype)
      rw [hread, hs.mpr hshape]
      rfl
  | offsets hfit hdtype hshape hoffsets =>
      obtain ⟨d?, s?, o?, hd, hs, ho, hread⟩ := readNamed_of_not_misfit hfit
      obtain ⟨d, rfl⟩ := Option.ne_none_iff_exists'.mp (mt hd.mp hdtype)
      obtain ⟨s, rfl⟩ := Option.ne_none_iff_exists'.mp (mt hs.mp hshape)
      rw [hread, ho.mpr hoffsets]
      rfl
  | other hobject harray => exact absurd rfl (hobject members)

theorem Told.reads {dtype shape offsets : Tree} {e : Entry} (h : Told dtype shape offsets e) :
    dtype.text = .ok e.dtype ∧ shape.list Tree.word = .ok e.shape ∧
      readOffsets offsets = .ok e.offsets :=
  ⟨(Tree.reads_text.ok_iff _ _).mpr h.dtype, (Tree.reads_word.list.ok_iff _ _).mpr h.shape,
    (reads_offsets.ok_iff _ _).mpr h.offsets⟩

/-- What a settled value means is read. -/
theorem read_of_tells {room : Nat} {t : Tree} (hsettled : t.settled room = true) {e : Entry}
    (h : Tells t e) : read t = .ok e := by
  cases h with
  | named hdtype hshape hoffsets told =>
      obtain ⟨table, htable⟩ := exists_membersByName_of_settled hsettled
      obtain ⟨hd, hs, ho⟩ := told.reads
      rw [read_object htable, readNamed, hdtype, hshape, hoffsets]
      simp only [Option.mapM_some, hd, hs, ho]
      rfl
  | positional told =>
      obtain ⟨hd, hs, ho⟩ := told.reads
      rw [read, hd, hs, ho]
      rfl

theorem read_array_invalid {items : List Tree} (h : ¬ ∃ e, Tells (.array items true) e)
    (whole : Bool) : read (.array items whole) = .error .invalid := by
  match items with
  | [] => rfl
  | [_] => rfl
  | [_, _] => rfl
  | _ :: _ :: _ :: _ :: _ => rfl
  | [dtype, shape, offsets] =>
      rw [read]
      cases hd : dtype.text with
      | error cause =>
          rw [Tree.reads_text.invalid _ _ hd]
          rfl
      | ok d =>
          cases hs : shape.list Tree.word with
          | error cause =>
              rw [Tree.reads_word.list.invalid _ _ hs]
              rfl
          | ok ws =>
              cases ho : readOffsets offsets with
              | error cause =>
                  rw [reads_offsets.invalid _ _ ho]
                  rfl
              | ok o =>
                  exact absurd ⟨⟨d, ws, o⟩, .positional ⟨(Tree.reads_text.ok_iff _ _).mp hd,
                    (Tree.reads_word.list.ok_iff _ _).mp hs, (reads_offsets.ok_iff _ _).mp ho⟩⟩ h

/-- Why a settled value means no entry is reported. -/
theorem read_of_unreadable {room : Nat} {t : Tree} (hsettled : t.settled room = true)
    {cause : DecodeError} (h : Unreadable t cause) : read t = .error cause := by
  match t with
  | .object members whole =>
      obtain ⟨rfl, -⟩ := Tree.settled_object hsettled
      obtain ⟨table, htable⟩ := exists_membersByName_of_settled hsettled
      rw [read_object htable, readNamed_of_unreadable h]
  | .array items whole =>
      rw [Tree.settled, Bool.and_eq_true, Bool.and_eq_true] at hsettled
      obtain rfl : whole = true := hsettled.1.1
      cases h with
      | positional hnot => exact read_array_invalid hnot true
      | other hobject harray => exact absurd rfl (harray items)
  | .null => cases h; rfl
  | .bool b => cases h; rfl
  | .number n => cases h; rfl
  | .string text => cases h; rfl
  | .broken => cases h; rfl

/-- Reading a settled value finds the entry that it means. -/
theorem read_eq_ok_iff {room : Nat} {t : Tree} (hsettled : t.settled room = true) (e : Entry) :
    read t = .ok e ↔ Tells t e := by
  refine ⟨fun h => ?_, read_of_tells hsettled⟩
  obtain ⟨f, hf⟩ | ⟨cause, hcause⟩ := tells_or_unreadable t
  · rw [read_of_tells hsettled hf] at h
    cases h
    exact hf
  · rw [read_of_unreadable hsettled hcause] at h
    cases h

/-- A settled value means one entry at most. -/
theorem tells_unique {room : Nat} {t : Tree} (hsettled : t.settled room = true) {e f : Entry}
    (he : Tells t e) (hf : Tells t f) : e = f := by
  have hread := read_of_tells hsettled he
  rw [read_of_tells hsettled hf] at hread
  exact (Except.ok.inj hread).symm

end Entry

end Weights

end NetReplay
