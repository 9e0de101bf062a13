import NetReplay.Proofs.Json.Reading

/-!
# Data with named fields

A record is written by name, as an object, or by position, as an array. `IsRecord` says
what a value gives for each field, whichever way it is written. In an object the order of
the members does not matter (`IsRecord.of_perm`), and neither do members of other names
(`IsRecord.cons_unknown`). A reader that goes through the members one by one comes to the
same data for all of them (`record_of_isRecord`), as long as it takes each field in by
itself (`Fieldwise`).

`IsNullable` and `IsTable` are the meanings of optional values and of maps, beside those
of texts, sizes and lists. `Given` and `GivenOr` are for a field that has to be there,
and one that may be left out.
-/

namespace NetReplay

namespace Json

namespace Tree

variable {α σ : Type}

/-! ## Meanings -/

/-- The value is null and stands for nothing, or means something that is no null. -/
inductive IsNullable (means : Tree → α → Prop) : Tree → Option α → Prop
  | null : IsNullable means .null none
  | value {t : Tree} {a : α} (hnull : t ≠ .null) (h : means t a) : IsNullable means t (some a)

/-- The value is a whole object, and its members mean the entries of the table. Of equal
keys the last counts. -/
def IsTable (means : Tree → α → Prop) (t : Tree) (table : Table α) : Prop :=
  ∃ members entries, t = .object members true ∧
    List.Forall₂ (fun m e => m.1.decode? = some e.1 ∧ means m.2 e.2) members entries ∧
    Table.ofList entries = table

/-- The field is given, and means this. -/
def Given (means : Tree → α → Prop) (field : Option Tree) (a : α) : Prop :=
  ∃ t, field = some t ∧ means t a

/-- The field means this, where a field that is left out means the default. -/
def GivenOr (default : α) (means : Tree → α → Prop) (field : Option Tree) (a : α) : Prop :=
  field = none ∧ a = default ∨ Given means field a

theorem Given.means {a : α} {means : Tree → α → Prop} {field : Option Tree}
    (h : Given means field a) {t : Tree} (ht : field = some t) : means t a := by
  obtain ⟨u, hu, hmeans⟩ := h
  obtain rfl : u = t := Option.some.inj (hu.symm.trans ht)
  exact hmeans

theorem GivenOr.means {default a : α} {means : Tree → α → Prop} {field : Option Tree}
    (h : GivenOr default means field a) {t : Tree} (ht : field = some t) : means t a := by
  rcases h with ⟨hnone, -⟩ | hgiven
  · rw [ht] at hnone
    cases hnone
  · exact hgiven.means ht

/-- What is kept of a field that was given. -/
theorem Given.seen {a : α} {means : Tree → α → Prop} {field : Option Tree}
    (h : Given means field a) : (if field.isSome then some a else none) = some a := by
  obtain ⟨t, rfl, -⟩ := h
  rfl

theorem GivenOr.seen {default a : α} {means : Tree → α → Prop} {field : Option Tree}
    (h : GivenOr default means field a) :
    (if field.isSome then some a else none).getD default = a := by
  rcases h with ⟨rfl, rfl⟩ | ⟨t, rfl, -⟩
  · rfl
  · rfl

section

variable {read : Tree → Decoded α} {means : Tree → α → Prop}

theorem nullable_of_isNullable (hread : ∀ t a, means t a → read t = .ok a) {t : Tree}
    {a : Option α} (h : IsNullable means t a) : nullable read t = .ok a := by
  cases h with
  | null => rfl
  | value hnull h =>
      rw [nullable, hread _ _ h]
      · rfl
      · exact hnull

theorem table_of_isTable (hread : ∀ t a, means t a → read t = .ok a) {t : Tree}
    {entries : Table α} (h : IsTable means t entries) : table read t = .ok entries := by
  obtain ⟨members, entries, rfl, hmembers, rfl⟩ := h
  have hrun : (members.mapM fun (m : RawText × Tree) => do
      let key ← decodeText m.1
      let value ← read m.2
      pure (key, value)) = Except.ok entries := by
    refine mapM_eq_ok_iff.mpr (hmembers.imp ?_)
    rintro ⟨key, t⟩ ⟨name, a⟩ ⟨hkey, hmeans⟩
    dsimp only at hkey hmeans ⊢
    rw [decodeText, hkey, hread _ _ hmeans]
    rfl
  rw [table]
  exact congrArg (· >>= fun entries => pure (Table.ofList entries)) hrun

end

/-! ## Members by name -/

/-- The values of all members of a name, in document order. -/
def valuesNamed (members : List (RawText × Tree)) (name : String) : List Tree :=
  (members.filter fun m => m.1.decode? == some name).map Prod.snd

theorem valuesNamed_cons {m : RawText × Tree} {key : String} (h : m.1.decode? = some key)
    (members : List (RawText × Tree)) (name : String) :
    valuesNamed (m :: members) name =
      if name = key then m.2 :: valuesNamed members name else valuesNamed members name := by
  rw [valuesNamed, List.filter_cons, h]
  by_cases hname : name = key
  · rw [if_pos hname, hname, beq_self_eq_true, if_pos rfl, List.map_cons, valuesNamed]
  · have hother : ¬ (some key == some name) = true :=
      fun heq => hname (Option.some.inj (beq_iff_eq.mp heq)).symm
    rw [if_neg hname, if_neg hother, valuesNamed]

theorem isSome_decode?_of_mem_membersOf {entries : List (String × Tree)} {m : RawText × Tree}
    (hm : m ∈ membersOf entries) : m.1.decode?.isSome := by
  obtain ⟨e, -, rfl⟩ := List.mem_map.mp hm
  rw [RawText.decode?_ofString, Option.isSome_some]

theorem whole_membersOf {entries : List (String × Tree)} (h : ∀ e ∈ entries, e.2.Whole) :
    (Tree.object (membersOf entries) true).Whole := by
  refine .object _ fun m hm => ?_
  obtain ⟨e, he, rfl⟩ := List.mem_map.mp hm
  exact h e he

theorem valuesNamed_membersOf_of_not_mem {entries : List (String × Tree)} {name : String}
    (h : name ∉ entries.map Prod.fst) : valuesNamed (membersOf entries) name = [] := by
  induction entries with
  | nil => rfl
  | cons e entries ih =>
      rw [List.map_cons, List.mem_cons, not_or] at h
      rw [membersOf, List.map_cons, valuesNamed_cons (RawText.decode?_ofString e.1), if_neg h.1]
      exact ih h.2

/-- Entries of distinct keys are found as they are looked up. -/
theorem valuesNamed_membersOf {entries : List (String × Tree)}
    (hnodup : (entries.map Prod.fst).Nodup) (name : String) :
    valuesNamed (membersOf entries) name = (entries.lookup name).toList := by
  induction entries with
  | nil => rfl
  | cons e entries ih =>
      obtain ⟨key, t⟩ := e
      obtain ⟨hnot, hnodup⟩ := List.nodup_cons.mp hnodup
      rw [Table.lookup_entry, membersOf, List.map_cons,
        valuesNamed_cons (RawText.decode?_ofString key)]
      by_cases hname : name = key
      · subst hname
        rw [if_pos rfl, if_pos rfl]
        exact congrArg (t :: ·) (valuesNamed_membersOf_of_not_mem hnot)
      · rw [if_neg hname, if_neg hname]
        exact ih hnodup

/-! ## Items by position -/

theorem map_fst_zip_sublist (fields : List String) (items : List Tree) :
    ((fields.zip items).map Prod.fst).Sublist fields := by
  induction fields generalizing items with
  | nil => exact List.Sublist.refl []
  | cons name fields ih =>
      cases items with
      | nil => exact List.nil_sublist _
      | cons t items => exact (ih items).cons_cons name

theorem lookup_zip {fields : List String} (hnodup : fields.Nodup) {i : Nat} {name : String}
    (hname : fields[i]? = some name) (items : List Tree) :
    (fields.zip items).lookup name = items[i]? := by
  induction fields generalizing i items with
  | nil => cases hname
  | cons field fields ih =>
      obtain ⟨hnot, hnodup⟩ := List.nodup_cons.mp hnodup
      cases items with
      | nil => rfl
      | cons t items =>
          rw [List.zip_cons_cons, Table.lookup_entry]
          cases i with
          | zero =>
              obtain rfl : field = name := Option.some.inj hname
              rw [if_pos rfl, List.getElem?_cons_zero]
          | succ i =>
              rw [List.getElem?_cons_succ] at hname ⊢
              have hne : name ≠ field := fun heq => hnot (heq ▸ List.mem_of_getElem? hname)
              rw [if_neg hne]
              exact ih hnodup hname items

/-- Items are taken in as members under the names of their positions. -/
theorem foldItems_eq_foldMembers (step : σ → String → Tree → Decoded σ) (s : σ)
    (fields : List String) (items : List Tree) :
    foldItems step s fields items = foldMembers step s (membersOf (fields.zip items)) := by
  induction fields generalizing s items with
  | nil => rfl
  | cons name fields ih =>
      cases items with
      | nil => rfl
      | cons t items =>
          rw [foldItems, membersOf, List.zip_cons_cons, List.map_cons, foldMembers,
            decodeText_ofString]
          cases hstep : step s name t with
          | error cause => simp only [bind, Except.bind, hstep]
          | ok next =>
              simp only [bind, Except.bind, hstep]
              exact ih next items

/-! ## Records -/

/-- The value gives for each of the fields what `given` says. -/
inductive IsRecord (fields : List String) (given : String → Option Tree) : Tree → Prop
  /-- By name, each at most once, and among members of other names. -/
  | named (members : List (RawText × Tree)) (hkeys : ∀ m ∈ members, m.1.decode?.isSome)
      (hvalues : ∀ name ∈ fields, valuesNamed members name = (given name).toList) :
      IsRecord fields given (.object members true)
  /-- By position; fields at the end may be left out. -/
  | positional (items : List Tree) (hlength : items.length ≤ fields.length)
      (hvalues : ∀ (i : Nat) name, fields[i]? = some name → given name = items[i]?) :
      IsRecord fields given (.array items true)

variable {fields : List String} {given : String → Option Tree}

/-- The members of a record may stand in any order. -/
theorem IsRecord.of_perm {members others : List (RawText × Tree)} {whole : Bool}
    (h : IsRecord fields given (.object members whole)) (hperm : others.Perm members) :
    IsRecord fields given (.object others whole) := by
  cases h with
  | named _ hkeys hvalues =>
      refine .named others (fun m hm => hkeys m (hperm.mem_iff.mp hm)) fun name hname => ?_
      have hvalues : (valuesNamed others name).Perm (given name).toList := by
        rw [← hvalues name hname]
        exact (hperm.filter _).map Prod.snd
      cases hgiven : given name with
      | none =>
          rw [hgiven] at hvalues
          exact hvalues.eq_nil
      | some t =>
          rw [hgiven] at hvalues
          exact List.perm_singleton.mp hvalues

/-- A member of another name changes nothing, whatever its value is. -/
theorem IsRecord.cons_unknown {members : List (RawText × Tree)} {whole : Bool}
    (h : IsRecord fields given (.object members whole)) {key : RawText} {name : String}
    (hkey : key.decode? = some name) (hname : name ∉ fields) (t : Tree) :
    IsRecord fields given (.object ((key, t) :: members) whole) := by
  cases h with
  | named _ hkeys hvalues =>
      refine .named _ (List.forall_mem_cons.mpr ⟨?_, hkeys⟩) fun field hfield => ?_
      · rw [hkey, Option.isSome_some]
      · have hne : field ≠ name := fun heq => hname (heq ▸ hfield)
        rw [valuesNamed_cons hkey, if_neg hne, hvalues field hfield]

/-- Written entries of distinct keys are a record. -/
theorem isRecord_membersOf (fields : List String) {entries : List (String × Tree)}
    (hnodup : (entries.map Prod.fst).Nodup) :
    IsRecord fields (entries.lookup ·) (.object (membersOf entries) true) :=
  .named _ (fun _ => isSome_decode?_of_mem_membersOf) fun name _ =>
    valuesNamed_membersOf hnodup name

/-- Items are a record of the fields at their positions. -/
theorem isRecord_items (hnodup : fields.Nodup) {items : List Tree}
    (hlength : items.length ≤ fields.length) :
    IsRecord fields ((fields.zip items).lookup ·) (.array items true) :=
  .positional items hlength fun _ _ hname => lookup_zip hnodup hname items

/-! ## Reading records -/

/-- The step takes the field in, unless it was seen before. -/
def Takes (step : σ → String → Tree → Decoded σ) (state : (String → Bool) → σ) (name : String)
    (t : Tree) : Prop :=
  ∀ seen, seen name = false →
    step (state seen) name t = .ok (state fun n => n == name || seen n)

/-- A step that skips what is none of the fields, and states that are told apart by the
fields that were seen. -/
structure Fieldwise (fields : List String) (step : σ → String → Tree → Decoded σ)
    (state : (String → Bool) → σ) : Prop where
  nodup : fields.Nodup
  skip : ∀ s name t, name ∉ fields → step s name t = .ok s
  congr : ∀ seen other, (∀ name ∈ fields, seen name = other name) → state seen = state other

variable {step : σ → String → Tree → Decoded σ} {state : (String → Bool) → σ}

/-- The members of the fields are all taken in, and the others do not show. -/
theorem foldMembers_eq (hstep : Fieldwise fields step state) {members : List (RawText × Tree)}
    (hkeys : ∀ m ∈ members, m.1.decode?.isSome)
    (htakes : ∀ name ∈ fields, ∀ t ∈ valuesNamed members name, Takes step state name t)
    (seen : String → Bool)
    (honce : ∀ name ∈ fields, (seen name).toNat + (valuesNamed members name).length ≤ 1) :
    foldMembers step (state seen) members =
      .ok (state fun name => seen name || !(valuesNamed members name).isEmpty) := by
  induction members generalizing seen with
  | nil =>
      rw [foldMembers]
      exact congrArg Except.ok (hstep.congr _ _ fun name _ => by simp [valuesNamed])
  | cons m members ih =>
      obtain ⟨hkey, hkeys⟩ := List.forall_mem_cons.mp hkeys
      obtain ⟨name, hname⟩ := Option.isSome_iff_exists.mp hkey
      simp only [valuesNamed_cons hname] at htakes honce ⊢
      have hrest : ∀ field ∈ fields, ∀ u ∈ valuesNamed members field,
          Takes step state field u := by
        intro field hfield u hu
        refine htakes field hfield u ?_
        split
        · exact List.mem_cons_of_mem _ hu
        · exact hu
      rw [foldMembers, decodeText, hname]
      by_cases hfield : name ∈ fields
      · -- A field is taken in here, so it was not seen and stands nowhere else.
        have hfirst := honce name hfield
        rw [if_pos rfl, List.length_cons] at hfirst
        have hseen : seen name = false := by
          cases hs : seen name with
          | false => rfl
          | true =>
              rw [hs, Bool.toNat_true] at hfirst
              omega
        have hlast : valuesNamed members name = [] := List.eq_nil_of_length_eq_zero (by omega)
        have htake : step (state seen) name m.2 = .ok (state fun n => n == name || seen n) := by
          refine htakes name hfield m.2 ?_ seen hseen
          rw [if_pos rfl]
          exact List.mem_cons_self
        have hnext := ih hkeys hrest (fun n => n == name || seen n) (by
          intro field hmem
          by_cases heq : field = name
          · rw [heq, hlast]
            exact Bool.toNat_le _
          · have hcount := honce field hmem
            rwa [if_neg heq, ← Bool.false_or (seen field), ← beq_eq_false_iff_ne.mpr heq] at hcount)
        simp only [bind, Except.bind, htake, hnext]
        refine congrArg Except.ok (hstep.congr _ _ fun field _ => ?_)
        by_cases heq : field = name
        · simp [heq]
        · rw [if_neg heq, beq_eq_false_iff_ne.mpr heq, Bool.false_or]
      · have hother : ∀ field ∈ fields, field ≠ name :=
          fun field hmem heq => hfield (heq ▸ hmem)
        have hnext := ih hkeys hrest seen (by
          intro field hmem
          have hcount := honce field hmem
          rwa [if_neg (hother field hmem)] at hcount)
        simp only [bind, Except.bind, hstep.skip _ _ _ hfield, hnext]
        refine congrArg Except.ok (hstep.congr _ _ fun field hmem => ?_)
        rw [if_neg (hother field hmem)]

/-- What a record gives is read off members, whichever way it is written. -/
theorem exists_members_of_isRecord (hnodup : fields.Nodup) {t : Tree}
    (h : IsRecord fields given t) :
    ∃ members : List (RawText × Tree), (∀ m ∈ members, m.1.decode?.isSome) ∧
      (∀ name ∈ fields, valuesNamed members name = (given name).toList) ∧
      ∀ {start s : σ} {finish : σ → Decoded α} {a : α},
        foldMembers step start members = .ok s → finish s = .ok a →
          record fields start step finish t = .ok a := by
  cases h with
  | named members hkeys hvalues =>
      refine ⟨members, hkeys, hvalues, fun hfold hfinish => ?_⟩
      simp only [record, hfold, bind, Except.bind, if_true, hfinish]
  | positional items hlength hvalues =>
      refine ⟨membersOf (fields.zip items), fun _ => isSome_decode?_of_mem_membersOf,
        fun name hname => ?_, fun hfold hfinish => ?_⟩
      · obtain ⟨i, hi⟩ := List.getElem?_of_mem hname
        have hdistinct := hnodup.sublist (map_fst_zip_sublist fields items)
        rw [valuesNamed_membersOf hdistinct, lookup_zip hnodup hi, hvalues i name hi]
      · rw [← foldItems_eq_foldMembers] at hfold
        simp only [record, hfold, bind, Except.bind, decide_eq_true hlength, Bool.and_self,
          if_true, hfinish, Except.mapError]

/-- A record is read as what the state of its fields comes to. -/
theorem record_of_isRecord (hstep : Fieldwise fields step state) {t : Tree}
    (h : IsRecord fields given t)
    (htakes : ∀ name ∈ fields, ∀ u, given name = some u → Takes step state name u)
    {finish : σ → Decoded α} {a : α}
    (hfinish : finish (state fun name => (given name).isSome) = .ok a) :
    record fields (state fun _ => false) step finish t = .ok a := by
  obtain ⟨members, hkeys, hvalues, hrecord⟩ := exists_members_of_isRecord hstep.nodup h
  refine hrecord (foldMembers_eq hstep hkeys (fun name hname u hu => ?_) _ fun name hname => ?_) ?_
  · rw [hvalues name hname, Option.mem_toList] at hu
    exact htakes name hname u hu
  · rw [hvalues name hname]
    cases given name with
    | none => exact Nat.zero_le 1
    | some u => exact Nat.le_refl 1
  · rw [← hfinish]
    refine congrArg finish (hstep.congr _ _ fun name hname => ?_)
    rw [hvalues name hname]
    cases given name <;> rfl

/-- A field is taken in by its reader. -/
theorem once_of_not_seen {read : Tree → Decoded α} {t : Tree} {a : α} (h : read t = .ok a)
    (name : String) : once name none read t = .ok (some a) := by
  rw [once, h]
  rfl

end Tree

end Json

end NetReplay
