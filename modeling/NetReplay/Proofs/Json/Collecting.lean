import NetReplay.Proofs.Json.Record

/-!
# What was read was there

Readers find nothing that the document does not say. A document that is arranged is
whole, or its outermost container was given up (`whole_or_unfinished`), so a reader that
refuses what was given up reads documents through the values that they spell, whatever it
skips on the way (`document_eq_ok_iff_of_finished`).

A record that was read gives its fields once each, by name or by position, and the data
goes back to what it gives (`Collects.exists_isRecord`). This holds of readers that
collect their fields one by one (`Collects`), and is the converse of `record_of_isRecord`.
-/

namespace NetReplay

namespace Json

/-- Of two runs one after the other, both succeed. -/
theorem bind_eq_ok_iff {ε α β : Type} {x : Except ε α} {f : α → Except ε β} {b : β} :
    (x >>= f) = .ok b ↔ ∃ a, x = .ok a ∧ f a = .ok b := by
  cases x with
  | error e => exact ⟨nofun, fun ⟨_, h, _⟩ => nomatch h⟩
  | ok a => exact ⟨fun h => ⟨a, rfl, h⟩, fun ⟨_, h, hf⟩ => Except.ok.inj h ▸ hf⟩

/-! ## Arranged values -/

namespace Tree

/-- The value was given up before it was finished. -/
inductive Unfinished : Tree → Prop
  | broken : Unfinished .broken
  | array (items : List Tree) : Unfinished (.array items false)
  | object (members : List (RawText × Tree)) : Unfinished (.object members false)

end Tree

open NetReplay.Json.Tree

/-- All values in the container are whole. -/
def Open.Sound : Open → Prop
  | .array items => ∀ t ∈ items, t.Whole
  | .object members => ∀ m ∈ members, m.2.Whole

/-- All values in front of the hole are whole. -/
def Hole.Sound : Hole → Prop
  | .item items => ∀ t ∈ items, t.Whole
  | .member members _ => ∀ m ∈ members, m.2.Whole

/-- All values of the innermost container are whole. -/
def Await.Sound : Await → Prop
  | .key members | .colon members _ => ∀ m ∈ members, m.2.Whole
  | .separator container => container.Sound
  | .value | .item | .firstKey => True

/-- Only whole values are placed or finished. -/
def Progress.Sound : Progress → Prop
  | .more await holes => await.Sound ∧ ∀ hole ∈ holes, hole.Sound
  | .done t => t.Whole
  | .stuck => True

theorem Hole.sound_fill {hole : Hole} (h : hole.Sound) {t : Tree} (ht : t.Whole) :
    (hole.fill t).Sound := by
  cases hole with
  | item items => exact List.forall_mem_cons.mpr ⟨ht, h⟩
  | member members key => exact List.forall_mem_cons.mpr ⟨ht, h⟩

theorem Open.whole_close {container : Open} (h : container.Sound) :
    (container.close true).Whole := by
  cases container with
  | array items => exact .array _ fun t ht => h t (List.mem_reverse.mp ht)
  | object members => exact .object _ fun m hm => h m (List.mem_reverse.mp hm)

variable {holes : List Hole}

theorem sound_place {t : Tree} (ht : t.Whole) (hholes : ∀ hole ∈ holes, hole.Sound) :
    (place t holes).Sound := by
  cases holes with
  | nil => exact ht
  | cons hole holes =>
      rw [List.forall_mem_cons] at hholes
      exact ⟨Hole.sound_fill hholes.1 ht, hholes.2⟩

theorem sound_startValue (token : Token) (hholes : ∀ hole ∈ holes, hole.Sound) :
    (startValue token holes).Sound := by
  cases token with
  | null => exact sound_place .null hholes
  | bool b => exact sound_place (.bool b) hholes
  | number n => exact sound_place (.number n) hholes
  | string t => exact sound_place (.string t) hholes
  | openArray => exact ⟨trivial, hholes⟩
  | openObject => exact ⟨trivial, hholes⟩
  | _ => trivial

theorem sound_step {await : Await} (h : await.Sound) (hholes : ∀ hole ∈ holes, hole.Sound)
    (token : Token) : (await.step holes token).Sound := by
  unfold Await.step
  split
  · exact sound_startValue token hholes
  · exact sound_place (.array [] (List.forall_mem_nil _)) hholes
  · exact sound_startValue token (List.forall_mem_cons.mpr ⟨List.forall_mem_nil _, hholes⟩)
  · exact sound_place (.object [] (List.forall_mem_nil _)) hholes
  · exact ⟨List.forall_mem_nil _, hholes⟩
  · exact ⟨h, hholes⟩
  · exact ⟨trivial, List.forall_mem_cons.mpr ⟨h, hholes⟩⟩
  · exact ⟨trivial, List.forall_mem_cons.mpr ⟨h, hholes⟩⟩
  · exact sound_place (Open.whole_close h) hholes
  · exact ⟨h, hholes⟩
  · exact sound_place (Open.whole_close h) hholes
  · trivial

theorem unfinished_close (container : Open) : (container.close false).Unfinished := by
  cases container with
  | array items => exact .array _
  | object members => exact .object _

theorem unfinished_abandon {t : Tree} (h : t.Unfinished) (holes : List Hole) :
    (abandon t holes).Unfinished := by
  induction holes generalizing t with
  | nil => exact h
  | cons hole holes ih => exact ih (unfinished_close _)

theorem unfinished_giveUp (await : Await) (holes : List Hole) :
    (await.giveUp holes).Unfinished := by
  cases await with
  | value => exact unfinished_abandon .broken holes
  | item => exact unfinished_abandon (.array []) holes
  | firstKey => exact unfinished_abandon (.object []) holes
  | key members => exact unfinished_abandon (unfinished_close (.object members)) holes
  | colon members name => exact unfinished_abandon (unfinished_close _) holes
  | separator container => exact unfinished_abandon (unfinished_close container) holes

/-- Arranging ends with a whole value, or gives the outermost container up. -/
theorem whole_or_unfinished_arrange {await : Await} (h : await.Sound)
    (hholes : ∀ hole ∈ holes, hole.Sound) (ts : List Token) :
    (arrange await holes ts).1.Whole ∨ (arrange await holes ts).1.Unfinished := by
  induction ts generalizing await holes with
  | nil => exact Or.inr (unfinished_giveUp await holes)
  | cons token rest ih =>
      have hstep := sound_step h hholes token
      rw [arrange]
      cases hnext : await.step holes token with
      | more next inner =>
          rw [hnext] at hstep
          exact ih hstep.1 hstep.2
      | done t =>
          rw [hnext] at hstep
          exact Or.inl hstep
      | stuck => exact Or.inr (unfinished_giveUp await holes)

theorem whole_or_unfinished (ts : List Token) :
    (ofTokens ts).1.Whole ∨ (ofTokens ts).1.Unfinished := by
  have hstart : Await.value.Sound := trivial
  exact whole_or_unfinished_arrange hstart (List.forall_mem_nil _) ts

/-- A document is read by reading the value that it spells, when the reader refuses what
was given up. -/
theorem document_eq_ok_iff_of_finished {α : Type} {read : Tree → Decoded α}
    (hfinished : ∀ t a, read t = .ok a → ¬ t.Unfinished) (s : List UInt8) (a : α) :
    document read s = .ok a ↔ ∃ t : Tree, t.Spelled s ∧ read t = .ok a :=
  document_eq_ok_iff (fun b hread => (whole_or_unfinished _).resolve_right (hfinished _ b hread)) a

namespace Tree

variable {α σ : Type}

/-! ## Optional values, lists and tables -/

section

variable {read : Tree → Decoded α} {means : Tree → α → Prop}

theorem isNullable_of_nullable (hread : ∀ t a, read t = .ok a → means t a) {t : Tree}
    {a : Option α} (h : nullable read t = .ok a) : IsNullable means t a := by
  by_cases hnull : t = .null
  · subst hnull
    cases h
    exact .null
  · rw [nullable, map_eq_pure_bind] at h
    · obtain ⟨b, hvalue, hb⟩ := bind_eq_ok_iff.mp h
      cases hb
      exact .value hnull (hread t b hvalue)
    · exact hnull

theorem isList_of_list (hread : ∀ t a, read t = .ok a → means t a) {t : Tree} {l : List α}
    (h : list read t = .ok l) : IsList means t l := by
  cases t with
  | array items whole =>
      obtain ⟨values, hitems, hwhole⟩ := bind_eq_ok_iff.mp h
      cases whole with
      | false => cases hwhole
      | true =>
          cases hwhole
          exact ⟨items, rfl, (mapM_eq_ok_iff.mp hitems).imp hread⟩
  | _ => cases h

theorem decodeText_eq_ok_iff (raw : RawText) (s : String) :
    decodeText raw = .ok s ↔ raw.decode? = some s := by
  rw [decodeText]
  cases raw.decode? with
  | none => simp only [reduceCtorEq]
  | some text => rw [Except.ok.injEq, Option.some.injEq]

theorem isTable_of_table (hread : ∀ t a, read t = .ok a → means t a) {t : Tree}
    {entries : Table α} (h : table read t = .ok entries) : IsTable means t entries := by
  cases t with
  | object members whole =>
      obtain ⟨pairs, hmembers, hwhole⟩ := bind_eq_ok_iff.mp h
      cases whole with
      | false => cases hwhole
      | true =>
          cases hwhole
          refine ⟨members, pairs, rfl, (mapM_eq_ok_iff.mp hmembers).imp ?_, rfl⟩
          rintro ⟨key, u⟩ ⟨name, a⟩ hentry
          obtain ⟨text, hkey, hentry⟩ := bind_eq_ok_iff.mp hentry
          obtain ⟨b, hvalue, hentry⟩ := bind_eq_ok_iff.mp hentry
          cases hentry
          exact ⟨(decodeText_eq_ok_iff key name).mp hkey, hread u a hvalue⟩
  | _ => cases h

end

/-! ## Fields -/

/-- A field that may be given once was not given before. -/
theorem once_eq_ok {read : Tree → Decoded α} {name : String} {field kept : Option α} {t : Tree}
    (h : once name field read t = .ok kept) :
    field = none ∧ ∃ a, read t = .ok a ∧ kept = some a := by
  cases field with
  | some a => cases h
  | none =>
      rw [once, map_eq_pure_bind] at h
      obtain ⟨a, hread, ha⟩ := bind_eq_ok_iff.mp h
      cases ha
      exact ⟨rfl, a, hread, rfl⟩

theorem given_of_required {means : Tree → α → Prop} {field : Option Tree} {kept : Option α}
    (h : Option.Rel means field kept) {name : String} {a : α}
    (hrequired : required name kept = .ok a) : Given means field a := by
  cases h with
  | none => cases hrequired
  | some hmeans =>
      cases hrequired
      exact ⟨_, rfl, hmeans⟩

theorem givenOr_getD {means : Tree → α → Prop} {field : Option Tree} {kept : Option α}
    (h : Option.Rel means field kept) (default : α) :
    GivenOr default means field (kept.getD default) := by
  cases h with
  | none => exact Or.inl ⟨rfl, rfl⟩
  | some hmeans => exact Or.inr ⟨_, rfl, hmeans⟩

/-! ## Records -/

/-- The values given for fields, with that of a further one. -/
def withGiven (given : String → Option Tree) (name : String) (t : Tree) (field : String) :
    Option Tree :=
  if field = name then some t else given field

/-- A step that takes a field in keeps what it means. -/
theorem rel_of_once {read : Tree → Decoded α} {means : Tree → α → Prop}
    (hread : ∀ t a, read t = .ok a → means t a) {given : String → Option Tree} {name : String}
    {field : Option α} (hfield : Option.Rel means (given name) field) {t : Tree}
    {put : Option α → σ} {next : σ}
    (h : (do pure (put (← once name field read t))) = Except.ok next) :
    given name = none ∧
      ∃ kept, Option.Rel means (withGiven given name t name) kept ∧ put kept = next := by
  obtain ⟨kept, honce, hnext⟩ := bind_eq_ok_iff.mp h
  obtain ⟨rfl, a, hvalue, rfl⟩ := once_eq_ok honce
  rw [withGiven, if_pos rfl]
  generalize given name = before at hfield
  cases hfield
  exact ⟨rfl, some a, .some (hread t a hvalue), Except.ok.inj hnext⟩

/-- A step that skips what is none of the fields, and takes each field in once. What the
states hold of the fields is kept. -/
structure Collects (fields : List String) (start : σ) (step : σ → String → Tree → Decoded σ)
    (holds : (String → Option Tree) → σ → Prop) : Prop where
  nodup : fields.Nodup
  start : holds (fun _ => none) start
  skip : ∀ s name t, name ∉ fields → step s name t = .ok s
  take : ∀ given s name t next, name ∈ fields → holds given s → step s name t = .ok next →
    given name = none ∧ holds (withGiven given name t) next

variable {fields : List String} {start : σ} {step : σ → String → Tree → Decoded σ}
  {holds : (String → Option Tree) → σ → Prop}

/-- Members that were taken in are the values of their fields. -/
theorem Collects.exists_of_foldMembers (hstep : Collects fields start step holds)
    {given : String → Option Tree} {s next : σ} (hs : holds given s)
    {members : List (RawText × Tree)} (hrun : foldMembers step s members = .ok next) :
    (∀ m ∈ members, m.1.decode?.isSome) ∧ ∃ all, holds all next ∧
      ∀ name ∈ fields, (given name).toList ++ valuesNamed members name = (all name).toList := by
  induction members generalizing given s with
  | nil =>
      cases hrun
      exact ⟨List.forall_mem_nil _, given, hs, fun name _ => List.append_nil _⟩
  | cons m members ih =>
      obtain ⟨name, hkey, hrun⟩ := bind_eq_ok_iff.mp hrun
      obtain ⟨between, hfirst, hrest⟩ := bind_eq_ok_iff.mp hrun
      have hname := (decodeText_eq_ok_iff m.1 name).mp hkey
      have hsome : m.1.decode?.isSome := by rw [hname, Option.isSome_some]
      simp only [valuesNamed_cons hname]
      by_cases hfield : name ∈ fields
      · obtain ⟨hnone, hbetween⟩ := hstep.take given s name m.2 between hfield hs hfirst
        obtain ⟨hkeys, all, hall, hvalues⟩ := ih hbetween hrest
        refine ⟨List.forall_mem_cons.mpr ⟨hsome, hkeys⟩, all, hall, fun field hmem => ?_⟩
        rw [← hvalues field hmem, withGiven]
        by_cases heq : field = name
        · rw [if_pos heq, if_pos heq, heq, hnone]
          rfl
        · rw [if_neg heq, if_neg heq]
      · rw [hstep.skip s name m.2 hfield, Except.ok.injEq] at hfirst
        subst hfirst
        obtain ⟨hkeys, all, hall, hvalues⟩ := ih hs hrest
        refine ⟨List.forall_mem_cons.mpr ⟨hsome, hkeys⟩, all, hall, fun field hmem => ?_⟩
        have hne : field ≠ name := fun heq => hfield (heq ▸ hmem)
        rw [← hvalues field hmem, if_neg hne]

/-- A record that was read is one, and its data were put together from its fields. -/
theorem Collects.exists_isRecord (hstep : Collects fields start step holds)
    {finish : σ → Decoded α} {t : Tree} {a : α} (h : record fields start step finish t = .ok a) :
    ∃ given s, IsRecord fields given t ∧ holds given s ∧ finish s = .ok a := by
  cases t with
  | object members whole =>
      obtain ⟨s, hfold, hfinish⟩ := bind_eq_ok_iff.mp h
      obtain ⟨hkeys, given, hholds, hvalues⟩ := hstep.exists_of_foldMembers hstep.start hfold
      cases whole with
      | false => cases hfinish
      | true => exact ⟨given, s, .named members hkeys hvalues, hholds, hfinish⟩
  | array items whole =>
      obtain ⟨s, hfold, hfinish⟩ := bind_eq_ok_iff.mp h
      rw [foldItems_eq_foldMembers] at hfold
      obtain ⟨-, given, hholds, hvalues⟩ := hstep.exists_of_foldMembers hstep.start hfold
      split at hfinish
      · rename_i hlength
        obtain ⟨rfl, hlength⟩ := Bool.and_eq_true_iff.mp hlength
        refine ⟨given, s, .positional items (of_decide_eq_true hlength) fun i name hi => ?_, hholds,
          ?_⟩
        · have hdistinct := hstep.nodup.sublist (map_fst_zip_sublist fields items)
          have hlist := hvalues name (List.mem_of_getElem? hi)
          rw [valuesNamed_membersOf hdistinct, lookup_zip hstep.nodup hi, Option.toList_none,
            List.nil_append] at hlist
          refine Option.ext fun u => ?_
          rw [← Option.mem_toList, ← hlist, Option.mem_toList]
        · cases hdata : finish s with
          | error cause =>
              rw [hdata] at hfinish
              cases hfinish
          | ok b =>
              rw [hdata] at hfinish
              exact hfinish
      · cases hfinish
  | _ => cases h

/-- A record that was given up is refused. -/
theorem not_unfinished_of_record {finish : σ → Decoded α} {t : Tree} {a : α}
    (h : record fields start step finish t = .ok a) : ¬ t.Unfinished := by
  intro hunfinished
  cases hunfinished with
  | broken => cases h
  | array items =>
      obtain ⟨s, -, hfinish⟩ := bind_eq_ok_iff.mp h
      cases hfinish
  | object members =>
      obtain ⟨s, -, hfinish⟩ := bind_eq_ok_iff.mp h
      cases hfinish

end Tree

end Json

end NetReplay
