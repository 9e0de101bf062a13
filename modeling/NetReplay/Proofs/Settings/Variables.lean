import NetReplay.Proofs.Device.Runs
import NetReplay.Proofs.Text.Spelling
import NetReplay.Proofs.Text.Utf8
import NetReplay.Settings.Basic

/-!
# Settings from the variables of an environment

Each field of the settings is decided by its own variable (`Settings.Described`). A variable
that shows nothing (`Environment.Silent`) leaves the default. Otherwise a path is the text of
its variable, and the other two fields are what the text spells, whichever spelling of a word
it is (`Settings.ReadsWords`). The settings cannot be read exactly when one of these two
texts spells no word (`Environment.Outside`), and the device is looked at first
(`Settings.Refused`).

The main result is `Settings.ofEnvironment_fieldwise`.
-/

namespace NetReplay

/-! ## Single variables -/

namespace Environment

/-- The variable shows nothing: it is not set, its bytes are no text, or its text has no
characters but blanks. -/
inductive Silent (env : Environment) (name : String) : Prop
  | unset (hnone : env.values.get? name = none)
  | unreadable {s : List UInt8} (hs : env.values.get? name = some s)
      (hno : ∀ text : String, text.toUTF8.toList ≠ s)
  | blank {text : String} (htext : env.values.get? name = some text.toUTF8.toList)
      (hblank : Text.Blanks text.toList)

/-- The variable has this text, and there is a character in it that shows. -/
structure Shows (env : Environment) (name text : String) : Prop where
  value : env.values.get? name = some text.toUTF8.toList
  visible : ¬ Text.Blanks text.toList

/-- The variables have the same value, or spell the same word. -/
def Alike (env other : Environment) (name : String) : Prop :=
  env.values.get? name = other.values.get? name ∨
    ∃ v w : String, env.values.get? name = some v.toUTF8.toList ∧
      other.values.get? name = some w.toUTF8.toList ∧ Text.Respelled v w

variable {env other : Environment} {name : String}

theorem text?_eq_some_iff (env : Environment) (name text : String) :
    env.text? name = some text ↔ env.values.get? name = some text.toUTF8.toList := by
  rw [text?, Option.bind_eq_some_iff]
  constructor
  · rintro ⟨s, hs, htext⟩
    rw [(Text.fromUTF8?_eq_some_iff s text).mp htext]
    exact hs
  · intro h
    exact ⟨_, h, Text.fromUTF8?_toUTF8 text⟩

theorem nonBlank?_eq_some_iff (env : Environment) (name text : String) :
    env.nonBlank? name = some text ↔ env.Shows name text := by
  rw [nonBlank?, Option.filter_eq_some_iff, text?_eq_some_iff, Bool.not_eq_true',
    ← Bool.not_eq_true, Text.isBlank, List.all_eq_true]
  exact ⟨fun h => ⟨h.1, h.2⟩, fun h => ⟨h.value, h.visible⟩⟩

theorem silent_or_shows (env : Environment) (name : String) :
    env.Silent name ∨ ∃ text, env.Shows name text := by
  cases hs : env.values.get? name with
  | none => exact Or.inl (.unset hs)
  | some s =>
      by_cases htext : ∃ text : String, text.toUTF8.toList = s
      · obtain ⟨text, rfl⟩ := htext
        by_cases hblank : Text.Blanks text.toList
        · exact Or.inl (.blank hs hblank)
        · exact Or.inr ⟨text, hs, hblank⟩
      · exact Or.inl (.unreadable hs (not_exists.mp htext))

theorem Silent.not_shows (h : env.Silent name) (text : String) : ¬ env.Shows name text := by
  rintro ⟨hvalue, hvisible⟩
  cases h with
  | unset hnone => cases hnone.symm.trans hvalue
  | unreadable hs hno => exact hno text (Option.some.inj (hvalue.symm.trans hs))
  | @blank other htext hblank =>
      have hsame := (text?_eq_some_iff env name other).mpr htext
      rw [(text?_eq_some_iff env name text).mpr hvalue, Option.some.injEq] at hsame
      exact hvisible (hsame ▸ hblank)

theorem nonBlank?_eq_none_iff (env : Environment) (name : String) :
    env.nonBlank? name = none ↔ env.Silent name := by
  rw [Option.eq_none_iff_forall_ne_some]
  simp only [ne_eq, nonBlank?_eq_some_iff]
  constructor
  · exact fun hnone => (silent_or_shows env name).resolve_right fun ⟨text, h⟩ => hnone text h
  · exact fun h text => h.not_shows text

theorem nonBlank?_congr (h : env.values.get? name = other.values.get? name) :
    env.nonBlank? name = other.nonBlank? name := by
  rw [nonBlank?, nonBlank?, text?, text?, h]

/-- Alike variables are both silent, or they spell the same word. -/
theorem Alike.cases (h : env.Alike other name) :
    (env.Silent name ∧ other.Silent name) ∨
      ∃ v w, env.Shows name v ∧ other.Shows name w ∧ Text.Respelled v w := by
  rcases h with hvalue | ⟨v, w, hv, hw, hspelled⟩
  · have hsame := nonBlank?_congr hvalue
    rcases silent_or_shows env name with hsilent | ⟨text, hshows⟩
    · rw [← nonBlank?_eq_none_iff] at hsilent
      exact Or.inl ⟨(nonBlank?_eq_none_iff _ _).mp hsilent,
        (nonBlank?_eq_none_iff _ _).mp (hsame ▸ hsilent)⟩
    · rw [← nonBlank?_eq_some_iff] at hshows
      exact Or.inr ⟨text, text, (nonBlank?_eq_some_iff _ _ _).mp hshows,
        (nonBlank?_eq_some_iff _ _ _).mp (hsame ▸ hshows),
        (Text.fold_eq_fold_iff _ _).mp rfl⟩
  · have hblank : Text.Blanks v.toList ↔ Text.Blanks w.toList := hspelled.blanks_iff
    by_cases hv' : Text.Blanks v.toList
    · exact Or.inl ⟨.blank hv hv', .blank hw (hblank.mp hv')⟩
    · exact Or.inr ⟨v, w, ⟨hv, hv'⟩, ⟨hw, mt hblank.mpr hv'⟩, hspelled⟩

/-- A field as its variable decides it: the default where the variable is silent, and else
what its text means. -/
inductive Decides {α : Type} (env : Environment) (name : String) (default : α)
    (means : α → String → Prop) : α → Prop
  | silent (h : env.Silent name) : Decides env name default means default
  | shows {text : String} {a : α} (h : env.Shows name text) (hmeans : means a text) :
      Decides env name default means a

theorem decides_iff {α : Type} (env : Environment) (name : String) (default a : α)
    (means : α → String → Prop) :
    env.Decides name default means a ↔ (env.nonBlank? name).elim (a = default) (means a) := by
  obtain hsilent | ⟨text, hshows⟩ := env.silent_or_shows name
  · rw [(nonBlank?_eq_none_iff env name).mpr hsilent, Option.elim_none]
    constructor
    · rintro (- | ⟨hshows, -⟩)
      · rfl
      · exact absurd hshows (hsilent.not_shows _)
    · rintro rfl
      exact .silent hsilent
  · have htext := (nonBlank?_eq_some_iff env name text).mpr hshows
    rw [htext, Option.elim_some]
    constructor
    · rintro (hsilent | ⟨hother, hmeans⟩)
      · exact absurd hshows (hsilent.not_shows text)
      · cases htext.symm.trans ((nonBlank?_eq_some_iff env name _).mpr hother)
        exact hmeans
    · exact .shows hshows

/-- The variable shows something that is none of the words. -/
def Outside {α : Type} (env : Environment) (name : String) (words : α → List String) : Prop :=
  ∃ text, env.Shows name text ∧ ∀ a, ¬ Text.Spells (words a) text

end Environment

/-! ## Words -/

/-- The words for kinds of device do not overlap. -/
theorem DeviceKind.find?_words_iff (word : String) (kind : DeviceKind) :
    (all.find? fun k => k.words.contains word) = some kind ↔ word ∈ kind.words := by
  constructor
  · intro h
    have hcontains := List.find?_some (p := fun k : DeviceKind => k.words.contains word) h
    exact List.contains_iff_mem.mp hcontains
  · intro h
    cases kind with
    | host =>
        rcases List.mem_pair.mp h with rfl | rfl
        · rfl
        · rfl
    | openCl =>
        obtain rfl | h := List.mem_cons.mp h
        · rfl
        · rcases List.mem_pair.mp h with rfl | rfl
          · rfl
          · rfl
    | metal =>
        rcases List.mem_pair.mp h with rfl | rfl
        · rfl
        · rfl

namespace Settings

/-- The words for yes and no. -/
def flagWords : Bool → List String
  | true => ["true", "1", "yes", "on"]
  | false => ["false", "0", "no", "off"]

theorem flag?_eq_some_iff (text : String) (b : Bool) :
    flag? text = some b ↔ Text.fold text ∈ flagWords b := by
  have hapart : ∀ word ∈ flagWords true, word ∉ flagWords false := by decide
  by_cases hyes : Text.fold text ∈ flagWords true
  · have hflag : flag? text = some true := if_pos (List.contains_iff_mem.mpr hyes)
    rw [hflag]
    cases b with
    | true => exact iff_of_true rfl hyes
    | false => exact iff_of_false nofun (hapart _ hyes)
  · have hflag : flag? text = if (flagWords false).contains (Text.fold text) then some false
        else none := if_neg (mt List.contains_iff_mem.mp hyes)
    rw [hflag, Option.ite_none_right_eq_some, List.contains_iff_mem]
    cases b with
    | true => simp [hyes]
    | false => simp

/-- A text is read as the thing that one of its words is spelled in it. A text that spells
no word is refused with a complaint about it. -/
structure ReadsWords {α : Type} (read : String → Except Error α) (words : α → List String)
    (complaint : String → Error) : Prop where
  ok_iff : ∀ text a, read text = .ok a ↔ Text.Spells (words a) text
  error : ∀ text e, read text = .error e → e = complaint text

/-- What is said of a text that names no kind of device. -/
def unknownDevice (text : String) : Error :=
  .invalidSetting (.backend (.unsupportedOperation s!"unknown backend `{Text.fold text}`"))

/-- What is said of a text that is neither yes nor no. -/
def unknownFlag (text : String) : Error := .invalidSetting (.eagerValidation text)

theorem readsWords_readDevice : ReadsWords readDevice DeviceKind.words unknownDevice where
  ok_iff text kind := by
    have hwords : ∀ w ∈ kind.words, Text.fold w = w := by
      cases kind with
      | host => decide
      | openCl => decide
      | metal => decide
    rw [Text.spells_iff hwords, ← DeviceKind.find?_words_iff, readDevice, DeviceKind.ofText]
    split
    · rename_i k hfind
      rw [hfind, mapError_ok, Except.ok.injEq, Option.some.injEq]
    · rename_i hfind
      rw [hfind]
      exact iff_of_false nofun nofun
  error text e he := by
    rw [readDevice, DeviceKind.ofText] at he
    split at he
    · cases he
    · cases he
      rfl

theorem readsWords_readFlag : ReadsWords readFlag flagWords unknownFlag where
  ok_iff text b := by
    have hwords : ∀ w ∈ flagWords b, Text.fold w = w := by
      cases b with
      | true => decide
      | false => decide
    rw [Text.spells_iff hwords, ← flag?_eq_some_iff, readFlag]
    cases flag? text with
    | none => exact iff_of_false nofun nofun
    | some c => rw [Except.ok.injEq, Option.some.injEq]
  error text e he := by
    rw [readFlag] at he
    cases hflag : flag? text with
    | some b =>
        rw [hflag] at he
        cases he
    | none =>
        rw [hflag] at he
        cases he
        rfl

/-! ## Fields -/

variable {env other : Environment} {name : String}

/-- A field that is read from the text of its variable. -/
def readField {α : Type} (env : Environment) (name : String) (read : String → Except Error α)
    (default : α) : Except Error α :=
  (env.nonBlank? name).elim (.ok default) read

section

variable {α : Type} {read : String → Except Error α} {default a : α}

theorem readField_of_silent (h : env.Silent name) : readField env name read default = .ok default := by
  rw [readField, (env.nonBlank?_eq_none_iff name).mpr h]
  rfl

theorem readField_of_shows {text : String} (h : env.Shows name text) :
    readField env name read default = read text := by
  rw [readField, (env.nonBlank?_eq_some_iff name text).mpr h]
  rfl

variable {words : α → List String} {complaint : String → Error}

theorem readField_eq_ok_iff (hread : ReadsWords read words complaint) :
    readField env name read default = .ok a ↔
      env.Decides name default (fun a => Text.Spells (words a)) a := by
  rw [Environment.decides_iff, readField]
  cases env.nonBlank? name with
  | none => exact (Except.ok.injEq default a).to_iff.trans eq_comm
  | some text => exact hread.ok_iff text a

theorem readField_eq_error_iff (hread : ReadsWords read words complaint) {e : Error} :
    readField env name read default = .error e ↔
      ∃ text, env.Shows name text ∧ (∀ a, ¬ Text.Spells (words a) text) ∧ e = complaint text := by
  constructor
  · intro h
    obtain hsilent | ⟨text, hshows⟩ := env.silent_or_shows name
    · rw [readField_of_silent hsilent] at h
      cases h
    · rw [readField_of_shows hshows] at h
      refine ⟨text, hshows, fun a hspells => ?_, hread.error _ _ h⟩
      cases h.symm.trans ((hread.ok_iff _ _).mpr hspells)
  · rintro ⟨text, hshows, hnone, rfl⟩
    rw [readField_of_shows hshows]
    cases htext : read text with
    | ok a => exact absurd ((hread.ok_iff _ _).mp htext) (hnone a)
    | error d => rw [hread.error _ _ htext]

/-- Variables that are alike give the same field. -/
theorem readField_eq_ok_iff_of_alike (hread : ReadsWords read words complaint)
    (h : env.Alike other name) :
    readField env name read default = .ok a ↔ readField other name read default = .ok a := by
  obtain ⟨hsilent, hother⟩ | ⟨v, w, hv, hw, hspelled⟩ := h.cases
  · rw [readField_of_silent hsilent, readField_of_silent hother]
  · rw [readField_of_shows hv, readField_of_shows hw, hread.ok_iff, hread.ok_iff,
      hspelled.spells_iff]

/-- A field can be read unless its variable shows something else than the words. -/
theorem exists_readField_iff (hread : ReadsWords read words complaint) :
    (∃ a, readField env name read default = .ok a) ↔ ¬ env.Outside name words := by
  constructor
  · rintro ⟨a, ha⟩ ⟨text, hshows, hnone⟩
    rw [readField_of_shows hshows] at ha
    exact hnone a ((hread.ok_iff _ _).mp ha)
  · intro h
    cases hfield : readField env name read default with
    | ok a => exact ⟨a, rfl⟩
    | error e =>
        obtain ⟨text, hshows, hnone, -⟩ := (readField_eq_error_iff hread).mp hfield
        exact absurd ⟨text, hshows, hnone⟩ h

theorem outside_iff_of_alike (hread : ReadsWords read words complaint) (default : α)
    (h : env.Alike other name) : env.Outside name words ↔ other.Outside name words := by
  have hsame : (∃ a, readField env name read default = .ok a) ↔
      ∃ a, readField other name read default = .ok a :=
    exists_congr fun _ => readField_eq_ok_iff_of_alike hread h
  rw [exists_readField_iff hread, exists_readField_iff hread] at hsame
  exact not_iff_not.mp hsame

end

/-- A path is the text of its variable as it stands there. -/
def pathField (env : Environment) (name default : String) : String :=
  (env.nonBlank? name).getD default

theorem pathField_congr (h : env.values.get? name = other.values.get? name) (default : String) :
    pathField env name default = pathField other name default := by
  rw [pathField, pathField, Environment.nonBlank?_congr h]

theorem pathField_eq_iff (env : Environment) (name default path : String) :
    pathField env name default = path ↔ env.Decides name default Eq path := by
  rw [Environment.decides_iff, pathField]
  cases env.nonBlank? name with
  | none => exact eq_comm
  | some text => exact eq_comm

/-! ## All fields -/

/-- The settings are decided field by field, each by its own variable. -/
structure Described (env : Environment) (s : Settings) : Prop where
  programPath : env.Decides "RNNR_MODEL" "net.json" Eq s.programPath
  weightsPath : env.Decides "RNNR_WEIGHTS" "net.safetensors" Eq s.weightsPath
  device : env.Decides "RNNR_BACKEND" .openCl (fun kind => Text.Spells kind.words) s.device
  eagerValidation : env.Decides "RNNR_EAGER_VALIDATION" false
    (fun b => Text.Spells (flagWords b)) s.eagerValidation

/-- Why there are no settings: the device is not known, or it is all right and the flag is
neither yes nor no. -/
inductive Refused (env : Environment) : Error → Prop
  | device {text : String} (h : env.Shows "RNNR_BACKEND" text)
      (hnone : ∀ kind : DeviceKind, ¬ Text.Spells kind.words text) :
      Refused env (unknownDevice text)
  | flag {text : String} (hdevice : ¬ env.Outside "RNNR_BACKEND" DeviceKind.words)
      (h : env.Shows "RNNR_EAGER_VALIDATION" text)
      (hnone : ∀ b, ¬ Text.Spells (flagWords b) text) : Refused env (unknownFlag text)

theorem mapM_bind_getD {α β : Type} (o : Option String) (read : String → Except Error α)
    (default : α) (f : α → Except Error β) :
    (o.mapM read >>= fun r => f (r.getD default)) = o.elim (.ok default) read >>= f := by
  cases o with
  | none => rfl
  | some text =>
      rw [Option.mapM_some, Option.elim_some]
      cases read text with
      | ok a => rfl
      | error e => rfl

theorem ofEnvironment_eq (env : Environment) :
    ofEnvironment env = readField env "RNNR_BACKEND" readDevice .openCl >>= fun device =>
      readField env "RNNR_EAGER_VALIDATION" readFlag false >>= fun eager =>
        .ok ⟨pathField env "RNNR_MODEL" "net.json",
          pathField env "RNNR_WEIGHTS" "net.safetensors", device, eager⟩ := by
  rw [readField, readField, ← mapM_bind_getD]
  refine bind_congr fun device => ?_
  rw [← mapM_bind_getD]
  rfl

theorem described_iff (env : Environment) (s : Settings) :
    Described env s ↔
      pathField env "RNNR_MODEL" "net.json" = s.programPath ∧
        pathField env "RNNR_WEIGHTS" "net.safetensors" = s.weightsPath ∧
        readField env "RNNR_BACKEND" readDevice .openCl = .ok s.device ∧
        readField env "RNNR_EAGER_VALIDATION" readFlag false = .ok s.eagerValidation := by
  rw [pathField_eq_iff, pathField_eq_iff, readField_eq_ok_iff readsWords_readDevice,
    readField_eq_ok_iff readsWords_readFlag]
  exact ⟨fun h => ⟨h.1, h.2, h.3, h.4⟩, fun h => ⟨h.1, h.2.1, h.2.2.1, h.2.2.2⟩⟩

theorem refused_iff (env : Environment) (e : Error) :
    Refused env e ↔
      readField env "RNNR_BACKEND" readDevice .openCl = .error e ∨
        (∃ kind, readField env "RNNR_BACKEND" readDevice .openCl = .ok kind) ∧
          readField env "RNNR_EAGER_VALIDATION" readFlag false = .error e := by
  rw [readField_eq_error_iff readsWords_readDevice, exists_readField_iff readsWords_readDevice,
    readField_eq_error_iff readsWords_readFlag]
  constructor
  · rintro (⟨h, hnone⟩ | ⟨hdevice, h, hnone⟩)
    · exact Or.inl ⟨_, h, hnone, rfl⟩
    · exact Or.inr ⟨hdevice, _, h, hnone, rfl⟩
  · rintro (⟨text, h, hnone, rfl⟩ | ⟨hdevice, text, h, hnone, rfl⟩)
    · exact .device h hnone
    · exact .flag hdevice h hnone

theorem ofEnvironment_eq_ok_iff (env : Environment) (s : Settings) :
    ofEnvironment env = .ok s ↔ Described env s := by
  rw [described_iff, ofEnvironment_eq]
  cases readField env "RNNR_BACKEND" readDevice .openCl with
  | error e => exact iff_of_false nofun fun h => nomatch h.2.2.1
  | ok device =>
      cases readField env "RNNR_EAGER_VALIDATION" readFlag false with
      | error e => exact iff_of_false nofun fun h => nomatch h.2.2.2
      | ok eager =>
          constructor
          · intro h
            cases h
            exact ⟨rfl, rfl, rfl, rfl⟩
          · obtain ⟨program, weights, kind, b⟩ := s
            rintro ⟨rfl, rfl, hkind, hb⟩
            cases hkind
            cases hb
            rfl

theorem ofEnvironment_eq_error_iff (env : Environment) (e : Error) :
    ofEnvironment env = .error e ↔ Refused env e := by
  rw [refused_iff, ofEnvironment_eq]
  cases readField env "RNNR_BACKEND" readDevice .openCl with
  | error d =>
      constructor
      · intro h
        cases h
        exact Or.inl rfl
      · rintro (h | ⟨⟨_, h⟩, -⟩)
        · cases h
          rfl
        · cases h
  | ok device =>
      cases readField env "RNNR_EAGER_VALIDATION" readFlag false with
      | error d =>
          constructor
          · intro h
            cases h
            exact Or.inr ⟨⟨device, rfl⟩, rfl⟩
          · rintro (h | ⟨-, h⟩)
            · cases h
            · cases h
              rfl
      | ok eager => exact iff_of_false nofun fun h => h.elim nofun fun h => nomatch h.2

/-- No settings can be read exactly when one of the two words is not known. -/
theorem exists_error_iff (env : Environment) :
    (∃ e, ofEnvironment env = .error e) ↔
      env.Outside "RNNR_BACKEND" DeviceKind.words ∨
        env.Outside "RNNR_EAGER_VALIDATION" flagWords := by
  simp only [ofEnvironment_eq_error_iff]
  constructor
  · rintro ⟨e, ⟨h, hnone⟩ | ⟨-, h, hnone⟩⟩
    · exact Or.inl ⟨_, h, hnone⟩
    · exact Or.inr ⟨_, h, hnone⟩
  · intro h
    by_cases hdevice : env.Outside "RNNR_BACKEND" DeviceKind.words
    · obtain ⟨text, hshows, hnone⟩ := hdevice
      exact ⟨_, .device hshows hnone⟩
    · obtain ⟨text, hshows, hnone⟩ := h.resolve_left hdevice
      exact ⟨_, .flag hdevice hshows hnone⟩

/-- What the settings of an environment depend on. They are decided field by field, and
cannot be read exactly when one of the two words is not known; the one for the device is
looked at first. Two environments give the same path where its variable is the same, and
the same device and flag where the variable is alike. Nor does it depend on anything else
whether a word is known. -/
theorem ofEnvironment_fieldwise (env : Environment) :
    (∀ s, ofEnvironment env = .ok s ↔ Described env s) ∧
    (∀ e, ofEnvironment env = .error e ↔ Refused env e) ∧
    ((∃ e, ofEnvironment env = .error e) ↔
      env.Outside "RNNR_BACKEND" DeviceKind.words ∨
        env.Outside "RNNR_EAGER_VALIDATION" flagWords) ∧
    ∀ other : Environment,
      (env.Alike other "RNNR_BACKEND" →
        (env.Outside "RNNR_BACKEND" DeviceKind.words ↔
          other.Outside "RNNR_BACKEND" DeviceKind.words)) ∧
      (env.Alike other "RNNR_EAGER_VALIDATION" →
        (env.Outside "RNNR_EAGER_VALIDATION" flagWords ↔
          other.Outside "RNNR_EAGER_VALIDATION" flagWords)) ∧
      ∀ s t, ofEnvironment env = .ok s → ofEnvironment other = .ok t →
        (env.values.get? "RNNR_MODEL" = other.values.get? "RNNR_MODEL" →
          s.programPath = t.programPath) ∧
        (env.values.get? "RNNR_WEIGHTS" = other.values.get? "RNNR_WEIGHTS" →
          s.weightsPath = t.weightsPath) ∧
        (env.Alike other "RNNR_BACKEND" → s.device = t.device) ∧
        (env.Alike other "RNNR_EAGER_VALIDATION" → s.eagerValidation = t.eagerValidation) := by
  refine ⟨ofEnvironment_eq_ok_iff env, ofEnvironment_eq_error_iff env, exists_error_iff env,
    fun other => ⟨outside_iff_of_alike readsWords_readDevice .openCl,
      outside_iff_of_alike readsWords_readFlag false, fun s t hs ht => ?_⟩⟩
  rw [ofEnvironment_eq_ok_iff, described_iff] at hs ht
  obtain ⟨hprogram, hweights, hdevice, hflag⟩ := hs
  obtain ⟨hprogram', hweights', hdevice', hflag'⟩ := ht
  refine ⟨fun h => ?_, fun h => ?_, fun h => ?_, fun h => ?_⟩
  · rw [← hprogram, ← hprogram', pathField_congr h]
  · rw [← hweights, ← hweights', pathField_congr h]
  · rw [readField_eq_ok_iff_of_alike readsWords_readDevice h] at hdevice
    exact Except.ok.inj (hdevice.symm.trans hdevice')
  · rw [readField_eq_ok_iff_of_alike readsWords_readFlag h] at hflag
    exact Except.ok.inj (hflag.symm.trans hflag')

/-- An environment with words in small letters, and with paths. -/
def plainEnvironment : Environment where
  values := Table.ofList [("RNNR_BACKEND", "gpu".toUTF8.toList),
    ("RNNR_EAGER_VALIDATION", "on".toUTF8.toList), ("RNNR_MODEL", " a.json".toUTF8.toList),
    ("RNNR_WEIGHTS", [0xFF])]

/-- The same with blanks around one of the words, and with the other one in capitals. -/
def loudEnvironment : Environment where
  values := Table.ofList [("RNNR_BACKEND", " gpu\u3000".toUTF8.toList),
    ("RNNR_EAGER_VALIDATION", "ON".toUTF8.toList), ("RNNR_MODEL", " a.json".toUTF8.toList),
    ("RNNR_WEIGHTS", [0xFF])]

theorem ofEnvironment_fieldwise_loudEnvironment :
    ∃ s t, ofEnvironment plainEnvironment = .ok s ∧ ofEnvironment loudEnvironment = .ok t ∧
      s = ⟨" a.json", "net.safetensors", .openCl, true⟩ ∧ s.programPath = t.programPath ∧
      s.weightsPath = t.weightsPath ∧ s.device = t.device ∧
      s.eagerValidation = t.eagerValidation ∧
      (plainEnvironment.Outside "RNNR_BACKEND" DeviceKind.words ↔
        loudEnvironment.Outside "RNNR_BACKEND" DeviceKind.words) ∧
      (plainEnvironment.Outside "RNNR_EAGER_VALIDATION" flagWords ↔
        loudEnvironment.Outside "RNNR_EAGER_VALIDATION" flagWords) := by
  have hs : ofEnvironment plainEnvironment =
      .ok ⟨" a.json", "net.safetensors", .openCl, true⟩ := by decide +kernel
  have ht : ofEnvironment loudEnvironment =
      .ok ⟨" a.json", "net.safetensors", .openCl, true⟩ := by decide +kernel
  have hdevice : plainEnvironment.Alike loudEnvironment "RNNR_BACKEND" := by
    refine Or.inr ⟨"gpu", " gpu\u3000", rfl, rfl, Text.respelled_of_pads ?_⟩
    exact ⟨[' '], ['\u3000'], List.forall_mem_singleton.mpr rfl,
      List.forall_mem_singleton.mpr rfl, rfl⟩
  have hflag : plainEnvironment.Alike loudEnvironment "RNNR_EAGER_VALIDATION" := by
    refine Or.inr ⟨"on", "ON", rfl, rfl, Text.respelled_of_letters ?_⟩
    refine .cons (Or.inr (Or.inr ⟨?_, rfl⟩)) (.cons (Or.inr (Or.inr ⟨?_, rfl⟩)) .nil)
    · decide
    · decide
  obtain ⟨-, -, -, hother⟩ := ofEnvironment_fieldwise plainEnvironment
  obtain ⟨houtside, houtside', hfields⟩ := hother loudEnvironment
  obtain ⟨hprogram, hweights, hkind, heager⟩ := hfields _ _ hs ht
  exact ⟨_, _, hs, ht, rfl, hprogram rfl, hweights rfl, hkind hdevice, heager hflag,
    houtside hdevice, houtside' hflag⟩

end Settings

end NetReplay
