import NetReplay.Model.Loading
import NetReplay.Proofs.Model.Beside

/-!
# Loading a model

Whether the artifacts of a model can be loaded is decided by what their paths hold: there
is a first thing wrong with them (`Settings.Unloadable`), or they give a program and its
weights (`Settings.Loads`). In the first case nothing is said to the device, and in the
second one the loading goes as the setup does. A program whose references were checked
beforehand never fails for one of them (`Model.Stage.not_isReference`), however the model
is used later and whatever is done to its device.

The main result is `Model.loadOntoBy_decides`.
-/

namespace NetReplay

open Files (Directory Reading)

/-! ## Single files -/

section

variable {read : Reading} {path reason : String} {s : List UInt8}

theorem Files.Reading.content_of_error (h : read path = .error reason) :
    read.content path = .error (.file path reason) := by
  rw [content, h, mapError_error]

theorem Files.Reading.content_of_ok (h : read path = .ok s) : read.content path = .ok s := by
  rw [content, h, mapError_ok]

theorem Program.ofFileBy_of_error (h : read path = .error reason) :
    ofFileBy read path = .error (.file path reason) := by
  rw [ofFileBy, Reading.content_of_error h]
  rfl

theorem Program.ofFileBy_of_ok (h : read path = .ok s) : ofFileBy read path = ofBytes s := by
  rw [ofFileBy, Reading.content_of_ok h]
  rfl

theorem Weights.Store.ofFileBy_of_error (h : read path = .error reason) :
    ofFileBy read path = .error (.file path reason) := by
  rw [ofFileBy, Reading.content_of_error h]
  rfl

theorem Weights.Store.ofFileBy_of_ok (h : read path = .ok s) : ofFileBy read path = ofBytes s := by
  rw [ofFileBy, Reading.content_of_ok h]
  rfl

end

/-! ## Both artifacts -/

namespace Settings

/-- The settings name a program, and its references are fine where that is to be checked. -/
structure Names (settings : Settings) (read : Reading) (p : Program) : Prop where
  program : ∃ s, read settings.programPath = .ok s ∧ Program.ofBytes s = .ok p
  references : settings.eagerValidation = true → p.checkReferences = .ok ()

/-- The settings name a program and its weights. -/
structure Loads (settings : Settings) (read : Reading) (p : Program)
    (weights : Weights.Store) : Prop extends Names settings read p where
  weights : ∃ s, read settings.weightsPath = .ok s ∧ Weights.Store.ofBytes s = .ok weights

/-- What is wrong with the artifacts, the first that applies. -/
inductive Unloadable (settings : Settings) (read : Reading) : Error → Prop
  | noProgram {reason : String} (hread : read settings.programPath = .error reason) :
      Unloadable settings read (.file settings.programPath reason)
  | badProgram {s : List UInt8} {e : Error} (hread : read settings.programPath = .ok s)
      (hbad : Program.ofBytes s = .error e) : Unloadable settings read e
  | badReference {s : List UInt8} {p : Program} {e : Error}
      (hread : read settings.programPath = .ok s) (hp : Program.ofBytes s = .ok p)
      (heager : settings.eagerValidation = true) (hbad : p.checkReferences = .error e) :
      Unloadable settings read e
  | noWeights {p : Program} {reason : String} (hp : settings.Names read p)
      (hread : read settings.weightsPath = .error reason) :
      Unloadable settings read (.file settings.weightsPath reason)
  | badWeights {p : Program} {s : List UInt8} {e : Error} (hp : settings.Names read p)
      (hread : read settings.weightsPath = .ok s) (hbad : Weights.Store.ofBytes s = .error e) :
      Unloadable settings read e

variable {settings : Settings} {read : Reading}

theorem unloadable_or_names (settings : Settings) (read : Reading) :
    (∃ e, settings.Unloadable read e) ∨ ∃ p, settings.Names read p := by
  cases hread : read settings.programPath with
  | error reason => exact Or.inl ⟨_, .noProgram hread⟩
  | ok s =>
      cases hp : Program.ofBytes s with
      | error e => exact Or.inl ⟨e, .badProgram hread hp⟩
      | ok p =>
          by_cases heager : settings.eagerValidation = true
          · cases hcheck : p.checkReferences with
            | error e => exact Or.inl ⟨e, .badReference hread hp heager hcheck⟩
            | ok u => exact Or.inr ⟨p, ⟨s, hread, hp⟩, fun _ => hcheck⟩
          · exact Or.inr ⟨p, ⟨s, hread, hp⟩, fun htrue => absurd htrue heager⟩

theorem unloadable_or_loads (settings : Settings) (read : Reading) :
    (∃ e, settings.Unloadable read e) ∨ ∃ p weights, settings.Loads read p weights := by
  obtain hbad | ⟨p, hp⟩ := unloadable_or_names settings read
  · exact Or.inl hbad
  · cases hread : read settings.weightsPath with
    | error reason => exact Or.inl ⟨_, .noWeights hp hread⟩
    | ok s =>
        cases hweights : Weights.Store.ofBytes s with
        | error e => exact Or.inl ⟨e, .badWeights hp hread hweights⟩
        | ok weights => exact Or.inr ⟨p, weights, hp, s, hread, hweights⟩

/-- Once the program is found to be fine, the rest is up to the weights. -/
theorem loadArtifactsBy_of_names {p : Program} (hp : settings.Names read p) :
    settings.loadArtifactsBy read =
      (Weights.Store.ofFileBy read settings.weightsPath).map fun weights => (p, weights) := by
  obtain ⟨⟨s, hread, hparsed⟩, hchecked⟩ := hp
  rw [loadArtifactsBy, Program.ofFileBy_of_ok hread, hparsed]
  cases heager : settings.eagerValidation with
  | false => rfl
  | true =>
      dsimp only [bind, Except.bind]
      rw [if_pos rfl, hchecked heager]
      rfl

theorem loadArtifactsBy_of_loads {p : Program} {weights : Weights.Store}
    (h : settings.Loads read p weights) : settings.loadArtifactsBy read = .ok (p, weights) := by
  obtain ⟨s, hread, hweights⟩ := h.weights
  rw [loadArtifactsBy_of_names h.toNames, Weights.Store.ofFileBy_of_ok hread, hweights]
  rfl

theorem loadArtifactsBy_of_unloadable {e : Error} (h : settings.Unloadable read e) :
    settings.loadArtifactsBy read = .error e := by
  cases h with
  | noProgram hread =>
      rw [loadArtifactsBy, Program.ofFileBy_of_error hread]
      rfl
  | badProgram hread hbad =>
      rw [loadArtifactsBy, Program.ofFileBy_of_ok hread, hbad]
      rfl
  | badReference hread hp heager hbad =>
      rw [loadArtifactsBy, Program.ofFileBy_of_ok hread, hp]
      dsimp only [bind, Except.bind]
      rw [if_pos heager, hbad]
  | noWeights hp hread =>
      rw [loadArtifactsBy_of_names hp, Weights.Store.ofFileBy_of_error hread]
      rfl
  | badWeights hp hread hbad =>
      rw [loadArtifactsBy_of_names hp, Weights.Store.ofFileBy_of_ok hread, hbad]
      rfl

end Settings

/-! ## Onto a device -/

namespace Model

open Program

variable {σ : Type} [Device σ] {settings : Settings} {read : Reading}

/-- What a loading gives where the setup ends like this. -/
def ofSetup : Except Error Unit × Model σ → Except (Error × σ) (Model σ)
  | (.ok (), m) => .ok m
  | (.error e, m) => .error (e, m.device)

/-- The calls that a loading makes to a device. -/
def loadCalls (read : Reading) (settings : Settings) (device : σ) : List DeviceCall :=
  match loadOntoBy read settings (Recorder.ofDevice device []) with
  | .ok m => m.device.calls
  | .error (_, recorder) => recorder.calls

theorem loadOntoBy_of_unloadable {e : Error} (h : settings.Unloadable read e) (device : σ) :
    loadOntoBy read settings device = .error (e, device) := by
  rw [loadOntoBy, Settings.loadArtifactsBy_of_unloadable h]

theorem loadOntoBy_of_loads {p : Program} {weights : Weights.Store}
    (h : settings.Loads read p weights) (device : σ) :
    loadOntoBy read settings device = ofSetup ((setup weights).runFrom (new device p)) := by
  rw [loadOntoBy, Settings.loadArtifactsBy_of_loads h]
  rfl

theorem loadCalls_of_unloadable {e : Error} (h : settings.Unloadable read e) (device : σ) :
    loadCalls read settings device = [] := by
  rw [loadCalls, loadOntoBy_of_unloadable h]
  rfl

theorem loadCalls_of_loads {p : Program} {weights : Weights.Store}
    (h : settings.Loads read p weights) (device : σ) :
    loadCalls read settings device = calls (setup weights) (new device p) := by
  rw [loadCalls, loadOntoBy_of_loads h, calls]
  change (match ofSetup ((setup weights).runFrom ((new device p).recorded [])) with
    | .ok m => m.device.calls
    | .error (_, recorder) => recorder.calls) = _
  rcases (setup weights).runFrom ((new device p).recorded []) with ⟨e | u, m⟩
  · rfl
  · rfl

omit [Device σ] in
/-- Only a setup that succeeded makes a loading succeed. -/
theorem ofSetup_eq_ok {r : Except Error Unit × Model σ} {m : Model σ} (h : ofSetup r = .ok m) :
    r = (.ok (), m) := by
  obtain ⟨e | u, n⟩ := r
  · cases h
  · cases h
    rfl

/-- A run of a model of a checked program fails for no reference. -/
theorem Stage.not_isReference {p : Program} {history : List Request} {m : Model σ}
    (h : Stage p history m) (hcheck : p.checkReferences = .ok ()) {input : List Single}
    {e : Error} (he : ((run input).runFrom m).1 = .error e) : ¬ e.IsReference := by
  obtain ⟨said, r, n, hruns, hgoes⟩ := goes_run_of_stage h input
  rw [hruns.plain] at he
  cases hgoes with
  | refused =>
      cases he
      exact id
  | misfit =>
      cases he
      exact id
  | talks _ _ hprogram htalk =>
      rw [← hprogram, checkReferences_eq_ok_iff] at hcheck
      exact htalk.of_check_ok hcheck he

/-- What loading a model onto a device does, wherever the contents of its paths come from.
Either something is wrong with the artifacts, which is the failure, and the device is not
called; or they are fine, and the loading is the setup of the model. What it gives is a
ready model. If the references were checked, no later run fails for one of them. -/
theorem loadOntoBy_decides (read : Reading) (settings : Settings) (device : σ) :
    ((∃ e, settings.Unloadable read e) ∨ ∃ p weights, settings.Loads read p weights) ∧
    (∀ e, settings.Unloadable read e →
      loadOntoBy read settings device = .error (e, device) ∧
        loadCalls read settings device = []) ∧
    (∀ p weights, settings.Loads read p weights →
      loadOntoBy read settings device = ofSetup ((setup weights).runFrom (new device p)) ∧
        loadCalls read settings device = calls (setup weights) (new device p) ∧
        Faithful (setup weights) (setup weights) (new device p)) ∧
    ∀ m, loadOntoBy read settings device = .ok m →
      m.phase = .ready ∧
        (settings.eagerValidation = true → ∀ uses input e,
          ((run input).runFrom (m.used uses)).1 = .error e → ¬ e.IsReference) := by
  have hsetup : ∀ p weights, ∃ talk r n, Runs (setup weights) (setup weights) (new device p)
      talk r n ∧ SetupGoes p weights (new device p) talk r n ∧ Stage p [.setup weights] n :=
    fun p weights => goes_setup_of_stage (stage_new device p) weights
  refine ⟨Settings.unloadable_or_loads settings read, fun e he => ?_, fun p weights hloads => ?_,
    fun m hm => ?_⟩
  · exact ⟨loadOntoBy_of_unloadable he device, loadCalls_of_unloadable he device⟩
  · obtain ⟨talk, r, n, hruns, -⟩ := hsetup p weights
    exact ⟨loadOntoBy_of_loads hloads device, loadCalls_of_loads hloads device, hruns.faithful⟩
  · obtain ⟨e, he⟩ | ⟨p, weights, hloads⟩ := Settings.unloadable_or_loads settings read
    · cases (loadOntoBy_of_unloadable he device).symm.trans hm
    · obtain ⟨talk, r, n, hruns, hgoes, hstage⟩ := hsetup p weights
      rw [loadOntoBy_of_loads hloads, hruns.plain] at hm
      cases ofSetup_eq_ok hm
      cases hgoes with
      | ready _ _ hready =>
          refine ⟨hready, fun heager uses input e he => ?_⟩
          exact (stage_used hstage uses).not_isReference (hloads.references heager) he

/-- The text of a program that copies, with the arguments of its only statement. -/
def copyText (args : String) : List UInt8 :=
  ("\x7b\"backend\":\"GPU\",\"input_size\":2,\"output_size\":2," ++
    "\"functions\":\x7b\"copy\":\"copy\"\x7d,\"statements\":[[\"copy\"," ++ args ++
    ",[1],[2]]]\x7d").toUTF8.toList

/-- A directory with a copying program and with weights that have no tensors. -/
def copyDirectory : Directory :=
  (Directory.empty.place "net.json" (.file (copyText "[\"input\",\"outputs\"]"))).place
    "net.safetensors" (.file [2, 0, 0, 0, 0, 0, 0, 0, 0x7b, 0x7d])

/-- A directory with a program that refers to a buffer of no name, and no weights. -/
def ghostDirectory : Directory :=
  Directory.empty.place "net.json" (.file (copyText "[\"ghost\"]"))

/-- The settings with which references are checked. -/
def eagerSettings : Settings := { eagerValidation := true }

theorem unloadable_ghostDirectory :
    eagerSettings.Unloadable ghostDirectory.reading (.unresolvedBuffer 0 "ghost") := by
  have hread : ghostDirectory.reading "net.json" = .ok (copyText "[\"ghost\"]") := rfl
  have hcheck : (Program.ofBytes (copyText "[\"ghost\"]")).toOption.map checkReferences =
      some (.error (.unresolvedBuffer 0 "ghost")) := by decide +kernel
  cases hp : Program.ofBytes (copyText "[\"ghost\"]") with
  | error e =>
      rw [hp] at hcheck
      cases hcheck
  | ok p =>
      rw [hp] at hcheck
      exact .badReference hread hp rfl (Option.some.inj hcheck)

/-- Missing weights do not show behind a bad reference. In the other directory all is
well, and a run that finds the device replaced fails for the device alone. -/
theorem loadOntoBy_decides_copyDirectory :
    loadOnto eagerSettings ghostDirectory copyHost =
        .error (.unresolvedBuffer 0 "ghost", copyHost) ∧
      loadCalls ghostDirectory.reading eagerSettings copyHost = [] ∧
      ∃ p weights m, eagerSettings.Loads copyDirectory.reading p weights ∧
        loadCalls copyDirectory.reading eagerSettings copyHost =
          calls (setup weights) (new copyHost p) ∧
        loadOnto eagerSettings copyDirectory copyHost = .ok m ∧ m.phase = .ready ∧
        ((run [⟨5⟩, ⟨6⟩]).runFrom (m.used [.reach copyHost])).1 =
          .error (.device (.notInitialized "host")) ∧
        ¬ (Error.device (.notInitialized "host")).IsReference := by
  have hrun : (loadOnto eagerSettings copyDirectory copyHost).toOption.map (fun m =>
      ((run [⟨5⟩, ⟨6⟩]).runFrom (m.used [.reach copyHost])).1) =
        some (.error (.device (.notInitialized "host"))) := by
    decide +kernel
  obtain ⟨-, hbad, -, -⟩ := loadOntoBy_decides ghostDirectory.reading eagerSettings copyHost
  obtain ⟨herror, hnone⟩ := hbad _ unloadable_ghostDirectory
  obtain ⟨hall, hbad, hloads, hok⟩ :=
    loadOntoBy_decides copyDirectory.reading eagerSettings copyHost
  refine ⟨herror, hnone, ?_⟩
  cases hload : loadOnto eagerSettings copyDirectory copyHost with
  | error failed =>
      rw [hload] at hrun
      cases hrun
  | ok m =>
      rw [hload] at hrun
      have hresult := Option.some.inj hrun
      obtain ⟨hready, hlater⟩ := hok m hload
      obtain ⟨e, he⟩ | ⟨p, weights, hp⟩ := hall
      · cases (hbad e he).1.symm.trans hload
      · exact ⟨p, weights, m, hp, (hloads p weights hp).2.1, rfl, hready, hresult,
          hlater rfl _ _ _ hresult⟩

end Model

end NetReplay
