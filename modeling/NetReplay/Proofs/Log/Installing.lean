import NetReplay.Log.State
import NetReplay.Proofs.Log.Spans

/-!
# Setting up the log of a process

Setting up a log is refused for its filter, or because there is a log already
(`State.Refuses`), and otherwise it installs the log. The switch is moved in all cases,
before anything is checked. So a refused attempt leaves the installed log alone and still
moves the switch: it changes nothing only where the switch stood there already
(`State.installBy_decides`). Over a sequence of attempts the first good one gives the log,
and the last one the position of the switch, good or not (`State.installAll_eq`).

Which texts are filters is left open: `accepts` may be any predicate.
-/

namespace NetReplay

namespace Log

namespace Settings

/-- What the settings ask of the switch. -/
def setting (s : Settings) : Setting := ⟨s.timing, s.threshold⟩

/-- The settings bring no directives of their own, or such that are a filter. -/
def hasFilter (accepts : String → Bool) (s : Settings) : Bool := s.directives.all accepts

theorem hasFilter_of_some (accepts : String → Bool) {s : Settings} {directives : String}
    (h : s.directives = some directives) : s.hasFilter accepts = accepts directives := by
  rw [hasFilter, h, Option.all_some]

theorem checkFilterBy_of_hasFilter {accepts : String → Bool} {s : Settings}
    (h : s.hasFilter accepts = true) : s.checkFilterBy accepts = .ok () := by
  rw [checkFilterBy]
  cases hdirectives : s.directives with
  | none => rfl
  | some directives =>
      rw [hasFilter_of_some accepts hdirectives] at h
      exact if_pos h

theorem checkFilterBy_of_some {accepts : String → Bool} {s : Settings} {directives : String}
    (h : s.directives = some directives) (hbad : accepts directives = false) :
    s.checkFilterBy accepts = .error (.invalidFilter directives) := by
  rw [checkFilterBy, h]
  exact if_neg (by simp [hbad])

end Settings

namespace State

variable {accepts : String → Bool} {p : State} {s : Settings}

/-- Why a log is not installed, the first that applies: its directives are no filter, or
there is a log already. -/
inductive Refuses (accepts : String → Bool) (p : State) (s : Settings) : SetupError → Prop
  | filter {directives : String} (hdirectives : s.directives = some directives)
      (hbad : accepts directives = false) : Refuses accepts p s (.invalidFilter directives)
  | taken {log : Settings} (hfilter : s.hasFilter accepts = true)
      (hlog : p.installed = some log) : Refuses accepts p s .alreadyInstalled

theorem refuses_or_free (accepts : String → Bool) (p : State) (s : Settings) :
    (∃ e, Refuses accepts p s e) ∨ s.hasFilter accepts = true ∧ p.installed = none := by
  cases hfilter : s.hasFilter accepts with
  | false =>
      cases hdirectives : s.directives with
      | none => simp [Settings.hasFilter, hdirectives] at hfilter
      | some directives =>
          rw [Settings.hasFilter_of_some accepts hdirectives] at hfilter
          exact Or.inl ⟨_, .filter hdirectives hfilter⟩
  | true =>
      cases hlog : p.installed with
      | none => exact Or.inr ⟨rfl, rfl⟩
      | some log => exact Or.inl ⟨_, .taken hfilter hlog⟩

theorem installBy_of_refuses {e : SetupError} (h : Refuses accepts p s e) :
    p.installBy accepts s = (.error e, ⟨.ofSetting s.setting, p.installed⟩) := by
  rw [installBy]
  cases h with
  | filter hdirectives hbad =>
      rw [Settings.checkFilterBy_of_some hdirectives hbad]
      rfl
  | taken hfilter hlog =>
      rw [Settings.checkFilterBy_of_hasFilter hfilter]
      dsimp only
      rw [hlog]
      rfl

theorem installBy_of_free (hfilter : s.hasFilter accepts = true) (hnone : p.installed = none) :
    p.installBy accepts s = (.ok (), ⟨.ofSetting s.setting, some s⟩) := by
  rw [installBy, Settings.checkFilterBy_of_hasFilter hfilter]
  dsimp only
  rw [hnone]
  rfl

/-- The switch keeps the threshold it is asked for, unless that is the largest word. -/
theorem threshold?_ofSetting_iff (s : Settings) :
    (Switch.ofSetting s.setting).threshold? = s.threshold ↔ s.threshold ≠ some Word.largest := by
  rw [Switch.ofSetting, Switch.threshold?_set]
  change s.threshold.filter (· ≠ Word.largest) = s.threshold ↔ _
  cases s.threshold with
  | none => simp
  | some n =>
      by_cases hn : n = Word.largest
      · simp [hn]
      · simp [hn]

/-- What setting up a log does to a process. It fails with the first reason that applies,
or there is none. A failure keeps the installed log, but not the switch: nothing at all is
changed only where the switch stood already as the settings ask. After a success the log
and the switch are those of the settings, and so is the threshold unless it is the largest
word. -/
theorem installBy_decides (accepts : String → Bool) (p : State) (s : Settings) :
    (∀ e, (p.installBy accepts s).1 = .error e ↔ Refuses accepts p s e) ∧
    (∀ e, (p.installBy accepts s).1 = .error e →
      (p.installBy accepts s).2.installed = p.installed ∧
      (p.installBy accepts s).2.switch = .ofSetting s.setting ∧
      ((p.installBy accepts s).2 = p ↔ p.switch = .ofSetting s.setting)) ∧
    ((p.installBy accepts s).1 = .ok () →
      p.installed = none ∧ (p.installBy accepts s).2.installed = some s ∧
      (p.installBy accepts s).2.switch.enabled = s.timing ∧
      ((p.installBy accepts s).2.switch.threshold? = s.threshold ↔
        s.threshold ≠ some Word.largest)) := by
  refine ⟨fun e => ⟨fun he => ?_, fun he => ?_⟩, ?_⟩
  · obtain ⟨d, hd⟩ | ⟨hfilter, hnone⟩ := refuses_or_free accepts p s
    · rw [installBy_of_refuses hd] at he
      cases he
      exact hd
    · rw [installBy_of_free hfilter hnone] at he
      cases he
  · rw [installBy_of_refuses he]
  · obtain ⟨d, hd⟩ | ⟨hfilter, hnone⟩ := refuses_or_free accepts p s
    · rw [installBy_of_refuses hd]
      refine ⟨fun e _ => ⟨rfl, rfl, ?_⟩, nofun⟩
      obtain ⟨switch, installed⟩ := p
      simp only [mk.injEq, and_true]
      exact eq_comm
    · rw [installBy_of_free hfilter hnone]
      exact ⟨nofun, fun _ => ⟨hnone, rfl, rfl, threshold?_ofSetting_iff s⟩⟩

/-- Settings with directives that are no filter. -/
def misfiltered : Settings := { Settings.ci with directives := some "=::invalid" }

/-- A process that times its spans and has no log. -/
def timed : State := ⟨.set true (some 250), none⟩

theorem installBy_decides_misfiltered :
    (timed.install misfiltered).1 = .error (.invalidFilter "=::invalid") ∧
      (timed.install misfiltered).2.installed = none ∧
      (timed.install misfiltered).2.switch = .set false none := by
  have hbad : Filter.accepts "=::invalid" = false := by decide
  obtain ⟨herror, hkept, -⟩ := installBy_decides Filter.accepts timed misfiltered
  have he := (herror _).mpr (.filter rfl hbad)
  obtain ⟨hinstalled, hswitch, -⟩ := hkept _ he
  exact ⟨he, hinstalled, hswitch⟩

/-- Both failures change a process: spans that were timed are timed no more, whether the
filter is bad or the log comes too late. -/
theorem exists_changed_by_failure :
    timed.install misfiltered = (.error (.invalidFilter "=::invalid"), ⟨.set false none, none⟩) ∧
      (timed.install misfiltered).2 ≠ timed ∧
      State.install { timed with installed := some .interactive } .ci =
        (.error .alreadyInstalled, ⟨.set false none, some .interactive⟩) ∧
      (State.install { timed with installed := some .interactive } .ci).2 ≠
        { timed with installed := some .interactive } := by
  exact ⟨rfl, by decide, rfl, by decide⟩

/-! ## Several attempts -/

/-- The process after attempts to set up a log, one after the other. -/
def installAll (accepts : String → Bool) (p : State) (attempts : List Settings) : State :=
  attempts.foldl (fun p s => (p.installBy accepts s).2) p

theorem installAll_cons (accepts : String → Bool) (p : State) (s : Settings)
    (attempts : List Settings) :
    p.installAll accepts (s :: attempts) = (p.installBy accepts s).2.installAll accepts attempts :=
  rfl

/-- One attempt moves the switch, and leaves the first log that there is or is to be. -/
theorem installBy_snd (accepts : String → Bool) (p : State) (s : Settings) :
    (p.installBy accepts s).2 =
      ⟨.ofSetting s.setting, p.installed.or (if s.hasFilter accepts then some s else none)⟩ := by
  obtain ⟨e, he⟩ | ⟨hfilter, hnone⟩ := refuses_or_free accepts p s
  · rw [installBy_of_refuses he]
    cases he with
    | filter hdirectives hbad =>
        rw [Settings.hasFilter_of_some accepts hdirectives, hbad]
        simp
    | taken _ hlog => rw [hlog, Option.some_or]
  · rw [installBy_of_free hfilter hnone, hnone, if_pos hfilter, Option.none_or]

/-- Of several attempts, the first with a good filter gives the log where there was none,
and the last one gives the switch, whether or not it succeeds. -/
theorem installAll_eq (accepts : String → Bool) (p : State) (attempts : List Settings) :
    p.installAll accepts attempts =
      ⟨(attempts.getLast?.map fun s => .ofSetting s.setting).getD p.switch,
        p.installed.or (attempts.find? (·.hasFilter accepts))⟩ := by
  induction attempts generalizing p with
  | nil =>
      rw [List.find?_nil, Option.or_none]
      rfl
  | cons s attempts ih =>
      rw [installAll_cons, ih, installBy_snd, Option.or_assoc]
      congr 1
      · rw [List.getLast?_cons]
        cases attempts.getLast? with
        | none => rfl
        | some last => rfl
      · rw [List.find?_cons]
        cases s.hasFilter accepts with
        | true => rfl
        | false => rfl

end State

end Log

end NetReplay
