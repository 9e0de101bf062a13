import NetReplay.Log.Timing
import Mathlib.Tactic.Set

/-!
# Spans under a changing switch

Spans are opened and closed while the switch that decides on them is turned. A
`Timekeeper` is the switch as it stands together with the spans so far, which are
numbered in the order of their opening. `Timekeeper.step` does one thing to it.

`Setting.Reports` is the rule a span follows: its end is reported if the switch
was on when the span was opened and the span has lasted for the least duration in
force at that time. `step_close_of_open` says that a span does follow this rule, whatever
happens between its opening and its closing, with one exception. The switch keeps
its least duration in one word, of which the largest stands for none, so a setting
that asks for the largest word is taken for one that asks for nothing
(`threshold?_set`), and every span under it is reported.
-/

namespace NetReplay

namespace Log

/-- What the switch is asked for. -/
structure Setting where
  enabled : Bool
  /-- The least duration of a report, for the spans without one of their own. -/
  least : Option UInt64
  deriving DecidableEq, Repr

namespace Setting

/-- The end of a span that was opened under this setting is to be reported. -/
def Reports (setting : Setting) (threshold : Option UInt64) (duration : UInt64) : Prop :=
  setting.enabled = true ∧ ∀ least ∈ threshold.or setting.least, least ≤ duration

/-- The least duration that a span gets from this setting is lost. -/
def Loses (setting : Setting) (threshold : Option UInt64) : Prop :=
  setting.enabled = true ∧ threshold = none ∧ setting.least = some Word.largest

instance (setting : Setting) (threshold : Option UInt64) (duration : UInt64) :
    Decidable (setting.Reports threshold duration) :=
  -- The bound is looked for in the option, not among all words.
  @instDecidableAnd _ _ inferInstance (Option.decidableForallMem ..)

instance (setting : Setting) (threshold : Option UInt64) :
    Decidable (setting.Loses threshold) :=
  inferInstanceAs (Decidable (_ ∧ _ ∧ _))

end Setting

namespace Switch

/-- The switch in the position a setting asks for. -/
def ofSetting (setting : Setting) : Switch := set setting.enabled setting.least

theorem enabled_set (enabled : Bool) (least : Option UInt64) :
    (set enabled least).enabled = enabled := rfl

/-- A least duration is kept unless it is the largest word. -/
theorem threshold?_set (enabled : Bool) (least : Option UInt64) :
    (set enabled least).threshold? = least.filter (· ≠ Word.largest) := by
  cases least with
  | none => rfl
  | some n =>
      change (if n = Word.largest then none else some n) = _
      by_cases h : n = Word.largest
      · rw [if_pos h, Option.filter_some_neg (by simpa using h)]
      · rw [if_neg h, Option.filter_some_pos (by simpa using h)]

end Switch

namespace Span

theorem all_threshold_iff (span : Span) (duration : UInt64) :
    span.threshold.all (· ≤ duration) = true ↔ ∀ least ∈ span.threshold, least ≤ duration := by
  rw [Option.all_eq_true]
  exact forall₂_congr fun _ _ => decide_eq_true_iff

theorem timed_start (s : Switch) (name : String) (threshold : Option UInt64) :
    (start s name threshold).timed = s.enabled := by
  rw [start]
  cases s.enabled with
  | true => rfl
  | false => rfl

theorem threshold_start_of_enabled {s : Switch} (hs : s.enabled = true) (name : String)
    (threshold : Option UInt64) :
    (start s name threshold).threshold = threshold.or s.threshold? := by
  rw [start, if_pos hs, Option.orElse_eq_orElse, Option.orElse_eq_or]

/-- What the closing of a span reports, in terms of the setting it was opened
under. -/
theorem close_start (setting : Setting) (name : String) (threshold : Option UInt64)
    (duration : UInt64) :
    (start (.ofSetting setting) name threshold).close duration =
      if setting.Reports threshold duration ∨ setting.Loses threshold then
        [.spanComplete duration]
      else [] := by
  rw [close]
  congr 1
  rw [Bool.and_eq_true, all_threshold_iff, timed_start]
  refine propext ?_
  by_cases hs : setting.enabled = true
  · rw [threshold_start_of_enabled hs, Switch.ofSetting, Switch.threshold?_set]
    rcases threshold with _ | own
    · rcases hleast : setting.least with _ | least
      · simp [Setting.Reports, Setting.Loses, Switch.enabled_set, hs, hleast]
      · by_cases h : least = Word.largest
        · simp [Setting.Reports, Setting.Loses, Switch.enabled_set, hs, hleast, h]
        · simp [Setting.Reports, Setting.Loses, Switch.enabled_set, hs, hleast, h]
    · simp [Setting.Reports, Setting.Loses, Switch.enabled_set, hs]
  · simp [Setting.Reports, Setting.Loses, Switch.ofSetting, Switch.enabled_set, hs]

end Span

/-- What happens to spans and their switch. -/
inductive SpanAction where
  | turn (setting : Setting)
  | start (name : String) (threshold : Option UInt64)
  /-- The span of a number is closed after a duration. -/
  | close (k : Nat) (duration : UInt64)
  deriving DecidableEq, Repr

/-- The setting in force after some actions. -/
def SpanAction.lastSetting (first : Setting) : List SpanAction → Setting
  | [] => first
  | .turn setting :: actions => lastSetting setting actions
  | .start .. :: actions => lastSetting first actions
  | .close .. :: actions => lastSetting first actions

/-- The switch with all spans so far. -/
structure Timekeeper where
  switch : Switch
  /-- The spans by their numbers, with `none` in place of the closed ones. -/
  spans : List (Option Span)
  deriving DecidableEq, Repr

namespace Timekeeper

/-- There is no span yet. -/
def begin (first : Setting) : Timekeeper := ⟨.ofSetting first, []⟩

/-- What an action does, and what it reports. -/
def step (t : Timekeeper) : SpanAction → Timekeeper × List Event
  | .turn setting => ({ t with switch := .ofSetting setting }, [])
  | .start name threshold =>
    ({ t with spans := t.spans ++ [some (Span.start t.switch name threshold)] }, [])
  | .close k duration =>
    match t.spans[k]? with
    | some (some span) => ({ t with spans := t.spans.set k none }, span.close duration)
    | _ => (t, [])

/-- What some actions do, one after the other. -/
def after (t : Timekeeper) (actions : List SpanAction) : Timekeeper :=
  actions.foldl (fun t action => (t.step action).1) t

theorem after_cons (t : Timekeeper) (action : SpanAction) (actions : List SpanAction) :
    t.after (action :: actions) = (t.step action).1.after actions := rfl

theorem after_append (t : Timekeeper) (actions others : List SpanAction) :
    t.after (actions ++ others) = (t.after actions).after others :=
  List.foldl_append

theorem switch_step_start (t : Timekeeper) (name : String) (threshold : Option UInt64) :
    (t.step (.start name threshold)).1.switch = t.switch := rfl

theorem switch_step_close (t : Timekeeper) (k : Nat) (duration : UInt64) :
    (t.step (.close k duration)).1.switch = t.switch := by
  rw [step]
  split
  · rfl
  · rfl

/-- The switch stands where it was turned last. -/
theorem switch_after {t : Timekeeper} {first : Setting} (h : t.switch = .ofSetting first)
    (actions : List SpanAction) :
    (t.after actions).switch = .ofSetting (SpanAction.lastSetting first actions) := by
  induction actions generalizing t first with
  | nil => exact h
  | cons action actions ih =>
      rw [after_cons]
      cases action with
      | turn setting => exact ih rfl
      | start name threshold => exact ih ((switch_step_start t name threshold).trans h)
      | close k duration => exact ih ((switch_step_close t k duration).trans h)

theorem spans_step_start (t : Timekeeper) (name : String) (threshold : Option UInt64) :
    (t.step (.start name threshold)).1.spans =
      t.spans ++ [some (Span.start t.switch name threshold)] := rfl

/-- One action leaves a span alone that it does not close. -/
theorem spans_step_of_ne {t : Timekeeper} {k : Nat} {span : Span} {action : SpanAction}
    (h : t.spans[k]? = some (some span)) (hopen : ∀ duration, action ≠ .close k duration) :
    (t.step action).1.spans[k]? = some (some span) := by
  cases action with
  | turn setting => exact h
  | start name threshold =>
      have hk : k < t.spans.length := (List.getElem?_eq_some_iff.mp h).1
      rw [spans_step_start, List.getElem?_append_left hk, h]
  | close j duration =>
      have hjk : j ≠ k := fun hjk => hopen duration (congrArg (SpanAction.close · duration) hjk)
      rw [step]
      split
      · rw [List.getElem?_set_ne hjk, h]
      · exact h

/-- A span stays as it was opened until it is closed. -/
theorem spans_after_of_open {t : Timekeeper} {k : Nat} {span : Span} {actions : List SpanAction}
    (h : t.spans[k]? = some (some span)) (hopen : ∀ duration, .close k duration ∉ actions) :
    (t.after actions).spans[k]? = some (some span) := by
  induction actions generalizing t with
  | nil => exact h
  | cons action actions ih =>
      rw [after_cons]
      refine ih (spans_step_of_ne h fun duration haction => ?_) fun duration hmem => ?_
      · exact hopen duration (haction ▸ List.mem_cons_self)
      · exact hopen duration (List.mem_cons_of_mem _ hmem)

theorem step_close_of_some {t : Timekeeper} {k : Nat} {span : Span}
    (h : t.spans[k]? = some (some span)) (duration : UInt64) :
    (t.step (.close k duration)).2 = span.close duration := by
  rw [step, h]

/-- What the closing of a span reports, whatever was done before the span was
opened and while it was open. -/
theorem step_close_of_open (first : Setting) (before later : List SpanAction) (name : String)
    (threshold : Option UInt64) (duration : UInt64)
    (hopen : ∀ n, .close ((begin first).after before).spans.length n ∉ later) :
    (((begin first).after (before ++ .start name threshold :: later)).step
        (.close ((begin first).after before).spans.length duration)).2 =
      if (SpanAction.lastSetting first before).Reports threshold duration ∨
          (SpanAction.lastSetting first before).Loses threshold then
        [.spanComplete duration]
      else [] := by
  rw [after_append, after_cons]
  set t := (begin first).after before
  have hswitch : t.switch = .ofSetting (SpanAction.lastSetting first before) :=
    switch_after rfl before
  have hspan : (t.step (.start name threshold)).1.spans[t.spans.length]? =
      some (some (Span.start t.switch name threshold)) := by
    rw [spans_step_start, List.getElem?_concat_length]
  rw [step_close_of_some (spans_after_of_open hspan hopen), hswitch, Span.close_start]

/-- A span that follows the setting of its opening although the switch was turned
off while it was open. -/
theorem step_close_of_open_turned :
    (∀ n, .close 0 n ∉ [SpanAction.turn ⟨false, some 9⟩, .start "b" none, .close 1 0]) ∧
      (((begin ⟨true, none⟩).after
          [.turn ⟨true, some 750⟩, .start "a" none, .turn ⟨false, some 9⟩, .start "b" none,
            .close 1 0]).step (.close 0 749)).2 = [] := by
  have hopen : ∀ n, .close 0 n ∉
      [SpanAction.turn ⟨false, some 9⟩, .start "b" none, .close 1 0] := by simp
  refine ⟨hopen, ?_⟩
  exact (step_close_of_open ⟨true, none⟩ [.turn ⟨true, some 750⟩]
    [.turn ⟨false, some 9⟩, .start "b" none, .close 1 0] "a" none 749 hopen).trans (by decide)

/-- A setting that asks for the largest word is not followed. -/
theorem exists_lost_threshold :
    (((begin ⟨true, none⟩).after [.turn ⟨true, some Word.largest⟩, .start "a" none]).step
        (.close 0 0)).2 = [.spanComplete 0] ∧
      ¬ (SpanAction.lastSetting ⟨true, none⟩ [.turn ⟨true, some Word.largest⟩]).Reports none 0 := by
  decide

end Timekeeper

end Log

end NetReplay
