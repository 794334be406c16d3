/-
  RequestEngine.Proofs.Profile.Settings

  What a profile that was built has for each of its settings.  A setting is told
  apart by its field, and a profile is told apart by its eight settings, so what
  a builder makes of a list of settings can be said field by field: the last one
  that was made for the field counts, whatever was made for others in between.

    * `Profile.setting`             — the value of a field, as the setting that gives it;
    * `ProfileBuilder.made?`        — what a builder has made of a field;
    * `ProfileBuilder.made?_setAll` — the last setting of a field counts;
    * `ProfileBuilder.setting_build_setAll` — what a profile has that was built.
-/
import Mathlib.Data.List.Induction
import RequestEngine.Profile

namespace RequestEngine

-- ============================================================================
-- Fields
-- ============================================================================

/-- The settings of a profile, without their values. -/
inductive ProfileField where
  | requestTimeout | attemptTimeout | sameTargetCap | level | serial | balancing | retry
  | speculation
  deriving DecidableEq, Repr

/-- What a setting is about. -/
def ProfileBuilder.Setting.field : Setting → ProfileField
  | .requestTimeout _ => .requestTimeout
  | .attemptTimeout _ => .attemptTimeout
  | .sameTargetCap _ => .sameTargetCap
  | .level _ => .level
  | .serial _ => .serial
  | .balancing _ => .balancing
  | .retry _ => .retry
  | .speculation _ => .speculation

/-- The setting that gives a field the value that it has in a profile. -/
def Profile.setting (p : Profile) : ProfileField → ProfileBuilder.Setting
  | .requestTimeout => .requestTimeout p.requestTimeout
  | .attemptTimeout => .attemptTimeout p.attemptTimeout
  | .sameTargetCap => .sameTargetCap p.sameTargetCap
  | .level => .level p.level
  | .serial => .serial p.serial
  | .balancing => .balancing p.balancing
  | .retry => .retry p.retry
  | .speculation => .speculation p.speculation

/-- The setting that was made for a field, if one was. -/
def ProfileBuilder.made? (b : ProfileBuilder) : ProfileField → Option Setting
  | .requestTimeout => b.requestTimeout.map .requestTimeout
  | .attemptTimeout => b.attemptTimeout.map .attemptTimeout
  | .sameTargetCap => b.sameTargetCap.map .sameTargetCap
  | .level => b.level.map .level
  | .serial => b.serial.map .serial
  | .balancing => b.balancing.map .balancing
  | .retry => b.retry.map .retry
  | .speculation => b.speculation.map .speculation

namespace Profile

variable {p q : Profile}

@[simp] theorem field_setting (p : Profile) (f : ProfileField) : (p.setting f).field = f := by
  cases f <;> rfl

/-- A profile is its eight settings. -/
theorem eq_of_setting (agree : ∀ f, p.setting f = q.setting f) : p = q := by
  obtain ⟨requestTimeout, attemptTimeout, sameTargetCap, level, serial, balancing, retry,
    speculation⟩ := p
  cases agree .requestTimeout
  cases agree .attemptTimeout
  cases agree .sameTargetCap
  cases agree .level
  cases agree .serial
  cases agree .balancing
  cases agree .retry
  cases agree .speculation
  rfl

/-- A builder that was derived from a profile has all its settings made. -/
@[simp] theorem made?_toBuilder (p : Profile) (f : ProfileField) :
    p.toBuilder.made? f = some (p.setting f) := by
  cases f <;> rfl

end Profile

-- ============================================================================
-- Builders
-- ============================================================================

namespace ProfileBuilder

variable {b c : ProfileBuilder} {settings others : List Setting}

@[simp] theorem made?_blank (f : ProfileField) : ({} : ProfileBuilder).made? f = none := by
  cases f <;> rfl

/-- A setting is made for its own field only. -/
theorem made?_set (b : ProfileBuilder) (s : Setting) (f : ProfileField) :
    (b.set s).made? f = if s.field = f then some s else b.made? f := by
  cases s <;> cases f <;> rfl

/-- What is built has the settings that were made, and the defaults for the others. -/
theorem setting_build (b : ProfileBuilder) (f : ProfileField) :
    b.build.setting f = (b.made? f).getD (Profile.standard.setting f) := by
  have hmap : ∀ {α : Type} (make : α → Setting) (value : Option α) (given : α),
      make (value.getD given) = (value.map make).getD (make given) := by
    intro α make value given
    cases value <;> rfl
  cases f <;> exact hmap _ _ _

/-- The last of the settings for a field. -/
def lastFor (f : ProfileField) (settings : List Setting) : Option Setting :=
  (settings.filter fun s => s.field = f).getLast?

theorem lastFor_concat (f : ProfileField) (settings : List Setting) (s : Setting) :
    lastFor f (settings ++ [s]) = if s.field = f then some s else lastFor f settings := by
  by_cases hfield : s.field = f
  · simp [lastFor, List.filter_append, hfield]
  · simp [lastFor, List.filter_append, hfield]

@[simp] theorem setAll_concat (b : ProfileBuilder) (settings : List Setting) (s : Setting) :
    b.setAll (settings ++ [s]) = (b.setAll settings).set s := by
  rw [setAll, List.foldl_append]
  rfl

/-- Of several settings for a field the last one counts. -/
theorem made?_setAll (b : ProfileBuilder) (settings : List Setting) (f : ProfileField) :
    (b.setAll settings).made? f = (lastFor f settings).or (b.made? f) := by
  -- on the settings from the last one back
  induction settings using List.reverseRecOn with
  | nil => rfl
  | append_singleton earlier s ih =>
    rw [setAll_concat, made?_set, lastFor_concat, ih]
    split <;> rfl

/-- What is built has for each field the last setting made for it, else the one that the builder
    started with, else the default. -/
theorem setting_build_setAll (b : ProfileBuilder) (settings : List Setting) (f : ProfileField) :
    (b.setAll settings).build.setting f =
      (lastFor f settings).getD ((b.made? f).getD (Profile.standard.setting f)) := by
  rw [setting_build, made?_setAll, Option.getD_or]

/-- The order of settings for different fields is of no account. -/
theorem build_setAll_congr (b : ProfileBuilder)
    (agree : ∀ f, settings.filter (fun s => s.field = f) = others.filter fun s => s.field = f) :
    (b.setAll settings).build = (b.setAll others).build := by
  apply Profile.eq_of_setting
  intro f
  rw [setting_build_setAll, setting_build_setAll, lastFor, lastFor, agree f]

end ProfileBuilder

end RequestEngine
