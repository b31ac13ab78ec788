import Mathlib.Data.Finmap
import Mathlib.Data.String.Basic

/-!
# Reconfiguration of the watchdog

`Watchdog` chooses an implementation when it is constructed, and chooses again
when the configuration is reloaded, but only on some differences between the new
configuration and the one before it.

Values of driver settings are of an arbitrary type. The times of a configuration
do not take part in the choice and are left out.
-/

namespace Metatroni

variable {ω : Type} [DecidableEq ω]

/-- The watchdog modes. -/
inductive WatchdogMode
  | required
  | automatic
  | off
  deriving DecidableEq, Repr

/-- `parse_mode`, of a boolean or of anything else as `str` writes it. -/
def parseMode (mode : Bool ⊕ String) : WatchdogMode :=
  if mode = .inl false then .off
  else
    let mode := match mode with
      | .inl _ => "true"
      | .inr s => s.toLower
    if mode = "require" ∨ mode = "required" then .required
    else if mode = "auto" ∨ mode = "automatic" then .automatic
    else .off

/-- The `watchdog` section of a configuration; `settings` is what it has besides the mode,
the safety margin and the driver. -/
structure WatchdogSection (ω : Type) where
  mode : Option (Bool ⊕ String)
  driver : Option String
  settings : Finmap fun _ : String => ω

/-- `WatchdogConfig`. -/
structure WatchdogConfig (ω : Type) where
  mode : WatchdogMode
  driver : String
  driverConfig : Finmap fun _ : String => ω

/-- `WatchdogConfig.__init__`, for a configuration that may lack the section. -/
def WatchdogConfig.ofSection (watchdog : Option (WatchdogSection ω)) : WatchdogConfig ω :=
  match watchdog with
  | none => ⟨parseMode (.inr "automatic"), "default", ∅⟩
  | some watchdog =>
      ⟨parseMode (watchdog.mode.getD (.inr "automatic")), watchdog.driver.getD "default",
        watchdog.settings⟩

/-- The kinds of implementations, with the device of those that have one. -/
inductive WatchdogImpl (ω : Type)
  | null
  | linux (device : ω)
  | testing (device : ω)
  deriving DecidableEq

/-- `Watchdog`. -/
structure Watchdog (ω : Type) where
  activeConfig : WatchdogConfig ω
  active : Bool
  impl : WatchdogImpl ω

section Platform

/- Whether the platform is Linux, and the default device. -/
variable (isLinux : Bool) (defaultDevice : ω)

/-- `get_impl`. -/
def WatchdogConfig.getImpl (config : WatchdogConfig ω) : WatchdogImpl ω :=
  let device := (config.driverConfig.lookup "device").getD defaultDevice
  if config.driver = "testing" then .testing device
  else if isLinux ∧ config.driver = "default" then .linux device
  else .null

namespace Watchdog

/-- `__init__`, `none` if it exits. -/
def new (watchdogSection : Option (WatchdogSection ω)) : Option (Watchdog ω) :=
  let config := WatchdogConfig.ofSection watchdogSection
  if config.mode = .off then some ⟨config, false, .null⟩
  else
    let impl := config.getImpl isLinux defaultDevice
    if config.mode = .required ∧ impl = .null then none else some ⟨config, false, impl⟩

/-- `reload_config`. -/
def reloadConfig (watchdog : Watchdog ω) (watchdogSection : Option (WatchdogSection ω)) :
    Watchdog ω :=
  let config := WatchdogConfig.ofSection watchdogSection
  -- turning a watchdog off can always be done immediately
  let watchdog := if config.mode = .off then { watchdog with activeConfig := config, impl := .null }
    else watchdog
  if watchdog.active then watchdog
  else
    { watchdog with
      impl := if config.driver ≠ watchdog.activeConfig.driver ∨
          config.driverConfig ≠ watchdog.activeConfig.driverConfig then
        config.getImpl isLinux defaultDevice else watchdog.impl
      activeConfig := config }

end Watchdog

/-! ## One reload -/

/-- Two configurations have the same driver and the same driver settings. -/
def WatchdogConfig.SameDriver (config config' : WatchdogConfig ω) : Prop :=
  config.driver = config'.driver ∧ config.driverConfig = config'.driverConfig

instance (config config' : WatchdogConfig ω) : Decidable (config.SameDriver config') :=
  inferInstanceAs (Decidable (_ ∧ _))

namespace WatchdogConfig

omit [DecidableEq ω] in
theorem SameDriver.getImpl_eq {config config' : WatchdogConfig ω} (h : config.SameDriver config') :
    config.getImpl isLinux defaultDevice = config'.getImpl isLinux defaultDevice := by
  simp only [getImpl, h.1, h.2]

/-- Of some configurations, the latest first: the watchdog was on all the time since the
driver settings have been what they are. -/
def OnSinceChange : List (WatchdogConfig ω) → Prop
  | [] => True
  | last :: history =>
      ∀ config ∈ (last :: history).takeWhile (fun config => last.SameDriver config),
        config.mode ≠ .off

instance (history : List (WatchdogConfig ω)) : Decidable (OnSinceChange history) := by
  unfold OnSinceChange
  split <;> infer_instance

theorem onSinceChange_cons_iff (last : WatchdogConfig ω) (history : List (WatchdogConfig ω)) :
    OnSinceChange (last :: history) ↔ last.mode ≠ .off ∧
      ∀ config ∈ history.takeWhile (fun config => last.SameDriver config), config.mode ≠ .off := by
  simp [OnSinceChange, SameDriver]

/-- Without a change of the driver settings the time goes on, with a change it begins. -/
theorem onSinceChange_cons_cons (last previous : WatchdogConfig ω)
    (history : List (WatchdogConfig ω)) :
    OnSinceChange (last :: previous :: history) ↔ last.mode ≠ .off ∧
      (last.SameDriver previous → OnSinceChange (previous :: history)) := by
  rw [onSinceChange_cons_iff]
  refine and_congr_right fun _ => ?_
  by_cases h : last.SameDriver previous
  · have hsame (config : WatchdogConfig ω) :
        last.SameDriver config ↔ previous.SameDriver config := by
      simp only [SameDriver, h.1, h.2]
    rw [forall_prop_of_true h]
    simp only [hsame, OnSinceChange]
  · simp [h]

end WatchdogConfig

namespace Watchdog

open WatchdogConfig

/-- What a watchdog that was never activated is after some configurations, the latest first. -/
structure Follows (watchdog : Watchdog ω) (last : WatchdogConfig ω)
    (history : List (WatchdogConfig ω)) : Prop where
  inactive : watchdog.active = false
  activeConfig : watchdog.activeConfig = last
  impl : watchdog.impl = if OnSinceChange (last :: history) then
    last.getImpl isLinux defaultDevice else .null

variable {isLinux defaultDevice} {watchdog : Watchdog ω}
  {watchdogSection : Option (WatchdogSection ω)}

theorem follows_new (h : new isLinux defaultDevice watchdogSection = some watchdog) :
    watchdog.Follows isLinux defaultDevice (ofSection watchdogSection) [] := by
  simp only [new] at h
  split at h
  · next hoff =>
      obtain rfl := Option.some.inj h
      exact ⟨rfl, rfl, by simp [onSinceChange_cons_iff, hoff]⟩
  · next hon =>
      split at h
      · cases h
      · obtain rfl := Option.some.inj h
        exact ⟨rfl, rfl, by simp [onSinceChange_cons_iff, hon]⟩

/-- The implementation is only replaced if the driver settings have changed, or if the
watchdog is turned off. -/
theorem Follows.reloadConfig {last : WatchdogConfig ω} {history : List (WatchdogConfig ω)}
    (h : watchdog.Follows isLinux defaultDevice last history)
    (watchdogSection : Option (WatchdogSection ω)) :
    (watchdog.reloadConfig isLinux defaultDevice watchdogSection).Follows isLinux defaultDevice
      (ofSection watchdogSection) (last :: history) := by
  generalize hconfig : ofSection watchdogSection = config
  simp only [Watchdog.reloadConfig, hconfig]
  by_cases hoff : config.mode = .off
  · simp only [hoff, if_true, h.inactive, Bool.false_eq_true, if_false, ne_eq, not_true_eq_false,
      or_self]
    exact ⟨rfl, rfl, by simp [onSinceChange_cons_cons, hoff]⟩
  · simp only [hoff, if_false, h.inactive, Bool.false_eq_true]
    refine ⟨rfl, rfl, ?_⟩
    simp only [onSinceChange_cons_cons, ne_eq, hoff, not_false_eq_true, true_and]
    by_cases hsame : config.SameDriver last
    · rw [if_neg (by simp [h.activeConfig, hsame.1, hsame.2]), h.impl, hsame.getImpl_eq]
      simp only [hsame, true_implies]
    · rw [if_pos, if_pos (fun hsame' => absurd hsame' hsame)]
      rw [h.activeConfig]
      exact Classical.not_and_iff_not_or_not.mp hsame

theorem Follows.foldl {last : WatchdogConfig ω} {history : List (WatchdogConfig ω)}
    (h : watchdog.Follows isLinux defaultDevice last history)
    (sections : List (Option (WatchdogSection ω))) :
    ∃ last' history',
      (sections.map ofSection).reverse ++ (last :: history) = last' :: history' ∧
      (sections.foldl (Watchdog.reloadConfig isLinux defaultDevice) watchdog).Follows isLinux
        defaultDevice last' history' := by
  induction sections generalizing watchdog last history with
  | nil => exact ⟨last, history, rfl, h⟩
  | cons watchdogSection sections ih =>
      obtain ⟨last', history', heq, hfollows⟩ := ih (h.reloadConfig watchdogSection)
      exact ⟨last', history', by simp [← heq], hfollows⟩

/-- The implementation of a watchdog that is constructed, if it does not exit. -/
theorem impl_of_new (h : new isLinux defaultDevice watchdogSection = some watchdog) :
    watchdog.impl = if (ofSection watchdogSection).mode = .off then .null
      else (ofSection watchdogSection).getImpl isLinux defaultDevice := by
  rw [(follows_new h).impl]
  simp [onSinceChange_cons_iff]

/-- A configuration with a device is never refused. -/
theorem new_isSome (h : (ofSection watchdogSection).getImpl isLinux defaultDevice ≠ .null) :
    ∃ watchdog, new isLinux defaultDevice watchdogSection = some watchdog := by
  simp only [new]
  split
  · exact ⟨_, rfl⟩
  · rw [if_neg (fun hand => h hand.2)]
    exact ⟨_, rfl⟩

/-- After any number of reloads the implementation is the one that a new watchdog with the
last configuration has, exactly if that is no device, or if the watchdog was on all the
time since the driver settings have been what they are. -/
theorem reload_is_history_independent_iff {sections : List (Option (WatchdogSection ω))}
    (h : new isLinux defaultDevice watchdogSection = some watchdog) :
    (∀ fresh, new isLinux defaultDevice (sections.getLastD watchdogSection) = some fresh →
      (sections.foldl (Watchdog.reloadConfig isLinux defaultDevice) watchdog).impl = fresh.impl) ↔
    (ofSection (sections.getLastD watchdogSection)).mode = .off ∨
      (ofSection (sections.getLastD watchdogSection)).getImpl isLinux defaultDevice = .null ∨
      OnSinceChange ((watchdogSection :: sections).map ofSection).reverse := by
  obtain ⟨last, history, heq, hfollows⟩ := (follows_new h).foldl sections
  have hhistory : ((watchdogSection :: sections).map ofSection).reverse = last :: history := by
    rw [← heq, List.map_cons, List.reverse_cons]
  have hlast : ofSection (sections.getLastD watchdogSection) = last := by
    have := congrArg List.head? hhistory
    rw [List.head?_reverse, List.getLast?_map, List.getLast?_cons] at this
    simpa using this
  rw [hfollows.impl, hhistory]
  constructor
  · intro hfresh
    by_contra hnot
    rw [not_or, not_or, hlast] at hnot
    obtain ⟨hon, hdevice, hturned⟩ := hnot
    obtain ⟨fresh, hnew⟩ := new_isSome (hlast.symm ▸ hdevice)
    have himpl := hfresh fresh hnew
    rw [impl_of_new hnew, hlast, if_neg hon, if_neg hturned] at himpl
    exact hdevice himpl.symm
  · intro hcond fresh hnew
    rw [impl_of_new hnew, hlast]
    rw [hlast] at hcond
    by_cases hon : OnSinceChange (last :: history)
    · rw [if_pos hon, if_neg ((onSinceChange_cons_iff last history).mp hon).1]
    · rw [if_neg hon]
      rcases hcond with hoff | hnull | hon'
      · rw [if_pos hoff]
      · rw [hnull, ite_self]
      · exact absurd hon' hon

section Example

/-- The default driver with a device, in some mode. -/
def withDevice (mode device : String) : Option (WatchdogSection String) :=
  some ⟨some (.inr mode), none, Finmap.singleton "device" device⟩

theorem reload_is_history_independent_after_change :
    ∃ watchdog, new true "/dev/watchdog" (withDevice "off" "/dev/watchdog") = some watchdog ∧
      ∀ fresh, new true "/dev/watchdog" (withDevice "required" "/dev/watchdog1") = some fresh →
        (watchdog.reloadConfig true "/dev/watchdog" (withDevice "required" "/dev/watchdog1")).impl =
          fresh.impl := by
  obtain ⟨watchdog, h⟩ : ∃ watchdog,
      new true "/dev/watchdog" (withDevice "off" "/dev/watchdog") = some watchdog :=
    Option.isSome_iff_exists.mp (by decide +kernel)
  have hiff := @reload_is_history_independent_iff _ _ _ _ _ _
    [withDevice "required" "/dev/watchdog1"] h
  exact ⟨watchdog, h, hiff.mpr (.inr (.inr (by decide +kernel)))⟩

/-- The mode is changed from `off` to `required`, and there is no device. -/
theorem turning_on_keeps_null :
    ∃ watchdog ∈ new true "/dev/watchdog" (withDevice "off" "/dev/watchdog"),
      ∃ fresh ∈ new true "/dev/watchdog" (withDevice "required" "/dev/watchdog"),
        fresh.impl = .linux "/dev/watchdog" ∧
          (watchdog.reloadConfig true "/dev/watchdog"
            (withDevice "required" "/dev/watchdog")).impl = .null := by
  decide +kernel

end Example

end Watchdog

end Platform

end Metatroni
