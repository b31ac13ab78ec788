import Metatroni.Config.Dynamic
import Metatroni.Lib.Runs

/-!
# The timeouts of the HA loop

Before a dynamic configuration is accepted, its timeouts are adjusted to each other, so that the
effective ones are always consistent. The adjustment writes to the dictionary that is given: where
this is a part of the effective configuration, a dynamic configuration that is not accepted in the
end has changed it.
-/

namespace Metatroni.Config

variable {φ : Type} [PyRuntime φ] (params : Parameters φ)

/-! ## Consistent timeouts -/

/-- The bounds of the timeouts, and the rule that binds them together. -/
structure Consistent (loopWait retryTimeout ttl : ℤ) : Prop where
  loopWait_ge : 1 ≤ loopWait
  retryTimeout_ge : 3 ≤ retryTimeout
  ttl_ge : 20 ≤ ttl
  sum_le : loopWait + 2 * retryTimeout ≤ ttl

/-- A configuration has consistent timeouts. -/
def HasConsistentTimeouts (config : PyDict φ) : Prop :=
  ∃ loopWait retryTimeout ttl, get "loop_wait" config = some (.int loopWait) ∧
    get "retry_timeout" config = some (.int retryTimeout) ∧
    get "ttl" config = some (.int ttl) ∧ Consistent loopWait retryTimeout ttl

/-- The timeouts that a dynamic configuration gives are consistent. -/
def IsAdjusted (config : PyDict φ) : Prop :=
  ∃ loopWait retryTimeout ttl, timeout params "loop_wait".toList config = some loopWait ∧
    timeout params "retry_timeout".toList config = some retryTimeout ∧
    timeout params "ttl".toList config = some ttl ∧ Consistent loopWait retryTimeout ttl

/-- The timeouts are consistent, up to the first one that cannot be converted. -/
def KeepsTimeouts (config : PyDict φ) : Prop :=
  ∀ loopWait, timeout params "loop_wait".toList config = some loopWait → 1 ≤ loopWait ∧
    ∀ retryTimeout, timeout params "retry_timeout".toList config = some retryTimeout →
      3 ≤ retryTimeout ∧
        ∀ ttl, timeout params "ttl".toList config = some ttl →
          20 ≤ ttl ∧ loopWait + 2 * retryTimeout ≤ ttl

theorem timeout_set_self (name : String) (n : ℤ) (config : PyDict φ) :
    timeout params name.toList (set name (.int n) config) = some n := by
  rw [timeout, set, Assoc.get_set_self]
  rfl

theorem timeout_set_ne {name : String} {key : List Char} (h : key ≠ name.toList)
    (value : PyValue φ) (config : PyDict φ) :
    timeout params key (set name value config) = timeout params key config := by
  rw [timeout, set, Assoc.get_set_ne h, timeout]

/-- What the code reads of a parameter is the timeout that the configuration gives. -/
theorem getAndMaybeAdjustIntValue_eq (config : PyDict φ) (param : String) (minValue : ℤ) :
    getAndMaybeAdjustIntValue params config param minValue =
      (timeout params param.toList config).map fun value =>
        if value < minValue then (set param (.int minValue) config, minValue)
        else (config, value) := by
  rw [getAndMaybeAdjustIntValue, timeout, get, get]
  cases Assoc.get param.toList config <|> Assoc.get param.toList (defaultConfig params) with
  | none => rfl
  | some value =>
      simp only [Option.bind_eq_bind, Option.bind_some]
      cases value.toInt.toOption with
      | none => rfl
      | some n =>
          simp only [Option.bind_some, Option.map_some]
          split <;> rfl

/-- A parameter after its adjustment; nothing else has changed. -/
structure AdjustedTo (config : PyDict φ) (param : String) (minValue : ℤ) (config' : PyDict φ)
    (value : ℤ) : Prop where
  timeout_eq : timeout params param.toList config' = some value
  ge : minValue ≤ value
  other : ∀ key, key ≠ param.toList → timeout params key config' = timeout params key config
  distinct : PyValue.DistinctKeys (.dict config) → PyValue.DistinctKeys (.dict config')
  kept : (∀ n, timeout params param.toList config = some n → minValue ≤ n) → config' = config

theorem getAndMaybeAdjustIntValue_spec {config config' : PyDict φ} {param : String}
    {minValue value : ℤ}
    (h : getAndMaybeAdjustIntValue params config param minValue = some (config', value)) :
    AdjustedTo params config param minValue config' value := by
  rw [getAndMaybeAdjustIntValue_eq] at h
  obtain ⟨n, hn, h⟩ := Option.map_eq_some_iff.mp h
  split at h
  · next hlt =>
      obtain ⟨rfl, rfl⟩ := Prod.mk.inj h
      exact ⟨timeout_set_self params param _ config, Int.le_refl _,
        fun key hkey => timeout_set_ne params hkey _ config,
        fun hdistinct => PyValue.distinctKeys_set hdistinct (by exact trivial) _,
        fun hkept => absurd (hkept n hn) (Int.not_le.mpr hlt)⟩
  · next hge =>
      obtain ⟨rfl, rfl⟩ := Prod.mk.inj h
      exact ⟨hn, Int.not_lt.mp hge, fun _ _ => rfl, id, fun _ => rfl⟩

theorem getAndMaybeAdjustIntValue_eq_none {config : PyDict φ} {param : String} {minValue : ℤ}
    (h : getAndMaybeAdjustIntValue params config param minValue = none) :
    timeout params param.toList config = none := by
  rwa [getAndMaybeAdjustIntValue_eq, Option.map_eq_none_iff] at h

/-- How `_validate_and_adjust_timeouts` leaves its argument, if the conversion of `loop_wait`, of
`retry_timeout` or of `ttl` fails, and if none of them does. -/
inductive Validated (config : PyDict φ) : PyDict φ × Bool → Prop
  | loopWait (h : timeout params "loop_wait".toList config = none) :
      Validated config (config, false)
  | retryTimeout {config₁ : PyDict φ} {loopWait : ℤ}
      (h₁ : AdjustedTo params config "loop_wait" 1 config₁ loopWait)
      (h : timeout params "retry_timeout".toList config = none) : Validated config (config₁, false)
  | ttl {config₁ config₂ : PyDict φ} {loopWait retryTimeout : ℤ}
      (h₁ : AdjustedTo params config "loop_wait" 1 config₁ loopWait)
      (h₂ : AdjustedTo params config₁ "retry_timeout" 3 config₂ retryTimeout)
      (h : timeout params "ttl".toList config = none) : Validated config (config₂, false)
  | valid {config₁ config₂ config₃ config' : PyDict φ} {loopWait retryTimeout ttl : ℤ}
      (h₁ : AdjustedTo params config "loop_wait" 1 config₁ loopWait)
      (h₂ : AdjustedTo params config₁ "retry_timeout" 3 config₂ retryTimeout)
      (h₃ : AdjustedTo params config₂ "ttl" 20 config₃ ttl)
      (h : IsAdjusted params config')
      (hdistinct : PyValue.DistinctKeys (.dict config₃) → PyValue.DistinctKeys (.dict config'))
      (hkept : loopWait + 2 * retryTimeout ≤ ttl → config' = config₃) :
      Validated config (config', true)

theorem validateAndAdjustTimeouts_spec (config : PyDict φ) :
    Validated params config (validateAndAdjustTimeouts params config) := by
  have hlr : "loop_wait".toList ≠ "retry_timeout".toList := by decide
  have hlt : "loop_wait".toList ≠ "ttl".toList := by decide
  have hrt : "retry_timeout".toList ≠ "ttl".toList := by decide
  rw [validateAndAdjustTimeouts]
  split
  · next h => exact .loopWait (getAndMaybeAdjustIntValue_eq_none params h)
  next config₁ loopWait h₁ =>
  have hloopWait := getAndMaybeAdjustIntValue_spec params h₁
  split
  · next h =>
      refine .retryTimeout hloopWait ?_
      rw [← hloopWait.other _ hlr.symm]
      exact getAndMaybeAdjustIntValue_eq_none params h
  next config₂ retryTimeout h₂ =>
  have hretryTimeout := getAndMaybeAdjustIntValue_spec params h₂
  split
  · next h =>
      refine .ttl hloopWait hretryTimeout ?_
      rw [← hloopWait.other _ hlt.symm, ← hretryTimeout.other _ hrt.symm]
      exact getAndMaybeAdjustIntValue_eq_none params h
  next config₃ ttl h₃ =>
  have httl := getAndMaybeAdjustIntValue_spec params h₃
  have hfirst : timeout params "loop_wait".toList config₃ = some loopWait := by
    rw [httl.other _ hlt, hretryTimeout.other _ hlr, hloopWait.timeout_eq]
  have hsecond : timeout params "retry_timeout".toList config₃ = some retryTimeout := by
    rw [httl.other _ hrt, hretryTimeout.timeout_eq]
  have hge₁ := hloopWait.ge
  have hge₂ := hretryTimeout.ge
  have hge₃ := httl.ge
  split
  · refine .valid hloopWait hretryTimeout httl
      ⟨1, (ttl - 1) / 2, ttl, ?_, timeout_set_self params _ _ _, ?_, ?_⟩
      (fun hdistinct => PyValue.distinctKeys_set
        (PyValue.distinctKeys_set hdistinct (by exact trivial) _) (by exact trivial) _)
      (fun hle => absurd hle (by omega))
    · rw [timeout_set_ne params hlr]
      exact timeout_set_self params _ _ _
    · rw [timeout_set_ne params hrt.symm, timeout_set_ne params hlt.symm]
      exact httl.timeout_eq
    · constructor <;> omega
  · split
    · refine .valid hloopWait hretryTimeout httl
        ⟨ttl - 2 * retryTimeout, retryTimeout, ttl, timeout_set_self params _ _ _, ?_, ?_, ?_⟩
        (fun hdistinct => PyValue.distinctKeys_set hdistinct (by exact trivial) _)
        (fun hle => absurd hle (by omega))
      · rw [timeout_set_ne params hlr.symm]
        exact hsecond
      · rw [timeout_set_ne params hlt.symm]
        exact httl.timeout_eq
      · constructor <;> omega
    · refine .valid hloopWait hretryTimeout httl
        ⟨loopWait, retryTimeout, ttl, hfirst, hsecond, httl.timeout_eq, ?_⟩ id fun _ => rfl
      constructor <;> omega

/-- Every dynamic configuration that is accepted has consistent timeouts. -/
theorem isAdjusted_of_validateAndAdjustTimeouts {config : PyDict φ}
    (h : (validateAndAdjustTimeouts params config).2 = true) :
    IsAdjusted params (validateAndAdjustTimeouts params config).1 := by
  have hspec := validateAndAdjustTimeouts_spec params config
  revert h hspec
  generalize validateAndAdjustTimeouts params config = result
  rintro h (_ | _ | _ | ⟨_, _, _, hadjusted⟩)
  · cases h
  · cases h
  · cases h
  · exact hadjusted

theorem distinctKeys_validateAndAdjustTimeouts {config : PyDict φ}
    (h : PyValue.DistinctKeys (.dict config)) :
    PyValue.DistinctKeys (.dict (validateAndAdjustTimeouts params config).1) := by
  have hspec := validateAndAdjustTimeouts_spec params config
  revert hspec
  generalize validateAndAdjustTimeouts params config = result
  rintro (_ | ⟨h₁, _⟩ | ⟨h₁, h₂, _⟩ | ⟨h₁, h₂, h₃, _, hdistinct, _⟩)
  · exact h
  · exact h₁.distinct h
  · exact h₂.distinct (h₁.distinct h)
  · exact hdistinct (h₃.distinct (h₂.distinct (h₁.distinct h)))

theorem IsAdjusted.keepsTimeouts {config : PyDict φ} (h : IsAdjusted params config) :
    KeepsTimeouts params config := by
  obtain ⟨loopWait, retryTimeout, ttl, hloopWait, hretryTimeout, httl, hconsistent⟩ := h
  intro loopWait' hloopWait'
  obtain rfl := Option.some.inj (hloopWait.symm.trans hloopWait')
  refine ⟨hconsistent.loopWait_ge, fun retryTimeout' hretryTimeout' => ?_⟩
  obtain rfl := Option.some.inj (hretryTimeout.symm.trans hretryTimeout')
  refine ⟨hconsistent.retryTimeout_ge, fun ttl' httl' => ?_⟩
  obtain rfl := Option.some.inj (httl.symm.trans httl')
  exact ⟨hconsistent.ttl_ge, hconsistent.sum_le⟩

/-- A dynamic configuration is left as it is if and only if no timeout has to be adjusted before
one of them cannot be converted. -/
theorem validateAndAdjustTimeouts_eq_self_iff (config : PyDict φ) :
    (validateAndAdjustTimeouts params config).1 = config ↔ KeepsTimeouts params config := by
  have hlr : "loop_wait".toList ≠ "retry_timeout".toList := by decide
  have hspec := validateAndAdjustTimeouts_spec params config
  revert hspec
  generalize validateAndAdjustTimeouts params config = result
  rintro (hnone | ⟨h₁, hnone⟩ | ⟨h₁, h₂, hnone⟩ | ⟨h₁, h₂, h₃, hadjusted, -, hkept⟩)
  · refine iff_of_true rfl fun loopWait hloopWait => ?_
    rw [hnone] at hloopWait
    cases hloopWait
  · constructor
    · rintro rfl loopWait hloopWait
      obtain rfl := Option.some.inj (h₁.timeout_eq.symm.trans hloopWait)
      refine ⟨h₁.ge, fun retryTimeout hretryTimeout => ?_⟩
      rw [hnone] at hretryTimeout
      cases hretryTimeout
    · exact fun hkeeps => h₁.kept fun n hn => (hkeeps n hn).1
  · constructor
    · rintro rfl loopWait hloopWait
      have hfirst := (h₂.other _ hlr).trans h₁.timeout_eq
      obtain rfl := Option.some.inj (hfirst.symm.trans hloopWait)
      refine ⟨h₁.ge, fun retryTimeout hretryTimeout => ?_⟩
      obtain rfl := Option.some.inj (h₂.timeout_eq.symm.trans hretryTimeout)
      refine ⟨h₂.ge, fun ttl httl => ?_⟩
      rw [hnone] at httl
      cases httl
    · intro hkeeps
      obtain rfl := h₁.kept fun n hn => (hkeeps n hn).1
      exact h₂.kept fun n hn => ((hkeeps _ h₁.timeout_eq).2 n hn).1
  · constructor
    · rintro rfl
      exact hadjusted.keepsTimeouts params
    · intro hkeeps
      obtain rfl := h₁.kept fun n hn => (hkeeps n hn).1
      obtain rfl := h₂.kept fun n hn => ((hkeeps _ h₁.timeout_eq).2 n hn).1
      have hbound := ((hkeeps _ h₁.timeout_eq).2 _ h₂.timeout_eq).2
      obtain rfl := h₃.kept fun n hn => (hbound n hn).1
      exact hkept (hbound _ h₃.timeout_eq).2

/-- A configuration that is built of consistent timeouts has them. -/
theorem IsAdjusted.hasConsistentTimeouts {dynamicConfiguration localConfiguration config : PyDict φ}
    (hadjusted : IsAdjusted params dynamicConfiguration)
    (hnodup : (Assoc.keys dynamicConfiguration).Nodup)
    (h : buildEffectiveConfiguration params dynamicConfiguration localConfiguration = some config) :
    HasConsistentTimeouts config := by
  obtain ⟨loopWait, retryTimeout, ttl, hloopWait, hretryTimeout, httl, hconsistent⟩ := hadjusted
  have hget : ∀ (param : String) (n : ℤ), param.toList ∈ timeoutKeys →
      timeout params param.toList dynamicConfiguration = some n →
        get param config = some (.int n) := by
    intro param n hkey hn
    obtain ⟨m, hm, hget⟩ := get_buildEffectiveConfiguration params hnodup h hkey
    obtain rfl := Option.some.inj (hn.symm.trans hm)
    exact hget
  exact ⟨loopWait, retryTimeout, ttl, hget _ _ (by decide) hloopWait,
    hget _ _ (by decide) hretryTimeout, hget _ _ (by decide) httl, hconsistent⟩

/-! ## The place of the configuration -/

/-- The values of a dynamic configuration cannot be converted or processed. -/
def IsRejected (data localConfiguration : PyDict φ) : Prop :=
  (validateAndAdjustTimeouts params data).2 = true →
    buildEffectiveConfiguration params (validateAndAdjustTimeouts params data).1
      localConfiguration = none

section Place

omit [PyRuntime φ]

variable {config data : PyDict φ}

theorem section?_eq_some_iff {key : String} : section? key config = some data ↔
    get key config = some (.dict data) := by
  rw [section?]
  cases get key config with
  | none => simp
  | some value => cases value <;> simp [PyValue.items?]

/-- Writing to `self['bootstrap']['dcs']` changes the configuration, unless it writes what is
there. -/
theorem setBootstrapDcs_eq_self_iff (h : bootstrapDcs? config = some data) (data' : PyDict φ) :
    setBootstrapDcs data' config = config ↔ data' = data := by
  obtain ⟨bootstrap, hbootstrap, hdcs⟩ := Option.bind_eq_some_iff.mp h
  have hget := section?_eq_some_iff.mp hbootstrap
  have hgetDcs := section?_eq_some_iff.mp hdcs
  rw [setBootstrapDcs, hbootstrap, Option.map_some, Option.getD_some]
  calc
    set "bootstrap" (.dict (set "dcs" (.dict data') bootstrap)) config = config ↔
        bootstrap = set "dcs" (.dict data') bootstrap := by
      rw [set, Assoc.set_eq_self_iff, ← get, hget, Option.some.injEq, PyValue.dict.injEq]
    _ ↔ data' = data := by
      rw [eq_comm, set, Assoc.set_eq_self_iff, ← get, hgetDcs, Option.some.injEq,
        PyValue.dict.injEq, eq_comm]

theorem get_setBootstrapDcs {name : String} (h : name.toList ≠ "bootstrap".toList) :
    get name (setBootstrapDcs data config) = get name config := by
  rw [setBootstrapDcs]
  cases section? "bootstrap" config with
  | none => rfl
  | some bootstrap => exact Assoc.get_set_ne h _ _

theorem DistinctBootstrap.distinctKeys (h : DistinctBootstrap config)
    (hdata : bootstrapDcs? config = some data) : PyValue.DistinctKeys (.dict data) := by
  obtain ⟨bootstrap, hbootstrap, hdcs⟩ := Option.bind_eq_some_iff.mp hdata
  have hdistinct := distinctKeys_section h hbootstrap
  exact distinctKeys_section (fun value => PyValue.distinctKeys_of_get hdistinct) hdcs

theorem DistinctBootstrap.setBootstrapDcs (h : DistinctBootstrap config)
    (hdata : PyValue.DistinctKeys (.dict data)) :
    DistinctBootstrap (setBootstrapDcs data config) := by
  rw [Config.setBootstrapDcs]
  cases hbootstrap : section? "bootstrap" config with
  | none => exact h
  | some bootstrap =>
      exact h.set _ fun _ =>
        PyValue.distinctKeys_set (distinctKeys_section h hbootstrap) hdata _

end Place

/-! ## Runs -/

/-- What happens to the object: a dynamic configuration is set, or the local one is reloaded. -/
inductive Event (φ : Type)
  | setDynamicConfiguration (configuration : Configuration φ)
  | reloadLocalConfiguration (loaded : Option (NestedDict φ))

namespace State

/-- The object after an event. -/
def step (event : Event φ) (s : State φ) : Option (State φ) :=
  match event with
  | .setDynamicConfiguration configuration =>
      (s.setDynamicConfiguration params configuration).map Prod.fst
  | .reloadLocalConfiguration loaded => some (s.reloadLocalConfiguration params loaded)

/-- The dynamic configuration is an adjusted one, and the effective timeouts are consistent. -/
structure Inv (s : State φ) : Prop where
  dynamicDistinct : PyValue.DistinctKeys (.dict s.dynamicConfiguration)
  localDistinct : PyValue.DistinctKeys (.dict s.localConfiguration)
  bootstrapDistinct : DistinctBootstrap s.effectiveConfiguration
  adjusted : IsAdjusted params s.dynamicConfiguration
  effective : HasConsistentTimeouts s.effectiveConfiguration

variable {params}

theorem inv_init {localConfiguration : NestedDict φ} {s : State φ}
    (h : init? params localConfiguration = some s) : Inv params s := by
  obtain ⟨config, hconfig, rfl⟩ := Option.map_eq_some_iff.mp h
  have hadjusted : IsAdjusted params ([] : PyDict φ) :=
    ⟨10, 10, 30, rfl, rfl, rfl, by constructor <;> decide⟩
  exact ⟨⟨List.nodup_nil, trivial⟩, localConfiguration.distinct,
    distinctBootstrap_buildEffectiveConfiguration params hconfig, hadjusted,
    hadjusted.hasConsistentTimeouts params List.nodup_nil hconfig⟩

/-- Setting a dynamic configuration stores an adjusted one and what is built of it, or
neither of the two. What has been written to the argument stays. -/
theorem setData_cases (configuration : Configuration φ) (data : PyDict φ) (s : State φ) :
    (deepCompare s.dynamicConfiguration data = true ∧
        s.setData params configuration data = (s, false)) ∨
      (deepCompare s.dynamicConfiguration data = false ∧
        ((∃ config, (validateAndAdjustTimeouts params data).2 = true ∧
            buildEffectiveConfiguration params (validateAndAdjustTimeouts params data).1
              s.localConfiguration = some config ∧
            s.setData params configuration data =
              ({ s with
                  effectiveConfiguration := config
                  dynamicConfiguration := (validateAndAdjustTimeouts params data).1
                  cacheNeedsSaving := true }, true)) ∨
          (IsRejected params data s.localConfiguration ∧
            s.setData params configuration data =
              (s.write (validateAndAdjustTimeouts params data).1 configuration, false)))) := by
  rw [setData, IsRejected]
  split
  · next hsame => exact .inl ⟨hsame, rfl⟩
  · next hsame =>
      refine .inr ⟨Bool.eq_false_iff.mpr hsame, ?_⟩
      have hlocal : ∀ data', (s.write data' configuration).localConfiguration =
          s.localConfiguration := by
        intro data'
        cases configuration <;> rfl
      generalize validateAndAdjustTimeouts params data = result
      obtain ⟨data', isValid⟩ := result
      simp only [hlocal]
      cases isValid with
      | false => exact .inr ⟨fun h => absurd h Bool.false_ne_true, rfl⟩
      | true =>
          simp only [if_true]
          cases hconfig : buildEffectiveConfiguration params data' s.localConfiguration with
          | none => exact .inr ⟨fun _ => rfl, rfl⟩
          | some config =>
              refine .inl ⟨config, trivial, rfl, ?_⟩
              cases configuration <;> rfl

theorem Inv.write {s : State φ} (h : Inv params s) {data : PyDict φ}
    (hdata : PyValue.DistinctKeys (.dict data)) (configuration : Configuration φ) :
    Inv params (s.write data configuration) := by
  cases configuration with
  | clusterConfig => exact h
  | dict => exact h
  | bootstrapDcs =>
      obtain ⟨loopWait, retryTimeout, ttl, hloopWait, hretryTimeout, httl, hconsistent⟩ :=
        h.effective
      refine { h with
        bootstrapDistinct := h.bootstrapDistinct.setBootstrapDcs hdata
        effective := ⟨loopWait, retryTimeout, ttl, ?_, ?_, ?_, hconsistent⟩ }
      · exact (get_setBootstrapDcs (by decide)).trans hloopWait
      · exact (get_setBootstrapDcs (by decide)).trans hretryTimeout
      · exact (get_setBootstrapDcs (by decide)).trans httl

theorem Inv.setData {s : State φ} (h : Inv params s) (configuration : Configuration φ)
    {data : PyDict φ} (hdata : PyValue.DistinctKeys (.dict data)) :
    Inv params (s.setData params configuration data).1 := by
  have hdata' := distinctKeys_validateAndAdjustTimeouts params hdata
  rcases setData_cases configuration data s with
    ⟨-, heq⟩ | ⟨-, ⟨config, hvalid, hconfig, heq⟩ | ⟨-, heq⟩⟩
  · rw [heq]
    exact h
  · rw [heq]
    have hadjusted := isAdjusted_of_validateAndAdjustTimeouts params hvalid
    let localConfiguration : NestedDict φ := ⟨s.localConfiguration, h.localDistinct⟩
    have hbuilt : buildEffectiveConfiguration params (validateAndAdjustTimeouts params data).1
        localConfiguration.entries = some config := hconfig
    exact ⟨hdata', h.localDistinct,
      distinctBootstrap_buildEffectiveConfiguration params hbuilt, hadjusted,
      hadjusted.hasConsistentTimeouts params hdata'.1 hconfig⟩
  · rw [heq]
    exact h.write hdata' configuration

/-- The keys of the dictionary that is given are distinct. -/
theorem Inv.distinctKeys {s : State φ} (h : Inv params s) {configuration : Configuration φ}
    {data : PyDict φ} (hdata : s.data? configuration = some data) :
    PyValue.DistinctKeys (.dict data) := by
  cases configuration with
  | clusterConfig version config =>
      obtain rfl := Option.some.inj hdata
      exact config.distinct
  | dict config =>
      obtain rfl := Option.some.inj hdata
      exact config.distinct
  | bootstrapDcs => exact h.bootstrapDistinct.distinctKeys hdata

theorem Inv.setDynamicConfiguration {s s' : State φ} (h : Inv params s)
    {configuration : Configuration φ} {ret : Bool}
    (hcall : s.setDynamicConfiguration params configuration = some (s', ret)) : Inv params s' := by
  obtain ⟨data, hdata, hresult⟩ := Option.map_eq_some_iff.mp hcall
  have hdistinct := h.distinctKeys hdata
  cases configuration with
  | clusterConfig version config =>
      dsimp only at hresult
      split at hresult
      · obtain rfl := congrArg Prod.fst hresult
        exact h
      · have hversion : Inv params { s with modifyVersion := version } := { h with }
        obtain rfl := congrArg Prod.fst hresult
        exact hversion.setData _ hdistinct
  | dict config =>
      obtain rfl := congrArg Prod.fst hresult
      exact h.setData _ hdistinct
  | bootstrapDcs =>
      obtain rfl := congrArg Prod.fst hresult
      exact h.setData _ hdistinct

theorem Inv.reloadLocalConfiguration {s : State φ} (h : Inv params s)
    (loaded : Option (NestedDict φ)) : Inv params (s.reloadLocalConfiguration params loaded) := by
  cases loaded with
  | none => exact h
  | some configuration =>
      rw [State.reloadLocalConfiguration]
      split
      · exact h
      · split
        · next config hconfig =>
            exact ⟨h.dynamicDistinct, configuration.distinct,
              distinctBootstrap_buildEffectiveConfiguration params hconfig, h.adjusted,
              h.adjusted.hasConsistentTimeouts params h.dynamicDistinct.1 hconfig⟩
        · exact h

theorem inv_step (event : Event φ) (s s' : State φ) (hstep : step params event s = some s')
    (h : Inv params s) : Inv params s' := by
  cases event with
  | setDynamicConfiguration configuration =>
      obtain ⟨⟨s', ret⟩, hcall, rfl⟩ := Option.map_eq_some_iff.mp hstep
      exact h.setDynamicConfiguration hcall
  | reloadLocalConfiguration loaded =>
      obtain rfl := Option.some.inj hstep
      exact h.reloadLocalConfiguration loaded

/-- A dynamic configuration that cannot be processed is not stored. -/
theorem setData_of_isRejected (configuration : Configuration φ) {data : PyDict φ} {s : State φ}
    (hrejected : IsRejected params data s.localConfiguration) :
    s.setData params configuration data = (s, false) ∧
        deepCompare s.dynamicConfiguration data = true ∨
      s.setData params configuration data =
        (s.write (validateAndAdjustTimeouts params data).1 configuration, false) ∧
        deepCompare s.dynamicConfiguration data = false := by
  rcases setData_cases configuration data s with
    ⟨hsame, heq⟩ | ⟨hsame, ⟨config, hvalid, hconfig, -⟩ | ⟨-, heq⟩⟩
  · exact .inl ⟨heq, hsame⟩
  · rw [hrejected hvalid] at hconfig
    cases hconfig
  · exact .inr ⟨heq, hsame⟩

/-- A dictionary of the caller that cannot be processed changes nothing. -/
theorem setData_of_isRejected_of_ne (configuration : Configuration φ)
    (hown : configuration ≠ .bootstrapDcs) {data : PyDict φ} {s : State φ}
    (hrejected : IsRejected params data s.localConfiguration) :
    s.setData params configuration data = (s, false) := by
  rcases setData_of_isRejected configuration hrejected with ⟨heq, -⟩ | ⟨heq, -⟩
  · exact heq
  · rw [heq]
    cases configuration with
    | clusterConfig => rfl
    | dict => rfl
    | bootstrapDcs => exact absurd rfl hown

/-- A dynamic configuration that cannot be processed changes neither what is stored nor what is
effective, unless it is a part of the effective configuration and some timeout has been adjusted. -/
theorem unchanged_iff {configuration : Configuration φ} {data : PyDict φ} {s s' : State φ}
    {ret : Bool} (hdata : s.data? configuration = some data)
    (hcall : s.setDynamicConfiguration params configuration = some (s', ret))
    (hrejected : IsRejected params data s.localConfiguration) :
    (s'.dynamicConfiguration = s.dynamicConfiguration ∧
        s'.effectiveConfiguration = s.effectiveConfiguration) ↔
      (configuration = .bootstrapDcs →
        deepCompare s.dynamicConfiguration data = true ∨ KeepsTimeouts params data) := by
  rw [setDynamicConfiguration, hdata, Option.map_some, Option.some.injEq] at hcall
  cases configuration with
  | clusterConfig version config =>
      refine iff_of_true ?_ fun h => by cases h
      dsimp only at hcall
      split at hcall
      · obtain rfl := congrArg Prod.fst hcall
        exact ⟨rfl, rfl⟩
      · obtain rfl := congrArg Prod.fst hcall
        rw [setData_of_isRejected_of_ne (s := { s with modifyVersion := version })
          (.clusterConfig version config) nofun hrejected]
        exact ⟨rfl, rfl⟩
  | dict config =>
      refine iff_of_true ?_ fun h => by cases h
      dsimp only at hcall
      obtain rfl := congrArg Prod.fst hcall
      rw [setData_of_isRejected_of_ne (.dict config) nofun hrejected]
      exact ⟨rfl, rfl⟩
  | bootstrapDcs =>
      dsimp only at hcall
      obtain rfl := congrArg Prod.fst hcall
      rcases setData_of_isRejected .bootstrapDcs hrejected with ⟨heq, hsame⟩ | ⟨heq, hsame⟩
      · rw [heq]
        exact iff_of_true ⟨rfl, rfl⟩ fun _ => .inl hsame
      · rw [heq, hsame]
        simp only [forall_const, Bool.false_eq_true, false_or]
        rw [← validateAndAdjustTimeouts_eq_self_iff, ← setBootstrapDcs_eq_self_iff hdata]
        exact and_iff_right rfl

end State

/-- The effective timeouts are consistent in every state that the object can reach. A dynamic
configuration that cannot be processed changes nothing if and only if it is not the dictionary in
the effective configuration, or no timeout has to be adjusted before the failure. -/
theorem timeouts_consistent {localConfiguration : NestedDict φ} {s₀ s : State φ}
    {events : List (Event φ)} (hinit : State.init? params localConfiguration = some s₀)
    (hrun : Runs.Run (State.step params) (fun _ _ => True) s₀ events s) :
    HasConsistentTimeouts s.effectiveConfiguration ∧
      ∀ configuration data s' ret, s.data? configuration = some data →
        s.setDynamicConfiguration params configuration = some (s', ret) →
        IsRejected params data s.localConfiguration →
        ((s'.dynamicConfiguration = s.dynamicConfiguration ∧
            s'.effectiveConfiguration = s.effectiveConfiguration) ↔
          (configuration = .bootstrapDcs →
            deepCompare s.dynamicConfiguration data = true ∨ KeepsTimeouts params data)) := by
  have hinv : State.Inv params s :=
    hrun.invariant (fun event s s' _ hstep => State.inv_step event s s' hstep)
      (State.inv_init hinit)
  exact ⟨hinv.effective, fun _ _ _ _ => State.unchanged_iff⟩

/-- Parameters that are taken as they are. -/
def plainParameters : Parameters Unit := ⟨.dict [], fun _ _ value => some value⟩

/-- A time to live that is too small, as a text. -/
def shortTtl : NestedDict Unit := ⟨[("ttl".toList, .str "15".toList)], by
  simp [PyValue.DistinctKeys, PyValue.DistinctEntries, Assoc.keys]⟩

/-- A local configuration with timeouts of its own. -/
def localTtl : NestedDict Unit :=
  ⟨[("scope".toList, .str "demo".toList), ("ttl".toList, .int 5)], by
    simp [PyValue.DistinctKeys, PyValue.DistinctEntries, Assoc.keys]⟩

/-- A time to live that is no number. -/
def badTtl : NestedDict Unit := ⟨[("ttl".toList, .none)], by
  simp [PyValue.DistinctKeys, PyValue.DistinctEntries, Assoc.keys]⟩

/-- The timeouts after a change of the dynamic configuration and a reload of the local one. -/
theorem timeouts_consistent_shortTtl :
    letI := PyRuntime.ascii
    ∃ s₀ s : State Unit, State.init? plainParameters localTtl = some s₀ ∧
      Runs.exec (State.step plainParameters)
        [.setDynamicConfiguration (.clusterConfig (.int 1) shortTtl),
          .reloadLocalConfiguration (some badTtl)] s₀ = some s ∧
      HasConsistentTimeouts s.effectiveConfiguration ∧
      get "ttl" s.effectiveConfiguration = some (.int 20) ∧
      get "loop_wait" s.effectiveConfiguration = some (.int 1) ∧
      ∃ s', s.setDynamicConfiguration plainParameters (.dict badTtl) = some (s', false) ∧
        s'.effectiveConfiguration = s.effectiveConfiguration := by
  let _ := PyRuntime.ascii
  obtain ⟨s₀, hinit⟩ : ∃ s₀ : State Unit, State.init? plainParameters localTtl = some s₀ :=
    ⟨_, rfl⟩
  obtain ⟨s, hexec, httl, hloopWait⟩ : ∃ s : State Unit,
      (State.init? plainParameters localTtl).bind (Runs.exec (State.step plainParameters)
        [.setDynamicConfiguration (.clusterConfig (.int 1) shortTtl),
          .reloadLocalConfiguration (some badTtl)]) = some s ∧
      get "ttl" s.effectiveConfiguration = some (.int 20) ∧
      get "loop_wait" s.effectiveConfiguration = some (.int 1) := ⟨_, rfl, rfl, rfl⟩
  rw [hinit, Option.bind_some] at hexec
  obtain ⟨hconsistent, hatomic⟩ := timeouts_consistent plainParameters hinit
    (Runs.run_of_exec hexec (Runs.guarded_true _ _))
  have hrejected : IsRejected plainParameters badTtl.entries s.localConfiguration :=
    fun h => absurd h (by decide)
  have hcall : s.setDynamicConfiguration plainParameters (.dict badTtl) = some (s, false) :=
    congrArg some (State.setData_of_isRejected_of_ne (.dict badTtl) nofun hrejected)
  exact ⟨s₀, s, hinit, hexec, hconsistent, httl, hloopWait, s, hcall,
    ((hatomic (.dict badTtl) _ _ _ rfl hcall hrejected).mpr nofun).2⟩

/-- Timeouts for the bootstrap of a cluster: one that is too small, and one that is no number. -/
def badBootstrap : NestedDict Unit :=
  ⟨[("bootstrap".toList, .dict [("dcs".toList, .dict [("loop_wait".toList, .int 0),
      ("ttl".toList, .str "abc".toList)])])], by
    simp [PyValue.DistinctKeys, PyValue.DistinctEntries, Assoc.keys]⟩

/-- The `loop_wait` in `self['bootstrap']['dcs']` -/
def bootstrapLoopWait (s : State Unit) : Option (PyValue Unit) :=
  (bootstrapDcs? s.effectiveConfiguration).bind (get "loop_wait")

/-- The call of the program with this configuration is rejected, but it has changed the effective
configuration. -/
theorem not_unchanged_badBootstrap :
    letI := PyRuntime.ascii
    ∃ s₀ data s' : _, State.init? plainParameters badBootstrap = some s₀ ∧
      s₀.data? .bootstrapDcs = some data ∧ IsRejected plainParameters data s₀.localConfiguration ∧
      s₀.setDynamicConfiguration plainParameters .bootstrapDcs = some (s', false) ∧
      bootstrapLoopWait s₀ = some (.int 0) ∧ bootstrapLoopWait s' = some (.int 1) ∧
      ¬(s'.dynamicConfiguration = s₀.dynamicConfiguration ∧
        s'.effectiveConfiguration = s₀.effectiveConfiguration) := by
  let _ := PyRuntime.ascii
  refine ⟨_, _, _, rfl, rfl, fun h => absurd h (by decide), rfl, rfl, rfl, fun h => ?_⟩
  have hdcs := congrArg bootstrapDcs? h.2
  cases hdcs

end Metatroni.Config
