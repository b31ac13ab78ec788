import Metatroni.Config.Compare

/-!
# Dynamic and local configuration

`Config` of `config.py` keeps the dynamic configuration of the DCS and the local one of the node,
and builds the effective configuration of both. The local configuration cannot override the
timeouts of the dynamic one.

## Implementation notes

A function is `none` where it raises an exception. All of them are caught in
`set_dynamic_configuration` and `reload_local_configuration`. What becomes of the parameters of
PostgreSQL, with their validators, is left to an arbitrary function.

Configurations are values, except for the one dictionary inside of the object that the program gives
to `set_dynamic_configuration`, which writes to it. Dictionaries that occur twice in a configuration
file, by an alias, are two dictionaries here.
-/

namespace Metatroni.Config

variable {φ : Type} [PyRuntime φ]

/-- What `_process_postgresql_parameters` and the update of a `CaseInsensitiveDict` make of
`postgresql.parameters`. -/
structure Parameters (φ : Type) where
  default : PyValue φ
  update (isLocal : Bool) (parameters value : PyValue φ) : Option (PyValue φ)

/-- The value of a key. -/
def get (key : String) (config : PyDict φ) : Option (PyValue φ) := Assoc.get key.toList config

/-- `config[key] = value` -/
def set (key : String) (value : PyValue φ) (config : PyDict φ) : PyDict φ :=
  Assoc.set key.toList value config

/-- A section of the configuration, which has to be a dictionary. -/
def section? (key : String) (config : PyDict φ) : Option (PyDict φ) :=
  (get key config).bind PyValue.items?

/-- `standby_cluster` of `__DEFAULT_CONFIG`. -/
def defaultStandbyCluster : PyDict φ :=
  ["create_replica_methods", "host", "port", "primary_slot_name", "restore_command",
    "archive_cleanup_command", "recovery_min_apply_delay"].map fun key => (key.toList, .str [])

variable (params : Parameters φ)

/-- `__DEFAULT_CONFIG` -/
def defaultConfig : PyDict φ :=
  [("ttl".toList, .int 30), ("loop_wait".toList, .int 10), ("retry_timeout".toList, .int 10),
    ("standby_cluster".toList, .dict defaultStandbyCluster),
    ("postgresql".toList,
      .dict [("use_slots".toList, .bool true), ("parameters".toList, params.default)])]

/-! ## Timeouts -/

/-- `__get_and_maybe_adjust_int_value` -/
def getAndMaybeAdjustIntValue (config : PyDict φ) (param : String) (minValue : ℤ) :
    Option (PyDict φ × ℤ) := do
  let value ← get param config <|> get param (defaultConfig params)
  let value ← value.toInt.toOption
  if value < minValue then pure (set param (.int minValue) config, minValue)
  else pure (config, value)

/-- `_validate_and_adjust_timeouts`, which writes to its argument: the configuration as it is left,
and whether no exception is raised. -/
def validateAndAdjustTimeouts (config : PyDict φ) : PyDict φ × Bool :=
  let minLoopWait := 1
  match getAndMaybeAdjustIntValue params config "loop_wait" minLoopWait with
  | none => (config, false)
  | some (config, loopWait) =>
      match getAndMaybeAdjustIntValue params config "retry_timeout" 3 with
      | none => (config, false)
      | some (config, retryTimeout) =>
          match getAndMaybeAdjustIntValue params config "ttl" 20 with
          | none => (config, false)
          | some (config, ttl) =>
              if minLoopWait + 2 * retryTimeout > ttl then
                let config := set "loop_wait" (.int minLoopWait) config
                (set "retry_timeout" (.int ((ttl - minLoopWait) / 2)) config, true)
              else if loopWait + 2 * retryTimeout > ttl then
                (set "loop_wait" (.int (ttl - 2 * retryTimeout)) config, true)
              else (config, true)

/-! ## The effective configuration -/

/-- `config['postgresql']['parameters'].update(...)` -/
def updateParameters (isLocal : Bool) (value : PyValue φ) (pgConfig : PyDict φ) :
    Option (PyDict φ) := do
  let parameters ← get "parameters" pgConfig
  let parameters ← params.update isLocal parameters value
  pure (set "parameters" parameters pgConfig)

/-- The settings that are not taken from the dynamic configuration. -/
def localSettings : List String :=
  ["connect_address", "proxy_address", "listen", "config_dir", "data_dir", "pgpass",
    "authentication"]

/-- One setting of the `postgresql` section of the dynamic configuration. -/
def copyPostgresql (pgConfig : PyDict φ) (setting : List Char × PyValue φ) : Option (PyDict φ) :=
  if setting.1 = "parameters".toList then updateParameters params false setting.2 pgConfig
  else if setting.1 ∈ localSettings.map String.toList then pure pgConfig
  else pure (Assoc.set setting.1 setting.2 pgConfig)

/-- One setting of the `standby_cluster` section. -/
def copyStandbyCluster (standby : PyDict φ) (setting : List Char × PyValue φ) : PyDict φ :=
  if setting.1 ∈ Assoc.keys (defaultStandbyCluster : PyDict φ) then
    Assoc.set setting.1 setting.2 standby
  else standby

/-- One setting of the dynamic configuration. -/
def copySetting (config : PyDict φ) (setting : List Char × PyValue φ) : Option (PyDict φ) :=
  if setting.1 = "postgresql".toList then do
    let settings ← setting.2.orEmpty.items?
    let pgConfig ← section? "postgresql" config
    let pgConfig ← settings.foldlM (copyPostgresql params) pgConfig
    pure (set "postgresql" (.dict pgConfig) config)
  else if setting.1 = "standby_cluster".toList then do
    let settings ← setting.2.orEmpty.items?
    let standby ← section? "standby_cluster" config
    pure (set "standby_cluster" (.dict (settings.foldl copyStandbyCluster standby)) config)
  -- only variables present in `__DEFAULT_CONFIG` allowed to be overridden from DCS
  else if (Assoc.get setting.1 config).isSome then do
    let value ← setting.2.toInt.toOption
    pure (Assoc.set setting.1 (.int value) config)
  else pure config

/-- `_safe_copy_dynamic_configuration` -/
def safeCopyDynamicConfiguration (dynamicConfiguration : PyDict φ) : Option (PyDict φ) :=
  dynamicConfiguration.foldlM (copySetting params) (defaultConfig params)

/-- A valid `citus` section. -/
def isCitusConfig : PyValue φ → Bool
  | .dict entries =>
      (match get "group" entries with
        | some (.int _) | some (.bool _) => true
        | _ => false) &&
      match get "database" entries with
        | some (.str _) => true
        | _ => false
  | _ => false

/-- One setting of the `postgresql` section of the local configuration. -/
def copyLocalPostgresql (pgConfig : PyDict φ) (setting : List Char × PyValue φ) :
    Option (PyDict φ) :=
  if setting.1 = "parameters".toList then updateParameters params true setting.2 pgConfig
  -- replication slots must be enabled/disabled globally
  else if setting.1 = "use_slots".toList then pure pgConfig
  else pure (Assoc.set setting.1 setting.2 pgConfig)

/-- One setting of the local configuration. -/
def copyLocalSetting (config : PyDict φ) (setting : List Char × PyValue φ) : Option (PyDict φ) :=
  if setting.1 = "citus".toList then
    pure (if isCitusConfig setting.2 then set "citus" setting.2 config else config)
  else if setting.1 = "postgresql".toList then do
    let settings ← setting.2.orEmpty.items?
    let pgConfig ← section? "postgresql" config
    let pgConfig ← settings.foldlM (copyLocalPostgresql params) pgConfig
    pure (set "postgresql" (.dict pgConfig) config)
  else if (Assoc.get setting.1 config).isNone ∨ setting.1 = "watchdog".toList then
    pure (Assoc.set setting.1 setting.2.orEmpty config)
  else pure config

/-- `auth` of the sections `ctl` and `restapi`. -/
def addAuth (config : PyDict φ) (name : String) : Option (PyDict φ) :=
  match get name config with
  | none => pure config
  | some value => do
      if ← value.contains? "authentication".toList then
        let entries ← value.items?
        let authentication ← section? "authentication" entries
        let username ← get "username" authentication
        let password ← get "password" authentication
        let auth := username.toStr ++ ':' :: password.toStr
        pure (set name (.dict (set "auth" (.str auth) entries)) config)
      else pure config

/-- `exhibitor` inside `zookeeper`, as it was in old configurations. -/
def moveExhibitor (config : PyDict φ) : Option (PyDict φ) :=
  match get "zookeeper" config with
  | none => pure config
  | some value => do
      if ← value.contains? "exhibitor".toList then
        let entries ← value.items?
        let exhibitor ← get "exhibitor" entries
        pure (Assoc.pop "zookeeper".toList (set "exhibitor" exhibitor config))
      else pure config

/-- `_AUTH_ALLOWED_PARAMETERS` -/
def authAllowedParameters : List String :=
  ["username", "password", "sslmode", "sslcert", "sslkey", "sslpassword", "sslrootcert", "sslcrl",
    "sslcrldir", "gssencmode", "channel_binding", "sslnegotiation"]

/-- `authentication` of the `postgresql` section: gathered from an old configuration if it is
missing, and without unknown parameters. -/
def convertAuthentication (pgConfig : PyDict φ) : Option (PyDict φ) := do
  let pgConfig :=
    if (get "authentication" pgConfig).isSome then pgConfig
    else
      let users := ["replication", "superuser"].filterMap fun user =>
        (get user pgConfig).map fun value => (user.toList, value)
      set "authentication" (.dict users)
        (set "use_pg_rewind" (.bool (get "pg_rewind" pgConfig).isSome) pgConfig)
  let value ← get "authentication" pgConfig
  let hasSuperuser ← value.contains? "superuser".toList
  let authentication ← value.items?
  let authentication :=
    match get "pg_rewind" pgConfig with
    | some rewind =>
        if hasSuperuser then authentication else set "superuser" rewind authentication
    | none => authentication
  let authentication ← authentication.mapM fun (user, value) => do
    let entries ← value.items?
    let allowed := entries.filter fun e => e.1 ∈ authAllowedParameters.map String.toList
    pure (user, PyValue.dict allowed)
  pure (set "authentication" (.dict authentication) pgConfig)

/-- The `name` of the `postgresql` section where there is no other. -/
def addName (pgConfig config : PyDict φ) : PyDict φ :=
  match get "name" config, get "name" pgConfig with
  | none, some name => set "name" name config
  | _, _ => config

/-- `value.setdefault(key, default)` -/
def setDefault (key : String) (default : PyValue φ) (config : PyDict φ) : PyDict φ :=
  if (get key config).isSome then config else set key default config

/-- When bootstrapping the new Citus cluster enable sync replication in global configuration. -/
def addBootstrap (config : PyDict φ) : Option (PyDict φ) :=
  if (get "citus" config).isNone then pure config
  else do
    let config := setDefault "bootstrap" (.dict []) config
    let bootstrap ← section? "bootstrap" config
    let bootstrap := setDefault "dcs" (.dict []) bootstrap
    let dcs ← section? "dcs" bootstrap
    let dcs := setDefault "synchronous_mode" (.str "quorum".toList) dcs
    pure (set "bootstrap" (.dict (set "dcs" (.dict dcs) bootstrap)) config)

/-- Copy some settings of the configuration into a section. -/
def updateFields (fields : List String) (config target : PyDict φ) : PyDict φ :=
  fields.foldl (fun target field =>
    match get field config with
    | some value => set field value target
    | none => target) target

/-- Inject identity fields into the section of the MySQL backend. -/
def updateMysql (config : PyDict φ) : Option (PyDict φ) := do
  let database ← ((get "database" config).getD .none).orEmpty.items?
  match get "type" database with
  | some (.str type) =>
      let mysql := (get "mysql" config).getD .none
      if type = "mysql".toList ∧ mysql.truthy then do
        let mysqlConfig ← mysql.items?
        let mysqlConfig := updateFields ["name", "scope"] config mysqlConfig
        let config := set "mysql" (.dict mysqlConfig) config
        pure (addName mysqlConfig config)
      else pure config
  | _ => pure config

/-- `_build_effective_configuration` -/
def buildEffectiveConfiguration (dynamicConfiguration localConfiguration : PyDict φ) :
    Option (PyDict φ) := do
  let config ← safeCopyDynamicConfiguration params dynamicConfiguration
  let config ← localConfiguration.foldlM (copyLocalSetting params) config
  let config ← ["ctl", "restapi"].foldlM addAuth config
  let config ← moveExhibitor config
  let pgConfig ← section? "postgresql" config
  let pgConfig ← convertAuthentication pgConfig
  let config ← addBootstrap (addName pgConfig config)
  let pgConfig := updateFields ["name", "scope", "retry_timeout", "citus"] config pgConfig
  updateMysql (set "postgresql" (.dict pgConfig) config)

/-! ## The object -/

/-- `_Version`, the version of a key in the DCS. -/
inductive Version
  | int (n : ℤ)
  | str (s : List Char)
  deriving DecidableEq

/-- `Config` -/
structure State (φ : Type) where
  modifyVersion : Version
  dynamicConfiguration : PyDict φ
  localConfiguration : PyDict φ
  effectiveConfiguration : PyDict φ
  cacheNeedsSaving : Bool

/-- What is given to `set_dynamic_configuration`. -/
inductive Configuration (φ : Type)
  | clusterConfig (modifyVersion : Version) (data : NestedDict φ)
  | dict (data : NestedDict φ)
  /-- `self['bootstrap']['dcs']`, a dictionary in the effective configuration, which
  `apply_dynamic_configuration` gives. -/
  | bootstrapDcs

/-- `self['bootstrap']['dcs']` -/
def bootstrapDcs? (config : PyDict φ) : Option (PyDict φ) :=
  (section? "bootstrap" config).bind (section? "dcs")

/-- The configuration if `self['bootstrap']['dcs']` has become another dictionary. -/
def setBootstrapDcs (dcs config : PyDict φ) : PyDict φ :=
  ((section? "bootstrap" config).map fun bootstrap =>
    set "bootstrap" (.dict (set "dcs" (.dict dcs) bootstrap)) config).getD config

namespace State

/-- The dictionary that is given. -/
def data? (s : State φ) : Configuration φ → Option (PyDict φ)
  | .clusterConfig _ data => some data.entries
  | .dict data => some data.entries
  | .bootstrapDcs => bootstrapDcs? s.effectiveConfiguration

/-- The object after the dictionary that is given has changed. -/
def write (data : PyDict φ) (s : State φ) : Configuration φ → State φ
  | .bootstrapDcs =>
      { s with effectiveConfiguration := setBootstrapDcs data s.effectiveConfiguration }
  | _ => s

/-- The part of `set_dynamic_configuration` behind the check of the version. -/
def setData (configuration : Configuration φ) (data : PyDict φ) (s : State φ) : State φ × Bool :=
  if deepCompare s.dynamicConfiguration data then (s, false)
  else
    let (data, isValid) := validateAndAdjustTimeouts params data
    let s := s.write data configuration
    let config := if isValid then
      buildEffectiveConfiguration params data s.localConfiguration else none
    match config with
    | some config =>
        ({ s with
            effectiveConfiguration := config
            dynamicConfiguration := data
            cacheNeedsSaving := true }, true)
    | none => (s, false)

/-- `set_dynamic_configuration`, if what is given is a dictionary. -/
def setDynamicConfiguration (configuration : Configuration φ) (s : State φ) :
    Option (State φ × Bool) :=
  (s.data? configuration).map fun data =>
    match configuration with
    | .clusterConfig modifyVersion _ =>
        if s.modifyVersion = modifyVersion then (s, false)
        else setData params configuration data { s with modifyVersion := modifyVersion }
    | _ => setData params configuration data s

/-- `reload_local_configuration` with what `_load_config_file` gives. -/
def reloadLocalConfiguration (loaded : Option (NestedDict φ)) (s : State φ) : State φ :=
  match loaded with
  | none => s
  | some configuration =>
      if deepCompare s.localConfiguration configuration.entries then s
      else
        match buildEffectiveConfiguration params s.dynamicConfiguration configuration.entries with
        | some config =>
            { s with
              localConfiguration := configuration.entries
              effectiveConfiguration := config }
        | none => s

/-- The object after `__init__`, which fails if there is no effective configuration. -/
def init? (localConfiguration : NestedDict φ) : Option (State φ) :=
  (buildEffectiveConfiguration params [] localConfiguration.entries).map fun config =>
    ⟨.int (-1), [], localConfiguration.entries, config, false⟩

end State

/-! ## What is built does not change the timeouts -/

/-- The keys of the timeouts. -/
def timeoutKeys : List (List Char) := ["loop_wait".toList, "retry_timeout".toList, "ttl".toList]

/-- The keys that stay as they are once the local configuration has been copied, unless there is a
`citus` section. -/
def keptKeys : List (List Char) := "bootstrap".toList :: timeoutKeys

/-- The values of some keys stay as they are. -/
def SameAt (keys : List (List Char)) (config config' : PyDict φ) : Prop :=
  ∀ key ∈ keys, Assoc.get key config' = Assoc.get key config

/-- The timeouts that are there stay as they are. -/
def SameTimeouts (config config' : PyDict φ) : Prop :=
  ∀ key ∈ timeoutKeys, (Assoc.get key config).isSome → Assoc.get key config' = Assoc.get key config

section SameAt

omit [PyRuntime φ]

variable {keys : List (List Char)}

theorem SameAt.refl (config : PyDict φ) : SameAt keys config config := fun _ _ => rfl

theorem SameAt.of_some {config config' : PyDict φ} (h : some config = some config') :
    SameAt keys config config' := by
  obtain rfl := Option.some.inj h
  exact .refl _

theorem SameAt.trans {config config' config'' : PyDict φ} (h : SameAt keys config config')
    (h' : SameAt keys config' config'') : SameAt keys config config'' := fun key hkey =>
  (h' key hkey).trans (h key hkey)

theorem SameAt.timeouts {config config' : PyDict φ} (h : SameAt keptKeys config config') :
    SameAt timeoutKeys config config' := fun key hkey => h key (List.mem_cons_of_mem _ hkey)

theorem SameAt.sameTimeouts {config config' : PyDict φ} (h : SameAt timeoutKeys config config') :
    SameTimeouts config config' := fun key hkey _ => h key hkey

theorem sameAt_assoc_set {name : List Char} (h : name ∉ keys) (value : PyValue φ)
    (config : PyDict φ) : SameAt keys config (Assoc.set name value config) := by
  intro key hkey
  refine Assoc.get_set_ne ?_ value config
  rintro rfl
  exact h hkey

theorem sameAt_set {name : String} (h : name.toList ∉ keys) (value : PyValue φ)
    (config : PyDict φ) : SameAt keys config (set name value config) :=
  sameAt_assoc_set h value config

theorem sameAt_pop {name : List Char} (h : name ∉ keys) (config : PyDict φ) :
    SameAt keys config (Assoc.pop name config) := by
  intro key hkey
  rw [Assoc.get_pop, if_neg]
  rintro rfl
  exact h hkey

theorem SameTimeouts.trans {config config' config'' : PyDict φ} (h : SameTimeouts config config')
    (h' : SameTimeouts config' config'') : SameTimeouts config config'' := by
  intro key hkey hsome
  have hsame := h key hkey hsome
  rw [h' key hkey (hsame ▸ hsome), hsame]

theorem sameTimeouts_foldlM {α : Type} {f : PyDict φ → α → Option (PyDict φ)}
    (h : ∀ config a config', f config a = some config' → SameTimeouts config config')
    {items : List α} {config config' : PyDict φ} (hfold : items.foldlM f config = some config') :
    SameTimeouts config config' := by
  induction items generalizing config with
  | nil => exact (SameAt.of_some hfold).sameTimeouts
  | cons a items ih =>
      rw [List.foldlM_cons] at hfold
      obtain ⟨next, hnext, hrest⟩ := Option.bind_eq_some_iff.mp hfold
      exact (h config a next hnext).trans (ih hrest)

theorem sameAt_addName (pgConfig config : PyDict φ) :
    SameAt keptKeys config (addName pgConfig config) := by
  rw [addName]
  split
  · exact sameAt_set (by decide) _ _
  · exact .refl _

theorem sameAt_setDefault {name : String} (h : name.toList ∉ keys)
    (default : PyValue φ) (config : PyDict φ) :
    SameAt keys config (setDefault name default config) := by
  rw [setDefault]
  split
  · exact .refl _
  · exact sameAt_set h _ _

end SameAt

section Building

variable {config config' : PyDict φ}

omit [PyRuntime φ] in
theorem sameAt_addBootstrap (h : addBootstrap config = some config') :
    SameAt timeoutKeys config config' := by
  rw [addBootstrap] at h
  split at h
  · exact .of_some h
  · obtain ⟨bootstrap, -, h⟩ := Option.bind_eq_some_iff.mp h
    obtain ⟨dcs, -, h⟩ := Option.bind_eq_some_iff.mp h
    obtain rfl := Option.some.inj h
    exact (sameAt_setDefault (by decide) _ _).trans (sameAt_set (by decide) _ _)

theorem sameAt_addAuth {name : String} (hname : name.toList ∉ keptKeys)
    (h : addAuth config name = some config') : SameAt keptKeys config config' := by
  rw [addAuth] at h
  split at h
  · exact .of_some h
  · obtain ⟨found, -, h⟩ := Option.bind_eq_some_iff.mp h
    split at h
    · simp only [Option.bind_eq_bind, Option.bind_eq_some_iff] at h
      obtain ⟨entries, -, authentication, -, username, -, password, -, h⟩ := h
      obtain rfl := Option.some.inj h
      exact sameAt_set hname _ _
    · exact .of_some h

omit [PyRuntime φ] in
theorem sameAt_moveExhibitor (h : moveExhibitor config = some config') :
    SameAt keptKeys config config' := by
  rw [moveExhibitor] at h
  split at h
  · exact .of_some h
  · obtain ⟨found, -, h⟩ := Option.bind_eq_some_iff.mp h
    split at h
    · simp only [Option.bind_eq_bind, Option.bind_eq_some_iff] at h
      obtain ⟨entries, -, exhibitor, -, h⟩ := h
      obtain rfl := Option.some.inj h
      exact (sameAt_set (by decide) _ _).trans (sameAt_pop (by decide) _)
    · exact .of_some h

theorem sameAt_updateMysql (h : updateMysql config = some config') :
    SameAt keptKeys config config' := by
  obtain ⟨database, -, h⟩ := Option.bind_eq_some_iff.mp h
  split at h
  · dsimp only at h
    split at h
    · obtain ⟨mysqlConfig, -, h⟩ := Option.bind_eq_some_iff.mp h
      obtain rfl := Option.some.inj h
      exact (sameAt_set (by decide) _ _).trans (sameAt_addName _ _)
    · exact .of_some h
  · exact .of_some h

/-- What is left unchanged after the copies, up to the bootstrap of a Citus cluster. -/
theorem sameAt_authorized {merged authorized moved : PyDict φ}
    (hauthorized : ["ctl", "restapi"].foldlM addAuth merged = some authorized)
    (hmoved : moveExhibitor authorized = some moved) (pgConfig : PyDict φ) :
    SameAt keptKeys merged (addName pgConfig moved) := by
  simp only [List.foldlM_cons, List.foldlM_nil, Option.bind_eq_bind, Option.bind_eq_some_iff]
    at hauthorized
  obtain ⟨first, hfirst, second, hsecond, h⟩ := hauthorized
  obtain rfl := Option.some.inj h
  have hauth : SameAt keptKeys merged second :=
    (sameAt_addAuth (by decide) hfirst).trans (sameAt_addAuth (by decide) hsecond)
  exact hauth.trans ((sameAt_moveExhibitor hmoved).trans (sameAt_addName _ _))

/-- The local configuration cannot override the timeouts. -/
theorem sameTimeouts_copyLocalSetting {setting : List Char × PyValue φ}
    (h : copyLocalSetting params config setting = some config') : SameTimeouts config config' := by
  rw [copyLocalSetting] at h
  split at h
  · obtain rfl := Option.some.inj h
    split
    · exact (sameAt_set (by decide) _ _).sameTimeouts
    · exact (SameAt.refl _).sameTimeouts
  · split at h
    · simp only [Option.bind_eq_bind, Option.bind_eq_some_iff] at h
      obtain ⟨settings, -, pgConfig, -, pgConfig', -, h⟩ := h
      obtain rfl := Option.some.inj h
      exact (sameAt_set (by decide) _ _).sameTimeouts
    · split at h
      · next hnew =>
          obtain rfl := Option.some.inj h
          intro key hkey hsome
          refine Assoc.get_set_ne ?_ _ _
          rintro rfl
          rcases hnew with hnone | hwatchdog
          · rw [Option.isNone_iff_eq_none] at hnone
            rw [hnone] at hsome
            cases hsome
          · rw [hwatchdog] at hkey
            exact absurd hkey (by decide)
      · exact (SameAt.of_some h).sameTimeouts

/-- A dynamic setting overrides its own timeout and no other. -/
theorem get_copySetting {setting : List Char × PyValue φ}
    (h : copySetting params config setting = some config') {key : List Char}
    (hkey : key ∈ timeoutKeys) (hsome : (Assoc.get key config).isSome) :
    (setting.1 ≠ key → Assoc.get key config' = Assoc.get key config) ∧
      (setting.1 = key → ∃ n, setting.2.toInt.toOption = some n ∧
        Assoc.get key config' = some (.int n)) := by
  have hpostgresql : "postgresql".toList ∉ timeoutKeys := by decide
  have hstandby : "standby_cluster".toList ∉ timeoutKeys := by decide
  rw [copySetting] at h
  split at h
  · next hname =>
      simp only [Option.bind_eq_bind, Option.bind_eq_some_iff] at h
      obtain ⟨settings, -, pgConfig, -, pgConfig', -, h⟩ := h
      obtain rfl := Option.some.inj h
      refine ⟨fun _ => sameAt_set hpostgresql _ _ key hkey, ?_⟩
      rintro rfl
      exact absurd (hname ▸ hkey) hpostgresql
  · split at h
    · next hname =>
        simp only [Option.bind_eq_bind, Option.bind_eq_some_iff] at h
        obtain ⟨settings, -, standby, -, h⟩ := h
        obtain rfl := Option.some.inj h
        refine ⟨fun _ => sameAt_set hstandby _ _ key hkey, ?_⟩
        rintro rfl
        exact absurd (hname ▸ hkey) hstandby
    · split at h
      · obtain ⟨n, hn, h⟩ := Option.bind_eq_some_iff.mp h
        obtain rfl := Option.some.inj h
        refine ⟨fun hne => Assoc.get_set_ne (Ne.symm hne) _ _, ?_⟩
        rintro rfl
        exact ⟨n, hn, Assoc.get_set_self _ _ _⟩
      · next hnone =>
          obtain rfl := Option.some.inj h
          refine ⟨fun _ => rfl, ?_⟩
          rintro rfl
          exact absurd hsome hnone

theorem get_foldlM_copySetting {settings : PyDict φ} (hnodup : (Assoc.keys settings).Nodup)
    (h : settings.foldlM (copySetting params) config = some config') {key : List Char}
    (hkey : key ∈ timeoutKeys) (hsome : (Assoc.get key config).isSome) :
    match Assoc.get key settings with
    | none => Assoc.get key config' = Assoc.get key config
    | some value => ∃ n, value.toInt.toOption = some n ∧ Assoc.get key config' = some (.int n) := by
  induction settings generalizing config with
  | nil =>
      obtain rfl := Option.some.inj h
      rfl
  | cons setting settings ih =>
      obtain ⟨hfresh, hnodup⟩ := List.nodup_cons.mp hnodup
      rw [List.foldlM_cons] at h
      obtain ⟨next, hnext, hrest⟩ := Option.bind_eq_some_iff.mp h
      obtain ⟨hother, hown⟩ := get_copySetting params hnext hkey hsome
      rw [Assoc.get_cons]
      by_cases hname : setting.1 = key
      · obtain ⟨n, hn, hget⟩ := hown hname
        have hlater := ih hnodup hrest (by rw [hget]; rfl)
        rw [Assoc.get_eq_none_iff.mpr (hname ▸ hfresh)] at hlater
        rw [if_pos hname]
        exact ⟨n, hn, hlater.trans hget⟩
      · rw [if_neg hname]
        have hget := hother hname
        have hlater := ih hnodup hrest (by rw [hget]; exact hsome)
        rwa [hget] at hlater

end Building

/-- The timeout that a dynamic configuration gives. -/
def timeout (key : List Char) (config : PyDict φ) : Option ℤ :=
  (Assoc.get key config <|> Assoc.get key (defaultConfig params)).bind (·.toInt.toOption)

omit [PyRuntime φ] in
theorem get_defaultConfig {key : List Char} (hkey : key ∈ timeoutKeys) :
    ∃ n, Assoc.get key (defaultConfig params) = some (.int n) := by
  simp only [timeoutKeys, List.mem_cons, List.not_mem_nil, or_false] at hkey
  rcases hkey with rfl | rfl | rfl
  · exact ⟨10, rfl⟩
  · exact ⟨10, rfl⟩
  · exact ⟨30, rfl⟩

/-- The effective configuration has the timeouts of the dynamic one. -/
theorem get_buildEffectiveConfiguration {dynamicConfiguration localConfiguration config : PyDict φ}
    (hnodup : (Assoc.keys dynamicConfiguration).Nodup)
    (h : buildEffectiveConfiguration params dynamicConfiguration localConfiguration = some config)
    {key : List Char} (hkey : key ∈ timeoutKeys) :
    ∃ n, timeout params key dynamicConfiguration = some n ∧
      Assoc.get key config = some (.int n) := by
  simp only [buildEffectiveConfiguration, Option.bind_eq_bind, Option.bind_eq_some_iff] at h
  obtain ⟨copied, hcopied, merged, hmerged, authorized, hauthorized, moved, hmoved, pgConfig, -,
    pgConfig', -, named, hnamed, hmysql⟩ := h
  obtain ⟨n, hdefault⟩ := get_defaultConfig params hkey
  have hbase : ∃ n, timeout params key dynamicConfiguration = some n ∧
      Assoc.get key copied = some (.int n) := by
    have hget := get_foldlM_copySetting params hnodup hcopied hkey (by rw [hdefault]; rfl)
    cases hdynamic : Assoc.get key dynamicConfiguration with
    | none =>
        rw [hdynamic] at hget
        refine ⟨n, ?_, hget.trans hdefault⟩
        rw [timeout, hdynamic, hdefault]
        rfl
    | some value =>
        rw [hdynamic] at hget
        obtain ⟨m, hm, hget⟩ := hget
        refine ⟨m, ?_, hget⟩
        rw [timeout, hdynamic]
        exact hm
  obtain ⟨m, hm, hget⟩ := hbase
  have hpostgresql : "postgresql".toList ∉ timeoutKeys := by decide
  have hkept : SameAt timeoutKeys merged config := by
    refine (sameAt_authorized hauthorized hmoved pgConfig').timeouts.trans ?_
    have hupdated := (sameAt_updateMysql hmysql).timeouts
    exact (sameAt_addBootstrap hnamed).trans ((sameAt_set hpostgresql _ _).trans hupdated)
  have hsame : SameTimeouts copied config :=
    (sameTimeouts_foldlM (fun _ _ _ => sameTimeouts_copyLocalSetting params) hmerged).trans
      hkept.sameTimeouts
  refine ⟨m, hm, ?_⟩
  rw [hsame key hkey (by rw [hget]; rfl), hget]

/-! ## The `bootstrap` section -/

/-- The keys of the `bootstrap` section are distinct. -/
def DistinctBootstrap (config : PyDict φ) : Prop :=
  ∀ value, get "bootstrap" config = some value → value.DistinctKeys

section DistinctBootstrap

variable {config config' : PyDict φ}

omit [PyRuntime φ] in
theorem DistinctBootstrap.of_get (h : DistinctBootstrap config)
    (heq : get "bootstrap" config' = get "bootstrap" config) : DistinctBootstrap config' := by
  intro value hvalue
  rw [heq] at hvalue
  exact h value hvalue

omit [PyRuntime φ] in
theorem DistinctBootstrap.of_sameAt (h : DistinctBootstrap config)
    (hsame : SameAt keptKeys config config') : DistinctBootstrap config' :=
  h.of_get (hsame _ List.mem_cons_self)

omit [PyRuntime φ] in
theorem DistinctBootstrap.set (h : DistinctBootstrap config) (name : List Char)
    {value : PyValue φ} (hvalue : name = "bootstrap".toList → value.DistinctKeys) :
    DistinctBootstrap (Assoc.set name value config) := by
  intro value' hget
  rw [get, Assoc.get_set] at hget
  split at hget
  · next hname =>
      obtain rfl := Option.some.inj hget
      exact hvalue hname.symm
  · exact h value' hget

/-- There is no `bootstrap` section in the dynamic configuration. -/
theorem get_bootstrap_safeCopy {dynamicConfiguration : PyDict φ}
    (h : safeCopyDynamicConfiguration params dynamicConfiguration = some config) :
    get "bootstrap" config = none := by
  have hstep : ∀ (config config' : PyDict φ) (setting : List Char × PyValue φ),
      copySetting params config setting = some config' → get "bootstrap" config = none →
        get "bootstrap" config' = none := by
    intro config config' setting h hnone
    have hset : ∀ (name : List Char) (value : PyValue φ), name ≠ "bootstrap".toList →
        get "bootstrap" (Assoc.set name value config) = none := fun name value hname =>
      (Assoc.get_set_ne hname.symm value config).trans hnone
    rw [copySetting] at h
    split at h
    · simp only [Option.bind_eq_bind, Option.bind_eq_some_iff] at h
      obtain ⟨settings, -, pgConfig, -, pgConfig', -, h⟩ := h
      obtain rfl := Option.some.inj h
      exact hset _ _ (by decide)
    · split at h
      · simp only [Option.bind_eq_bind, Option.bind_eq_some_iff] at h
        obtain ⟨settings, -, standby, -, h⟩ := h
        obtain rfl := Option.some.inj h
        exact hset _ _ (by decide)
      · split at h
        · next hsome =>
            obtain ⟨n, -, h⟩ := Option.bind_eq_some_iff.mp h
            obtain rfl := Option.some.inj h
            refine hset _ _ ?_
            intro hname
            rw [hname, ← get, hnone] at hsome
            cases hsome
        · obtain rfl := Option.some.inj h
          exact hnone
  have hfold : ∀ (settings config config' : PyDict φ),
      settings.foldlM (copySetting params) config = some config' →
        get "bootstrap" config = none → get "bootstrap" config' = none := by
    intro settings
    induction settings with
    | nil =>
        intro config config' h hnone
        obtain rfl := Option.some.inj h
        exact hnone
    | cons setting settings ih =>
        intro config config' h hnone
        rw [List.foldlM_cons] at h
        obtain ⟨next, hnext, hrest⟩ := Option.bind_eq_some_iff.mp h
        exact ih next config' hrest (hstep config next setting hnext hnone)
  exact hfold dynamicConfiguration _ config h rfl

theorem DistinctBootstrap.copyLocalSetting (h : DistinctBootstrap config)
    {setting : List Char × PyValue φ} (hsetting : setting.2.DistinctKeys)
    (hcopy : copyLocalSetting params config setting = some config') :
    DistinctBootstrap config' := by
  rw [Config.copyLocalSetting] at hcopy
  split at hcopy
  · obtain rfl := Option.some.inj hcopy
    split
    · exact h.set _ fun hname => absurd hname (by decide)
    · exact h
  · split at hcopy
    · simp only [Option.bind_eq_bind, Option.bind_eq_some_iff] at hcopy
      obtain ⟨settings, -, pgConfig, -, pgConfig', -, hcopy⟩ := hcopy
      obtain rfl := Option.some.inj hcopy
      exact h.set _ fun hname => absurd hname (by decide)
    · split at hcopy
      · obtain rfl := Option.some.inj hcopy
        exact h.set _ fun _ => PyValue.distinctKeys_orEmpty hsetting
      · obtain rfl := Option.some.inj hcopy
        exact h

theorem DistinctBootstrap.foldlM (h : DistinctBootstrap config) {settings : PyDict φ}
    (hsettings : ∀ setting ∈ settings, PyValue.DistinctKeys setting.2)
    (hcopy : settings.foldlM (Config.copyLocalSetting params) config = some config') :
    DistinctBootstrap config' := by
  induction settings generalizing config with
  | nil =>
      obtain rfl := Option.some.inj hcopy
      exact h
  | cons setting settings ih =>
      obtain ⟨hsetting, hsettings⟩ := List.forall_mem_cons.mp hsettings
      rw [List.foldlM_cons] at hcopy
      obtain ⟨next, hnext, hrest⟩ := Option.bind_eq_some_iff.mp hcopy
      exact ih (h.copyLocalSetting params hsetting hnext) hsettings hrest

omit [PyRuntime φ] in
theorem distinctKeys_section {key : String} {entries : PyDict φ}
    (hconfig : ∀ value, get key config = some value → value.DistinctKeys)
    (h : section? key config = some entries) : PyValue.DistinctKeys (.dict entries) := by
  obtain ⟨value, hvalue, hitems⟩ := Option.bind_eq_some_iff.mp h
  cases value with
  | dict found =>
      obtain rfl := Option.some.inj hitems
      exact hconfig _ hvalue
  | _ => cases hitems

omit [PyRuntime φ] in
theorem DistinctBootstrap.addBootstrap (h : DistinctBootstrap config)
    (hadd : addBootstrap config = some config') : DistinctBootstrap config' := by
  have hempty : PyValue.DistinctKeys (.dict [] : PyValue φ) := ⟨List.nodup_nil, trivial⟩
  have hdefault : ∀ (key : String) (value : PyValue φ) {config : PyDict φ}, value.DistinctKeys →
      PyValue.DistinctKeys (.dict config) →
        PyValue.DistinctKeys (.dict (setDefault key value config)) := by
    intro key value config hvalue hconfig
    rw [setDefault]
    split
    · exact hconfig
    · exact PyValue.distinctKeys_set hconfig hvalue _
  rw [Config.addBootstrap] at hadd
  split at hadd
  · obtain rfl := Option.some.inj hadd
    exact h
  · obtain ⟨bootstrap, hbootstrap, hadd⟩ := Option.bind_eq_some_iff.mp hadd
    obtain ⟨dcs, hdcs, hadd⟩ := Option.bind_eq_some_iff.mp hadd
    obtain rfl := Option.some.inj hadd
    have hset : DistinctBootstrap (setDefault "bootstrap" (.dict []) config) := by
      rw [setDefault]
      split
      · exact h
      · exact h.set _ fun _ => hempty
    have hbootstrap' := hdefault "dcs" (.dict []) hempty (distinctKeys_section hset hbootstrap)
    have hdcs' := distinctKeys_section (fun value => PyValue.distinctKeys_of_get hbootstrap') hdcs
    exact hset.set _ fun _ => PyValue.distinctKeys_set hbootstrap'
      (hdefault "synchronous_mode" (.str "quorum".toList) trivial hdcs') _

/-- The `bootstrap` section that is built is the one of the local configuration. -/
theorem distinctBootstrap_buildEffectiveConfiguration {dynamicConfiguration : PyDict φ}
    {localConfiguration : NestedDict φ}
    (h : buildEffectiveConfiguration params dynamicConfiguration localConfiguration.entries =
      some config) : DistinctBootstrap config := by
  simp only [buildEffectiveConfiguration, Option.bind_eq_bind, Option.bind_eq_some_iff] at h
  obtain ⟨copied, hcopied, merged, hmerged, authorized, hauthorized, moved, hmoved, pgConfig, -,
    pgConfig', -, named, hnamed, hmysql⟩ := h
  have hcopy : DistinctBootstrap copied := by
    intro value hvalue
    rw [get_bootstrap_safeCopy params hcopied] at hvalue
    cases hvalue
  have hmerge := hcopy.foldlM params
    ((PyValue.distinctKeys_dict_iff _).mp localConfiguration.distinct).2 hmerged
  have hname := hmerge.of_sameAt (sameAt_authorized hauthorized hmoved pgConfig')
  have hadd : DistinctBootstrap named := hname.addBootstrap hnamed
  refine DistinctBootstrap.of_sameAt ?_ (sameAt_updateMysql hmysql)
  exact hadd.set _ fun hname => absurd hname (by decide)

end DistinctBootstrap

end Metatroni.Config
