import HerdrWebui.Data.Json
import HerdrWebui.Data.Result
import HerdrWebui.Server.Settings

/-!
The settings file at the start of the server: what is read from it, the migrations of
older files, and when it is written back. The JSON library, the text form of a socket
address and the password hash are parameters, and so is what the file system says of
a folder.
-/

namespace HerdrWebui.Server

def legacyDefaultSessionExpirationMinutes : Nat := 24 * 60

namespace JcodeDetectionVariant

def asStr : JcodeDetectionVariant → String
  | .vanilla => "vanilla"
  | .auto => "auto"
  | .alecuba16Legacy | .infoFields => "info_fields"

def fromStr (value : String) : JcodeDetectionVariant :=
  let value := (trim value).toLower
  if value = "vanilla" then .vanilla
  else if value = "info_fields" ∨ value = "alecuba16" then .infoFields
  else .auto

/-- The older name of a variant is not read back. -/
def read (variant : JcodeDetectionVariant) : Bool :=
  match variant with
  | .alecuba16Legacy => false
  | .vanilla | .auto | .infoFields => true

theorem fromStr_read (value : String) : (fromStr value).read = true := by
  unfold fromStr
  dsimp only
  split
  · rfl
  · split <;> rfl

theorem fromStr_asStr {variant : JcodeDetectionVariant} (h : variant.read = true) :
    fromStr variant.asStr = variant := by
  cases variant with
  | alecuba16Legacy => cases h
  | vanilla | auto | infoFields => decide +kernel

end JcodeDetectionVariant

structure PersistedServerSettings where
  bind : Option String
  tlsMode : Option TlsMode
  user : Option String
  passwordHash : Option String
  /-- Plaintext, or a hash that a hand edit put here. Never written. -/
  password : Option String
  localhostNoAuth : Option Bool
  sessionExpirationMinutes : Option Nat
  sessionExpirationMigrated : Option Bool
  noSleepAutoCooldownSeconds : Option Nat
  backendMode : Option BackendMode
  builtinShell : Option String
  defaultFolder : Option String
  builtinBackendEnabled : Option Bool
  externalHerdrBackendEnabled : Option Bool
  jcodeDetectionVariant : Option String
  logLevel : Option LogLevel
  lsp : Option LspSettings
  recentWorkspaces : Option (List RecentWorkspace)
  deriving DecidableEq

structure SettingsFormat where
  /-- `serde_json::from_str`. -/
  fromStr : String → Except String Json
  /-- `serde_json::from_value`. -/
  fromValue : Json → Except String PersistedServerSettings
  /-- `serde_json::to_string_pretty`, which leaves the plaintext password out. -/
  toStringPretty : PersistedServerSettings → String
  parseBind : String → Except String SocketAddr
  bindToString : SocketAddr → String
  hashPassword : String → Except String String

inductive FolderError where
  | permissionDenied
  | other
  deriving DecidableEq

/-- The folders as the file system has them. -/
structure Folders where
  home : String
  expandPathPrefix : String → String
  /-- `readable_directory_bounded`, with the canonical path. -/
  readable : String → Except FolderError String
  requestPermission : String → Option String

namespace Folders

def defaultWorkingFolder (folders : Folders) (candidate : Option String)
    (allowPermissionPrompt : Bool) : String :=
  let fallback := (folders.readable folders.home).toOption.getD folders.home
  let path := folders.expandPathPrefix ((candidate.bind trimNonempty).getD "~")
  match folders.readable path with
  | .ok path => path
  | .error .permissionDenied =>
    if allowPermissionPrompt then
      ((folders.requestPermission path).bind
        fun path => (folders.readable path).toOption).getD fallback
    else fallback
  | .error .other => fallback

end Folders

/-- The settings file, whether it can be read, the outcome of a write to it, and how
often it was written. No code reads the count. -/
structure SettingsDisk where
  content : Option ByteArray
  readable : Bool
  write : Except String Unit
  writes : Nat

/-- `fs::read_to_string`. -/
def SettingsDisk.readToString (disk : SettingsDisk) : Option String :=
  if disk.readable then disk.content.bind String.fromUTF8? else none

def isPasswordHash (value : String) : Bool := hasPrefix "$argon2id$" value

/-- The value to keep, and whether the file needs a rewrite. -/
def migrateLegacySessionExpiration (persisted : Nat) (marker : Option Bool) : Nat × Bool :=
  if persisted = legacyDefaultSessionExpirationMinutes ∧ marker ≠ some true then
    (sessionExpirationNever, true)
  else (persisted, false)

/-- The keys a file must have, or it is written back with them. -/
def expectedKeys : List String :=
  ["bind", "tls_mode", "user", "password_hash", "localhost_no_auth",
    "session_expiration_minutes", "no_sleep_auto_cooldown_seconds", "backend_mode",
    "builtin_shell", "default_folder", "builtin_backend_enabled",
    "external_herdr_backend_enabled", "log_level"]

section Load

variable (format : SettingsFormat) (folders : Folders)

def RuntimeServerSettings.toPersisted (settings : RuntimeServerSettings)
    (bindToString : SocketAddr → String) : PersistedServerSettings where
  bind := some (bindToString settings.bind)
  tlsMode := some settings.tlsMode
  user := settings.user
  passwordHash := settings.password
  password := none
  localhostNoAuth := some settings.localhostNoAuth
  sessionExpirationMinutes := some settings.sessionExpirationMinutes
  sessionExpirationMigrated := some true
  noSleepAutoCooldownSeconds := some settings.noSleepAutoCooldownSeconds
  backendMode := some settings.backendMode
  builtinShell := settings.builtinShell
  defaultFolder := some settings.defaultFolder
  builtinBackendEnabled := some settings.builtinBackendEnabled
  externalHerdrBackendEnabled := some settings.externalHerdrBackendEnabled
  jcodeDetectionVariant := some settings.jcodeDetectionVariant.asStr
  logLevel := some settings.logLevel
  lsp := some settings.lsp
  recentWorkspaces := some settings.recentWorkspaces

def writeSettings (settings : RuntimeServerSettings) (disk : SettingsDisk) :
    Except String Unit × SettingsDisk :=
  match saveRuntimeServerSettings settings disk.write with
  | .error err => (.error err, disk)
  | .ok () =>
    (.ok (),
      { disk with
        content := some (format.toStringPretty (settings.toPersisted format.bindToString)).toUTF8
        readable := true
        writes := disk.writes + 1 })

/-- The password of a file, and whether it was migrated. -/
def loadPassword (persisted : PersistedServerSettings) :
    Except String (Option String × Bool) :=
  match persisted.passwordHash.bind trimNonempty with
  | some hash => .ok (some hash, false)
  | none =>
    match persisted.password.bind trimNonempty with
    | some plain =>
      if isPasswordHash plain then .ok (some plain, true)
      else do
        let hash ← format.hashPassword plain
        .ok (some hash, true)
    | none => .ok (none, false)

def loadBind (persisted : PersistedServerSettings) (defaultBind : SocketAddr) :
    Except String SocketAddr :=
  match persisted.bind with
  | some bind => (format.parseBind bind).mapError fun err => s!"invalid saved bind: {err}"
  | none => .ok defaultBind

/-- What a file says of the session expiration, and whether it was migrated. -/
def loadSessionExpiration (persisted : PersistedServerSettings) (default : Nat) : Nat × Bool :=
  match persisted.sessionExpirationMinutes with
  | some minutes =>
    migrateLegacySessionExpiration minutes persisted.sessionExpirationMigrated
  | none => (default, false)

/-- The fields of a file over the defaults. -/
def mergePersisted (defaults : RuntimeServerSettings) (persisted : PersistedServerSettings)
    (bind : SocketAddr) (password : Option String) : RuntimeServerSettings where
  bind := bind
  tlsMode := persisted.tlsMode.getD defaults.tlsMode
  user := persisted.user.filter (!·.isEmpty)
  password := password
  localhostNoAuth := persisted.localhostNoAuth.getD defaults.localhostNoAuth
  sessionExpirationMinutes :=
    (loadSessionExpiration persisted defaults.sessionExpirationMinutes).1
  noSleepAutoCooldownSeconds :=
    persisted.noSleepAutoCooldownSeconds.getD defaults.noSleepAutoCooldownSeconds
  backendMode := persisted.backendMode.getD defaults.backendMode
  builtinShell := persisted.builtinShell.filter (!·.isEmpty)
  defaultFolder :=
    match persisted.defaultFolder with
    | some folder => folders.defaultWorkingFolder (some folder) false
    | none => defaults.defaultFolder
  builtinBackendEnabled :=
    persisted.builtinBackendEnabled.getD defaults.builtinBackendEnabled
  externalHerdrBackendEnabled :=
    persisted.externalHerdrBackendEnabled.getD defaults.externalHerdrBackendEnabled
  jcodeDetectionVariant :=
    (persisted.jcodeDetectionVariant.map JcodeDetectionVariant.fromStr).getD
      defaults.jcodeDetectionVariant
  logLevel := persisted.logLevel.getD defaults.logLevel
  lsp := persisted.lsp.getD defaults.lsp
  recentWorkspaces := persisted.recentWorkspaces.getD defaults.recentWorkspaces

/-- The settings in a text, and whether the file needs a rewrite. -/
def readSettings (defaultBind : SocketAddr) (raw : String) :
    Except String (RuntimeServerSettings × Bool) := do
  let defaults :=
    defaultRuntimeServerSettings defaultBind (folders.defaultWorkingFolder none true)
  let invalid := fun err => s!"invalid webui-settings.json: {err}"
  let rawJson ← (format.fromStr raw).mapError invalid
  let missingKeys := expectedKeys.any fun key => (rawJson.get key).isNone
  let persisted ← (format.fromValue rawJson).mapError invalid
  let bind ← loadBind format persisted defaultBind
  let (password, passwordMigrated) ← loadPassword format persisted
  let expirationMigrated :=
    (loadSessionExpiration persisted defaults.sessionExpirationMinutes).2
  let settings := mergePersisted folders defaults persisted bind password
  validateRuntimeServerSettings settings
  .ok (settings, missingKeys || expirationMigrated || passwordMigrated)

def loadRuntimeServerSettings (defaultBind : SocketAddr) (disk : SettingsDisk) :
    Except String RuntimeServerSettings × SettingsDisk :=
  match disk.readToString with
  | none =>
    -- A file that is there and cannot be read is taken for one that is missing.
    let settings :=
      defaultRuntimeServerSettings defaultBind (folders.defaultWorkingFolder none true)
    let (written, disk) := writeSettings format settings disk
    (written.map fun _ => settings, disk)
  | some raw =>
    match readSettings format folders defaultBind raw with
    | .error err => (.error err, disk)
    | .ok (settings, rewrite) =>
      if rewrite then
        let (written, disk) := writeSettings format settings disk
        (written.map fun _ => settings, disk)
      else (.ok settings, disk)

end Load

/-- What a save of the settings writes reads back as it was written. -/
structure SettingsFormat.ReadsBack (format : SettingsFormat)
    (settings : RuntimeServerSettings) : Prop where
  bind : format.parseBind (format.bindToString settings.bind) = .ok settings.bind
  value : ∃ v, format.fromStr (format.toStringPretty (settings.toPersisted format.bindToString)) = .ok v ∧
    format.fromValue v = .ok (settings.toPersisted format.bindToString) ∧
    v.get "password" = none ∧ ∀ key ∈ expectedKeys, v.get key ≠ none

/-- The fields of a file and what is loaded for them. A blank text stands for no value,
a hash is trimmed, a folder is the one the check finds for it. -/
structure FieldsKept (format : SettingsFormat) (folders : Folders)
    (persisted : PersistedServerSettings) (settings : RuntimeServerSettings) : Prop where
  bind : ∀ v, persisted.bind = some v → format.parseBind v = .ok settings.bind
  tlsMode : ∀ v, persisted.tlsMode = some v → settings.tlsMode = v
  user : ∀ v, persisted.user = some v → settings.user = if v.isEmpty then none else some v
  passwordHash : ∀ v, persisted.passwordHash.bind trimNonempty = some v → settings.password = some v
  localhostNoAuth : ∀ v, persisted.localhostNoAuth = some v → settings.localhostNoAuth = v
  sessionExpirationMinutes : ∀ v, persisted.sessionExpirationMinutes = some v →
    settings.sessionExpirationMinutes =
      if v = legacyDefaultSessionExpirationMinutes ∧
          persisted.sessionExpirationMigrated ≠ some true then sessionExpirationNever
      else v
  noSleepAutoCooldownSeconds : ∀ v, persisted.noSleepAutoCooldownSeconds = some v →
    settings.noSleepAutoCooldownSeconds = v
  backendMode : ∀ v, persisted.backendMode = some v → settings.backendMode = v
  builtinShell : ∀ v, persisted.builtinShell = some v →
    settings.builtinShell = if v.isEmpty then none else some v
  defaultFolder : ∀ v, persisted.defaultFolder = some v →
    settings.defaultFolder = folders.defaultWorkingFolder (some v) false
  builtinBackendEnabled : ∀ v, persisted.builtinBackendEnabled = some v →
    settings.builtinBackendEnabled = v
  externalHerdrBackendEnabled : ∀ v, persisted.externalHerdrBackendEnabled = some v →
    settings.externalHerdrBackendEnabled = v
  jcodeDetectionVariant : ∀ v, persisted.jcodeDetectionVariant = some v →
    settings.jcodeDetectionVariant = .fromStr v
  logLevel : ∀ v, persisted.logLevel = some v → settings.logLevel = v
  lsp : ∀ v, persisted.lsp = some v → settings.lsp = v
  recentWorkspaces : ∀ v, persisted.recentWorkspaces = some v → settings.recentWorkspaces = v

/-- An older file: a key is missing, the expiration is the old default, or the password
is in the old key alone. -/
def Outdated (rawJson : Json) (persisted : PersistedServerSettings) : Prop :=
  (∃ key ∈ expectedKeys, rawJson.get key = none) ∨
    (persisted.sessionExpirationMinutes = some legacyDefaultSessionExpirationMinutes ∧
      persisted.sessionExpirationMigrated ≠ some true) ∨
    (persisted.passwordHash.bind trimNonempty = none ∧
      persisted.password.bind trimNonempty ≠ none)

/-- What a load leaves of a text it accepts. -/
structure Migrated (format : SettingsFormat) (folders : Folders) (defaultBind : SocketAddr)
    (rawJson : Json) (persisted : PersistedServerSettings) (disk : SettingsDisk)
    (settings : RuntimeServerSettings) (disk' : SettingsDisk) : Prop where
  fields : FieldsKept format folders persisted settings
  stored : disk' = disk ∨
    disk'.content = some (format.toStringPretty (settings.toPersisted format.bindToString)).toUTF8
  written : Outdated rawJson persisted →
    disk'.content = some (format.toStringPretty (settings.toPersisted format.bindToString)).toUTF8
  untouched : rawJson.get "password" = none → ¬ Outdated rawJson persisted → disk' = disk
  noPassword : rawJson.get "password" = none ∨ Outdated rawJson persisted →
    ∀ raw v, disk'.readToString = some raw → format.fromStr raw = .ok v →
      v.get "password" = none
  reload : (Outdated rawJson persisted →
      folders.defaultWorkingFolder (some settings.defaultFolder) false =
        settings.defaultFolder) →
    loadRuntimeServerSettings format folders defaultBind disk' = (.ok settings, disk')

section Read

variable {format : SettingsFormat} {folders : Folders} {defaultBind : SocketAddr}
  {raw : String} {settings : RuntimeServerSettings} {rewrite : Bool}

theorem readSettings_eq_ok :
    readSettings format folders defaultBind raw = .ok (settings, rewrite) ↔
      ∃ rawJson persisted bind password passwordMigrated,
        format.fromStr raw = .ok rawJson ∧ format.fromValue rawJson = .ok persisted ∧
        loadBind format persisted defaultBind = .ok bind ∧
        loadPassword format persisted = .ok (password, passwordMigrated) ∧
        settings = mergePersisted folders
          (defaultRuntimeServerSettings defaultBind (folders.defaultWorkingFolder none true))
          persisted bind password ∧
        validateRuntimeServerSettings settings = .ok () ∧
        rewrite = (expectedKeys.any (fun key => (rawJson.get key).isNone) ||
          (loadSessionExpiration persisted sessionExpirationNever).2 || passwordMigrated) := by
  simp only [readSettings, bind_eq_ok, mapError_eq_ok, Prod.exists, Except.ok.injEq,
    Prod.mk.injEq]
  constructor
  · rintro ⟨rawJson, hjson, persisted, hpersisted, bind, hbind, password, migrated, hpassword,
      _, hvalid, rfl, rfl⟩
    exact ⟨rawJson, persisted, bind, password, migrated, hjson, hpersisted, hbind, hpassword,
      rfl, hvalid, rfl⟩
  · rintro ⟨rawJson, persisted, bind, password, migrated, hjson, hpersisted, hbind, hpassword,
      rfl, hvalid, rfl⟩
    exact ⟨rawJson, hjson, persisted, hpersisted, bind, hbind, password, migrated, hpassword,
      (), hvalid, rfl, rfl⟩

variable {persisted : PersistedServerSettings} {defaults : RuntimeServerSettings}
  {bind : SocketAddr} {password : Option String} {migrated : Bool}

theorem mergePersisted_fieldsKept (hbind : loadBind format persisted defaultBind = .ok bind)
    (hpassword : loadPassword format persisted = .ok (password, migrated)) :
    FieldsKept format folders persisted
      (mergePersisted folders defaults persisted bind password) where
  bind v hv := by
    rw [loadBind, hv] at hbind
    exact mapError_eq_ok.mp hbind
  tlsMode v hv := by simp [mergePersisted, hv]
  user v hv := by
    rw [mergePersisted, hv, Option.filter_some]
    cases v.isEmpty <;> rfl
  passwordHash v hv := by
    rw [loadPassword, hv] at hpassword
    obtain ⟨rfl, -⟩ := Prod.mk.inj (Except.ok.inj hpassword)
    rfl
  localhostNoAuth v hv := by simp [mergePersisted, hv]
  sessionExpirationMinutes v hv := by
    simp only [mergePersisted, loadSessionExpiration, hv, migrateLegacySessionExpiration]
    split
    · rfl
    · rfl
  noSleepAutoCooldownSeconds v hv := by simp [mergePersisted, hv]
  backendMode v hv := by simp [mergePersisted, hv]
  builtinShell v hv := by
    rw [mergePersisted, hv, Option.filter_some]
    cases v.isEmpty <;> rfl
  defaultFolder v hv := by simp only [mergePersisted, hv]
  builtinBackendEnabled v hv := by simp [mergePersisted, hv]
  externalHerdrBackendEnabled v hv := by simp [mergePersisted, hv]
  jcodeDetectionVariant v hv := by simp [mergePersisted, hv]
  logLevel v hv := by simp [mergePersisted, hv]
  lsp v hv := by simp [mergePersisted, hv]
  recentWorkspaces v hv := by simp [mergePersisted, hv]

theorem loadPassword_migrated (h : loadPassword format persisted = .ok (password, migrated)) :
    migrated = true ↔ persisted.passwordHash.bind trimNonempty = none ∧
      persisted.password.bind trimNonempty ≠ none := by
  unfold loadPassword at h
  split at h
  · next hash hhash =>
      obtain ⟨-, rfl⟩ := Prod.mk.inj (Except.ok.inj h)
      simp [hhash]
  · next hnone =>
      split at h
      · next plain hplain =>
          have hmigrated : migrated = true := by
            split at h
            · exact (Prod.mk.inj (Except.ok.inj h)).2.symm
            · obtain ⟨hash, -, hpair⟩ := bind_eq_ok.mp h
              exact (Prod.mk.inj (Except.ok.inj hpair)).2.symm
          simp [hnone, hplain, hmigrated]
      · next hplain =>
          obtain ⟨-, rfl⟩ := Prod.mk.inj (Except.ok.inj h)
          simp [hplain]

theorem loadSessionExpiration_migrated {default : Nat} :
    (loadSessionExpiration persisted default).2 = true ↔
      persisted.sessionExpirationMinutes = some legacyDefaultSessionExpirationMinutes ∧
        persisted.sessionExpirationMigrated ≠ some true := by
  unfold loadSessionExpiration
  split
  · next minutes hminutes =>
      rw [migrateLegacySessionExpiration, hminutes, Option.some.injEq]
      split
      · next h => simp [h]
      · next h => simp [h]
  · next hnone => simp [hnone]

theorem rewrite_iff {rawJson : Json}
    (hpassword : loadPassword format persisted = .ok (password, migrated)) :
    (expectedKeys.any (fun key => (rawJson.get key).isNone) ||
      (loadSessionExpiration persisted sessionExpirationNever).2 || migrated) = true ↔
      Outdated rawJson persisted := by
  rw [Bool.or_eq_true, Bool.or_eq_true, loadSessionExpiration_migrated,
    loadPassword_migrated hpassword, List.any_eq_true, Outdated, or_assoc]
  simp only [Option.isNone_iff_eq_none]

/-- What the settings that come out of a load are like. -/
structure RuntimeServerSettings.Loaded (settings : RuntimeServerSettings) : Prop where
  user : settings.user.filter (!·.isEmpty) = settings.user
  password : settings.password.bind trimNonempty = settings.password
  builtinShell : settings.builtinShell.filter (!·.isEmpty) = settings.builtinShell
  jcodeDetectionVariant : settings.jcodeDetectionVariant.read = true
  valid : validateRuntimeServerSettings settings = .ok ()

theorem trimNonempty_self {o : Option String} {v : String} (h : o.bind trimNonempty = some v) :
    trimNonempty v = some v := by
  obtain ⟨s, -, h⟩ := Option.bind_eq_some_iff.mp h
  simp only [trimNonempty] at h
  split at h
  · cases h
  · next hempty =>
      obtain rfl := Option.some.inj h
      rw [trimNonempty, trim_trim, if_neg hempty]

theorem loadPassword_loaded
    (hhash : ∀ plain hash, format.hashPassword plain = .ok hash →
      trimNonempty hash = some hash)
    (h : loadPassword format persisted = .ok (password, migrated)) :
    password.bind trimNonempty = password := by
  unfold loadPassword at h
  split at h
  · next hash hhash =>
      obtain ⟨rfl, -⟩ := Prod.mk.inj (Except.ok.inj h)
      rw [Option.bind_some]
      exact trimNonempty_self hhash
  · split at h
    · next plain hplain =>
        split at h
        · obtain ⟨rfl, -⟩ := Prod.mk.inj (Except.ok.inj h)
          rw [Option.bind_some]
          exact trimNonempty_self hplain
        · obtain ⟨hash, hhashed, hpair⟩ := bind_eq_ok.mp h
          obtain ⟨rfl, -⟩ := Prod.mk.inj (Except.ok.inj hpair)
          rw [Option.bind_some]
          exact hhash plain hash hhashed
    · obtain ⟨rfl, -⟩ := Prod.mk.inj (Except.ok.inj h)
      rfl

theorem readSettings_loaded
    (hhash : ∀ plain hash, format.hashPassword plain = .ok hash →
      trimNonempty hash = some hash)
    (h : readSettings format folders defaultBind raw = .ok (settings, rewrite)) :
    settings.Loaded := by
  obtain ⟨rawJson, persisted, bind, password, migrated, -, -, -, hpassword, rfl, hvalid, -⟩ :=
    readSettings_eq_ok.mp h
  refine ⟨?_, loadPassword_loaded hhash hpassword, ?_, ?_, hvalid⟩
  · rw [mergePersisted, Option.filter_filter]
    simp
  · rw [mergePersisted, Option.filter_filter]
    simp
  · rw [mergePersisted]
    cases persisted.jcodeDetectionVariant with
    | none => rfl
    | some value => exact JcodeDetectionVariant.fromStr_read value

theorem mergePersisted_toPersisted (hloaded : settings.Loaded)
    (hfolder : folders.defaultWorkingFolder (some settings.defaultFolder) false =
      settings.defaultFolder) :
    mergePersisted folders defaults (settings.toPersisted format.bindToString) settings.bind
      settings.password = settings := by
  have hexpiration : (loadSessionExpiration (settings.toPersisted format.bindToString)
      defaults.sessionExpirationMinutes).1 = settings.sessionExpirationMinutes := by
    simp [loadSessionExpiration, RuntimeServerSettings.toPersisted,
      migrateLegacySessionExpiration]
  have hvariant : JcodeDetectionVariant.fromStr settings.jcodeDetectionVariant.asStr =
      settings.jcodeDetectionVariant :=
    JcodeDetectionVariant.fromStr_asStr hloaded.jcodeDetectionVariant
  rw [mergePersisted, hexpiration]
  simp only [RuntimeServerSettings.toPersisted, Option.getD_some, Option.map_some,
    hloaded.user, hloaded.builtinShell, hfolder, hvariant]

/-- What a save writes of loaded settings reads back as they are, and is not written
again. -/
theorem readSettings_toPersisted (hloaded : settings.Loaded)
    (hreads : format.ReadsBack settings)
    (hfolder : folders.defaultWorkingFolder (some settings.defaultFolder) false =
      settings.defaultFolder) :
    readSettings format folders defaultBind
      (format.toStringPretty (settings.toPersisted format.bindToString)) = .ok (settings, false) := by
  obtain ⟨v, hjson, hvalue, -, hkeys⟩ := hreads.value
  rw [readSettings_eq_ok]
  refine ⟨v, _, settings.bind, settings.password, false, hjson, hvalue, ?_, ?_, ?_,
    hloaded.valid, ?_⟩
  · exact mapError_eq_ok.mpr hreads.bind
  · have hhash : (settings.toPersisted format.bindToString).passwordHash.bind trimNonempty =
        settings.password := hloaded.password
    rw [loadPassword, hhash]
    cases settings.password <;> rfl
  · exact (mergePersisted_toPersisted hloaded hfolder).symm
  · have hnone : expectedKeys.any (fun key => (v.get key).isNone) = false := by
      rw [List.any_eq_false]
      intro key hkey
      rw [Option.isNone_iff_eq_none]
      exact hkeys key hkey
    rw [hnone]
    simp [loadSessionExpiration, RuntimeServerSettings.toPersisted,
      migrateLegacySessionExpiration]

variable {disk disk' : SettingsDisk} {rawJson : Json}

theorem writeSettings_eq_ok (h : writeSettings format settings disk = (.ok (), disk')) :
    disk'.content = some (format.toStringPretty (settings.toPersisted format.bindToString)).toUTF8 ∧
      disk'.readToString = some (format.toStringPretty (settings.toPersisted format.bindToString)) := by
  unfold writeSettings at h
  split at h
  · cases h
  · cases h
    exact ⟨rfl, fromUTF8?_toUTF8 _⟩

theorem writeSettings_eq_error {err : String}
    (h : writeSettings format settings disk = (.error err, disk')) : disk' = disk := by
  unfold writeSettings at h
  split at h
  · cases h
    rfl
  · cases h

theorem load_eq_ok (hraw : disk.readToString = some raw)
    (h : loadRuntimeServerSettings format folders defaultBind disk = (.ok settings, disk')) :
    ∃ rewrite, readSettings format folders defaultBind raw = .ok (settings, rewrite) ∧
      if rewrite then writeSettings format settings disk = (.ok (), disk')
      else disk' = disk := by
  unfold loadRuntimeServerSettings at h
  rw [hraw] at h
  dsimp only at h
  split at h
  · cases h
  · next settings' rewrite hread =>
      refine ⟨rewrite, ?_⟩
      cases rewrite with
      | false =>
        obtain ⟨hsettings, rfl⟩ := Prod.mk.inj h
        exact ⟨by rw [hread, Except.ok.inj hsettings], rfl⟩
      | true =>
        rw [if_pos rfl] at h
        cases hwrite : writeSettings format settings' disk with
        | mk written after =>
          rw [hwrite] at h
          cases written with
          | error err => cases h
          | ok =>
            obtain ⟨hsettings, rfl⟩ := Prod.mk.inj h
            obtain rfl : settings' = settings := Except.ok.inj hsettings
            exact ⟨hread, hwrite⟩

theorem load_migrated
    (hhash : ∀ plain hash, format.hashPassword plain = .ok hash →
      trimNonempty hash = some hash)
    (hraw : disk.readToString = some raw) (hjson : format.fromStr raw = .ok rawJson)
    (hpersisted : format.fromValue rawJson = .ok persisted)
    (hload : loadRuntimeServerSettings format folders defaultBind disk =
      (.ok settings, disk'))
    (hreads : format.ReadsBack settings) :
    Migrated format folders defaultBind rawJson persisted disk settings disk' := by
  obtain ⟨rewrite, hread, hwrite⟩ := load_eq_ok hraw hload
  have hloaded := readSettings_loaded hhash hread
  obtain ⟨rawJson', persisted', bind, password, migrated, hjson', hpersisted', hbind,
    hpassword, hsettings, -, hrewrite⟩ := readSettings_eq_ok.mp hread
  obtain rfl : rawJson = rawJson' := Except.ok.inj (hjson.symm.trans hjson')
  obtain rfl : persisted = persisted' := Except.ok.inj (hpersisted.symm.trans hpersisted')
  have houtdated : rewrite = true ↔ Outdated rawJson persisted := by
    rw [hrewrite]
    exact rewrite_iff hpassword
  have hfields : FieldsKept format folders persisted settings := by
    rw [hsettings]
    exact mergePersisted_fieldsKept hbind hpassword
  cases rewrite with
  | false =>
    obtain rfl : disk' = disk := hwrite
    have hcurrent : ¬ Outdated rawJson persisted := fun h =>
      Bool.false_ne_true (houtdated.mpr h)
    refine ⟨hfields, .inl rfl, fun h => absurd h hcurrent, fun _ _ => rfl, ?_, fun _ => hload⟩
    intro hnone raw' v hraw' hjson''
    obtain rfl : raw = raw' := Option.some.inj (hraw.symm.trans hraw')
    obtain rfl : rawJson = v := Except.ok.inj (hjson.symm.trans hjson'')
    exact hnone.resolve_right hcurrent
  | true =>
    obtain ⟨hcontent, htext⟩ := writeSettings_eq_ok hwrite
    have hold : Outdated rawJson persisted := houtdated.mp rfl
    refine ⟨hfields, .inr hcontent, fun _ => hcontent, fun _ h => absurd hold h, ?_, ?_⟩
    · intro _ raw' v hraw' hjson''
      obtain rfl := Option.some.inj (htext.symm.trans hraw')
      obtain ⟨v', hv', -, hnone, -⟩ := hreads.value
      obtain rfl : v' = v := Except.ok.inj (hv'.symm.trans hjson'')
      exact hnone
    · intro hfolder
      rw [loadRuntimeServerSettings, htext]
      dsimp only
      rw [readSettings_toPersisted hloaded hreads (hfolder hold)]
      rfl

/-- A load of a text leaves the file as it was unless it succeeds, and what it leaves
then has lost nothing. -/
theorem load_migrates
    (hhash : ∀ plain hash, format.hashPassword plain = .ok hash →
      trimNonempty hash = some hash)
    (hreads : ∀ settings disk',
      loadRuntimeServerSettings format folders defaultBind disk = (.ok settings, disk') →
        format.ReadsBack settings)
    (hraw : disk.readToString = some raw) :
    (∀ err disk', loadRuntimeServerSettings format folders defaultBind disk =
        (.error err, disk') → disk' = disk) ∧
      ∀ settings disk', loadRuntimeServerSettings format folders defaultBind disk =
          (.ok settings, disk') →
        ∃ rawJson persisted, format.fromStr raw = .ok rawJson ∧
          format.fromValue rawJson = .ok persisted ∧
          Migrated format folders defaultBind rawJson persisted disk settings disk' := by
  constructor
  · intro err disk' h
    unfold loadRuntimeServerSettings at h
    rw [hraw] at h
    dsimp only at h
    split at h
    · exact (Prod.mk.inj h).2.symm
    · split at h
      · next settings rewrite hread _ =>
          cases hwrite : writeSettings format settings disk with
          | mk written after =>
            rw [hwrite] at h
            cases written with
            | error err => exact (Prod.mk.inj h).2.symm.trans (writeSettings_eq_error hwrite)
            | ok => cases h
      · cases h
  · intro settings disk' h
    obtain ⟨rewrite, hread, -⟩ := load_eq_ok hraw h
    obtain ⟨rawJson, persisted, bind, password, migrated, hjson, hpersisted, -⟩ :=
      readSettings_eq_ok.mp hread
    exact ⟨rawJson, persisted, hjson, hpersisted,
      load_migrated hhash hraw hjson hpersisted h (hreads settings disk' h)⟩

end Read

section Sample

def sampleText : String :=
  "\x7b\"bind\":\"127.0.0.1:9999\",\"password\":\"secret\",\"default_folder\":\"~\"\x7d"

def sampleJson : Json :=
  .object [("bind", .string "127.0.0.1:9999"), ("default_folder", .string "~"),
    ("password", .string "secret")]

def samplePersisted : PersistedServerSettings where
  bind := some "127.0.0.1:9999"
  tlsMode := none
  user := none
  passwordHash := none
  password := some "secret"
  localhostNoAuth := none
  sessionExpirationMinutes := none
  sessionExpirationMigrated := none
  noSleepAutoCooldownSeconds := none
  backendMode := none
  builtinShell := none
  defaultFolder := some "~"
  builtinBackendEnabled := none
  externalHerdrBackendEnabled := none
  jcodeDetectionVariant := none
  logLevel := none
  lsp := none
  recentWorkspaces := none

def sampleBind : SocketAddr := ⟨.v4 127 0 0 1, 9999⟩

def sampleHash : String := "$argon2id$v=19$m=19456,t=2,p=1$c2FsdA$aGFzaA"

def sampleSettings : RuntimeServerSettings :=
  { defaultRuntimeServerSettings sampleBind "/home/op" with password := some sampleHash }

def writtenText : String :=
  "\x7b\n  \"bind\": \"127.0.0.1:9999\",\n  \"tls_mode\": \"auto\",\n  \"user\": null,\n" ++
    "  \"password_hash\": \"" ++ sampleHash ++ "\",\n  \"localhost_no_auth\": true,\n" ++
    "  \"session_expiration_minutes\": 0,\n  \"session_expiration_migrated\": true,\n" ++
    "  \"no_sleep_auto_cooldown_seconds\": 60,\n  \"backend_mode\": \"builtin\",\n" ++
    "  \"builtin_shell\": null,\n  \"default_folder\": \"/home/op\",\n" ++
    "  \"builtin_backend_enabled\": true,\n  \"external_herdr_backend_enabled\": true,\n" ++
    "  \"jcode_detection_variant\": \"auto\",\n  \"log_level\": \"none\",\n" ++
    "  \"lsp\": \x7b\n    \"enabled\": false,\n    \"servers\": \x7b\x7d\n  \x7d,\n" ++
    "  \"recent_workspaces\": []\n\x7d"

def writtenJson : Json :=
  .object [("backend_mode", .string "builtin"), ("bind", .string "127.0.0.1:9999"),
    ("builtin_backend_enabled", .bool true), ("builtin_shell", .null),
    ("default_folder", .string "/home/op"), ("external_herdr_backend_enabled", .bool true),
    ("jcode_detection_variant", .string "auto"), ("localhost_no_auth", .bool true),
    ("log_level", .string "none"),
    ("lsp", .object [("enabled", .bool false), ("servers", .object [])]),
    ("no_sleep_auto_cooldown_seconds", .number "60"), ("password_hash", .string sampleHash),
    ("recent_workspaces", .array []), ("session_expiration_migrated", .bool true),
    ("session_expiration_minutes", .number "0"), ("tls_mode", .string "auto"),
    ("user", .null)]

def sampleFormat : SettingsFormat where
  fromStr text :=
    if text = sampleText then .ok sampleJson
    else if text = writtenText then .ok writtenJson
    else .error "expected value at line 1 column 1"
  fromValue v :=
    .ok (if (v.get "password").isSome then samplePersisted
      else sampleSettings.toPersisted fun _ => "127.0.0.1:9999")
  toStringPretty _ := writtenText
  parseBind _ := .ok sampleBind
  bindToString _ := "127.0.0.1:9999"
  hashPassword _ := .ok sampleHash

def sampleFolders : Folders where
  home := "/home/op"
  expandPathPrefix path := if path = "~" then "/home/op" else path
  readable path := if path = "/home/op" then .ok path else .error .other
  requestPermission _ := none

def sampleDisk : SettingsDisk := ⟨some sampleText.toUTF8, true, .ok (), 0⟩

theorem sampleDisk_readToString : sampleDisk.readToString = some sampleText := by
  rw [SettingsDisk.readToString, sampleDisk, if_pos rfl, Option.bind_some, fromUTF8?_toUTF8]

theorem sampleDisk_load :
    loadRuntimeServerSettings sampleFormat sampleFolders sampleBind sampleDisk =
      (.ok sampleSettings, ⟨some writtenText.toUTF8, true, .ok (), 1⟩) := by
  have hread : readSettings sampleFormat sampleFolders sampleBind sampleText =
      .ok (sampleSettings, true) := by
    decide +kernel
  rw [loadRuntimeServerSettings, sampleDisk_readToString]
  dsimp only
  rw [hread]
  rfl

theorem sampleFormat_readsBack : sampleFormat.ReadsBack sampleSettings where
  bind := rfl
  value := by
    refine ⟨writtenJson, ?_, rfl, rfl, ?_⟩
    · have hdifferent : writtenText ≠ sampleText := by decide +kernel
      dsimp only [sampleFormat]
      rw [if_neg hdifferent, if_pos rfl]
    · decide +kernel

theorem sample_load_migrates :
    ∃ settings disk', loadRuntimeServerSettings sampleFormat sampleFolders sampleBind
        sampleDisk = (.ok settings, disk') ∧
      ∃ rawJson persisted, sampleFormat.fromStr sampleText = .ok rawJson ∧
        sampleFormat.fromValue rawJson = .ok persisted ∧
        Migrated sampleFormat sampleFolders sampleBind rawJson persisted sampleDisk settings
          disk' := by
  have hhash : ∀ plain hash, sampleFormat.hashPassword plain = .ok hash →
      trimNonempty hash = some hash := by
    intro plain hash h
    obtain rfl : sampleHash = hash := Except.ok.inj h
    decide +kernel
  have hreads : ∀ settings disk', loadRuntimeServerSettings sampleFormat sampleFolders
      sampleBind sampleDisk = (.ok settings, disk') → sampleFormat.ReadsBack settings := by
    intro settings disk' h
    obtain rfl : sampleSettings = settings :=
      Except.ok.inj (Prod.mk.inj (sampleDisk_load.symm.trans h)).1
    exact sampleFormat_readsBack
  obtain ⟨-, hmigrates⟩ := load_migrates hhash hreads sampleDisk_readToString
  exact ⟨_, _, sampleDisk_load, hmigrates _ _ sampleDisk_load⟩

/-- A folder is loaded as the check finds it, not as the file has it. -/
theorem sample_folder_changes :
    ∃ settings disk', loadRuntimeServerSettings sampleFormat sampleFolders sampleBind
        sampleDisk = (.ok settings, disk') ∧
      sampleFormat.fromStr sampleText = .ok sampleJson ∧
      sampleFormat.fromValue sampleJson = .ok samplePersisted ∧
      samplePersisted.defaultFolder = some "~" ∧ settings.defaultFolder = "/home/op" :=
  ⟨_, _, sampleDisk_load, rfl, rfl, rfl, rfl⟩

end Sample

end HerdrWebui.Server
