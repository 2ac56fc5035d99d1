import HerdrWebui.Data.Table
import HerdrWebui.Data.Text
import HerdrWebui.Server.Auth

/-!
The server settings and how a request changes them: the settings a save builds
from the request and a snapshot of the settings in force, the checks they must
pass, and the changes of the recent workspaces.

A request writes only some fields explicitly. `SettingsPatch` is that part of it,
and `merge_eq_patch` splits the settings a save builds into the patch and what it
fills in for the fields the request leaves out.
-/

namespace HerdrWebui.Server

inductive TlsMode where
  | off
  | auto
  | selfSigned
  | files
  | both
  deriving DecidableEq

inductive BackendMode where
  | externalHerdr
  | builtin
  | auto
  deriving DecidableEq

inductive JcodeDetectionVariant where
  | vanilla
  | auto
  | alecuba16Legacy
  | infoFields
  deriving DecidableEq

inductive LogLevel where
  | none
  | info
  | debug
  deriving DecidableEq

structure SocketAddr where
  ip : IpAddr
  port : UInt16
  deriving DecidableEq

structure LanguageServerConfig where
  enabled : Bool
  command : Option String
  args : List String
  deriving DecidableEq

structure LspSettings where
  enabled : Bool
  servers : Table String LanguageServerConfig
  deriving DecidableEq

structure RecentWorkspace where
  path : String
  label : Option String
  branch : Option String
  kind : Option String
  openedAt : Option Nat
  deriving DecidableEq

structure RuntimeServerSettings where
  bind : SocketAddr
  tlsMode : TlsMode
  user : Option String
  /-- The Argon2id hash. -/
  password : Option String
  localhostNoAuth : Bool
  sessionExpirationMinutes : Nat
  noSleepAutoCooldownSeconds : Nat
  backendMode : BackendMode
  builtinShell : Option String
  defaultFolder : String
  builtinBackendEnabled : Bool
  externalHerdrBackendEnabled : Bool
  jcodeDetectionVariant : JcodeDetectionVariant
  logLevel : LogLevel
  lsp : LspSettings
  recentWorkspaces : List RecentWorkspace
  deriving DecidableEq

def defaultRuntimeServerSettings (bind : SocketAddr) (defaultFolder : String) :
    RuntimeServerSettings where
  bind := bind
  tlsMode := .auto
  user := none
  password := none
  localhostNoAuth := true
  sessionExpirationMinutes := sessionExpirationNever
  noSleepAutoCooldownSeconds := 60
  backendMode := .builtin
  builtinShell := none
  defaultFolder := defaultFolder
  builtinBackendEnabled := true
  externalHerdrBackendEnabled := true
  jcodeDetectionVariant := .auto
  logLevel := .none
  lsp := ⟨false, ∅⟩
  recentWorkspaces := []

def maxSessionExpirationMinutes : Nat := 365 * 24 * 60

def validateRuntimeServerSettings (settings : RuntimeServerSettings) :
    Except String Unit :=
  let localBind := settings.bind.ip.isLoopback
  let noCredentials := settings.user.isNone || settings.password.isNone
  if settings.sessionExpirationMinutes > maxSessionExpirationMinutes then
    .error s!"session expiration must be 0 (never expire) or between 1 and {maxSessionExpirationMinutes} minutes"
  else if !localBind && noCredentials then
    .error "username and password are required before binding to 0.0.0.0 or any non-local address"
  else if localBind && !settings.localhostNoAuth && noCredentials then
    .error "set username/password or allow localhost auth bypass"
  else if settings.noSleepAutoCooldownSeconds > 3600 then
    .error "no-sleep auto cooldown must be 3600 seconds or less"
  else if !settings.builtinBackendEnabled && !settings.externalHerdrBackendEnabled then
    .error "at least one backend type must be enabled"
  else .ok ()

theorem defaultRuntimeServerSettings_valid {bind : SocketAddr} {defaultFolder : String}
    (h : bind.ip.isLoopback = true) :
    validateRuntimeServerSettings (defaultRuntimeServerSettings bind defaultFolder) =
      .ok () := by
  simp [validateRuntimeServerSettings, defaultRuntimeServerSettings, h,
    sessionExpirationNever]

/-- `save_runtime_server_settings`, where `file` is the outcome of the write. -/
def saveRuntimeServerSettings (settings : RuntimeServerSettings)
    (file : Except String Unit) : Except String Unit := do
  validateRuntimeServerSettings settings
  file

/-- The body of the request, with the bind address parsed. -/
structure UpdateServerSettingsRequest where
  bind : SocketAddr
  tlsMode : Option TlsMode
  username : Option String
  password : Option String
  localhostNoAuth : Bool
  sessionExpirationMinutes : Option Nat
  noSleepAutoCooldownSeconds : Option Nat
  backendMode : Option BackendMode
  builtinShell : Option (Option String)
  defaultFolder : Option String
  builtinBackendEnabled : Option Bool
  externalHerdrBackendEnabled : Option Bool
  logLevel : Option LogLevel
  deriving DecidableEq

/-- What the save takes from outside: the hash of the submitted password, if it
could be hashed, and the default folder after the checks of the file system. -/
structure UpdateInputs where
  body : UpdateServerSettingsRequest
  hashed : Option String
  defaultFolder : String
  deriving DecidableEq

section Update

variable (verifyPassword : String → String → Bool)

/-- A password that verifies against the stored hash keeps it, another one is
hashed. -/
def passwordHash (stored hashed : Option String) (plain : String) : Option String :=
  match stored with
  | some stored => if verifyPassword stored plain then some stored else hashed
  | none => hashed

def UpdateInputs.submittedPassword (inputs : UpdateInputs) : Option String :=
  inputs.body.password.bind trimNonempty

/-- `next` of `update_server_settings`. -/
def UpdateInputs.merge (inputs : UpdateInputs) (current : RuntimeServerSettings) :
    RuntimeServerSettings where
  bind := inputs.body.bind
  tlsMode := inputs.body.tlsMode.getD current.tlsMode
  lsp := current.lsp
  user := inputs.body.username.bind trimNonempty
  password := (inputs.submittedPassword.bind
    (passwordHash verifyPassword current.password inputs.hashed)).or current.password
  localhostNoAuth := inputs.body.localhostNoAuth
  sessionExpirationMinutes :=
    inputs.body.sessionExpirationMinutes.getD current.sessionExpirationMinutes
  noSleepAutoCooldownSeconds := inputs.body.noSleepAutoCooldownSeconds.getD 60
  backendMode := inputs.body.backendMode.getD current.backendMode
  builtinShell :=
    match inputs.body.builtinShell with
    | some value => value.bind trimNonempty
    | none => current.builtinShell
  defaultFolder := inputs.defaultFolder
  builtinBackendEnabled :=
    inputs.body.builtinBackendEnabled.getD current.builtinBackendEnabled
  externalHerdrBackendEnabled :=
    inputs.body.externalHerdrBackendEnabled.getD current.externalHerdrBackendEnabled
  jcodeDetectionVariant := current.jcodeDetectionVariant
  logLevel := inputs.body.logLevel.getD current.logLevel
  recentWorkspaces := current.recentWorkspaces

/-- The fields a save was explicitly given. A blank password is none. -/
structure SettingsPatch where
  bind : SocketAddr
  tlsMode : Option TlsMode
  user : Option (Option String)
  password : Option String
  localhostNoAuth : Bool
  sessionExpirationMinutes : Option Nat
  noSleepAutoCooldownSeconds : Option Nat
  backendMode : Option BackendMode
  builtinShell : Option (Option String)
  defaultFolder : Option String
  builtinBackendEnabled : Option Bool
  externalHerdrBackendEnabled : Option Bool
  logLevel : Option LogLevel
  deriving DecidableEq

def SettingsPatch.apply (patch : SettingsPatch) (settings : RuntimeServerSettings) :
    RuntimeServerSettings :=
  { settings with
    bind := patch.bind
    tlsMode := patch.tlsMode.getD settings.tlsMode
    user := patch.user.getD settings.user
    password := patch.password.or settings.password
    localhostNoAuth := patch.localhostNoAuth
    sessionExpirationMinutes :=
      patch.sessionExpirationMinutes.getD settings.sessionExpirationMinutes
    noSleepAutoCooldownSeconds :=
      patch.noSleepAutoCooldownSeconds.getD settings.noSleepAutoCooldownSeconds
    backendMode := patch.backendMode.getD settings.backendMode
    builtinShell := patch.builtinShell.getD settings.builtinShell
    defaultFolder := patch.defaultFolder.getD settings.defaultFolder
    builtinBackendEnabled :=
      patch.builtinBackendEnabled.getD settings.builtinBackendEnabled
    externalHerdrBackendEnabled :=
      patch.externalHerdrBackendEnabled.getD settings.externalHerdrBackendEnabled
    logLevel := patch.logLevel.getD settings.logLevel }

/-- What the request says, with the password as it is stored. -/
def UpdateInputs.patch (inputs : UpdateInputs) (current : RuntimeServerSettings) :
    SettingsPatch where
  bind := inputs.body.bind
  tlsMode := inputs.body.tlsMode
  user := inputs.body.username.map trimNonempty
  password := inputs.submittedPassword.bind
    (passwordHash verifyPassword current.password inputs.hashed)
  localhostNoAuth := inputs.body.localhostNoAuth
  sessionExpirationMinutes := inputs.body.sessionExpirationMinutes
  noSleepAutoCooldownSeconds := inputs.body.noSleepAutoCooldownSeconds
  backendMode := inputs.body.backendMode
  builtinShell := inputs.body.builtinShell.map (·.bind trimNonempty)
  defaultFolder := inputs.body.defaultFolder.map fun _ => inputs.defaultFolder
  builtinBackendEnabled := inputs.body.builtinBackendEnabled
  externalHerdrBackendEnabled := inputs.body.externalHerdrBackendEnabled
  logLevel := inputs.body.logLevel

/-- What stands in for a field the request leaves out: the snapshot's value,
except for the user name, the cooldown and the folder. -/
def UpdateInputs.filled (inputs : UpdateInputs) (current : RuntimeServerSettings) :
    RuntimeServerSettings :=
  { current with
    user := none
    noSleepAutoCooldownSeconds := 60
    defaultFolder := inputs.defaultFolder }

theorem UpdateInputs.merge_eq_patch (inputs : UpdateInputs)
    (current : RuntimeServerSettings) :
    inputs.merge verifyPassword current =
      (inputs.patch verifyPassword current).apply (inputs.filled current) := by
  obtain ⟨body, hashed, defaultFolder⟩ := inputs
  obtain ⟨bind, tlsMode, username, password, localhostNoAuth, minutes, cooldown,
    backendMode, builtinShell, folder, builtin, external, logLevel⟩ := body
  simp only [merge, patch, filled, SettingsPatch.apply, RuntimeServerSettings.mk.injEq,
    true_and, and_true]
  refine ⟨?_, ?_, ?_⟩
  · cases username <;> rfl
  · cases builtinShell <;> rfl
  · cases folder <;> rfl

end Update

def maxRecentWorkspaces : Nat := 20

def pushRecentWorkspace (recent : List RecentWorkspace) (path : String)
    (label branch kind : Option String) (now : Nat) : List RecentWorkspace :=
  match trimNonempty path with
  | none => recent
  | some path =>
    let item : RecentWorkspace :=
      ⟨path, label.bind trimNonempty, branch.bind trimNonempty,
        kind.bind trimNonempty, some now⟩
    (item :: recent.filter (·.path != path)).take maxRecentWorkspaces

/-- What a request does to the list under its lock hold. -/
inductive RecentChange where
  | record (path : String) (label branch kind : Option String) (now : Nat)
  | clear
  | remove (path : String)
  deriving DecidableEq

def RecentChange.apply : RecentChange → List RecentWorkspace → List RecentWorkspace
  | .record path label branch kind now, recent =>
    pushRecentWorkspace recent path label branch kind now
  | .clear, _ => []
  | .remove path, recent => recent.filter (·.path != path)

end HerdrWebui.Server
