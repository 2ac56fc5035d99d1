import HerdrWebui.Concurrency.Threads
import HerdrWebui.Server.Settings

/-!
The requests that change the server settings, one step for each lock hold and
each completed save of the file. A save of the settings form clones the settings,
writes the file without the lock and then overwrites the whole settings; the
other requests change one field in place and write the file afterwards.

The steps of a save on the auth cell change no settings and are left out.
-/

namespace HerdrWebui.Server

open Concurrency

/-- What a request explicitly writes. -/
inductive SettingsWrite where
  | save (patch : SettingsPatch)
  | lsp (lsp : LspSettings)
  | recents (change : RecentChange)
  deriving DecidableEq

def SettingsWrite.apply : SettingsWrite → RuntimeServerSettings → RuntimeServerSettings
  | .save patch, settings => patch.apply settings
  | .lsp next, settings => { settings with lsp := next }
  | .recents change, settings =>
    { settings with recentWorkspaces := change.apply settings.recentWorkspaces }

structure LoggedWrite where
  write : SettingsWrite
  acknowledged : Bool
  deriving DecidableEq

/-- The settings in force, and what no code reads: the settings at the start
and the writes that were made, in order. -/
structure SettingsState where
  serverSettings : RuntimeServerSettings
  initial : RuntimeServerSettings
  writes : List LoggedWrite
  deriving DecidableEq

namespace SettingsState

def start (settings : RuntimeServerSettings) : SettingsState := ⟨settings, settings, []⟩

/-- Each field has the value it was last explicitly given. -/
def lastWritten (s : SettingsState) : RuntimeServerSettings :=
  (s.writes.map (·.write)).foldl (fun settings write => write.apply settings) s.initial

/-- Each field has the value it was last explicitly given by an acknowledged
request. -/
def lastAcknowledged (s : SettingsState) : RuntimeServerSettings :=
  ((s.writes.filter (·.acknowledged)).map (·.write)).foldl
    (fun settings write => write.apply settings) s.initial

def log (s : SettingsState) (settings : RuntimeServerSettings) (write : SettingsWrite)
    (acknowledged : Bool) : SettingsState :=
  { s with
    serverSettings := settings
    writes := s.writes ++ [⟨write, acknowledged⟩] }

def acknowledge (s : SettingsState) (slot : Nat) : SettingsState :=
  { s with writes := s.writes.modify slot fun logged =>
      { logged with acknowledged := true } }

end SettingsState

/-- Where a request stands. `slot` is the place of its write in the log. -/
inductive SettingsPhase where
  | idle
  | saving (inputs : UpdateInputs) (current : RuntimeServerSettings)
  | saved (inputs : UpdateInputs) (current : RuntimeServerSettings)
  | changed (slot : Nat)
  | persisting (slot : Nat) (snapshot : RuntimeServerSettings)
  deriving DecidableEq

inductive SettingsAction where
  | update (inputs : UpdateInputs)
  | saveFile (file : Except String Unit)
  | install
  | updateLsp (lsp : LspSettings)
  | changeRecents (change : RecentChange)
  | snapshot

section Step

variable (verifyPassword : String → String → Bool)

def settingsStep (a : SettingsAction) (s : SettingsState) (l : SettingsPhase) :
    Option (SettingsState × SettingsPhase) :=
  match a, l with
  | .update inputs, .idle => some (s, .saving inputs s.serverSettings)
  | .saveFile file, .saving inputs current =>
    match saveRuntimeServerSettings (inputs.merge verifyPassword current) file with
    | .ok () => some (s, .saved inputs current)
    | .error _ => some (s, .idle)
  | .install, .saved inputs current =>
    some (s.log (inputs.merge verifyPassword current)
      (.save (inputs.patch verifyPassword current)) true, .idle)
  | .updateLsp lsp, .idle =>
    let settings := { s.serverSettings with lsp }
    some (s.log settings (.lsp lsp) false, .persisting s.writes.length settings)
  | .changeRecents change, .idle =>
    let settings := (SettingsWrite.recents change).apply s.serverSettings
    some (s.log settings (.recents change) false, .changed s.writes.length)
  | .snapshot, .changed slot => some (s, .persisting slot s.serverSettings)
  | .saveFile file, .persisting slot snapshot =>
    match saveRuntimeServerSettings snapshot file with
    | .ok () => some (s.acknowledge slot, .idle)
    | .error _ => some (s, .idle)
  | _, _ => none

def settingsRequests : Program SettingsState SettingsPhase SettingsAction where
  init s := ∃ settings, s = .start settings
  idle := .idle
  step := settingsStep verifyPassword

theorem settingsRequests_init (settings : RuntimeServerSettings) :
    (settingsRequests verifyPassword).init (.start settings) :=
  ⟨settings, rfl⟩

/-- A save installs nothing outdated: the password it was given could be hashed,
and the fields it was not given are filled in with their values in force. A
change made before its file is saved is one whose save succeeds. -/
def nothingOutdated (s : SettingsState) (l : SettingsPhase) (a : SettingsAction) :
    Bool :=
  match a, l with
  | .install, .saved inputs current =>
    let patch := inputs.patch verifyPassword current
    (inputs.submittedPassword.isNone || patch.password.isSome) &&
      patch.apply (inputs.filled current) == patch.apply s.serverSettings
  | .saveFile file, .persisting _ snapshot =>
    (saveRuntimeServerSettings snapshot file).isOk
  | _, _ => true

end Step

namespace SettingsState

variable {s : SettingsState}

theorem lastWritten_log {settings : RuntimeServerSettings} {write : SettingsWrite}
    {acknowledged : Bool} :
    (s.log settings write acknowledged).lastWritten = write.apply s.lastWritten := by
  simp [lastWritten, log]

theorem lastWritten_acknowledge {slot : Nat} :
    (s.acknowledge slot).lastWritten = s.lastWritten := by
  have hmap : (s.acknowledge slot).writes.map (·.write) = s.writes.map (·.write) := by
    refine List.ext_getElem? fun k => ?_
    rw [List.getElem?_map, List.getElem?_map, acknowledge, List.getElem?_modify]
    split <;> cases s.writes[k]? <;> rfl
  rw [lastWritten, hmap]
  rfl

theorem lastAcknowledged_eq (h : ∀ logged ∈ s.writes, logged.acknowledged = true) :
    s.lastAcknowledged = s.lastWritten := by
  rw [lastAcknowledged, List.filter_eq_self.mpr h]
  rfl

end SettingsState

/-- The request's write is still to be acknowledged. -/
def SettingsPhase.Awaits (slot : Nat) : SettingsPhase → Prop
  | .changed own | .persisting own _ => own = slot
  | _ => False

structure SettingsInvariant (c : Pool SettingsState SettingsPhase) : Prop where
  inForce : c.shared.serverSettings = c.shared.lastWritten
  acknowledged : ∀ slot logged, c.shared.writes[slot]? = some logged →
    logged.acknowledged = true ∨ ∃ i, (c.threads i).Awaits slot

namespace SettingsInvariant

variable {verifyPassword : String → String → Bool}
  {c : Pool SettingsState SettingsPhase} {i : Nat} {l' : SettingsPhase}

theorem keep (h : SettingsInvariant c)
    (hawaits : ∀ slot, (c.threads i).Awaits slot → l'.Awaits slot) :
    SettingsInvariant ⟨c.shared, Function.update c.threads i l'⟩ where
  inForce := h.inForce
  acknowledged slot logged hlogged :=
    (h.acknowledged slot logged hlogged).imp_right fun howed =>
      Program.exists_thread_update howed (hawaits slot)

theorem write (h : SettingsInvariant c) {settings : RuntimeServerSettings}
    {write : SettingsWrite} {acknowledged : Bool}
    (hsettings : settings = write.apply c.shared.serverSettings)
    (hidle : ∀ slot, ¬ (c.threads i).Awaits slot)
    (hnew : acknowledged = true ∨ l'.Awaits c.shared.writes.length) :
    SettingsInvariant
      ⟨c.shared.log settings write acknowledged, Function.update c.threads i l'⟩ where
  inForce := by
    rw [SettingsState.lastWritten_log, ← h.inForce]
    exact hsettings
  acknowledged slot logged hlogged := by
    rw [SettingsState.log, List.getElem?_append] at hlogged
    split at hlogged
    · apply (h.acknowledged slot logged hlogged).imp_right
      intro howed
      exact Program.exists_thread_update howed fun hown => absurd hown (hidle slot)
    · next hlen =>
        rw [List.getElem?_singleton] at hlogged
        split at hlogged
        · next hlast =>
            obtain rfl : slot = c.shared.writes.length := by omega
            obtain rfl := Option.some.inj hlogged
            exact hnew.imp_right fun hawaits => ⟨i, by simpa using hawaits⟩
        · cases hlogged

theorem acknowledge (h : SettingsInvariant c) {slot : Nat}
    (hown : ∀ other, (c.threads i).Awaits other → other = slot) :
    SettingsInvariant ⟨c.shared.acknowledge slot, Function.update c.threads i l'⟩ where
  inForce := by
    rw [SettingsState.lastWritten_acknowledge]
    exact h.inForce
  acknowledged other logged hlogged := by
    rw [SettingsState.acknowledge, List.getElem?_modify] at hlogged
    obtain ⟨before, hbefore, rfl⟩ := Option.map_eq_some_iff.mp hlogged
    split
    · exact .inl rfl
    · next hne =>
        apply (h.acknowledged other before hbefore).imp_right
        intro howed
        exact Program.exists_thread_update howed fun hawaits =>
          absurd (hown other hawaits).symm hne

/-- A save that fills in nothing outdated installs its patch on top of the
settings in force. -/
theorem merge_eq_apply {s : SettingsState} {inputs : UpdateInputs}
    {current : RuntimeServerSettings}
    (hok : nothingOutdated verifyPassword s (.saved inputs current) .install = true) :
    inputs.merge verifyPassword current =
      (inputs.patch verifyPassword current).apply s.serverSettings := by
  obtain ⟨_, hsame⟩ := Bool.and_eq_true_iff.mp hok
  rw [UpdateInputs.merge_eq_patch]
  exact beq_iff_eq.mp hsame

theorem step (h : SettingsInvariant c) {a : SettingsAction}
    (hok : nothingOutdated verifyPassword c.shared (c.threads i) a = true)
    {s' : SettingsState}
    (hstep : settingsStep verifyPassword a c.shared (c.threads i) = some (s', l')) :
    SettingsInvariant ⟨s', Function.update c.threads i l'⟩ := by
  generalize hl : c.threads i = l at hok hstep
  unfold settingsStep at hstep
  split at hstep
  case h_1 inputs =>
    obtain ⟨rfl, rfl⟩ := Prod.mk.inj (Option.some.inj hstep)
    exact h.keep fun slot => by rw [hl]; exact id
  case h_2 file inputs current =>
    split at hstep <;> obtain ⟨rfl, rfl⟩ := Prod.mk.inj (Option.some.inj hstep)
    · exact h.keep fun slot => by rw [hl]; exact id
    · exact h.keep fun slot => by rw [hl]; exact id
  case h_3 inputs current =>
    obtain ⟨rfl, rfl⟩ := Prod.mk.inj (Option.some.inj hstep)
    exact h.write (merge_eq_apply hok) (fun slot => by rw [hl]; exact id) (.inl rfl)
  case h_4 lsp =>
    obtain ⟨rfl, rfl⟩ := Prod.mk.inj (Option.some.inj hstep)
    exact h.write rfl (fun slot => by rw [hl]; exact id) (.inr rfl)
  case h_5 change =>
    obtain ⟨rfl, rfl⟩ := Prod.mk.inj (Option.some.inj hstep)
    exact h.write rfl (fun slot => by rw [hl]; exact id) (.inr rfl)
  case h_6 slot =>
    obtain ⟨rfl, rfl⟩ := Prod.mk.inj (Option.some.inj hstep)
    exact h.keep fun other => by rw [hl]; exact id
  case h_7 file slot snapshot =>
    split at hstep
    · obtain ⟨rfl, rfl⟩ := Prod.mk.inj (Option.some.inj hstep)
      exact h.acknowledge fun other => by rw [hl]; exact Eq.symm
    · next hfile =>
        rw [nothingOutdated, hfile] at hok
        cases hok
  case h_8 => cases hstep

end SettingsInvariant

/-- In a run that installs nothing outdated the settings in force are always what
the requests explicitly wrote, each field as it was last written, and once all
requests have finished these are the acknowledged ones. -/
theorem settings_lastAcknowledged {verifyPassword : String → String → Bool}
    {c : Pool SettingsState SettingsPhase}
    (h : (settingsRequests verifyPassword).system.ReachVia (fun c act =>
      nothingOutdated verifyPassword c.shared (c.threads act.1) act.2 = true) c) :
    c.shared.serverSettings = c.shared.lastWritten ∧
      ((∀ i, c.threads i = .idle) →
        c.shared.serverSettings = c.shared.lastAcknowledged) := by
  have hinv : SettingsInvariant c := by
    refine h.invariant ?_ ?_
    · rintro _ ⟨_, ⟨settings, rfl⟩, rfl⟩
      exact ⟨rfl, fun slot logged hlogged => by cases hlogged⟩
    · rintro c ⟨i, a⟩ c' _ hinv hok hstep
      obtain ⟨s', l', hlocal, rfl⟩ := Program.poolStep_cases hstep
      exact hinv.step hok hlocal
  refine ⟨hinv.inForce, fun hidle => ?_⟩
  rw [SettingsState.lastAcknowledged_eq]
  · exact hinv.inForce
  · intro logged hmem
    obtain ⟨slot, hslot⟩ := List.mem_iff_getElem?.mp hmem
    rcases hinv.acknowledged slot logged hslot with hacknowledged | ⟨i, hi⟩
    · exact hacknowledged
    · rw [hidle i] at hi
      exact hi.elim

/-- Settings with a password, bound to the loopback address. -/
def passwordSet : RuntimeServerSettings :=
  { defaultRuntimeServerSettings ⟨.v4 127 0 0 1, 8787⟩ "/home" with
    user := some "ada", password := some "#old" }

/-- A save of the form as it stands, but for the cooldown and the password. -/
def formSave (cooldown : Option Nat) (password : Option String) : UpdateInputs where
  body :=
    { bind := passwordSet.bind, tlsMode := none, username := some "ada", password,
      localhostNoAuth := true, sessionExpirationMinutes := none,
      noSleepAutoCooldownSeconds := cooldown, backendMode := none,
      builtinShell := none, defaultFolder := none, builtinBackendEnabled := none,
      externalHerdrBackendEnabled := none, logLevel := none }
  hashed := password.map ("#" ++ ·)
  defaultFolder := "/home"

/-- A save without a password is at its file while a new password is saved and
a workspace is recorded. -/
def saveAcrossChanges : List (Nat × SettingsAction) :=
  [(0, .update (formSave (some 90) none)), (1, .update (formSave (some 60) (some "new"))),
    (1, .saveFile (.ok ())), (1, .install),
    (2, .changeRecents (.record "/work" none none none 5)), (2, .snapshot),
    (2, .saveFile (.ok ())), (0, .saveFile (.ok ())), (0, .install)]

theorem saveAcrossChanges_lost :
    ∃ c, (settingsRequests plainHash).system.Reachable c ∧
      (∀ i, c.threads i = .idle) ∧
      c.shared.lastAcknowledged.password = some "#new" ∧
      c.shared.serverSettings.password = some "#old" ∧
      c.shared.lastAcknowledged.recentWorkspaces.map (·.path) = ["/work"] ∧
      c.shared.serverSettings.recentWorkspaces = [] := by
  have hrun : ((settingsRequests plainHash).system.run
      ((settingsRequests plainHash).start (.start passwordSet))
      saveAcrossChanges).isSome := by decide +kernel
  refine ⟨_, System.reachable_get
      (Program.system_init _ (settingsRequests_init _ passwordSet)) hrun,
    Program.forall_threads_of_runVia (p := fun l => l = .idle)
      (Option.some_get hrun).symm rfl ?_, ?_⟩
  all_goals decide +kernel +revert

/-- The same requests, where the save without a password takes its snapshot once
the password is installed, and the workspace is recorded after that save. -/
def savesInTurn : List (Nat × SettingsAction) :=
  [(1, .update (formSave (some 60) (some "new"))), (1, .saveFile (.ok ())), (1, .install),
    (0, .update (formSave (some 90) none)), (0, .saveFile (.ok ())), (0, .install),
    (2, .changeRecents (.record "/work" none none none 5)), (3, .updateLsp ⟨true, ∅⟩),
    (2, .snapshot), (3, .saveFile (.ok ())), (2, .saveFile (.ok ()))]

theorem savesInTurn_lastAcknowledged :
    ∃ c, (settingsRequests plainHash).system.runVia (fun c act =>
          nothingOutdated plainHash c.shared (c.threads act.1) act.2 = true)
        ((settingsRequests plainHash).start (.start passwordSet)) savesInTurn =
          some c ∧
      c.shared.lastAcknowledged.password = some "#new" ∧
      c.shared.lastAcknowledged.noSleepAutoCooldownSeconds = 90 ∧
      c.shared.serverSettings = c.shared.lastAcknowledged := by
  have hrun : ((settingsRequests plainHash).system.runVia (fun c act =>
        nothingOutdated plainHash c.shared (c.threads act.1) act.2 = true)
      ((settingsRequests plainHash).start (.start passwordSet)) savesInTurn).isSome := by
    decide +kernel
  refine ⟨_, (Option.some_get hrun).symm, by decide +kernel +revert,
    by decide +kernel +revert, ?_⟩
  refine (settings_lastAcknowledged (System.reachVia_get
    (Program.system_init _ (settingsRequests_init _ passwordSet)) hrun)).2 ?_
  exact Program.forall_threads_of_runVia (p := fun l => l = .idle)
    (Option.some_get hrun).symm rfl (by decide +kernel +revert)

end HerdrWebui.Server
