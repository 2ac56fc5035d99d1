import HerdrWebui.Server.Sessions

/-!
The sidecar file against the session set. Every change of the set is followed by
a snapshot and a task that compares revisions and then writes the file. In a run
in which no snapshot is written after a change it does not include, the file is
the session set once the tasks have finished.
-/

namespace HerdrWebui.Server

open Concurrency

/-- The step changed nothing a snapshot shows. A touch may reorder. -/
structure SameSessions (s s' : ServerState) : Prop where
  changes : s'.changes = s.changes
  rev : s'.auth.sessionsRev = s.auth.sessionsRev
  records : s'.auth.persistedRecords.Perm s.auth.persistedRecords

theorem SameSessions.of_auth {s s' : ServerState} (hchanges : s'.changes = s.changes)
    (hauth : s'.auth = s.auth) : SameSessions s s' :=
  ⟨hchanges, by rw [hauth], by rw [hauth]⟩

def ChangeCounted (s s' : ServerState) : Prop :=
  SameSessions s s' ∨ s'.changes = s.changes + 1

theorem AuthConfig.persistedRecords_congr {auth auth' : AuthConfig}
    (hsessions : auth'.sessions = auth.sessions)
    (hminutes : auth'.sessionExpirationMinutes = auth.sessionExpirationMinutes) :
    auth'.persistedRecords = auth.persistedRecords := by
  rw [persistedRecords, persistedRecords, hsessions, hminutes]

theorem filter_eq_of_length_eq {α : Type*} {p : α → Bool} {l : List α}
    (h : ¬ (l.filter p).length ≠ l.length) : l.filter p = l :=
  List.filter_eq_self.mpr (List.length_filter_eq_length_iff.mp (not_not.mp h))

section Change

variable {s : ServerState} {result : Bool × AuthConfig} {now : SystemTime}
  {token : String}

theorem change_counted
    (hrev : result.1 = false → result.2.sessionsRev = s.auth.sessionsRev)
    (hrecords : result.1 = false →
      result.2.persistedRecords = s.auth.persistedRecords) :
    ChangeCounted s (s.change result) := by
  cases hchanged : result.1 with
  | true => exact .inr (by simp [ServerState.change, hchanged])
  | false =>
    refine .inl ⟨by simp [ServerState.change, hchanged], hrev hchanged, ?_⟩
    exact List.Perm.of_eq (hrecords hchanged)

theorem revokeSession_counted :
    ChangeCounted s (s.change (s.auth.revokeSession token)) := by
  rw [AuthConfig.revokeSession]
  split
  · exact change_counted (fun h => by cases h) (fun h => by cases h)
  · next hlen =>
      refine change_counted (fun _ => rfl) fun _ => ?_
      exact AuthConfig.persistedRecords_congr (filter_eq_of_length_eq hlen) rfl

theorem purgeLapsed_counted :
    ChangeCounted s
      (s.change ((s.auth.purgeLapsed now).1.isSome, (s.auth.purgeLapsed now).2)) := by
  rw [AuthConfig.purgeLapsed]
  split
  · exact change_counted (fun h => by cases h) (fun h => by cases h)
  · next hlen =>
      refine change_counted (fun _ => rfl) fun _ => ?_
      exact AuthConfig.persistedRecords_congr (filter_eq_of_length_eq hlen) rfl

theorem installAuth_counted {next : AuthConfig} {identity policy : Bool} :
    ChangeCounted s
      (s.change (installAuth s.auth next identity policy now token)) := by
  rw [installAuth]
  split
  · exact change_counted (fun h => by cases h) (fun h => by cases h)
  · split
    · dsimp only [AuthConfig.reanchorExpiries]
      split
      · next hempty =>
          have hnone : s.auth.sessions = [] := List.isEmpty_iff.mp hempty
          refine change_counted (fun _ => rfl) fun _ => ?_
          simp [AuthConfig.persistedRecords, hnone]
      · exact change_counted (fun h => by cases h) (fun h => by cases h)
    · exact change_counted (fun _ => rfl) fun _ =>
        AuthConfig.persistedRecords_congr rfl rfl

theorem findValidSession_sameSessions :
    SameSessions s { s with auth := (s.auth.findValidSession now token).2 } := by
  have hfields : (s.auth.findValidSession now token).2.sessionsRev =
        s.auth.sessionsRev ∧
      (s.auth.findValidSession now token).2.sessionExpirationMinutes =
        s.auth.sessionExpirationMinutes := by
    rw [AuthConfig.findValidSession]
    repeat' split
    all_goals exact ⟨rfl, rfl⟩
  refine ⟨rfl, hfields.1, ?_⟩
  simp only [AuthConfig.persistedRecords, hfields.2]
  exact AuthConfig.findValidSession_perm.map _

end Change

section Tasks

variable {verifyPassword : String → String → Bool} {a : RequestAction}
  {s s' : ServerState} {l l' : RequestPhase}

theorem requestStep_counted (hstep : requestStep verifyPassword a s l = some (s', l')) :
    ChangeCounted s s' := by
  cases requestStep_cases hstep with
  | issueSession => exact .inr rfl
  | authorize => exact .inl findValidSession_sameSessions
  | revokeSession => exact revokeSession_counted
  | purgeLapsed => exact purgeLapsed_counted
  | install => exact installAuth_counted
  | rateCheck | bypass | verify | refuse | recordFailure | resetLimiter | saved
  | compareIdentity | comparePolicy | persist | stale | fresh | writeFile =>
    exact .inl (.of_auth rfl rfl)

/-- A snapshot that includes every change is the session set. -/
def SnapshotHolds (s : ServerState) : RequestPhase → Prop
  | .spawned record rev changes =>
    changes ≤ s.changes ∧ (changes = s.changes →
      s.auth.sessionsRev = rev ∧ record.Perm s.auth.persistedRecords)
  | .writing record changes =>
    changes ≤ s.changes ∧
      (changes = s.changes → record.Perm s.auth.persistedRecords)
  | _ => True

theorem SnapshotHolds.mono (h : SnapshotHolds s l) (hs : ChangeCounted s s') :
    SnapshotHolds s' l := by
  cases l with
  | spawned record rev changes =>
    obtain ⟨hle, heq⟩ := h
    rcases hs with hsame | hcount
    · refine ⟨hsame.changes ▸ hle, fun hchanges => ?_⟩
      obtain ⟨hrev, hperm⟩ := heq (hchanges.trans hsame.changes)
      exact ⟨hsame.rev.trans hrev, hperm.trans hsame.records.symm⟩
    · exact ⟨by omega, fun hchanges => by omega⟩
  | writing record changes =>
    obtain ⟨hle, heq⟩ := h
    rcases hs with hsame | hcount
    · refine ⟨hsame.changes ▸ hle, fun hchanges => ?_⟩
      exact (heq (hchanges.trans hsame.changes)).trans hsame.records.symm
    · exact ⟨by omega, fun hchanges => by omega⟩
  | idle | admitted | refused | verified | issuing | saving | identityCompared
  | policyCompared | changed => trivial

theorem requestStep_snapshot (h : SnapshotHolds s l)
    (hstep : requestStep verifyPassword a s l = some (s', l')) :
    SnapshotHolds s' l' := by
  cases requestStep_cases hstep with
  | rateCheck hl' => rcases hl' with rfl | rfl <;> trivial
  | persist => exact ⟨le_rfl, fun _ => ⟨rfl, List.Perm.refl _⟩⟩
  | fresh => exact ⟨h.1, fun hchanges => (h.2 hchanges).2⟩
  | bypass | verify | refuse | recordFailure | resetLimiter | issueSession
  | authorize | revokeSession | purgeLapsed | saved | compareIdentity
  | comparePolicy | install | stale | writeFile => trivial

theorem requests_snapshots {c : Pool ServerState RequestPhase}
    (h : (requests verifyPassword).system.Reachable c) (i : Nat) :
    SnapshotHolds c.shared (c.threads i) := by
  have hholds : Program.Holds (fun _ => True) SnapshotHolds (fun _ _ => True) c := by
    refine Program.Holds.of_reachVia ?_ trivial (fun _ _ _ => trivial) ?_ h
    · exact fun _ _ => ⟨trivial, trivial⟩
    · intro c i a s' l' hc _ hstep
      refine ⟨trivial, requestStep_snapshot (hc.thread i) hstep, fun _ hother _ => ?_⟩
      exact ⟨hother.mono (requestStep_counted hstep), trivial⟩
  exact hholds.thread i

def Synced (s : ServerState) : Prop :=
  ∃ record, s.sidecar = some record ∧ record.Perm s.auth.persistedRecords

/-- The request will bring the file up to date, unless the set changes again. -/
def RequestPhase.Owes (changes : Nat) : RequestPhase → Prop
  | .changed => True
  | .spawned _ _ taken | .writing _ taken => taken = changes
  | _ => False

/-- No snapshot is written after a change it does not include. -/
def writesNewest (s : ServerState) (l : RequestPhase) (a : RequestAction) : Bool :=
  match a, l with
  | .writeFile, .writing _ changes => changes == s.changes
  | _, _ => true

/-- Once the set has changed, the file holds it or some request still owes the
write. -/
def FileOwed (c : Pool ServerState RequestPhase) : Prop :=
  c.shared.changes = 0 ∨ Synced c.shared ∨
    ∃ i, (c.threads i).Owes c.shared.changes

theorem Synced.of_sameSessions (h : Synced s) (hs : SameSessions s s')
    (hfile : s'.sidecar = s.sidecar) : Synced s' := by
  obtain ⟨record, hrecord, hperm⟩ := h
  exact ⟨record, hfile.trans hrecord, hperm.trans hs.records.symm⟩

/-- A step that neither changes the session set nor writes the file, of a request
that goes on owing the write if it did. -/
theorem FileOwed.of_sameSessions {c : Pool ServerState RequestPhase} {i : Nat}
    (h : FileOwed c) (hs : SameSessions c.shared s')
    (hfile : s'.sidecar = c.shared.sidecar)
    (howes : (c.threads i).Owes c.shared.changes → l'.Owes c.shared.changes) :
    FileOwed ⟨s', Function.update c.threads i l'⟩ := by
  rcases h with hzero | hsynced | howed
  · exact .inl (hs.changes.trans hzero)
  · exact .inr (.inl (hsynced.of_sameSessions hs hfile))
  · refine .inr (.inr ?_)
    rw [hs.changes]
    exact Program.exists_thread_update howed howes

theorem FileOwed.of_owes {c : Pool ServerState RequestPhase} {i : Nat}
    (howes : l'.Owes s'.changes) : FileOwed ⟨s', Function.update c.threads i l'⟩ :=
  .inr (.inr ⟨i, by simpa using howes⟩)

theorem requestStep_fileOwed {c : Pool ServerState RequestPhase} {i : Nat}
    (h : FileOwed c) (hsnapshot : SnapshotHolds c.shared (c.threads i))
    (hok : writesNewest c.shared (c.threads i) a = true)
    (hstep : requestStep verifyPassword a c.shared (c.threads i) = some (s', l')) :
    FileOwed ⟨s', Function.update c.threads i l'⟩ := by
  have hcases := requestStep_cases hstep
  generalize hl : c.threads i = l at hcases hsnapshot hok
  cases hcases with
  | issueSession | revokeSession | purgeLapsed | install => exact .of_owes trivial
  | persist => exact .of_owes rfl
  | authorize =>
    exact h.of_sameSessions findValidSession_sameSessions rfl (by rw [hl]; exact id)
  | stale hrev =>
    apply h.of_sameSessions (.of_auth rfl rfl) rfl
    intro howes
    rw [hl] at howes
    exact hrev (hsnapshot.2 howes).1
  | fresh =>
    exact h.of_sameSessions (.of_auth rfl rfl) rfl (by rw [hl]; exact id)
  | writeFile =>
    exact .inr (.inl ⟨_, rfl, hsnapshot.2 (beq_iff_eq.mp hok)⟩)
  | rateCheck | bypass | verify | refuse | recordFailure | resetLimiter | saved
  | compareIdentity | comparePolicy =>
    exact h.of_sameSessions (.of_auth rfl rfl) rfl (by rw [hl]; exact False.elim)

end Tasks

/-- The request's snapshot is still to be taken or its task to finish. -/
def RequestPhase.persisting : RequestPhase → Bool
  | .changed | .spawned _ _ _ | .writing _ _ => true
  | _ => false

/-- In a run that writes no snapshot after a change it does not include, the
file holds the session set whenever the set has changed and every task has
finished. -/
theorem sidecar_converges {verifyPassword : String → String → Bool}
    {c : Pool ServerState RequestPhase}
    (h : (requests verifyPassword).system.ReachVia
      (fun c act => writesNewest c.shared (c.threads act.1) act.2 = true) c)
    (hdone : ∀ i, (c.threads i).persisting = false)
    (hchanged : 0 < c.shared.changes) :
    ∃ record, c.shared.sidecar = some record ∧
      record.Perm c.shared.auth.persistedRecords := by
  have howed : FileOwed c := by
    refine h.invariant ?_ ?_
    · rintro _ ⟨s, hinit, rfl⟩
      exact .inl hinit.2
    · rintro c ⟨i, a⟩ c' hreach howed hok hstep
      obtain ⟨s', l', hlocal, rfl⟩ := Program.poolStep_cases hstep
      exact requestStep_fileOwed howed (requests_snapshots hreach.reachable i) hok
        hlocal
  rcases howed with hzero | hsynced | ⟨i, hi⟩
  · omega
  · exact hsynced
  · have hidle := hdone i
    cases hphase : c.threads i <;> simp_all [RequestPhase.Owes, RequestPhase.persisting]

def oneSession : ServerState :=
  bootState ⟨some "ada", some "#old", false,
    [⟨"t0", neverExpiresAt, .save ⟨some "ada", some "#old"⟩⟩], 1, 0⟩

theorem oneSession_init : (requests plainHash).init oneSession := by
  refine ⟨fun session hmem => ?_, rfl⟩
  obtain rfl := List.mem_singleton.mp hmem
  rfl

/-- A login's session is revoked after the login's task compared revisions. -/
def revokeBeforeWrite : List (Nat × RequestAction) :=
  [(0, .rateCheck remote "ada" "old" 0), (0, .verifyCredentials), (0, .resetLimiter),
    (0, .issueSession 1 "t1"), (0, .persist), (0, .checkRev), (1, .revokeSession "t1"),
    (1, .persist), (1, .checkRev), (1, .writeFile), (0, .writeFile)]

/-- Two saves that change the password leave the same revision. -/
def sameRevTwice : List (Nat × RequestAction) :=
  [(0, .saved (some "ada") (some "#new") false 0), (0, .compareIdentity),
    (0, .comparePolicy), (0, .install 1 "t1"), (0, .persist),
    (1, .saved (some "ada") (some "#newer") false 0), (1, .compareIdentity),
    (1, .comparePolicy), (1, .install 2 "t2"), (1, .persist), (1, .checkRev),
    (1, .writeFile), (0, .checkRev), (0, .writeFile)]

/-- A revoked session and a reset one are left in the file. -/
theorem lateWrites_diverge :
    (∃ c, (requests plainHash).system.Reachable c ∧
      (∀ i, (c.threads i).persisting = false) ∧
      c.shared.auth.persistedRecords = [⟨"t0", none⟩] ∧
      c.shared.sidecar = some [⟨"t0", none⟩, ⟨"t1", none⟩]) ∧
    ∃ c, (requests plainHash).system.Reachable c ∧
      (∀ i, (c.threads i).persisting = false) ∧
      c.shared.auth.persistedRecords = [⟨"t2", none⟩] ∧
      c.shared.sidecar = some [⟨"t1", none⟩] := by
  constructor
  · have hrun : ((requests plainHash).system.run
        ((requests plainHash).start oneSession) revokeBeforeWrite).isSome := by
      decide +kernel
    refine ⟨_, System.reachable_get (Program.system_init _ oneSession_init) hrun,
      Program.forall_threads_of_runVia (p := fun l => l.persisting = false)
        (Option.some_get hrun).symm rfl ?_, ?_⟩
    all_goals decide +kernel +revert
  · have hrun : ((requests plainHash).system.run
        ((requests plainHash).start oneSession) sameRevTwice).isSome := by
      decide +kernel
    refine ⟨_, System.reachable_get (Program.system_init _ oneSession_init) hrun,
      Program.forall_threads_of_runVia (p := fun l => l.persisting = false)
        (Option.some_get hrun).symm rfl ?_, ?_⟩
    all_goals decide +kernel +revert

/-- The older task is skipped, and each write is of the newest set. -/
def writesInOrder : List (Nat × RequestAction) :=
  [(0, .saved (some "ada") (some "#new") false 0), (0, .compareIdentity),
    (0, .comparePolicy), (0, .install 1 "t1"), (0, .persist), (0, .checkRev),
    (0, .writeFile), (0, .rateCheck remote "ada" "new" 2), (0, .verifyCredentials),
    (0, .resetLimiter), (0, .issueSession 2 "t2"), (0, .persist),
    (1, .revokeSession "t1"), (1, .persist), (1, .checkRev), (0, .checkRev),
    (2, .authorize 3 "t2"), (1, .writeFile)]

theorem writesInOrder_converges :
    ∃ c, (requests plainHash).system.runVia
        (fun c act => writesNewest c.shared (c.threads act.1) act.2 = true)
        ((requests plainHash).start oneSession) writesInOrder = some c ∧
      c.shared.auth.persistedRecords = [⟨"t2", none⟩] ∧
      ∃ record, c.shared.sidecar = some record ∧
        record.Perm c.shared.auth.persistedRecords := by
  have hrun : ((requests plainHash).system.runVia
      (fun c act => writesNewest c.shared (c.threads act.1) act.2 = true)
      ((requests plainHash).start oneSession) writesInOrder).isSome := by
    decide +kernel
  refine ⟨_, (Option.some_get hrun).symm, by decide +kernel +revert, ?_⟩
  refine sidecar_converges
    (System.reachVia_get (Program.system_init _ oneSession_init) hrun) ?_ ?_
  · exact Program.forall_threads_of_runVia (p := fun l => l.persisting = false)
      (Option.some_get hrun).symm rfl (by decide +kernel +revert)
  · decide +kernel +revert

end HerdrWebui.Server
