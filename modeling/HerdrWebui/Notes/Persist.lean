import HerdrWebui.Concurrency.Threads
import HerdrWebui.Notes.Store
import HerdrWebui.Storage.AtomicWrite

/-!
The mutations of the notes by many requests. A request changes the notes in memory
under the lock and saves its snapshot after the lock is gone, one step for each
system call of `atomic_write`. In a run whose saves do not overlap and go to the
file in the order of the mutations, and in which no save of a change fails, the
file is the notes once the requests have finished.
-/

namespace HerdrWebui.Notes

open Concurrency Storage

/-- `applied` counts the mutations, `saved` is the number of the one whose snapshot
is in the file and `underWay` counts the saves between their first system call and
their end. No code reads them. -/
structure NotesServer where
  notes : NotesState
  fs : FileSystem FileName UInt8
  applied : Nat
  saved : Nat
  underWay : Nat

/-- Where `apply_notes` stands. A request keeps its snapshot and, for the record,
the notes before its mutation and the number of it. -/
inductive NotesPhase where
  | idle
  | refused (err : NotesError)
  | applied (before after : NotesState) (number : Nat)
  | writing (before after : NotesState) (number fd written : Nat)
  | succeeded (number : Nat)
  | failed (before after : NotesState) (number : Nat)
  deriving DecidableEq

inductive NotesAction where
  | mutate (mutation : NotesMutation)
  | create
  | writePiece (n : Nat)
  | rename
  | fail

/-- `fail` is an error of a call other than the rename, or of the task. -/
def notesStep (a : NotesAction) (s : NotesServer) (l : NotesPhase) :
    Option (NotesServer × NotesPhase) :=
  match a, l with
  | .mutate mutation, .idle =>
    match mutation.apply s.notes with
    | .error err => some (s, .refused err)
    | .ok notes =>
      some ({ s with notes, applied := s.applied + 1 },
        .applied s.notes notes (s.applied + 1))
  | .create, .applied before after number =>
    let created := s.fs.create .temp
    some ({ s with fs := created.2, underWay := s.underWay + 1 },
      .writing before after number created.1 0)
  | .writePiece n, .writing before after number fd written =>
    let piece := (after.payload.drop written).take n
    if piece.isEmpty then none
    else
      some ({ s with fs := s.fs.writeAt 0 fd written piece },
        .writing before after number fd (written + piece.length))
  | .rename, .writing before after number _ written =>
    if written = after.payload.length then
      match s.fs.rename .temp .target with
      | some fs =>
        some ({ s with fs, saved := number, underWay := s.underWay - 1 },
          .succeeded number)
      | none =>
        some ({ s with underWay := s.underWay - 1 }, .failed before after number)
    else none
  | .fail, .applied before after number => some (s, .failed before after number)
  | .fail, .writing before after number _ _ =>
    some ({ s with underWay := s.underWay - 1 }, .failed before after number)
  | _, _ => none

/-- The server starts with notes it loaded, whatever files there are. -/
def NotesServer.start (notes : NotesState) (initial : Option Bytes) : NotesServer :=
  ⟨notes, (Disk.start initial).fs, 0, 0, 0⟩

def notesRequests : Program NotesServer NotesPhase NotesAction where
  init s := ∃ notes initial, s = .start notes initial
  idle := .idle
  step := notesStep

/-- The request has ended and told no error of the disk. -/
def NotesPhase.finished : NotesPhase → Bool
  | .idle | .refused _ | .succeeded _ => true
  | _ => false

/-- A request that tells an error of the disk changed nothing. -/
def NotesPhase.FailureHarmless : NotesPhase → Prop
  | .failed before after _ => after = before
  | _ => True

def NotesServer.fileContent (s : NotesServer) : Option Bytes :=
  (s.fs.names .target).map s.fs.contents

/-- The file is the notes once all mutations have finished. -/
def Converged (c : Pool NotesServer NotesPhase) : Prop :=
  (∀ i, (c.threads i).finished = true) → 0 < c.shared.applied →
    c.shared.fileContent = some c.shared.notes.payload

/-- A save begins while no other is under way and no later mutation is in the
file, and fails only for a mutation that changed nothing. -/
def savesInOrder (s : NotesServer) (l : NotesPhase) (a : NotesAction) : Bool :=
  match a, l with
  | .create, .applied _ _ number => s.underWay == 0 && s.saved ≤ number
  | .fail, .applied before after _ | .fail, .writing before after _ _ _ =>
    after == before
  | _, _ => true

/-- The steps, one by one, with what the condition says of each. -/
inductive NotesMove (s : NotesServer) : NotesPhase → NotesServer → NotesPhase → Prop
  | refuse {err : NotesError} : NotesMove s .idle s (.refused err)
  | mutate {notes : NotesState} :
      NotesMove s .idle { s with notes, applied := s.applied + 1 }
        (.applied s.notes notes (s.applied + 1))
  | create {before after : NotesState} {number : Nat} (hfree : s.underWay = 0)
      (hnewer : s.saved ≤ number) :
      NotesMove s (.applied before after number)
        { s with fs := (s.fs.create .temp).2, underWay := s.underWay + 1 }
        (.writing before after number (s.fs.create .temp).1 0)
  | writePiece {before after : NotesState} {number fd written n : Nat} :
      NotesMove s (.writing before after number fd written)
        { s with fs := s.fs.writeAt 0 fd written ((after.payload.drop written).take n) }
        (.writing before after number fd
          (written + ((after.payload.drop written).take n).length))
  | rename {before after : NotesState} {number fd : Nat}
      {fs : FileSystem FileName UInt8} (hrename : s.fs.rename .temp .target = some fs) :
      NotesMove s (.writing before after number fd after.payload.length)
        { s with fs, saved := number, underWay := s.underWay - 1 } (.succeeded number)
  | renameFails {before after : NotesState} {number fd : Nat}
      (hrename : s.fs.rename .temp .target = none) :
      NotesMove s (.writing before after number fd after.payload.length)
        { s with underWay := s.underWay - 1 } (.failed before after number)
  | failApplied {before after : NotesState} {number : Nat} (hsame : after = before) :
      NotesMove s (.applied before after number) s (.failed before after number)
  | failWriting {before after : NotesState} {number fd written : Nat}
      (hsame : after = before) :
      NotesMove s (.writing before after number fd written)
        { s with underWay := s.underWay - 1 } (.failed before after number)

theorem notesStep_cases {a : NotesAction} {s s' : NotesServer} {l l' : NotesPhase}
    (hok : savesInOrder s l a = true) (h : notesStep a s l = some (s', l')) :
    NotesMove s l s' l' := by
  unfold notesStep at h
  split at h
  case h_1 =>
    split at h <;> cases h
    · exact .refuse
    · exact .mutate
  case h_2 =>
    cases h
    simp only [savesInOrder, Bool.and_eq_true, beq_iff_eq, decide_eq_true_eq] at hok
    exact .create hok.1 hok.2
  case h_3 =>
    dsimp only at h
    split at h <;> cases h
    exact .writePiece
  case h_4 =>
    split at h
    · next hall =>
        subst hall
        split at h <;> cases h
        · next hrename => exact .rename hrename
        · next hrename => exact .renameFails hrename
    · cases h
  case h_5 =>
    cases h
    exact .failApplied (beq_iff_eq.mp hok)
  case h_6 =>
    cases h
    exact .failWriting (beq_iff_eq.mp hok)
  case h_7 => cases h

structure NotesInvariant (s : NotesServer) : Prop where
  wellFormed : s.fs.WellFormed
  saved : s.saved ≤ s.applied
  file : s.saved = s.applied → 0 < s.applied →
    s.fileContent = some s.notes.payload

/-- The newest snapshot is the notes. -/
structure SnapshotOf (s : NotesServer) (after : NotesState) (number : Nat) : Prop where
  pos : 0 < number
  le : number ≤ s.applied
  newest : number = s.applied → after = s.notes

/-- A save has the temporary file to itself. -/
def NotesPhaseHolds (s : NotesServer) : NotesPhase → Prop
  | .applied _ after number => SnapshotOf s after number
  | .writing _ after number fd written =>
    SnapshotOf s after number ∧ 0 < s.underWay ∧ s.saved ≤ number ∧
      s.fs.names .temp = some fd ∧ written ≤ after.payload.length ∧
      s.fs.contents fd = after.payload.take written
  | .failed before after _ => after = before
  | _ => True

def NotesPhase.isWriting : NotesPhase → Prop
  | .writing _ _ _ _ _ => True
  | _ => False

def NotBothSaving (l m : NotesPhase) : Prop := ¬ (l.isWriting ∧ m.isWriting)

section Step

variable {s s' : NotesServer} {l l' m : NotesPhase}

theorem fileContent_writeAt {fd offset : Nat} {piece : Bytes}
    (hwell : s.fs.WellFormed) (htemp : s.fs.names .temp = some fd) :
    (({ s with fs := s.fs.writeAt 0 fd offset piece } : NotesServer)).fileContent =
      s.fileContent := by
  simp only [NotesServer.fileContent, FileSystem.writeAt]
  cases htarget : s.fs.names .target with
  | none => rfl
  | some inode =>
    have hne : inode ≠ fd := by
      rintro rfl
      cases hwell.injective _ _ _ htarget htemp
    simp [Function.update_of_ne hne]

theorem fileContent_create (hwell : s.fs.WellFormed) :
    (({ s with fs := (s.fs.create .temp).2, underWay := s.underWay + 1 } :
      NotesServer)).fileContent = s.fileContent := by
  simp only [NotesServer.fileContent]
  rw [FileSystem.create_names_of_ne (by simp)]
  cases htarget : s.fs.names .target with
  | none => rfl
  | some inode =>
    have hname : s.fs.names .temp ≠ some inode := by
      intro htemp
      cases hwell.injective _ _ _ htarget htemp
    have hsame := (FileSystem.create_other (hwell.below _ _ htarget) hname).2
    simp [hsame]

theorem NotesMove.invariant (hmove : NotesMove s l s' l') (hs : NotesInvariant s)
    (hl : NotesPhaseHolds s l) : NotesInvariant s' := by
  cases hmove with
  | refuse | failApplied => exact hs
  | mutate =>
    have hsaved := hs.saved
    exact ⟨hs.wellFormed, by dsimp only; omega, fun heq => by dsimp only at heq; omega⟩
  | create =>
    refine ⟨hs.wellFormed.create .temp, hs.saved, fun heq hpos => ?_⟩
    rw [fileContent_create hs.wellFormed]
    exact hs.file heq hpos
  | writePiece =>
    obtain ⟨_, _, _, htemp, _, _⟩ := hl
    refine ⟨hs.wellFormed.writeAt _ _ _ _, hs.saved, fun heq hpos => ?_⟩
    rw [fileContent_writeAt hs.wellFormed htemp]
    exact hs.file heq hpos
  | @rename before after number fd fs hrename =>
    obtain ⟨hsnapshot, _, _, htemp, _, hcontents⟩ := hl
    refine ⟨hs.wellFormed.rename (by simp) hrename, hsnapshot.le, fun heq _ => ?_⟩
    obtain ⟨inode, hinode, rfl⟩ := Option.map_eq_some_iff.mp hrename
    rw [htemp] at hinode
    obtain rfl := Option.some.inj hinode
    rw [List.take_length] at hcontents
    simp [NotesServer.fileContent, hcontents, hsnapshot.newest heq]
  | renameFails | failWriting => exact ⟨hs.wellFormed, hs.saved, hs.file⟩

theorem NotesMove.phase (hmove : NotesMove s l s' l')
    (hl : NotesPhaseHolds s l) : NotesPhaseHolds s' l' := by
  cases hmove with
  | refuse | rename => trivial
  | mutate => exact ⟨Nat.succ_pos _, le_rfl, fun _ => rfl⟩
  | create _ hnewer =>
    refine ⟨⟨hl.pos, hl.le, hl.newest⟩, Nat.succ_pos _, hnewer, ?_, Nat.zero_le _, ?_⟩
    · exact FileSystem.create_names_self _ _
    · exact FileSystem.create_contents_self _ _
  | @writePiece before after number fd written n =>
    obtain ⟨hsnapshot, hunderWay, hnewer, htemp, hle, hcontents⟩ := hl
    refine ⟨⟨hsnapshot.pos, hsnapshot.le, hsnapshot.newest⟩, hunderWay, hnewer, htemp,
      ?_, ?_⟩
    · rw [List.length_take, List.length_drop]
      omega
    · change (Function.update s.fs.contents fd _) fd = _
      rw [Function.update_self, hcontents,
        FileSystem.overwrite_take_append _ _ _ _ hle]
      rw [List.length_take, List.length_drop, List.take_eq_take_iff]
      omega
  | renameFails hrename =>
    obtain ⟨_, _, _, htemp, _, _⟩ := hl
    simp [FileSystem.rename, htemp] at hrename
  | failApplied hsame | failWriting hsame => exact hsame

/-- A phase that is not a save is disturbed by nobody: only the newest snapshot has
to be the notes, and a mutation makes a newer one. -/
theorem NotesPhaseHolds.of_applied (hm : NotesPhaseHolds s m) (hidle : ¬ m.isWriting)
    (hsame : s'.notes = s.notes ∧ s'.applied = s.applied ∨ s'.applied = s.applied + 1) :
    NotesPhaseHolds s' m := by
  cases m with
  | applied before after number =>
    have hle := hm.le
    refine ⟨hm.pos, by omega, fun hnewest => ?_⟩
    rcases hsame with ⟨hnotes, happlied⟩ | happlied
    · rw [hnotes]
      exact hm.newest (hnewest.trans happlied)
    · omega
  | writing => exact absurd trivial hidle
  | failed => exact hm
  | idle | refused | succeeded => trivial

theorem NotesMove.other (hmove : NotesMove s l s' l') (hm : NotesPhaseHolds s m)
    (happart : NotBothSaving l m) : NotesPhaseHolds s' m ∧ NotBothSaving l' m := by
  have halone (hl : l.isWriting) : ¬ m.isWriting := fun hwriting => happart ⟨hl, hwriting⟩
  cases hmove with
  | refuse | failApplied => exact ⟨hm, fun hboth => hboth.1⟩
  | mutate =>
    refine ⟨?_, fun hboth => hboth.1⟩
    cases m with
    | writing before after number fd written =>
      obtain ⟨hsnapshot, hunderWay, hnewer, hrest⟩ := hm
      have hle := hsnapshot.le
      refine ⟨⟨hsnapshot.pos, ?_, fun hnewest => ?_⟩, hunderWay, hnewer, hrest⟩
      · dsimp only
        omega
      · dsimp only at hnewest
        omega
    | idle | refused | applied | succeeded | failed =>
      exact hm.of_applied (by simp [NotesPhase.isWriting]) (.inr rfl)
  | create hfree =>
    have hidle : ¬ m.isWriting := by
      intro hwriting
      cases m with
      | writing =>
        have hunderWay := hm.2.1
        omega
      | idle | refused | applied | succeeded | failed => exact hwriting
    exact ⟨hm.of_applied hidle (.inl ⟨rfl, rfl⟩), fun hboth => hidle hboth.2⟩
  | writePiece =>
    have hidle := halone trivial
    exact ⟨hm.of_applied hidle (.inl ⟨rfl, rfl⟩), fun hboth => hidle hboth.2⟩
  | rename | renameFails | failWriting =>
    have hidle := halone trivial
    exact ⟨hm.of_applied hidle (.inl ⟨rfl, rfl⟩), fun hboth => hidle hboth.2⟩

end Step

/-- The condition of the runs. -/
abbrev inOrder (c : Pool NotesServer NotesPhase) (act : Nat × NotesAction) : Prop :=
  savesInOrder c.shared (c.threads act.1) act.2 = true

theorem start_notesInvariant (notes : NotesState) (initial : Option Bytes) :
    NotesInvariant (.start notes initial) where
  wellFormed := (start_invariant initial).wellFormed
  saved := le_rfl
  file _ hpos := absurd hpos (lt_irrefl 0)

theorem notesRequests_holds {c : Pool NotesServer NotesPhase}
    (h : notesRequests.system.ReachVia inOrder c) :
    Program.Holds NotesInvariant NotesPhaseHolds NotBothSaving c := by
  apply Program.Holds.of_reachVia ?_ ?_ ?_ ?_ h
  · rintro _ ⟨notes, initial, rfl⟩
    exact ⟨start_notesInvariant notes initial, trivial⟩
  · exact fun hboth => hboth.1
  · exact fun _ _ happart hboth => happart ⟨hboth.2, hboth.1⟩
  · intro c i a s' l' hc hok hstep
    have hmove := notesStep_cases hok hstep
    have hl := hc.thread i
    exact ⟨hmove.invariant hc.shared hl, hmove.phase hl, fun m hm happart =>
      hmove.other hm happart⟩

/-- The request with this mutation has not succeeded. -/
def NotesPhase.Unsaved (newest : Nat) : NotesPhase → Prop
  | .applied _ _ number | .writing _ _ number _ _ | .failed _ _ number =>
    number = newest
  | _ => False

/-- The newest mutation is in the file, or its request has not succeeded. -/
def NewestOwed (c : Pool NotesServer NotesPhase) : Prop :=
  c.shared.applied = 0 ∨ c.shared.saved = c.shared.applied ∨
    ∃ i, (c.threads i).Unsaved c.shared.applied

theorem notesRequests_owed {c : Pool NotesServer NotesPhase}
    (h : notesRequests.system.ReachVia inOrder c) : NewestOwed c := by
  refine h.invariant ?_ ?_
  · rintro _ ⟨s, ⟨notes, initial, rfl⟩, rfl⟩
    exact .inl rfl
  · rintro c ⟨i, a⟩ c' hreach howed hok hstep
    obtain ⟨s', l', hlocal, rfl⟩ := Program.poolStep_cases hstep
    have hl := (notesRequests_holds hreach).thread i
    have hmove := notesStep_cases hok hlocal
    have hkeep (hsaved : s'.saved = c.shared.saved) (happlied : s'.applied = c.shared.applied)
        (hi : (c.threads i).Unsaved c.shared.applied → l'.Unsaved c.shared.applied) :
        NewestOwed ⟨s', Function.update c.threads i l'⟩ := by
      rw [NewestOwed]
      dsimp only
      rw [hsaved, happlied]
      exact howed.imp_right fun h => h.imp_right fun hunsaved =>
        Program.exists_thread_update hunsaved hi
    generalize hthread : c.threads i = l at hmove hl hkeep
    cases hmove with
    | refuse => exact hkeep rfl rfl id
    | mutate => exact .inr (.inr ⟨i, by simp [NotesPhase.Unsaved]⟩)
    | create | writePiece | renameFails | failApplied | failWriting =>
      exact hkeep rfl rfl id
    | @rename before after number fd fs hrename =>
      obtain ⟨hsnapshot, _, hnewer, _⟩ := hl
      have hle := hsnapshot.le
      by_cases hnewest : number = c.shared.applied
      · exact .inr (.inl hnewest)
      · refine .inr (.inr ?_)
        have hunsaved : ∃ j, (c.threads j).Unsaved c.shared.applied := by
          rcases howed with hzero | hsaved | hunsaved
          · have hpos := hsnapshot.pos
            omega
          · omega
          · exact hunsaved
        obtain ⟨j, hj⟩ := hunsaved
        have hne : j ≠ i := by
          rintro rfl
          rw [hthread] at hj
          exact hnewest hj
        exact ⟨j, by simpa [Function.update_of_ne hne] using hj⟩

/-- In a run whose saves do not overlap, go to the file in the order of the
mutations and fail for no change, the file is the notes when all requests have
finished, and what was answered with an error changed nothing. -/
theorem notes_converge {c : Pool NotesServer NotesPhase}
    (h : notesRequests.system.ReachVia inOrder c) :
    Converged c ∧ ∀ i, (c.threads i).FailureHarmless := by
  have hholds := notesRequests_holds h
  refine ⟨fun hfinished hpos => ?_, fun i => ?_⟩
  · rcases notesRequests_owed h with hzero | hsaved | ⟨i, hi⟩
    · omega
    · exact hholds.shared.file hsaved hpos
    · have hi' := hfinished i
      cases hphase : c.threads i <;> simp_all [NotesPhase.Unsaved, NotesPhase.finished]
  · have hi := hholds.thread i
    cases hphase : c.threads i with
    | failed =>
      rw [hphase] at hi
      exact hi
    | idle | refused | applied | writing | succeeded => trivial

def emptyServer : NotesServer := .start ⟨[]⟩ none

theorem emptyServer_init :
    notesRequests.system.init (notesRequests.start emptyServer) :=
  Program.system_init _ ⟨⟨[]⟩, none, rfl⟩

def saveCalls (i : Nat) : List (Nat × NotesAction) :=
  [(i, .create), (i, .writePiece 1000), (i, .rename)]

def createNote (id : String) : NotesMutation := .create id "" "" "txt" "" 0

/-- Both requests have mutated before either saves. -/
def bothMutated : List (Nat × NotesAction) :=
  [(0, .mutate (createNote "a")), (1, .mutate (createNote "b"))]

def bothNotes : NotesState := ⟨[⟨"a", "", "", "txt", 0, 0, ""⟩, ⟨"b", "", "", "txt", 0, 0, ""⟩]⟩

theorem notes_converge_two :
    ∃ c, notesRequests.system.ReachVia inOrder c ∧
      (∀ i, (c.threads i).finished = true) ∧ c.shared.notes = bothNotes ∧
        c.shared.fileContent = some bothNotes.payload := by
  have hrun : (notesRequests.system.runVia inOrder (notesRequests.start emptyServer)
      (bothMutated ++ saveCalls 0 ++ saveCalls 1)).isSome := by
    decide +kernel
  have hend : ((notesRequests.system.runVia inOrder (notesRequests.start emptyServer)
      (bothMutated ++ saveCalls 0 ++ saveCalls 1)).get hrun).shared.notes = bothNotes ∧
      0 < ((notesRequests.system.runVia inOrder (notesRequests.start emptyServer)
        (bothMutated ++ saveCalls 0 ++ saveCalls 1)).get hrun).shared.applied := by
    decide +kernel +revert
  have hthreads : ∀ act ∈ bothMutated ++ saveCalls 0 ++ saveCalls 1,
      ((notesRequests.system.runVia inOrder (notesRequests.start emptyServer)
        (bothMutated ++ saveCalls 0 ++ saveCalls 1)).get hrun).threads act.1 |>.finished := by
    clear hend
    decide +kernel +revert
  have hfinished := Program.forall_threads_of_runVia
    (p := fun l : NotesPhase => l.finished = true) (Option.some_get hrun).symm rfl hthreads
  have hreach := System.reachVia_get emptyServer_init hrun
  refine ⟨_, hreach, hfinished, hend.1, ?_⟩
  rw [(notes_converge hreach).1 hfinished hend.2, hend.1]

theorem notes_overwritten :
    ∃ c, notesRequests.system.Reachable c ∧ (∀ i, (c.threads i).finished = true) ∧
      c.shared.notes = bothNotes ∧ c.shared.applied = 2 ∧
        c.shared.fileContent = some (NotesState.payload ⟨bothNotes.notes.take 1⟩) := by
  have hrun : (notesRequests.system.run (notesRequests.start emptyServer)
      (bothMutated ++ saveCalls 1 ++ saveCalls 0)).isSome := by
    decide +kernel
  have hend : ((notesRequests.system.run (notesRequests.start emptyServer)
      (bothMutated ++ saveCalls 1 ++ saveCalls 0)).get hrun).shared.notes = bothNotes ∧
      ((notesRequests.system.run (notesRequests.start emptyServer)
        (bothMutated ++ saveCalls 1 ++ saveCalls 0)).get hrun).shared.applied = 2 ∧
      ((notesRequests.system.run (notesRequests.start emptyServer)
        (bothMutated ++ saveCalls 1 ++ saveCalls 0)).get hrun).shared.fileContent =
          some (NotesState.payload ⟨bothNotes.notes.take 1⟩) := by
    decide +kernel +revert
  have hthreads : ∀ act ∈ bothMutated ++ saveCalls 1 ++ saveCalls 0,
      ((notesRequests.system.run (notesRequests.start emptyServer)
        (bothMutated ++ saveCalls 1 ++ saveCalls 0)).get hrun).threads act.1 |>.finished := by
    clear hend
    decide +kernel +revert
  exact ⟨_, System.reachable_get emptyServer_init hrun, Program.forall_threads_of_runVia
    (p := fun l : NotesPhase => l.finished = true) (Option.some_get hrun).symm rfl hthreads,
    hend⟩

theorem note_kept_after_failure :
    ∃ c, notesRequests.system.Reachable c ∧ ¬ (c.threads 0).FailureHarmless := by
  have hrun : (notesRequests.system.run (notesRequests.start emptyServer)
      [(0, .mutate (createNote "a")), (0, .fail)]).isSome := by
    decide +kernel
  have hphase : ((notesRequests.system.run (notesRequests.start emptyServer)
      [(0, .mutate (createNote "a")), (0, .fail)]).get hrun).threads 0 =
        .failed ⟨[]⟩ ⟨[⟨"a", "", "", "txt", 0, 0, ""⟩]⟩ 1 := by
    decide +kernel +revert
  refine ⟨_, System.reachable_get emptyServer_init hrun, ?_⟩
  rw [hphase, NotesPhase.FailureHarmless]
  decide

/-- The later snapshot is saved first, and the file lacks the second note for good;
and a request answered with an error of the disk has left its note in memory. -/
theorem notes_diverge :
    (∃ c, notesRequests.system.Reachable c ∧ ¬ Converged c) ∧
      ∃ c, notesRequests.system.Reachable c ∧ ¬ (c.threads 0).FailureHarmless := by
  obtain ⟨c, hreach, hfinished, hnotes, happlied, hfile⟩ := notes_overwritten
  refine ⟨⟨c, hreach, fun hconverged => ?_⟩, note_kept_after_failure⟩
  have hsame := hconverged hfinished (by omega)
  rw [hfile, hnotes] at hsame
  have hne : some (NotesState.payload ⟨bothNotes.notes.take 1⟩) ≠ some bothNotes.payload := by
    decide +kernel
  exact hne hsame

end HerdrWebui.Notes
