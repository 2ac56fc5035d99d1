import HerdrWebui.Concurrency.Threads
import HerdrWebui.Data.Tail
import HerdrWebui.Storage.FileSystem

/-!
`atomic_write` against itself and against readers, one step for each system
call. Every call on one path goes through the same temporary file: it truncates
it, writes its content piece by piece and renames it over the path. The change
of the permissions in between does not touch the content and has no step.
-/

namespace HerdrWebui.Storage

open Concurrency

/-- The path and its sibling `path.with_extension("new")`. -/
inductive FileName where
  | target
  | temp
  deriving DecidableEq

structure Disk where
  fs : FileSystem FileName UInt8
  /-- The initial content and the content of every call so far. -/
  calls : List Bytes
  /-- The calls that have created the temporary file and not returned. -/
  underWay : Nat

def Disk.start (initial : Option Bytes) : Disk where
  fs :=
    { names := fun name => if name = .target then initial.map fun _ => 0 else none
      contents := fun _ => initial.getD []
      next := 1 }
  calls := initial.toList
  underWay := 0

/-- A thread calls `atomic_write` or reads the path, over and over. -/
inductive FilePhase where
  | idle
  | writing (content : Bytes) (fd written : Nat)
  | reading (fd : Nat) (soFar : Bytes)
  | read (content : Bytes)

inductive FileAction where
  | create (content : Bytes)
  | writePiece (n : Nat)
  | rename
  | fail
  | openFile
  | readPiece (n : Nat)
  | readEnd

def fileStep : FileAction → Disk → FilePhase → Option (Disk × FilePhase)
  | .create content, d, .idle | .create content, d, .read _ =>
    let created := d.fs.create .temp
    some ({ fs := created.2, calls := d.calls ++ [content], underWay := d.underWay + 1 },
      .writing content created.1 0)
  | .writePiece n, d, .writing content fd written =>
    let piece := (content.drop written).take n
    if piece.isEmpty then none
    else
      some ({ d with fs := d.fs.writeAt 0 fd written piece },
        .writing content fd (written + piece.length))
  | .rename, d, .writing content _ written =>
    if written = content.length then
      -- The rename fails when another call has moved the file away.
      some ({ d with
        fs := (d.fs.rename .temp .target).getD d.fs
        underWay := d.underWay - 1 }, .idle)
    else none
  | .fail, d, .writing _ _ _ => some ({ d with underWay := d.underWay - 1 }, .idle)
  | .openFile, d, .idle | .openFile, d, .read _ =>
    (d.fs.names .target).map fun fd => (d, .reading fd [])
  | .readPiece n, d, .reading fd soFar =>
    let piece := d.fs.readAt fd soFar.length n
    if piece.isEmpty then none else some (d, .reading fd (soFar ++ piece))
  | .readEnd, d, .reading fd soFar =>
    if (d.fs.contents fd).length ≤ soFar.length then some (d, .read soFar) else none
  | _, _, _ => none

def atomicWrite : Program Disk FilePhase FileAction where
  init d := ∃ initial, d = .start initial
  idle := .idle
  step := fileStep

theorem atomicWrite_init (initial : Option Bytes) :
    atomicWrite.system.init (atomicWrite.start (.start initial)) :=
  Program.system_init _ ⟨initial, rfl⟩

/-- A call begins only when no other one is between its create and its
return. -/
def callsOneByOne (c : Pool Disk FilePhase) : Nat × FileAction → Bool
  | (_, .create _) => c.shared.underWay == 0
  | _ => true

structure DiskInvariant (d : Disk) : Prop where
  wellFormed : d.fs.WellFormed
  target : ∀ fd, d.fs.names .target = some fd → d.fs.contents fd ∈ d.calls

def FilePhase.isWriting : FilePhase → Prop
  | .writing _ _ _ => True
  | _ => False

/-- A writer has the temporary file to itself, a reader has a file nobody
writes. -/
def PhaseHolds (d : Disk) : FilePhase → Prop
  | .idle => True
  | .writing content fd written =>
    0 < d.underWay ∧ content ∈ d.calls ∧ d.fs.names .temp = some fd ∧
      written ≤ content.length ∧ d.fs.contents fd = content.take written
  | .reading fd soFar =>
    fd < d.fs.next ∧ d.fs.names .temp ≠ some fd ∧ d.fs.contents fd ∈ d.calls ∧
      soFar <+: d.fs.contents fd
  | .read content => content ∈ d.calls

def NotBothWriting (phase other : FilePhase) : Prop :=
  ¬ (phase.isWriting ∧ other.isWriting)

/-- What is proved of one system call: the invariant, the caller's assertion
and that no other thread's assertion is disturbed. -/
def Undisturbed (d : Disk) (phase : FilePhase) (d' : Disk) (phase' : FilePhase) :
    Prop :=
  DiskInvariant d' ∧ PhaseHolds d' phase' ∧
    ∀ other, PhaseHolds d other → NotBothWriting phase other →
      PhaseHolds d' other ∧ NotBothWriting phase' other

section SystemCalls

variable {d d' : Disk} {phase phase' : FilePhase}

theorem create_undisturbed (h : DiskInvariant d) (hfree : d.underWay = 0)
    (content : Bytes) :
    Undisturbed d phase
      { fs := (d.fs.create .temp).2
        calls := d.calls ++ [content]
        underWay := d.underWay + 1 }
      (.writing content (d.fs.create .temp).1 0) := by
  refine ⟨⟨h.wellFormed.create .temp, fun fd hfd => ?_⟩, ?_, ?_⟩
  · rw [FileSystem.create_names_of_ne (by simp)] at hfd
    have hname : d.fs.names .temp ≠ some fd := fun htemp => by
      cases h.wellFormed.injective _ _ _ htemp hfd
    change (d.fs.create .temp).2.contents fd ∈ d.calls ++ [content]
    rw [(FileSystem.create_other (h.wellFormed.below _ _ hfd) hname).2]
    exact List.mem_append_left _ (h.target fd hfd)
  · exact ⟨Nat.succ_pos _, List.mem_append_right _ (List.mem_singleton.mpr rfl),
      FileSystem.create_names_self _ _, Nat.zero_le _,
      FileSystem.create_contents_self _ _⟩
  · intro other hother _
    cases other with
    | idle => exact ⟨trivial, fun hboth => hboth.2⟩
    | writing content fd written =>
      exact absurd hother.1 (by omega)
    | reading fd soFar =>
      obtain ⟨hbelow, hname, hmem, hprefix⟩ := hother
      obtain ⟨hne, hsame⟩ := FileSystem.create_other hbelow hname
      refine ⟨⟨hbelow.trans_le (FileSystem.create_next_le _ _), ?_, ?_, ?_⟩,
        fun hboth => hboth.2⟩
      · change (d.fs.create .temp).2.names .temp ≠ some fd
        rw [FileSystem.create_names_self]
        exact fun heq => hne (Option.some.inj heq).symm
      · exact List.mem_append_left _ (hsame ▸ hmem)
      · exact hsame ▸ hprefix
    | read content => exact ⟨List.mem_append_left _ hother, fun hboth => hboth.2⟩

theorem writePiece_undisturbed (h : DiskInvariant d) {content : Bytes}
    {fd written : Nat} (hphase : PhaseHolds d (.writing content fd written)) (n : Nat) :
    Undisturbed d (.writing content fd written)
      { d with fs := d.fs.writeAt 0 fd written ((content.drop written).take n) }
      (.writing content fd (written + ((content.drop written).take n).length)) := by
  obtain ⟨hunderWay, hcall, htemp, hle, hcontents⟩ := hphase
  refine ⟨⟨h.wellFormed.writeAt _ _ _ _, fun target htarget => ?_⟩,
    ⟨hunderWay, hcall, htemp, ?_, ?_⟩, fun other hother happart => ?_⟩
  · have hne : target ≠ fd := fun heq => by
      cases h.wellFormed.injective _ _ _ (heq ▸ htarget) htemp
    change (d.fs.writeAt 0 fd written _).contents target ∈ d.calls
    rw [FileSystem.writeAt_other hne]
    exact h.target target htarget
  · rw [List.length_take, List.length_drop]
    omega
  · change (Function.update d.fs.contents fd _) fd = _
    rw [Function.update_self, hcontents, FileSystem.overwrite_take_append _ _ _ _ hle]
    rw [List.length_take, List.length_drop, List.take_eq_take_iff]
    omega
  · cases other with
    | idle => exact ⟨trivial, fun hboth => hboth.2⟩
    | writing content' fd' written' => exact absurd ⟨trivial, trivial⟩ happart
    | reading fd' soFar =>
      obtain ⟨hbelow, hname, hmem, hprefix⟩ := hother
      have hne : fd' ≠ fd := fun heq => hname (heq ▸ htemp)
      have hsame : (d.fs.writeAt 0 fd written
          ((content.drop written).take n)).contents fd' = d.fs.contents fd' :=
        FileSystem.writeAt_other hne
      exact ⟨⟨hbelow, hname, hsame ▸ hmem, hsame ▸ hprefix⟩, fun hboth => hboth.2⟩
    | read content' => exact ⟨hother, fun hboth => hboth.2⟩

theorem rename_undisturbed (h : DiskInvariant d) {content : Bytes} {fd : Nat}
    (hphase : PhaseHolds d (.writing content fd content.length)) :
    Undisturbed d (.writing content fd content.length)
      { d with
        fs := (d.fs.rename .temp .target).getD d.fs
        underWay := d.underWay - 1 } .idle := by
  obtain ⟨_, hcall, htemp, _, hcontents⟩ := hphase
  rw [List.take_length] at hcontents
  have hrename : d.fs.rename .temp .target = some
      { d.fs with
        names := Function.update (Function.update d.fs.names .target (some fd))
          .temp none } := by
    simp [FileSystem.rename, htemp]
  have hwell := h.wellFormed.rename (by simp) hrename
  rw [hrename, Option.getD_some]
  refine ⟨⟨hwell, fun target htarget => ?_⟩, trivial, fun other hother happart => ?_⟩
  · obtain rfl : fd = target := by simpa [Function.update] using htarget
    change d.fs.contents fd ∈ d.calls
    rwa [hcontents]
  · cases other with
    | idle => exact ⟨trivial, fun hboth => hboth.2⟩
    | writing content' fd' written' => exact absurd ⟨trivial, trivial⟩ happart
    | reading fd' soFar =>
      obtain ⟨hbelow, _, hmem, hprefix⟩ := hother
      exact ⟨⟨hbelow, by simp, hmem, hprefix⟩, fun hboth => hboth.1⟩
    | read content' => exact ⟨hother, fun hboth => hboth.1⟩

theorem fail_undisturbed (h : DiskInvariant d) {content : Bytes} {fd written : Nat} :
    Undisturbed d (.writing content fd written)
      { d with underWay := d.underWay - 1 } .idle := by
  refine ⟨⟨h.wellFormed, h.target⟩, trivial, fun other hother happart => ?_⟩
  cases other with
  | idle => exact ⟨trivial, fun hboth => hboth.1⟩
  | writing content' fd' written' => exact absurd ⟨trivial, trivial⟩ happart
  | reading fd' soFar => exact ⟨hother, fun hboth => hboth.1⟩
  | read content' => exact ⟨hother, fun hboth => hboth.1⟩

theorem look_undisturbed (h : DiskInvariant d) (hphase' : PhaseHolds d phase')
    (hreads : ¬ phase'.isWriting) : Undisturbed d phase d phase' :=
  ⟨h, hphase', fun _ hother _ => ⟨hother, fun hboth => hreads hboth.1⟩⟩

theorem openFile_holds (h : DiskInvariant d) {fd : Nat}
    (htarget : d.fs.names .target = some fd) : PhaseHolds d (.reading fd []) := by
  refine ⟨h.wellFormed.below _ _ htarget, fun htemp => ?_, h.target fd htarget,
    List.nil_prefix⟩
  cases h.wellFormed.injective _ _ _ htemp htarget

theorem readPiece_holds {fd : Nat} {soFar : Bytes}
    (hphase : PhaseHolds d (.reading fd soFar)) (n : Nat) :
    PhaseHolds d (.reading fd (soFar ++ d.fs.readAt fd soFar.length n)) := by
  obtain ⟨hbelow, hname, hmem, hprefix⟩ := hphase
  refine ⟨hbelow, hname, hmem, ?_⟩
  obtain ⟨rest, hrest⟩ := hprefix
  rw [FileSystem.readAt, ← hrest, List.drop_left]
  exact (List.prefix_append_right_inj soFar).mpr (List.take_prefix n rest)

theorem readEnd_holds {fd : Nat} {soFar : Bytes}
    (hphase : PhaseHolds d (.reading fd soFar))
    (hend : (d.fs.contents fd).length ≤ soFar.length) :
    PhaseHolds d (.read soFar) := by
  obtain ⟨_, _, hmem, hprefix⟩ := hphase
  exact hprefix.eq_of_length_le hend ▸ hmem

theorem fileStep_undisturbed (h : DiskInvariant d) (hphase : PhaseHolds d phase)
    {a : FileAction} (hfree : ∀ content, a = .create content → d.underWay = 0)
    (hstep : fileStep a d phase = some (d', phase')) :
    Undisturbed d phase d' phase' := by
  unfold fileStep at hstep
  split at hstep
  · obtain ⟨rfl, rfl⟩ := Prod.mk.inj (Option.some.inj hstep)
    exact create_undisturbed h (hfree _ rfl) _
  · obtain ⟨rfl, rfl⟩ := Prod.mk.inj (Option.some.inj hstep)
    exact create_undisturbed h (hfree _ rfl) _
  · dsimp only at hstep
    split at hstep
    · cases hstep
    · obtain ⟨rfl, rfl⟩ := Prod.mk.inj (Option.some.inj hstep)
      exact writePiece_undisturbed h hphase _
  · split at hstep
    · next hall =>
        obtain ⟨rfl, rfl⟩ := Prod.mk.inj (Option.some.inj hstep)
        subst hall
        exact rename_undisturbed h hphase
    · cases hstep
  · obtain ⟨rfl, rfl⟩ := Prod.mk.inj (Option.some.inj hstep)
    exact fail_undisturbed h
  · obtain ⟨fd, htarget, hnext⟩ := Option.map_eq_some_iff.mp hstep
    obtain ⟨rfl, rfl⟩ := Prod.mk.inj hnext
    exact look_undisturbed h (openFile_holds h htarget) id
  · obtain ⟨fd, htarget, hnext⟩ := Option.map_eq_some_iff.mp hstep
    obtain ⟨rfl, rfl⟩ := Prod.mk.inj hnext
    exact look_undisturbed h (openFile_holds h htarget) id
  · dsimp only at hstep
    split at hstep
    · cases hstep
    · obtain ⟨rfl, rfl⟩ := Prod.mk.inj (Option.some.inj hstep)
      exact look_undisturbed h (readPiece_holds hphase _) id
  · split at hstep
    · next hend =>
        obtain ⟨rfl, rfl⟩ := Prod.mk.inj (Option.some.inj hstep)
        exact look_undisturbed h (readEnd_holds hphase hend) id
    · cases hstep
  · cases hstep

end SystemCalls

theorem start_invariant (initial : Option Bytes) :
    DiskInvariant (.start initial) where
  wellFormed := by
    constructor
    · intro name inode hname
      cases name <;> simp_all [Disk.start]
    · intro name name' inode hname hname'
      cases name <;> cases name' <;> simp_all [Disk.start]
  target fd hfd := by
    cases initial with
    | none => simp [Disk.start] at hfd
    | some content => simp [Disk.start]

/-- In a run whose calls do not overlap, whatever a read of the path returns is
the initial content or the whole content of one of the calls, however the reads
fall between the system calls of the writes. -/
theorem atomicWrite_readsWhole {c : Pool Disk FilePhase}
    (h : atomicWrite.system.ReachVia (fun c act => callsOneByOne c act = true) c)
    {i : Nat} {content : Bytes} (hread : c.threads i = .read content) :
    content ∈ c.shared.calls := by
  have hholds : Program.Holds DiskInvariant PhaseHolds NotBothWriting c := by
    refine Program.Holds.of_reachVia ?_ ?_ ?_ ?_ h
    · rintro _ ⟨initial, rfl⟩
      exact ⟨start_invariant initial, trivial⟩
    · exact fun hboth => hboth.1
    · exact fun _ _ happart hboth => happart ⟨hboth.2, hboth.1⟩
    · intro c i a d' phase' hc hok hstep
      refine fileStep_undisturbed hc.shared (hc.thread i) ?_ hstep
      rintro content rfl
      simpa [callsOneByOne] using hok
  simpa [hread, PhaseHolds] using hholds.thread i

/-- The second call truncates the temporary file between the first one's last
write and its rename. -/
def overlappingWrites : List (Nat × FileAction) :=
  [(0, .create [1, 2]), (0, .writePiece 2), (1, .create [3, 4]), (0, .rename),
    (2, .openFile), (2, .readEnd)]

theorem overlappingWrites_readEmpty :
    ∃ c, atomicWrite.system.Reachable c ∧ c.threads 2 = .read [] ∧
      c.shared.calls = [[9], [1, 2], [3, 4]] := by
  have hrun : (atomicWrite.system.run (atomicWrite.start (.start (some [9])))
      overlappingWrites).isSome := by decide
  exact ⟨_, System.reachable_get (atomicWrite_init (some [9])) hrun, rfl, rfl⟩

/-- A read that opens the path between two writes, and one across them. -/
def writesOneByOne : List (Nat × FileAction) :=
  [(0, .create [1, 2]), (2, .openFile), (0, .writePiece 1), (0, .writePiece 1),
    (0, .rename), (3, .openFile), (1, .create [3]), (1, .writePiece 1), (1, .rename),
    (2, .readPiece 5), (2, .readEnd), (3, .readPiece 1), (3, .readPiece 1),
    (3, .readEnd)]

theorem writesOneByOne_readWhole :
    ∃ c, atomicWrite.system.runVia (fun c act => callsOneByOne c act = true)
        (atomicWrite.start (.start (some [9]))) writesOneByOne = some c ∧
      c.threads 3 = .read [1, 2] ∧ [1, 2] ∈ c.shared.calls := by
  have hrun : (atomicWrite.system.runVia (fun c act => callsOneByOne c act = true)
      (atomicWrite.start (.start (some [9]))) writesOneByOne).isSome := by decide
  refine ⟨_, (Option.some_get hrun).symm, rfl, ?_⟩
  exact atomicWrite_readsWhole (i := 3)
    (System.reachVia_get (atomicWrite_init (some [9])) hrun) rfl

end HerdrWebui.Storage
