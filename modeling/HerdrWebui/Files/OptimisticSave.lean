import HerdrWebui.Concurrency.Threads
import HerdrWebui.Storage.AtomicWrite

/-!
Reads and saves of one file by many requests, of the file browser and of the git
view, among edits by other programs. A read takes the content and then hashes the
file, a save hashes the file, compares and then truncates and writes it, one step
for each access. While nothing changes the file between the two accesses of a read
or of a save, a save succeeds only over the content its read returned.
-/

namespace HerdrWebui.Files

open Concurrency Storage

/-- Each has its own hash: SHA-256 of the content, `git hash-object` of the path. -/
inductive Transport where
  | fileBrowser
  | gitUi
  deriving DecidableEq

/-- What a read returned: the file when its content was taken, where a missing one
counts as empty, and the hash that was computed after that. -/
structure ReadResult where
  transport : Transport
  seen : Option Bytes
  hash : String
  deriving DecidableEq

/-- `reads` are the results returned so far, `replaced` the contents that successful
saves based on a read have replaced and `cut` the number of saves that have
truncated the file and not written it. No code reads them. -/
structure FileServer where
  fs : FileSystem Unit UInt8
  reads : List ReadResult
  replaced : List (Option Bytes)
  cut : Nat

def FileServer.file (s : FileServer) : Option Bytes :=
  (s.fs.names ()).map s.fs.contents

/-- The `expected_hash` of a save: none, any text, or the hash a read returned. -/
inductive Expected where
  | absent
  | text (hash : String)
  | read (index : Nat)
  deriving DecidableEq

def Expected.basis : Expected → Option Nat
  | .read index => some index
  | _ => none

inductive EditPhase where
  | idle
  | contentRead (transport : Transport) (seen : Option Bytes)
  | conflict
  | checked (basis : Option Nat) (content : Bytes) (current : Option Bytes)
  | truncated (basis : Option Nat) (content : Bytes) (before : Option Bytes) (fd : Nat)
  | succeeded (basis : Option Nat) (before : Option Bytes)
  | failed
  deriving DecidableEq

inductive EditAction where
  | readContent (transport : Transport)
  | hashContent
  | hashAndCompare (transport : Transport) (expected : Expected) (content : Bytes)
  | truncate
  | write
  | fail
  | external (fs : FileSystem Unit UInt8)

/-- `String::from_utf8` and `fs::read_to_string` take UTF-8 only. -/
def isText (content : Bytes) : Bool := (ByteArray.mk content.toArray).validateUTF8

section Hash

variable (hash : Transport → Bytes → String)

/-- `file_hash` and `git_ui_working_file_hash` of a missing file are empty. -/
def fileHash (transport : Transport) (file : Option Bytes) : String :=
  (file.map (hash transport)).getD ""

/-- The hash a save compares with. A client sends a hash back to where it is from. -/
def FileServer.expectedHash (s : FileServer) (transport : Transport) :
    Expected → Option (Option String)
  | .absent => some none
  | .text hash => some (some hash)
  | .read index =>
    match s.reads[index]? with
    | some r => if r.transport = transport then some (some r.hash) else none
    | none => none

/-- `external` is an edit by another program, in place or by another file under the
path. A read of a file that is no text, or is missing for the file browser, returns
no content. -/
def editStep (a : EditAction) (s : FileServer) (l : EditPhase) :
    Option (FileServer × EditPhase) :=
  match a, l with
  | .readContent transport, .idle =>
    if transport = .fileBrowser ∧ s.file = none then some (s, .failed)
    else if isText (s.file.getD []) then some (s, .contentRead transport s.file)
    else some (s, .failed)
  | .hashContent, .contentRead transport seen =>
    let result := ⟨transport, seen, fileHash hash transport s.file⟩
    some ({ s with reads := s.reads ++ [result] }, .idle)
  | .hashAndCompare transport expected content, .idle =>
    match s.expectedHash transport expected with
    | none => none
    | some none => some (s, .checked expected.basis content s.file)
    | some (some h) =>
      if h = fileHash hash transport s.file then
        some (s, .checked expected.basis content s.file)
      else some (s, .conflict)
  | .truncate, .checked basis content _ =>
    let created := s.fs.create ()
    some ({ s with fs := created.2, cut := s.cut + 1 },
      .truncated basis content s.file created.1)
  | .write, .truncated basis content before fd =>
    some ({ s with
      fs := s.fs.writeAt 0 fd 0 content
      replaced := if basis.isSome then before :: s.replaced else s.replaced
      cut := s.cut - 1 }, .succeeded basis before)
  | .fail, .contentRead _ _ | .fail, .checked _ _ _ => some (s, .failed)
  | .fail, .truncated _ _ _ _ => some ({ s with cut := s.cut - 1 }, .failed)
  | .external fs, .idle => some ({ s with fs }, .idle)
  | _, _ => none

def edits : Program FileServer EditPhase EditAction where
  init s := s.reads = [] ∧ s.replaced = [] ∧ s.cut = 0
  idle := .idle
  step := editStep hash

/-- A save that succeeds replaces the content that its read returned. -/
def LosesNothing (c : Pool FileServer EditPhase) : Prop :=
  ∀ i index before, c.threads i = .succeeded (some index) before →
    ∃ r, c.shared.reads[index]? = some r ∧ before = r.seen

/-- Of the saves based on one read at most one succeeds. -/
def OneSaveEach (c : Pool FileServer EditPhase) : Prop :=
  ∀ i j index before before', i ≠ j →
    c.threads i = .succeeded (some index) before →
      c.threads j ≠ .succeeded (some index) before'

/-- The file does not change between the two accesses of a read, nor between the
check and the truncation of a save, and no check meets another content with the hash
of the one read. -/
def accessesStable (s : FileServer) (l : EditPhase) (a : EditAction) : Bool :=
  match a, l with
  | .hashContent, .contentRead _ seen => s.file == seen
  | .hashAndCompare transport (.read index) _, _ =>
    match s.reads[index]? with
    | some r =>
      fileHash hash transport s.file != fileHash hash transport r.seen ||
        s.file == r.seen
    | none => true
  | .truncate, .checked _ _ current => s.file == current
  | _, _ => true

/-- No save checks or truncates the file while another has it truncated, and nothing
brings back a content that a save has replaced. -/
def replacedForGood (s : FileServer) (l : EditPhase) (a : EditAction) : Bool :=
  match a, l with
  | .hashAndCompare _ _ _, _ | .truncate, _ => s.cut == 0
  | .write, .truncated basis content before fd =>
    let written : FileServer := { s with fs := s.fs.writeAt 0 fd 0 content }
    !(s.replaced.contains written.file) && (basis.isNone || written.file != before)
  | .fail, .truncated _ _ _ _ => !(s.replaced.contains s.file)
  | .external fs, _ =>
    let edited : FileServer := { s with fs }
    !(s.replaced.contains edited.file)
  | _, _ => true

/-- The steps of `editStep`, one by one. -/
inductive EditMove (s : FileServer) :
    EditAction → EditPhase → FileServer → EditPhase → Prop
  | readFails {transport : Transport} :
      EditMove s (.readContent transport) .idle s .failed
  | readContent {transport : Transport} :
      EditMove s (.readContent transport) .idle s (.contentRead transport s.file)
  | hashContent {transport : Transport} {seen : Option Bytes} :
      EditMove s .hashContent (.contentRead transport seen)
        { s with reads := s.reads ++ [⟨transport, seen, fileHash hash transport s.file⟩] }
        .idle
  | check {transport : Transport} {expected : Expected} {content : Bytes}
      (hhash : ∀ index, expected = .read index → ∃ r, s.reads[index]? = some r ∧
        r.transport = transport ∧ r.hash = fileHash hash transport s.file) :
      EditMove s (.hashAndCompare transport expected content) .idle
        s (.checked expected.basis content s.file)
  | conflict {transport : Transport} {expected : Expected} {content : Bytes} :
      EditMove s (.hashAndCompare transport expected content) .idle s .conflict
  | truncate {basis : Option Nat} {content : Bytes} {current : Option Bytes} :
      EditMove s .truncate (.checked basis content current)
        { s with fs := (s.fs.create ()).2, cut := s.cut + 1 }
        (.truncated basis content s.file (s.fs.create ()).1)
  | write {basis : Option Nat} {content : Bytes} {before : Option Bytes} {fd : Nat} :
      EditMove s .write (.truncated basis content before fd)
        { s with
          fs := s.fs.writeAt 0 fd 0 content
          replaced := if basis.isSome then before :: s.replaced else s.replaced
          cut := s.cut - 1 }
        (.succeeded basis before)
  | failRead {transport : Transport} {seen : Option Bytes} :
      EditMove s .fail (.contentRead transport seen) s .failed
  | failCheck {basis : Option Nat} {content : Bytes} {current : Option Bytes} :
      EditMove s .fail (.checked basis content current) s .failed
  | failWrite {basis : Option Nat} {content : Bytes} {before : Option Bytes} {fd : Nat} :
      EditMove s .fail (.truncated basis content before fd) { s with cut := s.cut - 1 }
        .failed
  | external {fs : FileSystem Unit UInt8} :
      EditMove s (.external fs) .idle { s with fs } .idle

variable {hash}

theorem editStep_cases {a : EditAction} {s s' : FileServer} {l l' : EditPhase}
    (h : editStep hash a s l = some (s', l')) : EditMove hash s a l s' l' := by
  unfold editStep at h
  split at h
  case h_1 =>
    split at h
    · cases h
      exact .readFails
    · split at h <;> cases h
      · exact .readContent
      · exact .readFails
  case h_3 transport expected content =>
    cases expected with
    | absent =>
      cases h
      exact .check (by simp)
    | text expected =>
      simp only [FileServer.expectedHash] at h
      split at h <;> cases h
      · exact .check (by simp)
      · exact .conflict
    | read index =>
      cases hread : s.reads[index]? with
      | none => simp [FileServer.expectedHash, hread] at h
      | some r =>
        by_cases htransport : r.transport = transport
        · simp only [FileServer.expectedHash, hread, if_pos htransport] at h
          split at h <;> cases h
          · next hhash =>
              refine .check fun index' hindex => ?_
              cases hindex
              exact ⟨r, hread, htransport, hhash⟩
          · exact .conflict
        · simp [FileServer.expectedHash, hread, htransport] at h
  all_goals cases h
  case h_2 => exact .hashContent
  case h_4 => exact .truncate
  case h_5 => exact .write
  case h_6 => exact .failRead
  case h_7 => exact .failCheck
  case h_8 => exact .failWrite
  case h_9 => exact .external

def SeenBy (s : FileServer) (basis : Option Nat) (file : Option Bytes) : Prop :=
  ∀ index, basis = some index → ∃ r, s.reads[index]? = some r ∧ file = r.seen

variable (hash) in
/-- A read returned the hash of what it saw. -/
def ReadsSound (s : FileServer) : Prop :=
  ∀ r ∈ s.reads, r.hash = fileHash hash r.transport r.seen

/-- A save that got past the check works on what its read saw. -/
def EditPhaseHolds (s : FileServer) : EditPhase → Prop
  | .checked basis _ current => SeenBy s basis current
  | .truncated basis _ before _ => SeenBy s basis before
  | .succeeded basis before => SeenBy s basis before
  | _ => True

section Step

variable {a : EditAction} {s s' : FileServer} {l l' m : EditPhase}

theorem SeenBy.mono {basis : Option Nat} {file : Option Bytes}
    (h : SeenBy s basis file) {later : List ReadResult}
    (hreads : s'.reads = s.reads ++ later) : SeenBy s' basis file := by
  intro index hindex
  obtain ⟨r, hr, hfile⟩ := h index hindex
  refine ⟨r, ?_, hfile⟩
  obtain ⟨hlt, -⟩ := List.getElem?_eq_some_iff.mp hr
  rw [hreads, List.getElem?_append_left hlt]
  exact hr

theorem EditPhaseHolds.mono (h : EditPhaseHolds s m) {later : List ReadResult}
    (hreads : s'.reads = s.reads ++ later) : EditPhaseHolds s' m := by
  cases m with
  | checked | truncated | succeeded => exact SeenBy.mono h hreads
  | idle | contentRead | conflict | failed => trivial

theorem EditMove.reads (hmove : EditMove hash s a l s' l') :
    ∃ later, s'.reads = s.reads ++ later := by
  cases hmove with
  | hashContent => exact ⟨_, rfl⟩
  | readFails | readContent | check | conflict | truncate | write | failRead | failCheck
  | failWrite | external => exact ⟨[], (List.append_nil _).symm⟩

theorem EditMove.sound (hmove : EditMove hash s a l s' l')
    (hok : accessesStable hash s l a = true) (hs : ReadsSound hash s) :
    ReadsSound hash s' := by
  cases hmove with
  | hashContent =>
    intro r hr
    rcases List.mem_append.mp hr with hold | hnew
    · exact hs r hold
    · obtain rfl := List.mem_singleton.mp hnew
      have hsame := beq_iff_eq.mp hok
      dsimp only
      rw [hsame]
  | readFails | readContent | check | conflict | truncate | write | failRead | failCheck
  | failWrite | external => exact hs

theorem EditMove.phase (hmove : EditMove hash s a l s' l')
    (hok : accessesStable hash s l a = true) (hs : ReadsSound hash s)
    (hl : EditPhaseHolds s l) : EditPhaseHolds s' l' := by
  cases hmove with
  | @check transport expected content hhash =>
    intro index hindex
    cases expected with
    | absent | text => cases hindex
    | read index' =>
      cases hindex
      obtain ⟨r, hr, htransport, hcurrent⟩ := hhash index rfl
      refine ⟨r, hr, ?_⟩
      rw [hs r (List.mem_of_getElem? hr), htransport] at hcurrent
      simp only [accessesStable, hr, hcurrent] at hok
      simpa using hok
  | truncate =>
    have hsame := beq_iff_eq.mp hok
    rw [EditPhaseHolds, hsame]
    exact hl
  | write => exact hl
  | readFails | readContent | hashContent | conflict | failRead | failCheck | failWrite
  | external => trivial

end Step

theorem edits_seen {c : Pool FileServer EditPhase}
    (h : (edits hash).system.ReachVia
      (fun c act => accessesStable hash c.shared (c.threads act.1) act.2 = true) c) :
    Program.Holds (ReadsSound hash) EditPhaseHolds (fun _ _ => True) c := by
  apply Program.Holds.of_reachVia ?_ trivial (fun _ _ _ => trivial) ?_ h
  · rintro s ⟨hreads, -, -⟩
    refine ⟨fun r hr => ?_, trivial⟩
    rw [hreads] at hr
    cases hr
  · intro c i a s' l' hc hok hstep
    have hmove := editStep_cases hstep
    obtain ⟨later, hlater⟩ := hmove.reads
    exact ⟨hmove.sound hok hc.shared, hmove.phase hok hc.shared (hc.thread i),
      fun m hm _ => ⟨hm.mono hlater, trivial⟩⟩

/-- The read of a save that has truncated the file. -/
def EditPhase.replaces : EditPhase → Option Nat
  | .truncated basis _ _ _ | .succeeded basis _ => basis
  | _ => none

def EditPhase.isTruncated : EditPhase → Prop
  | .truncated _ _ _ _ => True
  | _ => False

/-- Two saves that truncated the file are based on different reads, and one of them
has written it. -/
def SavesApart (l m : EditPhase) : Prop :=
  (∀ index, l.replaces = some index → m.replaces ≠ some index) ∧
    ¬ (l.isTruncated ∧ m.isTruncated)

/-- Nobody has the file truncated: it is nothing that was replaced. -/
structure ReplacedGone (s : FileServer) : Prop where
  cut : s.cut ≤ 1
  gone : s.cut = 0 → s.file ∉ s.replaced

/-- A save under way has the file truncated, one that succeeded has replaced its
content. -/
def ReplacedHolds (s : FileServer) : EditPhase → Prop
  | .truncated _ _ _ _ => s.cut = 1
  | .succeeded basis before => basis.isSome = true → before ∈ s.replaced
  | _ => True

section Step

variable {a : EditAction} {s s' : FileServer} {l l' m : EditPhase}

theorem EditMove.gone (hmove : EditMove hash s a l s' l')
    (hok : replacedForGood s l a = true) (hs : ReplacedGone s)
    (hl : ReplacedHolds s l) : ReplacedGone s' ∧ ReplacedHolds s' l' := by
  cases hmove with
  | truncate =>
    have hcut : s.cut = 0 := beq_iff_eq.mp hok
    exact ⟨⟨by dsimp only; omega, fun h => by dsimp only at h; omega⟩, by
      simp [ReplacedHolds, hcut]⟩
  | @write basis content before fd =>
    have hcut : s.cut = 1 := hl
    simp only [replacedForGood, Bool.and_eq_true, Bool.not_eq_true', Bool.or_eq_true,
      bne_iff_ne] at hok
    obtain ⟨hfresh, hchanged⟩ := hok
    have hnot : FileServer.file { s with fs := s.fs.writeAt 0 fd 0 content } ∉
        s.replaced := by
      simpa using hfresh
    refine ⟨⟨by dsimp only; omega, fun _ => ?_⟩, fun hsome => ?_⟩
    · cases basis with
      | none => exact hnot
      | some index =>
        rcases hchanged with hnone | hne
        · cases hnone
        · intro hmem
          rcases List.mem_cons.mp hmem with hbefore | hold
          · exact hne hbefore
          · exact hnot hold
    · dsimp only
      rw [if_pos hsome]
      exact List.mem_cons_self
  | failWrite =>
    have hcut : s.cut = 1 := hl
    have hfresh : s.file ∉ s.replaced := by
      simpa [replacedForGood] using hok
    exact ⟨⟨by dsimp only; omega, fun _ => hfresh⟩, trivial⟩
  | @external fs =>
    have hfresh : FileServer.file { s with fs } ∉ s.replaced := by
      simpa [replacedForGood] using hok
    exact ⟨⟨hs.cut, fun _ => hfresh⟩, trivial⟩
  | hashContent => exact ⟨⟨hs.cut, hs.gone⟩, trivial⟩
  | readFails | readContent | check | conflict | failRead | failCheck => exact ⟨hs, trivial⟩

theorem ReplacedHolds.mono (hm : ReplacedHolds s m) (hcut : m.isTruncated → s'.cut = s.cut)
    (hreplaced : s.replaced ⊆ s'.replaced) : ReplacedHolds s' m := by
  cases m with
  | truncated => exact (hcut trivial).trans hm
  | succeeded => exact fun hsome => hreplaced (hm hsome)
  | idle | contentRead | conflict | checked | failed => trivial

theorem SavesApart.of_none (hnone : l'.replaces = none) (hidle : ¬ l'.isTruncated) :
    SavesApart l' m :=
  ⟨fun index hindex => by simp [hnone] at hindex, fun hboth => hidle hboth.1⟩

/-- A truncation meets the content its read saw. A save of the same read that had
succeeded would have replaced it for good. -/
theorem EditMove.other (hmove : EditMove hash s a l s' l')
    (hok : replacedForGood s l a = true) (hs : ReplacedGone s)
    (hseen : EditPhaseHolds s' l') (hseenOther : EditPhaseHolds s m)
    (hm : ReplacedHolds s m) (hapart : SavesApart l m) :
    ReplacedHolds s' m ∧ SavesApart l' m := by
  have halone (hl : l.isTruncated) : ¬ m.isTruncated := fun h => hapart.2 ⟨hl, h⟩
  cases hmove with
  | readFails | readContent | conflict | failRead | failCheck | check =>
    exact ⟨hm, .of_none rfl id⟩
  | hashContent | external =>
    exact ⟨hm.mono (fun _ => rfl) (fun _ h => h), .of_none rfl id⟩
  | failWrite =>
    exact ⟨hm.mono (fun h => absurd h (halone trivial)) (fun _ h => h), .of_none rfl id⟩
  | @write basis content before fd =>
    refine ⟨hm.mono (fun h => absurd h (halone trivial)) ?_, hapart.1, fun hboth =>
      hboth.1⟩
    dsimp only
    split
    · exact List.subset_cons_self _ _
    · exact fun _ h => h
  | @truncate basis content current =>
    have hcut : s.cut = 0 := beq_iff_eq.mp hok
    have hidle : ¬ m.isTruncated := by
      intro htruncated
      cases m with
      | truncated =>
        have hone : s.cut = 1 := hm
        omega
      | idle | contentRead | conflict | checked | succeeded | failed => exact htruncated
    refine ⟨hm.mono (fun h => absurd h hidle) (fun _ h => h), fun index hindex hother => ?_,
      fun hboth => hidle hboth.2⟩
    cases m with
    | succeeded basis' before' =>
      obtain ⟨r, hr, hfile⟩ := hseen index hindex
      obtain ⟨r', hr', hbefore⟩ := hseenOther index hother
      obtain rfl : r = r' := Option.some.inj (hr.symm.trans hr')
      have hreplaced := hm (by simp [show basis' = some index from hother])
      rw [hbefore, ← hfile] at hreplaced
      exact hs.gone hcut hreplaced
    | truncated => exact hidle trivial
    | idle | contentRead | conflict | checked | failed => cases hother

end Step

theorem edits_apart {c : Pool FileServer EditPhase}
    (h : (edits hash).system.ReachVia (fun c act =>
      accessesStable hash c.shared (c.threads act.1) act.2 = true ∧
        replacedForGood c.shared (c.threads act.1) act.2 = true) c) :
    Program.Holds (fun s => ReadsSound hash s ∧ ReplacedGone s)
      (fun s l => EditPhaseHolds s l ∧ ReplacedHolds s l) SavesApart c := by
  apply Program.Holds.of_reachVia ?_ ?_ ?_ ?_ h
  · rintro s ⟨hreads, hreplaced, hcut⟩
    refine ⟨⟨fun r hr => ?_, ⟨by omega, fun _ => ?_⟩⟩, trivial, trivial⟩
    · rw [hreads] at hr
      cases hr
    · rw [hreplaced]
      exact List.not_mem_nil
  · exact .of_none rfl id
  · rintro l m ⟨hreplaces, htruncated⟩
    exact ⟨fun index hm hl => hreplaces index hl hm, fun hboth => htruncated hboth.symm⟩
  · intro c i a s' l' hc hok hstep
    have hmove := editStep_cases hstep
    obtain ⟨hsound, hgone⟩ := hc.shared
    obtain ⟨hseen, hreplaced⟩ := hc.thread i
    have hseen' := hmove.phase hok.1 hsound hseen
    obtain ⟨hgone', hreplaced'⟩ := hmove.gone hok.2 hgone hreplaced
    obtain ⟨later, hlater⟩ := hmove.reads
    refine ⟨⟨hmove.sound hok.1 hsound, hgone'⟩, ⟨hseen', hreplaced'⟩, fun m hm hapart => ?_⟩
    obtain ⟨hholds, hapart'⟩ := hmove.other hok.2 hgone hseen' hm.1 hm.2 hapart
    exact ⟨⟨hm.1.mono hlater, hholds⟩, hapart'⟩

/-- While the file does not change between the accesses of a read or of a save, a
save replaces only what its read returned. While, besides, saves truncate and write
one after the other and what a save replaced does not come back, one save of a read
succeeds. -/
theorem edits_lose_nothing {c : Pool FileServer EditPhase} :
    ((edits hash).system.ReachVia (fun c act =>
      accessesStable hash c.shared (c.threads act.1) act.2 = true) c → LosesNothing c) ∧
    ((edits hash).system.ReachVia (fun c act =>
      accessesStable hash c.shared (c.threads act.1) act.2 = true ∧
        replacedForGood c.shared (c.threads act.1) act.2 = true) c → OneSaveEach c) := by
  refine ⟨fun h i index before hphase => ?_, fun h i j index before before' hne hi hj => ?_⟩
  · have hthread := (edits_seen h).thread i
    rw [hphase] at hthread
    exact hthread index rfl
  · have hapart := (edits_apart h).apart i j hne
    rw [hi, hj] at hapart
    exact hapart.1 index rfl rfl

end Hash

/-- A stand-in for the hashes, to run schedules with: the bytes as text. -/
def plainHash (_ : Transport) (content : Bytes) : String :=
  "h" ++ String.ofList (content.map fun b => Char.ofNat b.toNat)

def oneFile (content : Bytes) : FileSystem Unit UInt8 :=
  ⟨fun _ => some 0, fun _ => content, 1⟩

def editStart (content : Bytes) : FileServer := ⟨oneFile content, [], [], 0⟩

theorem edits_init (content : Bytes) :
    (edits plainHash).system.init ((edits plainHash).start (editStart content)) :=
  Program.system_init _ ⟨rfl, rfl, rfl⟩

/-- Thread 0 reads, threads 1 and 2 save on that read one after the other. -/
def savesInTurn : List (Nat × EditAction) :=
  [(0, .readContent .fileBrowser), (0, .hashContent),
    (1, .hashAndCompare .fileBrowser (.read 0) [98]), (1, .truncate), (1, .write),
    (2, .hashAndCompare .fileBrowser (.read 0) [99])]

theorem edits_lose_nothing_in_turn :
    ∃ c : Pool FileServer EditPhase,
      c.threads 1 = .succeeded (some 0) (some [97]) ∧ c.threads 2 = .conflict ∧
        LosesNothing c ∧ OneSaveEach c := by
  have hrun : ((edits plainHash).system.runVia (fun c act =>
      accessesStable plainHash c.shared (c.threads act.1) act.2 = true ∧
        replacedForGood c.shared (c.threads act.1) act.2 = true)
      ((edits plainHash).start (editStart [97])) savesInTurn).isSome := by
    decide +kernel
  have hphases : (((edits plainHash).system.runVia (fun c act =>
      accessesStable plainHash c.shared (c.threads act.1) act.2 = true ∧
        replacedForGood c.shared (c.threads act.1) act.2 = true)
      ((edits plainHash).start (editStart [97])) savesInTurn).get hrun).threads 1 =
        .succeeded (some 0) (some [97]) ∧
      (((edits plainHash).system.runVia (fun c act =>
      accessesStable plainHash c.shared (c.threads act.1) act.2 = true ∧
        replacedForGood c.shared (c.threads act.1) act.2 = true)
      ((edits plainHash).start (editStart [97])) savesInTurn).get hrun).threads 2 =
        .conflict := by
    decide +kernel +revert
  have hreach := System.reachVia_get (edits_init [97]) hrun
  have hstable := hreach.mono fun _ _ hok => hok.1
  exact ⟨_, hphases.1, hphases.2, edits_lose_nothing.1 hstable, edits_lose_nothing.2 hreach⟩

/-- Another program changes the file between the two accesses of the read. -/
def editDuringRead : List (Nat × EditAction) :=
  [(0, .readContent .gitUi), (1, .external (oneFile [98])), (0, .hashContent),
    (2, .hashAndCompare .gitUi (.read 0) [99]), (2, .truncate), (2, .write)]

/-- Both saves compare before either truncates. -/
def checksFirst : List (Nat × EditAction) :=
  [(0, .readContent .fileBrowser), (0, .hashContent),
    (1, .hashAndCompare .fileBrowser (.read 0) [98]),
    (2, .hashAndCompare .fileBrowser (.read 0) [99]),
    (1, .truncate), (1, .write), (2, .truncate), (2, .write)]

theorem not_losesNothing {c : Pool FileServer EditPhase} {i index : Nat}
    {before : Option Bytes} (hphase : c.threads i = .succeeded (some index) before)
    (hread : c.shared.reads[index]?.map ReadResult.seen ≠ some before) :
    ¬ LosesNothing c := by
  intro h
  obtain ⟨r, hr, hseen⟩ := h i index before hphase
  exact hread (by rw [hr, Option.map_some, hseen])

/-- A save replaces a content that its read did not return, and of two saves of one
read both succeed, the second over what the first wrote. -/
theorem edits_lose_update :
    (∃ c, (edits plainHash).system.Reachable c ∧ ¬ LosesNothing c) ∧
      ∃ c, (edits plainHash).system.Reachable c ∧ ¬ LosesNothing c ∧ ¬ OneSaveEach c := by
  have hread : ((edits plainHash).system.run
      ((edits plainHash).start (editStart [97])) editDuringRead).isSome := by
    decide +kernel
  have hreadEnd : (((edits plainHash).system.run
      ((edits plainHash).start (editStart [97])) editDuringRead).get hread).threads 2 =
        .succeeded (some 0) (some [98]) ∧
      (((edits plainHash).system.run
        ((edits plainHash).start (editStart [97])) editDuringRead).get
          hread).shared.reads[0]?.map ReadResult.seen ≠ some (some [98]) := by
    decide +kernel +revert
  have hcheck : ((edits plainHash).system.run
      ((edits plainHash).start (editStart [97])) checksFirst).isSome := by
    decide +kernel
  have hcheckEnd : (((edits plainHash).system.run
      ((edits plainHash).start (editStart [97])) checksFirst).get hcheck).threads 1 =
        .succeeded (some 0) (some [97]) ∧
      (((edits plainHash).system.run
        ((edits plainHash).start (editStart [97])) checksFirst).get hcheck).threads 2 =
          .succeeded (some 0) (some [98]) ∧
      (((edits plainHash).system.run
        ((edits plainHash).start (editStart [97])) checksFirst).get
          hcheck).shared.reads[0]?.map ReadResult.seen ≠ some (some [98]) := by
    clear hreadEnd hread
    decide +kernel +revert
  refine ⟨⟨_, System.reachable_get (edits_init [97]) hread,
    not_losesNothing hreadEnd.1 hreadEnd.2⟩, _, System.reachable_get (edits_init [97]) hcheck,
    not_losesNothing hcheckEnd.2.1 hcheckEnd.2.2, fun hone => ?_⟩
  exact hone 1 2 0 _ _ (by decide) hcheckEnd.1 hcheckEnd.2.1

end HerdrWebui.Files
