import HerdrWebui.Git.Requests
import HerdrWebui.Git.StatusState

/-!
The lists of the full status against the files that have changed. Git prints a name with
an unusual byte in quotes, and the lists keep the quotes and the escapes. A path of a list
that is sent back is trimmed.
-/

namespace HerdrWebui.Git

/-- The character of a byte, as far as it is of ASCII. -/
def byteChar (byte : UInt8) : Char := Char.ofNat byte.toNat

def isPlain (byte : UInt8) : Bool :=
  0x20 ≤ byte && byte < 0x7f && byte ≠ 0x22 && byte ≠ 0x5c

def octalDigit (n : Nat) : Char := Char.ofNat ('0'.toNat + n % 8)

def escapeByte (byte : UInt8) : List Char :=
  if isPlain byte then [byteChar byte]
  else if byte = 0x07 then ['\\', 'a']
  else if byte = 0x08 then ['\\', 'b']
  else if byte = 0x09 then ['\\', 't']
  else if byte = 0x0a then ['\\', 'n']
  else if byte = 0x0b then ['\\', 'v']
  else if byte = 0x0c then ['\\', 'f']
  else if byte = 0x0d then ['\\', 'r']
  else if byte = 0x22 then ['\\', '"']
  else if byte = 0x5c then ['\\', '\\']
  else
    ['\\', octalDigit (byte.toNat / 64), octalDigit (byte.toNat / 8), octalDigit byte.toNat]

def printName (bytes : List UInt8) : List Char :=
  if bytes.all isPlain then bytes.map byteChar
  else '"' :: bytes.flatMap escapeByte ++ ['"']

def IsGraphic (c : Char) : Prop := 0x20 ≤ c.toNat ∧ c.toNat < 0x7f

instance : DecidablePred IsGraphic := fun _ => inferInstanceAs (Decidable (_ ∧ _))

theorem toNat_byteChar (byte : UInt8) : (byteChar byte).toNat = byte.toNat := by
  have hbyte : byte.toNat < 256 := UInt8.toNat_lt byte
  have hvalid : byte.toNat.isValidChar := Or.inl (by omega)
  rw [byteChar, Char.ofNat, dif_pos hvalid]
  rfl

theorem byteChar_injective : Function.Injective byteChar := by
  intro byte byte' h
  have hnat := congrArg Char.toNat h
  rw [toNat_byteChar, toNat_byteChar] at hnat
  exact UInt8.toNat_inj.mp hnat

theorem isGraphic_plain {byte : UInt8} (h : isPlain byte = true) : IsGraphic (byteChar byte) := by
  simp only [isPlain, Bool.and_eq_true, decide_eq_true_eq] at h
  rw [IsGraphic, toNat_byteChar]
  exact ⟨UInt8.le_iff_toNat_le.mp h.1.1.1, UInt8.lt_iff_toNat_lt.mp h.1.1.2⟩

theorem isGraphic_octalDigit (n : Nat) : IsGraphic (octalDigit n) := by
  have hdigit : n % 8 < 8 := Nat.mod_lt n (by decide)
  unfold octalDigit
  generalize n % 8 = digit at hdigit
  interval_cases digit <;> decide

/-- A byte is printed as it is, with a letter of its own or with three digits. -/
theorem escapeByte_cases (P : List Char → Prop) (byte : UInt8)
    (hplain : isPlain byte = true → P [byteChar byte])
    (hmnemonic : ∀ c, IsGraphic c → P ['\\', c])
    (hoctal : ∀ a b c, P ['\\', octalDigit a, octalDigit b, octalDigit c]) :
    P (escapeByte byte) := by
  unfold escapeByte
  refine iteInduction hplain fun _ => ?_
  iterate 9 refine iteInduction (fun _ => hmnemonic _ (by decide)) fun _ => ?_
  exact hoctal _ _ _

theorem isGraphic_escapeByte {byte : UInt8} {c : Char} (h : c ∈ escapeByte byte) :
    IsGraphic c := by
  have hbackslash : IsGraphic '\\' := by decide
  have hall : ∀ c ∈ escapeByte byte, IsGraphic c := by
    apply escapeByte_cases (fun chars => ∀ c ∈ chars, IsGraphic c) byte
    · intro hplain
      simpa using isGraphic_plain hplain
    · intro c hc
      simp [hbackslash, hc]
    · intro a b c
      simp [hbackslash, isGraphic_octalDigit]
  exact hall c h

theorem isGraphic_printName {bytes : List UInt8} {c : Char} (h : c ∈ printName bytes) :
    IsGraphic c := by
  unfold printName at h
  by_cases hplain : bytes.all isPlain = true
  · rw [if_pos hplain] at h
    obtain ⟨byte, hbyte, rfl⟩ := List.mem_map.mp h
    exact isGraphic_plain (List.all_eq_true.mp hplain byte hbyte)
  · rw [if_neg hplain] at h
    simp only [List.cons_append, List.mem_cons, List.mem_append, List.mem_flatMap,
      List.not_mem_nil, or_false] at h
    rcases h with rfl | ⟨byte, -, hc⟩ | rfl
    · decide
    · exact isGraphic_escapeByte hc
    · decide

theorem length_escapeByte (byte : UInt8) : 0 < (escapeByte byte).length := by
  apply escapeByte_cases (0 < ·.length) byte <;> simp

theorem length_le_flatMap (bytes : List UInt8) :
    bytes.length ≤ (bytes.flatMap escapeByte).length := by
  induction bytes with
  | nil => simp
  | cons byte bytes ih =>
    have hone := length_escapeByte byte
    rw [List.flatMap_cons, List.length_append, List.length_cons]
    omega

theorem IsGraphic.utf8Size {c : Char} (h : IsGraphic c) : c.utf8Size = 1 := by
  rw [Char.utf8Size_eq_one_iff]
  apply UInt32.le_iff_toNat_le.mpr
  have hvalue : c.val.toNat < 0x7f := h.2
  exact hvalue.le

/-- The bytes of a path of a list, which are what git is given. -/
def pathBytes (path : String) : List UInt8 := path.toUTF8.data.toList

theorem pathBytes_ofList {chars : List Char} (h : ∀ c ∈ chars, IsGraphic c) :
    pathBytes (String.ofList chars) = chars.map Char.toUInt8 :=
  toUTF8_ofList fun c hc => (h c hc).utf8Size

theorem toUInt8_byteChar (byte : UInt8) : (byteChar byte).toUInt8 = byte := by
  apply UInt8.toNat_inj.mp
  have hbyte : byte.toNat < 256 := UInt8.toNat_lt byte
  have hchar : (byteChar byte).toUInt8.toNat = (byteChar byte).toNat % 256 := rfl
  rw [hchar, toNat_byteChar, Nat.mod_eq_of_lt hbyte]

/-- A name is printed as it is just where it is plain; in quotes it is longer. -/
theorem pathBytes_printName (bytes : List UInt8) :
    pathBytes (String.ofList (printName bytes)) = bytes ↔ bytes.all isPlain = true := by
  rw [pathBytes_ofList fun c => isGraphic_printName]
  unfold printName
  by_cases hplain : bytes.all isPlain = true
  · rw [if_pos hplain, List.map_map]
    refine iff_of_true ?_ hplain
    refine (List.map_congr_left fun byte _ => ?_).trans (List.map_id bytes)
    exact toUInt8_byteChar byte
  · rw [if_neg hplain]
    refine iff_of_false (fun heq => ?_) hplain
    have hlength := congrArg List.length heq
    have hmore := length_le_flatMap bytes
    rw [List.length_map, List.cons_append, List.length_cons, List.length_append] at hlength
    simp only [List.length_cons, List.length_nil] at hlength
    omega

/-- The name of a file, from the directory the status is of. -/
structure GitName where
  bytes : List UInt8
  ne_nil : bytes ≠ []
  noNul : 0 ∉ bytes
  relative : bytes.head? ≠ some 0x2f

/-- A change under the actual names of its files. -/
inductive StatusChange where
  | changed (x y : StatusCode) (differs : x ≠ .unmodified ∨ y ≠ .unmodified)
      (fields : FixedFields 6) (name : GitName)
  | renamed (x y : StatusCode) (differs : x ≠ .unmodified ∨ y ≠ .unmodified)
      (fields : FixedFields 7) (name origName : GitName)
  | unmerged (x y : StatusCode) (fields : FixedFields 8) (name : GitName)
  | untracked (name : GitName)

def StatusChange.name : StatusChange → GitName
  | .changed _ _ _ _ name => name
  | .renamed _ _ _ _ name _ => name
  | .unmerged _ _ _ name => name
  | .untracked name => name

def GitName.printed (name : GitName) : PrintedPath where
  text := String.ofList (printName name.bytes)
  noBreak := by
    constructor <;> rw [String.toList_ofList] <;> intro hmem
    · exact absurd (isGraphic_printName hmem) (by decide)
    · exact absurd (isGraphic_printName hmem) (by decide)
  noTab := by
    rw [String.toList_ofList]
    intro hmem
    exact absurd (isGraphic_printName hmem) (by decide)

def StatusChange.entry : StatusChange → StatusEntry
  | .changed x y differs fields name => .changed x y differs fields name.printed
  | .renamed x y differs fields name origName =>
    .renamed x y differs fields name.printed origName.printed
  | .unmerged x y fields name => .unmerged x y fields name.printed
  | .untracked name => .untracked name.printed

def StatusChange.isConflicted : StatusChange → Bool
  | .changed x y .. => isConflictPair x.char y.char
  | .renamed x y .. => isConflictPair x.char y.char
  | .unmerged .. => true
  | .untracked _ => false

/-- The index differs from the last commit. -/
def StatusChange.isStaged : StatusChange → Bool
  | .changed x y .. => !isConflictPair x.char y.char && x ≠ .unmodified
  | .renamed x y .. => !isConflictPair x.char y.char && x ≠ .unmodified
  | _ => false

def StatusChange.isUnstaged : StatusChange → Bool
  | .changed x y .. => !isConflictPair x.char y.char && y ≠ .unmodified
  | .renamed x y .. => !isConflictPair x.char y.char && y ≠ .unmodified
  | _ => false

def StatusChange.isUntracked : StatusChange → Bool
  | .untracked _ => true
  | _ => false

/-- The actual names of the changes of a kind. -/
def actualNames (kind : StatusChange → Bool) (changes : List StatusChange) :
    List (List UInt8) :=
  (changes.filter kind).map (·.name.bytes)

def changesOutput (headers : List StatusHeader) (changes : List StatusChange) : StatusOutput :=
  ⟨headers, changes.map StatusChange.entry⟩

/-- Each list has the actual names of its kind, in the order of the output. -/
structure ListsActualNames (changes : List StatusChange) (r : StatusReport) : Prop where
  staged : r.staged.map pathBytes = actualNames StatusChange.isStaged changes
  unstaged : r.unstaged.map pathBytes = actualNames StatusChange.isUnstaged changes
  untracked : r.untracked.map pathBytes = actualNames StatusChange.isUntracked changes
  conflicted : r.conflicted.map pathBytes = actualNames StatusChange.isConflicted changes

def StatusReport.listed (r : StatusReport) : List String :=
  r.staged ++ r.unstaged ++ r.untracked ++ r.conflicted

/-- `git_ui_stage_blocking`. -/
def gitUiStageArgs (paths : List String) : List String := ["add", "--"] ++ paths

/-- `git_ui_unstage_blocking`. -/
def gitUiUnstageArgs (paths : List String) : List String := ["restore", "--staged", "--"] ++ paths

/-- `git_ui_discard_blocking` asks of each path whether it is tracked. -/
def gitUiDiscardArgs (paths : List String) : List (List String) :=
  paths.map fun path => ["ls-files", "--error-unmatch", "--", path]

/-- Paths of the lists are sent back and get to git as they are. -/
def PassesBack (r : StatusReport) : Prop :=
  ∀ body : GitUiPathsRequest, body.paths ≠ [] → body.paths ⊆ r.listed →
    (gitUiPaths body).map gitUiStageArgs = .ok (["add", "--"] ++ body.paths) ∧
    (gitUiPaths body).map gitUiUnstageArgs = .ok (["restore", "--staged", "--"] ++ body.paths) ∧
    (gitUiPaths body).map gitUiDiscardArgs =
      .ok (body.paths.map fun path => ["ls-files", "--error-unmatch", "--", path])

/-- A name that is printed as it is, is not trimmed, and is not outside of the
directory. -/
structure GitName.IsOrdinary (name : GitName) : Prop where
  plain : name.bytes.all isPlain = true
  noBlankStart : name.bytes.head? ≠ some 0x20
  noBlankEnd : name.bytes.getLast? ≠ some 0x20
  noParent : "..".toList ∉ (name.bytes.map byteChar).splitOn '/'

def oneIf (cond : Bool) (path : String) : List String := if cond then [path] else []

theorem addChange_eq (r : StatusReport) (x y : StatusCode) (path : String) :
    r.addChange x.char y.char path =
      { r with
        staged := r.staged ++ oneIf (!isConflictPair x.char y.char && x ≠ .unmodified) path
        unstaged := r.unstaged ++ oneIf (!isConflictPair x.char y.char && y ≠ .unmodified) path
        conflicted := r.conflicted ++ oneIf (isConflictPair x.char y.char) path } := by
  have hcode (code : StatusCode) : isChange code.char = decide (code ≠ .unmodified) := by
    cases code <;> rfl
  have hone (cond : Bool) (paths : List String) :
      (if cond then paths ++ [path] else paths) = paths ++ oneIf cond path := by
    cases cond
    · exact (List.append_nil paths).symm
    · rfl
  unfold StatusReport.addChange
  cases isConflictPair x.char y.char with
  | true => simp [oneIf]
  | false =>
    rw [if_neg Bool.false_ne_true, hcode, hcode, hone, hone]
    simp [oneIf]

/-- The kind of an entry is that of its change, and its path is the one that is printed. -/
theorem add_entry (r : StatusReport) (change : StatusChange) :
    r.add change.entry =
      { r with
        staged := r.staged ++ oneIf change.isStaged change.name.printed.text
        unstaged := r.unstaged ++ oneIf change.isUnstaged change.name.printed.text
        untracked := r.untracked ++ oneIf change.isUntracked change.name.printed.text
        conflicted := r.conflicted ++ oneIf change.isConflicted change.name.printed.text } := by
  have hnil (paths : List String) (path : String) : paths ++ oneIf false path = paths :=
    List.append_nil paths
  cases change with
  | changed x y differs fields name =>
    refine (addChange_eq r x y name.printed.text).trans ?_
    simp only [StatusChange.isUntracked, hnil]
    rfl
  | renamed x y differs fields name origName =>
    refine (addChange_eq r x y name.printed.text).trans ?_
    simp only [StatusChange.isUntracked, hnil]
    rfl
  | unmerged x y fields name =>
    simp only [StatusChange.isStaged, StatusChange.isUnstaged, StatusChange.isUntracked, hnil]
    rfl
  | untracked name =>
    simp only [StatusChange.isStaged, StatusChange.isUnstaged, StatusChange.isConflicted, hnil]
    rfl

def StatusReport.lists (r : StatusReport) :
    List String × List String × List String × List String :=
  (r.staged, r.unstaged, r.untracked, r.conflicted)

/-- The paths that are printed for the changes of a kind. -/
def printedNames (kind : StatusChange → Bool) (changes : List StatusChange) : List String :=
  (changes.filter kind).map (·.name.printed.text)

theorem printedNames_cons (kind : StatusChange → Bool) (change : StatusChange)
    (changes : List StatusChange) :
    printedNames kind (change :: changes) =
      oneIf (kind change) change.name.printed.text ++ printedNames kind changes := by
  unfold printedNames
  cases hkind : kind change with
  | true => simp [hkind, oneIf]
  | false => simp [hkind, oneIf]

theorem lists_changes (r : StatusReport) (changes : List StatusChange) :
    (((changes.map StatusChange.entry).map StatusEntry.line).foldl readStatusLine r).lists =
      (r.staged ++ printedNames StatusChange.isStaged changes,
        r.unstaged ++ printedNames StatusChange.isUnstaged changes,
        r.untracked ++ printedNames StatusChange.isUntracked changes,
        r.conflicted ++ printedNames StatusChange.isConflicted changes) := by
  induction changes generalizing r with
  | nil => simp [StatusReport.lists, printedNames]
  | cons change changes ih =>
    rw [List.map_cons, List.map_cons, List.foldl_cons, readStatusLine_line, add_entry, ih]
    simp only [printedNames_cons, List.append_assoc]

theorem lists_header (r : StatusReport) (header : StatusHeader) :
    (readStatusLine r header.text).lists = r.lists := by
  unfold readStatusLine
  split
  · rfl
  · split
    · rfl
    · split
      · rfl
      · rw [if_pos header.hash]

theorem lists_headers (r : StatusReport) (headers : List StatusHeader) :
    ((headers.map StatusHeader.text).foldl readStatusLine r).lists = r.lists := by
  induction headers generalizing r with
  | nil => rfl
  | cons header headers ih => rw [List.map_cons, List.foldl_cons, ih, lists_header]

variable (headers : List StatusHeader) (changes : List StatusChange)

theorem lists_readStatus :
    (readStatus (changesOutput headers changes).text).lists =
      (printedNames StatusChange.isStaged changes, printedNames StatusChange.isUnstaged changes,
        printedNames StatusChange.isUntracked changes,
        printedNames StatusChange.isConflicted changes) := by
  have hstart := lists_headers .empty headers
  rw [readStatus, StatusOutput.lines_text, StatusOutput.lines, List.foldl_append, changesOutput,
    lists_changes]
  generalize (headers.map StatusHeader.text).foldl readStatusLine .empty = start at hstart
  obtain ⟨branch, upstream, ahead, behind, staged, unstaged, untracked, conflicted⟩ := start
  obtain ⟨rfl, rfl, rfl, rfl⟩ : staged = [] ∧ unstaged = [] ∧ untracked = [] ∧ conflicted = [] := by
    simpa [StatusReport.lists, StatusReport.empty] using hstart
  rfl

theorem StatusChange.exists_kind (change : StatusChange) :
    change.isStaged = true ∨ change.isUnstaged = true ∨ change.isUntracked = true ∨
      change.isConflicted = true := by
  have hcodes {x y : StatusCode} (differs : x ≠ .unmodified ∨ y ≠ .unmodified) :
      (!isConflictPair x.char y.char && x ≠ .unmodified) = true ∨
        (!isConflictPair x.char y.char && y ≠ .unmodified) = true ∨ false = true ∨
        isConflictPair x.char y.char = true := by
    cases isConflictPair x.char y.char with
    | true => exact .inr (.inr (.inr rfl))
    | false => simpa using differs
  cases change with
  | changed x y differs fields name => exact hcodes differs
  | renamed x y differs fields name origName => exact hcodes differs
  | unmerged x y fields name => exact .inr (.inr (.inr rfl))
  | untracked name => exact .inr (.inr (.inl rfl))

theorem mem_printedNames {kind : StatusChange → Bool} {path : String} :
    path ∈ printedNames kind changes ↔
      ∃ change ∈ changes, kind change = true ∧ change.name.printed.text = path := by
  simp [printedNames, and_assoc]

theorem mem_listed {path : String} :
    path ∈ (readStatus (changesOutput headers changes).text).listed ↔
      ∃ change ∈ changes, change.name.printed.text = path := by
  have hlists := lists_readStatus headers changes
  generalize readStatus (changesOutput headers changes).text = r at hlists ⊢
  obtain ⟨hstaged, hunstaged, huntracked, hconflicted⟩ :
      r.staged = printedNames StatusChange.isStaged changes ∧
      r.unstaged = printedNames StatusChange.isUnstaged changes ∧
      r.untracked = printedNames StatusChange.isUntracked changes ∧
      r.conflicted = printedNames StatusChange.isConflicted changes := by
    simpa [StatusReport.lists] using hlists
  rw [StatusReport.listed, hstaged, hunstaged, huntracked, hconflicted]
  simp only [List.mem_append, mem_printedNames]
  constructor
  · rintro (((h | h) | h) | h) <;> obtain ⟨change, hmem, -, hpath⟩ := h <;>
      exact ⟨change, hmem, hpath⟩
  · rintro ⟨change, hmem, hpath⟩
    rcases change.exists_kind with hkind | hkind | hkind | hkind
    · exact .inl (.inl (.inl ⟨change, hmem, hkind, hpath⟩))
    · exact .inl (.inl (.inr ⟨change, hmem, hkind, hpath⟩))
    · exact .inl (.inr ⟨change, hmem, hkind, hpath⟩)
    · exact .inr ⟨change, hmem, hkind, hpath⟩

theorem map_pathBytes_iff (kind : StatusChange → Bool) :
    (printedNames kind changes).map pathBytes = actualNames kind changes ↔
      ∀ change ∈ changes, kind change = true → change.name.bytes.all isPlain = true := by
  rw [printedNames, actualNames, List.map_map, List.map_inj_left]
  simp only [List.mem_filter, and_imp]
  refine forall_congr' fun change => imp_congr_right fun _ => imp_congr_right fun _ => ?_
  exact pathBytes_printName change.name.bytes

theorem listsActualNames_iff :
    ListsActualNames changes (readStatus (changesOutput headers changes).text) ↔
      ∀ change ∈ changes, change.name.bytes.all isPlain = true := by
  have hlists := lists_readStatus headers changes
  generalize readStatus (changesOutput headers changes).text = r at hlists ⊢
  obtain ⟨hstaged, hunstaged, huntracked, hconflicted⟩ :
      r.staged = printedNames StatusChange.isStaged changes ∧
      r.unstaged = printedNames StatusChange.isUnstaged changes ∧
      r.untracked = printedNames StatusChange.isUntracked changes ∧
      r.conflicted = printedNames StatusChange.isConflicted changes := by
    simpa [StatusReport.lists] using hlists
  constructor
  · rintro ⟨h1, h2, h3, h4⟩ change hmem
    rw [hstaged, map_pathBytes_iff] at h1
    rw [hunstaged, map_pathBytes_iff] at h2
    rw [huntracked, map_pathBytes_iff] at h3
    rw [hconflicted, map_pathBytes_iff] at h4
    rcases change.exists_kind with hkind | hkind | hkind | hkind
    · exact h1 change hmem hkind
    · exact h2 change hmem hkind
    · exact h3 change hmem hkind
    · exact h4 change hmem hkind
  · intro h
    constructor
    · rw [hstaged, map_pathBytes_iff]
      exact fun change hmem _ => h change hmem
    · rw [hunstaged, map_pathBytes_iff]
      exact fun change hmem _ => h change hmem
    · rw [huntracked, map_pathBytes_iff]
      exact fun change hmem _ => h change hmem
    · rw [hconflicted, map_pathBytes_iff]
      exact fun change hmem _ => h change hmem

theorem isWhitespace_graphic {c : Char} (h : IsGraphic c) : isWhitespace c = true ↔ c = ' ' := by
  obtain ⟨hlow, hhigh⟩ := h
  have hblank : c = ' ' ↔ c.toNat = 0x20 := (Char.toNat_inj (d := ' ')).symm
  rw [hblank]
  simp only [isWhitespace, Bool.or_eq_true, Bool.and_eq_true, decide_eq_true_eq, beq_iff_eq]
  omega

theorem blank_end_iff {bytes : List UInt8} (hplain : bytes.all isPlain = true)
    {last : List UInt8 → Option UInt8} {last' : List Char → Option Char}
    (hlast : last' (bytes.map byteChar) = (last bytes).map byteChar)
    (hmem : ∀ byte ∈ last bytes, byte ∈ bytes) :
    (∀ c ∈ last' (bytes.map byteChar), isWhitespace c = false) ↔ last bytes ≠ some 0x20 := by
  rw [hlast]
  cases hbyte : last bytes with
  | none => simp
  | some byte =>
    have hgraphic := isGraphic_plain (List.all_eq_true.mp hplain byte (hmem byte hbyte))
    have hblank : byteChar byte = ' ' ↔ byte = 0x20 :=
      byteChar_injective.eq_iff (b := 0x20)
    simp only [Option.map_some, Option.mem_def, Option.some.injEq, forall_eq', ne_eq]
    rw [← hblank, ← isWhitespace_graphic hgraphic, Bool.not_eq_true]

theorem GitName.printed_plain {name : GitName} (hplain : name.bytes.all isPlain = true) :
    name.printed.text.toList = name.bytes.map byteChar := by
  change (String.ofList (printName name.bytes)).toList = _
  rw [printName, if_pos hplain, String.toList_ofList]

theorem trim_printed_iff {name : GitName} (hplain : name.bytes.all isPlain = true) :
    trim name.printed.text = name.printed.text ↔
      name.bytes.head? ≠ some 0x20 ∧ name.bytes.getLast? ≠ some 0x20 := by
  have htext := congrArg String.ofList (GitName.printed_plain hplain)
  rw [String.ofList_toList] at htext
  rw [htext, trim_eq_self_iff,
    blank_end_iff hplain List.head?_map fun byte => List.mem_of_mem_head?,
    blank_end_iff hplain List.getLast?_map fun byte => List.mem_of_mem_getLast?]

/-- A plain name gets through the check as it is, unless it loses a blank or leads out of
the directory. -/
theorem safeRepoPath_iff {name : GitName} (hplain : name.bytes.all isPlain = true) :
    safeRepoPath name.printed.text = .ok name.printed.text ↔ name.IsOrdinary := by
  have hchars := GitName.printed_plain hplain
  constructor
  · intro h
    simp only [safeRepoPath] at h
    split at h
    · cases h
    · next hfine =>
        have htrim := Except.ok.inj h
        rw [htrim, hchars] at hfine
        simp only [not_or, List.contains_iff_mem] at hfine
        obtain ⟨hstart, hend⟩ := (trim_printed_iff hplain).mp htrim
        exact ⟨hplain, hstart, hend, hfine.2.2.1⟩
  · intro h
    have htrim := (trim_printed_iff hplain).mpr ⟨h.noBlankStart, h.noBlankEnd⟩
    have hne : name.printed.text ≠ "" := by
      intro hempty
      rw [hempty, String.toList_empty, eq_comm, List.map_eq_nil_iff] at hchars
      exact name.ne_nil hchars
    have hslash : (name.bytes.map byteChar).head? ≠ some '/' := by
      intro hfirst
      rw [List.head?_map, Option.map_eq_some_iff] at hfirst
      obtain ⟨byte, hbyte, hchar⟩ := hfirst
      obtain rfl : byte = 0x2f := byteChar_injective hchar
      exact name.relative hbyte
    have hnul : Char.ofNat 0 ∉ name.bytes.map byteChar := by
      intro hmem
      obtain ⟨byte, hbyte, hchar⟩ := List.mem_map.mp hmem
      obtain rfl : byte = 0 := byteChar_injective hchar
      exact name.noNul hbyte
    rw [safeRepoPath, htrim, hchars, if_neg]
    simp only [not_or, List.contains_iff_mem]
    exact ⟨hne, hslash, h.noParent, hnul⟩

theorem mapM_safeRepoPath {paths : List String}
    (h : ∀ path ∈ paths, safeRepoPath path = .ok path) :
    paths.mapM safeRepoPath = .ok paths := by
  induction paths with
  | nil => rfl
  | cons path paths ih =>
    rw [List.forall_mem_cons] at h
    rw [List.mapM_cons, h.1, ih h.2]
    rfl

theorem passesBack_iff (r : StatusReport) :
    PassesBack r ↔ ∀ path ∈ r.listed, safeRepoPath path = .ok path := by
  constructor
  · intro h path hmem
    have hpaths := (h ⟨"", [path], none⟩ (List.cons_ne_nil _ _)
      (List.cons_subset.mpr ⟨hmem, List.nil_subset _⟩)).1
    simp only [gitUiPaths, List.mapM_cons, List.mapM_nil] at hpaths
    cases hpath : safeRepoPath path with
    | error err =>
      rw [hpath] at hpaths
      cases hpaths
    | ok checked =>
      rw [hpath] at hpaths
      have hargs : ["add", "--", checked] = ["add", "--", path] := Except.ok.inj hpaths
      rw [(List.cons.inj (List.cons.inj (List.cons.inj hargs).2).2).1]
  · intro h body hne hsub
    have hpaths : gitUiPaths body = .ok body.paths := by
      rw [gitUiPaths, if_neg hne]
      exact mapM_safeRepoPath fun path hmem => h path (hsub hmem)
    rw [hpaths]
    exact ⟨rfl, rfl, rfl⟩

/-- The lists are the actual names, and they address these files when they are sent back,
just where each name is an ordinary one. -/
theorem statusLists_address_iff :
    (ListsActualNames changes (readStatus (changesOutput headers changes).text) ∧
        PassesBack (readStatus (changesOutput headers changes).text)) ↔
      ∀ change ∈ changes, change.name.IsOrdinary := by
  rw [listsActualNames_iff, passesBack_iff]
  constructor
  · rintro ⟨hplain, hback⟩ change hmem
    have hlisted := (mem_listed headers changes).mpr ⟨change, hmem, rfl⟩
    exact (safeRepoPath_iff (hplain change hmem)).mp (hback _ hlisted)
  · intro h
    refine ⟨fun change hmem => (h change hmem).plain, fun path hpath => ?_⟩
    obtain ⟨change, hmem, rfl⟩ := (mem_listed headers changes).mp hpath
    exact (safeRepoPath_iff (h change hmem).plain).mpr (h change hmem)

/-- `é.txt`. -/
def accentedName : GitName :=
  ⟨[0xc3, 0xa9, 0x2e, 0x74, 0x78, 0x74], by decide, by decide, by decide⟩

/-- A new file of that name is listed with its quotes and its escapes. -/
theorem statusLists_quoted :
    (readStatus (changesOutput [] [.untracked accentedName]).text).untracked =
        ["\"\\303\\251.txt\""] ∧
      ¬ListsActualNames [.untracked accentedName]
        (readStatus (changesOutput [] [.untracked accentedName]).text) := by
  have hread : (readStatus (changesOutput [] [.untracked accentedName]).text).untracked =
      ["\"\\303\\251.txt\""] := by decide +kernel
  refine ⟨hread, fun h => ?_⟩
  have hnames := h.untracked
  rw [hread] at hnames
  exact absurd hnames (by decide +kernel)

end HerdrWebui.Git
