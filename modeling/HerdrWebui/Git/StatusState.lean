import HerdrWebui.Data.Text

/-!
What `git status --porcelain=v2 --branch` prints, read twice: in full for the drawer, and
for the tint of the rail. The tint takes the second word of a line for its status codes,
also where it is the name of a file.
-/

namespace HerdrWebui.Git

inductive RepoState where
  | conflicts
  | dirty
  | clean
  deriving DecidableEq, Repr

/-- What is read from the lines; the stashes, the summaries and the URLs come from other
commands. -/
structure StatusReport where
  branch : String
  upstream : String
  ahead : Nat
  behind : Nat
  staged : List String
  unstaged : List String
  untracked : List String
  conflicted : List String
  deriving DecidableEq

def StatusReport.empty : StatusReport := ⟨"", "", 0, 0, [], [], [], []⟩

def isConflictPair (x y : Char) : Bool :=
  x == 'U' || y == 'U' || (x == 'A' && y == 'A') || (x == 'D' && y == 'D')

def isChange (c : Char) : Bool := !(c == ' ' || c == '.')

def StatusReport.addChange (r : StatusReport) (x y : Char) (path : String) : StatusReport :=
  if isConflictPair x y then { r with conflicted := r.conflicted ++ [path] }
  else
    { r with
      staged := if isChange x then r.staged ++ [path] else r.staged
      unstaged := if isChange y then r.unstaged ++ [path] else r.unstaged }

/-- A line of `n` fields, of which the second has the codes and the last the path. -/
def readChange (n : Nat) (r : StatusReport) (line : String) : StatusReport :=
  let fields := splitn n ' ' line
  if fields.length < n then r
  else
    let path := String.ofList ((fields.getD (n - 1) "").toList.takeWhile (· ≠ '\t'))
    match (fields.getD 1 "").toUTF8.data.toList with
    | x :: y :: _ => r.addChange (Char.ofNat x.toNat) (Char.ofNat y.toNat) path
    | _ => r

def readEntryLine (r : StatusReport) (line : String) : StatusReport :=
  match line.toList.head? with
  | some '?' =>
    match stripPrefix "? " line with
    | some path => { r with untracked := r.untracked ++ [path] }
    | none => r
  | some '1' => readChange 9 r line
  | some '2' => readChange 10 r line
  | some 'u' =>
    match (splitn 11 ' ' line)[10]? with
    | some path => { r with conflicted := r.conflicted ++ [path] }
    | none => r
  | _ => r

def readAheadBehind (r : StatusReport) (rest : String) : StatusReport :=
  let parts := splitWhitespace rest
  { r with
    ahead := match parts[0]?.bind (stripPrefix "+") with
      | some value => (parseUsize value).getD 0
      | none => r.ahead
    behind := match parts[1]?.bind (stripPrefix "-") with
      | some value => (parseUsize value).getD 0
      | none => r.behind }

def readStatusLine (r : StatusReport) (line : String) : StatusReport :=
  match stripPrefix "# branch.head " line with
  | some name => { r with branch := name }
  | none =>
    match stripPrefix "# branch.upstream " line with
    | some name => { r with upstream := name }
    | none =>
      match stripPrefix "# branch.ab " line with
      | some rest => readAheadBehind r rest
      | none => if hasPrefix "#" line then r else readEntryLine r line

def readStatus (status : String) : StatusReport :=
  (lines status).foldl readStatusLine .empty

def StatusReport.stateName (r : StatusReport) : RepoState :=
  if !r.conflicted.isEmpty then .conflicts
  else if r.staged.isEmpty && r.unstaged.isEmpty && r.untracked.isEmpty then .clean
  else .dirty

/-- The state of `git_status_blocking`. -/
def gitStatusState (status : String) : RepoState := (readStatus status).stateName

def looksConflicted (xy : String) : Bool :=
  hasPrefix "U" xy || hasSuffix "U" xy || xy == "AA" || xy == "DD"

structure RailFlags where
  conflicted : Bool
  hasChanges : Bool
  deriving DecidableEq

def readRailLine (flags : RailFlags) (line : String) : RailFlags :=
  if hasPrefix "#" line then flags
  else
    match line.toList.head? with
    | some 'u' => ⟨true, true⟩
    | some '?' | some '1' | some '2' =>
      ⟨flags.conflicted || (splitn 3 ' ' line)[1]?.any looksConflicted, true⟩
    | _ => flags

def RailFlags.stateName (flags : RailFlags) : RepoState :=
  if flags.conflicted then .conflicts
  else if flags.hasChanges then .dirty
  else .clean

def railStateFromStatus (status : String) : RepoState :=
  ((lines status).foldl readRailLine ⟨false, false⟩).stateName

inductive StatusCode where
  | unmodified
  | modified
  | typeChanged
  | added
  | deleted
  | renamed
  | copied
  | unmerged
  deriving DecidableEq

def StatusCode.char : StatusCode → Char
  | .unmodified => '.'
  | .modified => 'M'
  | .typeChanged => 'T'
  | .added => 'A'
  | .deleted => 'D'
  | .renamed => 'R'
  | .copied => 'C'
  | .unmerged => 'U'

def codes (x y : StatusCode) : String := String.ofList [x.char, y.char]

/-- The modes, the ids and the like between the codes and the path. -/
structure FixedFields (n : Nat) where
  words : List String
  length : words.length = n
  noBlank : ∀ word ∈ words, ' ' ∉ word.toList
  noBreak : ∀ word ∈ words, Unbroken word

/-- A path as it is printed: a name with a control character is quoted. -/
structure PrintedPath where
  text : String
  noBreak : Unbroken text
  noTab : '\t' ∉ text.toList

inductive StatusEntry where
  | changed (x y : StatusCode) (differs : x ≠ .unmodified ∨ y ≠ .unmodified)
      (fields : FixedFields 6) (path : PrintedPath)
  | renamed (x y : StatusCode) (differs : x ≠ .unmodified ∨ y ≠ .unmodified)
      (fields : FixedFields 7) (path origPath : PrintedPath)
  | unmerged (x y : StatusCode) (fields : FixedFields 8) (path : PrintedPath)
  | untracked (path : PrintedPath)

def StatusEntry.line : StatusEntry → String
  | .changed x y _ fields path =>
    " ".intercalate ("1" :: codes x y :: fields.words ++ [path.text])
  | .renamed x y _ fields path origPath =>
    " ".intercalate
      ("2" :: codes x y :: fields.words ++ [path.text ++ "\t" ++ origPath.text])
  | .unmerged x y fields path =>
    " ".intercalate ("u" :: codes x y :: fields.words ++ [path.text])
  | .untracked path => "? " ++ path.text

/-- A line about the branch. -/
structure StatusHeader where
  text : String
  hash : hasPrefix "#" text = true
  noBreak : Unbroken text

structure StatusOutput where
  headers : List StatusHeader
  entries : List StatusEntry

def StatusOutput.lines (output : StatusOutput) : List String :=
  output.headers.map StatusHeader.text ++ output.entries.map StatusEntry.line

def StatusOutput.text (output : StatusOutput) : String :=
  String.join (output.lines.map (· ++ "\n"))

/-- Paths that are in conflict, by the kinds and the codes of their entries. -/
def StatusEntry.isConflict : StatusEntry → Bool
  | .changed x y .. => isConflictPair x.char y.char
  | .renamed x y .. => isConflictPair x.char y.char
  | .unmerged .. => true
  | .untracked _ => false

/-- The state of a checkout; the names of files have no part in it. -/
def entriesState (entries : List StatusEntry) : RepoState :=
  if entries.any StatusEntry.isConflict then .conflicts
  else if entries.isEmpty then .clean
  else .dirty

def StatusReport.add (r : StatusReport) : StatusEntry → StatusReport
  | .changed x y _ _ path => r.addChange x.char y.char path.text
  | .renamed x y _ _ path _ => r.addChange x.char y.char path.text
  | .unmerged _ _ _ path => { r with conflicted := r.conflicted ++ [path.text] }
  | .untracked path => { r with untracked := r.untracked ++ [path.text] }

/-- The first word of the name of an untracked file, where there are codes in other
lines. -/
def firstWord (path : PrintedPath) : String :=
  String.ofList (path.text.toList.takeWhile (· ≠ ' '))

/-- The name of an untracked file is taken for the codes of a conflict. -/
def StatusEntry.misread : StatusEntry → Bool
  | .untracked path => looksConflicted (firstWord path)
  | _ => false

theorem codes_bytes (x y : StatusCode) :
    ∃ a b : UInt8, (codes x y).toUTF8.data.toList = [a, b] ∧
      Char.ofNat a.toNat = x.char ∧ Char.ofNat b.toNat = y.char := by
  cases x <;> cases y <;> exact ⟨_, _, rfl, rfl, rfl⟩

theorem looksConflicted_codes (x y : StatusCode) :
    looksConflicted (codes x y) = isConflictPair x.char y.char := by
  cases x <;> cases y <;> rfl

theorem not_mem_codes {c : Char} (h : ∀ code : StatusCode, c ≠ code.char) (x y : StatusCode) :
    c ∉ (codes x y).toList := by
  rw [codes, String.toList_ofList, List.mem_pair, not_or]
  exact ⟨h x, h y⟩

theorem blank_not_mem_codes (x y : StatusCode) : ' ' ∉ (codes x y).toList := by
  refine not_mem_codes (fun code => ?_) x y
  cases code <;> decide

theorem intercalate_toList (mark word : String) (rest : List String) :
    (" ".intercalate (mark :: word :: rest)).toList =
      mark.toList ++ ' ' :: (" ".intercalate (word :: rest)).toList := by
  rw [String.toList_intercalate, String.toList_intercalate, List.map_cons, List.map_cons,
    List.intercalate_cons_cons, List.append_assoc]
  rfl

theorem secondWord {mark line : String} {rest : List Char} (hmark : ' ' ∉ mark.toList)
    (hline : line.toList = mark.toList ++ ' ' :: rest) :
    (splitn 3 ' ' line)[1]? = some (String.ofList (rest.takeWhile (· ≠ ' '))) := by
  rw [splitn, hline, splitnChars_append 1 rest hmark, List.map_cons, List.getElem?_cons_succ,
    ← List.head?_eq_getElem?, List.head?_map, splitnChars_head? ' ' 0 rest]
  rfl

theorem secondWord_codes {mark : String} (hmark : ' ' ∉ mark.toList) (x y : StatusCode)
    {rest : List String} (hrest : rest ≠ []) :
    (splitn 3 ' ' (" ".intercalate (mark :: codes x y :: rest)))[1]? = some (codes x y) := by
  obtain ⟨word, rest, rfl⟩ := List.exists_cons_of_ne_nil hrest
  rw [secondWord hmark (intercalate_toList mark (codes x y) (word :: rest)),
    intercalate_toList (codes x y) word rest]
  have hall : ∀ c ∈ (codes x y).toList, decide (c ≠ ' ') = true := by
    intro c hc
    exact decide_eq_true fun heq => blank_not_mem_codes x y (heq ▸ hc)
  rw [List.takeWhile_append_of_pos hall]
  simp

theorem splitn_codes {n : Nat} {mark : String} (hmark : ' ' ∉ mark.toList) (x y : StatusCode)
    (fields : FixedFields n) (last : String) :
    splitn (n + 3) ' ' (" ".intercalate (mark :: codes x y :: fields.words ++ [last])) =
      mark :: codes x y :: fields.words ++ [last] := by
  have hwords : ∀ word ∈ mark :: codes x y :: fields.words, ' ' ∉ word.toList := by
    intro word hword
    rcases List.mem_cons.mp hword with rfl | hword
    · exact hmark
    rcases List.mem_cons.mp hword with rfl | hword
    · exact blank_not_mem_codes x y
    · exact fields.noBlank word hword
  have hfields := splitn_intercalate last hwords
  rw [List.length_cons, List.length_cons, fields.length] at hfields
  exact hfields

theorem readChange_codes {n : Nat} {mark : String} (hmark : ' ' ∉ mark.toList)
    (r : StatusReport) (x y : StatusCode) (fields : FixedFields n) (last : String) :
    readChange (n + 3) r (" ".intercalate (mark :: codes x y :: fields.words ++ [last])) =
      r.addChange x.char y.char (String.ofList (last.toList.takeWhile (· ≠ '\t'))) := by
  obtain ⟨words, rfl, hblank, hbreak⟩ := fields
  have hfields := splitn_codes hmark x y ⟨words, rfl, hblank, hbreak⟩ last
  have hlength : ¬(mark :: codes x y :: words ++ [last]).length < words.length + 3 := by
    simp
  have hlast : (mark :: codes x y :: words ++ [last]).getD (words.length + 2) "" = last := by
    simp
  obtain ⟨a, b, hbytes, ha, hb⟩ := codes_bytes x y
  rw [readChange, hfields]
  dsimp only
  rw [if_neg hlength, Nat.add_sub_assoc (by decide), hlast, ← ha, ← hb]
  change (match (codes x y).toUTF8.data.toList with
    | x :: y :: _ => r.addChange (Char.ofNat x.toNat) (Char.ofNat y.toNat)
        (String.ofList (last.toList.takeWhile (· ≠ '\t')))
    | _ => r) = _
  rw [hbytes]

theorem splitn_unmerged {mark : String} (hmark : ' ' ∉ mark.toList) (x y : StatusCode)
    (fields : FixedFields 8) (last : String) :
    (splitn 11 ' ' (" ".intercalate (mark :: codes x y :: fields.words ++ [last])))[10]? =
      some last := by
  have hlength : (mark :: codes x y :: fields.words).length = 10 := by
    rw [List.length_cons, List.length_cons, fields.length]
  have hfields := splitn_codes hmark x y fields last
  rw [hfields, List.getElem?_append_right hlength.le, hlength]
  rfl

theorem readStatusLine_of_entry {line : String} {c : Char} {rest : List Char}
    (hline : line.toList = c :: rest) (hc : '#' ≠ c) (r : StatusReport) :
    readStatusLine r line = readEntryLine r line := by
  have hprefix {pre : String} (hpre : pre.toList.head? = some '#') :
      hasPrefix pre line = false := hasPrefix_eq_false hpre hline hc
  rw [readStatusLine, stripPrefix, hprefix (by rfl), stripPrefix, hprefix (by rfl), stripPrefix,
    hprefix (by rfl), hprefix (by rfl)]
  rfl

theorem takeWhile_path (path : PrintedPath) :
    String.ofList (path.text.toList.takeWhile (· ≠ '\t')) = path.text := by
  have hall : ∀ c ∈ path.text.toList, decide (c ≠ '\t') = true := by
    intro c hc
    exact decide_eq_true fun heq => path.noTab (heq ▸ hc)
  rw [List.takeWhile_eq_self_iff.mpr hall, String.ofList_toList]

theorem takeWhile_renamed (path : PrintedPath) (orig : String) :
    String.ofList ((path.text ++ "\t" ++ orig).toList.takeWhile (· ≠ '\t')) = path.text := by
  have hall : ∀ c ∈ path.text.toList, decide (c ≠ '\t') = true := by
    intro c hc
    exact decide_eq_true fun heq => path.noTab (heq ▸ hc)
  rw [String.append_assoc, String.toList_append, List.takeWhile_append_of_pos hall]
  simp

theorem readStatusLine_line (r : StatusReport) (entry : StatusEntry) :
    readStatusLine r entry.line = r.add entry := by
  cases entry with
  | changed x y differs fields path =>
    have hline := intercalate_toList "1" (codes x y) (fields.words ++ [path.text])
    rw [StatusEntry.line, List.cons_append, List.cons_append,
      readStatusLine_of_entry hline (by decide), readEntryLine, hline]
    have hmark : ' ' ∉ "1".toList := by decide
    have hread := readChange_codes hmark r x y fields path.text
    rw [takeWhile_path] at hread
    exact hread
  | renamed x y differs fields path origPath =>
    have hline := intercalate_toList "2" (codes x y)
      (fields.words ++ [path.text ++ "\t" ++ origPath.text])
    rw [StatusEntry.line, List.cons_append, List.cons_append,
      readStatusLine_of_entry hline (by decide), readEntryLine, hline]
    have hmark : ' ' ∉ "2".toList := by decide
    have hread := readChange_codes hmark r x y fields (path.text ++ "\t" ++ origPath.text)
    rw [takeWhile_renamed] at hread
    exact hread
  | unmerged x y fields path =>
    have hline := intercalate_toList "u" (codes x y) (fields.words ++ [path.text])
    rw [StatusEntry.line, List.cons_append, List.cons_append,
      readStatusLine_of_entry hline (by decide), readEntryLine, hline]
    have hmark : ' ' ∉ "u".toList := by decide
    have hread := splitn_unmerged hmark x y fields path.text
    rw [List.cons_append, List.cons_append] at hread
    change (match (splitn 11 ' ' _)[10]? with
      | some path => { r with conflicted := r.conflicted ++ [path] }
      | none => r) = _
    rw [hread]
    rfl
  | untracked path =>
    have hline : (StatusEntry.untracked path).line.toList =
        '?' :: ' ' :: path.text.toList := by
      rw [StatusEntry.line, String.toList_append]
      rfl
    rw [readStatusLine_of_entry hline (by decide), readEntryLine, hline, List.head?_cons,
      StatusEntry.line, stripPrefix_append]
    rfl

theorem readRailLine_of_entry {line : String} {c : Char} {rest : List Char}
    (hline : line.toList = c :: rest) (hc : c ∈ ['?', '1', '2']) (flags : RailFlags) :
    readRailLine flags line =
      ⟨flags.conflicted || (splitn 3 ' ' line)[1]?.any looksConflicted, true⟩ := by
  have hhash : hasPrefix "#" line = false := by
    apply hasPrefix_eq_false rfl hline
    intro heq
    subst heq
    exact absurd hc (by decide)
  rw [readRailLine, hhash, hline]
  simp only [List.mem_cons, List.not_mem_nil, or_false] at hc
  rcases hc with rfl | rfl | rfl
  · rfl
  · rfl
  · rfl

theorem readRailLine_line (flags : RailFlags) (entry : StatusEntry) :
    readRailLine flags entry.line =
      ⟨flags.conflicted || (entry.isConflict || entry.misread), true⟩ := by
  have hrest {words : List String} {last : String} : words ++ [last] ≠ [] :=
    List.append_ne_nil_of_right_ne_nil _ (List.cons_ne_nil _ _)
  cases entry with
  | changed x y differs fields path =>
    have hline := intercalate_toList "1" (codes x y) (fields.words ++ [path.text])
    have hmark : ' ' ∉ "1".toList := by decide
    rw [StatusEntry.line, List.cons_append, List.cons_append,
      readRailLine_of_entry hline (by decide), secondWord_codes hmark x y hrest,
      Option.any_some, looksConflicted_codes]
    simp [StatusEntry.isConflict, StatusEntry.misread]
  | renamed x y differs fields path origPath =>
    have hline := intercalate_toList "2" (codes x y)
      (fields.words ++ [path.text ++ "\t" ++ origPath.text])
    have hmark : ' ' ∉ "2".toList := by decide
    rw [StatusEntry.line, List.cons_append, List.cons_append,
      readRailLine_of_entry hline (by decide), secondWord_codes hmark x y hrest,
      Option.any_some, looksConflicted_codes]
    simp [StatusEntry.isConflict, StatusEntry.misread]
  | unmerged x y fields path =>
    have hline := intercalate_toList "u" (codes x y) (fields.words ++ [path.text])
    have hhash : hasPrefix "#" (" ".intercalate
        ("u" :: codes x y :: (fields.words ++ [path.text]))) = false :=
      hasPrefix_eq_false rfl hline (by decide)
    rw [StatusEntry.line, List.cons_append, List.cons_append, readRailLine, hhash, hline]
    simp [StatusEntry.isConflict]
  | untracked path =>
    have hline : (StatusEntry.untracked path).line.toList =
        "?".toList ++ ' ' :: path.text.toList := by
      rw [StatusEntry.line, String.toList_append]
      rfl
    have hmark : ' ' ∉ "?".toList := by decide
    rw [readRailLine_of_entry hline (by decide), secondWord hmark hline, Option.any_some,
      StatusEntry.isConflict, StatusEntry.misread, Bool.false_or, firstWord]

theorem unbroken_codes (x y : StatusCode) : Unbroken (codes x y) := by
  constructor
  · refine not_mem_codes (fun code => ?_) x y
    cases code <;> decide
  · refine not_mem_codes (fun code => ?_) x y
    cases code <;> decide

theorem unbroken_line_codes {n : Nat} {mark last : String} (hmark : Unbroken mark)
    (x y : StatusCode) (fields : FixedFields n) (hlast : Unbroken last) :
    Unbroken (" ".intercalate (mark :: codes x y :: fields.words ++ [last])) := by
  apply Unbroken.intercalate (by decide)
  intro word hword
  rcases List.mem_append.mp hword with hfront | hend
  · rcases List.mem_cons.mp hfront with rfl | hfront
    · exact hmark
    rcases List.mem_cons.mp hfront with rfl | hfront
    · exact unbroken_codes x y
    · exact fields.noBreak word hfront
  · obtain rfl := List.mem_singleton.mp hend
    exact hlast

theorem StatusEntry.unbroken (entry : StatusEntry) : Unbroken entry.line := by
  cases entry with
  | changed x y differs fields path =>
    exact unbroken_line_codes (by decide) x y fields path.noBreak
  | renamed x y differs fields path origPath =>
    exact unbroken_line_codes (by decide) x y fields
      ((path.noBreak.append (by decide)).append origPath.noBreak)
  | unmerged x y fields path => exact unbroken_line_codes (by decide) x y fields path.noBreak
  | untracked path =>
    have hmark : Unbroken "? " := by decide
    exact hmark.append path.noBreak

theorem StatusOutput.lines_text (output : StatusOutput) :
    HerdrWebui.lines output.text = output.lines := by
  apply lines_join_unbroken
  intro line hline
  rcases List.mem_append.mp hline with hheader | hentry
  · obtain ⟨header, -, rfl⟩ := List.mem_map.mp hheader
    exact header.noBreak
  · obtain ⟨entry, -, rfl⟩ := List.mem_map.mp hentry
    exact entry.unbroken

/-- Whether there are conflicts, and whether there is anything else. -/
def StatusReport.flags (r : StatusReport) : Bool × Bool :=
  (!r.conflicted.isEmpty, !(r.staged.isEmpty && r.unstaged.isEmpty && r.untracked.isEmpty))

theorem isChange_char {x : StatusCode} (h : x ≠ .unmodified) : isChange x.char = true := by
  cases x <;> first | rfl | exact absurd rfl h

theorem flags_addChange (r : StatusReport) {x y : StatusCode}
    (differs : x ≠ .unmodified ∨ y ≠ .unmodified) (path : String) :
    (r.addChange x.char y.char path).flags =
      (r.flags.1 || isConflictPair x.char y.char,
        r.flags.2 || !isConflictPair x.char y.char) := by
  unfold StatusReport.addChange
  split
  · next hconflict => simp [StatusReport.flags, hconflict]
  · next hother =>
      rcases differs with hx | hy
      · simp [StatusReport.flags, hother, isChange_char hx]
      · simp [StatusReport.flags, hother, isChange_char hy]

theorem flags_add (r : StatusReport) (entry : StatusEntry) :
    (r.add entry).flags = (r.flags.1 || entry.isConflict, r.flags.2 || !entry.isConflict) := by
  cases entry with
  | changed x y differs fields path => exact flags_addChange r differs path.text
  | renamed x y differs fields path origPath => exact flags_addChange r differs path.text
  | unmerged x y fields path => simp [StatusReport.flags, StatusReport.add, StatusEntry.isConflict]
  | untracked path => simp [StatusReport.flags, StatusReport.add, StatusEntry.isConflict]

theorem flags_entries (r : StatusReport) (entries : List StatusEntry) :
    ((entries.map StatusEntry.line).foldl readStatusLine r).flags =
      (r.flags.1 || entries.any StatusEntry.isConflict,
        r.flags.2 || entries.any (!·.isConflict)) := by
  induction entries generalizing r with
  | nil => simp
  | cons entry entries ih =>
    rw [List.map_cons, List.foldl_cons, readStatusLine_line, ih, flags_add, List.any_cons,
      List.any_cons, Bool.or_assoc, Bool.or_assoc]

theorem rail_entries (flags : RailFlags) (entries : List StatusEntry) :
    (entries.map StatusEntry.line).foldl readRailLine flags =
      ⟨flags.conflicted || entries.any fun entry => entry.isConflict || entry.misread,
        flags.hasChanges || !entries.isEmpty⟩ := by
  induction entries generalizing flags with
  | nil => simp
  | cons entry entries ih =>
    rw [List.map_cons, List.foldl_cons, readRailLine_line, ih, List.any_cons, Bool.or_assoc]
    simp

theorem rail_headers (flags : RailFlags) (headers : List StatusHeader) :
    (headers.map StatusHeader.text).foldl readRailLine flags = flags := by
  induction headers with
  | nil => rfl
  | cons header headers ih =>
    rw [List.map_cons, List.foldl_cons, readRailLine, if_pos header.hash]
    exact ih

theorem flags_header (r : StatusReport) (header : StatusHeader) :
    (readStatusLine r header.text).flags = r.flags := by
  unfold readStatusLine
  split
  · rfl
  · split
    · rfl
    · split
      · rfl
      · rw [if_pos header.hash]

theorem flags_headers (r : StatusReport) (headers : List StatusHeader) :
    ((headers.map StatusHeader.text).foldl readStatusLine r).flags = r.flags := by
  induction headers generalizing r with
  | nil => rfl
  | cons header headers ih =>
    rw [List.map_cons, List.foldl_cons, ih, flags_header]

theorem stateName_eq (r : StatusReport) :
    r.stateName =
      if r.flags.1 then .conflicts else if r.flags.2 then .dirty else .clean := by
  unfold StatusReport.stateName StatusReport.flags
  cases r.staged.isEmpty && r.unstaged.isEmpty && r.untracked.isEmpty <;> rfl

theorem gitStatusState_eq (output : StatusOutput) :
    gitStatusState output.text = entriesState output.entries := by
  have hflags : (readStatus output.text).flags =
      (output.entries.any StatusEntry.isConflict, output.entries.any (!·.isConflict)) := by
    rw [readStatus, output.lines_text, StatusOutput.lines, List.foldl_append, flags_entries,
      flags_headers]
    rfl
  rw [gitStatusState, stateName_eq, hflags, entriesState]
  dsimp only
  cases hconflict : output.entries.any StatusEntry.isConflict with
  | true => rfl
  | false =>
    have hrest : output.entries.any (!·.isConflict) = !output.entries.isEmpty := by
      cases hentries : output.entries with
      | nil => rfl
      | cons entry entries =>
        rw [hentries, List.any_cons, Bool.or_eq_false_iff] at hconflict
        rw [List.any_cons, hconflict.1]
        rfl
    rw [hrest]
    cases output.entries.isEmpty <;> rfl

theorem railStateFromStatus_eq (output : StatusOutput) :
    railStateFromStatus output.text =
      if output.entries.any fun entry => entry.isConflict || entry.misread then .conflicts
      else if output.entries.isEmpty then .clean
      else .dirty := by
  rw [railStateFromStatus, output.lines_text, StatusOutput.lines, List.foldl_append,
    rail_headers, rail_entries, RailFlags.stateName, Bool.false_or, Bool.false_or]
  cases output.entries.isEmpty <;> rfl

/-- The tint is the state of the full status, and the names of files have no part in it. -/
structure TintAgrees (output : StatusOutput) : Prop where
  status : railStateFromStatus output.text = gitStatusState output.text
  names : railStateFromStatus output.text = entriesState output.entries

theorem misread_eq_true {entry : StatusEntry} (h : entry.misread = true) :
    ∃ path, entry = .untracked path ∧ looksConflicted (firstWord path) = true := by
  cases entry with
  | untracked path => exact ⟨path, rfl, h⟩
  | _ => cases h

/-- The tint agrees exactly if there is a conflict, or no name of an untracked file is
taken for one. -/
theorem tintAgrees_iff (output : StatusOutput) :
    TintAgrees output ↔
      (∃ entry ∈ output.entries, entry.isConflict = true) ∨
        ∀ path, .untracked path ∈ output.entries →
          looksConflicted (firstWord path) = false := by
  have hagrees : TintAgrees output ↔
      railStateFromStatus output.text = entriesState output.entries :=
    ⟨fun h => h.names, fun h => ⟨h.trans (gitStatusState_eq output).symm, h⟩⟩
  rw [hagrees, railStateFromStatus_eq, entriesState]
  by_cases hconflict : ∃ entry ∈ output.entries, entry.isConflict = true
  · have hany : output.entries.any StatusEntry.isConflict = true :=
      List.any_eq_true.mpr hconflict
    have hread : (output.entries.any fun entry => entry.isConflict || entry.misread) = true := by
      obtain ⟨entry, hmem, hentry⟩ := hconflict
      exact List.any_eq_true.mpr ⟨entry, hmem, by rw [hentry, Bool.true_or]⟩
    rw [if_pos hread, if_pos hany]
    exact iff_of_true rfl (.inl hconflict)
  have hnone : ¬output.entries.any StatusEntry.isConflict = true :=
    fun hany => hconflict (List.any_eq_true.mp hany)
  rw [if_neg hnone]
  by_cases hmisread : ∃ entry ∈ output.entries, entry.misread = true
  · obtain ⟨entry, hmem, hentry⟩ := hmisread
    obtain ⟨path, rfl, hlooks⟩ := misread_eq_true hentry
    have hread : (output.entries.any fun entry => entry.isConflict || entry.misread) = true :=
      List.any_eq_true.mpr ⟨_, hmem, by rw [hentry, Bool.or_true]⟩
    have hsome : ¬output.entries.isEmpty = true := by
      rw [List.isEmpty_iff]
      exact List.ne_nil_of_mem hmem
    rw [if_pos hread, if_neg hsome]
    apply iff_of_false (by decide)
    rintro (hreal | hnames)
    · exact hconflict hreal
    · exact Bool.false_ne_true ((hnames path hmem).symm.trans hlooks)
  · have hread : ¬(output.entries.any fun entry => entry.isConflict || entry.misread) = true := by
      intro hany
      obtain ⟨entry, hmem, heither⟩ := List.any_eq_true.mp hany
      rcases Bool.or_eq_true_iff.mp heither with hreal | hname
      · exact hconflict ⟨entry, hmem, hreal⟩
      · exact hmisread ⟨entry, hmem, hname⟩
    rw [if_neg hread]
    refine iff_of_true rfl (.inr fun path hmem => ?_)
    exact Bool.eq_false_iff.mpr fun hlooks => hmisread ⟨_, hmem, hlooks⟩

/-- An untracked file `USAGE.md`. -/
def sampleStatus : StatusOutput :=
  ⟨[⟨"# branch.head main", rfl, by decide⟩], [.untracked ⟨"USAGE.md", by decide, by decide⟩]⟩

/-- The tint has a conflict where the checkout is dirty. -/
theorem sampleStatus_not_agrees :
    railStateFromStatus sampleStatus.text = .conflicts ∧
      gitStatusState sampleStatus.text = .dirty ∧ ¬TintAgrees sampleStatus := by
  have hrail : railStateFromStatus sampleStatus.text = .conflicts :=
    railStateFromStatus_eq sampleStatus
  have hstatus : gitStatusState sampleStatus.text = .dirty := gitStatusState_eq sampleStatus
  refine ⟨hrail, hstatus, fun h => ?_⟩
  exact absurd (hrail.symm.trans (h.status.trans hstatus)) (by decide)

end HerdrWebui.Git
