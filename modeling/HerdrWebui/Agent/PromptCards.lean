import HerdrWebui.Data.Runs
import HerdrWebui.Data.Text

/-!
The card of a question dialog (`prompt_cards.rs`), read from the lines at the end of a
pane: the last run of numbered rows as its options, and the last line that reads like a
question as its title. Which kind of dialog it is, is decided by phrases anywhere in the
lines.

A text is the list of its characters. The digits that `\d` stands for are a parameter.
-/

namespace HerdrWebui.Agent

/-- `str::trim`. -/
def trimText (text : List Char) : List Char := (text.dropWhile isWhitespace).rdropWhile isWhitespace

def isBlankLine (line : List Char) : Bool := line.all isWhitespace

structure PromptOption where
  key : List Char
  label : List Char
  deriving DecidableEq

inductive PromptCardKind where
  | options
  | text
  deriving DecidableEq

structure PromptCard where
  kind : PromptCardKind
  title : List Char
  options : List PromptOption
  deriving DecidableEq

/-- What a pattern that ignores case compares a character by: the long s and the sign of the
kelvin are letters to it. -/
def foldCase (c : Char) : Char :=
  if c = Char.ofNat 0x17F then 's' else if c = Char.ofNat 0x212A then 'k' else c.toLower

def hasPhrase (phrases : List String) (text : List Char) : Bool :=
  phrases.any fun phrase => decide (phrase.toList <:+: text.map foldCase)

/-- `FREE_TEXT`. -/
def isFreeText : List Char → Bool :=
  hasPhrase ["enter your response", "type your answer", "enter send"]

/-- `NAV_CANCEL`. -/
def isNavCancel : List Char → Bool := hasPhrase ["esc cancel", "esc dismiss"]

/-- `PERMISSION_WORDS`. -/
def hasPermissionWord : List Char → Bool :=
  hasPhrase ["allow", "approve", "yes", "proceed", "deny", "reject", "no", "cancel"]

/-- `JCODE_CHOOSER`. -/
def isChooser : List Char → Bool :=
  hasPhrase ["1-9 or ↑↓ + enter to choose", "type on your answer", ". your answer"]

/-- `CONFIRM_HINT`. -/
def isConfirmHint : List Char → Bool :=
  hasPhrase
    ["enter confirm", "enter to confirm", "enter select", "enter to select", "enter choose",
      "enter to choose", "enter submit", "enter to submit", "press enter", "return to confirm",
      "return to select"]

/-- The arrows, and `select` behind any blanks. -/
def hasSelectHint : List Char → Bool
  | [] => false
  | c :: rest =>
    (c = '↑' && rest.head? = some '↓' &&
      "select".toList.isPrefixOf ((rest.drop 1).dropWhile isWhitespace)) || hasSelectHint rest

/-- `NAV_HINT`. -/
def isNavHint (text : List Char) : Bool :=
  hasSelectHint text || decide ("↑/↓".toList <:+: text)

/-- What is behind the first place of a phrase. -/
def behindPhrase (phrase : List Char) : List Char → Option (List Char)
  | [] => if phrase = [] then some [] else none
  | c :: rest =>
    if phrase.isPrefixOf (c :: rest) then some ((c :: rest).drop phrase.length)
    else behindPhrase phrase rest

def inOrder : List String → List Char → Bool
  | [], _ => true
  | phrase :: phrases, text => (behindPhrase phrase.toList text).any (inOrder phrases)

/-- `JCODE_VIEWER_HELP`: in one line. -/
def isViewerHelp (text : List Char) : Bool :=
  (text.splitOn '\n').any fun line =>
    inOrder ["a approve", "d deny", "a approve all", "d deny all"] (line.map foldCase)

/-- `JCODE_VIEWER_WAITING`. -/
def isViewerWaiting : List Char → Bool := hasPhrase ["agent is waiting for this decision"]

def stripFront (front : String) (text : List Char) : Option (List Char) :=
  if front.toList.isPrefixOf text then some (text.drop front.toList.length) else none

/-- The number of `JCODE_VIEWER_TITLE` at the front of a text. -/
def pendingAt (decimal : Char → Bool) (text : List Char) : Option (List Char) := do
  let rest ← stripFront "permission" text
  let rest ← stripFront " (" ((stripFront "s" rest).getD rest)
  let digits := rest.takeWhile decimal
  let _ ← stripFront " pending)" (rest.dropWhile decimal)
  if digits = [] then none else some digits

/-- `JCODE_VIEWER_TITLE`. -/
def viewerPending (decimal : Char → Bool) (text : List Char) : Option (List Char) :=
  (text.map foldCase).tails.findSome? (pendingAt decimal)

/-- `OPTION_LINE`. Behind the mark there is a blank and then something, be it a blank. -/
def optionLine (line : List Char) : Option PromptOption :=
  let text := line.dropWhile fun c => c = '>' || isWhitespace c
  let key := text.takeWhile Char.isDigit
  match text.dropWhile Char.isDigit with
  | [] => none
  | mark :: rest =>
    let body := rest.dropWhile isWhitespace
    if key = [] || !(mark = '.' || mark = ')') || rest.takeWhile isWhitespace = [] then none
    else if body = [] then
      if 2 ≤ rest.length && rest.getLast? ≠ some '\n' then some ⟨key, []⟩ else none
    else if '\n' ∈ body then none
    else some ⟨key, trimText body⟩

def isPromptMark (c : Char) : Bool := c = '❯' || c = '›' || c = '➜' || c = '$'

def cleanTitle (raw : List Char) : List Char :=
  let trimmed := (raw.dropWhile fun c => isPromptMark c || c = '?').dropWhile isWhitespace
  trimText (trimmed.rdropWhile (· = '?'))

def isNoiseLine (line : List Char) : Bool :=
  let t := trimText line
  t.isEmpty || (optionLine t).isSome || isNavHint t || isFreeText t ||
    "esc ".toList.isPrefixOf (t.map Char.toLower)

/-- A line of the first pass: it ends with a question mark, or starts with one. -/
def readsLikeQuestion (line : List Char) : Bool :=
  let t := trimText line
  !isNoiseLine t && (t.getLast? = some '?' || "? ".toList.isPrefixOf t)

/-- The least part that question marks and then blanks are behind. -/
def lazyCapture : List Char → Option (List Char)
  | [] => none
  | c :: rest =>
    if c = '\n' then none
    else if (rest.dropWhile (· = '?')).all isWhitespace then some [c]
    else (lazyCapture rest).map (c :: ·)

/-- `QUESTION_LINE`: behind a prompt, or else behind question marks. -/
def questionCapture (line : List Char) : Option (List Char) :=
  let text := line.dropWhile isWhitespace
  let captured :=
    match text with
    | [] => none
    | c :: rest =>
      if isPromptMark c then lazyCapture (rest.dropWhile isWhitespace)
      else if c = '?' then
        let behind := rest.dropWhile (· = '?')
        let body := behind.dropWhile isWhitespace
        if body ≠ [] then if '\n' ∈ body then none else some body
        else if behind = [] && rest ≠ [] then some ['?']
        else none
      else none
  (captured.map trimText).filter (· ≠ [])

def questionTitle (lines : List (List Char)) : List Char :=
  match lines.reverse.find? readsLikeQuestion with
  | some line => cleanTitle (trimText line)
  | none =>
    match lines.reverse.findSome? questionCapture with
    | some title => cleanTitle title
    | none =>
      match lines.find? fun line =>
        !isNoiseLine (trimText line) && decide (3 < (trimText line).length) with
      | some line => cleanTitle (trimText line)
      | none => []

/-- The blanks that patterns and trimming disagree on are spaces. -/
def plainSpace (c : Char) : Char :=
  if c.toNat ∈ [0xA0, 0x85, 0x3000, 0xFEFF, 0x2028, 0x2029] then ' ' else c

def isOption (line : List Char) : Bool := (optionLine line).isSome

def optionsAtTailOrConfirmed (lines : List (List Char)) (options : List PromptOption) : Bool :=
  match options.getLast? with
  | none => false
  | some last =>
    let hasKey (line : List Char) : Bool := (optionLine line).map (·.key) = some last.key
    let below := lines.rtakeWhile fun line => !hasKey line
    lines.any hasKey && (below.any isConfirmHint || below.all isBlankLine)

def permissionsOptions : List PromptOption :=
  [⟨"a".toList, "Approve".toList⟩, ⟨"d".toList, "Deny".toList⟩, ⟨"A".toList, "Approve all".toList⟩,
    ⟨"D".toList, "Deny all".toList⟩]

def titleOr (title : List Char) (other : String) : List Char :=
  if title = [] then other.toList else title

/-- `parse_prompt` after the spaces are made plain. -/
def parsePlain (decimal : Char → Bool) (lines : List (List Char)) : Option PromptCard :=
  let joined := ['\n'].intercalate lines
  let title := questionTitle lines
  let options := ((runs optionLine lines).getLast?).getD []
  if isChooser joined then none
  else if isViewerHelp joined && isViewerWaiting joined then
    let pending := (viewerPending decimal joined).getD ['?']
    some ⟨.options, "jcode permissions (".toList ++ pending ++ " pending)".toList,
      permissionsOptions⟩
  else if isFreeText joined then
    if title = [] then none else some ⟨.text, title, []⟩
  else if isNavHint joined || isNavCancel joined then
    if 2 ≤ options.length then some ⟨.options, titleOr title "Select an option", options⟩ else none
  else if decide (2 ≤ options.length) && hasPermissionWord joined &&
      optionsAtTailOrConfirmed lines options then
    some ⟨.options, titleOr title "Confirm action", options⟩
  else none

def parsePrompt (decimal : Char → Bool) (lines : List (List Char)) : Option PromptCard :=
  if lines = [] then none else parsePlain decimal (lines.map (·.map plainSpace))

theorem trimText_trimText (text : List Char) : trimText (trimText text) = trimText text := by
  have htrim (text : List Char) : trim (String.ofList text) = String.ofList (trimText text) := by
    rw [trim_eq, String.toList_ofList, trimText]
  have h := trim_trim (String.ofList text)
  rw [htrim, htrim] at h
  exact String.ofList_injective h

/-- The selection cursor of a row, or the blanks in its place. -/
inductive RowLead where
  | blanks (n : Nat)
  | arrow
  | pointer
  deriving DecidableEq

def RowLead.chars : RowLead → List Char
  | .blanks n => List.replicate n ' '
  | .arrow => ['>', ' ']
  | .pointer => ['❯', ' ']

/-- A row of a dialog: a number, a point, a space and the label. -/
structure DialogRow where
  lead : RowLead
  key : List Char
  label : List Char
  numbered : key ≠ [] ∧ ∀ c ∈ key, c.isDigit = true
  labelled : label ≠ [] ∧ '\n' ∉ label
  trimmed : trimText label = label

namespace DialogRow

variable (row : DialogRow)

def text : List Char := row.key ++ '.' :: ' ' :: row.label

def line : List Char := row.lead.chars ++ row.text

def option : PromptOption := ⟨row.key, row.label⟩

theorem label_dropWhile : row.label.dropWhile isWhitespace = row.label := by
  have hprefix := List.rdropWhile_prefix isWhitespace (row.label.dropWhile isWhitespace)
  have hsuffix := List.dropWhile_suffix (l := row.label) isWhitespace
  have hlength : (trimText row.label).length = row.label.length := by rw [row.trimmed]
  rw [trimText] at hlength
  exact hsuffix.eq_of_length (le_antisymm hsuffix.length_le (hlength ▸ hprefix.length_le))

theorem exists_text : ∃ c rest, row.text = c :: rest ∧ c.isDigit = true := by
  obtain ⟨c, key, hkey⟩ := List.exists_cons_of_ne_nil row.numbered.1
  refine ⟨c, key ++ '.' :: ' ' :: row.label, ?_, row.numbered.2 c (hkey ▸ List.mem_cons_self)⟩
  rw [text, hkey, List.cons_append]

theorem dropWhile_text {p : Char → Bool} (h : ∀ c, c.isDigit = true → p c = false) :
    row.text.dropWhile p = row.text := by
  obtain ⟨c, rest, htext, hdigit⟩ := row.exists_text
  rw [htext, List.dropWhile_cons, h c hdigit, if_neg Bool.false_ne_true]

theorem optionLine_text {front : List Char}
    (h : ∀ c ∈ front, (decide (c = '>') || isWhitespace c) = true) :
    optionLine (front ++ row.text) = some row.option := by
  have hskipped : (front ++ row.text).dropWhile (fun c => decide (c = '>') || isWhitespace c) =
      row.text := by
    rw [List.dropWhile_append_of_pos h]
    refine row.dropWhile_text fun c hc => ?_
    have hne : c ≠ '>' := by
      rintro rfl
      exact absurd hc (by decide)
    rw [isWhitespace_digit hc, decide_eq_false hne]
    rfl
  have hdigits : ∀ c ∈ row.key, Char.isDigit c = true := row.numbered.2
  have hpoint : ('.' :: ' ' :: row.label).takeWhile Char.isDigit = [] := rfl
  have hkey : row.text.takeWhile Char.isDigit = row.key := by
    rw [text, List.takeWhile_append_of_pos hdigits, hpoint, List.append_nil]
  have hrest : row.text.dropWhile Char.isDigit = '.' :: ' ' :: row.label := by
    rw [text, List.dropWhile_append_of_pos hdigits]
    rfl
  have hbody : (' ' :: row.label).dropWhile isWhitespace = row.label := row.label_dropWhile
  have hgap : (' ' :: row.label).takeWhile isWhitespace ≠ [] := List.cons_ne_nil _ _
  rw [optionLine, hskipped, hkey, hrest]
  dsimp only
  rw [hbody, if_neg (by simp [row.numbered.1, hgap]), if_neg row.labelled.1,
    if_neg row.labelled.2, row.trimmed]
  rfl

theorem optionLine_pointer (h : row.lead = .pointer) : optionLine row.line = none := by
  rw [line, h]
  rfl

theorem lead_skipped (h : row.lead ≠ .pointer) :
    ∀ c ∈ row.lead.chars, (decide (c = '>') || isWhitespace c) = true := by
  intro c hc
  cases hlead : row.lead <;> rw [hlead] at h hc
  case blanks n =>
    obtain rfl := List.eq_of_mem_replicate hc
    decide
  case arrow =>
    rcases List.mem_pair.mp hc with rfl | rfl <;> decide
  case pointer => exact absurd rfl h

theorem optionLine_line (h : row.lead ≠ .pointer) : optionLine row.line = some row.option :=
  row.optionLine_text (row.lead_skipped h)

theorem getLast?_text : ∃ init c, row.text = init ++ [c] ∧ isWhitespace c = false := by
  obtain ⟨init, c, hlabel⟩ := (List.eq_nil_or_concat' row.label).resolve_left row.labelled.1
  refine ⟨row.key ++ '.' :: ' ' :: init, c, ?_, ?_⟩
  · rw [text, hlabel, List.append_assoc, List.cons_append, List.cons_append]
  · by_contra hblank
    have htrimmed := row.trimmed
    have hlength : (trimText row.label).length = row.label.length := by rw [htrimmed]
    rw [trimText, row.label_dropWhile, hlabel,
      List.rdropWhile_concat_pos _ _ _ (Bool.eq_true_of_not_eq_false hblank),
      List.length_append, List.length_singleton] at hlength
    have hprefix := (List.rdropWhile_prefix isWhitespace init).length_le
    omega

theorem trimText_line : trimText row.line = row.lead.chars.dropWhile isWhitespace ++ row.text := by
  have hfront : row.line.dropWhile isWhitespace =
      row.lead.chars.dropWhile isWhitespace ++ row.text := by
    rw [line, List.dropWhile_append]
    split
    · next hempty =>
        rw [List.isEmpty_iff.mp hempty, row.dropWhile_text fun c => isWhitespace_digit]
        rfl
    · rfl
  obtain ⟨init, c, htext, hc⟩ := row.getLast?_text
  rw [trimText, hfront, htext, ← List.append_assoc, List.rdropWhile_concat_neg]
  rw [hc]
  exact Bool.false_ne_true

theorem isNoiseLine_line (h : row.lead ≠ .pointer) : isNoiseLine (trimText row.line) = true := by
  have hoption : optionLine (trimText row.line) = some row.option := by
    rw [row.trimText_line]
    refine row.optionLine_text fun c hc => row.lead_skipped h c ?_
    exact (List.dropWhile_sublist isWhitespace).subset hc
  rw [isNoiseLine, trimText_trimText, hoption]
  simp

theorem readsLikeQuestion_line (h : row.lead ≠ .pointer) : readsLikeQuestion row.line = false := by
  rw [readsLikeQuestion, row.isNoiseLine_line h]
  rfl

end DialogRow

theorem infix_joined {line : List Char} {lines : List (List Char)} (h : line ∈ lines) :
    line <:+: ['\n'].intercalate lines := by
  induction lines with
  | nil => cases h
  | cons first lines ih =>
    cases lines with
    | nil =>
      obtain rfl := List.mem_singleton.mp h
      rw [List.intercalate_singleton]
    | cons next lines =>
      rw [List.intercalate_cons_cons]
      rcases List.mem_cons.mp h with rfl | h
      · exact ⟨[], _, by rw [List.nil_append, List.append_assoc]⟩
      · exact (ih h).trans (List.suffix_append _ _).isInfix

theorem hasPhrase_of_part {phrases : List String} {text text' : List Char} (h : text <:+: text')
    (hphrase : hasPhrase phrases text = true) : hasPhrase phrases text' = true := by
  obtain ⟨phrase, hmem, hfound⟩ := List.any_eq_true.mp hphrase
  refine List.any_eq_true.mpr ⟨phrase, hmem, decide_eq_true ?_⟩
  exact (of_decide_eq_true hfound).trans (h.map foldCase)

theorem hasSelectHint_append {text : List Char} (behind : List Char)
    (h : hasSelectHint text = true) : hasSelectHint (text ++ behind) = true := by
  induction text with
  | nil => cases h
  | cons c rest ih =>
    rw [hasSelectHint, Bool.or_eq_true] at h
    rw [List.cons_append, hasSelectHint, Bool.or_eq_true]
    refine h.imp (fun hhere => ?_) ih
    simp only [Bool.and_eq_true, decide_eq_true_eq, List.isPrefixOf_iff_prefix] at hhere ⊢
    obtain ⟨⟨hup, hdown⟩, hselect⟩ := hhere
    obtain ⟨rest, rfl⟩ : ∃ rest', rest = '↓' :: rest' := by
      cases rest with
      | nil => cases hdown
      | cons d rest =>
        obtain rfl : d = '↓' := Option.some.inj hdown
        exact ⟨rest, rfl⟩
    refine ⟨⟨hup, rfl⟩, ?_⟩
    have hne : (rest.dropWhile isWhitespace).isEmpty = false := by
      by_contra hempty
      rw [Bool.not_eq_false, List.isEmpty_iff] at hempty
      rw [List.drop_one, List.tail_cons, hempty] at hselect
      cases List.prefix_nil.mp hselect
    rw [List.drop_one, List.cons_append, List.tail_cons, List.dropWhile_append, hne,
      if_neg Bool.false_ne_true]
    exact hselect.trans (List.prefix_append _ _)

theorem hasSelectHint_of_part {text text' : List Char} (h : text <:+: text')
    (hhint : hasSelectHint text = true) : hasSelectHint text' = true := by
  obtain ⟨front, behind, rfl⟩ := h
  rw [List.append_assoc]
  induction front with
  | nil => exact hasSelectHint_append behind hhint
  | cons c front ih =>
    rw [List.cons_append, hasSelectHint, ih, Bool.or_true]

theorem isNavHint_of_part {text text' : List Char} (h : text <:+: text')
    (hhint : isNavHint text = true) : isNavHint text' = true := by
  rw [isNavHint, Bool.or_eq_true] at hhint ⊢
  exact hhint.imp (hasSelectHint_of_part h) fun harrows =>
    decide_eq_true ((of_decide_eq_true harrows).trans h)

/-- Older output, a question, a dialog's rows, and what is below them. At most one of the
rows has the cursor that is drawn. -/
structure DialogTail where
  older : List (List Char)
  question : List Char
  rows : List DialogRow
  after : List (List Char)
  asks : (trimText question).getLast? = some '?'
  titled : cleanTitle (trimText question) ≠ []
  plain : isNoiseLine (trimText question) = false
  notRow : optionLine question = none
  many : 2 ≤ rows.length
  words : ∃ row ∈ rows, hasPermissionWord row.label = true
  onePointer : rows.countP (fun row => decide (row.lead = .pointer)) ≤ 1

/-- A hint that confirms, or one for the keys. -/
def IsHint (line : List Char) : Prop :=
  isConfirmHint line = true ∨ isNavHint line = true ∨ isNavCancel line = true

/-- The last line that reads like a question. -/
def lastQuestion (lines : List (List Char)) : Option (List Char) :=
  lines.reverse.find? readsLikeQuestion

theorem questionTitle_eq {lines : List (List Char)} {line : List Char}
    (h : lastQuestion lines = some line) : questionTitle lines = cleanTitle (trimText line) := by
  rw [lastQuestion] at h
  rw [questionTitle, h]

namespace DialogTail

variable (tail : DialogTail)

def lines : List (List Char) :=
  tail.older ++ tail.question :: tail.rows.map DialogRow.line ++ tail.after

def joined : List Char := ['\n'].intercalate tail.lines

/-- The card of the question and of all the rows. -/
def card : PromptCard :=
  ⟨.options, cleanTitle (trimText tail.question), tail.rows.map DialogRow.option⟩

/-- There are hints and blank lines below the rows, and nothing else. -/
def EndsInHints : Prop :=
  ∀ line ∈ tail.after, isBlankLine line = true ∨ IsHint line ∧ optionLine line = none

/-- There is output below the rows, and no hint. -/
def EndsInOutput : Prop :=
  (∃ line ∈ tail.after, isBlankLine line = false) ∧ ∀ line ∈ tail.after, ¬IsHint line

/-- No row has the cursor that is drawn, there is no phrase of another dialog, and the last
line that reads like a question has the text of the question. -/
structure IsRead : Prop where
  noPointer : ∀ row ∈ tail.rows, row.lead ≠ .pointer
  noChooser : isChooser tail.joined = false
  noViewer : (isViewerHelp tail.joined && isViewerWaiting tail.joined) = false
  noFreeText : isFreeText tail.joined = false
  asked (line : List Char) (h : lastQuestion tail.lines = some line) :
    cleanTitle (trimText line) = cleanTitle (trimText tail.question)

variable {tail}

theorem readsLikeQuestion_question : readsLikeQuestion tail.question = true := by
  rw [readsLikeQuestion, tail.plain, tail.asks]
  rfl

theorem exists_lastQuestion : ∃ line, lastQuestion tail.lines = some line := by
  rw [← Option.isSome_iff_exists, lastQuestion, List.find?_isSome]
  exact ⟨tail.question, by simp [lines], readsLikeQuestion_question⟩

theorem optionLine_blank {line : List Char} (h : isBlankLine line = true) :
    optionLine line = none := by
  have hskipped : line.dropWhile (fun c => decide (c = '>') || isWhitespace c) = [] := by
    rw [List.dropWhile_eq_nil_iff]
    intro c hc
    rw [List.all_eq_true.mp h c hc, Bool.or_true]
  rw [optionLine, hskipped]
  rfl

theorem EndsInHints.optionLine (h : tail.EndsInHints) :
    ∀ line ∈ tail.after, optionLine line = none :=
  fun line hline => (h line hline).elim optionLine_blank And.right

theorem isSome_optionLine {rows : List DialogRow} (h : ∀ row ∈ rows, row.lead ≠ .pointer) :
    ∀ line ∈ rows.map DialogRow.line, (Agent.optionLine line).isSome = true := by
  intro line hline
  obtain ⟨row, hrow, rfl⟩ := List.mem_map.mp hline
  rw [row.optionLine_line (h row hrow)]
  rfl

theorem filterMap_optionLine {rows : List DialogRow} (h : ∀ row ∈ rows, row.lead ≠ .pointer) :
    (rows.map DialogRow.line).filterMap Agent.optionLine = rows.map DialogRow.option := by
  rw [List.filterMap_map, ← List.filterMap_eq_map]
  exact List.filterMap_congr fun row hrow => row.optionLine_line (h row hrow)

theorem options_eq (hafter : tail.EndsInHints) (h : ∀ row ∈ tail.rows, row.lead ≠ .pointer) :
    lastRun Agent.optionLine tail.lines = tail.rows.map DialogRow.option := by
  have hne : tail.rows.map DialogRow.line ≠ [] := by
    have hmany := tail.many
    rw [Ne, List.map_eq_nil_iff]
    rintro hnil
    rw [hnil] at hmany
    exact absurd hmany (by decide)
  rw [lines, lastRun_run tail.notRow (isSome_optionLine h) hne hafter.optionLine,
    filterMap_optionLine h]

theorem length_options_lt (hafter : tail.EndsInHints)
    (h : ¬∀ row ∈ tail.rows, row.lead ≠ .pointer) :
    (lastRun Agent.optionLine tail.lines).length < tail.rows.length := by
  obtain ⟨row, hrow, hpointer⟩ : ∃ row ∈ tail.rows, row.lead = .pointer := by
    by_contra hnone
    exact h fun row hrow hlead => hnone ⟨row, hrow, hlead⟩
  obtain ⟨before, behind, hrows⟩ := List.append_of_mem hrow
  have hcount := tail.onePointer
  rw [hrows, List.countP_append, List.countP_cons_of_pos (by simp [hpointer])] at hcount
  have hzero : before.countP (fun row => decide (row.lead = .pointer)) = 0 ∧
      behind.countP (fun row => decide (row.lead = .pointer)) = 0 := by omega
  have hbefore : ∀ row ∈ before, row.lead ≠ .pointer := fun row hrow hlead =>
    List.countP_eq_zero.mp hzero.1 row hrow (decide_eq_true hlead)
  have hbehind : ∀ row ∈ behind, row.lead ≠ .pointer := fun row hrow hlead =>
    List.countP_eq_zero.mp hzero.2 row hrow (decide_eq_true hlead)
  have hlength : tail.rows.length = before.length + (behind.length + 1) := by
    rw [hrows, List.length_append, List.length_cons]
  by_cases hlast : behind = []
  · -- The cursor is on the last row: the rows above it are read.
    have hmany := tail.many
    have hne : before.map DialogRow.line ≠ [] := by
      rw [Ne, List.map_eq_nil_iff]
      intro hnil
      rw [hlast, hnil, List.length_nil] at hlength
      omega
    have hlines : tail.lines =
        tail.older ++ tail.question :: before.map DialogRow.line ++ row.line :: tail.after := by
      rw [lines, hrows, hlast, List.map_append, List.map_cons, List.map_nil]
      simp
    rw [hlines, lastRun_run tail.notRow (isSome_optionLine hbefore) hne
      (List.forall_mem_cons.mpr ⟨row.optionLine_pointer hpointer, hafter.optionLine⟩),
      filterMap_optionLine hbefore, List.length_map, hlength]
    omega
  · -- The rows below the cursor are read.
    have hne : behind.map DialogRow.line ≠ [] := by rwa [Ne, List.map_eq_nil_iff]
    have hlines : tail.lines =
        (tail.older ++ tail.question :: before.map DialogRow.line) ++
          row.line :: behind.map DialogRow.line ++ tail.after := by
      rw [lines, hrows, List.map_append, List.map_cons]
      simp
    rw [hlines, lastRun_run (row.optionLine_pointer hpointer) (isSome_optionLine hbehind) hne
      hafter.optionLine, filterMap_optionLine hbehind, List.length_map, hlength]
    omega

theorem mem_dropWhile {text : List Char} {p : Char → Bool} {c : Char} (h : c ∈ text)
    (hp : p c = false) : c ∈ text.dropWhile p := by
  rw [← List.takeWhile_append_dropWhile (p := p) (l := text)] at h
  refine (List.mem_append.mp h).resolve_left fun htaken => ?_
  rw [List.mem_takeWhile_imp htaken] at hp
  cases hp

theorem mem_rdropWhile {text : List Char} {p : Char → Bool} {c : Char} (h : c ∈ text)
    (hp : p c = false) : c ∈ text.rdropWhile p :=
  List.mem_reverse.mpr (mem_dropWhile (List.mem_reverse.mpr h) hp)

theorem mem_trimText {text : List Char} {c : Char} (h : c ∈ text)
    (hblank : isWhitespace c = false) : c ∈ trimText text :=
  mem_rdropWhile (mem_dropWhile h hblank) hblank

theorem mem_cleanTitle {text : List Char} {c : Char} (h : c ∈ text)
    (hblank : isWhitespace c = false) (hmark : (isPromptMark c || decide (c = '?')) = false) :
    c ∈ cleanTitle text := by
  have hunmarked : c ∈ text.dropWhile fun c => isPromptMark c || c = '?' := mem_dropWhile h hmark
  have hfront := mem_dropWhile hunmarked hblank
  exact mem_trimText (mem_rdropWhile hfront (Bool.or_eq_false_iff.mp hmark).2) hblank

theorem eq_of_foldCase {c : Char} (h : foldCase c = 'e') : c = 'e' ∨ c = 'E' := by
  have hlower : c.toLower = 'e' := by
    rw [foldCase] at h
    split at h
    · cases h
    · split at h
      · cases h
      · exact h
  unfold Char.toLower at hlower
  split at hlower
  · have hval : c.val + 32 = 101 := congrArg Char.val hlower
    have hcapital : c.val = 69 := by
      have hback := congrArg (· - 32) hval
      simpa using hback
    exact .inr (Char.ext hcapital)
  · exact .inl hlower

theorem exists_mem_of_hasPhrase {phrases : List String} {text : List Char}
    (h : hasPhrase phrases text = true) (hphrases : ∀ phrase ∈ phrases, 'e' ∈ phrase.toList) :
    'e' ∈ text ∨ 'E' ∈ text := by
  obtain ⟨phrase, hmem, hfound⟩ := List.any_eq_true.mp h
  have he := (of_decide_eq_true hfound).subset (hphrases phrase hmem)
  obtain ⟨c, hc, hfold⟩ := List.mem_map.mp he
  rcases eq_of_foldCase hfold with rfl | rfl
  · exact .inl hc
  · exact .inr hc

theorem arrow_of_hasSelectHint {text : List Char} (h : hasSelectHint text = true) : '↑' ∈ text := by
  induction text with
  | nil => cases h
  | cons c rest ih =>
    rw [hasSelectHint, Bool.or_eq_true] at h
    rcases h with hhere | hrest
    · simp only [Bool.and_eq_true, decide_eq_true_eq] at hhere
      rw [hhere.1.1]
      exact List.mem_cons_self
    · exact List.mem_cons_of_mem _ (ih hrest)

theorem cleanTitle_hint {line : List Char} (h : IsHint line) : cleanTitle (trimText line) ≠ [] := by
  have hletter : 'e' ∈ line ∨ 'E' ∈ line ∨ '↑' ∈ line := by
    rcases h with hconfirm | hnav | hcancel
    · exact (exists_mem_of_hasPhrase hconfirm (by decide)).imp_right .inl
    · rw [isNavHint, Bool.or_eq_true] at hnav
      rcases hnav with hselect | harrows
      · exact .inr (.inr (arrow_of_hasSelectHint hselect))
      · exact .inr (.inr ((of_decide_eq_true harrows).subset (by decide)))
    · exact (exists_mem_of_hasPhrase hcancel (by decide)).imp_right .inl
  rcases hletter with hc | hc | hc
  · exact List.ne_nil_of_mem (mem_cleanTitle (mem_trimText hc (by decide)) (by decide) (by decide))
  · exact List.ne_nil_of_mem (mem_cleanTitle (mem_trimText hc (by decide)) (by decide) (by decide))
  · exact List.ne_nil_of_mem (mem_cleanTitle (mem_trimText hc (by decide)) (by decide) (by decide))

theorem lastQuestion_eq (h : ∀ row ∈ tail.rows, row.lead ≠ .pointer) :
    lastQuestion tail.lines =
      (tail.after.reverse.find? readsLikeQuestion).or (some tail.question) := by
  have hrows : (tail.rows.map DialogRow.line).reverse.find? readsLikeQuestion = none := by
    rw [List.find?_eq_none]
    intro line hline
    obtain ⟨row, hrow, rfl⟩ := List.mem_map.mp (List.mem_reverse.mp hline)
    rw [row.readsLikeQuestion_line (h row hrow)]
    exact Bool.false_ne_true
  rw [lastQuestion, lines, List.reverse_append, List.find?_append, List.reverse_append,
    List.reverse_cons, List.append_assoc, List.find?_append, hrows, Option.none_or,
    List.singleton_append, List.find?_cons_of_pos readsLikeQuestion_question]

theorem isBlankLine_of_noise {line : List Char} (h : isBlankLine line = true) :
    readsLikeQuestion line = false := by
  have hdropped : line.dropWhile isWhitespace = [] :=
    List.dropWhile_eq_nil_iff.mpr (List.all_eq_true.mp h)
  have hempty : trimText line = [] := by rw [trimText, hdropped, List.rdropWhile_nil]
  rw [readsLikeQuestion, hempty]
  rfl

theorem cleanTitle_lastQuestion (hafter : tail.EndsInHints)
    (h : ∀ row ∈ tail.rows, row.lead ≠ .pointer) {line : List Char}
    (hline : lastQuestion tail.lines = some line) : cleanTitle (trimText line) ≠ [] := by
  rw [lastQuestion_eq h] at hline
  cases hfind : tail.after.reverse.find? readsLikeQuestion with
  | none =>
    rw [hfind, Option.none_or] at hline
    obtain rfl := Option.some.inj hline
    exact tail.titled
  | some hint =>
    rw [hfind, Option.some_or] at hline
    obtain rfl := Option.some.inj hline
    have hreads := List.find?_some hfind
    rcases hafter _ (List.mem_reverse.mp (List.mem_of_find?_eq_some hfind)) with hblank | hhint
    · rw [isBlankLine_of_noise hblank] at hreads
      cases hreads
    · exact cleanTitle_hint hhint.1

theorem hasPermissionWord_joined : hasPermissionWord tail.joined = true := by
  obtain ⟨row, hrow, hword⟩ := tail.words
  have hline : row.label <:+: row.line :=
    ⟨row.lead.chars ++ row.key ++ ['.', ' '], [], by simp [DialogRow.line, DialogRow.text]⟩
  have hmem : row.line ∈ tail.lines := by
    rw [lines]
    simp only [List.mem_append, List.mem_cons, List.mem_map]
    exact .inl (.inr (.inr ⟨row, hrow, rfl⟩))
  exact hasPhrase_of_part (hline.trans (infix_joined hmem)) hword

theorem optionsAtTailOrConfirmed_lines (hafter : tail.EndsInHints)
    (h : ∀ row ∈ tail.rows, row.lead ≠ .pointer)
    (hnav : (isNavHint tail.joined || isNavCancel tail.joined) = false) :
    optionsAtTailOrConfirmed tail.lines (tail.rows.map DialogRow.option) = true := by
  have hmany := tail.many
  obtain ⟨front, last, hrows⟩ : ∃ front last, tail.rows = front ++ [last] :=
    (List.eq_nil_or_concat' tail.rows).resolve_left fun hnil => by
      rw [hnil] at hmany
      exact absurd hmany (by decide)
  have hlast : (tail.rows.map DialogRow.option).getLast? = some last.option := by
    rw [hrows, List.map_append, List.map_singleton, List.getLast?_concat]
  have hkey : optionLine last.line = some last.option :=
    last.optionLine_line (h last (by rw [hrows]; simp))
  have hlines : tail.lines =
      (tail.older ++ tail.question :: front.map DialogRow.line) ++ last.line :: tail.after := by
    rw [lines, hrows, List.map_append, List.map_singleton]
    simp
  have hhasKey : decide ((optionLine last.line).map (·.key) = some last.option.key) = true := by
    rw [hkey]
    exact decide_eq_true rfl
  rw [optionsAtTailOrConfirmed, hlast]
  dsimp only
  rw [hlines, rtakeWhile_append (by rw [hhasKey]; rfl) fun line hline => by
    rw [hafter.optionLine line hline]; rfl]
  rw [Bool.and_eq_true, Bool.or_eq_true]
  refine ⟨List.any_eq_true.mpr ⟨last.line, by simp, hhasKey⟩, ?_⟩
  by_cases hconfirm : tail.after.any isConfirmHint = true
  · exact .inl hconfirm
  · refine .inr (List.all_eq_true.mpr fun line hline => ?_)
    refine (hafter line hline).resolve_right fun hhint => ?_
    have hwithin : line <:+: tail.joined := infix_joined (by rw [hlines]; simp [hline])
    rw [Bool.or_eq_false_iff] at hnav
    rcases hhint.1 with hconfirm' | hkeys | hcancel
    · exact hconfirm (List.any_eq_true.mpr ⟨line, hline, hconfirm'⟩)
    · exact absurd (isNavHint_of_part hwithin hkeys) (Bool.eq_false_iff.mp hnav.1)
    · exact absurd (hasPhrase_of_part hwithin hcancel) (Bool.eq_false_iff.mp hnav.2)

/-- A dialog whose last line is a row, or that has hints below, is read as it is. -/
theorem parsePlain_eq (decimal : Char → Bool) (hafter : tail.EndsInHints)
    (h : ∀ row ∈ tail.rows, row.lead ≠ .pointer) (hchooser : isChooser tail.joined = false)
    (hviewer : (isViewerHelp tail.joined && isViewerWaiting tail.joined) = false)
    (hfree : isFreeText tail.joined = false) :
    parsePlain decimal tail.lines =
      some ⟨.options, questionTitle tail.lines, tail.rows.map DialogRow.option⟩ := by
  have hmany : 2 ≤ (tail.rows.map DialogRow.option).length := by
    rw [List.length_map]
    exact tail.many
  have htitle (other : String) : titleOr (questionTitle tail.lines) other =
      questionTitle tail.lines := by
    obtain ⟨line, hline⟩ := tail.exists_lastQuestion
    rw [questionTitle_eq hline]
    exact if_neg (cleanTitle_lastQuestion hafter h hline)
  rw [parsePlain, getLast?_runs, options_eq hafter h, ← joined, hchooser, hviewer, hfree, htitle,
    htitle]
  dsimp only
  rw [if_neg Bool.false_ne_true, if_neg Bool.false_ne_true, if_neg Bool.false_ne_true]
  cases hnav : isNavHint tail.joined || isNavCancel tail.joined with
  | true => rw [if_pos rfl, if_pos hmany]
  | false =>
    rw [if_neg Bool.false_ne_true, decide_eq_true hmany, hasPermissionWord_joined,
      optionsAtTailOrConfirmed_lines hafter h hnav]
    rfl

theorem parsePlain_card_iff (decimal : Char → Bool) (hafter : tail.EndsInHints) :
    parsePlain decimal tail.lines = some tail.card ↔ tail.IsRead := by
  constructor
  · intro h
    have hmany := tail.many
    by_cases hchooser : isChooser tail.joined = true
    · rw [parsePlain, ← joined, hchooser] at h
      cases h
    rw [Bool.not_eq_true] at hchooser
    by_cases hviewer : (isViewerHelp tail.joined && isViewerWaiting tail.joined) = true
    · -- The keys of the viewer are letters.
      rw [parsePlain, ← joined, hchooser, hviewer] at h
      have hoptions : permissionsOptions = tail.rows.map DialogRow.option :=
        (PromptCard.mk.inj (Option.some.inj h)).2.2
      obtain ⟨row, rows, hrows⟩ := List.exists_cons_of_length_pos (Nat.zero_lt_of_lt hmany)
      rw [hrows, List.map_cons, permissionsOptions] at hoptions
      have hkey : "a".toList = row.key := (PromptOption.mk.inj (List.cons.inj hoptions).1).1
      have hdigit := row.numbered.2 'a' (hkey ▸ by decide)
      exact absurd hdigit (by decide)
    rw [Bool.not_eq_true] at hviewer
    by_cases hfree : isFreeText tail.joined = true
    · rw [parsePlain, ← joined, hchooser, hviewer, hfree] at h
      dsimp only at h
      rw [if_neg Bool.false_ne_true, if_neg Bool.false_ne_true, if_pos rfl] at h
      split at h
      · cases h
      · cases (PromptCard.mk.inj (Option.some.inj h)).1
    rw [Bool.not_eq_true] at hfree
    by_cases hpointer : ∀ row ∈ tail.rows, row.lead ≠ .pointer
    · refine ⟨hpointer, hchooser, hviewer, hfree, fun line hline => ?_⟩
      rw [parsePlain_eq decimal hafter hpointer hchooser hviewer hfree, questionTitle_eq hline] at h
      exact (PromptCard.mk.inj (Option.some.inj h)).2.1
    · -- Some of the rows are not among the options.
      have hshort := length_options_lt hafter hpointer
      have hoptions : lastRun optionLine tail.lines = tail.rows.map DialogRow.option := by
        rw [parsePlain, getLast?_runs, ← joined, hchooser, hviewer, hfree] at h
        dsimp only at h
        rw [if_neg Bool.false_ne_true, if_neg Bool.false_ne_true, if_neg Bool.false_ne_true] at h
        split at h
        · split at h
          · exact (PromptCard.mk.inj (Option.some.inj h)).2.2
          · cases h
        · split at h
          · exact (PromptCard.mk.inj (Option.some.inj h)).2.2
          · cases h
      rw [hoptions, List.length_map] at hshort
      exact absurd hshort (lt_irrefl _)
  · rintro ⟨hpointer, hchooser, hviewer, hfree, hasked⟩
    obtain ⟨line, hline⟩ := tail.exists_lastQuestion
    rw [parsePlain_eq decimal hafter hpointer hchooser hviewer hfree, questionTitle_eq hline,
      hasked line hline]
    rfl

end DialogTail

/-- What is below the last row that is read confirms it, or is blank. -/
def OpenAtEnd (lines : List (List Char)) : Prop :=
  let below := lines.rtakeWhile fun line => !isOption line
  below.any isConfirmHint = true ∨ below.all isBlankLine = true

theorem optionsAtTailOrConfirmed_iff {lines : List (List Char)}
    (h : lastRun optionLine lines ≠ []) :
    optionsAtTailOrConfirmed lines (lastRun optionLine lines) = true ↔ OpenAtEnd lines := by
  have hkept : lines.rdropWhile (fun line => (optionLine line).isNone) ≠ [] := by
    intro hnone
    rw [lastRun, hnone] at h
    exact h rfl
  obtain ⟨front, line, hfront⟩ := (List.eq_nil_or_concat' _).resolve_left hkept
  have hline : (optionLine line).isSome = true := by
    have hlast := List.rdropWhile_last_not (fun line => (optionLine line).isNone) lines hkept
    rw [List.getLast_congr _ (by simp) hfront, List.getLast_concat] at hlast
    exact Option.isSome_iff_ne_none.mpr fun hnone => hlast (by rw [hnone]; rfl)
  obtain ⟨option, hoption⟩ := Option.isSome_iff_exists.mp hline
  have hbelow : ∀ other ∈ lines.rtakeWhile (fun line => (optionLine line).isNone),
      optionLine other = none := by
    intro other hother
    have hnone : (optionLine other).isNone = true :=
      List.mem_rtakeWhile_imp (p := fun line => (optionLine line).isNone) hother
    exact Option.isNone_iff_eq_none.mp hnone
  have hlines : lines = front ++ line :: lines.rtakeWhile fun line => (optionLine line).isNone := by
    have hsplit : lines.rdropWhile (fun line => (optionLine line).isNone) ++
        lines.rtakeWhile (fun line => (optionLine line).isNone) = lines :=
      List.rdropWhile_append_rtakeWhile
    rw [hfront, List.append_assoc, List.singleton_append] at hsplit
    exact hsplit.symm
  have hlast : (lastRun optionLine lines).getLast? = some option := by
    rw [lastRun, hfront, trailingRun_concat_some hoption, List.getLast?_concat]
  have hhasKey : decide ((optionLine line).map (·.key) = some option.key) = true := by
    rw [hoption]
    exact decide_eq_true rfl
  rw [optionsAtTailOrConfirmed, hlast, OpenAtEnd]
  dsimp only
  generalize lines.rtakeWhile (fun line => (optionLine line).isNone) = below at hbelow hlines
  rw [hlines, rtakeWhile_append (by rw [hhasKey]; rfl) fun other hother => by
    rw [hbelow other hother]; rfl]
  rw [rtakeWhile_append (by rw [isOption, hline]; rfl) fun other hother => by
    rw [isOption, hbelow other hother]; rfl]
  rw [Bool.and_eq_true, Bool.or_eq_true]
  exact and_iff_right (List.any_eq_true.mpr ⟨line, by simp, hhasKey⟩)

/-- No card is read: the lines have the phrases of a chooser, or not those of the viewer, and
where an answer is asked for no question goes with it, and where none is, there are not two
rows that a hint for the keys somewhere in the lines, or their end, makes a dialog. -/
def StaysClosed (lines : List (List Char)) : Prop :=
  let joined := ['\n'].intercalate lines
  isChooser joined = true ∨
    (isViewerHelp joined && isViewerWaiting joined) = false ∧
      if isFreeText joined = true then
        ∀ line, lastQuestion lines = some line → cleanTitle (trimText line) = []
      else
        ¬(2 ≤ (lastRun optionLine lines).length ∧
          (isNavHint joined = true ∨ isNavCancel joined = true ∨ OpenAtEnd lines))

theorem DialogTail.parsePlain_none_iff (decimal : Char → Bool) (tail : DialogTail) :
    parsePlain decimal tail.lines = none ↔ StaysClosed tail.lines := by
  have hwords : hasPermissionWord (['\n'].intercalate tail.lines) = true :=
    hasPermissionWord_joined
  obtain ⟨line, hline⟩ := tail.exists_lastQuestion
  rw [parsePlain, getLast?_runs, hwords, questionTitle_eq hline, StaysClosed]
  dsimp only
  cases isChooser (['\n'].intercalate tail.lines) with
  | true => simp
  | false =>
    cases isViewerHelp (['\n'].intercalate tail.lines) &&
        isViewerWaiting (['\n'].intercalate tail.lines) with
    | true => simp
    | false =>
      cases isFreeText (['\n'].intercalate tail.lines) with
      | true =>
        simp [hline]
      | false =>
        by_cases hmany : 2 ≤ (lastRun optionLine tail.lines).length
        · have hne : lastRun optionLine tail.lines ≠ [] := by
            rintro hnil
            rw [hnil] at hmany
            exact absurd hmany (by decide)
          have hend := optionsAtTailOrConfirmed_iff hne
          by_cases hopen : OpenAtEnd tail.lines
          · cases isNavHint (['\n'].intercalate tail.lines) ||
                isNavCancel (['\n'].intercalate tail.lines) with
            | true => simp [hmany, hopen]
            | false => simp [hmany, hend.mpr hopen, hopen]
          · simp [hmany, Bool.eq_false_iff.mpr (mt hend.mp hopen), hopen]
        · simp [hmany]

/-- The card is that of the newest dialog, whole, and there is none for one that output has
passed, under these conditions and no others. -/
theorem parsePrompt_newest_iff (decimal : Char → Bool) (tail : DialogTail)
    {raw : List (List Char)} (hraw : raw.map (·.map plainSpace) = tail.lines) :
    (tail.EndsInHints → (parsePrompt decimal raw = some tail.card ↔ tail.IsRead)) ∧
      (tail.EndsInOutput → (parsePrompt decimal raw = none ↔ StaysClosed tail.lines)) := by
  have hne : raw ≠ [] := by
    rintro rfl
    have hlength := congrArg List.length hraw
    simp [DialogTail.lines] at hlength
  have hparse : parsePrompt decimal raw = parsePlain decimal tail.lines := by
    rw [parsePrompt, if_neg hne, hraw]
  rw [hparse]
  exact ⟨tail.parsePlain_card_iff decimal, fun _ => tail.parsePlain_none_iff decimal⟩

/-- A question with two rows, the first of which may have a cursor. -/
def commandTail (older : List (List Char)) (lead : RowLead) (after : List (List Char)) :
    DialogTail where
  older := older
  question := "Run this command?".toList
  rows :=
    [⟨lead, ['1'], "Yes".toList, ⟨List.cons_ne_nil _ _, List.forall_mem_singleton.mpr rfl⟩,
        by decide +kernel, by decide +kernel⟩,
      ⟨.blanks 2, ['2'], "No".toList, ⟨List.cons_ne_nil _ _, List.forall_mem_singleton.mpr rfl⟩,
        by decide +kernel, by decide +kernel⟩]
  after := after
  asks := by decide +kernel
  titled := by decide +kernel
  plain := by decide +kernel
  notRow := by decide +kernel
  many := le_rfl
  words :=
    ⟨_, List.mem_cons_self, (by decide +kernel : hasPermissionWord "Yes".toList = true)⟩
  onePointer := by cases lead <;> simp

/-- Under an older dialog, with the arrow as the cursor. -/
theorem parsePrompt_newest_arrow :
    parsePrompt Char.isDigit (commandTail ["Go on?".toList, "1. yes".toList] .arrow [[]]).lines =
      some (commandTail ["Go on?".toList, "1. yes".toList] .arrow [[]]).card := by
  refine ((parsePrompt_newest_iff Char.isDigit
    (commandTail ["Go on?".toList, "1. yes".toList] .arrow [[]]) (by decide +kernel)).1 ?_).mpr ?_
  · exact fun line hline => .inl (by rw [List.mem_singleton.mp hline]; rfl)
  · refine ⟨by decide +kernel, by decide +kernel, by decide +kernel, by decide +kernel, ?_⟩
    intro line hline
    obtain rfl : "Run this command?".toList = line := Option.some.inj ((by decide +kernel :
      some "Run this command?".toList = _).trans hline)
    rfl

/-- The cursor that the dialogs draw hides its row, and a hint of an older dialog keeps one
open that output has passed. -/
theorem parsePrompt_misses :
    (commandTail [] .pointer []).EndsInHints ∧
      parsePrompt Char.isDigit (commandTail [] .pointer []).lines ≠
        some (commandTail [] .pointer []).card ∧
      (commandTail ["esc cancel".toList] (.blanks 0) ["done".toList]).EndsInOutput ∧
      parsePrompt Char.isDigit
        (commandTail ["esc cancel".toList] (.blanks 0) ["done".toList]).lines ≠ none := by
  refine ⟨fun line hline => absurd hline List.not_mem_nil, by decide +kernel,
    ⟨⟨_, List.mem_singleton_self _, by decide +kernel⟩, fun line hline => ?_⟩, by decide +kernel⟩
  rw [List.mem_singleton.mp hline, IsHint]
  decide +kernel

end HerdrWebui.Agent
