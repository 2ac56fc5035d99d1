import HerdrWebui.Data.Text

/-!
The screen that a terminal's output leaves, without a column budget: the escape sequences
of the output, and the rows they and the characters between them write. How wide a
character is, is a parameter.
-/

namespace HerdrWebui.Terminal

def isControl (c : Char) : Bool := c.toNat < 0x20 || (0x7F ≤ c.toNat && c.toNat < 0xA0)

/-- What the driver takes off the input at a time. -/
inductive VtToken where
  | csi (sequence : List Char)
  | osc (body : List Char)
  | stringSequence (payload : List Char)
  | escape (next : Option Char)
  | char (ch : Char)
  deriving DecidableEq

def endsCsi (c : Char) : Bool := c.isAlpha || c == '~' || c == '@'

/-- A sequence up to its final byte, and what follows. -/
def takeCsi : List Char → List Char × List Char
  | [] => ([], [])
  | next :: rest =>
    if endsCsi next then ([next], rest) else (next :: (takeCsi rest).1, (takeCsi rest).2)

/-- What is skipped of an OSC sequence, with its terminator, and what follows. -/
def skipOsc (previousEscape : Bool) : List Char → List Char × List Char
  | [] => ([], [])
  | next :: rest =>
    if next = '\x07' ∨ previousEscape ∧ next = '\\' then ([next], rest)
    else (next :: (skipOsc (next == '\x1b') rest).1, (skipOsc (next == '\x1b') rest).2)

/-- The same for the sequences that no BEL ends. -/
def skipStringSequence (previousEscape : Bool) : List Char → List Char × List Char
  | [] => ([], [])
  | next :: rest =>
    if previousEscape ∧ next = '\\' then ([next], rest)
    else (next :: (skipStringSequence (next == '\x1b') rest).1,
      (skipStringSequence (next == '\x1b') rest).2)

def isParam (c : Char) : Bool := 0x30 ≤ c.toNat && c.toNat ≤ 0x3F

theorem endsCsi_of_lt {c : Char} (h : c.toNat < 0x40) : endsCsi c = false := by
  have hvalue : c.val.toNat < 0x40 := h
  have htilde : c ≠ '~' := by
    rintro rfl
    exact absurd h (by decide)
  have hat : c ≠ '@' := by
    rintro rfl
    exact absurd h (by decide)
  unfold endsCsi Char.isAlpha Char.isUpper Char.isLower
  simp only [UInt32.le_iff_toNat_le]
  simp [htilde, hat]
  omega

theorem endsCsi_of_isParam {c : Char} (h : isParam c = true) : endsCsi c = false := by
  simp only [isParam, Bool.and_eq_true, decide_eq_true_eq] at h
  exact endsCsi_of_lt (by omega)

theorem takeCsi_open {chars more : List Char} (h : ∀ c ∈ chars, endsCsi c = false) :
    takeCsi (chars ++ more) = (chars ++ (takeCsi more).1, (takeCsi more).2) := by
  induction chars with
  | nil => rfl
  | cons next rest ih =>
    rw [List.forall_mem_cons] at h
    rw [List.cons_append, takeCsi, h.1, if_neg Bool.false_ne_true, ih h.2]
    rfl

theorem takeCsi_length (chars : List Char) : (takeCsi chars).2.length ≤ chars.length := by
  induction chars with
  | nil => exact le_rfl
  | cons next rest ih =>
    rw [takeCsi]
    split
    · exact Nat.le_succ _
    · exact ih.trans (Nat.le_succ _)

theorem skipOsc_length (previousEscape : Bool) (chars : List Char) :
    (skipOsc previousEscape chars).2.length ≤ chars.length := by
  induction chars generalizing previousEscape with
  | nil => exact le_rfl
  | cons next rest ih =>
    rw [skipOsc]
    split
    · exact Nat.le_succ _
    · exact (ih _).trans (Nat.le_succ _)

theorem skipStringSequence_length (previousEscape : Bool) (chars : List Char) :
    (skipStringSequence previousEscape chars).2.length ≤ chars.length := by
  induction chars generalizing previousEscape with
  | nil => exact le_rfl
  | cons next rest ih =>
    rw [skipStringSequence]
    split
    · exact Nat.le_succ _
    · exact (ih _).trans (Nat.le_succ _)

/-- `vt_drive` as far as it reads the input. -/
def vtTokens : List Char → List VtToken
  | [] => []
  | ch :: rest =>
    if ch = '\x1b' then
      match rest with
      | [] => [.escape none]
      | '[' :: rest => .csi (takeCsi rest).1 :: vtTokens (takeCsi rest).2
      | ']' :: rest => .osc (skipOsc false rest).1 :: vtTokens (skipOsc false rest).2
      | next :: rest =>
        if next ∈ ['P', 'X', '^', '_'] then
          .stringSequence (skipStringSequence false rest).1 ::
            vtTokens (skipStringSequence false rest).2
        else .escape (some next) :: vtTokens rest
    else .char ch :: vtTokens rest
termination_by chars => chars.length
decreasing_by
  · have := takeCsi_length rest
    simp
    omega
  · have := skipOsc_length false rest
    simp
    omega
  · have := skipStringSequence_length false rest
    simp
    omega
  · simp
  · simp

theorem vtTokens_nil : vtTokens [] = [] := by
  rw [vtTokens.eq_def]

theorem vtTokens_char {ch : Char} (h : ch ≠ '\x1b') (rest : List Char) :
    vtTokens (ch :: rest) = .char ch :: vtTokens rest := by
  rw [vtTokens.eq_def]
  exact if_neg h

theorem vtTokens_lone : vtTokens ['\x1b'] = [.escape none] := by
  rw [vtTokens.eq_def]
  rfl

theorem vtTokens_csi (rest : List Char) :
    vtTokens ('\x1b' :: '[' :: rest) = .csi (takeCsi rest).1 :: vtTokens (takeCsi rest).2 := by
  rw [vtTokens.eq_def]
  rfl

theorem vtTokens_osc (rest : List Char) :
    vtTokens ('\x1b' :: ']' :: rest) =
      .osc (skipOsc false rest).1 :: vtTokens (skipOsc false rest).2 := by
  rw [vtTokens.eq_def]
  rfl

theorem vtTokens_string {next : Char} (h : next ∈ ['P', 'X', '^', '_']) (rest : List Char) :
    vtTokens ('\x1b' :: next :: rest) =
      .stringSequence (skipStringSequence false rest).1 ::
        vtTokens (skipStringSequence false rest).2 := by
  rw [vtTokens.eq_def]
  simp only [List.mem_cons, List.not_mem_nil, or_false] at h
  rcases h with rfl | rfl | rfl | rfl <;> rfl

theorem vtTokens_escape {next : Char} (h : next ∉ ['[', ']', 'P', 'X', '^', '_'])
    (rest : List Char) :
    vtTokens ('\x1b' :: next :: rest) = .escape (some next) :: vtTokens rest := by
  simp only [List.mem_cons, List.not_mem_nil, or_false, not_or] at h
  rw [vtTokens.eq_def]
  simp only [if_true]
  split
  · next heq => cases heq
  · next heq => exact absurd (List.cons_eq_cons.mp heq).1 h.1
  · next heq => exact absurd (List.cons_eq_cons.mp heq).1 h.2.1
  · next heq =>
      obtain ⟨rfl, rfl⟩ := List.cons_eq_cons.mp heq
      rw [if_neg]
      simpa using h.2.2

/-- A cell is made of a character and the style of the moment. -/
class VtCell (C : Type) (σ : outParam Type) where
  fromChar : Char → σ → C
  blank : σ → C

instance : VtCell Char Unit where
  fromChar ch _ := ch
  blank _ := ' '

structure VtCore (C σ : Type) where
  lines : List (List C)
  row : Nat
  col : Nat
  style : σ
  maxLines : Nat

def csiFirstParam (params : List Char) : Nat :=
  ((((params.dropWhile (· = '?')).splitOn ';').head?.map String.ofList).bind parseUsize).getD 0

def csiCount (params : List Char) : Nat := max (csiFirstParam params) 1

namespace VtCore

variable {C σ : Type}

def new (style : σ) (maxLines : Nat) : VtCore C σ := ⟨[[]], 0, 0, style, max maxLines 1⟩

def ensureRow (core : VtCore C σ) : VtCore C σ :=
  { core with lines := core.lines ++ List.replicate (core.row + 1 - core.lines.length) [] }

def trimScrollback (core : VtCore C σ) : VtCore C σ :=
  let overflow := core.lines.length - core.maxLines
  { core with lines := core.lines.drop overflow, row := core.row - overflow }

def carriageReturn (core : VtCore C σ) : VtCore C σ := { core with col := 0 }

def newLine (core : VtCore C σ) : VtCore C σ :=
  (ensureRow { core with row := core.row + 1, col := 0 }).trimScrollback

def backspace (core : VtCore C σ) : VtCore C σ := { core with col := core.col - 1 }

def moveCursor (params : List Char) (core : VtCore C σ) : VtCore C σ :=
  let parts := params.splitOn ';'
  let at_ (part : Option (List Char)) : Nat :=
    ((part.map String.ofList).bind parseUsize).getD 1
  (ensureRow { core with row := at_ parts[0]? - 1, col := at_ parts[1]? - 1 }).trimScrollback

def modifyLine (f : List C → List C) (core : VtCore C σ) : VtCore C σ :=
  { core with lines := core.lines.modify core.row f }

variable [VtCell C σ] (width : Char → Option Nat)

def charWidth (ch : Char) : Nat := max ((width ch).getD 1) 1

/-- A cell in a row, with blank ones up to it. -/
def writeCell (col : Nat) (cell blank : C) (line : List C) : List C :=
  let line := line ++ List.replicate (col - line.length) blank
  if col < line.length then line.set col cell else line ++ [cell]

def put (ch : Char) (core : VtCore C σ) : VtCore C σ :=
  let core := core.ensureRow
  let cell := VtCell.fromChar ch core.style
  let written := core.modifyLine (writeCell core.col cell (VtCell.blank core.style))
  { written with col := core.col + charWidth width ch }

/-- At most `fuel` blanks up to a column. -/
def tabGo (nextTab : Nat) : (fuel : Nat) → VtCore C σ → VtCore C σ
  | 0, core => core
  | fuel + 1, core =>
    if core.col < nextTab then tabGo nextTab fuel (core.put width ' ') else core

def tab (core : VtCore C σ) : VtCore C σ :=
  let nextTab := (core.col / 8 + 1) * 8
  core.tabGo width nextTab (nextTab - core.col)

def eraseLine (mode : Nat) (core : VtCore C σ) : VtCore C σ :=
  let core := core.ensureRow
  core.modifyLine fun line =>
    match mode with
    | 1 =>
      let stop := min core.col (line.length - 1)
      (line.take (stop + 1)).map (fun _ => VtCell.blank core.style) ++ line.drop (stop + 1)
    | 2 => []
    | _ => line.take (min core.col line.length)

def eraseDisplay (mode : Nat) (core : VtCore C σ) : VtCore C σ :=
  match mode with
  | 2 | 3 => { core with lines := [[]], row := 0, col := 0 }
  | 1 => { core with lines := core.lines.drop core.row, row := 0 }.eraseLine 1
  | _ =>
    let core := core.eraseLine 0
    { core with lines := core.lines.take (core.row + 1) }

/-- The sequences that move the cursor or erase; the others change nothing. -/
def applyCsi (sequence : List Char) (core : VtCore C σ) : VtCore C σ :=
  match sequence.getLast? with
  | none => core
  | some finalByte =>
    let params := sequence.dropLast
    if finalByte = 'K' then core.eraseLine (csiFirstParam params)
    else if finalByte = 'J' then core.eraseDisplay (csiFirstParam params)
    else if finalByte = 'A' then { core with row := core.row - csiCount params }
    else if finalByte = 'B' then
      (ensureRow { core with row := core.row + csiCount params }).trimScrollback
    else if finalByte = 'C' then { core with col := core.col + csiCount params }
    else if finalByte = 'D' then { core with col := core.col - csiCount params }
    else if finalByte = 'G' then { core with col := csiCount params - 1 }
    else if finalByte = 'H' ∨ finalByte = 'f' then core.moveCursor params
    else core

/-- What the driver does with a token, on a screen that may read sequences of its own. -/
def step (applyCsi : List Char → VtCore C σ → VtCore C σ) (core : VtCore C σ) :
    VtToken → VtCore C σ
  | .csi sequence => applyCsi sequence core
  | .osc _ | .stringSequence _ | .escape _ => core
  | .char ch =>
    if ch = '\r' then core.carriageReturn
    else if ch = '\n' then core.newLine
    else if ch = '\x08' then core.backspace
    else if ch = '\t' then core.tab width
    else if isControl ch then core
    else core.put width ch

def vtDrive (applyCsi : List Char → VtCore C σ → VtCore C σ) (core : VtCore C σ)
    (input : String) : VtCore C σ :=
  (vtTokens input.toList).foldl (step width applyCsi) core

end VtCore

structure TerminalTextOptions where
  maxLines : Nat
  trimEmptyEdges : Bool

def TerminalTextOptions.backendTail : TerminalTextOptions := ⟨400, false⟩

def TerminalTextOptions.tuiTail : TerminalTextOptions := ⟨400, true⟩

def trimEnd (line : List Char) : List Char := line.rdropWhile isWhitespace

section Plain

variable (width : Char → Option Nat) (options : TerminalTextOptions) (input : String)

/-- The rows of the screen before they are made a text. -/
def textScreen : List (List Char) :=
  (VtCore.vtDrive width VtCore.applyCsi (VtCore.new () options.maxLines) input).lines

def terminalTextLossy : String :=
  let text := "\n".intercalate ((textScreen width options input).map fun line =>
    String.ofList (trimEnd line))
  if options.trimEmptyEdges then
    String.ofList ((text.toList.dropWhile (· = '\n')).rdropWhile (· = '\n'))
  else text

end Plain

namespace VtCore

variable {C σ : Type} [VtCell C σ] {width : Char → Option Nat}

end VtCore

def Rows {C : Type} (P : C → Prop) (lines : List (List C)) : Prop :=
  ∀ line ∈ lines, ∀ cell ∈ line, P cell

section Rows

variable {C σ : Type} {P : C → Prop} {core : VtCore C σ}

theorem Rows.sublist {lines lines' : List (List C)} (h : Rows P lines)
    (hsub : ∀ line ∈ lines', line ∈ lines) : Rows P lines' :=
  fun line hline => h line (hsub line hline)

theorem Rows.ensureRow (h : Rows P core.lines) : Rows P core.ensureRow.lines := by
  intro line hline
  rcases List.mem_append.mp hline with hold | hnew
  · exact h line hold
  · rw [List.eq_of_mem_replicate hnew]
    exact fun _ hcell => absurd hcell List.not_mem_nil

theorem Rows.trimScrollback (h : Rows P core.lines) : Rows P core.trimScrollback.lines :=
  h.sublist fun _ => List.mem_of_mem_drop

theorem Rows.modifyLine {f : List C → List C} (h : Rows P core.lines)
    (hf : ∀ line, (∀ cell ∈ line, P cell) → ∀ cell ∈ f line, P cell) :
    Rows P (core.modifyLine f).lines := by
  intro line hline
  obtain ⟨i, hi⟩ := List.mem_iff_getElem?.mp hline
  rw [VtCore.modifyLine, List.getElem?_modify, Option.map_eq_map, Option.map_eq_some_iff] at hi
  obtain ⟨line', hline', rfl⟩ := hi
  have hold := h line' (List.mem_of_getElem? hline')
  split
  · exact hf line' hold
  · exact hold

variable [VtCell C σ] {width : Char → Option Nat}

theorem Rows.put (h : Rows P core.lines) (hblank : ∀ style : σ, P (VtCell.blank style))
    {ch : Char} (hch : ∀ style : σ, P (VtCell.fromChar ch style)) :
    Rows P (core.put width ch).lines := by
  apply h.ensureRow.modifyLine
  intro line hline cell hcell
  unfold VtCore.writeCell at hcell
  dsimp only at hcell
  have hpadded : ∀ cell ∈ line ++ List.replicate (core.ensureRow.col - line.length)
      (VtCell.blank core.ensureRow.style), P cell := by
    intro cell hcell
    rcases List.mem_append.mp hcell with hold | hnew
    · exact hline cell hold
    · rw [List.eq_of_mem_replicate hnew]
      exact hblank _
  split at hcell
  · rcases List.mem_or_eq_of_mem_set hcell with hold | rfl
    · exact hpadded cell hold
    · exact hch _
  · rcases List.mem_append.mp hcell with hold | hnew
    · exact hpadded cell hold
    · rw [List.mem_singleton.mp hnew]
      exact hch _

theorem Rows.eraseLine (h : Rows P core.lines) (hblank : ∀ style : σ, P (VtCell.blank style))
    (mode : Nat) : Rows P (core.eraseLine mode).lines := by
  apply h.ensureRow.modifyLine
  intro line hline cell hcell
  split at hcell
  · rcases List.mem_append.mp hcell with hnew | hold
    · obtain ⟨_, -, rfl⟩ := List.mem_map.mp hnew
      exact hblank _
    · exact hline cell (List.mem_of_mem_drop hold)
  · exact absurd hcell List.not_mem_nil
  · exact hline cell (List.mem_of_mem_take hcell)

theorem Rows.eraseDisplay (h : Rows P core.lines)
    (hblank : ∀ style : σ, P (VtCell.blank style)) (mode : Nat) :
    Rows P (core.eraseDisplay mode).lines := by
  have hempty : Rows P [[]] := by
    intro line hline cell hcell
    rw [List.mem_singleton.mp hline] at hcell
    exact absurd hcell List.not_mem_nil
  unfold VtCore.eraseDisplay
  split
  · exact hempty
  · exact hempty
  · apply Rows.eraseLine _ hblank
    exact h.sublist fun _ => List.mem_of_mem_drop
  · exact (h.eraseLine hblank 0).sublist fun _ => List.mem_of_mem_take

theorem Rows.applyCsi (h : Rows P core.lines) (hblank : ∀ style : σ, P (VtCell.blank style))
    (sequence : List Char) : Rows P (core.applyCsi sequence).lines := by
  unfold VtCore.applyCsi
  split
  · exact h
  · dsimp only
    split
    · exact h.eraseLine hblank _
    split
    · exact h.eraseDisplay hblank _
    split
    · exact h
    split
    · apply Rows.trimScrollback
      apply Rows.ensureRow
      exact h
    split
    · exact h
    split
    · exact h
    split
    · exact h
    split
    · apply Rows.trimScrollback
      apply Rows.ensureRow
      exact h
    · exact h

theorem Rows.tabGo (h : Rows P core.lines) (hblank : ∀ style : σ, P (VtCell.blank style))
    (hspace : ∀ style : σ, P (VtCell.fromChar ' ' style)) (nextTab fuel : Nat) :
    Rows P (core.tabGo width nextTab fuel).lines := by
  induction fuel generalizing core with
  | zero => exact h
  | succ fuel ih =>
    rw [VtCore.tabGo]
    split
    · exact ih (h.put hblank hspace)
    · exact h

theorem Rows.step (h : Rows P core.lines) (hblank : ∀ style : σ, P (VtCell.blank style))
    (hput : ∀ (ch : Char) (style : σ), isControl ch = false → P (VtCell.fromChar ch style))
    (token : VtToken) : Rows P (core.step width VtCore.applyCsi token).lines := by
  cases token with
  | csi sequence => exact h.applyCsi hblank sequence
  | osc body => exact h
  | stringSequence payload => exact h
  | escape next => exact h
  | char ch =>
    unfold VtCore.step
    dsimp only
    split
    · exact h
    split
    · apply Rows.trimScrollback
      apply Rows.ensureRow
      exact h
    split
    · exact h
    split
    · exact h.tabGo hblank (fun style => hput ' ' style (by decide)) _ _
    split
    · exact h
    · next hcontrol => exact h.put hblank fun style => hput ch style (by simpa using hcontrol)

end Rows

/-- The character of a cell is the one it was made of. -/
structure IsText {C σ : Type} [VtCell C σ] (char : C → Char) : Prop where
  fromChar (ch : Char) (style : σ) : char (VtCell.fromChar ch style) = ch
  blank (style : σ) : char (VtCell.blank style) = ' '

def VtCore.chars {C σ : Type} (char : C → Char) (core : VtCore C σ) : VtCore Char Unit :=
  ⟨core.lines.map (List.map char), core.row, core.col, (), core.maxLines⟩

section Chars

variable {C σ : Type} {width : Char → Option Nat} {char : C → Char} (core : VtCore C σ)

theorem chars_ensureRow : core.ensureRow.chars char = (core.chars char).ensureRow := by
  simp [VtCore.ensureRow, VtCore.chars]

theorem chars_trimScrollback :
    core.trimScrollback.chars char = (core.chars char).trimScrollback := by
  simp [VtCore.trimScrollback, VtCore.chars]

theorem chars_moveCursor (params : List Char) :
    (core.moveCursor params).chars char = (core.chars char).moveCursor params := by
  unfold VtCore.moveCursor
  dsimp only
  rw [chars_trimScrollback, chars_ensureRow]
  rfl

theorem chars_modifyLine {f : List C → List C} {f' : List Char → List Char}
    (h : ∀ line, (f line).map char = f' (line.map char)) :
    (core.modifyLine f).chars char = (core.chars char).modifyLine f' := by
  have hlines : (core.lines.modify core.row f).map (List.map char) =
      (core.lines.map (List.map char)).modify core.row f' := by
    apply List.ext_getElem?
    intro i
    rw [List.getElem?_map, List.getElem?_modify, List.getElem?_modify, List.getElem?_map]
    cases core.lines[i]? with
    | none => rfl
    | some line =>
      simp only [Option.map_eq_map, Option.map_some]
      split
      · rw [h]
      · rfl
  unfold VtCore.modifyLine VtCore.chars
  rw [hlines]

variable [VtCell C σ]

theorem chars_put (h : IsText char) (ch : Char) :
    (core.put width ch).chars char = (core.chars char).put width ch := by
  have hwrite (line : List C) (style : σ) :
      (VtCore.writeCell core.col (VtCell.fromChar ch style) (VtCell.blank style) line).map char =
        VtCore.writeCell core.col ch ' ' (line.map char) := by
    unfold VtCore.writeCell
    dsimp only
    rw [List.length_append, List.length_append, List.length_map, List.length_replicate,
      List.length_replicate]
    split
    · rw [List.map_set, List.map_append, List.map_replicate, h.fromChar, h.blank]
    · rw [List.map_append, List.map_append, List.map_replicate, List.map_singleton, h.fromChar,
        h.blank]
  have hline := chars_modifyLine core.ensureRow fun line => hwrite line core.style
  rw [chars_ensureRow] at hline
  exact congrArg (fun written : VtCore Char Unit =>
    { written with col := core.col + VtCore.charWidth width ch }) hline

theorem chars_tabGo (h : IsText char) (nextTab fuel : Nat) :
    (core.tabGo width nextTab fuel).chars char =
      (core.chars char).tabGo width nextTab fuel := by
  induction fuel generalizing core with
  | zero => rfl
  | succ fuel ih =>
    rw [VtCore.tabGo, VtCore.tabGo, apply_ite (VtCore.chars char), ih, chars_put core h]
    rfl

theorem chars_eraseLine (h : IsText char) (mode : Nat) :
    (core.eraseLine mode).chars char = (core.chars char).eraseLine mode := by
  unfold VtCore.eraseLine
  dsimp only
  rw [← chars_ensureRow]
  apply chars_modifyLine
  intro line
  split
  · have hcol : (core.ensureRow.chars char).col = core.ensureRow.col := rfl
    have hblanks : char ∘ (fun _ : C => VtCell.blank core.ensureRow.style) = fun _ => ' ' := by
      funext cell
      exact h.blank _
    rw [hcol, List.map_append, List.length_map, List.map_map, hblanks, ← List.map_take,
      List.map_map, ← List.map_drop]
    rfl
  · rfl
  · simp [VtCore.chars]

theorem chars_eraseDisplay (h : IsText char) (mode : Nat) :
    (core.eraseDisplay mode).chars char = (core.chars char).eraseDisplay mode := by
  unfold VtCore.eraseDisplay
  split
  · rfl
  · rfl
  · rw [chars_eraseLine _ h]
    simp [VtCore.chars]
  · rw [← chars_eraseLine core h]
    simp [VtCore.chars]

theorem chars_applyCsi (h : IsText char) (sequence : List Char) :
    (core.applyCsi sequence).chars char = (core.chars char).applyCsi sequence := by
  unfold VtCore.applyCsi
  split
  · rfl
  · simp only [apply_ite (VtCore.chars char), chars_eraseLine core h, chars_eraseDisplay core h,
      chars_moveCursor, chars_trimScrollback, chars_ensureRow]
    rfl

/-- A token does the same to the characters of a screen and to a screen of characters. -/
theorem chars_step {applyCsi : List Char → VtCore C σ → VtCore C σ} (h : IsText char)
    (hcsi : ∀ sequence (core : VtCore C σ),
      (applyCsi sequence core).chars char = (core.chars char).applyCsi sequence)
    (token : VtToken) :
    (core.step width applyCsi token).chars char =
      (core.chars char).step width VtCore.applyCsi token := by
  cases token with
  | csi sequence => exact hcsi sequence core
  | osc body => rfl
  | stringSequence payload => rfl
  | escape next => rfl
  | char ch =>
    have hnew : core.newLine.chars char = (core.chars char).newLine := by
      unfold VtCore.newLine
      rw [chars_trimScrollback, chars_ensureRow]
      rfl
    have htab : (core.tab width).chars char = (core.chars char).tab width :=
      chars_tabGo core h _ _
    simp only [VtCore.step, apply_ite (VtCore.chars char), hnew, htab, chars_put core h]
    rfl

theorem chars_vtDrive {applyCsi : List Char → VtCore C σ → VtCore C σ} (h : IsText char)
    (hcsi : ∀ sequence (core : VtCore C σ),
      (applyCsi sequence core).chars char = (core.chars char).applyCsi sequence)
    (input : String) :
    (core.vtDrive width applyCsi input).chars char =
      (core.chars char).vtDrive width VtCore.applyCsi input := by
  unfold VtCore.vtDrive
  exact (List.foldl_hom (VtCore.chars char) (fun core token => (chars_step core h hcsi token).symm)).symm

end Chars

theorem textScreen_plain (width : Char → Option Nat) (options : TerminalTextOptions)
    (input : String) :
    Rows (fun ch => isControl ch = false) (textScreen width options input) := by
  have hrun (tokens : List VtToken) (core : VtCore Char Unit)
      (h : Rows (fun ch => isControl ch = false) core.lines) :
      Rows (fun ch => isControl ch = false)
        (tokens.foldl (VtCore.step width VtCore.applyCsi) core).lines := by
    induction tokens generalizing core with
    | nil => exact h
    | cons token tokens ih =>
      apply ih
      exact h.step (fun _ => (by decide : isControl ' ' = false)) (fun _ _ hch => hch) token
  apply hrun
  intro line hline cell hcell
  rw [List.mem_singleton.mp hline] at hcell
  exact absurd hcell List.not_mem_nil

theorem textRows_plain (width : Char → Option Nat) (options : TerminalTextOptions)
    (input : String) :
    ∀ text ∈ (textScreen width options input).map trimEnd, '\n' ∉ text ∧ '\r' ∉ text := by
  intro text htext
  obtain ⟨line, hline, rfl⟩ := List.mem_map.mp htext
  have hcontrol : ∀ c ∈ trimEnd line, isControl c = false := fun c hc =>
    textScreen_plain width options input line hline c ((List.rdropWhile_prefix _ _).subset hc)
  exact ⟨fun hmem => absurd (hcontrol _ hmem) (by decide),
    fun hmem => absurd (hcontrol _ hmem) (by decide)⟩

theorem toList_joinedRows (rows : List (List Char)) :
    ("\n".intercalate (rows.map fun line => String.ofList (trimEnd line))).toList =
      ['\n'].intercalate (rows.map trimEnd) := by
  rw [String.toList_intercalate, List.map_map]
  congr 1
  apply List.map_congr_left
  exact fun line _ => String.toList_ofList

end HerdrWebui.Terminal
