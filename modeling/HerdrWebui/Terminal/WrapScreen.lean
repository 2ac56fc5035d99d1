import HerdrWebui.Terminal.StyledText

/-!
The screen with a column budget, as it is run: sums are those of a machine word and may
overflow, an index may be out of range, and the blanks of a tab are written one by one. Where
nothing of this goes wrong each operation does what it does without a budget, in the row that
the character is wrapped to.
-/

namespace HerdrWebui.Terminal

/-- Why a run has stopped, or that a tab is not done after the blanks it was given. -/
inductive VtFault (C σ : Type) where
  | overflow
  | outOfRange
  | running (core : VtCore C σ)

section Arithmetic

variable {C σ : Type}

def usizeAdd (a b : Nat) : Except (VtFault C σ) Nat :=
  if a + b < 2 ^ 64 then .ok (a + b) else .error .overflow

def usizeMul (a b : Nat) : Except (VtFault C σ) Nat :=
  if a * b < 2 ^ 64 then .ok (a * b) else .error .overflow

end Arithmetic

namespace Wrap

variable {C σ : Type}

/-- A change of the row the cursor is in, which has to be there. -/
def editLine (f : List C → Except (VtFault C σ) (List C)) (core : VtCore C σ) :
    Except (VtFault C σ) (VtCore C σ) :=
  match core.lines[core.row]? with
  | none => .error .outOfRange
  | some line => do
      let line ← f line
      return { core with lines := core.lines.set core.row line }

def newLine (core : VtCore C σ) : Except (VtFault C σ) (VtCore C σ) := do
  let row ← usizeAdd core.row 1
  return (VtCore.ensureRow { core with row, col := 0 }).trimScrollback

variable [VtCell C σ] (width : Char → Option Nat) (maxCols : Nat)

def wrap (chWidth : Nat) (core : VtCore C σ) : Except (VtFault C σ) (VtCore C σ) :=
  if 0 < maxCols then do
    let stop ← usizeAdd core.col chWidth
    if maxCols < stop then newLine core else return core
  else .ok core

def put (ch : Char) (core : VtCore C σ) : Except (VtFault C σ) (VtCore C σ) := do
  let chWidth := VtCore.charWidth width ch
  let core ← wrap maxCols chWidth core
  let core := core.ensureRow
  let cell := VtCell.fromChar ch core.style
  let core ← editLine
    (fun line => .ok (VtCore.writeCell core.col cell (VtCell.blank core.style) line)) core
  let col ← usizeAdd core.col chWidth
  return { core with col }

/-- Blanks up to a column, as far as the fuel goes. -/
def tabGo (nextTab : Nat) : (fuel : Nat) → VtCore C σ → Except (VtFault C σ) (VtCore C σ)
  | 0, core => if core.col < nextTab then .error (.running core) else .ok core
  | fuel + 1, core =>
    if core.col < nextTab then (put width maxCols ' ' core).bind (tabGo nextTab fuel)
    else .ok core

def tab (fuel : Nat) (core : VtCore C σ) : Except (VtFault C σ) (VtCore C σ) := do
  let stop ← usizeAdd (core.col / 8) 1
  let nextTab ← usizeMul stop 8
  tabGo width maxCols nextTab fuel core

def eraseLine (mode : Nat) (core : VtCore C σ) : Except (VtFault C σ) (VtCore C σ) :=
  let core := core.ensureRow
  editLine (fun line =>
    match mode with
    | 1 => do
        let stop ← usizeAdd (min core.col (line.length - 1)) 1
        return (line.take stop).map (fun _ => VtCell.blank core.style) ++ line.drop stop
    | 2 => .ok []
    | _ => .ok (line.take (min core.col line.length))) core

def eraseDisplay (mode : Nat) (core : VtCore C σ) : Except (VtFault C σ) (VtCore C σ) :=
  match mode with
  | 2 | 3 => .ok { core with lines := [[]], row := 0, col := 0 }
  | 1 =>
    eraseLine 1
      { core with lines := core.lines.drop (min core.row core.lines.length), row := 0 }
  | _ => do
      let core ← eraseLine 0 core
      let kept ← usizeAdd core.row 1
      return { core with lines := core.lines.take (min kept core.lines.length) }

def applyCsi (sequence : List Char) (core : VtCore C σ) : Except (VtFault C σ) (VtCore C σ) :=
  match sequence.getLast? with
  | none => .ok core
  | some finalByte =>
    let params := sequence.dropLast
    if finalByte = 'K' then eraseLine (csiFirstParam params) core
    else if finalByte = 'J' then eraseDisplay (csiFirstParam params) core
    else if finalByte = 'A' then .ok { core with row := core.row - csiCount params }
    else if finalByte = 'B' then do
      let row ← usizeAdd core.row (csiCount params)
      return (VtCore.ensureRow { core with row }).trimScrollback
    else if finalByte = 'C' then do
      let col ← usizeAdd core.col (csiCount params)
      return { core with col }
    else if finalByte = 'D' then .ok { core with col := core.col - csiCount params }
    else if finalByte = 'G' then .ok { core with col := csiCount params - 1 }
    else if finalByte = 'H' ∨ finalByte = 'f' then .ok (core.moveCursor params)
    else .ok core

variable (intercept : List Char → Option (σ → σ)) (fuel : Nat)

/-- A screen may take sequences for its own that change the style only. -/
def step (core : VtCore C σ) : VtToken → Except (VtFault C σ) (VtCore C σ)
  | .csi sequence =>
    match intercept sequence with
    | some change => .ok { core with style := change core.style }
    | none => applyCsi sequence core
  | .osc _ | .stringSequence _ | .escape _ => .ok core
  | .char ch =>
    if ch = '\r' then .ok core.carriageReturn
    else if ch = '\n' then newLine core
    else if ch = '\x08' then .ok core.backspace
    else if ch = '\t' then tab width maxCols fuel core
    else if isControl ch then .ok core
    else put width maxCols ch core

/-- Tokens one after the other, each tab with as many blanks as the fuel goes. -/
def run (tokens : List VtToken) (core : VtCore C σ) : Except (VtFault C σ) (VtCore C σ) :=
  tokens.foldlM (step width maxCols intercept fuel) core

def vtDrive (input : String) (core : VtCore C σ) : Except (VtFault C σ) (VtCore C σ) :=
  run width maxCols intercept fuel (vtTokens input.toList) core

end Wrap

/-- The cursor is in a row that is there, and there are no more rows than the limit. The last
two are what a machine can hold. -/
structure Bounded {C σ : Type} (core : VtCore C σ) : Prop where
  row : core.row < core.lines.length
  lines : core.lines.length ≤ core.maxLines
  maxLines : core.maxLines < 2 ^ 64
  cells : ∀ line ∈ core.lines, line.length < 2 ^ 64

theorem ok_bind {ε α β : Type} (a : α) (f : α → Except ε β) : (Except.ok a >>= f) = f a := rfl

theorem error_bind {ε α β : Type} (e : ε) (f : α → Except ε β) :
    (Except.error e >>= f) = .error e := rfl

theorem usizeAdd_of_lt {C σ : Type} {a b : Nat} (h : a + b < 2 ^ 64) :
    usizeAdd a b = (.ok (a + b) : Except (VtFault C σ) Nat) := if_pos h

theorem usizeAdd_of_le {C σ : Type} {a b : Nat} (h : 2 ^ 64 ≤ a + b) :
    usizeAdd a b = (.error .overflow : Except (VtFault C σ) Nat) := if_neg (not_lt.mpr h)

namespace Bounded

variable {C σ : Type} {core : VtCore C σ}

theorem trimScrollback (core : VtCore C σ) (hlimit : 0 < core.maxLines) (hmax : core.maxLines < 2 ^ 64)
    (hcells : ∀ line ∈ core.lines, line.length < 2 ^ 64) :
    Bounded core.ensureRow.trimScrollback := by
  have hlength : core.ensureRow.lines.length =
      core.lines.length + (core.row + 1 - core.lines.length) := by
    rw [VtCore.ensureRow, List.length_append, List.length_replicate]
  have hrow : core.ensureRow.row = core.row := rfl
  have hkept : core.ensureRow.maxLines = core.maxLines := rfl
  refine ⟨?_, ?_, hmax, ?_⟩
  · unfold VtCore.trimScrollback
    dsimp only
    rw [List.length_drop, hlength, hrow, hkept]
    omega
  · unfold VtCore.trimScrollback
    dsimp only
    rw [List.length_drop, hlength, hkept]
    omega
  · intro line hline
    rcases List.mem_append.mp (List.mem_of_mem_drop hline) with hold | hnew
    · exact hcells line hold
    · rw [List.eq_of_mem_replicate hnew]
      simp

theorem ensureRow_eq (h : Bounded core) : core.ensureRow = core := by
  unfold VtCore.ensureRow
  rw [Nat.sub_eq_zero_of_le h.row, List.replicate_zero, List.append_nil]

theorem modifyLine (h : Bounded core) {f : List C → List C}
    (hf : ∀ line ∈ core.lines, (f line).length < 2 ^ 64) : Bounded (core.modifyLine f) := by
  refine ⟨?_, ?_, h.maxLines, ?_⟩
  · rw [VtCore.modifyLine, List.length_modify]
    exact h.row
  · rw [VtCore.modifyLine, List.length_modify]
    exact h.lines
  · intro line hline
    obtain ⟨i, hi⟩ := List.mem_iff_getElem?.mp hline
    rw [VtCore.modifyLine, List.getElem?_modify, Option.map_eq_map,
      Option.map_eq_some_iff] at hi
    obtain ⟨line', hline', rfl⟩ := hi
    have hmem := List.mem_of_getElem? hline'
    split
    · exact hf line' hmem
    · exact h.cells line' hmem

theorem maxLines_pos (h : Bounded core) : 0 < core.maxLines :=
  (Nat.zero_le _).trans_lt (h.row.trans_le h.lines)

theorem newLine (h : Bounded core) : Bounded core.newLine := by
  exact trimScrollback { core with row := core.row + 1, col := 0 } h.maxLines_pos h.maxLines h.cells

theorem moveCursor (h : Bounded core) (params : List Char) : Bounded (core.moveCursor params) := by
  exact trimScrollback { core with row := _, col := _ } h.maxLines_pos h.maxLines h.cells

variable [VtCell C σ] {width : Char → Option Nat}

theorem length_writeCell (col : Nat) (cell blank : C) (line : List C) :
    (VtCore.writeCell col cell blank line).length = max line.length (col + 1) := by
  unfold VtCore.writeCell
  dsimp only
  split
  · next hlt =>
      rw [List.length_append, List.length_replicate] at hlt
      rw [List.length_set, List.length_append, List.length_replicate]
      omega
  · next hge =>
      rw [List.length_append, List.length_replicate] at hge
      rw [List.length_append, List.length_append, List.length_replicate, List.length_singleton]
      omega

theorem put (h : Bounded core) {ch : Char} (hcol : core.col < 2 ^ 64 - 1) :
    Bounded (core.put width ch) := by
  have hwritten : Bounded (core.modifyLine (VtCore.writeCell core.col
      (VtCell.fromChar ch core.style) (VtCell.blank core.style))) := by
    apply h.modifyLine
    intro line hline
    have hcells := h.cells line hline
    rw [length_writeCell]
    omega
  unfold VtCore.put
  rw [h.ensureRow_eq]
  exact ⟨hwritten.row, hwritten.lines, hwritten.maxLines, hwritten.cells⟩

theorem eraseLine (h : Bounded core) (mode : Nat) : Bounded (core.eraseLine mode) := by
  unfold VtCore.eraseLine
  rw [h.ensureRow_eq]
  apply h.modifyLine
  intro line hline
  have hcells := h.cells line hline
  split
  · rw [List.length_append, List.length_map, List.length_take, List.length_drop]
    omega
  · simp
  · rw [List.length_take]
    omega

end Bounded

namespace Wrap

variable {C σ : Type} {core : VtCore C σ}

theorem editLine_eq (h : core.row < core.lines.length) {f : List C → List C}
    {f' : List C → Except (VtFault C σ) (List C)}
    (hf : ∀ line ∈ core.lines, f' line = .ok (f line)) :
    editLine f' core = .ok (core.modifyLine f) := by
  unfold editLine VtCore.modifyLine
  rw [List.getElem?_eq_getElem h]
  dsimp only
  rw [hf _ (List.getElem_mem h), List.modify_eq_set_getElem?, List.getElem?_eq_getElem h]
  rfl

variable (maxCols : Nat)

theorem newLine_eq (h : Bounded core) : newLine core = .ok core.newLine := by
  have hrow := h.row
  have hlines := h.lines
  have hmax := h.maxLines
  unfold newLine
  rw [usizeAdd_of_lt (by omega)]
  rfl

/-- Where a character is written: in the next row if it does not fit in this one. -/
def wrapped (maxCols chWidth : Nat) (core : VtCore C σ) : VtCore C σ :=
  if 0 < maxCols ∧ maxCols < core.col + chWidth then core.newLine else core

theorem wrap_eq (h : Bounded core) {chWidth : Nat} (hcol : core.col + chWidth < 2 ^ 64) :
    wrap maxCols chWidth core = .ok (wrapped maxCols chWidth core) := by
  unfold wrap wrapped
  by_cases hbudget : 0 < maxCols
  · rw [if_pos hbudget, usizeAdd_of_lt hcol, ok_bind]
    by_cases hover : maxCols < core.col + chWidth
    · rw [if_pos hover, if_pos ⟨hbudget, hover⟩, newLine_eq h]
    · rw [if_neg hover, if_neg fun hboth => hover hboth.2]
      rfl
  · rw [if_neg hbudget, if_neg fun hboth => hbudget hboth.1]

theorem bounded_wrapped (h : Bounded core) (chWidth : Nat) :
    Bounded (wrapped maxCols chWidth core) := by
  unfold wrapped
  split
  · exact h.newLine
  · exact h

theorem wrapped_col_le (chWidth : Nat) (core : VtCore C σ) :
    (wrapped maxCols chWidth core).col ≤ core.col := by
  unfold wrapped
  split
  · exact Nat.zero_le _
  · exact le_rfl

variable [VtCell C σ] {width : Char → Option Nat}

theorem eraseLine_eq (h : Bounded core) (mode : Nat) :
    eraseLine mode core = .ok (core.eraseLine mode) := by
  unfold eraseLine VtCore.eraseLine
  rw [h.ensureRow_eq]
  apply editLine_eq h.row
  intro line hline
  have hcells := h.cells line hline
  rcases mode with _ | _ | _ | mode
  · rfl
  · dsimp only
    rw [usizeAdd_of_lt (by omega)]
    rfl
  · rfl
  · rfl

theorem eraseBelow_eq (h : Bounded core) :
    (eraseLine 0 core >>= fun core => usizeAdd core.row 1 >>= fun kept =>
      .ok { core with lines := core.lines.take (min kept core.lines.length) }) =
        .ok (core.eraseDisplay 0) ∧ Bounded (core.eraseDisplay 0) := by
  have hbounded := h.eraseLine 0
  have hsame : core.eraseDisplay 0 = { core.eraseLine 0 with
      lines := (core.eraseLine 0).lines.take ((core.eraseLine 0).row + 1) } := rfl
  have hrow := hbounded.row
  have hlines := hbounded.lines
  have hmax := hbounded.maxLines
  rw [eraseLine_eq h, ok_bind, hsame]
  generalize core.eraseLine 0 = erased at hbounded hrow hlines hmax
  constructor
  · have hkept : min (erased.row + 1) erased.lines.length = erased.row + 1 := by omega
    rw [usizeAdd_of_lt (by omega), ok_bind, hkept]
  · refine ⟨?_, ?_, hmax, ?_⟩
    · dsimp only
      rw [List.length_take]
      omega
    · dsimp only
      rw [List.length_take]
      omega
    · exact fun line hline => hbounded.cells line (List.mem_of_mem_take hline)

theorem eraseDisplay_eq (h : Bounded core) (mode : Nat) :
    eraseDisplay mode core = .ok (core.eraseDisplay mode) ∧ Bounded (core.eraseDisplay mode) := by
  have hrow := h.row
  have hlines := h.lines
  have hempty : Bounded ({ core with lines := [[]], row := 0, col := 0 } : VtCore C σ) := by
    refine ⟨by simp, h.maxLines_pos, h.maxLines, by simp⟩
  have hbelow : Bounded { core with lines := core.lines.drop core.row, row := 0 } := by
    refine ⟨?_, ?_, h.maxLines, ?_⟩
    · dsimp only
      rw [List.length_drop]
      omega
    · dsimp only
      rw [List.length_drop]
      omega
    · exact fun line hline => h.cells line (List.mem_of_mem_drop hline)
  rcases mode with _ | _ | _ | _ | mode
  · exact eraseBelow_eq h
  · have habove : min core.row core.lines.length = core.row := by omega
    refine ⟨?_, hbelow.eraseLine 1⟩
    unfold eraseDisplay
    rw [habove, eraseLine_eq hbelow]
    rfl
  · exact ⟨rfl, hempty⟩
  · exact ⟨rfl, hempty⟩
  · exact eraseBelow_eq h

theorem put_eq (h : Bounded core) {ch : Char}
    (hcol : core.col + VtCore.charWidth width ch < 2 ^ 64) :
    put width maxCols ch core =
        .ok ((wrapped maxCols (VtCore.charWidth width ch) core).put width ch) ∧
      Bounded ((wrapped maxCols (VtCore.charWidth width ch) core).put width ch) := by
  have hwrapped := bounded_wrapped maxCols h (VtCore.charWidth width ch)
  have hle := wrapped_col_le maxCols (VtCore.charWidth width ch) core
  have hwidth : 1 ≤ VtCore.charWidth width ch := Nat.le_max_right ..
  constructor
  · unfold put VtCore.put
    dsimp only
    rw [wrap_eq maxCols h hcol, ok_bind]
    generalize wrapped maxCols (VtCore.charWidth width ch) core = there at hwrapped hle
    rw [hwrapped.ensureRow_eq, editLine_eq hwrapped.row fun _ _ => rfl, ok_bind]
    have hsum : there.col + VtCore.charWidth width ch < 2 ^ 64 := by omega
    exact congrArg (· >>= _) (usizeAdd_of_lt hsum)
  · exact hwrapped.put (by omega)

/-- A column that is out of range is noticed, before the character is written or behind it. -/
theorem put_overflow (h : Bounded core) {ch : Char}
    (hcol : 2 ^ 64 ≤ core.col + VtCore.charWidth width ch) :
    put width maxCols ch core = .error .overflow := by
  unfold put wrap
  dsimp only
  by_cases hbudget : 0 < maxCols
  · rw [if_pos hbudget, usizeAdd_of_le hcol]
    rfl
  · rw [if_neg hbudget, ok_bind, h.ensureRow_eq, editLine_eq h.row fun _ _ => rfl, ok_bind]
    exact congrArg (· >>= _) (usizeAdd_of_le hcol)

end Wrap

/-- The plain screen takes no sequence for its own. -/
def plainSequence : List Char → Option (Unit → Unit) := fun _ => none

/-- The styled screen takes those that set colors and attributes. -/
def styledSequence (sequence : List Char) : Option (TuiTextStyle → TuiTextStyle) :=
  if sequence.getLast? = some 'm' then some fun style => applySgr style sequence.dropLast else none

/-- The styled lines of a terminal of so many columns. -/
def terminalOutputStyledLinesForWidth (width : Char → Option Nat) (fuel : Nat) (input : String)
    (cols : Nat) : Except (VtFault StyledCell TuiTextStyle) (List (List TuiTextSpan)) := do
  let core ← Wrap.vtDrive width cols styledSequence fuel input (VtCore.new {} 400)
  return trimEmptyStyledEdges (core.lines.map (styledCellsToSpans width))

end HerdrWebui.Terminal
