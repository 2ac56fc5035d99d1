import HerdrWebui.Terminal.LineTruncation
import HerdrWebui.Terminal.WrapBounds

/-!
How wide the rows of a wrapped screen are shown. A wide character has one cell and leaves the
next one to its second column, so that a row takes its columns as long as no character is
written over half of another.
-/

namespace HerdrWebui.Terminal

open Wrap

/-- Each character takes two columns at most, and a blank takes one. -/
structure CellWidth (width : Char → Option Nat) : Prop where
  le_two : ∀ ch columns, width ch = some columns → columns ≤ 2
  blank : width ' ' = some 1

/-- Each cell has its columns in the budget, and right of a wide one is nothing but a blank. -/
structure RowFits (width : Char → Option Nat) (maxCols : Nat) (cells : List StyledCell) :
    Prop where
  ends : ∀ i cell, cells[i]? = some cell → i + VtCore.charWidth width cell.ch ≤ maxCols
  shadow : ∀ i cell next, cells[i]? = some cell → cells[i + 1]? = some next →
    isWide width cell.ch = true → next.ch = ' '

/-- A character at a column is written over half of another one. -/
def Overlaps (width : Char → Option Nat) (ch : Char) (col : Nat) (cells : List StyledCell) :
    Prop :=
  (∃ left, 0 < col ∧ cells[col - 1]? = some left ∧ isWide width left.ch = true ∧ ch ≠ ' ') ∨
    ∃ right, isWide width ch = true ∧ cells[col + 1]? = some right ∧ right.ch ≠ ' '

section Rows

variable {width : Char → Option Nat} {maxCols : Nat} {cells : List StyledCell}

theorem CellWidth.charWidth_le (h : CellWidth width) (ch : Char) :
    VtCore.charWidth width ch ≤ 2 := by
  unfold VtCore.charWidth
  cases hch : width ch with
  | none => simp
  | some columns =>
    have htwo := h.le_two ch columns hch
    simp
    omega

theorem CellWidth.charWidth_blank (h : CellWidth width) : VtCore.charWidth width ' ' = 1 := by
  simp [VtCore.charWidth, h.blank]

theorem one_le_charWidth (width : Char → Option Nat) (ch : Char) :
    1 ≤ VtCore.charWidth width ch := Nat.le_max_right ..

theorem columns_le_charWidth (ch : Char) : columns width ch ≤ VtCore.charWidth width ch := by
  unfold columns VtCore.charWidth
  cases width ch <;> simp

theorem CellWidth.not_isWide_blank (h : CellWidth width) : isWide width ' ' = false := by
  simp [isWide, h.blank]

theorem charWidth_narrow {ch : Char} (h : isWide width ch = false) :
    VtCore.charWidth width ch = 1 := by
  unfold isWide at h
  unfold VtCore.charWidth
  cases hch : width ch with
  | none => rfl
  | some columns =>
    rw [hch, Option.any_some, decide_eq_false_iff_not] at h
    simp
    omega

theorem charWidth_wide (hwidth : CellWidth width) {ch : Char} (h : isWide width ch = true) :
    VtCore.charWidth width ch = 2 := by
  have htwo := hwidth.charWidth_le ch
  unfold isWide at h
  unfold VtCore.charWidth at htwo ⊢
  cases hch : width ch with
  | none =>
    rw [hch] at h
    cases h
  | some columns =>
    rw [hch, Option.any_some, decide_eq_true_eq] at h
    rw [hch] at htwo
    simp at htwo ⊢
    omega

/-- Up to a cell the columns that are shown are as many as there are cells, and one more behind a
wide one. -/
theorem shown_take_le (hwidth : CellWidth width)
    (h : RowFits width maxCols cells) {n : Nat} (hn : n ≤ cells.length) :
    truncateWidthUnits width (((cells.zipIdx.take n).filter fun cell =>
        !skipShadow width cells cell.2 cell.1).map (·.1.ch)) ≤
      n + if 0 < n ∧ (cells[n - 1]?).any (fun cell => isWide width cell.ch) then 1 else 0 := by
  induction n with
  | zero => simp
  | succ n ih =>
    have hlt : n < cells.length := hn
    have hcell := List.getElem?_eq_getElem hlt
    generalize cells[n] = cell at hcell
    have hindexed : (cells.zipIdx)[n]? = some (cell, n) := by
      rw [List.getElem?_zipIdx, hcell]
      simp
    have hbefore := ih hlt.le
    rw [List.take_add_one, hindexed, Option.toList_some, List.filter_append, List.map_append,
      truncateWidthUnits_append]
    rw [Nat.add_sub_cancel, hcell, Option.any_some]
    cases hskip : skipShadow width cells n cell with
    | true =>
      simp only [List.filter_singleton, hskip, Bool.not_true, cond_false, List.map_nil,
        truncateWidthUnits_nil]
      split at hbefore <;> omega
    | false =>
      have hcolumns : columns width cell.ch ≤ VtCore.charWidth width cell.ch :=
        columns_le_charWidth cell.ch
      simp only [List.filter_singleton, hskip, Bool.not_false, cond_true, List.map_cons,
        List.map_nil, truncateWidthUnits_cons, truncateWidthUnits_nil]
      -- A cell right of a wide one would have been skipped.
      have hleft : ¬(0 < n ∧ (cells[n - 1]?).any (fun cell => isWide width cell.ch)) := by
        rintro ⟨hpos, hwide⟩
        obtain ⟨left, hleft, hleftWide⟩ := (Option.any_eq_true ..).mp hwide
        have hblank : cell.ch = ' ' := by
          apply h.shadow (n - 1) left cell hleft _ hleftWide
          rwa [Nat.sub_add_cancel hpos]
        rw [skipShadow, hwide, hblank] at hskip
        simp [hpos] at hskip
      rw [if_neg hleft] at hbefore
      cases hwide : isWide width cell.ch with
      | true =>
        have htwo := charWidth_wide hwidth hwide
        simp
        omega
      | false =>
        have hone := charWidth_narrow hwide
        simp
        omega

theorem RowFits.shown_le (h : RowFits width maxCols cells) (hwidth : CellWidth width) :
    truncateWidthUnits width (spanText (styledCellsToSpans width cells)) ≤ maxCols := by
  have hle : (ink (cells.map (·.ch))).length ≤ cells.length := by
    have hshort := (List.rdropWhile_prefix (fun ch : Char => decide (ch = ' '))
      (cells.map (·.ch))).length_le
    rwa [List.length_map] at hshort
  have hshown := shown_take_le hwidth h hle
  rw [spanText_styledCellsToSpans]
  generalize (ink (cells.map (·.ch))).length = n at hle hshown
  by_cases hpos : 0 < n
  · have hlast := List.getElem?_eq_getElem (show n - 1 < cells.length by omega)
    have hends := h.ends (n - 1) _ hlast
    rw [hlast, Option.any_some] at hshown
    have hone := one_le_charWidth width cells[n - 1].ch
    split at hshown
    · next hwide =>
        have htwo := charWidth_wide hwidth hwide.2
        omega
    · omega
  · rw [Nat.eq_zero_of_not_pos hpos] at hshown ⊢
    simp

theorem rowFits_nil : RowFits width maxCols [] where
  ends := by simp
  shadow := by simp

theorem RowFits.take (h : RowFits width maxCols cells) (n : Nat) :
    RowFits width maxCols (cells.take n) := by
  have hkept {i : Nat} {cell : StyledCell} (hcell : (cells.take n)[i]? = some cell) :
      cells[i]? = some cell := by
    rw [List.getElem?_take] at hcell
    split at hcell
    · exact hcell
    · cases hcell
  constructor
  · intro i cell hcell
    exact h.ends i cell (hkept hcell)
  · intro i cell next hcell hnext
    exact h.shadow i cell next (hkept hcell) (hkept hnext)

theorem RowFits.blankFront (hwidth : CellWidth width) (h : RowFits width maxCols cells) (n : Nat)
    (style : TuiTextStyle) :
    RowFits width maxCols
      ((cells.take n).map (fun _ => (VtCell.blank style : StyledCell)) ++ cells.drop n) := by
  have hcells {i : Nat} {cell : StyledCell}
      (hcell : ((cells.take n).map (fun _ => (VtCell.blank style : StyledCell)) ++
        cells.drop n)[i]? = some cell) :
      i < cells.length ∧ cell.ch = ' ' ∨ cells[i]? = some cell := by
    rw [List.getElem?_append, List.length_map, List.length_take] at hcell
    split at hcell
    · next hlt =>
        rw [List.getElem?_map, Option.map_eq_some_iff] at hcell
        obtain ⟨_, -, rfl⟩ := hcell
        exact .inl ⟨by omega, rfl⟩
    · rw [List.getElem?_drop] at hcell
      right
      convert hcell using 2
      have hlt := (List.getElem?_eq_some_iff.mp hcell).1
      omega
  constructor
  · intro i cell hcell
    rcases hcells hcell with ⟨hlt, hblank⟩ | hold
    · have hends := h.ends i _ (List.getElem?_eq_getElem hlt)
      have hone := one_le_charWidth width cells[i].ch
      rw [hblank, hwidth.charWidth_blank]
      omega
    · exact h.ends i cell hold
  · intro i cell next hcell hnext hwide
    rcases hcells hcell with ⟨-, hblank⟩ | hold
    · rw [hblank, hwidth.not_isWide_blank] at hwide
      cases hwide
    · rcases hcells hnext with ⟨-, hblank⟩ | hnextOld
      · exact hblank
      · exact h.shadow i cell next hold hnextOld hwide

theorem getElem?_writeCell {C : Type} (col i : Nat) (cell blank : C) (row : List C) :
    (VtCore.writeCell col cell blank row)[i]? =
      if i = col then some cell
      else if i < row.length then row[i]?
      else if i < col then some blank
      else none := by
  unfold VtCore.writeCell
  dsimp only
  rw [List.length_append, List.length_replicate]
  split
  · rw [List.getElem?_set, List.getElem?_append, List.getElem?_replicate, List.length_append,
      List.length_replicate]
    split_ifs <;> first | rfl | omega
  · rw [List.getElem?_append, List.getElem?_append, List.getElem?_replicate, List.length_append,
      List.length_replicate, List.getElem?_singleton]
    split_ifs <;> first | rfl | omega

/-- A character that is written over no half of another leaves a row that fits. -/
theorem RowFits.writeCell (hwidth : CellWidth width) (h : RowFits width maxCols cells) {ch : Char}
    {col : Nat} (hcol : col + VtCore.charWidth width ch ≤ maxCols)
    (hclear : ¬Overlaps width ch col cells) (style : TuiTextStyle) :
    RowFits width maxCols (VtCore.writeCell col (VtCell.fromChar ch style)
      (VtCell.blank style : StyledCell) cells) := by
  have hone := one_le_charWidth width ch
  constructor
  · intro i cell hcell
    rw [getElem?_writeCell] at hcell
    split_ifs at hcell with hi hold
    · rw [← Option.some.inj hcell, hi]
      exact hcol
    · exact h.ends i cell hcell
    · rw [← Option.some.inj hcell]
      have hblank : VtCore.charWidth width (VtCell.blank style : StyledCell).ch = 1 :=
        hwidth.charWidth_blank
      omega
  · intro i cell next hcell hnext hwide
    rw [getElem?_writeCell] at hcell hnext
    split_ifs at hcell with hi hold
    · -- Right of the new character.
      rw [← Option.some.inj hcell] at hwide
      rw [if_neg (by omega), if_neg (show ¬i + 1 < col by omega), hi] at hnext
      split at hnext
      · by_contra hch
        exact hclear (.inr ⟨next, hwide, hnext, hch⟩)
      · cases hnext
    · split_ifs at hnext with hthere hnextOld
      · -- Left of it.
        rw [← Option.some.inj hnext]
        by_contra hch
        apply hclear
        refine .inl ⟨cell, by omega, ?_, hwide, hch⟩
        rw [← hthere, Nat.add_sub_cancel]
        exact hcell
      · exact h.shadow i cell next hcell hnext hwide
      · rw [← Option.some.inj hnext]
        rfl
    · have hnot : isWide width (VtCell.blank style : StyledCell).ch = false :=
        hwidth.not_isWide_blank
      rw [← Option.some.inj hcell, hnot] at hwide
      cases hwide

end Rows

section Screen

variable {width : Char → Option Nat} {maxCols : Nat} {core : VtCore StyledCell TuiTextStyle}

def RowsFit (width : Char → Option Nat) (maxCols : Nat)
    (core : VtCore StyledCell TuiTextStyle) : Prop :=
  ∀ cells ∈ core.lines, RowFits width maxCols cells

/-- The character is written over no half of another one, in the row it is wrapped to. -/
def PutsClear (width : Char → Option Nat) (maxCols : Nat) (ch : Char)
    (core : VtCore StyledCell TuiTextStyle) : Prop :=
  let there := wrapped maxCols (VtCore.charWidth width ch) core
  ∀ cells, there.lines[there.row]? = some cells → ¬Overlaps width ch there.col cells

theorem RowsFit.ensureRow (h : RowsFit width maxCols core) :
    RowsFit width maxCols core.ensureRow := by
  intro cells hcells
  rcases List.mem_append.mp hcells with hold | hnew
  · exact h cells hold
  · rw [List.eq_of_mem_replicate hnew]
    exact rowFits_nil

theorem RowsFit.trimScrollback (core : VtCore StyledCell TuiTextStyle)
    (h : RowsFit width maxCols core) : RowsFit width maxCols core.ensureRow.trimScrollback :=
  fun cells hcells => h.ensureRow cells (List.mem_of_mem_drop hcells)

theorem RowsFit.newLine (h : RowsFit width maxCols core) : RowsFit width maxCols core.newLine := by
  exact RowsFit.trimScrollback { core with row := core.row + 1, col := 0 } h

theorem RowsFit.modifyLine (h : RowsFit width maxCols core) {f : List StyledCell → List StyledCell}
    (hf : ∀ cells, core.lines[core.row]? = some cells → RowFits width maxCols (f cells)) :
    RowsFit width maxCols (core.modifyLine f) := by
  intro cells hcells
  obtain ⟨i, hi⟩ := List.mem_iff_getElem?.mp hcells
  rw [VtCore.modifyLine, List.getElem?_modify, Option.map_eq_map, Option.map_eq_some_iff] at hi
  obtain ⟨before, hbefore, rfl⟩ := hi
  split
  · next hrow =>
      apply hf
      rw [hrow]
      exact hbefore
  · exact h before (List.mem_of_getElem? hbefore)

theorem RowsFit.wrapped (h : RowsFit width maxCols core) (chWidth : Nat) :
    RowsFit width maxCols (wrapped maxCols chWidth core) := by
  unfold Wrap.wrapped
  split
  · exact h.newLine
  · exact h

theorem wrapped_col_add_le (hcols : 2 ≤ maxCols) {chWidth : Nat} (htwo : chWidth ≤ 2)
    (core : VtCore StyledCell TuiTextStyle) :
    (wrapped maxCols chWidth core).col + chWidth ≤ maxCols := by
  unfold wrapped
  split
  · have hzero : core.newLine.col = 0 := rfl
    omega
  · omega

theorem RowsFit.put (hwidth : CellWidth width) (hcols : 2 ≤ maxCols) (hbounded : Bounded core)
    (h : RowsFit width maxCols core) {ch : Char} (hclear : PutsClear width maxCols ch core) :
    RowsFit width maxCols
      ((Wrap.wrapped maxCols (VtCore.charWidth width ch) core).put width ch) := by
  have hcol := wrapped_col_add_le hcols (hwidth.charWidth_le ch) core
  have hthere := h.wrapped (VtCore.charWidth width ch)
  have hrow := bounded_wrapped maxCols hbounded (VtCore.charWidth width ch)
  unfold PutsClear at hclear
  generalize Wrap.wrapped maxCols (VtCore.charWidth width ch) core = there at *
  unfold VtCore.put
  rw [hrow.ensureRow_eq]
  apply hthere.modifyLine
  intro cells hcells
  exact (hthere cells (List.mem_of_getElem? hcells)).writeCell hwidth hcol (hclear cells hcells) _

theorem putsClear_blank (hwidth : CellWidth width) : PutsClear width maxCols ' ' core := by
  rintro cells - (⟨left, -, -, -, hch⟩ | ⟨right, hwide, -⟩)
  · exact hch rfl
  · rw [hwidth.not_isWide_blank] at hwide
    cases hwide

theorem RowsFit.tabGo (hwidth : CellWidth width) (hcols : 2 ≤ maxCols) {nextTab fuel : Nat}
    (hword : nextTab < 2 ^ 64) (hbounded : Bounded core) (h : RowsFit width maxCols core)
    {next : VtCore StyledCell TuiTextStyle}
    (hnext : tabGo width maxCols nextTab fuel core = .ok next) :
    RowsFit width maxCols next := by
  induction fuel generalizing core with
  | zero =>
    rw [Wrap.tabGo] at hnext
    split at hnext
    · cases hnext
    · exact Except.ok.inj hnext ▸ h
  | succ fuel ih =>
    rw [Wrap.tabGo] at hnext
    split at hnext
    · next hbefore =>
        have hone := hwidth.charWidth_blank
        obtain ⟨hput, hthere⟩ := put_eq maxCols hbounded
          (show core.col + VtCore.charWidth width ' ' < 2 ^ 64 by omega)
        rw [hput] at hnext
        exact ih hthere (h.put hwidth hcols hbounded (putsClear_blank hwidth)) hnext
    · exact Except.ok.inj hnext ▸ h

theorem RowsFit.eraseLine (hwidth : CellWidth width) (h : RowsFit width maxCols core)
    (mode : Nat) : RowsFit width maxCols (core.eraseLine mode) := by
  unfold VtCore.eraseLine
  apply h.ensureRow.modifyLine
  intro cells hcells
  have hfits := h.ensureRow cells (List.mem_of_getElem? hcells)
  split
  · exact hfits.blankFront hwidth _ _
  · exact rowFits_nil
  · exact hfits.take _

theorem RowsFit.eraseDisplay (hwidth : CellWidth width) (h : RowsFit width maxCols core)
    (mode : Nat) : RowsFit width maxCols (core.eraseDisplay mode) := by
  have hempty : RowsFit width maxCols { core with lines := [[]], row := 0, col := 0 } := by
    intro cells hcells
    rw [List.mem_singleton.mp hcells]
    exact rowFits_nil
  unfold VtCore.eraseDisplay
  split
  · exact hempty
  · exact hempty
  · apply RowsFit.eraseLine hwidth
    exact fun cells hcells => h cells (List.mem_of_mem_drop hcells)
  · intro cells hcells
    exact h.eraseLine hwidth 0 cells (List.mem_of_mem_take hcells)

theorem RowsFit.applyCsi (hwidth : CellWidth width) (h : RowsFit width maxCols core)
    (sequence : List Char) : RowsFit width maxCols (core.applyCsi sequence) := by
  unfold VtCore.applyCsi
  split
  · exact h
  · dsimp only
    split
    · exact h.eraseLine hwidth _
    split
    · exact h.eraseDisplay hwidth _
    split
    · exact h
    split
    · exact RowsFit.trimScrollback { core with row := _ } h
    split
    · exact h
    split
    · exact h
    split
    · exact h
    split
    · exact RowsFit.trimScrollback { core with row := _, col := _ } h
    · exact h

/-- No token leaves a row that does not fit, but a character over half of another. -/
theorem RowsFit.step (hwidth : CellWidth width) (hcols : 2 ≤ maxCols)
    {intercept : List Char → Option (TuiTextStyle → TuiTextStyle)} {fuel : Nat}
    (hbounded : Bounded core) (h : RowsFit width maxCols core) {token : VtToken}
    (hclear : ∀ ch, token = .char ch → isControl ch = false → PutsClear width maxCols ch core)
    {next : VtCore StyledCell TuiTextStyle}
    (hnext : step width maxCols intercept fuel core token = .ok next) :
    RowsFit width maxCols next := by
  cases token with
  | csi sequence =>
    rw [Wrap.step] at hnext
    split at hnext
    · rw [← Except.ok.inj hnext]
      exact h
    · rw [applyCsi_eq hbounded hnext]
      exact h.applyCsi hwidth sequence
  | osc body => exact Except.ok.inj hnext ▸ h
  | stringSequence payload => exact Except.ok.inj hnext ▸ h
  | escape following => exact Except.ok.inj hnext ▸ h
  | char ch =>
    rw [Wrap.step] at hnext
    split_ifs at hnext with hreturn hline hback htab hcontrol
    · rw [← Except.ok.inj hnext]
      exact h
    · rw [newLine_eq hbounded] at hnext
      exact Except.ok.inj hnext ▸ h.newLine
    · rw [← Except.ok.inj hnext]
      exact h
    · by_cases hword : (core.col / 8 + 1) * 8 < 2 ^ 64
      · unfold tab usizeMul at hnext
        rw [usizeAdd_of_lt (by omega), ok_bind, if_pos hword, ok_bind] at hnext
        exact h.tabGo hwidth hcols hword hbounded hnext
      · rw [tab_overflow (not_lt.mp hword)] at hnext
        cases hnext
    · exact Except.ok.inj hnext ▸ h
    · by_cases hword : core.col + VtCore.charWidth width ch < 2 ^ 64
      · rw [(put_eq maxCols hbounded hword).1] at hnext
        rw [← Except.ok.inj hnext]
        apply h.put hwidth hcols hbounded
        exact hclear ch rfl (Bool.eq_false_iff.mpr hcontrol)
      · rw [put_overflow maxCols hbounded (not_lt.mp hword)] at hnext
        cases hnext

theorem RowsFit.run (hwidth : CellWidth width) (hcols : 2 ≤ maxCols)
    {intercept : List Char → Option (TuiTextStyle → TuiTextStyle)} {fuel : Nat}
    (hbounded : Bounded core) (h : RowsFit width maxCols core) {tokens : List VtToken}
    (hclear : ∀ front ch back, tokens = front ++ .char ch :: back → isControl ch = false →
      ∀ reached, run width maxCols intercept fuel front core = .ok reached →
        PutsClear width maxCols ch reached)
    {reached : VtCore StyledCell TuiTextStyle}
    (hreached : run width maxCols intercept fuel tokens core = .ok reached) :
    RowsFit width maxCols reached := by
  induction tokens using List.reverseRecOn generalizing reached with
  | nil => exact Except.ok.inj hreached ▸ h
  | append_singleton tokens token ih =>
    rw [run_concat] at hreached
    cases hfront : Wrap.run width maxCols intercept fuel tokens core with
    | error fault =>
      rw [hfront] at hreached
      cases hreached
    | ok before =>
      rw [hfront, ok_bind] at hreached
      have hbefore := ih (fun front ch back htokens => hclear front ch (back ++ [token])
        (by rw [htokens, List.append_assoc, List.cons_append])) hfront
      apply hbefore.step hwidth hcols
        (bounded_of_run hwidth.charWidth_blank hbounded hfront) _ hreached
      rintro ch rfl hch
      exact hclear tokens ch [] rfl hch before hfront

end Screen

theorem cellWidth_sampleWidth : CellWidth sampleWidth where
  le_two := by
    intro ch columns hcolumns
    rw [← Option.some.inj hcolumns]
    split
    · rfl
    · split <;> simp
  blank := by decide

/-- As long as no character is written over half of another one, each row of the screen and each
line of the terminal is shown in the budget. -/
theorem terminalOutputStyledLinesForWidth_fits {width : Char → Option Nat}
    (hwidth : CellWidth width) {cols : Nat} (hcols : 2 ≤ cols) (fuel : Nat) (input : String)
    (hclear : ∀ front ch back, vtTokens input.toList = front ++ .char ch :: back →
      isControl ch = false →
      ∀ reached, run width cols styledSequence fuel front (VtCore.new {} 400) = .ok reached →
        PutsClear width cols ch reached) :
    (∀ front back, vtTokens input.toList = front ++ back →
      ∀ reached, run width cols styledSequence fuel front (VtCore.new {} 400) = .ok reached →
        ∀ cells ∈ reached.lines,
          truncateWidthUnits width (spanText (styledCellsToSpans width cells)) ≤ cols) ∧
      ∀ lines, terminalOutputStyledLinesForWidth width fuel input cols = .ok lines →
        ∀ spans ∈ lines, truncateWidthUnits width (spanText spans) ≤ cols := by
  have hbounded : Bounded (VtCore.new {} 400 : VtCore StyledCell TuiTextStyle) := by
    apply bounded_new
    decide
  have hnew : RowsFit width cols (VtCore.new {} 400) := by
    intro cells hcells
    rw [List.mem_singleton.mp hcells]
    exact rowFits_nil
  have hrows : ∀ front back, vtTokens input.toList = front ++ back →
      ∀ reached, run width cols styledSequence fuel front (VtCore.new {} 400) = .ok reached →
        ∀ cells ∈ reached.lines,
          truncateWidthUnits width (spanText (styledCellsToSpans width cells)) ≤ cols := by
    intro front back htokens reached hreached cells hcells
    apply RowFits.shown_le _ hwidth
    apply hnew.run hwidth hcols hbounded _ hreached cells hcells
    intro front' ch back' hfront
    exact hclear front' ch (back' ++ back) (by rw [htokens, hfront, List.append_assoc]; rfl)
  refine ⟨hrows, ?_⟩
  intro lines hlines spans hspans
  unfold terminalOutputStyledLinesForWidth vtDrive at hlines
  cases hrun : run width cols styledSequence fuel (vtTokens input.toList)
      (VtCore.new {} 400 : VtCore StyledCell TuiTextStyle) with
  | error fault =>
    rw [hrun] at hlines
    cases hlines
  | ok reached =>
    rw [hrun, ok_bind] at hlines
    rw [← Except.ok.inj hlines] at hspans
    have hmem := (List.dropWhile_sublist _).subset ((List.rdropWhile_prefix _ _).subset hspans)
    obtain ⟨cells, hcells, rfl⟩ := List.mem_map.mp hmem
    exact hrows _ [] (List.append_nil _).symm reached hrun cells hcells

/-- A wide character in a row of four columns. -/
theorem terminalOutputStyledLinesForWidth_wide :
    (∀ front back, vtTokens "世".toList = front ++ back →
      ∀ reached, run sampleWidth 4 styledSequence 8 front (VtCore.new {} 400) = .ok reached →
        ∀ cells ∈ reached.lines,
          truncateWidthUnits sampleWidth (spanText (styledCellsToSpans sampleWidth cells)) ≤ 4) ∧
      ∀ lines, terminalOutputStyledLinesForWidth sampleWidth 8 "世" 4 = .ok lines →
        ∀ spans ∈ lines, truncateWidthUnits sampleWidth (spanText spans) ≤ 4 := by
  apply terminalOutputStyledLinesForWidth_fits cellWidth_sampleWidth (by decide)
  intro front ch back htokens hch reached hreached
  have hone : vtTokens "世".toList = [.char '世'] := by decide +kernel
  rw [hone] at htokens
  cases front with
  | nil =>
    obtain ⟨hchar, -⟩ := List.cons_eq_cons.mp htokens
    rw [← Except.ok.inj hreached, ← VtToken.char.inj hchar]
    intro cells hcells
    rw [← Option.some.inj hcells]
    simp [Overlaps]
  | cons next front => simp at htokens

/-- A wide character over the first of four narrow ones. -/
theorem terminalOutputStyledLinesForWidth_overwritten :
    ¬∀ lines, terminalOutputStyledLinesForWidth sampleWidth 8 "abcd\r世" 4 = .ok lines →
      ∀ spans ∈ lines, truncateWidthUnits sampleWidth (spanText spans) ≤ 4 := by
  intro h
  have hlong : (match terminalOutputStyledLinesForWidth sampleWidth 8 "abcd\r世" 4 with
    | .ok lines => lines.any fun spans => 4 < truncateWidthUnits sampleWidth (spanText spans)
    | .error _ => false) = true := by decide +kernel
  split at hlong
  · next lines hlines =>
      obtain ⟨spans, hspans, hover⟩ := List.any_eq_true.mp hlong
      have hle := h lines hlines spans hspans
      rw [decide_eq_true_eq] at hover
      omega
  · cases hlong

end HerdrWebui.Terminal
