import HerdrWebui.Data.Edges
import HerdrWebui.Terminal.VtText

/-!
The screen with the colors and attributes of its cells, the spans its rows are cut into,
and when they have the text that the plain screen has.
-/

namespace HerdrWebui.Terminal

inductive Color where
  | indexed (index : Nat)
  | rgb (r g b : Nat)
  deriving DecidableEq

structure TuiTextStyle where
  fg : Option Color := none
  bg : Option Color := none
  bold : Bool := false
  dim : Bool := false
  italic : Bool := false
  underlined : Bool := false
  deriving DecidableEq

structure TuiTextSpan where
  text : List Char
  style : TuiTextStyle
  deriving DecidableEq

structure StyledCell where
  ch : Char
  style : TuiTextStyle
  deriving DecidableEq

instance : VtCell StyledCell TuiTextStyle where
  fromChar ch style := ⟨ch, style⟩
  blank style := ⟨' ', style⟩

def ansiBasicColor (code : Nat) (bright : Bool) : Color :=
  .indexed ((if bright then 8 else 0) + min code 7)

/-- The color behind a code for an extended one, and the codes after it. -/
def parseExtendedColor : List Nat → Option Color × List Nat
  | 5 :: value :: codes => (some (.indexed (min value 255)), codes)
  | 2 :: r :: g :: b :: codes => (some (.rgb (min r 255) (min g 255) (min b 255)), codes)
  | 5 :: _ | 2 :: _ | [] => (none, [])
  | _ :: codes => (none, codes)

theorem parseExtendedColor_length (codes : List Nat) :
    (parseExtendedColor codes).2.length ≤ codes.length := by
  unfold parseExtendedColor
  split <;> simp <;> omega

def applyCodes (style : TuiTextStyle) : List Nat → TuiTextStyle
  | [] => style
  | code :: codes =>
    if code = 38 then
      applyCodes { style with fg := (parseExtendedColor codes).1 } (parseExtendedColor codes).2
    else if code = 48 then
      applyCodes { style with bg := (parseExtendedColor codes).1 } (parseExtendedColor codes).2
    else
      let style :=
        if code = 0 then {}
        else if code = 1 then { style with bold := true }
        else if code = 2 then { style with dim := true }
        else if code = 3 then { style with italic := true }
        else if code = 4 then { style with underlined := true }
        else if code = 22 then { style with bold := false, dim := false }
        else if code = 23 then { style with italic := false }
        else if code = 24 then { style with underlined := false }
        else if 30 ≤ code ∧ code ≤ 37 then
          { style with fg := some (ansiBasicColor (code - 30) false) }
        else if code = 39 then { style with fg := none }
        else if 40 ≤ code ∧ code ≤ 47 then
          { style with bg := some (ansiBasicColor (code - 40) false) }
        else if code = 49 then { style with bg := none }
        else if 90 ≤ code ∧ code ≤ 97 then
          { style with fg := some (ansiBasicColor (code - 90) true) }
        else if 100 ≤ code ∧ code ≤ 107 then
          { style with bg := some (ansiBasicColor (code - 100) true) }
        else style
      applyCodes style codes
termination_by codes => codes.length
decreasing_by
  · have := parseExtendedColor_length codes
    simp
    omega
  · have := parseExtendedColor_length codes
    simp
    omega
  · simp

/-- `u16::from_str`, or 0. -/
def sgrCode (value : List Char) : Nat :=
  ((parseUsize (String.ofList value)).filter (· < 2 ^ 16)).getD 0

def applySgr (style : TuiTextStyle) (params : List Char) : TuiTextStyle :=
  let codes := ((params.splitOn ';').filter (· ≠ [])).map sgrCode
  if codes = [] then {} else applyCodes style codes

/-- A color sequence changes the style of the cells to come. -/
def styledCsi (sequence : List Char) (core : VtCore StyledCell TuiTextStyle) :
    VtCore StyledCell TuiTextStyle :=
  match sequence.getLast? with
  | none => core
  | some finalByte =>
    if finalByte = 'm' then { core with style := applySgr core.style sequence.dropLast }
    else core.applyCsi sequence

section Styled

variable (width : Char → Option Nat)

def isWide (ch : Char) : Bool := (width ch).any (· ≥ 2)

/-- A blank right of a wide character is its second column. -/
def skipShadow (cells : List StyledCell) (index : Nat) (cell : StyledCell) : Bool :=
  cell.ch = ' ' && 0 < index && (cells[index - 1]?).any fun cell => isWide width cell.ch

def trimmedLen (cells : List StyledCell) : Nat :=
  ((cells.zipIdx.reverse.find? fun (cell, index) =>
    cell.ch ≠ ' ' ∧ !skipShadow width cells index cell).map fun (_, index) => index + 1).getD 0

/-- A cell goes to the last span, or starts one of its own. -/
def pushCell (spans : List TuiTextSpan) (cell : StyledCell) : List TuiTextSpan :=
  match spans.getLast? with
  | some last =>
    if last.style = cell.style then
      spans.dropLast ++ [{ last with text := last.text ++ [cell.ch] }]
    else spans ++ [⟨[cell.ch], cell.style⟩]
  | none => [⟨[cell.ch], cell.style⟩]

def styledCellsToSpans (cells : List StyledCell) : List TuiTextSpan :=
  (cells.zipIdx.take (trimmedLen width cells)).foldl (fun spans (cell, index) =>
    if skipShadow width cells index cell then spans else pushCell spans cell) []

def trimEmptyStyledEdges (lines : List (List TuiTextSpan)) : List (List TuiTextSpan) :=
  (lines.dropWhile (·.isEmpty)).rdropWhile (·.isEmpty)

def styledScreen (input : String) : VtCore StyledCell TuiTextStyle :=
  VtCore.vtDrive width styledCsi (VtCore.new {} 400) input

/-- The styled lines without a column budget. -/
def terminalOutputStyledLinesLossy (input : String) : List (List TuiTextSpan) :=
  trimEmptyStyledEdges ((styledScreen width input).lines.map (styledCellsToSpans width))

end Styled

def spanText (spans : List TuiTextSpan) : List Char := spans.flatMap (·.text)

section Spans

variable {width : Char → Option Nat}

theorem spanText_pushCell (spans : List TuiTextSpan) (cell : StyledCell) :
    spanText (pushCell spans cell) = spanText spans ++ [cell.ch] := by
  unfold pushCell
  rcases List.eq_nil_or_concat spans with rfl | ⟨front, last, rfl⟩
  · rfl
  · rw [List.concat_eq_append, List.getLast?_concat]
    dsimp only
    split <;> simp [spanText]

theorem spanText_foldl (skip : StyledCell × Nat → Bool) (cells : List (StyledCell × Nat))
    (spans : List TuiTextSpan) :
    spanText (cells.foldl (fun spans cell => if skip cell then spans else pushCell spans cell.1)
        spans) =
      spanText spans ++ (cells.filter (!skip ·)).map (·.1.ch) := by
  induction cells generalizing spans with
  | nil => simp
  | cons cell cells ih =>
    rw [List.foldl_cons, ih]
    by_cases h : skip cell
    · simp [h]
    · simp [h, spanText_pushCell]

theorem pushCell_texts {spans : List TuiTextSpan} (h : ∀ span ∈ spans, span.text ≠ [])
    (cell : StyledCell) : ∀ span ∈ pushCell spans cell, span.text ≠ [] := by
  intro span hspan
  unfold pushCell at hspan
  split at hspan
  · split at hspan
    · rcases List.mem_append.mp hspan with hold | hnew
      · exact h span (List.mem_of_mem_dropLast hold)
      · rw [List.mem_singleton.mp hnew]
        simp
    · rcases List.mem_append.mp hspan with hold | hnew
      · exact h span hold
      · rw [List.mem_singleton.mp hnew]
        simp
  · rw [List.mem_singleton.mp hspan]
    simp

theorem isEmpty_styledCellsToSpans (cells : List StyledCell) :
    (styledCellsToSpans width cells).isEmpty =
      (spanText (styledCellsToSpans width cells)).isEmpty := by
  have htexts : ∀ span ∈ styledCellsToSpans width cells, span.text ≠ [] := by
    unfold styledCellsToSpans
    apply List.foldlRecOn (motive := fun spans : List TuiTextSpan =>
      ∀ span ∈ spans, span.text ≠ [])
    · exact fun span hspan => absurd hspan List.not_mem_nil
    · intro spans hspans cell _
      dsimp only
      split
      · exact hspans
      · exact pushCell_texts hspans cell.1
  cases hspans : styledCellsToSpans width cells with
  | nil => rfl
  | cons span spans =>
    rw [hspans, List.forall_mem_cons] at htexts
    simp [spanText, htexts.1]

/-- A row up to its last character that is not a blank. -/
def ink (row : List Char) : List Char := row.rdropWhile (· = ' ')

theorem skipShadow_blank {cells : List StyledCell} {index : Nat} {cell : StyledCell}
    (h : skipShadow width cells index cell = true) : cell.ch = ' ' := by
  unfold skipShadow at h
  rw [Bool.and_eq_true, Bool.and_eq_true, decide_eq_true_eq] at h
  exact h.1.1

theorem trimmedLen_eq (cells : List StyledCell) :
    trimmedLen width cells = (ink (cells.map (·.ch))).length := by
  have hpred : (fun (cell : StyledCell × Nat) => decide (cell.1.ch ≠ ' ' ∧
      (!skipShadow width cells cell.2 cell.1) = true)) = fun cell => decide (cell.1.ch ≠ ' ') := by
    funext cell
    apply decide_eq_decide.mpr
    apply and_iff_left_of_imp
    intro hch
    rw [Bool.not_eq_true']
    exact Bool.eq_false_iff.mpr fun hskip => hch (skipShadow_blank hskip)
  unfold trimmedLen
  rw [hpred, ink]
  clear hpred
  induction cells using List.reverseRecOn with
  | nil => rfl
  | append_singleton cells cell ih =>
    rw [List.zipIdx_append, List.reverse_append, List.map_append]
    by_cases hch : cell.ch = ' '
    · simpa [hch, List.rdropWhile_concat] using ih
    · simp [hch]

theorem spanText_styledCellsToSpans (cells : List StyledCell) :
    spanText (styledCellsToSpans width cells) =
      ((cells.zipIdx.take (ink (cells.map (·.ch))).length).filter fun cell =>
        !skipShadow width cells cell.2 cell.1).map (·.1.ch) := by
  rw [styledCellsToSpans, trimmedLen_eq]
  exact spanText_foldl (fun cell => skipShadow width cells cell.2 cell.1) _ []

theorem take_ink (cells : List StyledCell) :
    (cells.zipIdx.take (ink (cells.map (·.ch))).length).map (·.1.ch) =
      ink (cells.map (·.ch)) := by
  have hprefix : ink (cells.map (·.ch)) <+: cells.map (·.ch) := List.rdropWhile_prefix _ _
  have hchars : cells.zipIdx.map (·.1.ch) = cells.map (·.ch) := by
    conv_rhs => rw [← List.zipIdx_map_fst 0 cells, List.map_map]
    rfl
  rw [List.map_take, hchars]
  exact (List.prefix_iff_eq_take.mp hprefix).symm

variable (width) in
/-- The last character that is not a blank is no other white space, and no blank in front
of it is right of a wide character. -/
def RowAgrees (row : List Char) : Prop :=
  (∀ c ∈ (ink row).getLast?, isWhitespace c = false) ∧
    ∀ i, i + 1 < (ink row).length → (row[i]?).any (isWide width) → row[i + 1]? ≠ some ' '

theorem trimEnd_eq (row : List Char) : trimEnd row = trimEnd (ink row) := by
  induction row using List.reverseRecOn with
  | nil => rfl
  | append_singleton row c ih =>
    by_cases hc : c = ' '
    · subst hc
      rw [ink, List.rdropWhile_concat_pos _ _ _ (by decide), trimEnd,
        List.rdropWhile_concat_pos _ _ _ (by decide)]
      exact ih
    · rw [ink, List.rdropWhile_concat_neg _ _ _ (by simpa using hc)]

theorem spanText_concat (cells : List StyledCell) (h : ink (cells.map (·.ch)) ≠ []) :
    ∃ front, spanText (styledCellsToSpans width cells) =
      front ++ [(ink (cells.map (·.ch))).getLast h] := by
  have htake := take_ink cells
  have hink : (ink (cells.map (·.ch))).getLast h ≠ ' ' := by
    intro hblank
    exact List.rdropWhile_last_not (fun c : Char => decide (c = ' ')) _ h
      (decide_eq_true hblank)
  rw [spanText_styledCellsToSpans]
  rcases List.eq_nil_or_concat
      (cells.zipIdx.take (ink (cells.map (·.ch))).length) with hnil | ⟨front, last, hconcat⟩
  · rw [hnil] at htake
    exact absurd htake.symm h
  · rw [hconcat, List.concat_eq_append, List.map_append, List.map_singleton] at htake
    have hch : last.1.ch = (ink (cells.map (·.ch))).getLast h := by
      simp only [← htake, List.getLast_concat]
    have hkept : (!skipShadow width cells last.2 last.1) = true := by
      rw [Bool.not_eq_true']
      exact Bool.eq_false_iff.mpr fun hskip => hink (hch ▸ skipShadow_blank hskip)
    rw [hconcat, List.concat_eq_append, List.filter_append, List.map_append,
      List.filter_singleton, hkept, cond_true, List.map_singleton, hch]
    exact ⟨_, rfl⟩

theorem trimEnd_of_spanText {cells : List StyledCell}
    (h : spanText (styledCellsToSpans width cells) = []) : trimEnd (cells.map (·.ch)) = [] := by
  rw [trimEnd_eq]
  by_cases hink : ink (cells.map (·.ch)) = []
  · rw [hink]
    rfl
  · obtain ⟨front, hfront⟩ := (spanText_concat cells hink :
        ∃ front, spanText (styledCellsToSpans width cells) = front ++ [_])
    rw [h] at hfront
    exact absurd hfront.symm (List.append_ne_nil_of_right_ne_nil _ (List.cons_ne_nil _ _))

theorem forall_kept_iff (cells : List StyledCell) :
    (∀ cell ∈ cells.zipIdx.take (ink (cells.map (·.ch))).length,
        (!skipShadow width cells cell.2 cell.1) = true) ↔
      ∀ i, i + 1 < (ink (cells.map (·.ch))).length →
        ((cells.map (·.ch))[i]?).any (isWide width) → (cells.map (·.ch))[i + 1]? ≠ some ' ' := by
  generalize (ink (cells.map (·.ch))).length = n
  have hat (k : Nat) (hk : k < n) :
      (cells.zipIdx.take n)[k]? = cells[k]?.map fun cell => (cell, k) := by
    rw [List.getElem?_take_of_lt hk, List.getElem?_zipIdx, Nat.zero_add]
  have hwide (k : Nat) : ((cells.map (·.ch))[k]?).any (isWide width) =
      (cells[k]?).any fun cell => isWide width cell.ch := by
    rw [List.getElem?_map]
    cases cells[k]? <;> rfl
  constructor
  · intro hkept i hi hw hblank
    rw [List.getElem?_map, Option.map_eq_some_iff] at hblank
    obtain ⟨cell, hcell, hch⟩ := hblank
    have hmem : (cell, i + 1) ∈ cells.zipIdx.take n := by
      apply List.mem_of_getElem? (i := i + 1)
      rw [hat _ hi, hcell]
      rfl
    have hskip : skipShadow width cells (i + 1) cell = true := by
      rw [hwide] at hw
      unfold skipShadow
      rw [hch, Nat.add_sub_cancel, hw]
      rfl
    have hnot := hkept _ hmem
    rw [hskip] at hnot
    cases hnot
  · intro h cell hmem
    obtain ⟨k, hk⟩ := List.mem_iff_getElem?.mp hmem
    have hkn : k < n := by
      by_contra hge
      rw [List.getElem?_take_eq_none (not_lt.mp hge)] at hk
      cases hk
    rw [hat _ hkn, Option.map_eq_some_iff] at hk
    obtain ⟨cell', hcell, rfl⟩ := hk
    rw [Bool.not_eq_true']
    apply Bool.eq_false_iff.mpr
    intro hskip
    have hch := skipShadow_blank hskip
    unfold skipShadow at hskip
    rw [Bool.and_eq_true, Bool.and_eq_true, decide_eq_true_eq] at hskip
    obtain ⟨⟨-, hpos⟩, hleft⟩ := hskip
    obtain ⟨i, rfl⟩ := Nat.exists_eq_add_of_le' (of_decide_eq_true hpos)
    rw [Nat.succ_eq_add_one, Nat.add_sub_cancel, ← hwide] at hleft
    apply h i hkn hleft
    rw [List.getElem?_map, hcell, Option.map_some, hch]

theorem spanText_eq_iff (cells : List StyledCell) :
    spanText (styledCellsToSpans width cells) = trimEnd (cells.map (·.ch)) ↔
      RowAgrees width (cells.map (·.ch)) := by
  rw [RowAgrees, ← forall_kept_iff, trimEnd_eq]
  have hwhole (h : ∀ c ∈ (ink (cells.map (·.ch))).getLast?, isWhitespace c = false) :
      trimEnd (ink (cells.map (·.ch))) = ink (cells.map (·.ch)) := by
    apply List.rdropWhile_eq_self_iff.mpr
    intro hne
    rw [h _ (List.getLast?_eq_some_getLast hne)]
    exact Bool.false_ne_true
  constructor
  · intro heq
    have hlast : ∀ c ∈ (ink (cells.map (·.ch))).getLast?, isWhitespace c = false := by
      intro c hc
      obtain ⟨hne, rfl⟩ := List.mem_getLast?_eq_getLast hc
      obtain ⟨front, hfront⟩ := spanText_concat cells hne
      have hend := hfront.symm.trans heq
      have hne' : trimEnd (ink (cells.map (·.ch))) ≠ [] := by
        rw [← hend]
        simp
      have hsame : (trimEnd (ink (cells.map (·.ch)))).getLast hne' =
          (ink (cells.map (·.ch))).getLast hne := by
        simp only [← hend, List.getLast_concat]
      rw [← hsame]
      exact Bool.eq_false_iff.mpr (List.rdropWhile_last_not isWhitespace _ hne')
    apply And.intro hlast
    rw [hwhole hlast, spanText_styledCellsToSpans] at heq
    have hlength := congrArg List.length heq
    have htake := congrArg List.length (take_ink cells)
    rw [List.length_map] at hlength htake
    exact List.length_filter_eq_length_iff.mp (hlength.trans htake.symm)
  · rintro ⟨hlast, hkept⟩
    rw [hwhole hlast, spanText_styledCellsToSpans, List.filter_eq_self.mpr hkept, take_ink]

end Spans

section Render

variable (width : Char → Option Nat) (input : String)

/-- The lines of the spans are the lines of the plain text. -/
def StyledAgrees : Prop :=
  (terminalOutputStyledLinesLossy width input).map (fun spans => String.ofList (spanText spans)) =
    lines (terminalTextLossy width .tuiTail input)

theorem styledCell_isText : IsText (fun cell : StyledCell => cell.ch) where
  fromChar _ _ := rfl
  blank _ := rfl

theorem chars_styledCsi (sequence : List Char) (core : VtCore StyledCell TuiTextStyle) :
    (styledCsi sequence core).chars (·.ch) = (core.chars (·.ch)).applyCsi sequence := by
  unfold styledCsi
  split
  · next hnone =>
      unfold VtCore.applyCsi
      rw [hnone]
  · next finalByte hfinal =>
      split
      · next hm =>
          unfold VtCore.applyCsi
          rw [hfinal]
          simp only [hm]
          rfl
      · exact chars_applyCsi core styledCell_isText sequence

theorem styledScreen_rows :
    (styledScreen width input).lines.map (List.map (·.ch)) =
      textScreen width .tuiTail input := by
  have hscreen : (styledScreen width input).chars (·.ch) =
      VtCore.vtDrive width VtCore.applyCsi (VtCore.new () 400) input :=
    chars_vtDrive _ styledCell_isText chars_styledCsi input
  exact congrArg VtCore.lines hscreen

theorem styledLines_text :
    (terminalOutputStyledLinesLossy width input).map spanText =
      trimEdges ((styledScreen width input).lines.map fun cells =>
        spanText (styledCellsToSpans width cells)) := by
  have hfront (lines : List (List TuiTextSpan)) (hlines : ∀ spans ∈ lines,
      spans.isEmpty = (spanText spans).isEmpty) :
      (lines.dropWhile (·.isEmpty)).map spanText =
        (lines.map spanText).dropWhile (·.isEmpty) := by
    induction lines with
    | nil => rfl
    | cons spans lines ih =>
      rw [List.forall_mem_cons] at hlines
      rw [List.map_cons, List.dropWhile_cons, List.dropWhile_cons, ← hlines.1]
      split
      · exact ih hlines.2
      · rfl
  have hspans : ∀ spans ∈ (styledScreen width input).lines.map (styledCellsToSpans width),
      spans.isEmpty = (spanText spans).isEmpty := by
    intro spans hspans
    obtain ⟨cells, -, rfl⟩ := List.mem_map.mp hspans
    exact isEmpty_styledCellsToSpans cells
  have hback : ∀ spans ∈ (((styledScreen width input).lines.map
      (styledCellsToSpans width)).dropWhile (·.isEmpty)).reverse,
      spans.isEmpty = (spanText spans).isEmpty :=
    fun spans hmem => hspans spans ((List.dropWhile_sublist _).subset (List.mem_reverse.mp hmem))
  unfold terminalOutputStyledLinesLossy trimEmptyStyledEdges trimEdges
  rw [List.rdropWhile, List.map_reverse, hfront _ hback, List.map_reverse, hfront _ hspans,
    List.map_map]
  rfl

theorem plainLines_text :
    lines (terminalTextLossy width .tuiTail input) =
      (trimEdges ((textScreen width .tuiTail input).map trimEnd)).map String.ofList := by
  have htrim : TerminalTextOptions.tuiTail.trimEmptyEdges = true := rfl
  unfold terminalTextLossy
  dsimp only
  rw [if_pos htrim, toList_joinedRows, lines_trimmed (textRows_plain width .tuiTail input)]

/-- The renderings agree just if every row of the screen does. -/
theorem styledAgrees_iff :
    StyledAgrees width input ↔
      ∀ row ∈ textScreen width .tuiTail input, RowAgrees width row := by
  have hinj : Function.Injective String.ofList := fun _ _ => String.ofList_inj.mp
  have hmap : (terminalOutputStyledLinesLossy width input).map
      (fun spans => String.ofList (spanText spans)) =
        ((terminalOutputStyledLinesLossy width input).map spanText).map String.ofList := by
    rw [List.map_map]
    rfl
  rw [StyledAgrees, hmap, plainLines_text, (List.map_injective_iff.mpr hinj).eq_iff,
    styledLines_text, ← styledScreen_rows, List.map_map]
  rw [trimEdges_inj (by simp)]
  · rw [List.map_inj_left, List.forall_mem_map]
    exact forall₂_congr fun cells _ => spanText_eq_iff cells
  · intro i hempty
    rw [List.getElem?_map, Option.map_eq_some_iff] at hempty ⊢
    obtain ⟨cells, hcells, htext⟩ := hempty
    exact ⟨cells, hcells, trimEnd_of_spanText htext⟩

end Render

/-- The second column of a wide character is a blank of the plain text only. -/
theorem not_styledAgrees_wide :
    ¬ StyledAgrees (fun c => some (if c = '世' then 2 else 1)) "世a" := by
  unfold StyledAgrees
  decide +kernel

/-- A non-breaking space at the end of a line is one of the spans only. -/
example : ¬ StyledAgrees (fun _ => some 1) "a\u00a0" := by
  unfold StyledAgrees
  decide +kernel

end HerdrWebui.Terminal
