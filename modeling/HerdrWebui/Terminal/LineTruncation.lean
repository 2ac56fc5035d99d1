import HerdrWebui.Terminal.StyledText

/-!
A line of spans cut to a number of columns: each span is cut to the columns that the spans in
front of it have left, with an ellipsis for what does not fit. How wide a character is, is a
parameter, and a text is as wide as its characters together.
-/

namespace HerdrWebui.Terminal

section Line

variable (width : Char → Option Nat)

/-- What has no width of its own takes no column. -/
def columns (ch : Char) : Nat := (width ch).getD 0

def truncateWidthUnits (value : List Char) : Nat := (value.map (columns width)).sum

/-- The characters that fit, and an ellipsis where one does not. -/
def truncateGo (truncateWidth maxWidth : Nat) : (out value : List Char) → List Char
  | out, [] => out
  | out, ch :: rest =>
    if truncateWidth < truncateWidthUnits width out + columns width ch then
      if truncateWidthUnits width out < maxWidth then out ++ ['…'] else out
    else truncateGo truncateWidth maxWidth (out ++ [ch]) rest

def truncate (value : List Char) (maxWidth : Nat) : List Char :=
  if maxWidth = 0 then []
  else if truncateWidthUnits width value ≤ maxWidth then value
  else truncateGo width (maxWidth - 1) maxWidth [] value

/-- A style with the color that text has without one of its own. -/
def TuiTextStyle.toRatatui (fallbackFg : Color) (style : TuiTextStyle) : TuiTextStyle :=
  { style with fg := some (style.fg.getD fallbackFg) }

/-- The spans, as long as there are columns left. -/
def truncateSpans (fallbackFg : Color) : (remaining : Nat) → List TuiTextSpan → List TuiTextSpan
  | _, [] => []
  | remaining, span :: rest =>
    if remaining = 0 then []
    else
      let truncated := truncate width span.text remaining
      ⟨truncated, span.style.toRatatui fallbackFg⟩ ::
        truncateSpans fallbackFg (remaining - truncateWidthUnits width truncated) rest

def styledTerminalLine (spans : List TuiTextSpan) (maxWidth : Nat) (fallbackFg : Color) :
    List TuiTextSpan :=
  if maxWidth = 0 then [⟨[], {}⟩] else truncateSpans width fallbackFg maxWidth spans

/-- Each character takes two columns at most, and the ellipsis takes one. -/
structure TextWidth : Prop where
  le_two : ∀ ch, columns width ch ≤ 2
  ellipsis : columns width '…' = 1

/-- What is shown of a text: no more than fits, all of it if it fits, and else as much of its
front as there is room for. -/
structure CutExactly (text shown : List Char) (maxWidth : Nat) : Prop where
  fits : truncateWidthUnits width shown ≤ maxWidth
  whole : truncateWidthUnits width text ≤ maxWidth → shown = text
  front : ∃ kept ellipsis rest, text = kept ++ rest ∧ shown = kept ++ ellipsis ∧
    (ellipsis = [] ∨ ellipsis = ['…']) ∧
    ∀ more, more ≠ [] → more <+: rest →
      maxWidth < truncateWidthUnits width (kept ++ more) + truncateWidthUnits width ellipsis

/-- Where the columns end with a span, the text does not go on with a character without a
width. A line that does not fit and is cut behind an ellipsis of its own counts as cut there. -/
def EndsClean (spans : List TuiTextSpan) (maxWidth : Nat) : Prop :=
  ∀ front back, spans = front ++ back → truncateWidthUnits width (spanText front) = maxWidth →
    (∀ span ∈ front.getLast?, 0 < truncateWidthUnits width span.text) →
    (∀ ch ∈ (spanText back).head?, columns width ch ≠ 0) ∨
      maxWidth < truncateWidthUnits width (spanText spans) ∧
        (spanText front).getLast? = some '…'

/-- Where a wide character would take the last two columns and its span goes on, there is no
text in the spans behind. -/
def FillsUp (spans : List TuiTextSpan) (maxWidth : Nat) : Prop :=
  ∀ front span back before ch after, spans = front ++ span :: back →
    span.text = before ++ ch :: after → columns width ch = 2 →
    truncateWidthUnits width (spanText front ++ before) + 2 = maxWidth →
    0 < truncateWidthUnits width after → spanText back = []

end Line

section Widths

variable {width : Char → Option Nat}

@[simp] theorem truncateWidthUnits_nil : truncateWidthUnits width [] = 0 := rfl

@[simp] theorem truncateWidthUnits_cons (ch : Char) (value : List Char) :
    truncateWidthUnits width (ch :: value) = columns width ch + truncateWidthUnits width value := by
  simp [truncateWidthUnits]

@[simp] theorem truncateWidthUnits_append (value more : List Char) :
    truncateWidthUnits width (value ++ more) =
      truncateWidthUnits width value + truncateWidthUnits width more := by
  simp [truncateWidthUnits]

@[simp] theorem spanText_nil : spanText [] = [] := rfl

@[simp] theorem spanText_cons (span : TuiTextSpan) (spans : List TuiTextSpan) :
    spanText (span :: spans) = span.text ++ spanText spans := by
  simp [spanText]

theorem truncateGo_cut {truncateWidth maxWidth : Nat} (hmax : truncateWidth < maxWidth)
    (out value : List Char) (hout : truncateWidthUnits width out ≤ truncateWidth)
    (hcut : truncateWidth < truncateWidthUnits width (out ++ value)) :
    ∃ before ch after, value = before ++ ch :: after ∧
      truncateWidthUnits width (out ++ before) ≤ truncateWidth ∧
      truncateWidth < truncateWidthUnits width (out ++ before) + columns width ch ∧
      truncateGo width truncateWidth maxWidth out value = out ++ before ++ ['…'] := by
  induction value generalizing out with
  | nil =>
    rw [List.append_nil] at hcut
    omega
  | cons ch rest ih =>
    rw [truncateGo]
    by_cases hch : truncateWidth < truncateWidthUnits width out + columns width ch
    · refine ⟨[], ch, rest, rfl, ?_, ?_, ?_⟩
      · rwa [List.append_nil]
      · rwa [List.append_nil]
      · rw [if_pos hch, if_pos (by omega), List.append_nil]
    · rw [if_neg hch]
      have hnext : truncateWidthUnits width (out ++ [ch]) ≤ truncateWidth := by
        simp
        omega
      obtain ⟨before, ch', after, hrest, hle, hlt, hgo⟩ := ih _ hnext
        (by rwa [List.append_assoc, List.singleton_append])
      rw [List.append_assoc, List.singleton_append] at hle hlt
      refine ⟨ch :: before, ch', after, ?_, hle, hlt, ?_⟩
      · rw [hrest, List.cons_append]
      · rw [hgo]
        simp

theorem truncate_cut {value : List Char} {maxWidth : Nat} (hmax : 0 < maxWidth)
    (hcut : maxWidth < truncateWidthUnits width value) :
    ∃ before ch after, value = before ++ ch :: after ∧
      truncateWidthUnits width before + 1 ≤ maxWidth ∧
      maxWidth < truncateWidthUnits width before + 1 + columns width ch ∧
      truncate width value maxWidth = before ++ ['…'] := by
  have hroom : maxWidth - 1 < maxWidth := by omega
  have hover : maxWidth - 1 < truncateWidthUnits width ([] ++ value) := by
    rw [List.nil_append]
    omega
  obtain ⟨before, ch, after, hvalue, hle, hlt, hgo⟩ := truncateGo_cut hroom [] value
    (by simp) hover
  rw [List.nil_append] at hle hlt hgo
  refine ⟨before, ch, after, hvalue, by omega, by omega, ?_⟩
  rw [truncate, if_neg (by omega), if_neg (by omega), hgo]

theorem truncate_fits {value : List Char} {maxWidth : Nat} (hmax : 0 < maxWidth)
    (hfits : truncateWidthUnits width value ≤ maxWidth) :
    truncate width value maxWidth = value := by
  rw [truncate, if_neg (by omega), if_pos hfits]

end Widths

section Cut

variable {width : Char → Option Nat} {fallbackFg : Color}

theorem truncateSpans_zero (spans : List TuiTextSpan) :
    truncateSpans width fallbackFg 0 spans = [] := by
  cases spans <;> simp [truncateSpans]

theorem truncateSpans_fits {remaining : Nat} {span : TuiTextSpan} (hpos : 0 < remaining)
    (hfits : truncateWidthUnits width span.text ≤ remaining) (rest : List TuiTextSpan) :
    spanText (truncateSpans width fallbackFg remaining (span :: rest)) =
      span.text ++ spanText (truncateSpans width fallbackFg
        (remaining - truncateWidthUnits width span.text) rest) := by
  rw [truncateSpans, if_neg (by omega), truncate_fits hpos hfits, spanText_cons]

theorem spanText_truncateSpans_eq_nil {remaining : Nat}
    (hpos : 0 < remaining) (spans : List TuiTextSpan) :
    spanText (truncateSpans width fallbackFg remaining spans) = [] ↔ spanText spans = [] := by
  induction spans generalizing remaining with
  | nil => simp [truncateSpans]
  | cons span rest ih =>
    rw [spanText_cons, List.append_eq_nil_iff]
    by_cases hfits : truncateWidthUnits width span.text ≤ remaining
    · rw [truncateSpans_fits hpos hfits, List.append_eq_nil_iff]
      apply and_congr_right
      intro hempty
      rw [hempty, truncateWidthUnits_nil, Nat.sub_zero]
      exact ih hpos
    · obtain ⟨before, ch, after, htext, -, -, hcut⟩ := truncate_cut hpos (not_le.mp hfits)
      rw [truncateSpans, if_neg (by omega), hcut, spanText_cons, htext]
      simp

/-- The line goes on behind text that is shown already. -/
def EndsCleanAfter (width : Char → Option Nat) (shown : List Char) (remaining : Nat)
    (spans : List TuiTextSpan) : Prop :=
  ∀ front back, spans = front ++ back → truncateWidthUnits width (spanText front) = remaining →
    (∀ span ∈ front.getLast?, 0 < truncateWidthUnits width span.text) →
    (∀ ch ∈ (spanText back).head?, columns width ch ≠ 0) ∨
      remaining < truncateWidthUnits width (spanText spans) ∧
        (shown ++ spanText front).getLast? = some '…'

theorem endsCleanAfter_nil (maxWidth : Nat) (spans : List TuiTextSpan) :
    EndsCleanAfter width [] maxWidth spans ↔ EndsClean width spans maxWidth := Iff.rfl

theorem endsCleanAfter_cons {shown : List Char} {remaining : Nat} {span : TuiTextSpan}
    {rest : List TuiTextSpan} (hpos : 0 < remaining)
    (hfits : truncateWidthUnits width span.text ≤ remaining) :
    EndsCleanAfter width shown remaining (span :: rest) ↔
      EndsCleanAfter width (shown ++ span.text)
        (remaining - truncateWidthUnits width span.text) rest := by
  constructor
  · intro h front back hspans hwidth hlast
    have hcons := h (span :: front) back (by rw [hspans, List.cons_append])
      (by rw [spanText_cons, truncateWidthUnits_append]; omega) (by
        intro last hmem
        cases front with
        | nil =>
          rw [List.getLast?_singleton, Option.mem_some_iff] at hmem
          rw [spanText_nil, truncateWidthUnits_nil] at hwidth
          rw [← hmem]
          omega
        | cons next front => exact hlast last hmem)
    rw [spanText_cons, spanText_cons, truncateWidthUnits_append, ← List.append_assoc] at hcons
    refine hcons.imp_right fun hmore => ⟨?_, hmore.2⟩
    omega
  · intro h front back hspans hwidth hlast
    cases front with
    | nil =>
      rw [spanText_nil, truncateWidthUnits_nil] at hwidth
      omega
    | cons next front =>
      obtain ⟨rfl, rfl⟩ := List.cons_eq_cons.mp hspans
      rw [spanText_cons, truncateWidthUnits_append] at hwidth
      have hrest := h front back rfl (by omega) (by
        intro last hmem
        cases front with
        | nil => cases hmem
        | cons next front => exact hlast last hmem)
      rw [spanText_cons, spanText_cons, truncateWidthUnits_append, ← List.append_assoc]
      refine hrest.imp_right fun hmore => ⟨?_, hmore.2⟩
      omega

theorem fillsUp_cons {remaining : Nat} {span : TuiTextSpan} {rest : List TuiTextSpan}
    (hfits : truncateWidthUnits width span.text ≤ remaining) :
    FillsUp width (span :: rest) remaining ↔
      FillsUp width rest (remaining - truncateWidthUnits width span.text) := by
  constructor
  · intro h front next back before ch after hspans htext htwo hwidth hmore
    refine h (span :: front) next back before ch after (by rw [hspans, List.cons_append]) htext
      htwo ?_ hmore
    rw [spanText_cons, List.append_assoc, truncateWidthUnits_append]
    omega
  · intro h front next back before ch after hspans htext htwo hwidth hmore
    cases front with
    | nil =>
      obtain ⟨rfl, rfl⟩ := List.cons_eq_cons.mp hspans
      rw [htext, truncateWidthUnits_append, truncateWidthUnits_cons] at hfits
      rw [spanText_nil, List.nil_append] at hwidth
      omega
    | cons head front =>
      obtain ⟨rfl, rfl⟩ := List.cons_eq_cons.mp hspans
      refine h front next back before ch after rfl htext htwo ?_ hmore
      rw [spanText_cons, List.append_assoc, truncateWidthUnits_append] at hwidth
      omega

theorem cutExactly_full (hwidth : TextWidth width) {shown : List Char}
    {spans : List TuiTextSpan} :
    CutExactly width (shown ++ spanText spans) shown (truncateWidthUnits width shown) ↔
      EndsCleanAfter width shown 0 spans ∧ FillsUp width spans 0 := by
  constructor
  · rintro ⟨-, hwhole, kept, ellipsis, rest, htext, hshown, hellipsis, hmax⟩
    refine ⟨?_, fun front span back before ch after _ _ _ hbudget => by omega⟩
    intro front back hspans hzero hlast
    have hnil : front = [] := by
      by_contra hne
      have hpos := hlast _ (List.getLast?_eq_some_getLast hne)
      rw [← List.dropLast_concat_getLast hne] at hzero
      simp only [spanText, List.flatMap_append, List.flatMap_singleton,
        truncateWidthUnits_append] at hzero
      omega
    subst hnil
    rw [List.nil_append] at hspans
    subst hspans
    rw [spanText_nil, List.append_nil]
    rcases hellipsis with rfl | rfl
    · -- Nothing is added: the next character would have been shown.
      left
      intro ch hch hwidthless
      rw [List.append_nil] at hshown
      subst hshown
      have hrest := List.append_cancel_left htext
      obtain ⟨after, hafter⟩ : ∃ after, rest = ch :: after := by
        rw [← hrest]
        cases hback : spanText spans with
        | nil =>
          rw [hback] at hch
          cases hch
        | cons c after =>
          rw [hback] at hch
          obtain rfl := Option.some.inj hch
          exact ⟨after, rfl⟩
      have hmore := hmax [ch] (by simp) (by rw [hafter]; simp)
      simp only [truncateWidthUnits_append, truncateWidthUnits_cons, truncateWidthUnits_nil,
        hwidthless] at hmore
      omega
    · by_cases hempty : spanText spans = []
      · left
        rw [hempty]
        intro ch hch
        cases hch
      · right
        refine ⟨?_, by rw [hshown, List.getLast?_concat]⟩
        by_contra hnone
        have hall := hwhole (by rw [truncateWidthUnits_append]; omega)
        exact hempty (List.append_right_eq_self.mp hall.symm)
  · rintro ⟨hends, -⟩
    have hnext := hends [] spans rfl rfl (by simp)
    rw [spanText_nil, List.append_nil] at hnext
    by_cases hempty : spanText spans = []
    · rw [hempty, List.append_nil]
      refine ⟨le_rfl, fun _ => rfl, shown, [], [], ?_, ?_, .inl rfl, ?_⟩
      · rw [List.append_nil]
      · rw [List.append_nil]
      · intro more hne hmore
        exact absurd (List.prefix_nil.mp hmore) hne
    · rcases hnext with hclean | ⟨hover, hlast⟩
      · -- The next character takes a column that is not there.
        obtain ⟨ch, after, htext⟩ := List.exists_cons_of_ne_nil hempty
        have hch : 0 < columns width ch := Nat.pos_of_ne_zero (hclean ch (by rw [htext]; rfl))
        refine ⟨le_rfl, ?_, shown, [], spanText spans, rfl, by rw [List.append_nil], .inl rfl, ?_⟩
        · intro hfits
          rw [truncateWidthUnits_append, htext, truncateWidthUnits_cons] at hfits
          omega
        · intro more hne hmore
          obtain ⟨c, more, rfl⟩ := List.exists_cons_of_ne_nil hne
          rw [htext, List.cons_prefix_cons] at hmore
          rw [truncateWidthUnits_append, truncateWidthUnits_cons, hmore.1]
          omega
      · -- The ellipsis that the text has itself is where it is cut.
        obtain ⟨kept, rfl⟩ : ∃ kept, shown = kept ++ ['…'] := by
          obtain ⟨front, heq⟩ := List.getLast?_eq_some_iff.mp hlast
          exact ⟨front, heq⟩
        refine ⟨le_rfl, ?_, kept, ['…'], '…' :: spanText spans, ?_, rfl, .inr rfl, ?_⟩
        · intro hfits
          rw [truncateWidthUnits_append] at hfits
          omega
        · rw [List.append_assoc, List.singleton_append]
        · intro more hne hmore
          obtain ⟨c, more, rfl⟩ := List.exists_cons_of_ne_nil hne
          rw [List.cons_prefix_cons] at hmore
          rw [hmore.1]
          simp only [truncateWidthUnits_append, truncateWidthUnits_cons, truncateWidthUnits_nil,
            hwidth.ellipsis]
          omega

/-- The character in front of which a text is cut is where two columns were left. -/
theorem columns_left {before before' after after' : List Char} {ch ch' : Char} {maxWidth : Nat}
    (hsame : before ++ ch :: after = before' ++ ch' :: after')
    (hfits : truncateWidthUnits width before + 1 ≤ maxWidth)
    (hover : maxWidth < truncateWidthUnits width before + 1 + columns width ch)
    (hwide : columns width ch' = 2) (hcolumns : truncateWidthUnits width before' + 2 = maxWidth) :
    truncateWidthUnits width before + 2 = maxWidth := by
  rcases List.append_eq_append_iff.mp hsame with ⟨mid, rfl, htail⟩ | ⟨mid, rfl, htail⟩
  · cases mid with
    | nil => rwa [List.append_nil] at hcolumns
    | cons c mid =>
      rw [List.cons_append, List.cons_eq_cons] at htail
      rw [truncateWidthUnits_append, truncateWidthUnits_cons, ← htail.1] at hcolumns
      omega
  · cases mid with
    | nil => rwa [List.append_nil]
    | cons c mid =>
      rw [List.cons_append, List.cons_eq_cons] at htail
      rw [truncateWidthUnits_append, truncateWidthUnits_cons, ← htail.1] at hfits
      omega

/-- Behind the ellipsis text is shown only where a wide character left a column. -/
theorem spanText_behind_eq_nil (hwidth : TextWidth width) {remaining : Nat} {span : TuiTextSpan}
    {rest : List TuiTextSpan} {before after : List Char} {ch : Char}
    (htext : span.text = before ++ ch :: after)
    (hcut : remaining < truncateWidthUnits width span.text)
    (hfits : truncateWidthUnits width before + 1 ≤ remaining)
    (hover : remaining < truncateWidthUnits width before + 1 + columns width ch) :
    spanText (truncateSpans width fallbackFg
        (remaining - (truncateWidthUnits width before + 1)) rest) = [] ↔
      FillsUp width (span :: rest) remaining := by
  have htwo := hwidth.le_two ch
  constructor
  · intro hnil front next back before' ch' after' hspans htext' hwide hcolumns _
    cases front with
    | nil =>
      obtain ⟨rfl, rfl⟩ := List.cons_eq_cons.mp hspans
      have hleft := columns_left (htext.symm.trans htext') hfits hover hwide hcolumns
      have hone : 0 < remaining - (truncateWidthUnits width before + 1) := by omega
      exact (spanText_truncateSpans_eq_nil hone _).mp hnil
    | cons head front =>
      obtain ⟨rfl, rfl⟩ := List.cons_eq_cons.mp hspans
      rw [spanText_cons, List.append_assoc, truncateWidthUnits_append] at hcolumns
      omega
  · intro hfill
    by_cases hfull : remaining = truncateWidthUnits width before + 1
    · rw [hfull, Nat.sub_self, truncateSpans_zero, spanText_nil]
    · rw [htext, truncateWidthUnits_append, truncateWidthUnits_cons] at hcut
      have hone : 0 < remaining - (truncateWidthUnits width before + 1) := by omega
      rw [spanText_truncateSpans_eq_nil hone]
      refine hfill [] span rest before ch after rfl htext (by omega) ?_ (by omega)
      rw [spanText_nil, List.nil_append]
      omega

/-- The span that does not fit is the last, but for a column that is left of two. -/
theorem cutExactly_cut (hwidth : TextWidth width) {shown : List Char} {remaining : Nat}
    {span : TuiTextSpan} {rest : List TuiTextSpan} (hpos : 0 < remaining)
    (hcut : remaining < truncateWidthUnits width span.text) :
    CutExactly width (shown ++ spanText (span :: rest))
        (shown ++ spanText (truncateSpans width fallbackFg remaining (span :: rest)))
        (truncateWidthUnits width shown + remaining) ↔
      EndsCleanAfter width shown remaining (span :: rest) ∧
        FillsUp width (span :: rest) remaining := by
  obtain ⟨before, ch, after, htext, hfits, hover, htruncate⟩ := truncate_cut hpos hcut
  have hone := hwidth.ellipsis
  obtain ⟨tail, htail⟩ : ∃ tail, spanText (truncateSpans width fallbackFg
      (remaining - (truncateWidthUnits width before + 1)) rest) = tail := ⟨_, rfl⟩
  have hline : spanText (truncateSpans width fallbackFg remaining (span :: rest)) =
      before ++ '…' :: tail := by
    rw [truncateSpans, if_neg (by omega), htruncate, spanText_cons, truncateWidthUnits_append,
      truncateWidthUnits_cons, hone, truncateWidthUnits_nil, htail]
    simp
  have htailNil : tail = [] ↔ FillsUp width (span :: rest) remaining := by
    rw [← htail]
    exact spanText_behind_eq_nil hwidth htext hcut hfits hover
  have hends : EndsCleanAfter width shown remaining (span :: rest) := by
    intro front back hspans hcolumns _
    cases front with
    | nil =>
      rw [spanText_nil, truncateWidthUnits_nil] at hcolumns
      omega
    | cons next front =>
      obtain ⟨rfl, rfl⟩ := List.cons_eq_cons.mp hspans
      rw [spanText_cons, truncateWidthUnits_append] at hcolumns
      omega
  rw [hline, and_iff_right hends, ← htailNil, spanText_cons, htext]
  constructor
  · rintro ⟨-, -, kept, ellipsis, more, hkept, hshown, hellipsis, -⟩
    by_contra hne
    -- The ellipsis would be a character of the text.
    have hlength := congrArg List.length hshown
    have hshort : ellipsis.length ≤ 1 := by
      rcases hellipsis with rfl | rfl <;> simp
    have htailLength := List.length_pos_iff.mpr hne
    simp only [List.length_append, List.length_cons] at hlength
    have hwithin : shown ++ before ++ ['…'] <+: kept := by
      apply @List.prefix_of_prefix_length_le _ _ _ (kept ++ ellipsis)
      · rw [← hshown]
        exact ⟨tail, by simp⟩
      · exact List.prefix_append _ _
      · simp only [List.length_append, List.length_cons, List.length_nil]
        omega
    have hgoes : shown ++ before ++ ['…'] <+: shown ++ before ++ ch :: (after ++ spanText rest) := by
      refine hwithin.trans ⟨more, ?_⟩
      rw [← hkept]
      simp
    rw [List.prefix_append_right_inj, List.cons_prefix_cons] at hgoes
    rw [← hgoes.1, hone] at hover
    have hfull : remaining - (truncateWidthUnits width before + 1) = 0 := by omega
    rw [hfull, truncateSpans_zero, spanText_nil] at htail
    exact hne htail.symm
  · rintro rfl
    rw [htext, truncateWidthUnits_append, truncateWidthUnits_cons] at hcut
    refine ⟨?_, ?_, shown ++ before, ['…'], ch :: (after ++ spanText rest), ?_, ?_, .inr rfl, ?_⟩
    · simp only [truncateWidthUnits_append, truncateWidthUnits_cons, truncateWidthUnits_nil, hone]
      omega
    · intro hall
      simp only [truncateWidthUnits_append, truncateWidthUnits_cons] at hall
      omega
    · simp
    · simp
    · intro more hmore hprefixed
      obtain ⟨c, more, rfl⟩ := List.exists_cons_of_ne_nil hmore
      rw [List.cons_prefix_cons] at hprefixed
      rw [hprefixed.1]
      simp only [truncateWidthUnits_append, truncateWidthUnits_cons, truncateWidthUnits_nil, hone]
      omega

theorem cutExactly_behind (hwidth : TextWidth width) (shown : List Char) (remaining : Nat)
    (spans : List TuiTextSpan) :
    CutExactly width (shown ++ spanText spans)
        (shown ++ spanText (truncateSpans width fallbackFg remaining spans))
        (truncateWidthUnits width shown + remaining) ↔
      EndsCleanAfter width shown remaining spans ∧ FillsUp width spans remaining := by
  induction spans generalizing shown remaining with
  | nil =>
    refine iff_of_true ?_ ⟨?_, ?_⟩
    · refine ⟨?_, fun _ => rfl, shown, [], [], rfl, rfl, .inl rfl, ?_⟩
      · simp [truncateSpans]
      · intro more hne hmore
        exact absurd (List.prefix_nil.mp hmore) hne
    · intro front back hspans _ _
      left
      rw [(List.append_eq_nil_iff.mp hspans.symm).2]
      intro ch hch
      cases hch
    · intro front span back before ch after hspans
      simp at hspans
  | cons span rest ih =>
    rcases Nat.eq_zero_or_pos remaining with rfl | hpos
    · rw [truncateSpans_zero, spanText_nil, List.append_nil, Nat.add_zero]
      exact cutExactly_full hwidth
    · by_cases hfits : truncateWidthUnits width span.text ≤ remaining
      · have hrest := ih (shown ++ span.text) (remaining - truncateWidthUnits width span.text)
        have hbudget : truncateWidthUnits width (shown ++ span.text) +
            (remaining - truncateWidthUnits width span.text) =
              truncateWidthUnits width shown + remaining := by
          rw [truncateWidthUnits_append]
          omega
        rw [hbudget, List.append_assoc, List.append_assoc] at hrest
        rw [truncateSpans_fits hpos hfits, spanText_cons, hrest,
          ← endsCleanAfter_cons hpos hfits, ← fillsUp_cons hfits]
      · exact cutExactly_cut hwidth hpos (not_le.mp hfits)

end Cut

/-- A line is cut as it should be just where its columns do not end in front of a character
without a width, nor with one left of two while text follows. -/
theorem styledTerminalLine_cutExactly_iff {width : Char → Option Nat} (hwidth : TextWidth width)
    (spans : List TuiTextSpan) (maxWidth : Nat) (fallbackFg : Color) :
    CutExactly width (spanText spans)
        (spanText (styledTerminalLine width spans maxWidth fallbackFg)) maxWidth ↔
      EndsClean width spans maxWidth ∧ FillsUp width spans maxWidth := by
  have hline : spanText (styledTerminalLine width spans maxWidth fallbackFg) =
      spanText (truncateSpans width fallbackFg maxWidth spans) := by
    rw [styledTerminalLine]
    split
    · next hzero =>
        rw [hzero, truncateSpans_zero]
        rfl
    · rfl
  have hcut := @cutExactly_behind _ fallbackFg hwidth [] maxWidth spans
  rwa [List.nil_append, List.nil_append, truncateWidthUnits_nil, Nat.zero_add,
    endsCleanAfter_nil, ← hline] at hcut

/-- Widths as they are: wide, without a width, and all others. -/
def sampleWidth (ch : Char) : Option Nat :=
  some (if ch = '世' then 2 else if ch = '\u0301' then 0 else 1)

theorem textWidth_sampleWidth : TextWidth sampleWidth where
  le_two ch := by
    unfold columns sampleWidth
    split
    · rfl
    · split <;> simp
  ellipsis := rfl

/-- One span of narrow characters is cut as it should be. -/
theorem styledTerminalLine_narrow :
    CutExactly sampleWidth (spanText [⟨['a', 'b', 'c'], {}⟩])
      (spanText (styledTerminalLine sampleWidth [⟨['a', 'b', 'c'], {}⟩] 2 (.indexed 7))) 2 := by
  apply (styledTerminalLine_cutExactly_iff textWidth_sampleWidth _ _ _).mpr
  constructor
  · intro front back hspans hcolumns
    cases front with
    | nil => cases hcolumns
    | cons span front =>
      obtain ⟨rfl, hnil⟩ := List.cons_eq_cons.mp hspans
      rw [(List.append_eq_nil_iff.mp hnil.symm).1] at hcolumns
      cases hcolumns
  · intro front span back before ch after hspans
    cases front with
    | nil =>
      rw [← (List.cons_eq_cons.mp hspans).2]
      intros
      rfl
    | cons next front => simp at hspans

/-- Text is shown behind the ellipsis, and a line that fits loses a character. -/
theorem styledTerminalLine_misses :
    spanText (styledTerminalLine sampleWidth
        [⟨['世', '世', '世'], {}⟩, ⟨['x'], {}⟩] 4 (.indexed 7)) = ['世', '…', 'x'] ∧
    ¬CutExactly sampleWidth ['世', '世', '世', 'x'] ['世', '…', 'x'] 4 ∧
    spanText (styledTerminalLine sampleWidth [⟨['a'], {}⟩, ⟨['\u0301'], {}⟩] 1
        (.indexed 7)) = ['a'] ∧
    ¬CutExactly sampleWidth ['a', '\u0301'] ['a'] 1 := by
  refine ⟨by decide, ?_, by decide, ?_⟩
  · rintro ⟨-, -, kept, ellipsis, rest, htext, hshown, hellipsis, -⟩
    rcases hellipsis with rfl | rfl
    · rw [List.append_nil] at hshown
      rw [← hshown] at htext
      simp at htext
    · have hlast := congrArg List.getLast? hshown
      rw [List.getLast?_concat] at hlast
      revert hlast
      decide
  · intro h
    have hwhole := h.whole (by decide)
    revert hwhole
    decide

end HerdrWebui.Terminal
