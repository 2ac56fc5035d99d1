import HerdrWebui.Concurrency.System
import HerdrWebui.Data.Tail
import HerdrWebui.Tui.App

/-!
The scrollback of one pane (`tui/mod.rs`): the tail that every refresh and every frame
replaces, the deeper history that a scroll fetches, and the offsets into them, in runs in
which the output of the pane only grows by whole lines.
-/

namespace HerdrWebui.Tui

open Concurrency
open Terminal (TuiTextSpan)

def TerminalText.shown (text : TerminalText) (value : Json) : List String :=
  lines (text.stripAnsiLossy (readText value))

def lineText (line : List TuiTextSpan) : String := String.ofList (line.flatMap (·.text))

namespace PaneBuffers

def withOffsets (scroll : Nat) (lens : LensState) (b : PaneBuffers) : PaneBuffers :=
  { b with paneScroll := scroll, lens := lens }

@[simp] theorem scrollback_withOffsets (scroll : Nat) (lens : LensState) (b : PaneBuffers) :
    (b.withOffsets scroll lens).scrollback = b.scrollback := rfl

theorem deepen_withOffsets (text : TerminalText) (read : Option Json) (scroll : Nat)
    (lens : LensState) (b : PaneBuffers) :
    (b.withOffsets scroll lens).deepen text read =
      ((b.deepen text read).1.withOffsets scroll lens, (b.deepen text read).2) := by
  cases read with
  | none => rfl
  | some value => rfl

/-- A new tail, before the history is made to end with it. -/
def withTail (tail : List String) (styles : List (List TuiTextSpan)) (b : PaneBuffers) :
    PaneBuffers :=
  { b with paneTail := tail, paneTailStyles := styles }

/-- How many answers `scroll_pane_up` and `scroll_lens_up` take, from their offset; none
where they wait for one more. -/
def scrollFetches (text : TerminalText) : List (Option Json) → Nat → Nat → PaneBuffers → Option Nat
  | reads, offset, delta, b =>
    let max := b.scrollback.length - 1
    if offset + delta ≤ max then some 0
    else if b.paneHistoryExhausted then some 0
    else
      match reads with
      | [] => none
      | read :: reads =>
        let (deeper, grew) := b.deepen text read
        if grew = 0 then some 1
        else (scrollFetches text reads max (delta - (max - offset)) deeper).map (· + 1)

variable {text : TerminalText} {b : PaneBuffers} {offset delta : Nat} {read : Option Json}
  {reads : List (Option Json)}

theorem scrollFetches_of_le (h : offset + delta ≤ b.scrollback.length - 1) :
    scrollFetches text reads offset delta b = some 0 := by
  rw [scrollFetches.eq_def]
  exact if_pos h

theorem scrollFetches_of_exhausted (h : b.paneHistoryExhausted = true) :
    scrollFetches text reads offset delta b = some 0 := by
  rw [scrollFetches.eq_def]
  dsimp only
  rw [if_pos h, ite_self]

theorem scrollFetches_cons (h : ¬offset + delta ≤ b.scrollback.length - 1)
    (hexhausted : ¬b.paneHistoryExhausted = true) :
    scrollFetches text (read :: reads) offset delta b =
      if (b.deepen text read).2 = 0 then some 1
      else
        (scrollFetches text reads (b.scrollback.length - 1)
          (delta - (b.scrollback.length - 1 - offset)) (b.deepen text read).1).map (· + 1) := by
  rw [scrollFetches.eq_def]
  dsimp only
  rw [if_neg h, if_neg hexhausted]

theorem scrollFetches_nil (h : ¬offset + delta ≤ b.scrollback.length - 1)
    (hexhausted : ¬b.paneHistoryExhausted = true) :
    scrollFetches text [] offset delta b = none := by
  rw [scrollFetches.eq_def]
  dsimp only
  rw [if_neg h, if_neg hexhausted]

theorem scrollFetches_withOffsets (scroll : Nat) (lens : LensState) :
    scrollFetches text reads offset delta (b.withOffsets scroll lens) =
      scrollFetches text reads offset delta b := by
  induction reads generalizing b offset delta with
  | nil => rw [scrollFetches.eq_def, scrollFetches.eq_def]; rfl
  | cons read reads ih =>
    by_cases hfits : offset + delta ≤ b.scrollback.length - 1
    · rw [scrollFetches_of_le hfits, scrollFetches_of_le (by exact hfits)]
    by_cases hexhausted : b.paneHistoryExhausted = true
    · rw [scrollFetches_of_exhausted hexhausted, scrollFetches_of_exhausted (by exact hexhausted)]
    rw [scrollFetches_cons hfits hexhausted, scrollFetches_cons (by exact hfits)
      (by exact hexhausted), deepen_withOffsets, ih, scrollback_withOffsets]

theorem deepen_some_history (value : Json) :
    (b.deepen text (some value)).1.paneHistory =
      (text.shown value).rtake
        (if b.paneHistory = [] then paneHistoryStartLines
        else min (b.paneHistory.length * 2) paneHistoryMaxLines) := rfl

theorem deepen_some_snd (value : Json) :
    (b.deepen text (some value)).2 =
      (b.deepen text (some value)).1.paneHistory.length - b.scrollback.length := rfl

theorem length_deepen_history_le (value : Json) :
    (b.deepen text (some value)).1.paneHistory.length ≤ paneHistoryMaxLines := by
  rw [deepen_some_history, length_rtake]
  refine (Nat.min_le_left _ _).trans ?_
  split
  · decide
  · exact Nat.min_le_right _ _

theorem scrollback_of_history (h : b.paneHistory ≠ []) : b.scrollback = b.paneHistory := if_neg h

theorem scrollback_of_no_history (h : b.paneHistory = []) : b.scrollback = b.paneTail := if_pos h

/-- A fetch after which the loop goes on holds more lines, and no more than the limit. -/
theorem deepen_grows (h : (b.deepen text read).2 ≠ 0) :
    b.scrollback.length < (b.deepen text read).1.scrollback.length ∧
      (b.deepen text read).1.scrollback.length ≤ paneHistoryMaxLines := by
  cases read with
  | none => exact absurd rfl h
  | some value =>
    have hlt : b.scrollback.length < (b.deepen text (some value)).1.paneHistory.length := by
      rw [deepen_some_snd] at h
      omega
    have hhistory : (b.deepen text (some value)).1.paneHistory ≠ [] := by
      intro hnil
      rw [hnil] at hlt
      exact Nat.not_lt_zero _ hlt
    rw [scrollback_of_history hhistory]
    exact ⟨hlt, length_deepen_history_le value⟩

theorem exists_scrollFetches (offset delta : Nat)
    (h : paneHistoryMaxLines - b.scrollback.length < reads.length) :
    ∃ n, scrollFetches text reads offset delta b = some n := by
  induction reads generalizing b offset delta with
  | nil => cases h
  | cons read reads ih =>
    by_cases hfits : offset + delta ≤ b.scrollback.length - 1
    · exact ⟨0, scrollFetches_of_le hfits⟩
    by_cases hexhausted : b.paneHistoryExhausted = true
    · exact ⟨0, scrollFetches_of_exhausted hexhausted⟩
    rw [scrollFetches_cons hfits hexhausted]
    by_cases hgrew : (b.deepen text read).2 = 0
    · exact ⟨1, if_pos hgrew⟩
    obtain ⟨hlt, hle⟩ := deepen_grows hgrew
    have hmeasure : paneHistoryMaxLines - (b.deepen text read).1.scrollback.length <
        reads.length := by
      rw [List.length_cons] at h
      omega
    obtain ⟨n, hn⟩ := ih (b.scrollback.length - 1) (delta - (b.scrollback.length - 1 - offset))
      hmeasure
    exact ⟨n + 1, by rw [if_neg hgrew, hn]; rfl⟩

theorem scrollPaneUp_of_le (h : b.paneScroll + delta ≤ b.scrollback.length - 1) :
    scrollPaneUp text true reads delta b = b.withOffsets (b.paneScroll + delta) b.lens := by
  rw [scrollPaneUp.eq_def]
  exact if_pos h

theorem scrollPaneUp_of_exhausted (h : ¬b.paneScroll + delta ≤ b.scrollback.length - 1)
    (hexhausted : b.paneHistoryExhausted = true) :
    scrollPaneUp text true reads delta b = b.withOffsets (b.scrollback.length - 1) b.lens := by
  rw [scrollPaneUp.eq_def]
  dsimp only
  rw [if_neg h, if_pos (by rw [hexhausted]; rfl)]
  rfl

theorem scrollPaneUp_cons (h : ¬b.paneScroll + delta ≤ b.scrollback.length - 1)
    (hexhausted : ¬b.paneHistoryExhausted = true) :
    scrollPaneUp text true (read :: reads) delta b =
      if (b.deepen text read).2 = 0 then
        (b.deepen text read).1.withOffsets (b.scrollback.length - 1) b.lens
      else
        scrollPaneUp text true reads (delta - (b.scrollback.length - 1 - b.paneScroll))
          ((b.deepen text read).1.withOffsets (b.scrollback.length - 1) b.lens) := by
  have htop : ({ b with paneScroll := b.scrollback.length - 1 } : PaneBuffers).deepen text read =
      ((b.deepen text read).1.withOffsets (b.scrollback.length - 1) b.lens,
        (b.deepen text read).2) :=
    deepen_withOffsets text read (b.scrollback.length - 1) b.lens b
  rw [scrollPaneUp.eq_def]
  dsimp only
  rw [if_neg h, if_neg (by simpa using hexhausted), htop]

theorem scrollLensUp_of_le (h : b.lens.scrollUp + delta ≤ b.scrollback.length - 1) :
    scrollLensUp text true reads delta b =
      b.withOffsets b.paneScroll
        ((b.lens.scrollLines delta b.scrollback.length).observeLen b.scrollback.length) := by
  rw [scrollLensUp.eq_def]
  exact if_pos h

def lensAtTop (b : PaneBuffers) : LensState :=
  b.lens.scrollLines (b.scrollback.length - 1 - b.lens.scrollUp) b.scrollback.length

theorem scrollLensUp_of_exhausted (h : ¬b.lens.scrollUp + delta ≤ b.scrollback.length - 1)
    (hexhausted : b.paneHistoryExhausted = true) :
    scrollLensUp text true reads delta b =
      b.withOffsets b.paneScroll (b.lensAtTop.observeLen b.scrollback.length) := by
  rw [scrollLensUp.eq_def]
  dsimp only
  rw [if_neg h, if_pos (by rw [hexhausted]; rfl)]
  rfl

theorem scrollLensUp_cons (h : ¬b.lens.scrollUp + delta ≤ b.scrollback.length - 1)
    (hexhausted : ¬b.paneHistoryExhausted = true) :
    scrollLensUp text true (read :: reads) delta b =
      if (b.deepen text read).2 = 0 then
        (b.deepen text read).1.withOffsets b.paneScroll
          (b.lensAtTop.observeLen b.scrollback.length)
      else
        scrollLensUp text true reads (delta - (b.scrollback.length - 1 - b.lens.scrollUp))
          ((b.deepen text read).1.withOffsets b.paneScroll b.lensAtTop) := by
  have htop : ({ b with lens := b.lensAtTop } : PaneBuffers).deepen text read =
      ((b.deepen text read).1.withOffsets b.paneScroll b.lensAtTop, (b.deepen text read).2) :=
    deepen_withOffsets text read b.paneScroll b.lensAtTop b
  rw [lensAtTop] at htop
  rw [scrollLensUp.eq_def]
  dsimp only
  rw [if_neg h, if_neg (by simpa using hexhausted), htop]
  rfl

/-- A call looks at the answers that `scrollFetches` counts, and at no others. -/
theorem scrollPaneUp_take {n : Nat}
    (h : scrollFetches text reads b.paneScroll delta b = some n) :
    scrollPaneUp text true (reads.take n) delta b = scrollPaneUp text true reads delta b := by
  induction reads generalizing b delta n with
  | nil => rw [List.take_nil]
  | cons read reads ih =>
    by_cases hfits : b.paneScroll + delta ≤ b.scrollback.length - 1
    · rw [scrollPaneUp_of_le hfits, scrollPaneUp_of_le hfits]
    by_cases hexhausted : b.paneHistoryExhausted = true
    · rw [scrollPaneUp_of_exhausted hfits hexhausted, scrollPaneUp_of_exhausted hfits hexhausted]
    rw [scrollFetches_cons hfits hexhausted] at h
    split at h
    · next hgrew =>
        obtain rfl : 1 = n := Option.some.inj h
        rw [List.take_succ_cons, scrollPaneUp_cons hfits hexhausted,
          scrollPaneUp_cons hfits hexhausted, if_pos hgrew, if_pos hgrew]
    · next hgrew =>
        obtain ⟨m, hm, rfl⟩ := Option.map_eq_some_iff.mp h
        rw [List.take_succ_cons, scrollPaneUp_cons hfits hexhausted,
          scrollPaneUp_cons hfits hexhausted, if_neg hgrew, if_neg hgrew]
        exact ih (by rw [scrollFetches_withOffsets]; exact hm)

theorem scrollFetches_lensAtTop {reads : List (Option Json)} (delta : Nat) (c : PaneBuffers)
    (h : b.lens.scrollUp ≤ b.scrollback.length - 1) (scroll : Nat) :
    scrollFetches text reads (c.withOffsets scroll b.lensAtTop).lens.scrollUp delta
        (c.withOffsets scroll b.lensAtTop) =
      scrollFetches text reads (b.scrollback.length - 1) delta c := by
  have htop : b.lensAtTop.scrollUp = b.scrollback.length - 1 := by
    change min (b.lens.scrollUp + (b.scrollback.length - 1 - b.lens.scrollUp)) _ = _
    omega
  rw [scrollFetches_withOffsets, ← htop]
  rfl

theorem scrollLensUp_take {n : Nat} (hlens : b.lens.scrollUp ≤ b.scrollback.length - 1)
    (h : scrollFetches text reads b.lens.scrollUp delta b = some n) :
    scrollLensUp text true (reads.take n) delta b = scrollLensUp text true reads delta b := by
  induction reads generalizing b delta n with
  | nil => rw [List.take_nil]
  | cons read reads ih =>
    by_cases hfits : b.lens.scrollUp + delta ≤ b.scrollback.length - 1
    · rw [scrollLensUp_of_le hfits, scrollLensUp_of_le hfits]
    by_cases hexhausted : b.paneHistoryExhausted = true
    · rw [scrollLensUp_of_exhausted hfits hexhausted, scrollLensUp_of_exhausted hfits hexhausted]
    rw [scrollFetches_cons hfits hexhausted] at h
    split at h
    · next hgrew =>
        obtain rfl : 1 = n := Option.some.inj h
        rw [List.take_succ_cons, scrollLensUp_cons hfits hexhausted,
          scrollLensUp_cons hfits hexhausted, if_pos hgrew, if_pos hgrew]
    · next hgrew =>
        obtain ⟨m, hm, rfl⟩ := Option.map_eq_some_iff.mp h
        rw [List.take_succ_cons, scrollLensUp_cons hfits hexhausted,
          scrollLensUp_cons hfits hexhausted, if_neg hgrew, if_neg hgrew]
        have hbelow : b.lensAtTop.scrollUp ≤ (b.deepen text read).1.scrollback.length - 1 :=
          (Nat.min_le_right _ _).trans (Nat.sub_le_sub_right (deepen_grows hgrew).1.le 1)
        exact ih hbelow ((scrollFetches_lensAtTop _ _ hlens _).trans hm)

/-- Where the history ends with the tail already, or is no longer, the lines stay. -/
theorem syncHistorySuffix_of_suffix
    (h : b.paneHistory.length ≤ b.paneTail.length ∨ b.paneTail <:+ b.paneHistory) :
    b.syncHistorySuffix =
      b.withOffsets b.paneScroll (b.lens.observeLen b.scrollback.length) := by
  rw [syncHistorySuffix]
  split
  · next hlt =>
      obtain ⟨front, hfront⟩ := h.resolve_left (Nat.not_le.mpr hlt)
      have hkept : b.paneHistory.take (b.paneHistory.length - b.paneTail.length) ++ b.paneTail =
          b.paneHistory := by
        rw [← hfront, List.length_append, Nat.add_sub_cancel, List.take_left]
      rw [hkept]
      rfl
  · rfl

end PaneBuffers

/-- Every answer shows what the one before it showed, with lines added. -/
def GrowsBy (text : TerminalText) : List String → List (Option Json) → Prop
  | _, [] => True
  | seen, none :: reads => GrowsBy text seen reads
  | seen, some value :: reads =>
    seen <+: text.shown value ∧ GrowsBy text (text.shown value) reads

instance GrowsBy.decide (text : TerminalText) :
    ∀ seen reads, Decidable (GrowsBy text seen reads)
  | _, [] => .isTrue trivial
  | seen, none :: reads => GrowsBy.decide text seen reads
  | seen, some value :: reads =>
    have := GrowsBy.decide text (text.shown value) reads
    inferInstanceAs
      (Decidable (seen <+: text.shown value ∧ GrowsBy text (text.shown value) reads))

/-- The output as of the last of the reads. -/
def seenAfter (text : TerminalText) : List String → List (Option Json) → List String
  | seen, [] => seen
  | seen, none :: reads => seenAfter text seen reads
  | _, some value :: reads => seenAfter text (text.shown value) reads

/-- The buffers hold a window of the output `seen`, and their offsets are in it. -/
structure Window (pane : String) (seen : List String) (b : PaneBuffers) : Prop where
  owner : b.paneBuffersPaneId = some pane
  suffix : b.scrollback <:+ seen
  tail : b.paneTail.length ≤ tailLines
  history : b.paneHistory.length ≤ paneHistoryMaxLines
  scroll : b.paneScroll ≤ b.scrollback.length - 1
  lens : b.lens.scrollUp ≤ b.scrollback.length - 1

namespace Window

variable {text : TerminalText} {pane : String} {seen output : List String} {b : PaneBuffers}
  {delta : Nat} {reads : List (Option Json)}

theorem withOffsets (h : Window pane seen b) {scroll : Nat} {lens : LensState}
    (hscroll : scroll ≤ b.scrollback.length - 1)
    (hlens : lens.scrollUp ≤ b.scrollback.length - 1) :
    Window pane seen (b.withOffsets scroll lens) :=
  ⟨h.owner, h.suffix, h.tail, h.history, hscroll, hlens⟩

theorem length_le_want (h : Window pane seen b) :
    b.scrollback.length ≤
      if b.paneHistory = [] then paneHistoryStartLines
      else min (b.paneHistory.length * 2) paneHistoryMaxLines := by
  split
  · next hnone =>
      rw [PaneBuffers.scrollback_of_no_history hnone]
      exact h.tail.trans (by decide)
  · next hsome =>
      have hhistory := h.history
      rw [PaneBuffers.scrollback_of_history hsome]
      omega

theorem scrollback_deepen (h : Window pane seen b) {value : Json}
    (hgrows : seen <+: text.shown value) :
    (b.deepen text (some value)).1.scrollback = (b.deepen text (some value)).1.paneHistory ∧
      b.scrollback.length ≤ (b.deepen text (some value)).1.scrollback.length := by
  have hlength : b.scrollback.length ≤ (b.deepen text (some value)).1.paneHistory.length := by
    rw [PaneBuffers.deepen_some_history, length_rtake]
    exact le_min h.length_le_want (h.suffix.length_le.trans hgrows.length_le)
  by_cases hnone : (b.deepen text (some value)).1.paneHistory = []
  · have hempty : b.scrollback = [] := by
      rw [hnone] at hlength
      exact List.length_eq_zero_iff.mp (Nat.le_zero.mp hlength)
    have htail : b.paneTail = [] := by
      by_cases hhistory : b.paneHistory = []
      · rwa [PaneBuffers.scrollback_of_no_history hhistory] at hempty
      · rw [PaneBuffers.scrollback_of_history hhistory] at hempty
        exact absurd hempty hhistory
    have hshown : (b.deepen text (some value)).1.scrollback = [] :=
      (PaneBuffers.scrollback_of_no_history hnone).trans htail
    rw [hshown, hnone, hempty]
    exact ⟨rfl, le_rfl⟩
  · rw [PaneBuffers.scrollback_of_history hnone]
    exact ⟨rfl, hlength⟩

theorem deepen (h : Window pane seen b) {value : Json} (hgrows : seen <+: text.shown value) :
    Window pane (text.shown value) (b.deepen text (some value)).1 := by
  obtain ⟨hscrollback, hle⟩ := h.scrollback_deepen hgrows
  refine ⟨h.owner, ?_, h.tail, PaneBuffers.length_deepen_history_le value, ?_, ?_⟩
  · rw [hscrollback, PaneBuffers.deepen_some_history]
    exact List.drop_suffix _ _
  · exact h.scroll.trans (Nat.sub_le_sub_right hle 1)
  · exact h.lens.trans (Nat.sub_le_sub_right hle 1)

theorem deepen_read (h : Window pane seen b) {read : Option Json}
    (hgrows : GrowsBy text seen (read :: reads)) :
    ∃ next, GrowsBy text next reads ∧
      seenAfter text seen (read :: reads) = seenAfter text next reads ∧
      Window pane next (b.deepen text read).1 ∧
      b.scrollback.length ≤ (b.deepen text read).1.scrollback.length := by
  cases read with
  | none => exact ⟨seen, hgrows, rfl, h, le_rfl⟩
  | some value =>
    exact ⟨text.shown value, hgrows.2, rfl, h.deepen hgrows.1, (h.scrollback_deepen hgrows.1).2⟩

theorem reads_of_fetches {offset : Nat}
    (hfetches : PaneBuffers.scrollFetches text reads offset delta b = some reads.length)
    (hfits : ¬offset + delta ≤ b.scrollback.length - 1)
    (hexhausted : ¬b.paneHistoryExhausted = true) :
    ∃ read rest, reads = read :: rest ∧
      if (b.deepen text read).2 = 0 then rest = []
      else
        PaneBuffers.scrollFetches text rest (b.scrollback.length - 1)
          (delta - (b.scrollback.length - 1 - offset)) (b.deepen text read).1 =
            some rest.length := by
  cases reads with
  | nil =>
    rw [PaneBuffers.scrollFetches_nil hfits hexhausted] at hfetches
    cases hfetches
  | cons read rest =>
    refine ⟨read, rest, rfl, ?_⟩
    rw [PaneBuffers.scrollFetches_cons hfits hexhausted, List.length_cons] at hfetches
    split at hfetches
    · next hgrew =>
        rw [if_pos hgrew]
        exact List.length_eq_zero_iff.mp (Nat.succ.inj (Option.some.inj hfetches)).symm
    · next hgrew =>
        obtain ⟨m, hm, hlength⟩ := Option.map_eq_some_iff.mp hfetches
        rw [if_neg hgrew, hm, Nat.succ.inj hlength]

theorem nil_of_fetches {offset : Nat}
    (hfetches : PaneBuffers.scrollFetches text reads offset delta b = some reads.length)
    (h : offset + delta ≤ b.scrollback.length - 1 ∨ b.paneHistoryExhausted = true) :
    reads = [] := by
  have hnone : PaneBuffers.scrollFetches text reads offset delta b = some 0 := by
    rcases h with hfits | hexhausted
    · exact PaneBuffers.scrollFetches_of_le hfits
    · exact PaneBuffers.scrollFetches_of_exhausted hexhausted
  rw [hnone] at hfetches
  exact List.length_eq_zero_iff.mp (Option.some.inj hfetches).symm

theorem scrollPaneUp_done (h : Window pane seen b)
    (hdone : b.paneScroll + delta ≤ b.scrollback.length - 1 ∨ b.paneHistoryExhausted = true) :
    Window pane seen (b.scrollPaneUp text true reads delta) := by
  by_cases hfits : b.paneScroll + delta ≤ b.scrollback.length - 1
  · rw [PaneBuffers.scrollPaneUp_of_le hfits]
    exact h.withOffsets hfits h.lens
  · rw [PaneBuffers.scrollPaneUp_of_exhausted hfits (hdone.resolve_left hfits)]
    exact h.withOffsets le_rfl h.lens

theorem scrollPaneUp (h : Window pane seen b) (hgrows : GrowsBy text seen reads)
    (hfetches : PaneBuffers.scrollFetches text reads b.paneScroll delta b = some reads.length) :
    Window pane (seenAfter text seen reads) (b.scrollPaneUp text true reads delta) := by
  induction reads generalizing seen b delta with
  | nil =>
    refine h.scrollPaneUp_done ?_
    by_contra hmore
    obtain ⟨hfits, hexhausted⟩ := not_or.mp hmore
    obtain ⟨_, _, hcons, -⟩ := reads_of_fetches hfetches hfits hexhausted
    cases hcons
  | cons read reads ih =>
    by_cases hdone : b.paneScroll + delta ≤ b.scrollback.length - 1 ∨
        b.paneHistoryExhausted = true
    · cases nil_of_fetches hfetches hdone
    obtain ⟨hfits, hexhausted⟩ := not_or.mp hdone
    obtain ⟨_, _, hcons, hrest⟩ := reads_of_fetches hfetches hfits hexhausted
    cases hcons
    obtain ⟨next, hnext, hseen, hwindow, hle⟩ := h.deepen_read hgrows
    have htop : Window pane next
        ((b.deepen text read).1.withOffsets (b.scrollback.length - 1) b.lens) :=
      hwindow.withOffsets (Nat.sub_le_sub_right hle 1)
        (h.lens.trans (Nat.sub_le_sub_right hle 1))
    rw [hseen, PaneBuffers.scrollPaneUp_cons hfits hexhausted]
    split
    · next hgrew =>
        rw [if_pos hgrew] at hrest
        rw [hrest]
        exact htop
    · next hgrew =>
        rw [if_neg hgrew] at hrest
        exact ih htop hnext (by rw [PaneBuffers.scrollFetches_withOffsets]; exact hrest)

theorem scrollLensUp_done (h : Window pane seen b)
    (hdone : b.lens.scrollUp + delta ≤ b.scrollback.length - 1 ∨ b.paneHistoryExhausted = true) :
    Window pane seen (b.scrollLensUp text true reads delta) := by
  by_cases hfits : b.lens.scrollUp + delta ≤ b.scrollback.length - 1
  · rw [PaneBuffers.scrollLensUp_of_le hfits]
    exact h.withOffsets h.scroll (Nat.min_le_right _ _)
  · rw [PaneBuffers.scrollLensUp_of_exhausted hfits (hdone.resolve_left hfits)]
    exact h.withOffsets h.scroll (Nat.min_le_right _ _)

theorem scrollLensUp (h : Window pane seen b) (hgrows : GrowsBy text seen reads)
    (hfetches :
      PaneBuffers.scrollFetches text reads b.lens.scrollUp delta b = some reads.length) :
    Window pane (seenAfter text seen reads) (b.scrollLensUp text true reads delta) := by
  induction reads generalizing seen b delta with
  | nil =>
    refine h.scrollLensUp_done ?_
    by_contra hmore
    obtain ⟨hfits, hexhausted⟩ := not_or.mp hmore
    obtain ⟨_, _, hcons, -⟩ := reads_of_fetches hfetches hfits hexhausted
    cases hcons
  | cons read reads ih =>
    by_cases hdone : b.lens.scrollUp + delta ≤ b.scrollback.length - 1 ∨
        b.paneHistoryExhausted = true
    · cases nil_of_fetches hfetches hdone
    obtain ⟨hfits, hexhausted⟩ := not_or.mp hdone
    obtain ⟨_, _, hcons, hrest⟩ := reads_of_fetches hfetches hfits hexhausted
    cases hcons
    obtain ⟨next, hnext, hseen, hwindow, hle⟩ := h.deepen_read hgrows
    have htop (lens : LensState) (hlens : lens.scrollUp ≤ b.scrollback.length - 1) :
        Window pane next ((b.deepen text read).1.withOffsets b.paneScroll lens) :=
      hwindow.withOffsets (h.scroll.trans (Nat.sub_le_sub_right hle 1))
        (hlens.trans (Nat.sub_le_sub_right hle 1))
    rw [hseen, PaneBuffers.scrollLensUp_cons hfits hexhausted]
    split
    · next hgrew =>
        rw [if_pos hgrew] at hrest
        rw [hrest]
        exact htop _ (Nat.min_le_right _ _)
    · next hgrew =>
        rw [if_neg hgrew] at hrest
        exact ih (htop _ (Nat.min_le_right _ _)) hnext
          ((PaneBuffers.scrollFetches_lensAtTop _ _ h.lens _).trans hrest)

/-- A tail that is read replaces the end of the lines only where the output is the one they
were read from. -/
theorem syncHistorySuffix (h : Window pane seen b) (hgrows : seen <+: output)
    {tail : List String} (styles : List (List TuiTextSpan)) (htail : tail <:+ output)
    (hlength : tail.length ≤ tailLines)
    (hshort : b.paneHistory = [] →
      b.paneScroll ≤ tail.length - 1 ∧ b.lens.scrollUp ≤ tail.length - 1)
    (hsame : b.paneHistory ≠ [] → output = seen) :
    Window pane output
      (PaneBuffers.syncHistorySuffix (b.withTail tail styles)) := by
  by_cases hnone : b.paneHistory = []
  · obtain ⟨hscroll, hlens⟩ := hshort hnone
    have hlines : (b.withTail tail styles).scrollback = tail := if_pos hnone
    have hshorter : (b.withTail tail styles).paneHistory.length ≤ tail.length := by
      rw [show (b.withTail tail styles).paneHistory = [] from hnone]
      exact Nat.zero_le _
    rw [PaneBuffers.syncHistorySuffix_of_suffix (.inl hshorter)]
    refine ⟨h.owner, ?_, hlength, h.history, ?_, ?_⟩ <;>
      rw [PaneBuffers.scrollback_withOffsets, hlines]
    · exact htail
    · exact hscroll
    · exact hlens
  · obtain rfl := hsame hnone
    have hhistory : b.paneHistory <:+ output :=
      PaneBuffers.scrollback_of_history hnone ▸ h.suffix
    have hlines : (b.withTail tail styles).scrollback = b.scrollback :=
      (if_neg hnone).trans (PaneBuffers.scrollback_of_history hnone).symm
    have hshared : b.paneHistory.length ≤ tail.length ∨ tail <:+ b.paneHistory :=
      (Nat.le_total _ _).imp_right (List.suffix_of_suffix_length_le htail hhistory)
    rw [PaneBuffers.syncHistorySuffix_of_suffix (by exact hshared)]
    refine ⟨h.owner, ?_, hlength, h.history, ?_, ?_⟩ <;>
      rw [PaneBuffers.scrollback_withOffsets, hlines]
    · exact h.suffix
    · exact h.scroll
    · exact h.lens

theorem length_paneTail_le (h : Window pane seen b) (hnone : b.paneHistory = []) :
    b.paneTail.length ≤ min tailLines seen.length :=
  le_min h.tail ((PaneBuffers.scrollback_of_no_history hnone ▸ h.suffix).length_le)

theorem setTailFromText (h : Window pane seen b) {content : String}
    (hgrows : seen <+: lines content) (hsame : b.paneHistory ≠ [] → lines content = seen) :
    Window pane (lines content) (b.setTailFromText content) := by
  have hlength : ((lines content).rtake tailLines).length = min tailLines (lines content).length :=
    length_rtake _ _
  refine h.syncHistorySuffix hgrows _ (List.drop_suffix _ _)
    (hlength.trans_le (Nat.min_le_left _ _)) (fun hnone => ?_) hsame
  have hlines := PaneBuffers.scrollback_of_no_history hnone
  have hle : b.paneTail.length ≤ ((lines content).rtake tailLines).length := by
    have htail := h.length_paneTail_le hnone
    have hgrown := hgrows.length_le
    omega
  exact ⟨(hlines ▸ h.scroll).trans (Nat.sub_le_sub_right hle 1),
    (hlines ▸ h.lens).trans (Nat.sub_le_sub_right hle 1)⟩

theorem setTailFromStyledLines (h : Window pane seen b) {styled : List (List TuiTextSpan)}
    (hgrows : seen <+: output) (hframe : styled.map lineText <:+ output)
    (hshort : b.paneHistory = [] →
      b.paneScroll ≤ styled.length - 1 ∧ b.lens.scrollUp ≤ styled.length - 1)
    (hsame : b.paneHistory ≠ [] → output = seen) :
    Window pane output (b.setTailFromStyledLines styled) := by
  have hlength : ((styled.rtake tailLines).map lineText).length = min tailLines styled.length := by
    rw [List.length_map, length_rtake]
  have htail : (styled.rtake tailLines).map lineText <:+ output := by
    rw [List.rtake.eq_def, List.map_drop]
    exact (List.drop_suffix _ _).trans hframe
  have hsynced := fun hnone' =>
    h.syncHistorySuffix hgrows (styled.rtake tailLines) htail
      (hlength.trans_le (Nat.min_le_left _ _)) hnone' hsame
  refine hsynced fun hnone => ?_
  have hlines := PaneBuffers.scrollback_of_no_history hnone
  have htail := h.tail
  have hscroll := hlines ▸ h.scroll
  have hlens := hlines ▸ h.lens
  obtain ⟨hscroll', hlens'⟩ := hshort hnone
  rw [hlength]
  omega

theorem gated (h : Window pane seen b) (s : Selection) :
    Window pane seen
      (if b.lens.active && !s.lensSupported then { b with lens := b.lens.close } else b) := by
  split
  · exact h.withOffsets h.scroll (Nat.zero_le _)
  · exact h

theorem refreshTail (h : Window pane seen b) {s : Selection} (hs : s.paneId = some pane)
    {read : Option Json} (hgrows : GrowsBy text seen [read])
    (hsame : b.paneHistory ≠ [] → seenAfter text seen [read] = seen) :
    Window pane (seenAfter text seen [read]) (b.refreshTail text read s) := by
  have hgated := h.gated s
  have hhistory : (if b.lens.active && !s.lensSupported then { b with lens := b.lens.close }
      else b : PaneBuffers).paneHistory = b.paneHistory := by
    split <;> rfl
  rw [PaneBuffers.refreshTail, hs]
  dsimp only
  generalize (if b.lens.active && !s.lensSupported then { b with lens := b.lens.close }
      else b : PaneBuffers) = own at hgated hhistory ⊢
  rw [PaneBuffers.switchedTo, if_pos hgated.owner]
  rw [← hhistory] at hsame
  cases read with
  | none => exact hgated
  | some value =>
    have hheld := hgated.setTailFromText hgrows.1 hsame
    exact hheld.withOffsets hheld.scroll hheld.lens

end Window

/-- The buffers of a pane and its output as of the last read. -/
structure PaneApp where
  buffers : PaneBuffers
  seen : List String

inductive PaneAction where
  | refreshTail (selection : Selection) (read : Option Json)
  | frame (styled : List (List TuiTextSpan)) (output : List String)
  | scrollPaneUp (delta : Nat) (reads : List (Option Json))
  | scrollLensUp (delta : Nat) (reads : List (Option Json))
  | scrollPaneDown (delta : Nat)

namespace PaneApp

/-- A step reads an output that the earlier one is the start of; a frame shows its end. A
scroll comes with the answers that it takes. -/
def step (text : TerminalText) (pane : String) (s : PaneApp) : PaneAction → Option PaneApp
  | .refreshTail selection read =>
    if selection.paneId = some pane ∧ GrowsBy text s.seen [read] then
      some ⟨s.buffers.refreshTail text read selection, seenAfter text s.seen [read]⟩
    else none
  | .frame styled output =>
    if s.seen <+: output ∧ styled.map lineText <:+ output then
      some ⟨s.buffers.setTailFromStyledLines styled, output⟩
    else none
  | .scrollPaneUp delta reads =>
    if GrowsBy text s.seen reads ∧
        s.buffers.scrollFetches text reads s.buffers.paneScroll delta = some reads.length then
      some ⟨s.buffers.scrollPaneUp text true reads delta, seenAfter text s.seen reads⟩
    else none
  | .scrollLensUp delta reads =>
    if GrowsBy text s.seen reads ∧
        s.buffers.scrollFetches text reads s.buffers.lens.scrollUp delta =
          some reads.length then
      some ⟨s.buffers.scrollLensUp text true reads delta, seenAfter text s.seen reads⟩
    else none
  | .scrollPaneDown delta => some ⟨s.buffers.scrollPaneDown delta, s.seen⟩

/-- The pane is switched to, and nothing is read yet. -/
def Starts (pane : String) (s : PaneApp) : Prop :=
  s.seen = [] ∧ ∃ b : PaneBuffers, b.lens.scrollUp = 0 ∧ s.buffers = b.cleared.switchedTo pane

/-- No tail is read over a deep history after the output has grown, and no frame over the
tail alone is shorter than the offsets. -/
def KeepsTail (text : TerminalText) (s : PaneApp) : PaneAction → Prop
  | .refreshTail _ read => s.buffers.paneHistory ≠ [] → seenAfter text s.seen [read] = s.seen
  | .frame styled output =>
    if s.buffers.paneHistory = [] then
      s.buffers.paneScroll ≤ styled.length - 1 ∧
        s.buffers.lens.scrollUp ≤ styled.length - 1
    else output = s.seen
  | .scrollPaneUp .. | .scrollLensUp .. | .scrollPaneDown .. => True

instance (text : TerminalText) (s : PaneApp) : ∀ a, Decidable (KeepsTail text s a)
  | .refreshTail _ read =>
    inferInstanceAs
      (Decidable (s.buffers.paneHistory ≠ [] → seenAfter text s.seen [read] = s.seen))
  | .frame styled output =>
    inferInstanceAs
      (Decidable
        (if s.buffers.paneHistory = [] then
          s.buffers.paneScroll ≤ styled.length - 1 ∧
            s.buffers.lens.scrollUp ≤ styled.length - 1
        else output = s.seen))
  | .scrollPaneUp .. | .scrollLensUp .. | .scrollPaneDown .. => .isTrue trivial

/-- An offset is below the number of the lines, and 0 where there are none. -/
def OffsetIn (offset : Nat) (lines : List String) : Prop :=
  if lines = [] then offset = 0 else offset < lines.length

/-- The lines are one contiguous tail of the output, the offsets are in it, and a scroll from
them returns after so many of its reads, whatever they answer. -/
structure OneTail (text : TerminalText) (s : PaneApp) : Prop where
  contiguous : s.buffers.scrollback <:+ s.seen
  scroll : OffsetIn s.buffers.paneScroll s.buffers.scrollback
  lens : OffsetIn s.buffers.lens.scrollUp s.buffers.scrollback
  paneReturns (delta : Nat) (reads : List (Option Json))
    (h : paneHistoryMaxLines < reads.length) :
    ∃ n, s.buffers.scrollFetches text reads s.buffers.paneScroll delta = some n ∧
      s.buffers.scrollPaneUp text true (reads.take n) delta =
        s.buffers.scrollPaneUp text true reads delta
  lensReturns (delta : Nat) (reads : List (Option Json))
    (h : paneHistoryMaxLines < reads.length) :
    ∃ n, s.buffers.scrollFetches text reads s.buffers.lens.scrollUp delta = some n ∧
      s.buffers.scrollLensUp text true (reads.take n) delta =
        s.buffers.scrollLensUp text true reads delta

end PaneApp

/-- The runs of one pane whose output only grows. -/
def paneSystem (text : TerminalText) (pane : String) : System PaneApp PaneAction where
  init := PaneApp.Starts pane
  step := PaneApp.step text pane

namespace PaneApp

variable {text : TerminalText} {pane : String} {s s' : PaneApp} {a : PaneAction}

theorem Starts.window (h : Starts pane s) : Window pane s.seen s.buffers := by
  obtain ⟨hseen, b, hlens, hbuffers⟩ := h
  rw [hbuffers, hseen]
  exact ⟨rfl, List.suffix_rfl, Nat.zero_le _, Nat.zero_le _, le_rfl, hlens.le⟩

theorem step_window (h : Window pane s.seen s.buffers) (hok : KeepsTail text s a)
    (hstep : s.step text pane a = some s') : Window pane s'.seen s'.buffers := by
  cases a with
  | refreshTail selection read =>
    obtain ⟨⟨hpane, hgrows⟩, hs'⟩ := Option.ite_none_right_eq_some.mp hstep
    cases hs'
    exact h.refreshTail hpane hgrows hok
  | frame styled output =>
    obtain ⟨⟨hgrows, hframe⟩, hs'⟩ := Option.ite_none_right_eq_some.mp hstep
    cases hs'
    refine h.setTailFromStyledLines hgrows hframe (fun hnone => ?_) fun hsome => ?_
    · exact (if_pos hnone).mp hok
    · exact (if_neg hsome).mp hok
  | scrollPaneUp delta reads =>
    obtain ⟨⟨hgrows, hfetches⟩, hs'⟩ := Option.ite_none_right_eq_some.mp hstep
    cases hs'
    exact h.scrollPaneUp hgrows hfetches
  | scrollLensUp delta reads =>
    obtain ⟨⟨hgrows, hfetches⟩, hs'⟩ := Option.ite_none_right_eq_some.mp hstep
    cases hs'
    exact h.scrollLensUp hgrows hfetches
  | scrollPaneDown delta =>
    cases hstep
    exact h.withOffsets ((Nat.sub_le _ _).trans h.scroll) h.lens

theorem window (h : (paneSystem text pane).ReachVia (KeepsTail text) s) :
    Window pane s.seen s.buffers := by
  refine h.invariant (I := fun s => Window pane s.seen s.buffers)
    (fun _ hstart => Starts.window hstart) ?_
  intro s a s' _ hwindow hok hstep
  exact step_window hwindow hok hstep

theorem offsetIn {offset : Nat} {lines : List String} (h : offset ≤ lines.length - 1) :
    OffsetIn offset lines := by
  rw [OffsetIn]
  split
  · next hnil =>
      rw [hnil] at h
      exact Nat.le_zero.mp h
  · next hne =>
      have hpos := List.length_pos_of_ne_nil hne
      omega

end PaneApp

open PaneApp in
/-- The lines stay one tail of the output as long as no tail is spliced into a history that
the output has outgrown. -/
theorem paneSystem_oneTail {text : TerminalText} {pane : String} {s : PaneApp}
    (h : (paneSystem text pane).ReachVia (KeepsTail text) s) : OneTail text s := by
  have hwindow := PaneApp.window h
  have hreads (reads : List (Option Json)) (hmany : paneHistoryMaxLines < reads.length) :
      paneHistoryMaxLines - s.buffers.scrollback.length < reads.length :=
    (Nat.sub_le _ _).trans_lt hmany
  refine ⟨hwindow.suffix, offsetIn hwindow.scroll, offsetIn hwindow.lens,
    fun delta reads hmany => ?_, fun delta reads hmany => ?_⟩
  · obtain ⟨n, hn⟩ := PaneBuffers.exists_scrollFetches s.buffers.paneScroll delta (hreads _ hmany)
    exact ⟨n, hn, PaneBuffers.scrollPaneUp_take hn⟩
  · obtain ⟨n, hn⟩ :=
      PaneBuffers.exists_scrollFetches s.buffers.lens.scrollUp delta (hreads _ hmany)
    exact ⟨n, hn, PaneBuffers.scrollLensUp_take hwindow.lens hn⟩

def plainText : TerminalText := ⟨id, fun _ _ => []⟩

def answer (shown : List String) : Option Json :=
  some (.object [("text", .string ("\n".intercalate shown))])

def onePane : Selection where
  snapshot :=
    { workspaces := [⟨"w", "/a", true, 1, 1, some "t", none⟩]
      tabs := [⟨"t", "w", "one"⟩]
      panes := [⟨"p", "x", "w", "t", none⟩]
      agents := [] }
  selectedWorkspace := 0
  selectedAgent := 0

def PaneApp.fresh (pane : String) : PaneApp :=
  ⟨(⟨[], [], 0, [], none, false, LensState.default⟩ : PaneBuffers).cleared.switchedTo pane, []⟩

theorem PaneApp.fresh_starts (pane : String) : Starts pane (fresh pane) :=
  ⟨rfl, _, rfl, rfl⟩

/-- The output is scrolled past its top, and the tail is read again. -/
def scrolledThenRead (output : List String) : List PaneAction :=
  [.refreshTail onePane (answer ["one", "two"]), .scrollPaneUp 9 [answer ["one", "two"]],
    .refreshTail onePane (answer output)]

/-- The output has not grown. -/
theorem paneSystem_oneTail_read :
    ∃ s, (paneSystem plainText "p").run (PaneApp.fresh "p") (scrolledThenRead ["one", "two"]) =
        some s ∧ PaneApp.OneTail plainText s := by
  have hrun : ((paneSystem plainText "p").runVia (PaneApp.KeepsTail plainText) (PaneApp.fresh "p")
      (scrolledThenRead ["one", "two"])).isSome := by decide +kernel
  exact ⟨_, by rfl, paneSystem_oneTail
    (System.reachVia_get (PaneApp.fresh_starts "p") hrun)⟩

/-- The output has grown by a line, which is not among the lines. -/
theorem paneSystem_loses_line :
    ∃ s, (paneSystem plainText "p").Reachable s ∧ ¬PaneApp.OneTail plainText s := by
  refine ⟨_, @System.reachable_get _ _ (paneSystem plainText "p") (PaneApp.fresh "p")
    (scrolledThenRead ["one", "two", "three"]) (PaneApp.fresh_starts "p") (by decide +kernel),
    fun h => ?_⟩
  exact absurd h.contiguous (by decide +kernel)

end HerdrWebui.Tui
