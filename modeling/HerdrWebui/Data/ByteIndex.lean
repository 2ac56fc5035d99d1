import HerdrWebui.Data.Text

/-!
Texts cut at byte offsets, as slices of a `str` are. A cut inside a character fails.

Nothing here is about a particular program.
-/

namespace HerdrWebui

/-- The length of some characters in bytes. -/
def byteLength (chars : List Char) : Nat := (chars.map Char.utf8Size).sum

/-- What is in front of a byte offset and what is behind it. -/
def splitAtByte : Nat → List Char → Option (List Char × List Char)
  | 0, chars => some ([], chars)
  | _ + 1, [] => none
  | n + 1, c :: rest =>
    if n + 1 < c.utf8Size then none
    else (splitAtByte (n + 1 - c.utf8Size) rest).map fun cut => (c :: cut.1, cut.2)

@[simp] theorem byteLength_nil : byteLength [] = 0 := rfl

@[simp] theorem byteLength_cons (c : Char) (chars : List Char) :
    byteLength (c :: chars) = c.utf8Size + byteLength chars := by
  simp [byteLength]

@[simp] theorem byteLength_append (front rest : List Char) :
    byteLength (front ++ rest) = byteLength front + byteLength rest := by
  simp [byteLength]

theorem utf8ByteSize_ofList (chars : List Char) :
    (String.ofList chars).utf8ByteSize = byteLength chars := by
  induction chars with
  | nil => rfl
  | cons c chars ih =>
    rw [String.ofList_cons, String.utf8ByteSize_append, String.utf8ByteSize_singleton, ih,
      byteLength_cons]

theorem splitAtByte_append (front rest : List Char) :
    splitAtByte (byteLength front) (front ++ rest) = some (front, rest) := by
  induction front with
  | nil => simp [splitAtByte]
  | cons c front ih =>
    have hpos := Char.utf8Size_pos c
    obtain ⟨n, hn⟩ : ∃ n, byteLength (c :: front) = n + 1 :=
      Nat.exists_eq_add_one.mpr (by rw [byteLength_cons]; omega)
    have hle : ¬n + 1 < c.utf8Size := by
      rw [← hn, byteLength_cons]
      omega
    have hrest : n + 1 - c.utf8Size = byteLength front := by
      rw [← hn, byteLength_cons]
      omega
    rw [hn, List.cons_append, splitAtByte, if_neg hle, hrest, ih]
    rfl

/-- The offset lies between two characters, or at an end. -/
def IsCharBoundary (n : Nat) (chars : List Char) : Prop :=
  ∃ front rest, chars = front ++ rest ∧ byteLength front = n

theorem isCharBoundary_append (front rest : List Char) :
    IsCharBoundary (byteLength front) (front ++ rest) := ⟨front, rest, rfl, rfl⟩

theorem isCharBoundary_of_prefix {front chars : List Char} (h : front <+: chars) :
    IsCharBoundary (byteLength front) chars := by
  obtain ⟨rest, rfl⟩ := h
  exact isCharBoundary_append front rest

theorem isCharBoundary_zero (chars : List Char) : IsCharBoundary 0 chars := ⟨[], chars, rfl, rfl⟩

theorem isCharBoundary_byteLength (chars : List Char) : IsCharBoundary (byteLength chars) chars :=
  ⟨chars, [], (List.append_nil chars).symm, rfl⟩

theorem IsCharBoundary.le {n : Nat} {chars : List Char} (h : IsCharBoundary n chars) :
    n ≤ byteLength chars := by
  obtain ⟨front, rest, rfl, rfl⟩ := h
  rw [byteLength_append]
  exact Nat.le_add_right _ _

theorem IsCharBoundary.append {n : Nat} {chars : List Char} (h : IsCharBoundary n chars)
    (rest : List Char) : IsCharBoundary n (chars ++ rest) := by
  obtain ⟨front, mid, rfl, rfl⟩ := h
  exact ⟨front, mid ++ rest, List.append_assoc .., rfl⟩

theorem IsCharBoundary.splitAtByte {n : Nat} {chars : List Char} (h : IsCharBoundary n chars) :
    ∃ front rest, splitAtByte n chars = some (front, rest) ∧ chars = front ++ rest ∧
      byteLength front = n := by
  obtain ⟨front, rest, rfl, rfl⟩ := h
  exact ⟨front, rest, splitAtByte_append front rest, rfl, rfl⟩

theorem eq_nil_of_byteLength_eq_zero {chars : List Char} (h : byteLength chars = 0) :
    chars = [] := by
  cases chars with
  | nil => rfl
  | cons c chars =>
    have hpos := Char.utf8Size_pos c
    rw [byteLength_cons] at h
    omega

/-- Of two fronts of one text, the one with no more bytes is a front of the other. -/
theorem exists_append_of_byteLength_le {front rest front' rest' : List Char}
    (h : front ++ rest = front' ++ rest') (hle : byteLength front ≤ byteLength front') :
    ∃ gap, front' = front ++ gap ∧ rest = gap ++ rest' := by
  rcases List.append_eq_append_iff.mp h with ⟨gap, rfl, rfl⟩ | ⟨gap, rfl, rfl⟩
  · exact ⟨gap, rfl, rfl⟩
  · rw [byteLength_append] at hle
    obtain rfl := eq_nil_of_byteLength_eq_zero (show byteLength gap = 0 by omega)
    exact ⟨[], by simp, by simp⟩

/-- A boundary of a text is one of each of its fronts that it does not lie behind. -/
theorem IsCharBoundary.of_append {n : Nat} {front rest : List Char}
    (h : IsCharBoundary n (front ++ rest)) (hle : n ≤ byteLength front) : IsCharBoundary n front := by
  obtain ⟨front', rest', heq, rfl⟩ := h
  obtain ⟨gap, rfl, -⟩ := exists_append_of_byteLength_le heq.symm hle
  exact isCharBoundary_append front' gap

/-- The range from one offset to another is a part of the text. -/
def IsByteRange (range : Nat × Nat) (chars : List Char) : Prop :=
  ∃ front mid rest, chars = front ++ (mid ++ rest) ∧ byteLength front = range.1 ∧
    range.2 = range.1 + byteLength mid

theorem IsByteRange.isCharBoundary {range : Nat × Nat} {chars : List Char}
    (h : IsByteRange range chars) : IsCharBoundary range.1 chars := by
  obtain ⟨front, mid, rest, rfl, hfront, -⟩ := h
  exact ⟨front, mid ++ rest, rfl, hfront⟩

/-- `String::replace_range`. -/
def replaceRange (range : Nat × Nat) (replacement chars : List Char) : Option (List Char) :=
  if range.1 ≤ range.2 then
    (splitAtByte range.1 chars).bind fun cut =>
      (splitAtByte (range.2 - range.1) cut.2).map fun tail => cut.1 ++ (replacement ++ tail.2)
  else none

theorem replaceRange_eq {range : Nat × Nat} {front mid rest : List Char} (replacement : List Char)
    (hfront : byteLength front = range.1) (hmid : range.2 = range.1 + byteLength mid) :
    replaceRange range replacement (front ++ (mid ++ rest)) =
      some (front ++ (replacement ++ rest)) := by
  have hlength : range.2 - range.1 = byteLength mid := by omega
  rw [replaceRange, if_pos (by omega), ← hfront, splitAtByte_append, Option.bind_some, hfront,
    hlength, splitAtByte_append, Option.map_some]

/-- The ranges are replaced from the last to the first, so that offsets stay valid. -/
def replaceRanges (ranges : List (Nat × Nat)) (replacement chars : List Char) :
    Option (List Char) :=
  ranges.foldrM (fun range chars => replaceRange range replacement chars) chars

/-- The second text is the first with the ranges rewritten and nothing else. Both are what is left
behind an offset that the ranges are counted from. -/
inductive Rewrites (replacement : List Char) :
    List (Nat × Nat) → Nat → List Char → List Char → Prop
  | nil (offset : Nat) (chars : List Char) : Rewrites replacement [] offset chars chars
  | cons {range : Nat × Nat} {ranges : List (Nat × Nat)} {offset : Nat}
      {gap mid rest rest' : List Char} :
      range.1 = offset + byteLength gap → range.2 = range.1 + byteLength mid →
      Rewrites replacement ranges range.2 rest rest' →
      Rewrites replacement (range :: ranges) offset (gap ++ (mid ++ rest))
        (gap ++ (replacement ++ rest'))

theorem exists_replaceRange {range : Nat × Nat} {chars : List Char} (replacement : List Char)
    (h : IsByteRange range chars) :
    ∃ chars', replaceRange range replacement chars = some chars' ∧
      Rewrites replacement [range] 0 chars chars' := by
  obtain ⟨front, mid, rest, rfl, hfront, hmid⟩ := h
  refine ⟨_, replaceRange_eq replacement hfront hmid, .cons ?_ hmid (.nil _ rest)⟩
  rw [Nat.zero_add, hfront]

theorem Rewrites.isCharBoundary {replacement chars chars' : List Char} {ranges : List (Nat × Nat)}
    {n : Nat} (h : Rewrites replacement ranges 0 chars chars') (hn : IsCharBoundary n chars)
    (hle : ∀ range ∈ ranges, n ≤ range.1) : IsCharBoundary n chars' := by
  cases h with
  | nil => exact hn
  | cons hgap _ _ =>
    have hfirst := hle _ List.mem_cons_self
    rw [hgap, Nat.zero_add] at hfirst
    exact (hn.of_append hfirst).append _

/-- Ranges in order behind a front of the text are rewritten in what is behind it. -/
theorem replaceRanges_append {ranges : List (Nat × Nat)} (replacement front tail : List Char)
    (hranges : ∀ range ∈ ranges, IsByteRange range (front ++ tail))
    (horder : ranges.Pairwise fun range range' => range.2 ≤ range'.1)
    (hbehind : ∀ range ∈ ranges, byteLength front ≤ range.1) :
    ∃ tail', replaceRanges ranges replacement (front ++ tail) = some (front ++ tail') ∧
      Rewrites replacement ranges (byteLength front) tail tail' := by
  induction ranges generalizing front tail with
  | nil => exact ⟨tail, rfl, .nil _ _⟩
  | cons range ranges ih =>
    obtain ⟨front', mid, rest, heq, hfront', hmid⟩ := hranges _ List.mem_cons_self
    have hle := hbehind range List.mem_cons_self
    obtain ⟨gap, rfl, rfl⟩ := exists_append_of_byteLength_le heq (by omega)
    rw [List.pairwise_cons] at horder
    have hlength : byteLength ((front ++ gap) ++ mid) = range.2 := by
      rw [byteLength_append, hfront', hmid]
    have hsame : front ++ (gap ++ (mid ++ rest)) = ((front ++ gap) ++ mid) ++ rest := by simp
    obtain ⟨rest', hreplaced, hrewrites⟩ := ih ((front ++ gap) ++ mid) rest
      (fun range' h => hsame ▸ hranges range' (List.mem_cons_of_mem _ h)) horder.2
      (fun range' h => hlength ▸ horder.1 range' h)
    rw [hlength] at hrewrites
    refine ⟨gap ++ (replacement ++ rest'), ?_, .cons ?_ hmid hrewrites⟩
    · rw [replaceRanges, List.foldrM_cons, ← replaceRanges, hsame, hreplaced]
      change replaceRange range replacement _ = _
      rw [List.append_assoc (front ++ gap) mid rest', replaceRange_eq replacement hfront' hmid,
        List.append_assoc]
    · rw [← hfront', byteLength_append]

theorem exists_replaceRanges {ranges : List (Nat × Nat)} {chars : List Char}
    (replacement : List Char) (hranges : ∀ range ∈ ranges, IsByteRange range chars)
    (horder : ranges.Pairwise fun range range' => range.2 ≤ range'.1) :
    ∃ chars', replaceRanges ranges replacement chars = some chars' ∧
      Rewrites replacement ranges 0 chars chars' :=
  replaceRanges_append replacement [] chars hranges horder fun _ _ => Nat.zero_le _

end HerdrWebui
