import HerdrWebui.Data.Utf8Text

/-!
Bytes that are cut into frames, each read as UTF-8 on its own.

What such a reading says differs from a reading of the whole only where a cut is inside a
piece. Nothing here is about a particular program.
-/

namespace HerdrWebui

def pieceBytes (pieces : List (Char × List UInt8)) : Nat := (pieces.map (·.2.length)).sum

/-- Where frames end, counted from the start of the first. -/
def cutOffsets : List (List UInt8) → List Nat
  | [] => []
  | frame :: frames => frame.length :: (cutOffsets frames).map (frame.length + ·)

/-- A cut is between two bytes of the piece that starts there. -/
def cutInside (cuts : List Nat) (start length : Nat) : Bool :=
  cuts.any fun cut => start < cut && cut < start + length

/-- The characters, each with whether it is torn by a cut. -/
def tornChars (cuts : List Nat) : Nat → List (Char × List UInt8) → List (Char × Bool)
  | _, [] => []
  | start, piece :: pieces =>
    (piece.1, cutInside cuts start piece.2.length) ::
      tornChars cuts (start + piece.2.length) pieces

/-- What is read instead: a torn character becomes replacement characters, two at least. -/
inductive ReadAs : List (Char × Bool) → List Char → Prop
  | nil : ReadAs [] []
  | whole {c chars read} : ReadAs chars read → ReadAs ((c, false) :: chars) (c :: read)
  | torn {c chars read} (count : Nat) : ReadAs chars read →
      ReadAs ((c, true) :: chars) (List.replicate (count + 2) replacement ++ read)

def frameChars (frames : List (List UInt8)) : List Char :=
  frames.flatMap fun frame => (fromUtf8Lossy frame).toList

/-- The characters of the whole, each with whether a cut tears it. -/
def framePieces (frames : List (List UInt8)) : List (Char × Bool) :=
  tornChars (cutOffsets frames) 0 (lossyPieces frames.flatten)

/-- What follows the last character that is torn, where one is. -/
def textAfterTear : List (Char × Bool) → Option (List Char)
  | [] => none
  | (_, torn) :: chars =>
    (textAfterTear chars).or (if torn then some (chars.map (·.1)) else none)

theorem countMatching_le_expected (expected : List (UInt8 → Bool)) (bytes : List UInt8) :
    countMatching expected bytes ≤ expected.length := by
  fun_induction countMatching expected bytes with
  | case1 expected more byte bytes _ ih => exact Nat.succ_le_succ ih
  | case2 => exact Nat.zero_le _
  | case3 => exact Nat.zero_le _

theorem continuations_of_continues {lead : UInt8} {expected : UInt8 → Bool}
    (h : expected ∈ continuations lead) {byte : UInt8} (hbyte : expected byte = true) :
    continuations byte = [] ∧ ¬byte < 0x80 := by
  refine ⟨?_, continuations_high h hbyte⟩
  have hlow : byte.toNat ≤ 0xBF := by
    have hrange {low high : UInt8} (hhigh : high.toNat ≤ 0xBF)
        (hbetween : isBetween low high byte = true) : byte.toNat ≤ 0xBF :=
      (isBetween_toNat hbetween).2.trans hhigh
    have htail {low high : UInt8} {more : List (UInt8 → Bool)} (hhigh : high.toNat ≤ 0xBF)
        (hmore : ∀ expected ∈ more, expected = isBetween 0x80 0xBF)
        (hmem : expected ∈ isBetween low high :: more) : byte.toNat ≤ 0xBF := by
      rcases List.mem_cons.mp hmem with rfl | hmem
      · exact hrange hhigh hbyte
      · rw [hmore _ hmem] at hbyte
        exact hrange (by decide) hbyte
    unfold continuations at h
    dsimp only at h
    split_ifs at h
    all_goals first
      | exact htail (by decide) (by simp) h
      | exact absurd h List.not_mem_nil
  have hnot {low high : UInt8} (hle : 0xC0 ≤ low.toNat) : isBetween low high byte ≠ true := by
    intro hbetween
    have hmin := (isBetween_toNat hbetween).1
    omega
  have hne {other : UInt8} (hle : 0xC0 ≤ other.toNat) : byte ≠ other := by
    rintro rfl
    omega
  unfold continuations
  simp only [hnot (by decide : 0xC0 ≤ (0xC2 : UInt8).toNat),
    hnot (by decide : 0xC0 ≤ (0xE1 : UInt8).toNat), hnot (by decide : 0xC0 ≤ (0xF1 : UInt8).toNat),
    hne (by decide : 0xC0 ≤ (0xE0 : UInt8).toNat), hne (by decide : 0xC0 ≤ (0xED : UInt8).toNat),
    hne (by decide : 0xC0 ≤ (0xF0 : UInt8).toNat), hne (by decide : 0xC0 ≤ (0xF4 : UInt8).toNat),
    if_false]
  rfl

theorem lossyPieces_stray {stray : List UInt8}
    (h : ∀ byte ∈ stray, continuations byte = [] ∧ ¬byte < 0x80) (bytes : List UInt8) :
    lossyPieces (stray ++ bytes) =
      stray.map (fun byte => (replacement, [byte])) ++ lossyPieces bytes := by
  induction stray with
  | nil => rfl
  | cons byte stray ih =>
    obtain ⟨hnone, hhigh⟩ := h byte List.mem_cons_self
    have hcount : countMatching (continuations byte) (stray ++ bytes) = 0 := by
      rw [hnone]
      rfl
    rw [List.cons_append, lossyPieces, hcount, List.take_zero, List.drop_zero, sequenceChar,
      if_neg hhigh, if_pos (.inl rfl),
      ih fun byte hmem => h byte (List.mem_cons_of_mem _ hmem)]
    rfl

/-- What a cut does to the pieces: nothing, or it tears one of them into the start of a
sequence and bytes that begin nothing. -/
theorem lossyPieces_cut (front back : List UInt8) :
    lossyPieces (front ++ back) = lossyPieces front ++ lossyPieces back ∨
      ∃ pre c head stray rest,
        head ≠ [] ∧ stray ≠ [] ∧
        lossyPieces (front ++ back) = pre ++ (c, head ++ stray) :: lossyPieces rest ∧
        lossyPieces front = pre ++ [(replacement, head)] ∧
        back = stray ++ rest ∧
        lossyPieces back =
          stray.map (fun byte => (replacement, [byte])) ++ lossyPieces rest := by
  fun_induction lossyPieces front with
  | case1 => exact .inl rfl
  | case2 lead rest count ih =>
    have happend := countMatching_append_eq (continuations lead) rest back
    by_cases hall : count = rest.length ∧
        countMatching ((continuations lead).drop rest.length) back ≠ 0
    · -- the sequence goes on in what follows
      obtain ⟨hcount, hmore⟩ := hall
      right
      rw [if_pos hcount] at happend
      generalize hextra : countMatching ((continuations lead).drop rest.length) back = extra
        at happend hmore
      have hshort : rest.length < (continuations lead).length := by
        have hle := countMatching_le_expected (continuations lead) (rest ++ back)
        omega
      have hnone : lossyPieces (rest.drop count) = [] := by
        rw [hcount, List.drop_length, lossyPieces]
      have hstray : ∀ byte ∈ back.take extra, continuations byte = [] ∧ ¬byte < 0x80 := by
        intro byte hbyte
        rw [← hextra] at hbyte
        obtain ⟨expected, hmem, hexpected⟩ := exists_of_mem_matching hbyte
        exact continuations_of_continues (List.mem_of_mem_drop hmem) hexpected
      have hback := lossyPieces_stray hstray (back.drop extra)
      rw [List.take_append_drop] at hback
      have htake : (rest ++ back).take (rest.length + extra) = rest ++ back.take extra :=
        List.take_length_add_append _
      have hdrop : (rest ++ back).drop (rest.length + extra) = back.drop extra :=
        List.drop_length_add_append _
      refine ⟨[], sequenceChar lead (rest ++ back.take extra), lead :: rest,
        back.take extra, back.drop extra, List.cons_ne_nil _ _, ?_, ?_, ?_,
        (List.take_append_drop _ _).symm, hback⟩
      · intro hnil
        rw [← List.length_eq_zero_iff, List.length_take] at hnil
        have hle := countMatching_le ((continuations lead).drop rest.length) back
        omega
      · rw [List.cons_append, lossyPieces, happend, htake, hdrop]
        rfl
      · have hascii : ¬lead < 0x80 := by
          intro hascii
          rw [continuations_ascii hascii] at hshort
          exact absurd hshort (Nat.not_lt_zero _)
        rw [hnone, hcount, List.take_length, sequenceChar, if_neg hascii, if_pos (.inr hshort)]
        rfl
    · -- the sequence ends before the cut
      have hcount : countMatching (continuations lead) (rest ++ back) = count := by
        rw [happend]
        split
        · next heq =>
            have hzero : countMatching ((continuations lead).drop rest.length) back = 0 := by
              by_contra hne
              exact hall ⟨heq, hne⟩
            rw [hzero]
            exact heq.symm
        · rfl
      have hle : count ≤ rest.length := countMatching_le _ _
      have hsplit : lossyPieces (lead :: rest ++ back) =
          (sequenceChar lead (rest.take count), lead :: rest.take count) ::
            lossyPieces (rest.drop count ++ back) := by
        rw [List.cons_append, lossyPieces, hcount, List.take_append_of_le_length hle,
          List.drop_append_of_le_length hle]
      rw [hsplit]
      rcases ih with hclean | ⟨pre, c, head, stray, more, hhead, hstray, hwhole, hfront, hback⟩
      · left
        rw [hclean]
        rfl
      · right
        refine ⟨(sequenceChar lead (rest.take count), lead :: rest.take count) :: pre, c, head,
          stray, more, hhead, hstray, ?_, ?_, hback⟩
        · rw [hwhole]
          rfl
        · rw [hfront]
          rfl

theorem tornChars_append (cuts : List Nat) (start : Nat) (front back : List (Char × List UInt8)) :
    tornChars cuts start (front ++ back) =
      tornChars cuts start front ++ tornChars cuts (start + pieceBytes front) back := by
  induction front generalizing start with
  | nil => rfl
  | cons piece front ih =>
    rw [List.cons_append, tornChars, tornChars, ih, List.cons_append, Nat.add_assoc]
    rfl

theorem map_fst_tornChars (cuts : List Nat) (start : Nat) (pieces : List (Char × List UInt8)) :
    (tornChars cuts start pieces).map (·.1) = pieces.map (·.1) := by
  induction pieces generalizing start with
  | nil => rfl
  | cons piece pieces ih => rw [tornChars, List.map_cons, List.map_cons, ih]

theorem tornChars_whole {cuts : List Nat} {start : Nat} {pieces : List (Char × List UInt8)}
    (h : (∀ piece ∈ pieces, piece.2.length ≤ 1) ∨
      ∀ cut ∈ cuts, start + pieceBytes pieces ≤ cut) :
    tornChars cuts start pieces = pieces.map fun piece => (piece.1, false) := by
  induction pieces generalizing start with
  | nil => rfl
  | cons piece pieces ih =>
    have hbytes : pieceBytes (piece :: pieces) = piece.2.length + pieceBytes pieces := rfl
    have hmore : (∀ piece ∈ pieces, piece.2.length ≤ 1) ∨
        ∀ cut ∈ cuts, start + piece.2.length + pieceBytes pieces ≤ cut := by
      refine h.imp (fun h other hmem => h other (List.mem_cons_of_mem _ hmem)) ?_
      intro h cut hmem
      have hcut := h cut hmem
      omega
    have hnot : cutInside cuts start piece.2.length = false := by
      rw [cutInside, List.any_eq_false]
      intro cut hmem
      rw [Bool.and_eq_true, decide_eq_true_eq, decide_eq_true_eq]
      rcases h with h | h
      · have hone := h piece List.mem_cons_self
        omega
      · have hcut := h cut hmem
        omega
    rw [tornChars, hnot, ih hmore]
    rfl

/-- A frame in front moves the later cuts; its own end is before all of them. -/
theorem tornChars_shift (frame : Nat) (cuts : List Nat) (start : Nat)
    (pieces : List (Char × List UInt8)) :
    tornChars (frame :: cuts.map (frame + ·)) (frame + start) pieces =
      tornChars cuts start pieces := by
  induction pieces generalizing start with
  | nil => rfl
  | cons piece pieces ih =>
    have hinside : cutInside (frame :: cuts.map (frame + ·)) (frame + start) piece.2.length =
        cutInside cuts start piece.2.length := by
      rw [Bool.eq_iff_iff, cutInside, cutInside]
      simp only [List.any_cons, List.any_map, Bool.or_eq_true, List.any_eq_true, Bool.and_eq_true,
        decide_eq_true_eq, Function.comp_apply]
      constructor
      · rintro (hown | ⟨cut, hmem, hcut⟩)
        · omega
        · exact ⟨cut, hmem, by omega⟩
      · rintro ⟨cut, hmem, hcut⟩
        exact .inr ⟨cut, hmem, by omega⟩
    rw [tornChars, tornChars, hinside, Nat.add_assoc, ih]

theorem pieceBytes_lossyPieces (bytes : List UInt8) :
    pieceBytes (lossyPieces bytes) = bytes.length := by
  have h := congrArg List.length (lossyPieces_bytes bytes)
  rwa [List.length_flatMap] at h

theorem pieceBytes_append (front back : List (Char × List UInt8)) :
    pieceBytes (front ++ back) = pieceBytes front + pieceBytes back := by
  rw [pieceBytes, List.map_append, List.sum_append]
  rfl

theorem ReadAs.whole_append {pieces : List (Char × List UInt8)} {chars : List (Char × Bool)}
    {read : List Char} (h : ReadAs chars read) :
    ReadAs ((pieces.map fun piece => (piece.1, false)) ++ chars) (pieces.map (·.1) ++ read) := by
  induction pieces with
  | nil => exact h
  | cons piece pieces ih => exact .whole ih

theorem ReadAs.of_whole_append {pieces : List (Char × List UInt8)} {chars : List (Char × Bool)}
    {read : List Char}
    (h : ReadAs ((pieces.map fun piece => (piece.1, false)) ++ chars) read) :
    ∃ rest, read = pieces.map (·.1) ++ rest ∧ ReadAs chars rest := by
  induction pieces generalizing read with
  | nil => exact ⟨read, rfl, h⟩
  | cons piece pieces ih =>
    cases h with
    | whole h =>
      obtain ⟨rest, rfl, hrest⟩ := ih h
      exact ⟨rest, rfl, hrest⟩

/-- Frame by frame a character that no cut tears is read as it is, and a torn one as
replacement characters. -/
theorem readAs_frameChars (frames : List (List UInt8)) :
    ReadAs (framePieces frames) (frameChars frames) := by
  induction frames with
  | nil =>
    rw [framePieces, List.flatten_nil, lossyPieces]
    exact .nil
  | cons frame frames ih =>
    rw [framePieces] at ih
    rw [framePieces, frameChars, List.flatMap_cons, List.flatten_cons, cutOffsets,
      toList_fromUtf8Lossy, lossyChars]
    have hcuts : ∀ cut ∈ frame.length :: (cutOffsets frames).map (frame.length + ·),
        frame.length ≤ cut := by
      intro cut hmem
      rcases List.mem_cons.mp hmem with rfl | hmem
      · exact le_rfl
      · obtain ⟨cut, -, rfl⟩ := List.mem_map.mp hmem
        exact Nat.le_add_right _ _
    have hbytes := pieceBytes_lossyPieces frame
    rcases lossyPieces_cut frame frames.flatten with hclean | ⟨pre, c, head, stray, rest,
      hhead, hstray, hwhole, hfront, hback, hpieces⟩
    · rw [hclean, tornChars_append, hbytes, Nat.zero_add, tornChars_whole]
      · have hshift := tornChars_shift frame.length (cutOffsets frames) 0
          (lossyPieces frames.flatten)
        rw [Nat.add_zero] at hshift
        rw [hshift]
        exact ih.whole_append
      · right
        intro cut hmem
        rw [hbytes, Nat.zero_add]
        exact hcuts cut hmem
    · have hsingle : ∀ piece ∈ stray.map fun byte => (replacement, [byte]),
          piece.2.length ≤ 1 := by
        intro piece hmem
        obtain ⟨byte, -, rfl⟩ := List.mem_map.mp hmem
        exact le_rfl
      have hstrayBytes : pieceBytes (stray.map fun byte => (replacement, [byte])) =
          stray.length := by
        rw [pieceBytes, List.map_map]
        simp [Function.comp_def]
      have hlength : pieceBytes pre + head.length = frame.length := by
        rw [← hbytes, hfront, pieceBytes_append]
        rfl
      rw [hpieces, tornChars_append, tornChars_whole (.inl hsingle), hstrayBytes,
        Nat.zero_add] at ih
      obtain ⟨read, hread, hrest⟩ := ih.of_whole_append
      rw [frameChars] at hread
      have htorn : cutInside (frame.length :: (cutOffsets frames).map (frame.length + ·))
          (0 + pieceBytes pre) (head ++ stray).length = true := by
        rw [cutInside, List.any_cons, Bool.or_eq_true, Bool.and_eq_true, decide_eq_true_eq,
          decide_eq_true_eq, List.length_append]
        have hhead := List.length_pos_iff.mpr hhead
        have hstray := List.length_pos_iff.mpr hstray
        left
        omega
      have hshift := tornChars_shift frame.length (cutOffsets frames) stray.length
        (lossyPieces rest)
      have hnext : 0 + pieceBytes pre + (head ++ stray).length =
          frame.length + stray.length := by
        rw [List.length_append]
        omega
      obtain ⟨byte, more, rfl⟩ := List.exists_cons_of_ne_nil hstray
      rw [hwhole, tornChars_append, tornChars_whole, tornChars, htorn, hnext, hshift, hfront,
        List.map_append, List.append_assoc, hread]
      · have hreplaced : [(replacement, head)].map (·.1) ++
            (((byte :: more).map fun byte => (replacement, [byte])).map (·.1) ++ read) =
            List.replicate (more.length + 2) replacement ++ read := by
          simp [List.replicate_succ, Function.comp_def, List.map_const']
        rw [hreplaced]
        exact (ReadAs.torn more.length hrest).whole_append
      · right
        intro cut hmem
        have hcut := hcuts cut hmem
        omega

theorem ReadAs.of_textAfterTear_none {chars : List (Char × Bool)} {read : List Char}
    (h : ReadAs chars read) (hnone : textAfterTear chars = none) : read = chars.map (·.1) := by
  induction h with
  | nil => rfl
  | whole _ ih =>
    rw [textAfterTear, if_neg Bool.false_ne_true, Option.or_none] at hnone
    rw [ih hnone, List.map_cons]
  | torn count _ ih =>
    rw [textAfterTear, if_pos rfl, Option.or_eq_none_iff] at hnone
    exact absurd hnone.2 (Option.some_ne_none _)

/-- Behind the last tear both readings agree, and before it is a character in the one and
replacement characters in the other. -/
theorem ReadAs.of_textAfterTear {chars : List (Char × Bool)} {read text : List Char}
    (h : ReadAs chars read) (htext : textAfterTear chars = some text) :
    ∃ pre c count preRead, ReadAs pre preRead ∧ chars.map (·.1) = pre.map (·.1) ++ c :: text ∧
      read = preRead ++ (List.replicate (count + 2) replacement ++ text) := by
  induction h with
  | nil => exact absurd htext.symm (Option.some_ne_none _)
  | @whole c chars read h ih =>
    rw [textAfterTear, if_neg Bool.false_ne_true, Option.or_none] at htext
    obtain ⟨pre, last, count, preRead, hpre, hchars, hread⟩ := ih htext
    refine ⟨(c, false) :: pre, last, count, c :: preRead, .whole hpre, ?_, ?_⟩
    · rw [List.map_cons, hchars]
      rfl
    · rw [hread]
      rfl
  | @torn c chars read count h ih =>
    rw [textAfterTear, if_pos rfl] at htext
    cases hmore : textAfterTear chars with
    | none =>
      rw [hmore, Option.none_or, Option.some.injEq] at htext
      refine ⟨[], c, count, [], .nil, ?_, ?_⟩
      · rw [List.map_cons, htext]
        rfl
      · rw [h.of_textAfterTear_none hmore, htext]
        rfl
    | some later =>
      rw [hmore, Option.some_or, Option.some.injEq] at htext
      obtain ⟨pre, last, lastCount, preRead, hpre, hchars, hread⟩ := ih (hmore.trans
        (congrArg some htext))
      refine ⟨(c, true) :: pre, last, lastCount, _, .torn count hpre, ?_, ?_⟩
      · rw [List.map_cons, hchars]
        rfl
      · rw [hread, List.append_assoc]

theorem ReadAs.of_append {front back : List (Char × Bool)} {read : List Char}
    (h : ReadAs (front ++ back) read) :
    ∃ frontRead backRead, read = frontRead ++ backRead ∧ ReadAs front frontRead ∧
      ReadAs back backRead := by
  induction front generalizing read with
  | nil => exact ⟨[], read, rfl, .nil, h⟩
  | cons c front ih =>
    cases h with
    | whole h =>
      obtain ⟨frontRead, backRead, rfl, hfront, hback⟩ := ih h
      exact ⟨_, backRead, rfl, .whole hfront, hback⟩
    | torn count h =>
      obtain ⟨frontRead, backRead, rfl, hfront, hback⟩ := ih h
      exact ⟨_, backRead, (List.append_assoc _ _ _).symm, .torn count hfront, hback⟩

theorem ReadAs.eq_replicate {chars : List (Char × Bool)} {read : List Char}
    (h : ReadAs chars read) (hall : ∀ c ∈ chars, c.1 = replacement) :
    ∃ more, read = List.replicate (chars.length + more) replacement := by
  induction h with
  | nil => exact ⟨0, rfl⟩
  | @whole c chars read h ih =>
    obtain ⟨more, rfl⟩ := ih fun c hmem => hall c (List.mem_cons_of_mem _ hmem)
    have hc : c = replacement := hall (c, false) List.mem_cons_self
    refine ⟨more, ?_⟩
    rw [hc, List.length_cons, Nat.add_right_comm, List.replicate_succ]
  | @torn c chars read count h ih =>
    obtain ⟨more, rfl⟩ := ih fun c hmem => hall c (List.mem_cons_of_mem _ hmem)
    refine ⟨count + 1 + more, ?_⟩
    rw [List.replicate_append_replicate, List.length_cons]
    congr 1
    omega

theorem ReadAs.replicate_isSuffix {chars : List (Char × Bool)} {read : List Char} {count : Nat}
    (h : ReadAs chars read) (hend : List.replicate count replacement <:+ chars.map (·.1)) :
    List.replicate count replacement <:+ read := by
  obtain ⟨front, hchars⟩ := hend
  obtain ⟨frontChars, backChars, rfl, -, hback⟩ := List.map_eq_append_iff.mp hchars.symm
  obtain ⟨frontRead, backRead, rfl, -, hread⟩ := h.of_append
  have hall : ∀ c ∈ backChars, c.1 = replacement := by
    intro c hmem
    have hmem := List.mem_map_of_mem (f := fun c : Char × Bool => c.1) hmem
    rw [hback] at hmem
    exact List.eq_of_mem_replicate hmem
  obtain ⟨more, rfl⟩ := hread.eq_replicate hall
  have hlength := congrArg List.length hback
  rw [List.length_map, List.length_replicate] at hlength
  rw [hlength, Nat.add_comm, ← List.replicate_append_replicate, ← List.append_assoc]
  exact List.suffix_append _ _

end HerdrWebui
