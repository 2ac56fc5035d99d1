import HerdrWebui.Data.HoldBack
import HerdrWebui.Data.Utf8
import HerdrWebui.Data.Utf8Lossy

/-!
Bytes that are those of a text are read as that text, and bytes may be cut before they are
read where no sequence goes on.

Nothing here is about a particular program.
-/

namespace HerdrWebui

/-- Counting goes on behind bytes that all match, and stops where one does not. -/
theorem countMatching_append_eq (expected : List (UInt8 → Bool)) (front back : List UInt8) :
    countMatching expected (front ++ back) =
      if countMatching expected front = front.length then
        front.length + countMatching (expected.drop front.length) back
      else countMatching expected front := by
  induction front generalizing expected with
  | nil => cases expected <;> simp [countMatching]
  | cons byte front ih =>
    cases expected with
    | nil => simp [countMatching]
    | cons first more =>
      by_cases hfirst : first byte = true
      · rw [List.cons_append, countMatching, countMatching, if_pos hfirst, if_pos hfirst,
          ih more, List.length_cons, List.drop_succ_cons]
        split <;> split <;> omega
      · rw [List.cons_append, countMatching, countMatching, if_neg hfirst, if_neg hfirst,
          List.length_cons, if_neg (Nat.zero_ne_add_one _)]

theorem countMatching_append {expected : List (UInt8 → Bool)} {byte : UInt8}
    (hbyte : ∀ matcher ∈ expected, matcher byte = false) (bytes rest : List UInt8) :
    countMatching expected (bytes ++ byte :: rest) = countMatching expected bytes := by
  rw [countMatching_append_eq]
  split
  case isTrue hall =>
    cases hdrop : expected.drop bytes.length with
    | nil => exact hall.symm
    | cons matcher more =>
      have hmatcher : matcher ∈ expected :=
        List.mem_of_mem_drop (hdrop ▸ List.mem_cons_self)
      rw [countMatching, hbyte matcher hmatcher]
      exact hall.symm
  case isFalse => rfl

theorem countMatching_append_of_lt {expected : List (UInt8 → Bool)} {bytes : List UInt8}
    (h : countMatching expected bytes < bytes.length) (more : List UInt8) :
    countMatching expected (bytes ++ more) = countMatching expected bytes := by
  rw [countMatching_append_eq, if_neg h.ne]

theorem countMatching_le (expected : List (UInt8 → Bool)) (bytes : List UInt8) :
    countMatching expected bytes ≤ bytes.length := by
  fun_induction countMatching expected bytes with
  | case1 expected more byte bytes hmatch ih => rw [List.length_cons]; omega
  | case2 => omega
  | case3 => omega

/-- A byte that may stand behind the first of a sequence. -/
def isTail (byte : UInt8) : Bool := isBetween 0x80 0xBF byte

theorem isTail_of_isBetween {low high byte : UInt8} (hlow : 0x80 ≤ low.toNat)
    (hhigh : high.toNat ≤ 0xBF) (h : isBetween low high byte = true) : isTail byte = true := by
  have hrange := isBetween_toNat h
  rw [isTail, isBetween, Bool.and_eq_true, decide_eq_true_eq, decide_eq_true_eq,
    UInt8.le_iff_toNat_le, UInt8.le_iff_toNat_le]
  exact ⟨hlow.trans hrange.1, hrange.2.trans hhigh⟩

theorem continuations_tail {lead : UInt8} {expected : UInt8 → Bool}
    (h : expected ∈ continuations lead) {byte : UInt8} (hbyte : expected byte = true) :
    isTail byte = true := by
  have htail {low high : UInt8} {more : List (UInt8 → Bool)} (hlow : 0x80 ≤ low.toNat)
      (hhigh : high.toNat ≤ 0xBF) (hmore : ∀ expected ∈ more, expected = isTail)
      (hmem : expected ∈ isBetween low high :: more) : isTail byte = true := by
    rcases List.mem_cons.mp hmem with rfl | hmem
    · exact isTail_of_isBetween hlow hhigh hbyte
    · rw [hmore _ hmem] at hbyte
      exact hbyte
  unfold continuations at h
  dsimp only at h
  split_ifs at h
  all_goals first
    | exact htail (by decide) (by decide) (by simp [funext_iff, isTail]) h
    | exact absurd h List.not_mem_nil

theorem isTail_ascii {byte : UInt8} (h : byte < 0x80) : isTail byte = false := by
  apply Bool.eq_false_iff.mpr
  intro htail
  have hlow := (isBetween_toNat htail).1
  have hlt := UInt8.lt_iff_toNat_lt.mp h
  have hlimit : (0x80 : UInt8).toNat = 0x80 := rfl
  omega

theorem isTail_firstByte {byte : UInt8} (h : byte.IsUTF8FirstByte) : isTail byte = false := by
  have hall : ∀ n : Fin 256, (UInt8.ofNat n).IsUTF8FirstByte → isTail (UInt8.ofNat n) = false := by
    decide +kernel
  have hbyte := hall ⟨byte.toNat, UInt8.toNat_lt byte⟩
  rw [UInt8.ofNat_toNat] at hbyte
  exact hbyte h

theorem utf8EncodeChar_ne_nil (c : Char) : String.utf8EncodeChar c ≠ [] := by
  intro hnil
  have hlength := String.length_utf8EncodeChar c
  rw [hnil] at hlength
  exact absurd hlength.symm (Char.utf8Size_pos c).ne'

theorem utf8_ne_nil {chars : List Char} (h : chars ≠ []) : utf8 chars ≠ [] := by
  obtain ⟨c, rest, rfl⟩ := List.exists_cons_of_ne_nil h
  intro hnil
  rw [utf8_cons] at hnil
  exact utf8EncodeChar_ne_nil c (List.append_eq_nil_iff.mp hnil).1

theorem isTail_utf8 {chars : List Char} : ∀ byte ∈ (utf8 chars).head?, isTail byte = false := by
  intro byte hbyte
  cases chars with
  | nil => cases hbyte
  | cons c chars =>
    have hpos := List.length_pos_iff.mpr (utf8EncodeChar_ne_nil c)
    have hfirst : (String.utf8EncodeChar c)[0].IsUTF8FirstByte :=
      UInt8.isUTF8FirstByte_getElem_utf8EncodeChar.mpr rfl
    rw [utf8_cons, List.head?_append_of_ne_nil _ (List.length_pos_iff.mp hpos),
      Option.mem_def, List.head?_eq_getElem?, List.getElem?_eq_getElem hpos] at hbyte
    rw [Option.some.inj hbyte] at hfirst
    exact isTail_firstByte hfirst

/-- Bytes are read apart: nothing is lost or joined where they are cut. -/
def IsBoundary (bytes rest : List UInt8) : Prop :=
  lossyPieces (bytes ++ rest) = lossyPieces bytes ++ lossyPieces rest

instance (bytes rest : List UInt8) : Decidable (IsBoundary bytes rest) :=
  inferInstanceAs (Decidable (_ = _))

theorem isBoundary_nil_left (rest : List UInt8) : IsBoundary [] rest := by
  rw [IsBoundary, List.nil_append]
  simp [lossyPieces]

theorem isBoundary_nil_right (bytes : List UInt8) : IsBoundary bytes [] := by
  rw [IsBoundary, List.append_nil]
  simp [lossyPieces]

theorem isBoundary_of_head {rest : List UInt8} (h : ∀ byte ∈ rest.head?, isTail byte = false)
    (bytes : List UInt8) : IsBoundary bytes rest := by
  cases rest with
  | nil => exact isBoundary_nil_right bytes
  | cons byte rest =>
    have hbyte : isTail byte = false := h byte rfl
    unfold IsBoundary
    fun_induction lossyPieces bytes with
    | case1 => rfl
    | case2 lead more count ih =>
      have hnone : ∀ matcher ∈ continuations lead, matcher byte = false := by
        intro matcher hmem
        apply Bool.eq_false_iff.mpr
        intro hmatch
        rw [continuations_tail hmem hmatch] at hbyte
        cases hbyte
      have hcount : countMatching (continuations lead) (more ++ byte :: rest) = count :=
        countMatching_append hnone more rest
      have hle : count ≤ more.length := countMatching_le (continuations lead) more
      rw [List.cons_append, lossyPieces, hcount, List.take_append_of_le_length hle,
        List.drop_append_of_le_length hle, ih]
      rfl

theorem IsBoundary.append {bytes rest : List UInt8} (h : IsBoundary bytes rest) (hne : rest ≠ [])
    (more : List UInt8) : IsBoundary bytes (rest ++ more) := by
  obtain ⟨byte, rest, rfl⟩ := List.exists_cons_of_ne_nil hne
  unfold IsBoundary at *
  fun_induction lossyPieces bytes with
  | case1 => rfl
  | case2 lead tail count ih =>
    have hle : count ≤ tail.length := countMatching_le (continuations lead) tail
    rw [List.cons_append, lossyPieces, List.cons_append] at h
    obtain ⟨hpiece, hlater⟩ := List.cons.inj h
    have htake := congrArg List.length (List.cons.inj (Prod.mk.inj hpiece).2).2
    rw [List.length_take_of_le (countMatching_le _ _), List.length_take_of_le hle] at htake
    rw [htake, List.drop_append_of_le_length hle] at hlater
    have hcount : countMatching (continuations lead) (tail ++ (byte :: rest ++ more)) = count := by
      rw [← List.append_assoc, countMatching_append_of_lt, htake]
      rw [htake, List.length_append, List.length_cons]
      omega
    rw [List.cons_append, lossyPieces, hcount, List.take_append_of_le_length hle,
      List.drop_append_of_le_length hle, ih hlater]
    rfl

theorem lossyPieces_append {byte : UInt8} (hbyte : byte < 0x80) (bytes rest : List UInt8) :
    lossyPieces (bytes ++ byte :: rest) = lossyPieces bytes ++ lossyPieces (byte :: rest) := by
  apply isBoundary_of_head
  rintro _ ⟨⟩
  exact isTail_ascii hbyte

theorem fromUtf8Lossy_append {byte : UInt8} (hbyte : byte < 0x80) (bytes rest : List UInt8) :
    fromUtf8Lossy (bytes ++ byte :: rest) =
      fromUtf8Lossy bytes ++ fromUtf8Lossy (byte :: rest) := by
  rw [fromUtf8Lossy, lossyPieces_append hbyte, List.map_append, String.ofList_append]
  rfl

theorem lossyPieces_ascii {byte : UInt8} (hbyte : byte < 0x80) (rest : List UInt8) :
    lossyPieces (byte :: rest) = (Char.ofNat byte.toNat, [byte]) :: lossyPieces rest := by
  have hcount : countMatching (continuations byte) rest = 0 := by
    rw [continuations_ascii hbyte, countMatching]
    simp
  rw [lossyPieces, hcount, List.take_zero, List.drop_zero, sequenceChar, if_pos hbyte]

theorem countMatching_eq {expected : List (UInt8 → Bool)} {bytes : List UInt8}
    (h : List.Forall₂ (fun expected byte => expected byte = true) expected bytes)
    (rest : List UInt8) : countMatching expected (bytes ++ rest) = bytes.length := by
  induction h with
  | nil =>
    rw [List.nil_append, countMatching]
    · rfl
    · simp
  | cons hmatch _ ih =>
    rw [List.cons_append, countMatching, if_pos hmatch, ih]
    rfl

theorem lossyPieces_sequence {lead : UInt8} {tail : List UInt8} (hlead : ¬lead < 0x80)
    (hne : tail ≠ [])
    (h : List.Forall₂ (fun expected byte => expected byte = true) (continuations lead) tail)
    (rest : List UInt8) :
    lossyPieces (lead :: tail ++ rest) =
      (Char.ofNat (codePoint lead tail), lead :: tail) :: lossyPieces rest := by
  have hcount := countMatching_eq h rest
  have hlength := h.length_eq
  rw [List.cons_append, lossyPieces, hcount, List.take_left, List.drop_left, sequenceChar,
    if_neg hlead, if_neg]
  rw [hlength]
  simp [hne]

theorem isBetween_ofNat {low high : UInt8} {n : Nat} (hlow : low.toNat ≤ n)
    (hhigh : n ≤ high.toNat) : isBetween low high (UInt8.ofNat n) = true := by
  have hlimit : high.toNat < 256 := UInt8.toNat_lt high
  have hn : (UInt8.ofNat n).toNat = n := by
    rw [UInt8.toNat_ofNat', Nat.mod_eq_of_lt (by omega)]
  rw [isBetween, Bool.and_eq_true, decide_eq_true_eq, decide_eq_true_eq]
  exact ⟨UInt8.le_iff_toNat_le.mpr (by omega), UInt8.le_iff_toNat_le.mpr (by omega)⟩

theorem continuations_two {n : Nat} (hlow : 0xC2 ≤ n) (hhigh : n ≤ 0xDF) :
    continuations (UInt8.ofNat n) = [isBetween 0x80 0xBF] := by
  unfold continuations
  dsimp only
  rw [if_pos (isBetween_ofNat hlow hhigh)]

theorem continuations_three {n : Nat} (hlow : 0xE0 ≤ n) (hhigh : n ≤ 0xEF) :
    continuations (UInt8.ofNat n) =
      [isBetween (if n = 0xE0 then 0xA0 else 0x80) (if n = 0xED then 0x9F else 0xBF),
        isBetween 0x80 0xBF] := by
  interval_cases n <;> rfl

theorem continuations_four {n : Nat} (hlow : 0xF0 ≤ n) (hhigh : n ≤ 0xF4) :
    continuations (UInt8.ofNat n) =
      [isBetween (if n = 0xF0 then 0x90 else 0x80) (if n = 0xF4 then 0x8F else 0xBF),
        isBetween 0x80 0xBF, isBetween 0x80 0xBF] := by
  interval_cases n <;> rfl

theorem not_ascii_ofNat {n : Nat} (hlow : 0x80 ≤ n) (hhigh : n < 256) :
    ¬UInt8.ofNat n < 0x80 := by
  intro hlt
  have hnat := UInt8.lt_iff_toNat_lt.mp hlt
  rw [UInt8.toNat_ofNat', Nat.mod_eq_of_lt hhigh] at hnat
  exact absurd hnat (Nat.not_lt.mpr hlow)

theorem tail_byte (n : Nat) : isBetween 0x80 0xBF (UInt8.ofNat (n % 0x40 + 0x80)) = true := by
  apply isBetween_ofNat
  · exact Nat.le_add_left _ _
  · have hmod : n % 0x40 < 0x40 := Nat.mod_lt n (by decide)
    have hlimit : (0xBF : UInt8).toNat = 0xBF := rfl
    omega

theorem lossyPieces_char (c : Char) (rest : List UInt8) :
    lossyPieces (String.utf8EncodeChar c ++ rest) =
      (c, String.utf8EncodeChar c) :: lossyPieces rest := by
  obtain ⟨v, hv⟩ : ∃ v, c.val.toNat = v := ⟨_, rfl⟩
  have hchar : Char.ofNat v = c := hv ▸ Char.ofNat_toNat c
  have hvalid : v < 0xd800 ∨ (0xdfff < v ∧ v < 0x110000) := hv ▸ c.valid
  have hpiece {lead : UInt8} {tail : List UInt8} (hlead : ¬lead < 0x80) (hne : tail ≠ [])
      (h : List.Forall₂ (fun expected byte => expected byte = true) (continuations lead) tail)
      (hvalue : codePoint lead tail = v) :
      lossyPieces (lead :: tail ++ rest) = (c, lead :: tail) :: lossyPieces rest := by
    rw [lossyPieces_sequence hlead hne h, hvalue, hchar]
  unfold String.utf8EncodeChar
  rw [hv]
  dsimp only
  by_cases hone : v ≤ 0x7f
  · rw [if_pos hone]
    have hn : (UInt8.ofNat v).toNat = v := by
      rw [UInt8.toNat_ofNat', Nat.mod_eq_of_lt (by omega)]
    have hlow : UInt8.ofNat v < 0x80 := by
      apply UInt8.lt_iff_toNat_lt.mpr
      rw [hn]
      exact Nat.lt_succ_of_le hone
    rw [List.singleton_append, lossyPieces_ascii hlow, hn, hchar]
  rw [if_neg hone]
  by_cases htwo : v ≤ 0x7ff
  · rw [if_pos htwo]
    apply hpiece (not_ascii_ofNat (by omega) (by omega)) (List.cons_ne_nil _ _)
    · rw [continuations_two (by omega) (by omega)]
      exact .cons (tail_byte v) .nil
    · simp [codePoint]
      omega
  rw [if_neg htwo]
  by_cases hthree : v ≤ 0xffff
  · rw [if_pos hthree]
    apply hpiece (not_ascii_ofNat (by omega) (by omega)) (List.cons_ne_nil _ _)
    · rw [continuations_three (by omega) (by omega)]
      refine .cons (isBetween_ofNat ?_ ?_) (.cons (tail_byte v) .nil)
      · split
        · simp
          omega
        · simp
      · split <;> simp <;> omega
    · simp [codePoint]
      omega
  · rw [if_neg hthree]
    apply hpiece (not_ascii_ofNat (by omega) (by omega)) (List.cons_ne_nil _ _)
    · rw [continuations_four (by omega) (by omega)]
      refine .cons (isBetween_ofNat ?_ ?_) (.cons (tail_byte _) (.cons (tail_byte v) .nil))
      · split
        · simp
          omega
        · simp
      · split <;> simp <;> omega
    · simp [codePoint]
      omega

theorem lossyPieces_utf8 (chars : List Char) :
    lossyPieces (utf8 chars) = chars.map fun c => (c, String.utf8EncodeChar c) := by
  induction chars with
  | nil => simp [utf8, lossyPieces]
  | cons c chars ih => rw [utf8_cons, lossyPieces_char, ih, List.map_cons]

theorem fromUtf8Lossy_utf8 (text : String) : fromUtf8Lossy (utf8 text.toList) = text := by
  rw [fromUtf8Lossy, lossyPieces_utf8, List.map_map]
  exact (congrArg String.ofList (List.map_id _)).trans String.ofList_toList

theorem utf8_injective : Function.Injective utf8 := by
  intro chars chars' h
  have hread := congrArg fromUtf8Lossy h
  have hleft := fromUtf8Lossy_utf8 (String.ofList chars)
  have hright := fromUtf8Lossy_utf8 (String.ofList chars')
  rw [String.toList_ofList] at hleft hright
  rw [hleft, hright] at hread
  exact String.ofList_injective hread

def lossyChars (bytes : List UInt8) : List Char := (lossyPieces bytes).map (·.1)

theorem toList_fromUtf8Lossy (bytes : List UInt8) :
    (fromUtf8Lossy bytes).toList = lossyChars bytes := String.toList_ofList

theorem lossyChars_nil : lossyChars [] = [] := by simp [lossyChars, lossyPieces]

theorem lossyChars_eq_nil {bytes : List UInt8} (h : lossyChars bytes = []) : bytes = [] := by
  have hpieces := lossyPieces_bytes bytes
  rw [List.map_eq_nil_iff.mp h] at hpieces
  exact hpieces.symm

theorem IsBoundary.lossyChars_append {bytes rest : List UInt8} (h : IsBoundary bytes rest) :
    lossyChars (bytes ++ rest) = lossyChars bytes ++ lossyChars rest := by
  rw [lossyChars, h, List.map_append]
  rfl

theorem lossyChars_utf8_append (front : List Char) (bytes : List UInt8) :
    lossyChars (utf8 front ++ bytes) = front ++ lossyChars bytes := by
  induction front with
  | nil => rfl
  | cons c front ih =>
    rw [lossyChars] at ih ⊢
    rw [utf8_cons, List.append_assoc, lossyPieces_char, List.map_cons, ih, List.cons_append]

theorem fromUtf8Lossy_utf8_append (front : List Char) (bytes : List UInt8) :
    (fromUtf8Lossy (utf8 front ++ bytes)).toList = front ++ (fromUtf8Lossy bytes).toList := by
  rw [toList_fromUtf8Lossy, toList_fromUtf8Lossy, lossyChars_utf8_append]

theorem countP_lossyChars {p : Char → Bool} (hp : ∀ c, p c = true → c.toNat < 0x80)
    (bytes : List UInt8) :
    (lossyChars bytes).countP p = bytes.countP fun byte => p (Char.ofNat byte.toNat) := by
  have hhigh {c : Char} (hc : 0x80 ≤ c.toNat) : p c = false :=
    Bool.eq_false_iff.mpr fun h => absurd (hp c h) (Nat.not_lt.mpr hc)
  have hpiece {piece : Char × List UInt8} (h : IsPiece piece) :
      [piece.1].countP p = piece.2.countP fun byte => p (Char.ofNat byte.toNat) := by
    rcases h with ⟨byte, -, rfl⟩ | ⟨hlow, -, hbytes⟩
    · simp [List.countP_singleton]
    · rw [List.countP_singleton, hhigh hlow, if_neg Bool.false_ne_true]
      refine (List.countP_eq_zero.mpr fun byte hbyte => ?_).symm
      have hge : 0x80 ≤ byte.toNat := Nat.not_lt.mp fun hlt =>
        hbytes byte hbyte (UInt8.lt_iff_toNat_lt.mpr hlt)
      have hlt : byte.toNat < 256 := UInt8.toNat_lt byte
      have hvalid : byte.toNat.isValidChar := Or.inl (by omega)
      apply Bool.eq_false_iff.mp
      apply hhigh
      rw [Char.ofNat, dif_pos hvalid]
      exact hge
  have hall (pieces : List (Char × List UInt8)) (h : ∀ piece ∈ pieces, IsPiece piece) :
      (pieces.map (·.1)).countP p =
        (pieces.flatMap (·.2)).countP fun byte => p (Char.ofNat byte.toNat) := by
    induction pieces with
    | nil => rfl
    | cons piece pieces ih =>
      rw [List.forall_mem_cons] at h
      rw [List.map_cons, List.flatMap_cons, List.countP_append, ← hpiece h.1, ← ih h.2,
        ← List.countP_append, List.singleton_append]
  rw [lossyChars, hall _ fun piece => isPiece_of_mem, lossyPieces_bytes]

/-- A byte that is a piece of its own is a character of ASCII or stands for none. -/
theorem lossyPieces_single {bytes : List UInt8} {piece : Char × List UInt8}
    (h : piece ∈ lossyPieces bytes) (hone : piece.2.length = 1) :
    piece.1.toNat < 0x80 ∨ piece.1 = replacement := by
  fun_induction lossyPieces bytes with
  | case1 => cases h
  | case2 lead rest count ih =>
    rcases List.mem_cons.mp h with rfl | hrest
    · have htail : rest.take count = [] := by
        rw [List.length_cons, Nat.add_eq_right] at hone
        exact List.eq_nil_of_length_eq_zero hone
      rw [htail, sequenceChar]
      by_cases hlead : lead < 0x80
      · have hlt : lead.toNat < 0x80 := UInt8.lt_iff_toNat_lt.mp hlead
        have hvalid : lead.toNat.isValidChar := Or.inl (by omega)
        rw [if_pos hlead, Char.ofNat, dif_pos hvalid]
        exact .inl hlt
      · simp [hlead]
    · exact ih hrest

theorem single_of_length_lossyChars {bytes : List UInt8}
    (h : (lossyChars bytes).length = bytes.length) :
    ∀ c ∈ lossyChars bytes, c.toNat < 0x80 ∨ c = replacement := by
  have hall (pieces : List (Char × List UInt8)) (hpieces : ∀ piece ∈ pieces, IsPiece piece)
      (hlength : (pieces.flatMap (·.2)).length ≤ pieces.length) :
      ∀ piece ∈ pieces, piece.2.length = 1 := by
    have hpos {piece : Char × List UInt8} (hpiece : IsPiece piece) : 0 < piece.2.length := by
      rcases hpiece with ⟨byte, -, rfl⟩ | ⟨-, hne, -⟩
      · exact Nat.one_pos
      · exact List.length_pos_iff.mpr hne
    have hle (pieces : List (Char × List UInt8)) (hpieces : ∀ piece ∈ pieces, IsPiece piece) :
        pieces.length ≤ (pieces.flatMap (·.2)).length := by
      induction pieces with
      | nil => exact le_rfl
      | cons piece pieces ih =>
        rw [List.forall_mem_cons] at hpieces
        have hone := hpos hpieces.1
        have hmore := ih hpieces.2
        rw [List.flatMap_cons, List.length_append, List.length_cons]
        omega
    induction pieces with
    | nil => exact fun piece hpiece => absurd hpiece List.not_mem_nil
    | cons piece pieces ih =>
      rw [List.forall_mem_cons] at hpieces ⊢
      have hone := hpos hpieces.1
      have hmore := hle pieces hpieces.2
      rw [List.flatMap_cons, List.length_append, List.length_cons] at hlength
      exact ⟨by omega, ih hpieces.2 (by omega)⟩
  intro c hc
  obtain ⟨piece, hpiece, rfl⟩ := List.mem_map.mp hc
  apply lossyPieces_single hpiece
  apply hall _ (fun piece => isPiece_of_mem) _ piece hpiece
  rw [lossyPieces_bytes, ← h, lossyChars, List.length_map]

theorem isPiece_ascii {piece : Char × List UInt8} (h : IsPiece piece)
    (hsize : piece.1.utf8Size = 1) : piece.2 = [piece.1.toUInt8] := by
  rcases h with ⟨byte, hbyte, rfl⟩ | ⟨hlow, -, -⟩
  · have hlt : byte.toNat < 0x80 := UInt8.lt_iff_toNat_lt.mp hbyte
    have hvalid : byte.toNat.isValidChar := Or.inl (by omega)
    have hvalue : (Char.ofNat byte.toNat).val.toNat = byte.toNat := by
      rw [Char.ofNat, dif_pos hvalid]
      rfl
    have hread : (Char.ofNat byte.toNat).toUInt8.toNat =
        (Char.ofNat byte.toNat).val.toNat % 256 := rfl
    rw [List.cons.injEq]
    refine ⟨UInt8.toNat_inj.mp ?_, rfl⟩
    rw [hread, hvalue, Nat.mod_eq_of_lt (by omega)]
  · have hhigh : piece.1.toNat ≤ 0x7f :=
      UInt32.le_iff_toNat_le.mp (Char.utf8Size_eq_one_iff.mp hsize)
    omega

theorem flatMap_pieces {pieces : List (Char × List UInt8)} {word : List Char}
    (hpieces : ∀ piece ∈ pieces, IsPiece piece) (hword : ∀ c ∈ word, c.utf8Size = 1)
    (h : pieces.map (·.1) = word) : pieces.flatMap (·.2) = word.map Char.toUInt8 := by
  induction pieces generalizing word with
  | nil =>
    subst h
    rfl
  | cons piece pieces ih =>
    subst h
    rw [List.forall_mem_cons] at hpieces
    rw [List.map_cons, List.forall_mem_cons] at hword
    rw [List.flatMap_cons, isPiece_ascii hpieces.1 hword.1, ih hpieces.2 hword.2 rfl]
    rfl

/-- Words of ASCII are nowhere in the characters if their bytes are nowhere in the bytes. -/
theorem Clean.lossyChars {words : List (List Char)}
    (hwords : ∀ word ∈ words, ∀ c ∈ word, c.utf8Size = 1) {bytes : List UInt8}
    (h : Clean (words.map (·.map Char.toUInt8)) bytes) : Clean words (lossyChars bytes) := by
  intro i hi word hword
  obtain ⟨pieces, hpieces⟩ : ∃ pieces, (lossyPieces bytes).drop i = pieces := ⟨_, rfl⟩
  have hall : ∀ piece ∈ pieces, IsPiece piece := by
    intro piece hpiece
    rw [← hpieces] at hpiece
    exact isPiece_of_mem (List.mem_of_mem_drop hpiece)
  have hne : pieces.flatMap (·.2) ≠ [] := by
    rw [HerdrWebui.lossyChars, List.length_map] at hi
    rw [List.drop_eq_getElem_cons hi] at hpieces
    rw [← hpieces, List.flatMap_cons]
    intro hnil
    have hfirst := (List.append_eq_nil_iff.mp hnil).1
    rcases isPiece_of_mem (List.getElem_mem hi) with ⟨byte, -, heq⟩ | ⟨-, hsome, -⟩
    · rw [heq] at hfirst
      cases hfirst
    · exact hsome hfirst
  obtain ⟨front, hfront⟩ : ∃ front, bytes = front ++ pieces.flatMap (·.2) := by
    refine ⟨((lossyPieces bytes).take i).flatMap (·.2), ?_⟩
    rw [← hpieces, ← List.flatMap_append, List.take_append_drop, lossyPieces_bytes]
  have hchars : (HerdrWebui.lossyChars bytes).drop i = pieces.map (·.1) := by
    rw [HerdrWebui.lossyChars, ← List.map_drop, hpieces]
  have hlength : front.length < bytes.length := by
    have hpos := List.length_pos_iff.mpr hne
    rw [hfront, List.length_append]
    omega
  obtain ⟨hstart, hpending⟩ := h front.length hlength _ (List.mem_map_of_mem hword)
  have hdrop : bytes.drop front.length = pieces.flatMap (·.2) := by
    rw [hfront, List.drop_left]
  rw [hdrop] at hstart hpending
  rw [hchars]
  constructor
  · intro hprefix
    have htake := List.prefix_iff_eq_take.mp hprefix
    rw [← List.map_take] at htake
    apply hstart
    have hbytes := flatMap_pieces (fun piece hpiece => hall piece (List.mem_of_mem_take hpiece))
      (hwords word hword) htake.symm
    rw [← hbytes]
    conv_rhs => rw [← List.take_append_drop word.length pieces, List.flatMap_append]
    exact List.prefix_append _ _
  · intro hprefix
    apply hpending
    obtain ⟨more, hmore⟩ := hprefix
    have hascii := hwords word hword
    rw [← hmore] at hascii
    have hbytes := flatMap_pieces hall
      (fun c hc => hascii c (List.mem_append_left _ hc)) rfl
    rw [hbytes, ← hmore, List.map_append]
    exact List.prefix_append _ _

def endedLines (ls : List (List UInt8)) : List UInt8 := ls.flatMap (· ++ [0x0a])

theorem endedLines_cons (l : List UInt8) (ls : List (List UInt8)) :
    endedLines (l :: ls) = l ++ 0x0a :: endedLines ls := by
  rw [endedLines, List.flatMap_cons, List.append_assoc]
  rfl

theorem endedLines_inj {ls ls' : List (List UInt8)} (h : ∀ l ∈ ls, 0x0a ∉ l)
    (h' : ∀ l ∈ ls', 0x0a ∉ l) (heq : endedLines ls = endedLines ls') : ls = ls' := by
  induction ls generalizing ls' with
  | nil =>
    cases ls' with
    | nil => rfl
    | cons l' ls' => simp [endedLines] at heq
  | cons l ls ih =>
    cases ls' with
    | nil => simp [endedLines] at heq
    | cons l' ls' =>
      rw [List.forall_mem_cons] at h h'
      rw [endedLines_cons, endedLines_cons] at heq
      have hsplit := congrArg (List.splitOn 0x0a) heq
      rw [List.splitOn_append_cons_self_of_not_mem h.1,
        List.splitOn_append_cons_self_of_not_mem h'.1] at hsplit
      obtain rfl := (List.cons.inj hsplit).1
      have hrest := List.append_cancel_left heq
      rw [ih h.2 h'.2 (List.cons.inj hrest).2]

theorem fromUtf8Lossy_endedLines (ls : List (List UInt8)) :
    fromUtf8Lossy (endedLines ls) = String.join (ls.map fun l => fromUtf8Lossy l ++ "\n") := by
  induction ls with
  | nil => simp [endedLines, fromUtf8Lossy, lossyPieces]
  | cons l ls ih =>
    have hbreak : fromUtf8Lossy (0x0a :: endedLines ls) =
        "\n" ++ fromUtf8Lossy (endedLines ls) := by
      rw [fromUtf8Lossy, lossyPieces_ascii (by decide), List.map_cons, String.ofList_cons]
      rfl
    rw [endedLines_cons, fromUtf8Lossy_append (by decide), hbreak, ih, List.map_cons,
      String.join_cons, String.append_assoc]

theorem mem_of_mem_fromUtf8Lossy {byte : UInt8} (hbyte : byte < 0x80) {bytes : List UInt8}
    (h : Char.ofNat byte.toNat ∈ (fromUtf8Lossy bytes).toList) : byte ∈ bytes := by
  rw [fromUtf8Lossy, String.toList_ofList] at h
  obtain ⟨piece, hpiece, hchar⟩ := List.mem_map.mp h
  have hmem : piece.2 ⊆ bytes := by
    intro b hb
    rw [← lossyPieces_bytes bytes]
    exact List.mem_flatMap.mpr ⟨piece, hpiece, hb⟩
  have hlimit : byte.toNat < 0x80 := UInt8.lt_iff_toNat_lt.mp hbyte
  have hvalue {b : UInt8} (hb : b < 0x80) : (Char.ofNat b.toNat).toNat = b.toNat := by
    have hlt : b.toNat < 0x80 := UInt8.lt_iff_toNat_lt.mp hb
    have hvalid : b.toNat.isValidChar := Or.inl (by omega)
    rw [Char.ofNat, dif_pos hvalid]
    rfl
  rcases isPiece_of_mem hpiece with ⟨b, hb, rfl⟩ | ⟨hlow, -, -⟩
  · have hnat := congrArg Char.toNat hchar
    rw [hvalue hb, hvalue hbyte] at hnat
    obtain rfl := UInt8.toNat_inj.mp hnat
    exact hmem List.mem_cons_self
  · rw [hchar, hvalue hbyte] at hlow
    omega

/-- What `str::lines` makes of a line of bytes. -/
def readLineText (bytes : List UInt8) : String := dropCr (fromUtf8Lossy bytes)

/-- A line does not lose a character that is not a carriage return at its end. -/
theorem readLineText_append {front : List Char} (hreturn : '\r' ∉ front)
    (bytes : List UInt8) :
    (readLineText (utf8 front ++ bytes)).toList = front ++ (readLineText bytes).toList := by
  rw [readLineText, readLineText, dropCr, dropCr, String.toList_ofList, String.toList_ofList,
    fromUtf8Lossy_utf8_append]
  generalize (fromUtf8Lossy bytes).toList = chars
  cases hchars : chars with
  | nil =>
    rw [List.append_nil, if_neg fun hlast => hreturn (List.mem_of_getLast? hlast), if_neg]
    · rw [List.append_nil]
    · simp
  | cons c rest =>
    have hne : c :: rest ≠ [] := List.cons_ne_nil _ _
    rw [List.getLast?_append_of_ne_nil _ hne]
    split
    · rw [List.dropLast_append_of_ne_nil hne]
    · rfl

theorem readLineText_utf8 {chars : List Char} (hreturn : '\r' ∉ chars) :
    readLineText (utf8 chars) = String.ofList chars := by
  have hread := readLineText_append hreturn []
  rw [List.append_nil] at hread
  rw [← String.toList_inj, hread, String.toList_ofList]
  simp [readLineText, fromUtf8Lossy, lossyPieces, dropCr]

theorem lineFeed_not_mem_readLineText {bytes : List UInt8} (h : 0x0a ∉ bytes) :
    '\n' ∉ (readLineText bytes).toList := by
  have hlow : (0x0a : UInt8) < 0x80 := by decide
  intro hmem
  rw [readLineText, dropCr, String.toList_ofList] at hmem
  apply h
  apply mem_of_mem_fromUtf8Lossy hlow
  split at hmem
  · exact List.mem_of_mem_dropLast hmem
  · exact hmem

theorem lines_endedLines {ls : List (List UInt8)} (h : ∀ l ∈ ls, 0x0a ∉ l) :
    lines (fromUtf8Lossy (endedLines ls)) = ls.map readLineText := by
  have hbreak : (0x0a : UInt8) < 0x80 := by decide
  have htexts : ∀ text ∈ ls.map fromUtf8Lossy, '\n' ∉ text.toList := by
    intro text htext
    obtain ⟨l, hl, rfl⟩ := List.mem_map.mp htext
    exact fun hmem => h l hl (mem_of_mem_fromUtf8Lossy hbreak hmem)
  have hlines := lines_join htexts
  rw [List.map_map, List.map_map] at hlines
  rw [fromUtf8Lossy_endedLines]
  exact hlines

def IsUtf8 (bytes : List UInt8) : Prop := ∃ chars, utf8 chars = bytes

theorem getLast?_utf8 (chars : List Char) :
    (utf8 chars).getLast? = some 0x0d ↔ chars.getLast? = some '\r' := by
  induction chars using List.reverseRecOn with
  | nil => simp [utf8]
  | append_singleton chars c ih =>
    have hne := utf8EncodeChar_ne_nil c
    have hlast : utf8 [c] = String.utf8EncodeChar c := List.append_nil _
    rw [utf8_append, hlast, List.getLast?_append_of_ne_nil _ hne, List.getLast?_concat,
      Option.some.injEq]
    constructor
    · intro hbyte
      have hmem := List.mem_of_getLast? hbyte
      have hsize := utf8Size_of_low hmem (by decide)
      rw [(utf8EncodeChar_ascii hsize).1, List.mem_singleton] at hmem
      exact (toUInt8_inj (c := '\r') (by decide) hsize hmem).symm
    · rintro rfl
      decide

/-- A line is read without a loss just where it is of a text and does not end in a carriage
return. -/
theorem utf8_readLineText (bytes : List UInt8) :
    utf8 (readLineText bytes).toList = bytes ↔
      IsUtf8 bytes ∧ bytes.getLast? ≠ some 0x0d := by
  constructor
  · intro h
    have htext : fromUtf8Lossy bytes = readLineText bytes := by
      conv_lhs => rw [← h]
      exact fromUtf8Lossy_utf8 _
    refine ⟨⟨_, h⟩, ?_⟩
    rw [← h, ne_eq, getLast?_utf8, ← htext]
    exact dropCr_eq_self.mp htext.symm
  · rintro ⟨⟨chars, rfl⟩, hlast⟩
    have htext : fromUtf8Lossy (utf8 chars) = String.ofList chars := by
      have hread := fromUtf8Lossy_utf8 (String.ofList chars)
      rwa [String.toList_ofList] at hread
    rw [ne_eq, getLast?_utf8] at hlast
    rw [readLineText, htext, dropCr_eq_self.mpr (by rwa [String.toList_ofList]),
      String.toList_ofList]

end HerdrWebui
