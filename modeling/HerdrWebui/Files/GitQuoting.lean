import HerdrWebui.Data.Utf8Text
import HerdrWebui.Git.StatusPaths

/-!
The names git prints, and what is read of them. A quoted name is read character by character,
where a character gives one byte and an escape those it stands for. Four of the escapes are
not known, and of a character that is not of ASCII only the last byte is taken.
-/

namespace HerdrWebui.Files

open Git

def isOctalDigit (c : Char) : Bool := '0' ≤ c && c ≤ '7'

def octalDigitValue (c : Char) : Nat := c.toNat - '0'.toNat

/-- The bytes an escape gives, and how many characters behind the backslash it has. -/
def readEscape : List Char → List UInt8 × Nat
  | [] => ([0x5c], 0)
  | other :: rest =>
    if isOctalDigit other then
      let digits := (rest.take 2).takeWhile isOctalDigit
      let value := digits.foldl (fun value digit => value * 8 + octalDigitValue digit)
        (octalDigitValue other)
      ([UInt8.ofNat value], 1 + digits.length)
    else if other = 'n' then ([0x0a], 1)
    else if other = 't' then ([0x09], 1)
    else if other = 'r' then ([0x0d], 1)
    else if other = Char.ofNat 0x22 then ([0x22], 1)
    else if other = '\\' then ([0x5c], 1)
    else ([0x5c, other.toUInt8], 1)

/-- `skip` characters are still those of an escape. -/
def unquoteGitPath.go : (skip : Nat) → List Char → List UInt8
  | _, [] => []
  | skip + 1, _ :: rest => go skip rest
  | 0, ch :: rest =>
    if ch ≠ '\\' then ch.toUInt8 :: go 0 rest
    else (readEscape rest).1 ++ go (readEscape rest).2 rest

def unquoteGitPath (path : String) : String :=
  let chars := path.toList
  let quote := some (Char.ofNat 0x22)
  if chars.length < 2 ∨ chars.head? ≠ quote ∨ chars.getLast? ≠ quote then path
  else fromUtf8Lossy (unquoteGitPath.go 0 (chars.drop 1).dropLast)

/-- How names are printed: `quotePath` is the setting `core.quotePath`, and `quoteBlank`
puts a name with a space in quotes. -/
structure QuoteStyle where
  quotePath : Bool
  quoteBlank : Bool
  deriving DecidableEq, Repr

/-- Bytes that are not of ASCII need no quotes where the setting is off. -/
def QuoteStyle.isRaw (style : QuoteStyle) (byte : UInt8) : Bool :=
  isPlain byte || (!style.quotePath && 0x80 ≤ byte)

def QuoteStyle.quotedByte (style : QuoteStyle) (byte : UInt8) : List UInt8 :=
  if style.isRaw byte then [byte] else utf8 (escapeByte byte)

def QuoteStyle.quotes (style : QuoteStyle) (path : List UInt8) : Bool :=
  !path.all style.isRaw || (style.quoteBlank && path.contains 0x20)

def QuoteStyle.printed (style : QuoteStyle) (path : List UInt8) : List UInt8 :=
  if style.quotes path then 0x22 :: path.flatMap style.quotedByte ++ [0x22] else path

def isUnread (byte : UInt8) : Bool := byte ∈ [0x07, 0x08, 0x0b, 0x0c]

def readBack (byte : UInt8) : List UInt8 :=
  if isUnread byte then (escapeByte byte).map Char.toUInt8 else [byte]

/-- In quotes there is no escape that is not known, and each character that is not of ASCII
is in octal digits, or stands for bytes that are no text. -/
structure ReadsQuoted (style : QuoteStyle) (path : List UInt8) : Prop where
  known : ∀ byte ∈ path, isUnread byte = false
  octal : style.quotePath = true ∨ ∀ c ∈ lossyChars path, c.toNat < 0x80 ∨ c = replacement

theorem octalDigit_spec (n : Nat) :
    isOctalDigit (octalDigit n) = true ∧ octalDigitValue (octalDigit n) = n % 8 := by
  have hdigit : n % 8 < 8 := Nat.mod_lt n (by decide)
  unfold octalDigit
  generalize n % 8 = digit at hdigit
  interval_cases digit <;> exact ⟨rfl, rfl⟩

theorem readEscape_octal (a b c : Nat) (rest : List Char) :
    readEscape (octalDigit a :: octalDigit b :: octalDigit c :: rest) =
      ([UInt8.ofNat ((a % 8 * 8 + b % 8) * 8 + c % 8)], 3) := by
  have ha := octalDigit_spec a
  have hb := octalDigit_spec b
  have hc := octalDigit_spec c
  simp [readEscape, ha, hb, hc]

theorem go_raw {c : Char} (hc : c ≠ '\\') (rest : List Char) :
    unquoteGitPath.go 0 (c :: rest) = c.toUInt8 :: unquoteGitPath.go 0 rest := by
  rw [unquoteGitPath.go, if_pos hc]

theorem go_mnemonic (c : Char) (hc : isOctalDigit c = false) (rest : List Char) :
    unquoteGitPath.go 0 ('\\' :: c :: rest) =
      (readEscape [c]).1 ++ unquoteGitPath.go 0 rest := by
  have hone : (readEscape (c :: rest)).1 = (readEscape [c]).1 ∧ (readEscape (c :: rest)).2 = 1 := by
    simp only [readEscape, hc, Bool.false_eq_true, if_false]
    split_ifs <;> simp
  rw [unquoteGitPath.go, if_neg (by simp), hone.1, hone.2, unquoteGitPath.go]

theorem byteChar_ne_backslash {byte : UInt8} (h : byte ≠ 0x5c) : byteChar byte ≠ '\\' := by
  intro heq
  apply h
  apply byteChar_injective
  rw [heq]
  rfl

theorem isUnread_plain {byte : UInt8} (h : isPlain byte = true) : isUnread byte = false := by
  apply Bool.eq_false_iff.mpr
  intro hunread
  have hmem := of_decide_eq_true hunread
  simp only [List.mem_cons, List.not_mem_nil, or_false] at hmem
  rcases hmem with rfl | rfl | rfl | rfl <;> exact absurd h (by decide)

theorem go_escapeByte (byte : UInt8) (rest : List Char) :
    unquoteGitPath.go 0 (escapeByte byte ++ rest) = readBack byte ++ unquoteGitPath.go 0 rest := by
  by_cases hplain : isPlain byte = true
  · have hescape : escapeByte byte = [byteChar byte] := by rw [escapeByte, if_pos hplain]
    have hslash : byte ≠ 0x5c := fun heq => absurd (heq ▸ hplain) (by decide)
    rw [hescape, List.singleton_append, go_raw (byteChar_ne_backslash hslash), toUInt8_byteChar,
      readBack, isUnread_plain hplain, if_neg Bool.false_ne_true, List.singleton_append]
  by_cases hshort : byte ∈ ([0x07, 0x08, 0x09, 0x0a, 0x0b, 0x0c, 0x0d, 0x22, 0x5c] : List UInt8)
  · simp only [List.mem_cons, List.not_mem_nil, or_false] at hshort
    rcases hshort with rfl | rfl | rfl | rfl | rfl | rfl | rfl | rfl | rfl
    all_goals exact go_mnemonic _ rfl rest
  · simp only [List.mem_cons, List.not_mem_nil, or_false, not_or] at hshort
    obtain ⟨ha, hb, ht, hn, hv, hf, hr, hquote, hslash⟩ := hshort
    have hescape : escapeByte byte = ['\\', octalDigit (byte.toNat / 64),
        octalDigit (byte.toNat / 8), octalDigit byte.toNat] := by
      rw [escapeByte, if_neg hplain, if_neg ha, if_neg hb, if_neg ht, if_neg hn, if_neg hv,
        if_neg hf, if_neg hr, if_neg hquote, if_neg hslash]
    have hbyte : byte.toNat < 256 := UInt8.toNat_lt byte
    have hvalue : UInt8.ofNat ((byte.toNat / 64 % 8 * 8 + byte.toNat / 8 % 8) * 8 +
        byte.toNat % 8) = byte := by
      have hsame : (byte.toNat / 64 % 8 * 8 + byte.toNat / 8 % 8) * 8 + byte.toNat % 8 =
          byte.toNat := by omega
      rw [hsame, UInt8.ofNat_toNat]
    have hread : readBack byte = [byte] := by
      simp [readBack, isUnread, ha, hb, hv, hf]
    rw [hescape, List.cons_append, unquoteGitPath.go, if_neg (by simp), List.cons_append,
      List.cons_append, List.cons_append, readEscape_octal, hvalue, hread, List.nil_append]
    simp [unquoteGitPath.go]

theorem go_flatMap {α : Type} {shown : α → List Char} {bytes : α → List UInt8}
    (h : ∀ a rest, unquoteGitPath.go 0 (shown a ++ rest) = bytes a ++ unquoteGitPath.go 0 rest)
    (items : List α) (rest : List Char) :
    unquoteGitPath.go 0 (items.flatMap shown ++ rest) =
      items.flatMap bytes ++ unquoteGitPath.go 0 rest := by
  induction items with
  | nil => rfl
  | cons item items ih =>
    rw [List.flatMap_cons, List.flatMap_cons, List.append_assoc, List.append_assoc, h, ih]

def escapeChar (c : Char) : List Char :=
  if c.toNat < 0x80 then escapeByte c.toUInt8 else [c]

def readBackChar (c : Char) : List UInt8 :=
  if c.toNat < 0x80 then readBack c.toUInt8 else [c.toUInt8]

def QuoteStyle.shown (style : QuoteStyle) (path : List UInt8) : List Char :=
  if style.quotePath then path.flatMap escapeByte else (lossyChars path).flatMap escapeChar

/-- The bytes that are read of a quoted name. -/
def QuoteStyle.readName (style : QuoteStyle) (path : List UInt8) : List UInt8 :=
  if style.quotePath then path.flatMap readBack else (lossyChars path).flatMap readBackChar

theorem go_escapeChar (c : Char) (rest : List Char) :
    unquoteGitPath.go 0 (escapeChar c ++ rest) = readBackChar c ++ unquoteGitPath.go 0 rest := by
  unfold escapeChar readBackChar
  split
  · exact go_escapeByte c.toUInt8 rest
  · next hhigh =>
      have hslash : c ≠ '\\' := fun heq => hhigh (heq ▸ by decide)
      rw [List.singleton_append, go_raw hslash, List.singleton_append]

theorem go_shown (style : QuoteStyle) (path : List UInt8) (rest : List Char) :
    unquoteGitPath.go 0 (style.shown path ++ rest) =
      style.readName path ++ unquoteGitPath.go 0 rest := by
  unfold QuoteStyle.shown QuoteStyle.readName
  split
  · exact go_flatMap go_escapeByte path rest
  · exact go_flatMap go_escapeChar (lossyChars path) rest

theorem toNat_ofNat_low {byte : UInt8} (h : byte < 0x80) : (Char.ofNat byte.toNat).toNat < 0x80 := by
  have hbyte := toNat_byteChar byte
  rw [byteChar] at hbyte
  rw [hbyte]
  exact UInt8.lt_iff_toNat_lt.mp h

theorem escapeChar_ofNat {byte : UInt8} (h : byte < 0x80) :
    escapeChar (Char.ofNat byte.toNat) = escapeByte byte := by
  rw [escapeChar, if_pos (toNat_ofNat_low h)]
  exact congrArg escapeByte (toUInt8_byteChar byte)

theorem escapeByte_ne_nil (byte : UInt8) : escapeByte byte ≠ [] :=
  List.length_pos_iff.mp (length_escapeByte byte)

theorem isRaw_quotePath {style : QuoteStyle} {byte : UInt8}
    (h : style.quotePath = true ∨ byte < 0x80) : style.isRaw byte = isPlain byte := by
  unfold QuoteStyle.isRaw
  rcases h with hsetting | hlow
  · simp [hsetting]
  · simp [hlow]

theorem quotedByte_eq {style : QuoteStyle} {byte : UInt8}
    (h : style.quotePath = true ∨ byte < 0x80) :
    style.quotedByte byte = utf8 (escapeByte byte) := by
  rw [QuoteStyle.quotedByte, isRaw_quotePath h]
  split
  · next hplain =>
      have hone : (byteChar byte).utf8Size = 1 := (isGraphic_plain hplain).utf8Size
      rw [escapeByte, if_pos hplain, utf8_cons, (utf8EncodeChar_ascii hone).1, toUInt8_byteChar]
      rfl
  · rfl

theorem quotedByte_high {style : QuoteStyle} {byte : UInt8} (h : style.quotePath = false)
    (hbyte : ¬byte < 0x80) : style.quotedByte byte = [byte] := by
  have hraw : style.isRaw byte = true := by
    simp [QuoteStyle.isRaw, h, UInt8.not_lt.mp hbyte]
  rw [QuoteStyle.quotedByte, if_pos hraw]

theorem escapeChar_high {run : List UInt8} (h : ∀ byte ∈ run, ¬byte < 0x80) :
    (lossyChars run).flatMap escapeChar = lossyChars run := by
  have hhigh : ∀ c ∈ lossyChars run, ¬c.toNat < 0x80 := by
    intro c hc hlow
    obtain ⟨piece, hpiece, rfl⟩ := List.mem_map.mp hc
    rcases isPiece_of_mem hpiece with ⟨byte, hbyte, rfl⟩ | ⟨hge, -, -⟩
    · apply h byte _ hbyte
      rw [← lossyPieces_bytes run]
      exact List.mem_flatMap.mpr ⟨_, hpiece, List.mem_cons_self⟩
    · omega
  generalize lossyChars run = chars at hhigh
  induction chars with
  | nil => rfl
  | cons c chars ih =>
    rw [List.forall_mem_cons] at hhigh
    rw [List.flatMap_cons, ih hhigh.2, escapeChar, if_neg hhigh.1, List.singleton_append]

/-- The setting is off: bytes that are not of ASCII are read together with those they stand
by, and never with an escape. -/
theorem lossyChars_unescaped {style : QuoteStyle} (hoff : style.quotePath = false)
    {tail : List UInt8} (htail : ∀ byte ∈ tail.head?, isTail byte = false)
    (path run : List UInt8) (hrun : ∀ byte ∈ run, ¬byte < 0x80) :
    lossyChars (run ++ (path.flatMap style.quotedByte ++ tail)) =
      (lossyChars (run ++ path)).flatMap escapeChar ++ lossyChars tail := by
  induction path generalizing run with
  | nil =>
    rw [List.flatMap_nil, List.nil_append, List.append_nil, escapeChar_high hrun]
    exact (isBoundary_of_head htail run).lossyChars_append
  | cons byte path ih =>
    rw [List.flatMap_cons, List.append_assoc]
    by_cases hbyte : byte < 0x80
    · have hleft : IsBoundary run (byte :: path) := by
        apply isBoundary_of_head
        rintro _ ⟨⟩
        exact isTail_ascii hbyte
      have hright : IsBoundary run
          (utf8 (escapeByte byte) ++ (path.flatMap style.quotedByte ++ tail)) :=
        (isBoundary_of_head isTail_utf8 run).append (utf8_ne_nil (escapeByte_ne_nil byte)) _
      have hrest := ih [] (by simp)
      rw [List.nil_append, List.nil_append] at hrest
      have hone : lossyChars (byte :: path) = Char.ofNat byte.toNat :: lossyChars path := by
        rw [lossyChars, lossyPieces_ascii hbyte, List.map_cons]
        rfl
      rw [quotedByte_eq (.inr hbyte), hright.lossyChars_append, lossyChars_utf8_append, hrest,
        hleft.lossyChars_append, hone, List.flatMap_append, List.flatMap_cons,
        escapeChar_high hrun, escapeChar_ofNat hbyte]
      simp only [List.append_assoc]
    · have hmore : ∀ other ∈ run ++ [byte], ¬other < 0x80 := by
        rw [List.forall_mem_append]
        exact ⟨hrun, by simpa using hbyte⟩
      have hrest := ih _ hmore
      rw [List.append_assoc, List.append_assoc, List.singleton_append,
        List.singleton_append] at hrest
      rw [quotedByte_high hoff hbyte, List.singleton_append, hrest]

theorem lossyChars_quoted (style : QuoteStyle) (path : List UInt8) {tail : List UInt8}
    (htail : ∀ byte ∈ tail.head?, isTail byte = false) :
    lossyChars (path.flatMap style.quotedByte ++ tail) = style.shown path ++ lossyChars tail := by
  unfold QuoteStyle.shown
  split
  · next hon =>
      have hbytes : path.flatMap style.quotedByte = utf8 (path.flatMap escapeByte) := by
        rw [utf8, List.flatMap_assoc]
        exact List.flatMap_congr fun byte _ => quotedByte_eq (.inl hon)
      rw [hbytes, lossyChars_utf8_append]
  · next hoff =>
      exact lossyChars_unescaped (Bool.eq_false_iff.mpr hoff) htail path []
        (by simp)

theorem lossyChars_singleton {byte : UInt8} (h : byte < 0x80) (rest : List UInt8) :
    lossyChars (byte :: rest) = Char.ofNat byte.toNat :: lossyChars rest := by
  rw [lossyChars, lossyPieces_ascii h, List.map_cons]
  rfl

theorem lossyChars_printed {style : QuoteStyle} {path : List UInt8}
    (h : style.quotes path = true) :
    lossyChars (style.printed path) =
      Char.ofNat 0x22 :: style.shown path ++ [Char.ofNat 0x22] := by
  have htail : ∀ byte ∈ ([0x22] : List UInt8).head?, isTail byte = false := by
    rintro _ ⟨⟩
    rfl
  rw [QuoteStyle.printed, if_pos h, List.cons_append, lossyChars_singleton (by decide),
    lossyChars_quoted style path htail, lossyChars_singleton (by decide), lossyChars_nil]
  rfl

theorem unquoteGitPath_quoted {style : QuoteStyle} {path : List UInt8}
    (h : style.quotes path = true) :
    unquoteGitPath (fromUtf8Lossy (style.printed path)) =
      fromUtf8Lossy (style.readName path) := by
  have hgo := go_shown style path []
  rw [List.append_nil, unquoteGitPath.go, List.append_nil] at hgo
  have hinner : ((Char.ofNat 0x22 :: style.shown path ++ [Char.ofNat 0x22]).drop 1).dropLast =
      style.shown path := by simp
  rw [unquoteGitPath, toList_fromUtf8Lossy, lossyChars_printed h, hinner, hgo, if_neg]
  rintro (hshort | hhead | hlast)
  · simp at hshort
  · exact hhead rfl
  · exact hlast List.getLast?_concat

theorem quote_not_mem {style : QuoteStyle} {path : List UInt8} (h : style.quotes path = false) :
    Char.ofNat 0x22 ∉ lossyChars path := by
  intro hmem
  rw [← toList_fromUtf8Lossy] at hmem
  have hbyte : (0x22 : UInt8) ∈ path := mem_of_mem_fromUtf8Lossy (by decide) hmem
  rw [QuoteStyle.quotes, Bool.or_eq_false_iff, Bool.not_eq_false', List.all_eq_true] at h
  have hraw := h.1 _ hbyte
  rw [isRaw_quotePath (.inr (by decide))] at hraw
  exact absurd hraw (by decide)

theorem unquoteGitPath_of_head {path : String} (h : path.toList.head? ≠ some (Char.ofNat 0x22)) :
    unquoteGitPath path = path := by
  rw [unquoteGitPath, if_pos (.inr (.inl h))]

theorem unquoteGitPath_unquoted {style : QuoteStyle} {path : List UInt8}
    (h : style.quotes path = false) :
    unquoteGitPath (fromUtf8Lossy (style.printed path)) = fromUtf8Lossy path := by
  rw [QuoteStyle.printed, h, if_neg Bool.false_ne_true]
  apply unquoteGitPath_of_head
  rw [toList_fromUtf8Lossy]
  exact fun hhead => quote_not_mem h (List.mem_of_mem_head? hhead)

section Counting

variable {α β : Type} {p : α → Bool} {q : β → Bool} {shown : α → List β}

theorem countP_le_flatMap (h : ∀ a, [a].countP p ≤ (shown a).countP q) (items : List α) :
    items.countP p ≤ (items.flatMap shown).countP q := by
  induction items with
  | nil => exact le_rfl
  | cons item items ih =>
    have hone := h item
    rw [← List.singleton_append, List.countP_append, List.flatMap_append, List.countP_append,
      List.flatMap_singleton]
    omega

theorem countP_lt_flatMap (h : ∀ a, [a].countP p ≤ (shown a).countP q) {items : List α} {a : α}
    (ha : a ∈ items) (hlt : [a].countP p < (shown a).countP q) :
    items.countP p < (items.flatMap shown).countP q := by
  obtain ⟨before, after, rfl⟩ := List.append_of_mem ha
  have hbefore := countP_le_flatMap h before
  have hafter := countP_le_flatMap h after
  rw [← List.singleton_append, List.countP_append, List.countP_append, List.flatMap_append,
    List.flatMap_append, List.countP_append, List.countP_append, List.flatMap_singleton]
  omega

end Counting

/-- The bytes that stand for a character of a kind. -/
def byteIs (p : Char → Bool) (byte : UInt8) : Bool := p (byteChar byte)

section Kind

variable {p : Char → Bool}

theorem byteChar_toUInt8 {c : Char} (h : c.toNat < 0x80) : byteChar c.toUInt8 = c := by
  have hbyte : c.toUInt8.toNat = c.toNat % 256 := rfl
  rw [byteChar, hbyte, Nat.mod_eq_of_lt (by omega), Char.ofNat_toNat]

theorem countP_readBack (hslash : p '\\' = true) (byte : UInt8) :
    [byte].countP (byteIs p) ≤ (readBack byte).countP (byteIs p) := by
  unfold readBack
  split
  · next hunread =>
      have hmem := of_decide_eq_true hunread
      have hone : [byte].countP (byteIs p) ≤ 1 := List.countP_le_length
      have hback : 0 < ((escapeByte byte).map Char.toUInt8).countP (byteIs p) := by
        refine List.countP_pos_iff.mpr ⟨0x5c, ?_, hslash⟩
        simp only [List.mem_cons, List.not_mem_nil, or_false] at hmem
        rcases hmem with rfl | rfl | rfl | rfl <;> decide
      omega
  · exact le_rfl

theorem countP_readBackChar (hp : ∀ c, p c = true → c.toNat < 0x80) (hslash : p '\\' = true)
    (c : Char) : [c].countP p ≤ (readBackChar c).countP (byteIs p) := by
  unfold readBackChar
  split
  · next hlow =>
      have hchar := byteChar_toUInt8 hlow
      have hback := countP_readBack hslash c.toUInt8
      rw [List.countP_singleton, byteIs, hchar, ← List.countP_singleton] at hback
      exact hback
  · next hhigh =>
      rw [List.countP_singleton, if_neg fun h => hhigh (hp c h)]
      exact Nat.zero_le _

theorem countP_readName (hp : ∀ c, p c = true → c.toNat < 0x80) (hslash : p '\\' = true)
    (style : QuoteStyle) (path : List UInt8) :
    path.countP (byteIs p) ≤ (style.readName path).countP (byteIs p) := by
  unfold QuoteStyle.readName
  split
  · exact countP_le_flatMap (countP_readBack hslash) path
  · have hchars := countP_lossyChars hp path
    have hle := countP_le_flatMap (countP_readBackChar hp hslash) (lossyChars path)
    rw [hchars] at hle
    exact hle

end Kind

def isAscii (c : Char) : Bool := c.toNat < 0x80

theorem isAscii_toNat (c : Char) (h : isAscii c = true) : c.toNat < 0x80 := of_decide_eq_true h

theorem countP_readBack_lt {byte : UInt8} (h : isUnread byte = true) :
    [byte].countP (byteIs isAscii) < (readBack byte).countP (byteIs isAscii) := by
  have hmem := of_decide_eq_true h
  simp only [List.mem_cons, List.not_mem_nil, or_false] at hmem
  rcases hmem with rfl | rfl | rfl | rfl <;> decide

theorem mem_lossyChars {byte : UInt8} (hbyte : byte < 0x80) {path : List UInt8}
    (h : byte ∈ path) : byteChar byte ∈ lossyChars path := by
  have hcount := countP_lossyChars (p := fun c => c = byteChar byte) (fun c hc => by
    rw [of_decide_eq_true hc]
    exact toNat_ofNat_low hbyte) path
  have hpos : 0 < path.countP fun other => decide (Char.ofNat other.toNat = byteChar byte) :=
    List.countP_pos_iff.mpr ⟨byte, h, decide_eq_true rfl⟩
  rw [← hcount] at hpos
  obtain ⟨c, hc, heq⟩ := List.countP_pos_iff.mp hpos
  exact of_decide_eq_true heq ▸ hc

theorem known_of_readName {style : QuoteStyle} {path : List UInt8}
    (h : lossyChars (style.readName path) = lossyChars path) :
    ∀ byte ∈ path, isUnread byte = false := by
  intro byte hbyte
  apply Bool.eq_false_iff.mpr
  intro hunread
  have hcount := congrArg (List.countP isAscii) h
  have hlow : byte < 0x80 := by
    have hmem := of_decide_eq_true hunread
    simp only [List.mem_cons, List.not_mem_nil, or_false] at hmem
    rcases hmem with rfl | rfl | rfl | rfl <;> decide
  have hslash : isAscii '\\' = true := rfl
  rw [countP_lossyChars isAscii_toNat, countP_lossyChars isAscii_toNat] at hcount
  change (style.readName path).countP (byteIs isAscii) = path.countP (byteIs isAscii) at hcount
  unfold QuoteStyle.readName at hcount
  split at hcount
  · have hlt := countP_lt_flatMap (countP_readBack hslash) hbyte (countP_readBack_lt hunread)
    omega
  · have hchar : [byteChar byte].countP isAscii <
        (readBackChar (byteChar byte)).countP (byteIs isAscii) := by
      have hone := countP_readBack_lt hunread
      have hchar : (byteChar byte).toNat < 0x80 := toNat_ofNat_low hlow
      rw [readBackChar, if_pos hchar, toUInt8_byteChar]
      rw [List.countP_singleton] at hone ⊢
      exact hone
    have hlt := countP_lt_flatMap (countP_readBackChar isAscii_toNat hslash)
      (mem_lossyChars hlow hbyte) hchar
    rw [countP_lossyChars isAscii_toNat] at hlt
    exact absurd hcount hlt.ne'

theorem flatMap_readBackChar {path : List UInt8}
    (hknown : ∀ byte ∈ path, isUnread byte = false) :
    (lossyChars path).flatMap readBackChar = (lossyChars path).map Char.toUInt8 := by
  rw [List.map_eq_flatMap]
  apply List.flatMap_congr
  intro c hc
  unfold readBackChar
  split
  · next hlow =>
      have hbyte : c.toUInt8 ∈ path := by
        apply @mem_of_mem_fromUtf8Lossy c.toUInt8
        · apply UInt8.lt_iff_toNat_lt.mpr
          have hnat : c.toUInt8.toNat = c.toNat % 256 := rfl
          have hlimit : (0x80 : UInt8).toNat = 0x80 := rfl
          omega
        · have hchar := byteChar_toUInt8 hlow
          rw [byteChar] at hchar
          rw [hchar, toList_fromUtf8Lossy]
          exact hc
      rw [readBack, hknown _ hbyte, if_neg Bool.false_ne_true]
  · rfl

theorem lossyChars_map_toUInt8 {chars : List Char}
    (h : ∀ c ∈ chars, c.toNat < 0x80 ∨ c = replacement) :
    lossyChars (chars.map Char.toUInt8) = chars := by
  induction chars with
  | nil => exact lossyChars_nil
  | cons c chars ih =>
    rw [List.forall_mem_cons] at h
    rw [List.map_cons]
    rcases h.1 with hlow | rfl
    · have hbyte : c.toUInt8 < 0x80 := by
        apply UInt8.lt_iff_toNat_lt.mpr
        have hnat : c.toUInt8.toNat = c.toNat % 256 := rfl
        have hlimit : (0x80 : UInt8).toNat = 0x80 := rfl
        omega
      have hchar := byteChar_toUInt8 hlow
      rw [byteChar] at hchar
      rw [lossyChars_singleton hbyte, ih h.2, hchar]
    · have hnone : continuations replacement.toUInt8 = [] := rfl
      rw [lossyChars, lossyPieces, hnone, List.map_cons]
      have hcount : countMatching [] (chars.map Char.toUInt8) = 0 := by simp [countMatching]
      rw [hcount, List.drop_zero, List.take_zero]
      exact congrArg (replacement :: ·) (ih h.2)

/-- What is read in quotes is the name just where each escape is known and no character that
is not of ASCII was left in them. -/
theorem lossyChars_readName_iff (style : QuoteStyle) (path : List UInt8) :
    lossyChars (style.readName path) = lossyChars path ↔ ReadsQuoted style path := by
  have hquotePath (hon : style.quotePath = true) : style.readName path = path.flatMap readBack :=
    if_pos hon
  have hunescaped (hoff : style.quotePath ≠ true)
      (hknown : ∀ byte ∈ path, isUnread byte = false) :
      style.readName path = (lossyChars path).map Char.toUInt8 := by
    rw [QuoteStyle.readName, if_neg hoff, flatMap_readBackChar hknown]
  constructor
  · intro h
    have hknown := known_of_readName h
    refine ⟨hknown, ?_⟩
    by_cases hon : style.quotePath = true
    · exact .inl hon
    · right
      rw [← h]
      apply single_of_length_lossyChars
      rw [h, hunescaped hon hknown, List.length_map]
  · rintro ⟨hknown, hoctal⟩
    by_cases hon : style.quotePath = true
    · have hsame : path.flatMap readBack = path := by
        refine (List.flatMap_congr fun byte hbyte => ?_).trans (List.flatMap_singleton' path)
        rw [readBack, hknown byte hbyte, if_neg Bool.false_ne_true]
      rw [hquotePath hon, hsame]
    · rw [hunescaped hon hknown]
      exact lossyChars_map_toUInt8 (hoctal.resolve_left hon)

theorem fromUtf8Lossy_inj {bytes bytes' : List UInt8} :
    fromUtf8Lossy bytes = fromUtf8Lossy bytes' ↔ lossyChars bytes = lossyChars bytes' := by
  rw [← String.toList_inj, toList_fromUtf8Lossy, toList_fromUtf8Lossy]

/-- A printed name is read right where it has no quotes or is read right in them. -/
theorem unquoteGitPath_style_iff (style : QuoteStyle) (path : List UInt8) :
    unquoteGitPath (fromUtf8Lossy (style.printed path)) = fromUtf8Lossy path ↔
      style.quotes path = false ∨ ReadsQuoted style path := by
  cases hquotes : style.quotes path with
  | false => exact iff_of_true (unquoteGitPath_unquoted hquotes) (.inl rfl)
  | true =>
    rw [unquoteGitPath_quoted hquotes, fromUtf8Lossy_inj, lossyChars_readName_iff]
    exact (or_iff_right Bool.noConfusion).symm

/-- The form that git prints of a path is read as the path just where it is not quoted, or has
none of the escapes `\a`, `\b`, `\v` and `\f` and no character left that is not of ASCII. -/
theorem unquoteGitPath_printed_iff (quotePath : Bool) (path : List UInt8) :
    unquoteGitPath (fromUtf8Lossy ((QuoteStyle.mk quotePath false).printed path)) =
        fromUtf8Lossy path ↔
      (QuoteStyle.mk quotePath false).quotes path = false ∨
        ReadsQuoted ⟨quotePath, false⟩ path :=
  unquoteGitPath_style_iff _ path

/-- The bell is read as a backslash and a letter, and a character that was left as another. -/
theorem unquoteGitPath_misread :
    unquoteGitPath (fromUtf8Lossy ((QuoteStyle.mk true false).printed [0x61, 0x07])) = "a\\a" ∧
      fromUtf8Lossy [0x61, 0x07] ≠ "a\\a" ∧
      unquoteGitPath (fromUtf8Lossy ((QuoteStyle.mk false false).printed [0xc3, 0xa9, 0x09])) ≠
        fromUtf8Lossy [0xc3, 0xa9, 0x09] := by
  decide +kernel

end HerdrWebui.Files
