import HerdrWebui.Git.DiffText

/-!
The path and the status of a change that is read. Of the escapes in a quoted name two are
taken off by replacement, and the status is also read off the text `/dev/null` anywhere in the
lines of the two sides.
-/

namespace HerdrWebui.Git

/-- Printed as it is, or as one of the two escapes that are read. -/
def isReadByte (byte : UInt8) : Bool := isPlain byte || byte = 0x09 || byte = 0x22

/-- What the two replacements make of an escaped name. -/
def unescapePath (chars : List Char) : String :=
  replaceStr (replaceStr (String.ofList chars) "\\t" "\t") "\\\"" "\""

theorem escapeByte_plain {byte : UInt8} (h : isPlain byte = true) :
    escapeByte byte = [byteChar byte] := if_pos h

theorem byteChar_ne {byte : UInt8} {c : Char} (byte' : UInt8) (hc : byteChar byte' = c)
    (h : byte ≠ byte') : byteChar byte ≠ c := fun heq => h (byteChar_injective (heq.trans hc.symm))

theorem ne_of_isPlain {byte byte' : UInt8} (h : isPlain byte = true) (h' : isPlain byte' = false) :
    byte ≠ byte' := fun heq => Bool.false_ne_true (h'.symm.trans (heq ▸ h))

theorem replaceStr_other {d : Char} {src : String} (hsrc : src.toList = ['\\', d]) {c : Char}
    (hc : c ≠ '\\') (rest : List Char) (dst : String) :
    (replaceStr (String.ofList (c :: rest)) src dst).toList =
      c :: (replaceStr (String.ofList rest) src dst).toList := by
  apply replaceStr_cons
  rw [hsrc, List.cons_prefix_cons]
  exact fun hpre => hc hpre.1.symm

def untabByte (byte : UInt8) : List Char := if byte = 0x09 then ['\t'] else escapeByte byte

theorem replaceStr_tabs {bytes : List UInt8} (h : ∀ byte ∈ bytes, isReadByte byte = true) :
    (replaceStr (String.ofList (bytes.flatMap escapeByte)) "\\t" "\t").toList =
      bytes.flatMap untabByte := by
  induction bytes with
  | nil => decide +kernel
  | cons byte bytes ih =>
    rw [List.forall_mem_cons] at h
    have hrest := ih h.2
    rw [List.flatMap_cons, List.flatMap_cons, ← hrest]
    have hbyte := h.1
    rw [isReadByte, Bool.or_eq_true, Bool.or_eq_true, decide_eq_true_eq, decide_eq_true_eq]
      at hbyte
    rcases hbyte with (hplain | rfl) | rfl
    · have hbackslash : byteChar byte ≠ '\\' :=
        byteChar_ne 0x5c rfl (ne_of_isPlain hplain (by decide))
      have htab : byte ≠ 0x09 := ne_of_isPlain hplain (by decide)
      rw [untabByte, if_neg htab, escapeByte_plain hplain, List.singleton_append,
        replaceStr_other rfl hbackslash]
      rfl
    · exact replaceStr_append "\\t" (by decide) "\t" _
    · have hquote : escapeByte 0x22 = ['\\', '"'] := by decide
      have huntab : untabByte 0x22 = ['\\', '"'] := by decide
      rw [hquote, huntab, List.cons_append, List.cons_append, List.nil_append, replaceStr_cons,
        replaceStr_other rfl (by decide)]
      · rfl
      · change ¬['\\', 't'] <+: '\\' :: '"' :: _
        rw [List.cons_prefix_cons, List.cons_prefix_cons]
        exact fun hpre => absurd hpre.2.1 (by decide)

theorem replaceStr_quotes {bytes : List UInt8} (h : ∀ byte ∈ bytes, isReadByte byte = true) :
    (replaceStr (String.ofList (bytes.flatMap untabByte)) "\\\"" "\"").toList =
      bytes.map byteChar := by
  induction bytes with
  | nil => decide +kernel
  | cons byte bytes ih =>
    rw [List.forall_mem_cons] at h
    have hrest := ih h.2
    rw [List.flatMap_cons, List.map_cons, ← hrest]
    have hbyte := h.1
    rw [isReadByte, Bool.or_eq_true, Bool.or_eq_true, decide_eq_true_eq, decide_eq_true_eq]
      at hbyte
    rcases hbyte with (hplain | rfl) | rfl
    · have hbackslash : byteChar byte ≠ '\\' :=
        byteChar_ne 0x5c rfl (ne_of_isPlain hplain (by decide))
      have htab : byte ≠ 0x09 := ne_of_isPlain hplain (by decide)
      rw [untabByte, if_neg htab, escapeByte_plain hplain, List.singleton_append,
        replaceStr_other rfl hbackslash]
    · rw [untabByte, if_pos rfl, List.singleton_append, replaceStr_other rfl (by decide)]
      rfl
    · exact replaceStr_append "\\\"" (by decide) "\"" _

theorem unescapePath_escaped {bytes : List UInt8} (h : ∀ byte ∈ bytes, isReadByte byte = true) :
    unescapePath (bytes.flatMap escapeByte) = String.ofList (bytes.map byteChar) := by
  have htabs := replaceStr_tabs h
  have hquotes := replaceStr_quotes h
  rw [← htabs, String.ofList_toList] at hquotes
  rw [unescapePath, ← String.toList_inj, String.toList_ofList]
  exact hquotes

/-- A backslash or a tab: the first replacement makes as many of these as it takes. -/
def isEscapeMark (c : Char) : Bool := c = '\\' || c = '\t'

def isQuote (c : Char) : Bool := c = '"'

theorem count_unescapePath (chars : List Char) :
    chars.countP isEscapeMark ≤
      (unescapePath chars).toList.countP isEscapeMark + chars.countP isQuote := by
  obtain ⟨n, htabs⟩ := countP_replaceStr "\\t" (by decide) (String.ofList chars) "\t"
  obtain ⟨m, hquotes⟩ := countP_replaceStr "\\\"" (by decide)
    (replaceStr (String.ofList chars) "\\t" "\t") "\""
  obtain ⟨kept, hmarks, hmarks'⟩ := htabs isEscapeMark
  obtain ⟨kept₁, hquote, hquote'⟩ := htabs isQuote
  obtain ⟨kept₂, htaken, htaken'⟩ := hquotes isEscapeMark
  obtain ⟨kept₃, hleft, -⟩ := hquotes isQuote
  have hcounts : ("\\t".toList.countP isEscapeMark = 1 ∧ "\t".toList.countP isEscapeMark = 1 ∧
      "\\t".toList.countP isQuote = 0 ∧ "\t".toList.countP isQuote = 0) ∧
      "\\\"".toList.countP isEscapeMark = 1 ∧ "\"".toList.countP isEscapeMark = 0 ∧
      "\\\"".toList.countP isQuote = 1 := by decide
  obtain ⟨⟨hone, htwo, hthree, hfour⟩, hfive, hsix, hseven⟩ := hcounts
  rw [String.toList_ofList] at hmarks hquote
  rw [hone] at hmarks
  rw [htwo] at hmarks'
  rw [hthree] at hquote
  rw [hfour] at hquote'
  rw [hfive] at htaken
  rw [hsix] at htaken'
  rw [hseven] at hleft
  rw [unescapePath]
  omega

theorem octalDigit_marks (n : Nat) :
    isEscapeMark (octalDigit n) = false ∧ isQuote (octalDigit n) = false := by
  have hdigit : n % 8 < 8 := Nat.mod_lt n (by decide)
  unfold octalDigit
  generalize n % 8 = digit at hdigit
  interval_cases digit <;> decide

theorem byteChar_marks {byte : UInt8} (hbackslash : byte ≠ 0x5c) (htab : byte ≠ 0x09) :
    isEscapeMark (byteChar byte) = false := by
  rw [isEscapeMark, Bool.or_eq_false_iff, decide_eq_false_iff_not, decide_eq_false_iff_not]
  exact ⟨byteChar_ne 0x5c rfl hbackslash, byteChar_ne 0x09 rfl htab⟩

theorem byteChar_quote {byte : UInt8} (h : byte ≠ 0x22) : isQuote (byteChar byte) = false :=
  decide_eq_false (byteChar_ne 0x22 rfl h)

/-- An escape has at least as many marks as its byte, apart from the one before a quote, and
more of them unless it is read. -/
theorem count_escapeByte (byte : UInt8) :
    [byteChar byte].countP isEscapeMark + (escapeByte byte).countP isQuote ≤
        (escapeByte byte).countP isEscapeMark ∧
      ((escapeByte byte).countP isEscapeMark ≤
        [byteChar byte].countP isEscapeMark + (escapeByte byte).countP isQuote →
          isReadByte byte = true) := by
  by_cases hplain : isPlain byte = true
  · have hmark := byteChar_marks (ne_of_isPlain hplain (by decide))
      (ne_of_isPlain hplain (by decide))
    have hquote := byteChar_quote (ne_of_isPlain hplain (by decide))
    rw [escapeByte_plain hplain]
    refine ⟨by simp [hmark, hquote], fun _ => ?_⟩
    rw [isReadByte, hplain]
    rfl
  · by_cases hmnemonic : byte ∈ [0x07, 0x08, 0x09, 0x0a, 0x0b, 0x0c, 0x0d, 0x22, 0x5c]
    · exact forall_mem_of_all (p := fun byte =>
        [byteChar byte].countP isEscapeMark + (escapeByte byte).countP isQuote ≤
            (escapeByte byte).countP isEscapeMark ∧
          ((escapeByte byte).countP isEscapeMark ≤
            [byteChar byte].countP isEscapeMark + (escapeByte byte).countP isQuote →
              isReadByte byte = true)) (by decide) byte hmnemonic
    · simp only [List.mem_cons, List.not_mem_nil, or_false, not_or] at hmnemonic
      obtain ⟨h₁, h₂, htab, h₃, h₄, h₅, h₆, hquote, hbackslash⟩ := hmnemonic
      have hoctal : escapeByte byte = ['\\', octalDigit (byte.toNat / 64),
          octalDigit (byte.toNat / 8), octalDigit byte.toNat] := by
        rw [escapeByte, if_neg hplain, if_neg h₁, if_neg h₂, if_neg htab, if_neg h₃, if_neg h₄,
          if_neg h₅, if_neg h₆, if_neg hquote, if_neg hbackslash]
      have hmarks : (escapeByte byte).countP isEscapeMark = 1 ∧
          (escapeByte byte).countP isQuote = 0 := by
        have hbackslash : isEscapeMark '\\' = true ∧ isQuote '\\' = false := by decide
        rw [hoctal]
        simp [hbackslash, octalDigit_marks]
      have hbyte : [byteChar byte].countP isEscapeMark = 0 := by
        simp [byteChar_marks hbackslash htab]
      omega

theorem count_escaped (bytes : List UInt8) :
    (bytes.map byteChar).countP isEscapeMark + (bytes.flatMap escapeByte).countP isQuote ≤
        (bytes.flatMap escapeByte).countP isEscapeMark ∧
      ((bytes.flatMap escapeByte).countP isEscapeMark ≤
        (bytes.map byteChar).countP isEscapeMark + (bytes.flatMap escapeByte).countP isQuote →
          ∀ byte ∈ bytes, isReadByte byte = true) := by
  induction bytes with
  | nil => simp
  | cons byte bytes ih =>
    obtain ⟨hle, hread⟩ := count_escapeByte byte
    have hsplit : (byteChar byte :: bytes.map byteChar).countP isEscapeMark =
        [byteChar byte].countP isEscapeMark + (bytes.map byteChar).countP isEscapeMark := by
      rw [← List.countP_append]
      rfl
    rw [List.map_cons, List.flatMap_cons, List.countP_append, List.countP_append, hsplit]
    refine ⟨by omega, fun h => ?_⟩
    rw [List.forall_mem_cons]
    exact ⟨hread (by omega), ih.2 (by omega)⟩

theorem utf8Size_ascii {c : Char} (h : c.toNat < 0x80) : c.utf8Size = 1 := by
  rw [Char.utf8Size_eq_one_iff]
  apply UInt32.le_iff_toNat_le.mpr
  have hvalue : c.val.toNat < 0x80 := h
  exact Nat.le_of_lt_succ hvalue

theorem byteChar_toUInt8 {c : Char} (h : c.toNat < 0x80) : byteChar c.toUInt8 = c := by
  have hbyte : c.toUInt8.toNat = c.toNat % 256 := rfl
  rw [← Char.toNat_inj, toNat_byteChar, hbyte, Nat.mod_eq_of_lt (by omega)]

theorem toList_of_pathBytes {path : String} {bytes : List UInt8}
    (hascii : ∀ c ∈ path.toList, c.toNat < 0x80) (h : pathBytes path = bytes) :
    path.toList = bytes.map byteChar := by
  have hbytes := toUTF8_ofList fun c hc => utf8Size_ascii (hascii c hc)
  rw [String.ofList_toList] at hbytes
  rw [← h, pathBytes, hbytes, List.map_map]
  refine ((List.map_congr_left fun c hc => ?_).trans (List.map_id _)).symm
  exact byteChar_toUInt8 (hascii c hc)

theorem pathBytes_readBytes {bytes : List UInt8} (h : ∀ byte ∈ bytes, isReadByte byte = true) :
    pathBytes (String.ofList (bytes.map byteChar)) = bytes := by
  have hascii : ∀ c ∈ bytes.map byteChar, c.utf8Size = 1 := by
    intro c hc
    obtain ⟨byte, hbyte, rfl⟩ := List.mem_map.mp hc
    apply utf8Size_ascii
    rw [toNat_byteChar]
    have hread := h byte hbyte
    rw [isReadByte, Bool.or_eq_true, Bool.or_eq_true, decide_eq_true_eq, decide_eq_true_eq] at hread
    rcases hread with (hplain | rfl) | rfl
    · have hgraphic := (isGraphic_plain hplain).2
      rw [toNat_byteChar] at hgraphic
      omega
    · decide
    · decide
  rw [pathBytes, toUTF8_ofList hascii, List.map_map]
  exact (List.map_congr_left fun byte _ => toUInt8_byteChar byte).trans (List.map_id bytes)

theorem ascii_unescapePath {bytes : List UInt8} :
    ∀ c ∈ (unescapePath (bytes.flatMap escapeByte)).toList, c.toNat < 0x80 := by
  intro c hc
  rcases mem_replaceStr (by decide) hc with htabs | hquote
  · rcases mem_replaceStr (by decide) htabs with hescaped | htab
    · rw [String.toList_ofList] at hescaped
      obtain ⟨byte, -, hbyte⟩ := List.mem_flatMap.mp hescaped
      have hgraphic := (isGraphic_escapeByte hbyte).2
      omega
    · exact forall_mem_of_all (p := fun c => c.toNat < 0x80) (by decide) c htab
  · exact forall_mem_of_all (p := fun c => c.toNat < 0x80) (by decide) c hquote

theorem unescapePath_iff (bytes : List UInt8) :
    pathBytes (unescapePath (bytes.flatMap escapeByte)) = bytes ↔
      ∀ byte ∈ bytes, isReadByte byte = true := by
  constructor
  · intro h
    have hchars := toList_of_pathBytes ascii_unescapePath h
    have hcount := count_unescapePath (bytes.flatMap escapeByte)
    rw [hchars] at hcount
    exact (count_escaped bytes).2 hcount
  · intro h
    rw [unescapePath_escaped h]
    exact pathBytes_readBytes h

/-- Read back from the line of a side: of a plain name no space at the end is missed, and of
another one all escapes are read. -/
structure IsReadName (name : GitName) : Prop where
  escapes : ∀ byte ∈ name.bytes, isReadByte byte = true
  noBlankEnd : name.bytes.all isPlain = true → name.bytes.getLast? ≠ some 0x20

/-- The path that is read from either side. -/
def readName (name : GitName) : String :=
  if name.bytes.all isPlain then String.ofList (name.chars.rdropWhile isWhitespace)
  else unescapePath (name.bytes.flatMap escapeByte)

theorem sideName_quoted {side : UInt8} (hside : isPlain side = true) {name : GitName}
    (h : ¬name.bytes.all isPlain = true) : sideName side name =
      '"' :: (byteChar side :: '/' :: name.bytes.flatMap escapeByte ++ ['"']) := by
  have hall : ¬(side :: 0x2f :: name.bytes).all isPlain = true := by
    rw [List.all_cons, List.all_cons, Bool.and_eq_true, Bool.and_eq_true]
    exact fun hall => h hall.2.2
  rw [sideName, printName, if_neg hall, List.flatMap_cons, escapeByte_plain hside]
  rfl

theorem parseDiffPath_quoted {side : Char} (hside : side = 'a' ∨ side = 'b') (chars : List Char)
    {tail : List Char} (htail : ∀ c ∈ tail, isWhitespace c = true) :
    parseDiffPath (String.ofList ('"' :: (side :: '/' :: chars ++ ['"']) ++ tail)) =
      some (unescapePath chars) := by
  have htrim : trim (String.ofList ('"' :: (side :: '/' :: chars ++ ['"']) ++ tail)) =
      String.ofList ('"' :: (side :: '/' :: chars ++ ['"'])) := by
    have hquote := rdropWhile_append_cons (p := isWhitespace) (c := '"') (by decide)
      (side :: '/' :: chars) []
    rw [← String.toList_inj, List.cons_append, toList_trim_cons (by decide), String.toList_ofList,
      rdropWhile_append_of_all htail, hquote, List.rdropWhile_nil]
  have hnull : String.ofList ('"' :: (side :: '/' :: chars ++ ['"'])) ≠ "/dev/null" := by
    intro heq
    have hchars := congrArg String.toList heq
    rw [String.toList_ofList] at hchars
    exact absurd (List.cons.inj hchars).1 (by decide)
  have hlast : ('"' :: (side :: '/' :: chars ++ ['"'])).getLast? = some '"' := by
    rw [← List.cons_append, List.getLast?_concat]
  have hlength : 2 ≤ (String.ofList ('"' :: (side :: '/' :: chars ++ ['"']))).length := by
    rw [String.length_ofList, List.length_cons, List.length_append, List.length_cons]
    omega
  have hinner : (('"' :: (side :: '/' :: chars ++ ['"'])).drop 1).dropLast =
      side :: '/' :: chars := by
    rw [List.drop_one, List.tail_cons, List.dropLast_concat]
  unfold parseDiffPath
  simp only [htrim]
  rw [if_neg hnull, if_pos (by rw [String.toList_ofList]; exact ⟨rfl, hlast, hlength⟩),
    String.toList_ofList, hinner, stripPrefix_side hside]
  rfl

theorem parseDiffPath_readName (name : GitName) {side : UInt8} (hside : side = 0x61 ∨ side = 0x62) :
    parseDiffPath (String.ofList (sideName side name ++ nameEnd (sideName side name))) =
      some (readName name) := by
  by_cases hplain : name.bytes.all isPlain = true
  · rw [readName, if_pos hplain]
    exact parseDiffPath_side hplain hside
  · rw [readName, if_neg hplain]
    rcases hside with rfl | rfl
    · rw [sideName_quoted (by decide) hplain]
      exact parseDiffPath_quoted (.inl rfl) _ (nameEnd_blank _)
    · rw [sideName_quoted (by decide) hplain]
      exact parseDiffPath_quoted (.inr rfl) _ (nameEnd_blank _)

theorem pathBytes_readName (name : GitName) :
    pathBytes (readName name) = name.bytes ↔ IsReadName name := by
  by_cases hplain : name.bytes.all isPlain = true
  · have hread : ∀ byte ∈ name.bytes, isReadByte byte = true := by
      intro byte hbyte
      rw [isReadByte, List.all_eq_true.mp hplain byte hbyte]
      rfl
    have hsame : pathBytes (String.ofList (name.chars.rdropWhile isWhitespace)) = name.bytes ↔
        name.chars.rdropWhile isWhitespace = name.chars := by
      constructor
      · intro h
        have hchars := chars_eq hplain h
        rwa [String.toList_ofList] at hchars
      · intro h
        rw [h]
        exact pathBytes_readBytes hread
    rw [readName, if_pos hplain, hsame, rdropWhile_plain_iff hplain]
    exact ⟨fun h => ⟨hread, fun _ => h⟩, fun h => h.noBlankEnd hplain⟩
  · rw [readName, if_neg hplain, unescapePath_iff]
    exact ⟨fun h => ⟨h, fun hall => absurd hall hplain⟩, fun h => h.escapes⟩

/-- The text `/dev/null` is in the path of a side. -/
def HasNull (name : GitName) : Prop := devNull <:+: '/' :: name.chars

instance (name : GitName) : Decidable (HasNull name) := inferInstanceAs (Decidable (_ <:+: _))

theorem infix_nameEnd (chars shown : List Char) :
    devNull <:+: chars ++ nameEnd shown ↔ devNull <:+: chars := by
  unfold nameEnd
  split
  · rw [infix_append_cons_iff (by decide) (by decide), List.infix_nil]
    exact or_iff_left (by decide)
  · rw [List.append_nil]

theorem infix_escaped {bytes : List UInt8} (h : ∀ byte ∈ bytes, isReadByte byte = true) :
    devNull <:+: bytes.flatMap escapeByte ↔ devNull <:+: bytes.map byteChar := by
  have hread := congrArg String.toList (unescapePath_escaped h)
  rw [String.toList_ofList] at hread
  have hreplace (src dst text : String) (hsrc : ∀ c ∈ src.toList, c ∉ devNull)
      (hdst : ∀ c ∈ dst.toList, c ∉ devNull) (hsrcne : src.toList ≠ []) (hdstne : dst.toList ≠ []) :
      devNull <:+: (replaceStr text src dst).toList ↔ devNull <:+: text.toList :=
    infix_replaceStr_iff hsrc hdst hsrcne hdstne (by decide) text
  rw [← hread, unescapePath, hreplace, hreplace, String.toList_ofList]
  · exact forall_mem_of_all (by decide)
  · exact forall_mem_of_all (by decide)
  · decide
  · decide
  · exact forall_mem_of_all (by decide)
  · exact forall_mem_of_all (by decide)
  · decide
  · decide

theorem infix_sideLine {front : List Char} (hfront : ¬devNull <:+: front)
    {side : UInt8} (hside : side = 0x61 ∨ side = 0x62) {name : GitName}
    (hname : ∀ byte ∈ name.bytes, isReadByte byte = true) :
    devNull <:+: front ++ (sideName side name ++ nameEnd (sideName side name)) ↔
      HasNull name := by
  have hmark : isPlain side = true ∧ byteChar side ∉ devNull := by
    rcases hside with rfl | rfl <;> decide
  have hne : devNull ≠ [] := by decide
  rw [← List.append_assoc, infix_nameEnd]
  by_cases hplain : name.bytes.all isPlain = true
  · rw [sideName_plain hmark.1 hplain, infix_append_cons_iff hmark.2 hne, or_iff_right hfront]
    rfl
  · have hquote : '"' ∉ devNull := by decide
    have hstart : ¬devNull <:+: ([] : List Char) := by decide
    have hslash : '/' :: name.bytes.flatMap escapeByte =
        (0x2f :: name.bytes).flatMap escapeByte := by
      rw [List.flatMap_cons, escapeByte_plain (by decide)]
      rfl
    have hall : ∀ byte ∈ (0x2f : UInt8) :: name.bytes, isReadByte byte = true := by
      rw [List.forall_mem_cons]
      exact ⟨by decide, hname⟩
    have hinner := infix_append_cons_iff hmark.2 hne [] ('/' :: name.bytes.flatMap escapeByte)
    rw [List.nil_append, or_iff_right hstart, hslash, infix_escaped hall] at hinner
    rw [sideName_quoted hmark.1 hplain, infix_append_cons_iff hquote hne, or_iff_right hfront,
      infix_append_cons_iff hquote hne, or_iff_left hstart, hslash]
    exact hinner

def ChangeKind.status : ChangeKind → FileStatus
  | .added _ => .added
  | .deleted _ => .deleted
  | .modified _ => .modified
  | .renamed _ _ _ => .renamed

/-- A file has the path, the old path and the status of its change. -/
structure FileOf (change : FileChange) (file : GitDiffFile) : Prop where
  path : pathBytes file.path = change.name.bytes
  oldPath : file.oldPath.map pathBytes = change.kind.oldName?.map (·.bytes)
  status : file.status = change.kind.status

/-- The lines that name the path are there, the name is read back, and where the status is not
settled before there is no `/dev/null` in a path. -/
def ReadsFile (change : FileChange) : Prop :=
  match change.kind with
  | .added _ => change.minus?.isSome ∧ IsReadName change.name
  | .deleted _ => change.minus?.isSome ∧ IsReadName change.name ∧ ¬HasNull change.name
  | .modified _ => change.minus?.isSome ∧ IsReadName change.name ∧ ¬HasNull change.name
  | .renamed _ _ oldName =>
    oldName.bytes.all isPlain = true ∧ change.name.bytes.all isPlain = true ∧
      (change.minus?.isSome → ¬HasNull oldName ∧ ¬HasNull change.name)

theorem hasInfix_headerLine (line : HeaderLine) : hasInfix "/dev/null" line.text = true ↔
    devNull <:+: line.keyword.text.toList ++ line.rest := by
  rw [hasInfix, decide_eq_true_eq, line.toList_text]
  rfl

section Sides

variable {change : FileChange}

theorem sides_eq (h : change.minus?.isSome = true) :
    change.minus? = some change.minusLine ∧ change.plus? = some change.plusLine := by
  unfold FileChange.minus? at h ⊢
  unfold FileChange.plus?
  cases hbody : change.body with
  | none =>
    rw [hbody] at h
    cases h
  | binary =>
    rw [hbody] at h
    cases h
  | hunks hunks => exact ⟨rfl, rfl⟩

theorem sides_none (h : change.minus?.isSome = false) :
    change.minus? = none ∧ change.plus? = none := by
  unfold FileChange.minus? at h ⊢
  unfold FileChange.plus?
  cases hbody : change.body with
  | none => exact ⟨rfl, rfl⟩
  | binary => exact ⟨rfl, rfl⟩
  | hunks hunks =>
    rw [hbody] at h
    cases h

theorem oldSide_eq (h : change.kind.isAdded = false) :
    change.oldSide = sideName 0x61 change.oldName := by
  unfold FileChange.oldSide
  cases hkind : change.kind with
  | added mode =>
    rw [hkind] at h
    cases h
  | deleted mode => rfl
  | modified modes => rfl
  | renamed modes similarity oldName => rfl

theorem newSide_eq (h : change.kind.isDeleted = false) :
    change.newSide = sideName 0x62 change.name := by
  unfold FileChange.newSide
  cases hkind : change.kind with
  | added mode => rfl
  | deleted mode =>
    rw [hkind] at h
    cases h
  | modified modes => rfl
  | renamed modes similarity oldName => rfl

theorem parseDiffPath_minus (h : change.kind.isAdded = false) :
    parseDiffPath (String.ofList change.minusLine.rest) = some (readName change.oldName) := by
  have hrest : change.minusLine.rest = change.oldSide ++ nameEnd change.oldSide := rfl
  rw [hrest, oldSide_eq h]
  exact parseDiffPath_readName _ (.inl rfl)

theorem parseDiffPath_plus (h : change.kind.isDeleted = false) :
    parseDiffPath (String.ofList change.plusLine.rest) = some (readName change.name) := by
  have hrest : change.plusLine.rest = change.newSide ++ nameEnd change.newSide := rfl
  rw [hrest, newSide_eq h]
  exact parseDiffPath_readName _ (.inr rfl)

theorem hasInfix_minus (h : change.kind.isAdded = false)
    (hname : ∀ byte ∈ change.oldName.bytes, isReadByte byte = true) :
    hasInfix "/dev/null" change.minusLine.text = true ↔ HasNull change.oldName := by
  have hrest : change.minusLine.rest = change.oldSide ++ nameEnd change.oldSide := rfl
  have hfront : ¬devNull <:+: change.minusLine.keyword.text.toList := by
    change ¬devNull <:+: "--- ".toList
    decide
  rw [hasInfix_headerLine, hrest, oldSide_eq h]
  exact infix_sideLine hfront (.inl rfl) hname

theorem hasInfix_plus (h : change.kind.isDeleted = false)
    (hname : ∀ byte ∈ change.name.bytes, isReadByte byte = true) :
    hasInfix "/dev/null" change.plusLine.text = true ↔ HasNull change.name := by
  have hrest : change.plusLine.rest = change.newSide ++ nameEnd change.newSide := rfl
  have hfront : ¬devNull <:+: change.plusLine.keyword.text.toList := by
    change ¬devNull <:+: "+++ ".toList
    decide
  rw [hasInfix_headerLine, hrest, newSide_eq h]
  exact infix_sideLine hfront (.inr rfl) hname

end Sides

/-- The path and what goes with it, as they are read. -/
def ReadAs (change : FileChange) (path : String) : Prop :=
  change.newPath?.or change.oldPath? = some path ∧ pathBytes path = change.name.bytes ∧
    (if change.readStatus path = .renamed then some (change.oldPath?.getD "") else none).map
      pathBytes = change.kind.oldName?.map (·.bytes) ∧
    change.readStatus path = change.kind.status

theorem fileOf_iff (change : FileChange) :
    (∃ file, parseUnifiedDiff change.text = [file] ∧ FileOf change file) ↔
      ∃ path, ReadAs change path := by
  rw [parseUnifiedDiff_text, parseBlock_text, FileChange.readFile]
  constructor
  · rintro ⟨file, hfile, hof⟩
    cases hpath : change.newPath?.or change.oldPath? with
    | none =>
      rw [hpath] at hfile
      cases hfile
    | some path =>
      rw [hpath] at hfile
      obtain rfl := (List.cons.inj hfile).1.symm
      exact ⟨path, hpath, hof.path, hof.oldPath, hof.status⟩
  · rintro ⟨path, hpath, hbytes, hold, hstatus⟩
    rw [hpath]
    exact ⟨_, rfl, hbytes, hold, hstatus⟩

section Kinds

variable {change : FileChange}

theorem not_readAs (hold : change.kind.oldName? = none) (hnone : change.minus?.isSome = false)
    (path : String) : ¬ReadAs change path := by
  rintro ⟨hpath, -⟩
  obtain ⟨hminus, hplus⟩ := sides_none hnone
  rw [FileChange.newPath?, FileChange.oldPath?, hold, hminus, hplus] at hpath
  cases hpath

theorem newPath?_hunks (hold : change.kind.oldName? = none) (hhunks : change.minus?.isSome = true)
    (hdeleted : change.kind.isDeleted = false) :
    change.newPath? = some (readName change.name) := by
  rw [FileChange.newPath?, hold, (sides_eq hhunks).2, Option.map_none, Option.none_or,
    Option.bind_some, parseDiffPath_plus hdeleted]

theorem oldPath?_hunks (hold : change.kind.oldName? = none) (hhunks : change.minus?.isSome = true)
    (hadded : change.kind.isAdded = false) :
    change.oldPath? = some (readName change.name) := by
  have hname : change.oldName = change.name := by
    rw [FileChange.oldName, hold, Option.getD_none]
  rw [FileChange.oldPath?, hold, (sides_eq hhunks).1, Option.map_none, Option.none_or,
    Option.bind_some, parseDiffPath_minus hadded, hname]

theorem newPath?_deleted {mode : PlainText} (hkind : change.kind = .deleted mode) :
    change.newPath? = none := by
  have hold : change.kind.oldName? = none := by rw [hkind]; rfl
  have hside : change.newSide = devNull := by rw [FileChange.newSide, hkind]
  have hrest : change.plusLine.rest = devNull := by
    change change.newSide ++ nameEnd change.newSide = devNull
    rw [hside]
    decide
  have hread : parseDiffPath (String.ofList devNull) = none := parseDiffPath_devNull
  rw [FileChange.newPath?, hold, Option.map_none, Option.none_or]
  cases hhunks : change.minus?.isSome with
  | false => rw [(sides_none hhunks).2, Option.bind_none]
  | true => rw [(sides_eq hhunks).2, Option.bind_some, hrest, hread]

theorem readAs_added {mode : PlainText} (hkind : change.kind = .added mode)
    (hhunks : change.minus?.isSome = true) :
    (∃ path, ReadAs change path) ↔ IsReadName change.name := by
  have hstatus (path : String) : change.readStatus path = .added := by
    have hadded : change.kind.isAdded = true := by rw [hkind]; rfl
    rw [FileChange.readStatus, if_pos (.inl hadded)]
  have hnew := newPath?_hunks (by rw [hkind]; rfl) hhunks (by rw [hkind]; rfl)
  rw [← pathBytes_readName]
  constructor
  · rintro ⟨path, hpath, hbytes, -⟩
    rw [hnew, Option.some_or] at hpath
    obtain rfl := Option.some.inj hpath
    exact hbytes
  · intro hbytes
    refine ⟨readName change.name, by rw [hnew, Option.some_or], hbytes, ?_, ?_⟩
    · rw [hstatus, if_neg (by decide), hkind]
      rfl
    · rw [hstatus, hkind]
      rfl

theorem readStatus_hunks (hhunks : change.minus?.isSome = true)
    (hadded : change.kind.isAdded = false)
    (hname : ∀ byte ∈ change.oldName.bytes, isReadByte byte = true) (path : String) :
    change.readStatus path =
      if HasNull change.oldName then .added
      else if change.kind.isDeleted ∨ hasInfix "/dev/null" change.plusLine.text then .deleted
      else if change.oldPath? ≠ some path then .renamed
      else .modified := by
  have hnull := hasInfix_minus hadded hname
  rw [FileChange.readStatus, hadded, (sides_eq hhunks).1, (sides_eq hhunks).2]
  simp only [Option.map_some, Option.any_some, Bool.false_eq_true, false_or, hnull]

theorem readAs_deleted {mode : PlainText} (hkind : change.kind = .deleted mode)
    (hhunks : change.minus?.isSome = true) :
    (∃ path, ReadAs change path) ↔ IsReadName change.name ∧ ¬HasNull change.name := by
  have hold : change.kind.oldName? = none := by rw [hkind]; rfl
  have hadded : change.kind.isAdded = false := by rw [hkind]; rfl
  have hdeleted : change.kind.isDeleted = true := by rw [hkind]; rfl
  have hname : change.oldName = change.name := by
    rw [FileChange.oldName, hold, Option.getD_none]
  have hpaths : change.newPath?.or change.oldPath? = some (readName change.name) := by
    rw [newPath?_deleted hkind, oldPath?_hunks hold hhunks hadded, Option.none_or]
  have hstatus (hread : IsReadName change.name) (path : String) :
      change.readStatus path = if HasNull change.name then .added else .deleted := by
    rw [readStatus_hunks hhunks hadded (by rw [hname]; exact hread.escapes), hname, hdeleted]
    simp
  constructor
  · rintro ⟨path, hpath, hbytes, -, hdone⟩
    rw [hpaths] at hpath
    obtain rfl := Option.some.inj hpath
    have hread := (pathBytes_readName _).mp hbytes
    refine ⟨hread, fun hnull => ?_⟩
    rw [hstatus hread, if_pos hnull, hkind] at hdone
    cases hdone
  · rintro ⟨hread, hnull⟩
    refine ⟨_, hpaths, (pathBytes_readName _).mpr hread, ?_, ?_⟩
    · rw [hstatus hread, if_neg hnull, if_neg (by decide), hold]
      rfl
    · rw [hstatus hread, if_neg hnull, hkind]
      rfl

theorem readAs_modified {modes : Option (PlainText × PlainText)}
    (hkind : change.kind = .modified modes) (hhunks : change.minus?.isSome = true) :
    (∃ path, ReadAs change path) ↔ IsReadName change.name ∧ ¬HasNull change.name := by
  have hold : change.kind.oldName? = none := by rw [hkind]; rfl
  have hadded : change.kind.isAdded = false := by rw [hkind]; rfl
  have hdeleted : change.kind.isDeleted = false := by rw [hkind]; rfl
  have hname : change.oldName = change.name := by
    rw [FileChange.oldName, hold, Option.getD_none]
  have hnew := newPath?_hunks hold hhunks hdeleted
  have holdPath := oldPath?_hunks hold hhunks hadded
  have hstatus (hread : IsReadName change.name) :
      change.readStatus (readName change.name) =
        if HasNull change.name then .added else .modified := by
    have hplus := hasInfix_plus hdeleted hread.escapes
    rw [readStatus_hunks hhunks hadded (by rw [hname]; exact hread.escapes), hname, hdeleted,
      holdPath]
    by_cases hnull : HasNull change.name <;> simp [hnull, hplus]
  constructor
  · rintro ⟨path, hpath, hbytes, -, hdone⟩
    rw [hnew, Option.some_or] at hpath
    obtain rfl := Option.some.inj hpath
    have hread := (pathBytes_readName _).mp hbytes
    refine ⟨hread, fun hnull => ?_⟩
    rw [hstatus hread, if_pos hnull, hkind] at hdone
    cases hdone
  · rintro ⟨hread, hnull⟩
    refine ⟨readName change.name, by rw [hnew, Option.some_or], (pathBytes_readName _).mpr hread,
      ?_, ?_⟩
    · rw [hstatus hread, if_neg hnull, if_neg (by decide), hold]
      rfl
    · rw [hstatus hread, if_neg hnull, hkind]
      rfl

theorem readAs_renamed {modes : Option (PlainText × PlainText)} {similarity : PlainText}
    {oldName : GitName} (hkind : change.kind = .renamed modes similarity oldName) :
    (∃ path, ReadAs change path) ↔ oldName.bytes.all isPlain = true ∧
      change.name.bytes.all isPlain = true ∧
        (change.minus?.isSome → ¬HasNull oldName ∧ ¬HasNull change.name) := by
  have holdName : change.oldName = oldName := by
    rw [FileChange.oldName, hkind]
    rfl
  have hadded : change.kind.isAdded = false := by rw [hkind]; rfl
  have hdeleted : change.kind.isDeleted = false := by rw [hkind]; rfl
  have hnew : change.newPath? = some (String.ofList (printName change.name.bytes)) := by
    rw [FileChange.newPath?, hkind]
    rfl
  have hold : change.oldPath? = some (String.ofList (printName oldName.bytes)) := by
    rw [FileChange.oldPath?, hkind]
    rfl
  have hother (hplain : oldName.bytes.all isPlain = true)
      (hplain' : change.name.bytes.all isPlain = true) :
      change.oldPath? ≠ some (String.ofList (printName change.name.bytes)) := by
    rw [hold]
    intro heq
    have hbytes := congrArg pathBytes (Option.some.inj heq)
    rw [(pathBytes_printName _).mpr hplain, (pathBytes_printName _).mpr hplain'] at hbytes
    exact change.moved oldName (by rw [hkind]; rfl) hbytes
  have hplainRead {name : GitName} (hplain : name.bytes.all isPlain = true) :
      ∀ byte ∈ name.bytes, isReadByte byte = true := by
    intro byte hbyte
    rw [isReadByte, List.all_eq_true.mp hplain byte hbyte]
    rfl
  have hstatus (hplain : oldName.bytes.all isPlain = true)
      (hplain' : change.name.bytes.all isPlain = true) :
      change.readStatus (String.ofList (printName change.name.bytes)) = .renamed ↔
        (change.minus?.isSome → ¬HasNull oldName ∧ ¬HasNull change.name) := by
    cases hhunks : change.minus?.isSome with
    | false =>
      rw [FileChange.readStatus, (sides_none hhunks).1, (sides_none hhunks).2, hadded, hdeleted]
      simp [hother hplain hplain']
    | true =>
      have hplus := hasInfix_plus hdeleted (hplainRead hplain')
      rw [readStatus_hunks hhunks hadded (by rw [holdName]; exact hplainRead hplain), holdName,
        hdeleted, if_pos (hother hplain hplain')]
      by_cases hnull : HasNull oldName
      · simp [hnull]
      · by_cases hnull' : HasNull change.name <;> simp [hnull, hnull', hplus]
  constructor
  · rintro ⟨path, hpath, hbytes, holdPath, hdone⟩
    rw [hnew, Option.some_or] at hpath
    obtain rfl := Option.some.inj hpath
    have hplain' := (pathBytes_printName _).mp hbytes
    have hrenamed : change.readStatus (String.ofList (printName change.name.bytes)) = .renamed := by
      rw [hdone, hkind]
      rfl
    rw [if_pos hrenamed, hold, hkind] at holdPath
    have hplain := (pathBytes_printName _).mp (Option.some.inj holdPath)
    exact ⟨hplain, hplain', (hstatus hplain hplain').mp hrenamed⟩
  · rintro ⟨hplain, hplain', hnull⟩
    have hrenamed := (hstatus hplain hplain').mpr hnull
    refine ⟨_, by rw [hnew, Option.some_or], (pathBytes_printName _).mpr hplain', ?_, ?_⟩
    · rw [if_pos hrenamed, hold, hkind]
      exact congrArg some ((pathBytes_printName _).mpr hplain)
    · rw [hrenamed, hkind]
      rfl

end Kinds

/-- The file that is read is that of the change just where its lines are read back. -/
theorem parseUnifiedDiff_fileOf_iff (change : FileChange) :
    (∃ file, parseUnifiedDiff change.text = [file] ∧ FileOf change file) ↔ ReadsFile change := by
  rw [fileOf_iff]
  have hunnamed (hold : change.kind.oldName? = none) (hnone : change.minus?.isSome = false) :
      ¬∃ path, ReadAs change path := fun ⟨path, hread⟩ => not_readAs hold hnone path hread
  unfold ReadsFile
  cases hhunks : change.minus?.isSome with
  | false =>
    cases hkind : change.kind with
    | added mode => simpa using hunnamed (by rw [hkind]; rfl) hhunks
    | deleted mode => simpa using hunnamed (by rw [hkind]; rfl) hhunks
    | modified modes => simpa using hunnamed (by rw [hkind]; rfl) hhunks
    | renamed modes similarity oldName =>
      rw [readAs_renamed hkind, hhunks]
  | true =>
    cases hkind : change.kind with
    | added mode => simpa using readAs_added hkind hhunks
    | deleted mode => simpa using readAs_deleted hkind hhunks
    | modified modes => simpa using readAs_modified hkind hhunks
    | renamed modes similarity oldName =>
      rw [readAs_renamed hkind, hhunks]

/-- The bytes of the accent are read as the digits they are printed in, and the deleted file as
one that was added. -/
theorem parseUnifiedDiff_misread :
    (parseUnifiedDiff accentChange.text).map (·.path) = ["\\303\\251"] ∧
      (parseUnifiedDiff nullChange.text).map (·.status) = [.added] ∧
      ¬∀ change : FileChange, ∃ file, parseUnifiedDiff change.text = [file] ∧
        FileOf change file := by
  have hpath : (parseUnifiedDiff accentChange.text).map (·.path) = ["\\303\\251"] := by
    decide +kernel
  refine ⟨hpath, by decide +kernel, fun hall => ?_⟩
  obtain ⟨file, hfile, hof⟩ := hall accentChange
  rw [hfile, List.map_singleton, List.cons.injEq] at hpath
  have hbytes := hof.path
  rw [hpath.1] at hbytes
  revert hbytes
  decide +kernel

end HerdrWebui.Git
