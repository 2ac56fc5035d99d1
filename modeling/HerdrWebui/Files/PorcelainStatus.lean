import HerdrWebui.Data.ByteIndex
import HerdrWebui.Files.GitQuoting
import HerdrWebui.Files.StatusColors

/-!
The changes of the working tree as `git status --porcelain=v1` prints them, and the paths
that are colored for them. What is behind the codes of a line is taken for one name, also
where it is the old name and the new one with an arrow between them.
-/

namespace HerdrWebui.Files

open Git

def parsePorcelainStatus (xy : String) : String :=
  match xy with
  | "??" => "untracked"
  | "AA" | "DD" | "AU" | "UA" | "UD" | "DU" | "UU" => "conflict"
  | _ =>
    let x := ((pathBytes xy)[0]?).map byteChar
    let y := ((pathBytes xy)[1]?).map byteChar
    if y = some 'D' ∨ x = some 'D' then "deleted"
    else if y = some 'M' ∨ y = some 'R' ∨ y = some 'C' ∨
        x = some 'M' ∨ x = some 'R' ∨ x = some 'C' then "modified"
    else if y = some 'A' ∨ x = some 'A' then "added"
    else "modified"

/-- A path of the repository from the directory of the workspace. -/
def adjustGitPath (path prefixTrim : String) : Option String :=
  if prefixTrim = "" then some path
  else
    match stripPrefix (prefixTrim ++ "/") path with
    | some stripped => some stripped
    | none => if path = prefixTrim then some "" else none

/-- The entry of a line, if it gives one. A slice that cuts a character fails. -/
def statusEntry (prefixTrim line : String) : Option (Option (String × String)) :=
  if byteLength line.toList < 3 then some none
  else do
    let (xy, _) ← splitAtByte 2 line.toList
    let (_, rest) ← splitAtByte 3 line.toList
    let path := trim (String.ofList rest)
    if path = "" then return none
    let path := unquoteGitPath (String.ofList (path.toList.takeWhile (· ≠ '\t')))
    let status := parsePorcelainStatus (String.ofList xy)
    return (adjustGitPath path prefixTrim).map (·, status)

/-- The map of the changes of the working tree. -/
def collectGitStatus (prefixTrim text : String) : Option (Table String String) := do
  let entries ← (lines text).mapM (statusEntry prefixTrim)
  return statusColors entries.reduceOption

inductive PorcelainCode where
  | unmodified
  | modified
  | typeChanged
  | added
  | deleted
  | renamed
  | copied
  | unmerged
  | untracked
  deriving DecidableEq, Repr

def PorcelainCode.char : PorcelainCode → Char
  | .unmodified => ' '
  | .modified => 'M'
  | .typeChanged => 'T'
  | .added => 'A'
  | .deleted => 'D'
  | .renamed => 'R'
  | .copied => 'C'
  | .unmerged => 'U'
  | .untracked => '?'

def PorcelainCode.moves (code : PorcelainCode) : Bool := code = .renamed ∨ code = .copied

/-- A change under the current name of its file. A file that was renamed or copied has the
name of its source too. -/
structure WorkingChange where
  x : PorcelainCode
  y : PorcelainCode
  name : GitName
  source : Option GitName
  moved : source.isSome ↔ x.moves ∨ y.moves

def WorkingChange.xy (change : WorkingChange) : List Char := [change.x.char, change.y.char]

def arrow : List Char := " -> ".toList

def porcelainStyle (quotePath : Bool) : QuoteStyle := ⟨quotePath, true⟩

def WorkingChange.names (quotePath : Bool) (change : WorkingChange) : List UInt8 :=
  let style := porcelainStyle quotePath
  match change.source with
  | none => style.printed change.name.bytes
  | some source => style.printed source.bytes ++ utf8 arrow ++ style.printed change.name.bytes

def WorkingChange.line (quotePath : Bool) (change : WorkingChange) : List UInt8 :=
  utf8 (change.xy ++ [' ']) ++ change.names quotePath

/-- The current path, from the root of the repository. -/
def WorkingChange.path (change : WorkingChange) : String := fromUtf8Lossy change.name.bytes

def porcelainStatus (quotePath : Bool) (changes : List WorkingChange) : List UInt8 :=
  endedLines (changes.map (WorkingChange.line quotePath))

/-- A path is that of a file below the directory of the workspace. -/
def BelowWorkspace (prefixTrim path rel : String) : Prop :=
  rel ≠ "" ∧ (prefixTrim = "" ∧ path = rel ∨ prefixTrim ≠ "" ∧ path = prefixTrim ++ "/" ++ rel)

/-- The entry of a change gives its status to its current path from the workspace, and to
none if that is not below the workspace. An empty path is not colored. -/
def ColorsCurrent (prefixTrim : String) (change : WorkingChange)
    (entry : Option (String × String)) : Prop :=
  ∀ rel status, rel ≠ "" → (entry = some (rel, status) ↔
    BelowWorkspace prefixTrim change.path rel ∧
      status = parsePorcelainStatus (String.ofList change.xy))

/-- The text in place of the names, with the escapes that are known taken away where it
starts and ends with quotes. -/
def WorkingChange.shownPath (quotePath : Bool) (change : WorkingChange) : String :=
  let style := porcelainStyle quotePath
  match change.source with
  | none =>
    if style.quotes change.name.bytes then fromUtf8Lossy (style.readName change.name.bytes)
    else trim change.path
  | some source =>
    if style.quotes source.bytes ∧ style.quotes change.name.bytes then
      fromUtf8Lossy (style.readName source.bytes ++ utf8 "\" -> \"".toList ++
        style.readName change.name.bytes)
    else trim (fromUtf8Lossy (change.names quotePath))

/-- A name on its own that is read right: without quotes it has no blank at its ends. -/
structure ShowsName (quotePath : Bool) (change : WorkingChange) : Prop where
  alone : change.source = none
  unquoted : (porcelainStyle quotePath).quotes change.name.bytes = false →
    trim change.path = change.path
  quoted : (porcelainStyle quotePath).quotes change.name.bytes = true →
    ReadsQuoted (porcelainStyle quotePath) change.name.bytes

/-- The change shows its name alone and as it is, or neither its path nor the text in its
place is that of a file below the workspace. -/
def ColoredRight (quotePath : Bool) (prefixTrim : String) (change : WorkingChange) : Prop :=
  ShowsName quotePath change ∨
    ∀ rel, ¬BelowWorkspace prefixTrim change.path rel ∧
      ¬BelowWorkspace prefixTrim (change.shownPath quotePath) rel

theorem head?_dropWhile_blank (chars : List Char) :
    (chars.dropWhile isWhitespace).head? = chars.find? fun c => !isWhitespace c := by
  induction chars with
  | nil => rfl
  | cons c chars ih =>
    cases hc : isWhitespace c with
    | true => rw [List.dropWhile_cons_of_pos hc, ih, List.find?_cons, hc, Bool.not_true]
    | false =>
      rw [List.dropWhile_cons_of_neg (by simp [hc]), List.find?_cons, hc, Bool.not_false,
        List.head?_cons]

theorem head?_trim {text : String} {c : Char} (h : (trim text).toList.head? = some c) :
    text.toList.find? (fun c => !isWhitespace c) = some c := by
  rw [trim_eq, String.toList_ofList] at h
  rw [← head?_dropWhile_blank]
  obtain ⟨rest, hrest⟩ := List.head?_eq_some_iff.mp h
  obtain ⟨more, hmore⟩ := List.rdropWhile_prefix isWhitespace
    (l := text.toList.dropWhile isWhitespace)
  rw [← hmore, hrest, List.cons_append, List.head?_cons]

theorem getLast?_trim {text : String} {c : Char} (h : (trim text).toList.getLast? = some c) :
    text.toList.reverse.find? (fun c => !isWhitespace c) = some c := by
  rw [trim_eq, String.toList_ofList, List.rdropWhile, List.getLast?_reverse,
    head?_dropWhile_blank] at h
  have hprefix : (text.toList.dropWhile isWhitespace).reverse <+: text.toList.reverse :=
    List.reverse_prefix.mpr (List.dropWhile_suffix _)
  exact hprefix.find?_eq_some h

/-- A character that is first of those that are not blank is not behind one of these. -/
theorem mem_of_find? {before after : List Char} {c d : Char} (hd : isWhitespace d = false)
    (h : (before ++ d :: after).find? (fun c => !isWhitespace c) = some c) :
    c ∈ before ∨ c = d := by
  rw [List.find?_append, List.find?_cons, hd, Bool.not_false] at h
  cases hfound : before.find? (fun c => !isWhitespace c) with
  | none =>
    rw [hfound, Option.none_or] at h
    exact .inr (Option.some.inj h).symm
  | some e =>
    rw [hfound, Option.some_or] at h
    exact .inl (Option.some.inj h ▸ List.mem_of_find?_eq_some hfound)

theorem countP_dropWhile {p blank : Char → Bool} (hp : ∀ c, blank c = true → p c = false)
    (chars : List Char) : (chars.dropWhile blank).countP p = chars.countP p := by
  induction chars with
  | nil => rfl
  | cons c chars ih =>
    cases hc : blank c with
    | true =>
      rw [List.dropWhile_cons_of_pos hc, ih, List.countP_cons_of_neg (by simp [hp c hc])]
    | false => rw [List.dropWhile_cons_of_neg (by simp [hc])]

theorem countP_trim {p : Char → Bool} (hp : ∀ c, isWhitespace c = true → p c = false)
    (text : String) : (trim text).toList.countP p = text.toList.countP p := by
  rw [trim_eq, String.toList_ofList, List.rdropWhile, List.countP_reverse,
    countP_dropWhile hp, List.countP_reverse, countP_dropWhile hp]

theorem mem_of_mem_trim {text : String} {c : Char} (h : c ∈ (trim text).toList) :
    c ∈ text.toList := by
  rw [trim_eq, String.toList_ofList] at h
  exact (List.dropWhile_suffix _).subset ((List.rdropWhile_prefix _ _).subset h)

theorem printed_control {style : QuoteStyle} {path : List UInt8} :
    ∀ byte ∈ style.printed path, 0x20 ≤ byte.toNat := by
  have hgraphic {byte : UInt8} : ∀ other ∈ utf8 (escapeByte byte), 0x20 ≤ other.toNat := by
    intro other hother
    obtain ⟨c, hc, hmem⟩ := List.mem_flatMap.mp hother
    have hc := isGraphic_escapeByte hc
    rw [(utf8EncodeChar_ascii hc.utf8Size).1, List.mem_singleton] at hmem
    rw [hmem]
    have hbyte : c.toUInt8.toNat = c.toNat % 256 := rfl
    have hlow := hc.1
    have hhigh := hc.2
    omega
  have hraw {byte : UInt8} (h : style.isRaw byte = true) : 0x20 ≤ byte.toNat := by
    rw [QuoteStyle.isRaw, Bool.or_eq_true] at h
    rcases h with hplain | hhigh
    · have hchar := (isGraphic_plain hplain).1
      rwa [toNat_byteChar] at hchar
    · rw [Bool.and_eq_true, decide_eq_true_eq] at hhigh
      exact le_trans (by decide) (UInt8.le_iff_toNat_le.mp hhigh.2)
  intro byte hbyte
  unfold QuoteStyle.printed at hbyte
  split at hbyte
  · simp only [List.cons_append, List.mem_cons, List.mem_append, List.mem_flatMap,
      List.not_mem_nil, or_false] at hbyte
    rcases hbyte with rfl | ⟨other, -, hbyte⟩ | rfl
    · decide
    · unfold QuoteStyle.quotedByte at hbyte
      split at hbyte
      · next h => exact List.mem_singleton.mp hbyte ▸ hraw h
      · exact hgraphic byte hbyte
    · decide
  · next hquotes =>
      have hquotes := Bool.eq_false_iff.mpr hquotes
      rw [QuoteStyle.quotes, Bool.or_eq_false_iff, Bool.not_eq_false', List.all_eq_true] at hquotes
      exact hraw (hquotes.1 byte hbyte)

theorem line_control (quotePath : Bool) {change : WorkingChange} :
    ∀ byte ∈ change.line quotePath, 0x20 ≤ byte.toNat := by
  have hcode (code : PorcelainCode) : ∀ byte ∈ utf8 [code.char], 0x20 ≤ byte.toNat := by
    cases code <;> exact forall_mem_of_all (by decide)
  unfold WorkingChange.line WorkingChange.names WorkingChange.xy
  rw [List.forall_mem_append]
  constructor
  · have hfront : utf8 ([change.x.char, change.y.char] ++ [' ']) =
        utf8 [change.x.char] ++ (utf8 [change.y.char] ++ utf8 [' ']) := by
      rw [← utf8_append, ← utf8_append]
      rfl
    rw [hfront, List.forall_mem_append, List.forall_mem_append]
    exact ⟨hcode change.x, hcode change.y, forall_mem_of_all (by decide)⟩
  · dsimp only
    split
    · exact printed_control
    · rw [List.forall_mem_append, List.forall_mem_append]
      exact ⟨⟨printed_control, forall_mem_of_all (by decide)⟩, printed_control⟩

theorem lossyChars_control {bytes : List UInt8} (h : ∀ byte ∈ bytes, 0x20 ≤ byte.toNat) {c : Char}
    (hc : c ∈ lossyChars bytes) : 0x20 ≤ c.toNat := by
  by_contra hlow
  have hbyte : c.toUInt8.toNat = c.toNat := by
    have hmod : c.toUInt8.toNat = c.toNat % 256 := rfl
    omega
  have hmem : c.toUInt8 ∈ bytes := by
    apply mem_of_mem_fromUtf8Lossy
    · apply UInt8.lt_iff_toNat_lt.mpr
      have hlimit : (0x80 : UInt8).toNat = 0x80 := rfl
      omega
    · rw [hbyte, Char.ofNat_toNat, toList_fromUtf8Lossy]
      exact hc
  have hge := h _ hmem
  omega

theorem PorcelainCode.utf8Size_char (code : PorcelainCode) : code.char.utf8Size = 1 := by
  cases code <;> rfl

theorem byteLength_xy (change : WorkingChange) : byteLength change.xy = 2 := by
  simp [WorkingChange.xy, change.x.utf8Size_char, change.y.utf8Size_char]

section Line

variable {quotePath : Bool} {change : WorkingChange}

theorem names_control : ∀ byte ∈ change.names quotePath, 0x20 ≤ byte.toNat :=
  fun byte hbyte => line_control quotePath byte (List.mem_append_right _ hbyte)

theorem not_mem_names {c : Char} (hc : c.toNat < 0x20) :
    c ∉ lossyChars (change.names quotePath) :=
  fun hmem => absurd (lossyChars_control names_control hmem) (Nat.not_le.mpr hc)

theorem readLineText_line : (readLineText (change.line quotePath)).toList =
    change.xy ++ ' ' :: lossyChars (change.names quotePath) := by
  have hcontrol (code : PorcelainCode) : '\r' ≠ code.char := by cases code <;> decide
  have hfront : '\r' ∉ change.xy ++ [' '] := by
    simp [WorkingChange.xy, hcontrol]
  have hnames : (readLineText (change.names quotePath)).toList =
      lossyChars (change.names quotePath) := by
    rw [readLineText, dropCr_eq_self.mpr, toList_fromUtf8Lossy]
    rw [toList_fromUtf8Lossy]
    exact fun hlast => not_mem_names (by decide) (List.mem_of_getLast? hlast)
  rw [WorkingChange.line, readLineText_append hfront, hnames, List.append_assoc,
    List.singleton_append]

/-- What a line gives: the text in place of the names is trimmed and has its quotes taken
away. -/
theorem statusEntry_line (prefixTrim : String) :
    statusEntry prefixTrim (readLineText (change.line quotePath)) =
      some (if trim (fromUtf8Lossy (change.names quotePath)) = "" then none
        else (adjustGitPath (unquoteGitPath (trim (fromUtf8Lossy (change.names quotePath))))
          prefixTrim).map (·, parsePorcelainStatus (String.ofList change.xy))) := by
  have hxy := byteLength_xy change
  have hthree : byteLength (change.xy ++ [' ']) = 3 := by
    rw [byteLength_append, hxy]
    rfl
  have htwo := splitAtByte_append change.xy (' ' :: lossyChars (change.names quotePath))
  have hrest := splitAtByte_append (change.xy ++ [' ']) (lossyChars (change.names quotePath))
  rw [hxy] at htwo
  rw [hthree, List.append_assoc, List.singleton_append] at hrest
  have hlong : ¬byteLength (change.xy ++ ' ' :: lossyChars (change.names quotePath)) < 3 := by
    rw [byteLength_append, byteLength_cons, hxy]
    have hblank : ' '.utf8Size = 1 := rfl
    omega
  have htab (text : String) (h : '\t' ∉ text.toList) :
      String.ofList ((trim text).toList.takeWhile (· ≠ '\t')) = trim text := by
    rw [List.takeWhile_eq_self_iff.mpr, String.ofList_toList]
    intro c hc
    exact decide_eq_true fun heq => h (heq ▸ mem_of_mem_trim hc)
  have hread : String.ofList (lossyChars (change.names quotePath)) =
      fromUtf8Lossy (change.names quotePath) := by
    rw [← toList_fromUtf8Lossy, String.ofList_toList]
  have hnames : '\t' ∉ (fromUtf8Lossy (change.names quotePath)).toList := by
    rw [toList_fromUtf8Lossy]
    exact not_mem_names (by decide)
  rw [statusEntry, readLineText_line, if_neg hlong, htwo, hrest]
  simp only [Option.bind_eq_bind, Option.bind_some, hread, htab _ hnames]
  split <;> rfl

end Line

theorem unquoteGitPath_of_ends {path : String}
    (h : path.toList.head? ≠ some (Char.ofNat 0x22) ∨
      path.toList.getLast? ≠ some (Char.ofNat 0x22)) : unquoteGitPath path = path := by
  rw [unquoteGitPath, if_pos (.inr h)]

theorem lossyChars_between {front : List Char} (hne : front ≠ []) (bytes rest : List UInt8) :
    lossyChars (bytes ++ utf8 front ++ rest) = lossyChars bytes ++ front ++ lossyChars rest := by
  have hboundary : IsBoundary bytes (utf8 front ++ rest) :=
    (isBoundary_of_head isTail_utf8 bytes).append (utf8_ne_nil hne) rest
  rw [List.append_assoc, hboundary.lossyChars_append, lossyChars_utf8_append, List.append_assoc]

theorem lossyChars_arrow (bytes rest : List UInt8) :
    lossyChars (bytes ++ utf8 arrow ++ rest) =
      lossyChars bytes ++ [' ', '-', '>', ' '] ++ lossyChars rest :=
  lossyChars_between (List.cons_ne_nil _ _) bytes rest

section Shown

variable {quotePath : Bool} {style : QuoteStyle}

/-- The characters of a printed name start and end with quotes, or there are none in them. -/
theorem quote_not_mem_printed {path : List UInt8} (h : style.quotes path = false) :
    Char.ofNat 0x22 ∉ lossyChars (style.printed path) := by
  rw [QuoteStyle.printed, h, if_neg Bool.false_ne_true]
  exact quote_not_mem h

theorem trim_printed {path : List UInt8} (h : style.quotes path = true) :
    trim (fromUtf8Lossy (style.printed path)) = fromUtf8Lossy (style.printed path) := by
  have hchars : fromUtf8Lossy (style.printed path) =
      String.ofList (Char.ofNat 0x22 :: style.shown path ++ [Char.ofNat 0x22]) := by
    rw [← lossyChars_printed h, ← toList_fromUtf8Lossy, String.ofList_toList]
  rw [hchars]
  apply trim_ofList
  · rintro _ ⟨⟩
    rfl
  · intro c hc
    rw [List.getLast?_concat] at hc
    obtain rfl := Option.some.inj hc
    rfl

theorem unquoteGitPath_arrow {source path : List UInt8} (hsource : style.quotes source = true)
    (hpath : style.quotes path = true) :
    unquoteGitPath (trim (fromUtf8Lossy
        (style.printed source ++ utf8 arrow ++ style.printed path))) =
      fromUtf8Lossy (style.readName source ++ utf8 "\" -> \"".toList ++ style.readName path) := by
  obtain ⟨inner, hinner⟩ : ∃ inner, style.shown source ++
      ([Char.ofNat 0x22, ' ', '-', '>', ' ', Char.ofNat 0x22] ++ style.shown path) = inner :=
    ⟨_, rfl⟩
  have hchars : fromUtf8Lossy (style.printed source ++ utf8 arrow ++ style.printed path) =
      String.ofList (Char.ofNat 0x22 :: inner ++ [Char.ofNat 0x22]) := by
    rw [← String.toList_inj, toList_fromUtf8Lossy, lossyChars_arrow, lossyChars_printed hsource,
      lossyChars_printed hpath, String.toList_ofList, ← hinner]
    simp
  have htrim : trim (String.ofList (Char.ofNat 0x22 :: inner ++ [Char.ofNat 0x22])) =
      String.ofList (Char.ofNat 0x22 :: inner ++ [Char.ofNat 0x22]) := by
    apply trim_ofList
    · rintro _ ⟨⟩
      rfl
    · intro c hc
      rw [List.getLast?_concat] at hc
      obtain rfl := Option.some.inj hc
      rfl
  have hgo := go_shown style path []
  rw [List.append_nil, unquoteGitPath.go, List.append_nil] at hgo
  have hdrop : ((Char.ofNat 0x22 :: inner ++ [Char.ofNat 0x22]).drop 1).dropLast = inner := by
    simp
  have hread : unquoteGitPath.go 0 inner =
      style.readName source ++ utf8 "\" -> \"".toList ++ style.readName path := by
    rw [← hinner, go_shown, List.append_assoc]
    apply congrArg (style.readName source ++ ·)
    simp only [List.cons_append, List.nil_append]
    rw [go_raw (by decide), go_raw (by decide), go_raw (by decide), go_raw (by decide),
      go_raw (by decide), go_raw (by decide), hgo]
    rfl
  rw [hchars, htrim, unquoteGitPath, String.toList_ofList, hdrop, hread, if_neg]
  rintro (hshort | hhead | hlast)
  · simp at hshort
  · exact hhead rfl
  · exact hlast List.getLast?_concat

theorem unquoteGitPath_arrow_of_unquoted {source path : List UInt8}
    (h : style.quotes source = false ∨ style.quotes path = false) :
    unquoteGitPath (trim (fromUtf8Lossy
        (style.printed source ++ utf8 arrow ++ style.printed path))) =
      trim (fromUtf8Lossy (style.printed source ++ utf8 arrow ++ style.printed path)) := by
  have hchars : (fromUtf8Lossy (style.printed source ++ utf8 arrow ++ style.printed path)).toList =
      lossyChars (style.printed source) ++ [' ', '-', '>', ' '] ++
        lossyChars (style.printed path) := by
    rw [toList_fromUtf8Lossy, lossyChars_arrow]
  apply unquoteGitPath_of_ends
  rcases h with hsource | hpath
  · left
    intro hhead
    have hfound := head?_trim hhead
    rw [hchars] at hfound
    have hfront : lossyChars (style.printed source) ++ [' ', '-', '>', ' '] ++
        lossyChars (style.printed path) = (lossyChars (style.printed source) ++ [' ']) ++
          '-' :: ('>' :: ' ' :: lossyChars (style.printed path)) := by simp
    rw [hfront] at hfound
    rcases mem_of_find? (by decide) hfound with hmem | heq
    · rcases List.mem_append.mp hmem with hmem | hblank
      · exact quote_not_mem_printed hsource hmem
      · exact absurd (List.mem_singleton.mp hblank) (by decide)
    · exact absurd heq (by decide)
  · right
    intro hlast
    have hfound := getLast?_trim hlast
    rw [hchars] at hfound
    have hback : (lossyChars (style.printed source) ++ [' ', '-', '>', ' '] ++
        lossyChars (style.printed path)).reverse =
          ((lossyChars (style.printed path)).reverse ++ [' ']) ++
            '>' :: ('-' :: ' ' :: (lossyChars (style.printed source)).reverse) := by simp
    rw [hback] at hfound
    rcases mem_of_find? (by decide) hfound with hmem | heq
    · rcases List.mem_append.mp hmem with hmem | hblank
      · exact quote_not_mem_printed hpath (List.mem_reverse.mp hmem)
      · exact absurd (List.mem_singleton.mp hblank) (by decide)
    · exact absurd heq (by decide)

theorem unquoteGitPath_names (quotePath : Bool) (change : WorkingChange) :
    unquoteGitPath (trim (fromUtf8Lossy (change.names quotePath))) =
      change.shownPath quotePath := by
  unfold WorkingChange.shownPath WorkingChange.names
  dsimp only
  cases change.source with
  | none =>
    dsimp only
    cases hquotes : (porcelainStyle quotePath).quotes change.name.bytes with
    | true => rw [if_pos rfl, trim_printed hquotes, unquoteGitPath_quoted hquotes]
    | false =>
      rw [if_neg Bool.false_ne_true, QuoteStyle.printed, hquotes, if_neg Bool.false_ne_true]
      apply unquoteGitPath_of_head
      intro hhead
      apply quote_not_mem hquotes
      rw [← toList_fromUtf8Lossy]
      exact mem_of_mem_trim (List.mem_of_mem_head? hhead)
  | some source =>
    dsimp only
    split
    · next h => exact unquoteGitPath_arrow h.1 h.2
    · next h =>
        apply unquoteGitPath_arrow_of_unquoted
        rw [not_and_or, Bool.not_eq_true, Bool.not_eq_true] at h
        exact h

end Shown

theorem belowWorkspace_inj {prefixTrim path path' rel : String}
    (h : BelowWorkspace prefixTrim path rel) (h' : BelowWorkspace prefixTrim path' rel) : path = path' := by
  obtain ⟨-, ⟨hroot, rfl⟩ | ⟨hdir, rfl⟩⟩ := h
  · obtain ⟨-, ⟨-, rfl⟩ | ⟨hdir, -⟩⟩ := h'
    · rfl
    · exact absurd hroot hdir
  · obtain ⟨-, ⟨hroot, -⟩ | ⟨-, rfl⟩⟩ := h'
    · exact absurd hroot hdir
    · rfl

theorem stripPrefix_eq_some {pre text rest : String} :
    stripPrefix pre text = some rest ↔ text = pre ++ rest := by
  constructor
  · intro h
    rw [stripPrefix] at h
    split at h
    · next hpre =>
        obtain ⟨more, hmore⟩ := List.isPrefixOf_iff_prefix.mp hpre
        obtain rfl := Option.some.inj h
        rw [← String.toList_inj, String.toList_append, String.toList_ofList, ← hmore,
          ← String.length_toList, List.drop_left]
    · cases h
  · rintro rfl
    exact stripPrefix_append pre rest

theorem adjustGitPath_eq_some {prefixTrim path rel : String} (hrel : rel ≠ "") :
    adjustGitPath path prefixTrim = some rel ↔ BelowWorkspace prefixTrim path rel := by
  unfold adjustGitPath BelowWorkspace
  by_cases hroot : prefixTrim = ""
  · simp [hroot, hrel]
  · rw [if_neg hroot]
    cases hstrip : stripPrefix (prefixTrim ++ "/") path with
    | some stripped =>
      have hpath := stripPrefix_eq_some.mp hstrip
      simp [hroot, hrel, hpath]
    | none =>
      have hpath : path ≠ prefixTrim ++ "/" ++ rel := by
        intro heq
        rw [stripPrefix_eq_some.mpr heq] at hstrip
        cases hstrip
      simp only [hroot, hpath]
      by_cases hself : path = prefixTrim
      · simp [hself, Ne.symm hrel]
      · simp [hself]

theorem statusEntry_shown (quotePath : Bool) (prefixTrim : String) (change : WorkingChange) :
    ∃ entry, statusEntry prefixTrim (readLineText (change.line quotePath)) = some entry ∧
      ∀ rel status, rel ≠ "" → (entry = some (rel, status) ↔
        BelowWorkspace prefixTrim (change.shownPath quotePath) rel ∧
          status = parsePorcelainStatus (String.ofList change.xy)) := by
  refine ⟨_, statusEntry_line prefixTrim, fun rel status hrel => ?_⟩
  have hnames := unquoteGitPath_names quotePath change
  split
  · next hempty =>
      rw [hempty, unquoteGitPath_of_head (by simp)] at hnames
      rw [← hnames]
      have hnone : ¬BelowWorkspace prefixTrim "" rel := by
        rintro ⟨-, ⟨-, heq⟩ | ⟨-, heq⟩⟩
        · exact hrel heq.symm
        · have hchars := congrArg String.toList heq
          simp at hchars
      simp [hnone]
  · rw [hnames]
    cases hadjust : adjustGitPath (change.shownPath quotePath) prefixTrim with
    | none =>
      have hnone : ¬BelowWorkspace prefixTrim (change.shownPath quotePath) rel := by
        rw [← adjustGitPath_eq_some hrel, hadjust]
        simp
      simp [hnone]
    | some path =>
      rw [← adjustGitPath_eq_some hrel, hadjust]
      simp [eq_comm]

/-- A character that is printed and not blank. -/
def isSolid (c : Char) : Bool := 0x21 ≤ c.toNat && c.toNat < 0x7f

theorem isSolid_ascii (c : Char) (h : isSolid c = true) : c.toNat < 0x80 := by
  rw [isSolid, Bool.and_eq_true, decide_eq_true_eq, decide_eq_true_eq] at h
  omega

theorem isSolid_blank (c : Char) (h : isWhitespace c = true) : isSolid c = false := by
  simp only [isWhitespace, Bool.or_eq_true, Bool.and_eq_true, decide_eq_true_eq, beq_iff_eq] at h
  simp only [isSolid, Bool.and_eq_false_iff, decide_eq_false_iff_not]
  omega

theorem countP_solid (bytes : List UInt8) :
    (lossyChars bytes).countP isSolid = bytes.countP (byteIs isSolid) :=
  countP_lossyChars isSolid_ascii bytes

theorem countP_quotedByte (style : QuoteStyle) (byte : UInt8) :
    [byte].countP (byteIs isSolid) ≤ (style.quotedByte byte).countP (byteIs isSolid) := by
  unfold QuoteStyle.quotedByte
  split
  · exact le_rfl
  · next hraw =>
      have hplain : ¬isPlain byte = true := by
        rw [QuoteStyle.isRaw, Bool.or_eq_true, not_or] at hraw
        exact hraw.1
      have hslash : ∃ rest, escapeByte byte = '\\' :: rest := by
        rw [escapeByte, if_neg hplain]
        split_ifs <;> exact ⟨_, rfl⟩
      obtain ⟨rest, hescape⟩ := hslash
      have hback : 0 < (utf8 (escapeByte byte)).countP (byteIs isSolid) := by
        refine List.countP_pos_iff.mpr ⟨0x5c, ?_, rfl⟩
        rw [hescape, utf8_cons]
        exact List.mem_append_left _ (by decide)
      have hone : [byte].countP (byteIs isSolid) ≤ 1 := List.countP_le_length
      omega

theorem countP_printed (style : QuoteStyle) (path : List UInt8) :
    path.countP (byteIs isSolid) ≤ (style.printed path).countP (byteIs isSolid) := by
  unfold QuoteStyle.printed
  split
  · have hle := countP_le_flatMap (countP_quotedByte style) path
    rw [List.cons_append, List.countP_cons, List.countP_append]
    omega
  · exact le_rfl

theorem shownPath_ne_of_source {quotePath : Bool} {change : WorkingChange}
    (h : change.source.isSome) : change.shownPath quotePath ≠ change.path := by
  obtain ⟨source, hsource⟩ := Option.isSome_iff_exists.mp h
  intro heq
  have hcount := congrArg (fun text : String => text.toList.countP isSolid) heq
  have hprinted := countP_printed (porcelainStyle quotePath) change.name.bytes
  have hread := countP_readName isSolid_ascii rfl (porcelainStyle quotePath) change.name.bytes
  have harrow : (utf8 arrow).countP (byteIs isSolid) = 2 := by decide
  have hquoted : (utf8 "\" -> \"".toList).countP (byteIs isSolid) = 4 := by decide
  simp only [WorkingChange.shownPath, hsource, WorkingChange.path, toList_fromUtf8Lossy,
    countP_solid] at hcount
  split at hcount
  · rw [toList_fromUtf8Lossy, countP_solid, List.countP_append, List.countP_append,
      hquoted] at hcount
    omega
  · rw [countP_trim isSolid_blank, toList_fromUtf8Lossy, countP_solid, WorkingChange.names,
      hsource] at hcount
    simp only [List.countP_append, harrow] at hcount
    omega

theorem shownPath_eq_iff (quotePath : Bool) (change : WorkingChange) :
    change.shownPath quotePath = change.path ↔ ShowsName quotePath change := by
  cases hsource : change.source with
  | some source =>
    refine iff_of_false (shownPath_ne_of_source (by rw [hsource]; rfl)) fun h => ?_
    rw [h.alone] at hsource
    cases hsource
  | none =>
    rw [WorkingChange.shownPath, hsource]
    dsimp only
    cases hquotes : (porcelainStyle quotePath).quotes change.name.bytes with
    | true =>
      rw [if_pos rfl, WorkingChange.path, fromUtf8Lossy_inj, lossyChars_readName_iff]
      constructor
      · intro h
        exact ⟨hsource, fun hoff => absurd (hquotes.symm.trans hoff) Bool.noConfusion,
          fun _ => h⟩
      · exact fun h => h.quoted hquotes
    | false =>
      rw [if_neg Bool.false_ne_true]
      constructor
      · intro h
        exact ⟨hsource, fun _ => h,
          fun hon => absurd (hquotes.symm.trans hon) Bool.noConfusion⟩
      · exact fun h => h.unquoted hquotes

theorem statusEntry_colorsCurrent (quotePath : Bool) (prefixTrim : String)
    (change : WorkingChange) :
    ∃ entry, statusEntry prefixTrim (readLineText (change.line quotePath)) = some entry ∧
      (ColorsCurrent prefixTrim change entry ↔ ColoredRight quotePath prefixTrim change) := by
  obtain ⟨entry, hentry, hshown⟩ := statusEntry_shown quotePath prefixTrim change
  refine ⟨entry, hentry, ?_⟩
  constructor
  · intro h
    have hsame (rel : String) : BelowWorkspace prefixTrim (change.shownPath quotePath) rel ↔
        BelowWorkspace prefixTrim change.path rel := by
      by_cases hrel : rel = ""
      · exact iff_of_false (fun hbelow => hbelow.1 hrel) fun hbelow => hbelow.1 hrel
      · have hcurrent := h rel (parsePorcelainStatus (String.ofList change.xy)) hrel
        rw [hshown rel _ hrel] at hcurrent
        simpa using hcurrent
    by_cases hinside : ∃ rel, BelowWorkspace prefixTrim change.path rel
    · obtain ⟨rel, hrel⟩ := hinside
      exact .inl ((shownPath_eq_iff _ _).mp (belowWorkspace_inj ((hsame rel).mpr hrel) hrel))
    · rw [not_exists] at hinside
      exact .inr fun rel => ⟨hinside rel, fun hrel => hinside rel ((hsame rel).mp hrel)⟩
  · rintro (hname | houtside) rel status hrel
    · rw [hshown rel status hrel, (shownPath_eq_iff _ _).mpr hname]
    · rw [hshown rel status hrel]
      exact iff_of_false (fun h => (houtside rel).2 h.1) fun h => (houtside rel).1 h.1

theorem mapM_statusEntry (quotePath : Bool) (prefixTrim : String) (changes : List WorkingChange) :
    ∃ entries, ((changes.map (WorkingChange.line quotePath)).map readLineText).mapM
        (statusEntry prefixTrim) = some entries ∧
      (List.Forall₂ (ColorsCurrent prefixTrim) changes entries ↔
        ∀ change ∈ changes, ColoredRight quotePath prefixTrim change) := by
  induction changes with
  | nil => exact ⟨[], rfl, by simp⟩
  | cons change changes ih =>
    obtain ⟨entry, hentry, hright⟩ := statusEntry_colorsCurrent quotePath prefixTrim change
    obtain ⟨entries, hentries, hall⟩ := ih
    refine ⟨entry :: entries, ?_, ?_⟩
    · rw [List.map_cons, List.map_cons, List.mapM_cons, hentry, hentries]
      rfl
    · rw [List.forall₂_cons, hright, hall, List.forall_mem_cons]

/-- Each change gives its status to its current path below the workspace, or to none if that
is elsewhere, just where all changes are colored right. No slice of a line fails. -/
theorem collectGitStatus_iff (quotePath : Bool) (prefixTrim : String)
    (changes : List WorkingChange) :
    ∃ entries, (lines (fromUtf8Lossy (porcelainStatus quotePath changes))).mapM
        (statusEntry prefixTrim) = some entries ∧
      collectGitStatus prefixTrim (fromUtf8Lossy (porcelainStatus quotePath changes)) =
        some (statusColors entries.reduceOption) ∧
      (List.Forall₂ (ColorsCurrent prefixTrim) changes entries ↔
        ∀ change ∈ changes, ColoredRight quotePath prefixTrim change) := by
  have hfeed : ∀ line ∈ changes.map (WorkingChange.line quotePath), 0x0a ∉ line := by
    intro line hline hmem
    obtain ⟨change, -, rfl⟩ := List.mem_map.mp hline
    exact absurd (line_control _ _ hmem) (by decide)
  obtain ⟨entries, hentries, hall⟩ := mapM_statusEntry quotePath prefixTrim changes
  rw [← lines_endedLines hfeed] at hentries
  refine ⟨entries, hentries, ?_, hall⟩
  rw [collectGitStatus, porcelainStatus, hentries]
  rfl

def oldName : GitName := ⟨[0x61], by decide, by decide, by decide⟩

def newName : GitName := ⟨[0x62], by decide, by decide, by decide⟩

def renamedFile : WorkingChange := ⟨.renamed, .unmodified, newName, some oldName, by decide⟩

/-- Both names are colored as one. -/
theorem collectGitStatus_renamed :
    renamedFile.line true = utf8 "R  a -> b".toList ∧
      statusEntry "" "R  a -> b" = some (some ("a -> b", "modified")) ∧
      ¬ColorsCurrent "" renamedFile (some ("a -> b", "modified")) := by
  refine ⟨by decide +kernel, by decide +kernel, fun h => ?_⟩
  have hentry := (h "b" "modified" (by decide)).mpr
    ⟨⟨by decide, .inl ⟨rfl, by decide +kernel⟩⟩, by decide +kernel⟩
  exact absurd hentry (by decide)

end HerdrWebui.Files
