import HerdrWebui.Git.DiffNumbers
import HerdrWebui.Git.LogGraph

/-!
The authors of the lines of a file, read from a blame in the porcelain format. Each line of the
file has a record: a header with the name of the commit and the number of the line, what is known
of the commit, and the text of the line behind a tab.
-/

namespace HerdrWebui.Git

/-- The number of the line that a header names, if the line is one. -/
def blameHeader (chars : List Char) : Option Nat :=
  if 41 < chars.length ∧ (chars.take 40).all isHexDigit ∧ chars[40]? = some ' ' then
    match splitWhitespace (String.ofList (chars.drop 41)) with
    | orig :: final :: _ =>
      let number := final.toList.takeWhile Char.isDigit
      if orig.toList.all Char.isDigit ∧ number ≠ [] then
        some ((parseUsize (String.ofList number)).getD 0)
      else none
    | _ => none
  else none

/-- The line at hand, and the authors by line: of two of one line the last counts. -/
abbrev BlameState := Nat × List (Nat × String)

def blameLine (state : BlameState) (line : String) : BlameState :=
  match blameHeader line.toList with
  | some finalLine => (finalLine, state.2)
  | none =>
    match stripPrefix "author " line with
    | some name => if 0 < state.1 then (state.1, (state.1, trim name) :: state.2) else state
    | none => state

def parseBlameAuthors (text : String) : List (Nat × String) :=
  ((lines text).foldl blameLine (0, [])).2

/-- How the objects of a repository are named. -/
inductive ObjectFormat where
  | sha1
  | sha256
  deriving DecidableEq

def ObjectFormat.digits : ObjectFormat → Nat
  | .sha1 => 40
  | .sha256 => 64

/-- What else stands in a record. -/
inductive BlameTag where
  | authorMail
  | authorTime
  | authorTz
  | committer
  | committerMail
  | committerTime
  | committerTz
  | summary
  | previous
  | boundary
  | filename
  deriving DecidableEq

def BlameTag.word : BlameTag → String
  | .authorMail => "author-mail"
  | .authorTime => "author-time"
  | .authorTz => "author-tz"
  | .committer => "committer"
  | .committerMail => "committer-mail"
  | .committerTime => "committer-time"
  | .committerTz => "committer-tz"
  | .summary => "summary"
  | .previous => "previous"
  | .boundary => "boundary"
  | .filename => "filename"

structure BlameField where
  tag : BlameTag
  value : String
  noFeed : '\n' ∉ value.toList

/-- A boundary is marked by its word alone. -/
def BlameField.line (field : BlameField) : String :=
  if field.tag = .boundary then field.tag.word else field.tag.word ++ (" " ++ field.value)

/-- The record of one line; `group` is the number of lines that come from one place, where they
begin. -/
structure BlameRecord (format : ObjectFormat) where
  object : List Char
  orig : Nat
  group : Option Nat
  author : String
  fields : List BlameField
  content : String
  objectDigits : object.length = format.digits
  objectHex : ∀ c ∈ object, isHexDigit c = true
  authorNoFeed : '\n' ∉ author.toList
  contentNoFeed : '\n' ∉ content.toList

def BlameRecord.header {format : ObjectFormat} (record : BlameRecord format) (final : Nat) :
    List Char :=
  record.object ++ ' ' :: (Nat.toDigits 10 record.orig ++ ' ' :: (Nat.toDigits 10 final ++
    match record.group with
    | none => []
    | some group => ' ' :: Nat.toDigits 10 group))

def BlameRecord.lines {format : ObjectFormat} (record : BlameRecord format) (final : Nat) :
    List String :=
  String.ofList (record.header final) :: ("author " ++ record.author) ::
    record.fields.map BlameField.line ++ ["\t" ++ record.content]

/-- The lines of the file from a number on. -/
def blameLines {format : ObjectFormat} (final : Nat) : List (BlameRecord format) → List String
  | [] => []
  | record :: records => record.lines final ++ blameLines (final + 1) records

def blameText {format : ObjectFormat} (records : List (BlameRecord format)) : String :=
  String.join ((blameLines 1 records).map (· ++ "\n"))

theorem blameHeader_eq_none {chars : List Char} (n : Nat) (hn : n < 40)
    (h : ∀ c ∈ chars[n]?, isHexDigit c = false) : blameHeader chars = none := by
  unfold blameHeader
  rw [if_neg]
  rintro ⟨hlong, hhex, _⟩
  have hget : chars[n]? = some chars[n] := List.getElem?_eq_getElem (by omega)
  have htake : (chars.take 40)[n]? = some chars[n] := by rw [List.getElem?_take_of_lt hn, hget]
  have hdigit := List.all_eq_true.mp hhex _ (List.mem_of_getElem? htake)
  rw [h _ hget] at hdigit
  cases hdigit

theorem blameLine_other {chars : List Char} (hheader : blameHeader chars = none)
    (hauthor : ¬"author ".toList <+: chars) (state : BlameState) :
    blameLine state (String.ofList chars) = state := by
  have hprefix : hasPrefix "author " (String.ofList chars) = false := by
    rw [hasPrefix, String.toList_ofList (l := chars), Bool.eq_false_iff]
    exact fun h => hauthor (List.isPrefixOf_iff_prefix.mp h)
  rw [blameLine, String.toList_ofList, hheader, stripPrefix, hprefix]
  rfl

theorem trim_dropCr (text : String) : trim (dropCr text) = trim text := by
  by_cases hlast : text.toList.getLast? = some '\r'
  · obtain ⟨chars, hchars⟩ := List.getLast?_eq_some_iff.mp hlast
    rw [dropCr, if_pos hlast, trim_eq, trim_eq, String.toList_ofList, hchars,
      List.dropLast_concat]
    congr 1
    rw [List.dropWhile_append]
    split
    · next hall =>
      rw [List.isEmpty_iff.mp hall]
      rfl
    · exact (List.rdropWhile_concat_pos isWhitespace _ '\r' (by decide)).symm
  · rw [dropCr_eq_self.mpr hlast]

theorem blameLine_author (state : BlameState) (name : String) :
    blameLine state (dropCr ("author " ++ name)) =
      if 0 < state.1 then (state.1, (state.1, trim name) :: state.2) else state := by
  have hauthor : Unbroken "author " := by decide
  have hheader : blameHeader ("author " ++ dropCr name).toList = none := by
    rw [String.toList_append]
    apply blameHeader_eq_none 1 (by decide)
    intro c hc
    cases hc
    decide
  rw [dropCr_append hauthor, blameLine, hheader, stripPrefix_append]
  simp only [trim_dropCr]

theorem blameLine_field (state : BlameState) (field : BlameField) :
    blameLine state (dropCr field.line) = state := by
  have hline : ∃ rest, dropCr field.line = String.ofList (field.tag.word.toList ++ rest) := by
    have hword : Unbroken field.tag.word := by cases field.tag <;> decide
    unfold BlameField.line
    split
    · exact ⟨[], by rw [hword.dropCr, List.append_nil, String.ofList_toList]⟩
    · refine ⟨(dropCr (" " ++ field.value)).toList, ?_⟩
      rw [dropCr_append hword, String.ofList_append, String.ofList_toList, String.ofList_toList]
  obtain ⟨rest, hrest⟩ := hline
  rw [hrest]
  apply blameLine_other
  · apply blameHeader_eq_none 1 (by decide)
    intro c hc
    cases htag : field.tag <;> rw [htag] at hc <;> cases hc <;> decide
  · cases htag : field.tag <;> simp [BlameTag.word]

theorem blameLine_fields (state : BlameState) (fields : List BlameField) :
    ((fields.map BlameField.line).map dropCr).foldl blameLine state = state := by
  induction fields with
  | nil => rfl
  | cons field fields ih =>
    rw [List.map_cons, List.map_cons, List.foldl_cons, blameLine_field, ih]

theorem blameLine_content (state : BlameState) (content : String) :
    blameLine state (dropCr ("\t" ++ content)) = state := by
  have htab : Unbroken "\t" := by decide
  have hline : dropCr ("\t" ++ content) = String.ofList ('\t' :: (dropCr content).toList) := by
    have hchars : "\t".toList = ['\t'] := rfl
    rw [dropCr_append htab, ← String.toList_inj, String.toList_append, hchars,
      String.toList_ofList (l := '\t' :: _)]
    exact List.singleton_append
  rw [hline]
  apply blameLine_other
  · apply blameHeader_eq_none 0 (by decide)
    intro c hc
    cases hc
    decide
  · simp

theorem splitWhitespace_word {word : List Char} (hword : ∀ c ∈ word, isWhitespace c = false)
    (hne : word ≠ []) : splitWhitespace (String.ofList word) = [String.ofList word] := by
  rw [splitWhitespace, String.toList_ofList, List.splitOnP_eq_singleton hword]
  simp [hne]

theorem isWhitespace_toDigits (n : Nat) : ∀ c ∈ Nat.toDigits 10 n, isWhitespace c = false :=
  fun _ hc => isWhitespace_digit (isDigit_toDigits hc)

theorem splitWhitespace_numbers (orig final : Nat) (group : Option Nat) :
    ∃ rest, splitWhitespace (String.ofList (Nat.toDigits 10 orig ++ ' ' ::
      (Nat.toDigits 10 final ++ match group with
        | none => []
        | some group => ' ' :: Nat.toDigits 10 group))) =
      String.ofList (Nat.toDigits 10 orig) :: String.ofList (Nat.toDigits 10 final) :: rest := by
  cases group with
  | none =>
    refine ⟨[], ?_⟩
    rw [splitWhitespace_cons (isWhitespace_toDigits orig) Nat.toDigits_ne_nil, List.append_nil,
      splitWhitespace_word (isWhitespace_toDigits final) Nat.toDigits_ne_nil]
  | some group =>
    refine ⟨splitWhitespace (String.ofList (Nat.toDigits 10 group)), ?_⟩
    rw [splitWhitespace_cons (isWhitespace_toDigits orig) Nat.toDigits_ne_nil,
      splitWhitespace_cons (isWhitespace_toDigits final) Nat.toDigits_ne_nil]

theorem unbroken_header {format : ObjectFormat} (record : BlameRecord format) (final : Nat) :
    Unbroken (String.ofList (record.header final)) := by
  have hchars : ∀ c ∈ record.header final, c = ' ' ∨ isHexDigit c = true := by
    have hdigits {n : Nat} {c : Char} (hc : c ∈ Nat.toDigits 10 n) : isHexDigit c = true := by
      have hdigit := isDigit_toDigits hc
      rw [Char.isDigit, Bool.and_eq_true, decide_eq_true_eq, decide_eq_true_eq] at hdigit
      simp only [isHexDigit, Bool.or_eq_true, Bool.and_eq_true, decide_eq_true_eq]
      exact .inl (.inl hdigit)
    intro c hc
    rw [BlameRecord.header] at hc
    simp only [List.mem_append, List.mem_cons] at hc
    rcases hc with hobject | rfl | horig | rfl | hfinal | hgroup
    · exact .inr (record.objectHex c hobject)
    · exact .inl rfl
    · exact .inr (hdigits horig)
    · exact .inl rfl
    · exact .inr (hdigits hfinal)
    · cases hcount : record.group with
      | none =>
        rw [hcount] at hgroup
        cases hgroup
      | some group =>
        rw [hcount] at hgroup
        exact (List.mem_cons.mp hgroup).imp id hdigits
  rw [Unbroken, String.toList_ofList]
  refine ⟨fun hmem => ?_, fun hmem => ?_⟩
  · exact absurd (hchars _ hmem) (by decide)
  · exact absurd (hchars _ hmem) (by decide)

theorem blameHeader_sha1 (record : BlameRecord .sha1) (final : Nat) :
    blameHeader (record.header final) = some (if final < 2 ^ 64 then final else 0) := by
  obtain ⟨rest, hnumbers⟩ := splitWhitespace_numbers record.orig final record.group
  generalize hback : (Nat.toDigits 10 record.orig ++ ' ' :: (Nat.toDigits 10 final ++
    match record.group with
    | none => []
    | some group => ' ' :: Nat.toDigits 10 group)) = back at hnumbers
  have hne : back ≠ [] := by
    rw [← hback]
    exact List.append_ne_nil_of_left_ne_nil Nat.toDigits_ne_nil _
  have hlength : record.object.length = 40 := record.objectDigits
  have hheader : record.header final = record.object ++ ' ' :: back := by
    rw [BlameRecord.header, hback]
  have hshape : 41 < (record.header final).length ∧
      ((record.header final).take 40).all isHexDigit ∧ (record.header final)[40]? = some ' ' := by
    rw [hheader, List.take_left' hlength]
    refine ⟨?_, List.all_eq_true.mpr record.objectHex, ?_⟩
    · have hpos := List.length_pos_of_ne_nil hne
      simp only [List.length_append, List.length_cons]
      omega
    · rw [List.getElem?_append_right (by omega), hlength]
      rfl
  have hdrop : (record.header final).drop 41 = back := by
    rw [hheader, List.append_cons]
    exact List.drop_left' (by simp [hlength])
  have hnumber : (Nat.toDigits 10 final).takeWhile Char.isDigit = Nat.toDigits 10 final :=
    List.takeWhile_eq_self_iff.mpr fun _ hc => isDigit_toDigits hc
  have horig : (Nat.toDigits 10 record.orig).all Char.isDigit = true :=
    List.all_eq_true.mpr fun _ hc => isDigit_toDigits hc
  have hvalue : (parseUsize (String.ofList (Nat.toDigits 10 final))).getD 0 =
      if final < 2 ^ 64 then final else 0 := by
    rw [parseUsize_toDigits_eq]
    split <;> rfl
  rw [blameHeader, if_pos hshape, hdrop, hnumbers]
  simp only [String.toList_ofList, hnumber, hvalue]
  exact if_pos ⟨horig, Nat.toDigits_ne_nil⟩

theorem blameHeader_sha256 (record : BlameRecord .sha256) (final : Nat) :
    blameHeader (record.header final) = none := by
  unfold blameHeader
  rw [if_neg]
  rintro ⟨_, _, hspace⟩
  have hlength : record.object.length = 64 := record.objectDigits
  rw [BlameRecord.header, List.getElem?_append_left (by omega)] at hspace
  have hdigit := record.objectHex _ (List.mem_of_getElem? hspace)
  exact absurd hdigit (by decide)

theorem blameLine_header_sha1 (state : BlameState) (record : BlameRecord .sha1) (final : Nat) :
    blameLine state (dropCr (String.ofList (record.header final))) =
      (if final < 2 ^ 64 then final else 0, state.2) := by
  rw [(unbroken_header record final).dropCr, blameLine, String.toList_ofList, blameHeader_sha1]

theorem blameLine_header_sha256 (state : BlameState) (record : BlameRecord .sha256)
    (final : Nat) : blameLine state (dropCr (String.ofList (record.header final))) = state := by
  rw [(unbroken_header record final).dropCr]
  apply blameLine_other (blameHeader_sha256 record final)
  intro hauthor
  have hlength : record.object.length = 64 := record.objectDigits
  have hsecond : (record.header final)[1]? = some 'u' := by
    obtain ⟨rest, hrest⟩ := hauthor
    rw [← hrest]
    rfl
  rw [BlameRecord.header, List.getElem?_append_left (by omega)] at hsecond
  exact absurd (record.objectHex _ (List.mem_of_getElem? hsecond)) (by decide)

theorem foldl_record {format : ObjectFormat} (record : BlameRecord format) (final : Nat)
    {state state' : BlameState}
    (hheader : blameLine state (dropCr (String.ofList (record.header final))) = state') :
    ((record.lines final).map dropCr).foldl blameLine state =
      if 0 < state'.1 then (state'.1, (state'.1, trim record.author) :: state'.2) else state' := by
  rw [BlameRecord.lines, List.map_append, List.map_cons, List.map_cons, List.foldl_append,
    List.foldl_cons, List.foldl_cons, hheader, blameLine_author, blameLine_fields, List.map_cons,
    List.map_nil, List.foldl_cons, List.foldl_nil, blameLine_content]

theorem lookup_blameLines_sha1 (records : List (BlameRecord .sha1)) {final : Nat}
    (hfinal : 0 < final) (state : BlameState) (n : Nat) :
    (((blameLines final records).map dropCr).foldl blameLine state).2.lookup n =
      if final ≤ n ∧ n < final + records.length ∧ n < 2 ^ 64 then
        (records[n - final]?).map fun record => trim record.author
      else state.2.lookup n := by
  induction records generalizing final state with
  | nil =>
    rw [if_neg (by simp; omega)]
    rfl
  | cons record records ih =>
    rw [blameLines, List.map_append, List.foldl_append,
      foldl_record record final (blameLine_header_sha1 state record final), ih (Nat.succ_pos _)]
    by_cases hsize : final < 2 ^ 64
    · rw [if_pos hsize, if_pos hfinal, List.lookup_cons]
      rcases Nat.lt_trichotomy n final with hless | rfl | hmore
      · rw [if_neg (by omega), if_neg (by omega), beq_eq_false_iff_ne.mpr hless.ne]
      · rw [if_neg (by omega), if_pos ⟨le_rfl, by simp, hsize⟩, beq_self_eq_true, Nat.sub_self]
        rfl
      · obtain ⟨k, rfl⟩ := Nat.exists_eq_add_of_lt hmore
        have hfirst : final + k + 1 - (final + 1) = k := by omega
        have hnext : final + k + 1 - final = k + 1 := by omega
        rw [hfirst, hnext, List.getElem?_cons_succ, List.length_cons,
          beq_eq_false_iff_ne.mpr hmore.ne']
        exact if_congr (by omega) rfl rfl
    · rw [if_neg hsize, if_neg (Nat.lt_irrefl 0), if_neg (by omega), if_neg (by omega)]

theorem foldl_blameLines_sha256 (records : List (BlameRecord .sha256)) (final : Nat) :
    ((blameLines final records).map dropCr).foldl blameLine (0, []) = (0, []) := by
  induction records generalizing final with
  | nil => rfl
  | cons record records ih =>
    rw [blameLines, List.map_append, List.foldl_append,
      foldl_record record final (blameLine_header_sha256 _ record final)]
    exact ih _

theorem BlameField.noFeed_line (field : BlameField) : '\n' ∉ field.line.toList := by
  have hword : '\n' ∉ field.tag.word.toList := by cases field.tag <;> decide
  unfold BlameField.line
  split
  · exact hword
  · rw [String.toList_append, String.toList_append, List.mem_append, List.mem_append, not_or,
      not_or]
    exact ⟨hword, by decide, field.noFeed⟩

theorem lines_blameText {format : ObjectFormat} (records : List (BlameRecord format)) :
    lines (blameText records) = (blameLines 1 records).map dropCr := by
  apply lines_join
  generalize 1 = final
  induction records generalizing final with
  | nil => simp [blameLines]
  | cons record records ih =>
    rw [blameLines, List.forall_mem_append]
    refine ⟨?_, ih (final + 1)⟩
    intro text htext
    rw [BlameRecord.lines, List.mem_append, List.mem_cons, List.mem_cons, List.mem_map,
      List.mem_singleton] at htext
    rcases htext with (rfl | rfl | ⟨field, -, rfl⟩) | rfl
    · exact (unbroken_header record final).1
    · rw [String.toList_append, List.mem_append, not_or]
      exact ⟨by decide, record.authorNoFeed⟩
    · exact field.noFeed_line
    · rw [String.toList_append, List.mem_append, not_or]
      exact ⟨by decide, record.contentNoFeed⟩

/-- Each line of the file has the author of its record, and no other line has one. -/
def BlamesAll {format : ObjectFormat} (records : List (BlameRecord format)) : Prop :=
  ∀ n, (parseBlameAuthors (blameText records)).lookup n =
    if 1 ≤ n then (records[n - 1]?).map (·.author) else none

theorem blamesAll_sha256 {records : List (BlameRecord .sha256)} :
    BlamesAll records ↔ records = [] := by
  unfold BlamesAll parseBlameAuthors
  rw [lines_blameText, foldl_blameLines_sha256]
  constructor
  · intro h
    cases records with
    | nil => rfl
    | cons record records => cases h 1
  · rintro rfl
    simp

/-- The authors are complete just for an empty file, or where the names of the commits have forty
digits, no name of an author begins or ends with a blank, and the lines can be counted. -/
theorem parseBlameAuthors_blamesAll_iff {format : ObjectFormat}
    (records : List (BlameRecord format)) :
    BlamesAll records ↔ records = [] ∨ format = .sha1 ∧
      (∀ record ∈ records, trim record.author = record.author) ∧ records.length < 2 ^ 64 := by
  cases format with
  | sha1 =>
    unfold BlamesAll parseBlameAuthors
    rw [lines_blameText]
    have hlookup (n : Nat) := lookup_blameLines_sha1 records Nat.one_pos (0, []) n
    simp only [hlookup, List.lookup_nil]
    constructor
    · intro h
      refine .inr ⟨trivial, ?_⟩
      have hsize : records.length < 2 ^ 64 := by
        by_contra hlarge
        have hmissing := h (2 ^ 64)
        rw [if_neg (by omega), if_pos (by omega), List.getElem?_eq_getElem (by omega)] at hmissing
        cases hmissing
      refine ⟨fun record hrecord => ?_, hsize⟩
      obtain ⟨k, hk, rfl⟩ := List.mem_iff_getElem.mp hrecord
      have hname := h (k + 1)
      rw [if_pos (by omega), if_pos (by omega), Nat.add_sub_cancel,
        List.getElem?_eq_getElem hk] at hname
      exact Option.some.inj hname
    · rintro (rfl | ⟨_, htrim, hsize⟩) n
      · simp
      · by_cases hn : 1 ≤ n
        · rw [if_pos hn]
          by_cases hline : n < 1 + records.length
          · rw [if_pos ⟨hn, hline, by omega⟩, List.getElem?_eq_getElem (by omega)]
            exact congrArg some (htrim _ (List.getElem_mem _))
          · rw [if_neg (by omega), List.getElem?_eq_none (by omega)]
            rfl
        · rw [if_neg hn, if_neg (by omega)]
  | sha256 =>
    rw [blamesAll_sha256]
    exact (or_iff_left fun h => by cases h.1).symm

def exampleRecord (format : ObjectFormat) : BlameRecord format where
  object := List.replicate format.digits 'a'
  orig := 3
  group := some 1
  author := "Ann"
  fields := [⟨.authorMail, "<ann@example.com>", by decide⟩, ⟨.boundary, "", by decide⟩,
    ⟨.filename, "author b", by decide⟩]
  content := "author Bob"
  objectDigits := List.length_replicate
  objectHex := fun c hc => by
    rw [List.eq_of_mem_replicate hc]
    decide
  authorNoFeed := by decide
  contentNoFeed := by decide

/-- A line of a repository with long names has no author. -/
theorem parseBlameAuthors_misses : ¬BlamesAll [exampleRecord .sha256] := fun h =>
  List.cons_ne_nil _ _ (blamesAll_sha256.mp h)

end HerdrWebui.Git
