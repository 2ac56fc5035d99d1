import HerdrWebui.Data.Text

/-!
The rows of the log: a part of the graph, and the commit that is printed behind it. The
names of branches and tags stand in one field with commas between them, where each is
trimmed and loses the directories of branches in front of it.
-/

namespace HerdrWebui.Git

structure LogRow where
  graph : String
  hash : String
  author : String
  date : String
  exactDate : String
  title : String
  labels : List String
  lane : Nat
  current : Bool
  deriving DecidableEq, Repr

def isHexDigit (c : Char) : Bool :=
  ('0' ≤ c && c ≤ '9') || ('a' ≤ c && c ≤ 'f') || ('A' ≤ c && c ≤ 'F')

def isGraphChar (c : Char) : Bool := c ∈ ['|', '\\', '/', '*', ' ', '_', '-', '.']

def graphLane (graph : List Char) : Nat :=
  (graph.findIdx? (· == '*')).getD ((graph.findIdx? (· == '|')).getD 0)

def normalizeLabel (value : String) : String :=
  trimStartMatches "refs/remotes/" (trimStartMatches "refs/heads/" (trim value))

/-- The decorations without the brackets around all of them. -/
def withoutBrackets (value : List Char) : List Char :=
  (value.dropWhile (· == '(')).rdropWhile (· == ')')

def splitDecorations (value : String) : List String :=
  (((withoutBrackets (trim value).toList).splitOn ',').map
    fun piece => normalizeLabel (String.ofList piece)).filter (· ≠ "")

def graphOnlyRow (raw : List Char) : Option LogRow :=
  let trimmed := trim (String.ofList raw)
  if trimmed.toList.all isGraphChar then
    some {
      graph := String.ofList raw
      hash := ""
      author := ""
      date := ""
      exactDate := ""
      title := ""
      labels := []
      lane := graphLane raw
      current := false }
  else none

def nul : Char := Char.ofNat 0

def parseLogRow (line : String) : Option LogRow :=
  let raw := line.toList.rdropWhile isWhitespace
  if trim (String.ofList raw) = "" then none
  else
    let graph := raw.takeWhile fun c => !isHexDigit c
    let rest := raw.dropWhile fun c => !isHexDigit c
    let hash := rest.takeWhile isHexDigit
    if rest = [] ∨ hash.length < 7 then graphOnlyRow raw
    else
      let parts := ((rest.dropWhile isHexDigit).splitOn nul).map String.ofList
      let labels := splitDecorations ((parts[4]?).getD "")
      some {
        graph := String.ofList graph
        hash := String.ofList hash
        author := trim ((parts[1]?).getD "")
        date := trim ((parts[2]?).getD "")
        exactDate := trim ((parts[3]?).getD "")
        title := trim ((parts[5]?).getD "")
        labels
        lane := graphLane graph
        current := labels.any fun label => label = "HEAD" || hasPrefix "HEAD -> " label }

/-- What is drawn in front of a commit, or on a line of its own. -/
structure GraphPart where
  chars : List Char
  graphic : ∀ c ∈ chars, isGraphChar c = true

/-- A commit as it is printed. The labels are those of its branches and tags. -/
structure LogCommit where
  hash : List Char
  author : String
  date : String
  exactDate : String
  labels : List String
  subject : String
  hash_hex : ∀ c ∈ hash, isHexDigit c = true
  hash_length : 7 ≤ hash.length
  labels_ne : ∀ label ∈ labels, label ≠ ""
  noNul : ∀ text ∈ author :: date :: exactDate :: subject :: labels, nul ∉ text.toList

/-- The format `%H%x00%an%x00%ar%x00%cI%x00%D%x00%s`. -/
def LogCommit.text (commit : LogCommit) : List Char :=
  commit.hash ++ nul :: (commit.author.toList ++ nul :: (commit.date.toList ++ nul ::
    (commit.exactDate.toList ++ nul :: ((", ".intercalate commit.labels).toList ++
      nul :: commit.subject.toList))))

/-- A row has all that was printed. -/
structure RowOf (graph : GraphPart) (commit : LogCommit) (row : LogRow) : Prop where
  graph : row.graph = String.ofList graph.chars
  hash : row.hash = String.ofList commit.hash
  author : row.author = commit.author
  date : row.date = commit.date
  exactDate : row.exactDate = commit.exactDate
  title : row.title = commit.subject
  labels : row.labels = commit.labels

/-- A label that is left as it is between commas. -/
structure PlainLabel (label : String) : Prop where
  noComma : ',' ∉ label.toList
  trimmed : trim label = label
  noHeads : hasPrefix "refs/heads/" label = false
  noRemotes : hasPrefix "refs/remotes/" label = false

/-- The labels are plain, and there is no bracket at either end of all of them. -/
structure PlainLabels (labels : List String) : Prop where
  plain : ∀ label ∈ labels, PlainLabel label
  noOpening : ∀ label ∈ labels.head?, label.toList.head? ≠ some '('
  noClosing : ∀ label ∈ labels.getLast?, label.toList.getLast? ≠ some ')'

/-- No field has a blank at its ends, and the labels are plain. -/
structure PlainCommit (commit : LogCommit) : Prop where
  author : trim commit.author = commit.author
  date : trim commit.date = commit.date
  exactDate : trim commit.exactDate = commit.exactDate
  subject : trim commit.subject = commit.subject
  labels : PlainLabels commit.labels

/-- What cannot be taken off a label without a trace: neither a comma nor a space. -/
def isInk (c : Char) : Bool := c ≠ ',' && c ≠ ' '

def ink (chars : List Char) : Nat := chars.countP isInk

theorem ink_le_of_sublist {chars chars' : List Char} (h : chars.Sublist chars') :
    ink chars ≤ ink chars' := h.countP_le

theorem ink_intercalate (sep : List Char) (hsep : ink sep = 0) (pieces : List (List Char)) :
    ink (sep.intercalate pieces) = (pieces.map ink).sum := by
  rw [ink] at hsep
  rw [ink, countP_intercalate, hsep, Nat.mul_zero, Nat.add_zero]
  rfl

theorem trim_sublist (text : String) : (trim text).toList.Sublist text.toList := by
  rw [trim_eq, String.toList_ofList]
  exact (List.rdropWhile_prefix _ _).sublist.trans (List.dropWhile_sublist _)

theorem trimStartGo_ink {pre : List Char} (hpre : 0 < ink pre) (n : Nat) (chars : List Char) :
    trimStartGo pre n chars = chars ∨ ink (trimStartGo pre n chars) < ink chars := by
  induction n generalizing chars with
  | zero => exact .inl rfl
  | succ n ih =>
    rw [trimStartGo]
    split
    · next hprefix =>
        obtain ⟨rest, rfl⟩ := List.isPrefixOf_iff_prefix.mp hprefix
        right
        have hless : ink rest < ink (pre ++ rest) := by
          rw [ink, ink, List.countP_append]
          exact Nat.lt_add_of_pos_left hpre
        rw [List.drop_left]
        rcases ih rest with hsame | hlt
        · rwa [hsame]
        · exact hlt.trans hless
    · exact .inl rfl

theorem trimStartMatches_ink (pre : String) (hpre : 0 < ink pre.toList) (text : String) :
    trimStartMatches pre text = text ∨
      ink (trimStartMatches pre text).toList < ink text.toList := by
  rw [trimStartMatches, String.toList_ofList]
  rcases trimStartGo_ink hpre text.length text.toList with hsame | hlt
  · left
    rw [hsame, String.ofList_toList]
  · exact .inr hlt

theorem hasPrefix_of_trimStartMatches {pre text : String} (hpre : pre.toList ≠ [])
    (h : trimStartMatches pre text = text) : hasPrefix pre text = false := by
  rw [trimStartMatches, ← String.toList_inj, String.toList_ofList, ← String.length_toList] at h
  rw [hasPrefix]
  cases hchars : text.toList with
  | nil =>
    cases hlist : pre.toList with
    | nil => exact absurd hlist hpre
    | cons c rest => rfl
  | cons c rest =>
    rw [hchars, List.length_cons] at h
    exact (trimStartGo_eq_self hpre _ _).mp h

theorem normalizeLabel_ink (value : String) :
    normalizeLabel value = trim value ∧ hasPrefix "refs/heads/" (trim value) = false ∧
        hasPrefix "refs/remotes/" (trim value) = false ∨
      ink (normalizeLabel value).toList < ink value.toList := by
  have htrim := ink_le_of_sublist (trim_sublist value)
  have hheads := trimStartMatches_ink "refs/heads/" (by decide) (trim value)
  have hremotes := trimStartMatches_ink "refs/remotes/" (by decide)
    (trimStartMatches "refs/heads/" (trim value))
  unfold normalizeLabel
  rcases hheads with hsame | hlt
  · rw [hsame] at hremotes ⊢
    rcases hremotes with hsame' | hlt
    · refine .inl ⟨hsame', hasPrefix_of_trimStartMatches (by decide) hsame, ?_⟩
      exact hasPrefix_of_trimStartMatches (by decide) hsame'
    · exact .inr (hlt.trans_le htrim)
  · right
    rcases hremotes with hsame' | hlt'
    · rw [hsame']
      exact hlt.trans_le htrim
    · exact (hlt'.trans hlt).trans_le htrim

theorem normalizeLabel_plain {value : String}
    (hheads : hasPrefix "refs/heads/" (trim value) = false)
    (hremotes : hasPrefix "refs/remotes/" (trim value) = false) :
    normalizeLabel value = trim value := by
  have hkept {pre text : String} (hpre : pre.toList ≠ []) (h : hasPrefix pre text = false) :
      trimStartMatches pre text = text := by
    rw [trimStartMatches, ← String.toList_inj, String.toList_ofList, ← String.length_toList]
    cases hlength : text.toList.length with
    | zero => rfl
    | succ n => exact (trimStartGo_eq_self hpre n _).mpr h
  rw [normalizeLabel, hkept (by decide) hheads, hkept (by decide) hremotes]

theorem dropWhile_ink {p : Char → Bool} (hp : ∀ c, p c = true → isInk c = true)
    (chars : List Char) : chars.dropWhile p = chars ∨ ink (chars.dropWhile p) < ink chars := by
  cases chars with
  | nil => exact .inl rfl
  | cons c chars =>
    cases hc : p c with
    | false => exact .inl (List.dropWhile_cons_of_neg (by simp [hc]))
    | true =>
      right
      have hle := ink_le_of_sublist (List.dropWhile_sublist p (l := chars))
      rw [List.dropWhile_cons_of_pos hc]
      have hcons : ink (c :: chars) = ink chars + 1 := List.countP_cons_of_pos (hp c hc)
      omega

theorem withoutBrackets_ink (chars : List Char) :
    withoutBrackets chars = chars ∨ ink (withoutBrackets chars) < ink chars := by
  have hopening := dropWhile_ink (p := (· == '(')) (fun c hc => by
    rw [beq_iff_eq.mp hc]
    rfl) chars
  have hclosing := dropWhile_ink (p := (· == ')')) (fun c hc => by
    rw [beq_iff_eq.mp hc]
    rfl) (chars.dropWhile (· == '(')).reverse
  have hreverse (chars : List Char) : ink chars.reverse = ink chars := List.countP_reverse
  rw [hreverse] at hclosing
  unfold withoutBrackets
  rw [List.rdropWhile, hreverse]
  rcases hopening with hsame | hlt
  · rw [hsame] at hclosing ⊢
    rcases hclosing with hsame' | hlt
    · left
      rw [hsame', List.reverse_reverse]
    · exact .inr hlt
  · right
    rcases hclosing with hsame' | hlt'
    · rw [hsame', hreverse]
      exact hlt
    · exact hlt'.trans hlt

def inks (labels : List String) : Nat := (labels.map fun label => ink label.toList).sum

theorem inks_cons (label : String) (labels : List String) :
    inks (label :: labels) = ink label.toList + inks labels := by
  rw [inks, inks, List.map_cons, List.sum_cons]

theorem inks_filter (labels : List String) : inks (labels.filter (· ≠ "")) = inks labels := by
  induction labels with
  | nil => rfl
  | cons label labels ih =>
    rw [inks_cons, ← ih]
    by_cases hempty : label = ""
    · rw [List.filter_cons_of_neg (by simp [hempty]), hempty]
      simp [ink]
    · rw [List.filter_cons_of_pos (by simp [hempty]), inks_cons]

theorem ink_normalizeLabel (value : String) :
    ink (normalizeLabel value).toList ≤ ink value.toList := by
  rcases normalizeLabel_ink value with hsame | hlt
  · rw [hsame.1]
    exact ink_le_of_sublist (trim_sublist value)
  · exact hlt.le

theorem inks_normalizeLabel (values : List String) :
    inks (values.map normalizeLabel) ≤ inks values := by
  induction values with
  | nil => exact le_rfl
  | cons value values ih =>
    have hone := ink_normalizeLabel value
    rw [List.map_cons, inks_cons, inks_cons]
    omega

theorem pieces_trimmed (pieces : List String)
    (h : inks pieces ≤ inks (pieces.map normalizeLabel)) :
    ∀ piece ∈ pieces, normalizeLabel piece = trim piece ∧
      hasPrefix "refs/heads/" (trim piece) = false ∧
      hasPrefix "refs/remotes/" (trim piece) = false := by
  induction pieces with
  | nil => exact fun piece hpiece => absurd hpiece List.not_mem_nil
  | cons piece pieces ih =>
    have hrest := inks_normalizeLabel pieces
    rw [List.map_cons, inks_cons, inks_cons] at h
    rw [List.forall_mem_cons]
    constructor
    · rcases normalizeLabel_ink piece with hsame | hlt
      · exact hsame
      · omega
    · apply ih
      have hone := ink_normalizeLabel piece
      omega

theorem join_chars (labels : List String) :
    (", ".intercalate labels).toList = [',', ' '].intercalate (labels.map String.toList) :=
  String.toList_intercalate

theorem join_ends {labels : List String} (hne : ∀ label ∈ labels, label ≠ "") :
    (", ".intercalate labels).toList.head? =
        labels.head?.bind (fun label => label.toList.head?) ∧
      (", ".intercalate labels).toList.getLast? =
        labels.getLast?.bind fun label => label.toList.getLast? := by
  rw [join_chars]
  induction labels with
  | nil => exact ⟨rfl, rfl⟩
  | cons label labels ih =>
    rw [List.forall_mem_cons] at hne
    have hlabel : label.toList ≠ [] := fun hnil =>
      hne.1 (String.toList_inj.mp (hnil.trans String.toList_empty.symm))
    cases labels with
    | nil => simp
    | cons label' labels =>
      have hrest := (ih hne.2).2
      rw [List.map_cons, List.map_cons, List.intercalate_cons_cons, ← List.map_cons]
      constructor
      · rw [List.append_assoc, List.head?_append_of_ne_nil _ hlabel]
        rfl
      · have hne' : [',', ' '].intercalate ((label' :: labels).map String.toList) ≠ [] := by
          intro hnil
          rw [hnil, List.getLast?_nil] at hrest
          obtain ⟨last, hlast⟩ := List.getLast?_isSome.mpr (List.cons_ne_nil label' labels)
            |> Option.isSome_iff_exists.mp
          rw [hlast, Option.bind_some] at hrest
          have hmem := hne.2 last (List.mem_of_getLast? hlast)
          exact hmem (String.toList_inj.mp
            ((List.getLast?_eq_none_iff.mp hrest.symm).trans String.toList_empty.symm))
        rw [List.getLast?_append_of_ne_nil _ hne', hrest, List.getLast?_cons_cons]

theorem withoutBrackets_eq_self_iff (chars : List Char) : withoutBrackets chars = chars ↔
    chars.head? ≠ some '(' ∧ chars.getLast? ≠ some ')' := by
  have hopening : chars.dropWhile (· == '(') = chars ↔ chars.head? ≠ some '(' := by
    cases chars with
    | nil => simp
    | cons c chars =>
      have hshort := (List.dropWhile_sublist (fun c => c == '(') (l := chars)).length_le
      by_cases hc : c = '('
      · rw [hc, List.dropWhile_cons_of_pos (by rfl)]
        refine iff_of_false (fun heq => ?_) (by simp)
        have hlength := congrArg List.length heq
        rw [List.length_cons] at hlength
        omega
      · rw [List.dropWhile_cons_of_neg (by simpa using hc)]
        simpa using hc
  have hclosing : chars.rdropWhile (· == ')') = chars ↔ chars.getLast? ≠ some ')' := by
    rw [List.rdropWhile_eq_self_iff]
    constructor
    · intro h hlast
      obtain ⟨hne, heq⟩ := List.mem_getLast?_eq_getLast hlast
      exact h hne (by rw [← heq]; rfl)
    · intro h hne hlast
      apply h
      rw [List.getLast?_eq_getLast_of_ne_nil hne, beq_iff_eq.mp hlast]
  unfold withoutBrackets
  constructor
  · intro h
    have hfront : chars.dropWhile (· == '(') = chars := by
      apply (List.dropWhile_sublist _).eq_of_length_le
      have hle := (List.rdropWhile_prefix (· == ')') (chars.dropWhile (· == '('))).length_le
      rwa [h] at hle
    rw [hfront] at h
    exact ⟨hopening.mp hfront, hclosing.mp h⟩
  · rintro ⟨hfirst, hlast⟩
    rw [hopening.mpr hfirst, hclosing.mpr hlast]

theorem trim_join {labels : List String} (hne : ∀ label ∈ labels, label ≠ "")
    (htrim : ∀ label ∈ labels, trim label = label) :
    trim (", ".intercalate labels) = ", ".intercalate labels := by
  obtain ⟨hfirst, hlast⟩ := join_ends hne
  have hends {label : String} (hlabel : label ∈ labels) :
      (∀ c ∈ label.toList.head?, isWhitespace c = false) ∧
        ∀ c ∈ label.toList.getLast?, isWhitespace c = false := by
    apply trim_eq_self_iff.mp
    rw [String.ofList_toList]
    exact htrim label hlabel
  rw [← String.ofList_toList (s := ", ".intercalate labels)]
  apply trim_ofList
  · intro c hc
    rw [hfirst, Option.mem_def, Option.bind_eq_some_iff] at hc
    obtain ⟨label, hlabel, hc⟩ := hc
    exact (hends (List.mem_of_mem_head? hlabel)).1 c hc
  · intro c hc
    rw [hlast, Option.mem_def, Option.bind_eq_some_iff] at hc
    obtain ⟨label, hlabel, hc⟩ := hc
    exact (hends (List.mem_of_mem_getLast? hlabel)).2 c hc

theorem trim_blank_cons (chars : List Char) :
    trim (String.ofList (' ' :: chars)) = trim (String.ofList chars) := by
  rw [trim_eq, trim_eq, String.toList_ofList, String.toList_ofList,
    List.dropWhile_cons_of_pos (by rfl)]

theorem ink_join (labels : List String) :
    ink (", ".intercalate labels).toList = inks labels := by
  rw [join_chars, ink_intercalate _ (by decide), List.map_map, inks]
  rfl

theorem inks_splitOn (chars : List Char) :
    inks ((chars.splitOn ',').map String.ofList) = ink chars := by
  have hink := ink_intercalate [','] (by decide) (chars.splitOn ',')
  rw [List.intercalate_splitOn] at hink
  rw [inks, List.map_map, hink]
  simp only [Function.comp_def, String.toList_ofList]

theorem splitOn_join {label : String} {labels : List String}
    (h : ∀ other ∈ label :: labels, ',' ∉ other.toList) :
    (", ".intercalate (label :: labels)).toList.splitOn ',' =
      label.toList :: labels.map fun other => ' ' :: other.toList := by
  have hjoin (label : String) (labels : List String) :
      [',', ' '].intercalate ((label :: labels).map String.toList) =
        [','].intercalate (label.toList :: labels.map fun other => ' ' :: other.toList) := by
    induction labels generalizing label with
    | nil => simp
    | cons label' labels ih =>
      have hrest := ih label'
      rw [List.map_cons] at hrest
      rw [List.map_cons, List.map_cons, List.map_cons, List.intercalate_cons_cons, hrest,
        List.intercalate_cons_cons]
      cases labels with
      | nil => simp
      | cons label'' labels => simp [List.intercalate_cons_cons]
  rw [List.forall_mem_cons] at h
  rw [join_chars, hjoin]
  apply List.splitOn_intercalate
  · rw [List.forall_mem_cons]
    refine ⟨h.1, fun piece hpiece => ?_⟩
    obtain ⟨other, hother, rfl⟩ := List.mem_map.mp hpiece
    rw [List.mem_cons, not_or]
    exact ⟨by decide, h.2 other hother⟩
  · exact List.cons_ne_nil _ _

theorem splitDecorations_iff {labels : List String} (hne : ∀ label ∈ labels, label ≠ "") :
    splitDecorations (", ".intercalate labels) = labels ↔ PlainLabels labels := by
  obtain ⟨hfirst, hlast⟩ := join_ends hne
  have hbrackets : withoutBrackets (", ".intercalate labels).toList =
        (", ".intercalate labels).toList ↔
      (∀ label ∈ labels.head?, label.toList.head? ≠ some '(') ∧
        ∀ label ∈ labels.getLast?, label.toList.getLast? ≠ some ')' := by
    rw [withoutBrackets_eq_self_iff, hfirst, hlast]
    simp [Option.bind_eq_some_iff]
  constructor
  · intro h
    obtain ⟨inner, hinner⟩ : ∃ inner,
        withoutBrackets (trim (", ".intercalate labels)).toList = inner := ⟨_, rfl⟩
    obtain ⟨pieces, hpieces⟩ : ∃ pieces, (inner.splitOn ',').map String.ofList = pieces :=
      ⟨_, rfl⟩
    have hlabels : (pieces.map normalizeLabel).filter (· ≠ "") = labels := by
      rw [← h, splitDecorations, hinner, ← hpieces, List.map_map]
      rfl
    have hall := inks_filter (pieces.map normalizeLabel)
    rw [hlabels] at hall
    have hnormal := inks_normalizeLabel pieces
    have hsplit : inks pieces = ink inner := by rw [← hpieces, inks_splitOn]
    have hjoin := ink_join labels
    have htrimmed := ink_le_of_sublist (trim_sublist (", ".intercalate labels))
    have hkept := withoutBrackets_ink (trim (", ".intercalate labels)).toList
    rw [hinner] at hkept
    have hsame : inner = (trim (", ".intercalate labels)).toList := by
      rcases hkept with hsame | hlt
      · exact hsame
      · omega
    have hink : ink inner ≤ ink (", ".intercalate labels).toList := by
      rw [hsame]
      exact htrimmed
    have hplain := pieces_trimmed pieces (by omega)
    have hlabel : ∀ label ∈ labels, PlainLabel label := by
      intro label hmem
      rw [← hlabels, List.mem_filter, List.mem_map] at hmem
      obtain ⟨⟨piece, hpiece, rfl⟩, -⟩ := hmem
      obtain ⟨htrim, hheads, hremotes⟩ := hplain piece hpiece
      rw [htrim]
      refine ⟨fun hcomma => ?_, trim_trim piece, hheads, hremotes⟩
      rw [← hpieces] at hpiece
      obtain ⟨chars, hchars, rfl⟩ := List.mem_map.mp hpiece
      have hcomma' := (trim_sublist _).subset hcomma
      rw [String.toList_ofList] at hcomma'
      exact not_mem_splitOn hchars hcomma'
    have htrim := trim_join hne fun label hmem => (hlabel label hmem).trimmed
    rw [hsame, htrim] at hinner
    obtain ⟨hopening, hclosing⟩ := hbrackets.mp hinner
    exact ⟨hlabel, hopening, hclosing⟩
  · intro h
    have htrim := trim_join hne fun label hmem => (h.plain label hmem).trimmed
    have hinner := hbrackets.mpr ⟨h.noOpening, h.noClosing⟩
    have hnormal {label : String} (hmem : label ∈ labels) : normalizeLabel label = label ∧
        normalizeLabel (String.ofList (' ' :: label.toList)) = label := by
      have hplain := h.plain label hmem
      have hblank : trim (String.ofList (' ' :: label.toList)) = label := by
        rw [trim_blank_cons, String.ofList_toList, hplain.trimmed]
      constructor
      · rw [normalizeLabel_plain] <;> rw [hplain.trimmed]
        · exact hplain.noHeads
        · exact hplain.noRemotes
      · rw [normalizeLabel_plain] <;> rw [hblank]
        · exact hplain.noHeads
        · exact hplain.noRemotes
    rw [splitDecorations, htrim, hinner]
    cases labels with
    | nil => decide +kernel
    | cons label labels =>
      have hmap : ((label.toList :: labels.map fun other => ' ' :: other.toList).map
          fun piece => normalizeLabel (String.ofList piece)) = label :: labels := by
        rw [List.map_cons, String.ofList_toList, (hnormal List.mem_cons_self).1, List.map_map]
        refine congrArg (label :: ·) ((List.map_congr_left fun other hother => ?_).trans
          (List.map_id labels))
        exact (hnormal (List.mem_cons_of_mem _ hother)).2
      rw [splitOn_join fun other hother => (h.plain other hother).noComma, hmap]
      exact List.filter_eq_self.mpr fun other hother => decide_eq_true (hne other hother)

theorem isWhitespace_hexDigit {c : Char} (h : isHexDigit c = true) : isWhitespace c = false := by
  simp only [isHexDigit, Bool.or_eq_true, Bool.and_eq_true, decide_eq_true_eq, Char.le_def,
    UInt32.le_iff_toNat_le] at h
  change (48 ≤ c.toNat ∧ c.toNat ≤ 57 ∨ 97 ≤ c.toNat ∧ c.toNat ≤ 102) ∨
    65 ≤ c.toNat ∧ c.toNat ≤ 70 at h
  simp only [isWhitespace, Bool.or_eq_false_iff, Bool.and_eq_false_iff, decide_eq_false_iff_not,
    beq_eq_false_iff_ne]
  omega

theorem isHexDigit_graphChar {c : Char} (h : isGraphChar c = true) : isHexDigit c = false := by
  rw [isGraphChar, decide_eq_true_eq] at h
  exact forall_mem_of_all (p := fun c => isHexDigit c = false) (by decide) c h

theorem trim_ne_empty {text : String} {c : Char} (hmem : c ∈ text.toList)
    (hc : isWhitespace c = false) : trim text ≠ "" := by
  intro hempty
  rw [trim_eq, ← String.toList_inj, String.toList_ofList, String.toList_empty,
    List.rdropWhile_eq_nil_iff] at hempty
  have hall : ∀ d ∈ text.toList, isWhitespace d = true := by
    rw [← List.dropWhile_eq_nil_iff]
    apply List.eq_nil_iff_forall_not_mem.mpr
    intro d hd
    obtain ⟨first, rest, hlist⟩ := List.exists_cons_of_ne_nil (List.ne_nil_of_mem hd)
    have hhead := List.head?_dropWhile_not isWhitespace text.toList
    rw [hlist] at hhead
    have hblank := hempty first (by rw [hlist]; exact List.mem_cons_self)
    simp [hblank] at hhead
  exact Bool.false_ne_true (hc.symm.trans (hall c hmem))

theorem trim_rdropWhile (text : String) :
    trim (String.ofList (text.toList.rdropWhile isWhitespace)) = trim text := by
  rw [trim_eq, trim_eq, String.toList_ofList]
  induction text.toList with
  | nil => rfl
  | cons c chars ih =>
    cases hc : isWhitespace c with
    | false =>
      have hback := rdropWhile_append_cons hc [] chars
      rw [List.nil_append, List.nil_append] at hback
      rw [hback, List.dropWhile_cons_of_neg (by simp [hc]),
        List.dropWhile_cons_of_neg (by simp [hc]), hback, ← hback, List.rdropWhile_idempotent]
    | true =>
      rw [List.dropWhile_cons_of_pos hc, ← ih]
      by_cases hall : ∀ d ∈ chars, isWhitespace d = true
      · have hnone := List.rdropWhile_eq_nil_iff.mpr hall
        rw [hnone, List.rdropWhile_eq_nil_iff.mpr (List.forall_mem_cons.mpr ⟨hc, hall⟩)]
      · obtain ⟨d, hd, hink⟩ := not_forall₂.mp hall
        obtain ⟨front, back, rfl⟩ := List.append_of_mem hd
        rw [Bool.not_eq_true] at hink
        rw [← List.cons_append, rdropWhile_append_cons hink, rdropWhile_append_cons hink,
          List.cons_append, List.dropWhile_cons_of_pos hc]

theorem noNul_join {labels : List String} (h : ∀ label ∈ labels, nul ∉ label.toList) :
    nul ∉ (", ".intercalate labels).toList := by
  rw [join_chars]
  induction labels with
  | nil => exact List.not_mem_nil
  | cons label labels ih =>
    rw [List.forall_mem_cons] at h
    cases labels with
    | nil => simpa using h.1
    | cons label' labels =>
      rw [List.map_cons, List.map_cons, List.intercalate_cons_cons, List.mem_append,
        List.mem_append, not_or, not_or]
      exact ⟨⟨h.1, by decide⟩, ih h.2⟩

theorem parseLogRow_commit (graph : GraphPart) (commit : LogCommit) :
    ∃ row, parseLogRow (String.ofList (graph.chars ++ commit.text)) = some row ∧
      row.graph = String.ofList graph.chars ∧ row.hash = String.ofList commit.hash ∧
      row.author = trim commit.author ∧ row.date = trim commit.date ∧
      row.exactDate = trim commit.exactDate ∧ row.title = trim commit.subject ∧
      row.labels = splitDecorations (", ".intercalate commit.labels) := by
  obtain ⟨digit, digits, hhash⟩ := List.exists_cons_of_length_pos
    (Nat.lt_of_lt_of_le (by decide) commit.hash_length)
  have hdigit := commit.hash_hex digit (by rw [hhash]; exact List.mem_cons_self)
  have hnul : isHexDigit nul = false := by decide
  have hdrawn : ∀ c ∈ graph.chars, (!isHexDigit c) = true := fun c hc => by
    rw [isHexDigit_graphChar (graph.graphic c hc), Bool.not_false]
  -- The subject is the only field whose end is trimmed with the line.
  obtain ⟨subject, hsubject⟩ : ∃ subject,
      commit.subject.toList.rdropWhile isWhitespace = subject := ⟨_, rfl⟩
  obtain ⟨fields, hfields⟩ : ∃ fields, commit.author.toList ++ nul :: (commit.date.toList ++
      nul :: (commit.exactDate.toList ++ nul :: ((", ".intercalate commit.labels).toList ++
        nul :: subject))) = fields := ⟨_, rfl⟩
  have hraw : (String.ofList (graph.chars ++ commit.text)).toList.rdropWhile isWhitespace =
      graph.chars ++ (commit.hash ++ nul :: fields) := by
    have htext : graph.chars ++ commit.text = (graph.chars ++ (commit.hash ++ nul ::
        (commit.author.toList ++ nul :: (commit.date.toList ++ nul ::
          (commit.exactDate.toList ++ nul :: (", ".intercalate commit.labels).toList))))) ++
            nul :: commit.subject.toList := by simp [LogCommit.text]
    rw [String.toList_ofList, htext, rdropWhile_append_cons (by decide), hsubject, ← hfields]
    simp
  have hblank : trim (String.ofList (graph.chars ++ (commit.hash ++ nul :: fields))) ≠ "" := by
    apply trim_ne_empty (c := digit)
    · rw [String.toList_ofList, hhash]
      simp
    · exact isWhitespace_hexDigit hdigit
  have htake : (graph.chars ++ (commit.hash ++ nul :: fields)).takeWhile
      (fun c => !isHexDigit c) = graph.chars := by
    rw [List.takeWhile_append_of_pos hdrawn, hhash, List.cons_append,
      List.takeWhile_cons_of_neg (by simp [hdigit]), List.append_nil]
  have hdrop : (graph.chars ++ (commit.hash ++ nul :: fields)).dropWhile
      (fun c => !isHexDigit c) = commit.hash ++ nul :: fields := by
    rw [List.dropWhile_append_of_pos hdrawn, hhash, List.cons_append,
      List.dropWhile_cons_of_neg (by simp [hdigit])]
  have hread : (commit.hash ++ nul :: fields).takeWhile isHexDigit = commit.hash := by
    rw [List.takeWhile_append_of_pos commit.hash_hex,
      List.takeWhile_cons_of_neg (by simp [hnul]), List.append_nil]
  have hrest : (commit.hash ++ nul :: fields).dropWhile isHexDigit = nul :: fields := by
    rw [List.dropWhile_append_of_pos commit.hash_hex,
      List.dropWhile_cons_of_neg (by simp [hnul])]
  have hparts : (nul :: fields).splitOn nul = [[], commit.author.toList, commit.date.toList,
      commit.exactDate.toList, (", ".intercalate commit.labels).toList, subject] := by
    have hjoin : nul :: fields = [nul].intercalate [[], commit.author.toList,
        commit.date.toList, commit.exactDate.toList,
        (", ".intercalate commit.labels).toList, subject] := by
      simp [← hfields, List.intercalate_cons_cons]
    obtain ⟨hauthor, hdate, hexact, htitle, hlabels⟩ :
        nul ∉ commit.author.toList ∧ nul ∉ commit.date.toList ∧
          nul ∉ commit.exactDate.toList ∧ nul ∉ commit.subject.toList ∧
            ∀ label ∈ commit.labels, nul ∉ label.toList := by
      simpa using commit.noNul
    have hshort : nul ∉ subject := fun hmem =>
      htitle ((List.rdropWhile_prefix isWhitespace _).subset (hsubject ▸ hmem))
    rw [hjoin]
    apply List.splitOn_intercalate
    · simp [-String.toList_intercalate, hauthor, hdate, hexact, hshort, noNul_join hlabels]
    · exact List.cons_ne_nil _ _
  have hlong : ¬(commit.hash ++ nul :: fields = [] ∨ commit.hash.length < 7) := by
    have hlength := commit.hash_length
    simp
    omega
  unfold parseLogRow
  simp only [hraw, hblank, htake, hdrop, hread, hrest, hparts, hlong, if_false]
  refine ⟨_, rfl, rfl, rfl, ?_, ?_, ?_, ?_, ?_⟩
  · simp
  · simp
  · simp
  · simp [← hsubject, trim_rdropWhile]
  · simp [-String.toList_intercalate]

/-- What is drawn on a line without a commit. -/
structure Connector extends GraphPart where
  drawn : ∃ c ∈ chars, isWhitespace c = false

theorem parseLogRow_connector (line : Connector) :
    ∃ row, parseLogRow (String.ofList line.chars) = some row ∧ row.hash = "" ∧
      row.graph = String.ofList (line.chars.rdropWhile isWhitespace) := by
  obtain ⟨raw, hraw⟩ : ∃ raw, line.chars.rdropWhile isWhitespace = raw := ⟨_, rfl⟩
  have hsub : ∀ c ∈ raw, isGraphChar c = true := fun c hc =>
    line.graphic c ((List.rdropWhile_prefix isWhitespace _).subset (hraw ▸ hc))
  have hblank : trim (String.ofList raw) ≠ "" := by
    obtain ⟨c, hmem, hc⟩ := line.drawn
    have htrim := trim_rdropWhile (String.ofList line.chars)
    rw [String.toList_ofList, hraw] at htrim
    rw [htrim]
    apply trim_ne_empty _ hc
    rwa [String.toList_ofList]
  have hnone : raw.dropWhile (fun c => !isHexDigit c) = [] := by
    rw [List.dropWhile_eq_nil_iff]
    intro c hc
    rw [isHexDigit_graphChar (hsub c hc), Bool.not_false]
  have hgraph : (trim (String.ofList raw)).toList.all isGraphChar = true := by
    rw [List.all_eq_true]
    intro c hc
    apply hsub
    have hmem := (trim_sublist _).subset hc
    rwa [String.toList_ofList] at hmem
  unfold parseLogRow graphOnlyRow
  simp only [String.toList_ofList, hraw, hblank, hnone, hgraph, true_or, if_true, if_false]
  exact ⟨_, rfl, rfl, rfl⟩

/-- A commit is read back behind each part of the graph just where it is plain, and a line
that only connects commits is a row without a hash. -/
theorem parseLogRow_iff (graph : GraphPart) (commit : LogCommit) (line : Connector) :
    ((∃ row, parseLogRow (String.ofList (graph.chars ++ commit.text)) = some row ∧
      RowOf graph commit row) ↔ PlainCommit commit) ∧
    ∃ row, parseLogRow (String.ofList line.chars) = some row ∧
      row.hash = "" ∧ row.graph = String.ofList (line.chars.rdropWhile isWhitespace) := by
  refine ⟨?_, parseLogRow_connector line⟩
  obtain ⟨row, hrow, hgraph, hhash, hauthor, hdate, hexact, htitle, hlabels⟩ :=
    parseLogRow_commit graph commit
  rw [hrow]
  constructor
  · rintro ⟨row', hrow', h⟩
    obtain rfl := Option.some.inj hrow'
    exact {
      author := hauthor.symm.trans h.author
      date := hdate.symm.trans h.date
      exactDate := hexact.symm.trans h.exactDate
      subject := htitle.symm.trans h.title
      labels := (splitDecorations_iff commit.labels_ne).mp (hlabels.symm.trans h.labels) }
  · intro h
    exact ⟨row, rfl, {
      graph := hgraph
      hash := hhash
      author := hauthor.trans h.author
      date := hdate.trans h.date
      exactDate := hexact.trans h.exactDate
      title := htitle.trans h.subject
      labels := hlabels.trans ((splitDecorations_iff commit.labels_ne).mpr h.labels) }⟩

/-- A tag whose name has a comma, which git allows. -/
def commaCommit : LogCommit where
  hash := "abcdef1".toList
  author := "Alice"
  date := "2 hours ago"
  exactDate := "2026-07-13T12:34:56+02:00"
  labels := ["tag: v1,2"]
  subject := "Add graph view"
  hash_hex := forall_mem_of_all (by decide)
  hash_length := by decide
  labels_ne := forall_mem_of_all (by decide)
  noNul := forall_mem_of_all (by decide)

/-- The one label is read as two. -/
theorem parseLogRow_comma :
    ¬∀ (graph : GraphPart) (commit : LogCommit),
      ∃ row, parseLogRow (String.ofList (graph.chars ++ commit.text)) = some row ∧
        RowOf graph commit row := by
  intro hall
  obtain ⟨row, hrow, h⟩ := hall ⟨"* ".toList, forall_mem_of_all (by decide)⟩ commaCommit
  have hlabels : (parseLogRow (String.ofList ("* ".toList ++ commaCommit.text))).map
      LogRow.labels = some ["tag: v1", "2"] := by decide +kernel
  rw [hrow, Option.map_some, h.labels] at hlabels
  revert hlabels
  decide

end HerdrWebui.Git
