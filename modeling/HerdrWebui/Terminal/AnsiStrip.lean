import HerdrWebui.Terminal.OscTracker

/-!
The text that is left of an output without its escape sequences, beside what the screen's driver
takes for sequences. Both read an output in the same way but for the bytes that end a control
sequence, so that one scanner with these as a parameter is both.
-/

namespace HerdrWebui.Terminal

section Scanner

variable (ends : Char → Bool)

/-- A control sequence up to the byte that ends it, and what follows. -/
def takeFinal : List Char → List Char × List Char
  | [] => ([], [])
  | next :: rest =>
    if ends next then ([next], rest) else (next :: (takeFinal rest).1, (takeFinal rest).2)

theorem takeFinal_length (chars : List Char) :
    (takeFinal ends chars).2.length ≤ chars.length := by
  induction chars with
  | nil => exact le_rfl
  | cons next rest ih =>
    rw [takeFinal]
    split
    · exact Nat.le_succ _
    · exact ih.trans (Nat.le_succ _)

/-- The sequences and characters of an output. -/
def scan : List Char → List VtToken
  | [] => []
  | ch :: rest =>
    if ch = '\x1b' then
      match rest with
      | [] => [.escape none]
      | '[' :: rest => .csi (takeFinal ends rest).1 :: scan (takeFinal ends rest).2
      | ']' :: rest => .osc (skipOsc false rest).1 :: scan (skipOsc false rest).2
      | next :: rest =>
        if next ∈ ['P', 'X', '^', '_'] then
          .stringSequence (skipStringSequence false rest).1 ::
            scan (skipStringSequence false rest).2
        else .escape (some next) :: scan rest
    else .char ch :: scan rest
termination_by chars => chars.length
decreasing_by
  · have := takeFinal_length ends rest
    simp
    omega
  · have := skipOsc_length false rest
    simp
    omega
  · have := skipStringSequence_length false rest
    simp
    omega
  · simp
  · simp

theorem scan_nil : scan ends [] = [] := by
  rw [scan.eq_def]

theorem scan_char {ch : Char} (h : ch ≠ '\x1b') (rest : List Char) :
    scan ends (ch :: rest) = .char ch :: scan ends rest := by
  rw [scan.eq_def]
  exact if_neg h

theorem scan_csi (rest : List Char) :
    scan ends ('\x1b' :: '[' :: rest) =
      .csi (takeFinal ends rest).1 :: scan ends (takeFinal ends rest).2 := by
  rw [scan.eq_def]
  rfl

theorem scan_osc (rest : List Char) :
    scan ends ('\x1b' :: ']' :: rest) =
      .osc (skipOsc false rest).1 :: scan ends (skipOsc false rest).2 := by
  rw [scan.eq_def]
  rfl

theorem scan_string {next : Char} (h : next ∈ ['P', 'X', '^', '_']) (rest : List Char) :
    scan ends ('\x1b' :: next :: rest) =
      .stringSequence (skipStringSequence false rest).1 ::
        scan ends (skipStringSequence false rest).2 := by
  rw [scan.eq_def]
  simp only [List.mem_cons, List.not_mem_nil, or_false] at h
  rcases h with rfl | rfl | rfl | rfl <;> rfl

theorem scan_escape {next : Char} (h : next ∉ ['[', ']', 'P', 'X', '^', '_'])
    (rest : List Char) :
    scan ends ('\x1b' :: next :: rest) = .escape (some next) :: scan ends rest := by
  simp only [List.mem_cons, List.not_mem_nil, or_false, not_or] at h
  rw [scan.eq_def]
  simp only [if_true]
  split
  · next heq => cases heq
  · next heq => exact absurd (List.cons_eq_cons.mp heq).1 h.1
  · next heq => exact absurd (List.cons_eq_cons.mp heq).1 h.2.1
  · next heq =>
      obtain ⟨rfl, rfl⟩ := List.cons_eq_cons.mp heq
      rw [if_neg]
      simpa using h.2.2

theorem takeFinal_endsCsi (chars : List Char) : takeFinal endsCsi chars = takeCsi chars := by
  induction chars with
  | nil => rfl
  | cons next rest ih => rw [takeFinal, takeCsi, ih]

theorem scan_endsCsi (chars : List Char) : scan endsCsi chars = vtTokens chars := by
  fun_induction vtTokens chars with
  | case1 => exact scan_nil endsCsi
  | case2 => rw [scan.eq_def]; rfl
  | case3 rest ih => rw [scan_csi, takeFinal_endsCsi, ih]
  | case4 rest ih => rw [scan_osc, ih]
  | case5 next rest hcsi hosc hstring ih => rw [scan_string endsCsi hstring, ih]
  | case6 next rest hcsi hosc hstring ih =>
    have hother : next ∉ ['[', ']', 'P', 'X', '^', '_'] := by
      rw [List.mem_cons, List.mem_cons, not_or, not_or]
      exact ⟨hcsi, hosc, hstring⟩
    rw [scan_escape endsCsi hother, ih]
  | case7 ch rest hescape ih => rw [scan_char endsCsi hescape, ih]

end Scanner

inductive StripCarriageReturn where
  | drop
  | newline
  deriving DecidableEq

def endsStripped (c : Char) : Bool := '@' ≤ c && c ≤ '~'

def keptText (carriageReturn : StripCarriageReturn) : VtToken → List Char
  | .char ch =>
    if ch = '\r' then
      match carriageReturn with
      | .drop => []
      | .newline => ['\n']
    else if ch = '\n' ∨ ch = '\t' then [ch]
    else if isControl ch then []
    else [ch]
  | _ => []

def stripAnsiLossy (input : String) (carriageReturn : StripCarriageReturn) : String :=
  String.ofList ((scan endsStripped input.toList).flatMap (keptText carriageReturn))

/-- Which characters of an output are taken for parts of sequences. -/
def escapeMarks (tokens : List VtToken) : List Bool :=
  tokens.flatMap fun token =>
    match token with
    | .char _ => [false]
    | token => List.replicate token.length true

/-- The bytes between the parameters of a sequence and its final byte. -/
def isIntermediate (c : Char) : Bool := 0x20 ≤ c.toNat && c.toNat ≤ 0x2F

def introducers : List Char := ['[', ']', 'P', 'X', '^', '_']

/-- What an output is made of: text, and the sequences of the standard. A string has no escape in
its body, and a BEL ends it just if it is an OSC sequence. -/
inductive Piece where
  | text (chars : List Char) (plain : ∀ c ∈ chars, isControl c = false ∨ c = '\n' ∨ c = '\t')
  | escape (finalByte : Char) (range : '@' ≤ finalByte ∧ finalByte ≤ '~')
      (other : finalByte ∉ introducers)
  | designation (first : Char) (intermediates : List Char) (finalByte : Char)
      (range : ∀ c ∈ first :: intermediates, isIntermediate c = true)
      (finalRange : '0' ≤ finalByte ∧ finalByte ≤ '~')
  | csi (params intermediates : List Char) (finalByte : Char)
      (paramRange : ∀ c ∈ params, isParam c = true)
      (range : ∀ c ∈ intermediates, isIntermediate c = true)
      (finalRange : '@' ≤ finalByte ∧ finalByte ≤ '~')
  | string (kind : Char) (body : List Char) (bel : Bool)
      (isKind : kind ∈ [']', 'P', 'X', '^', '_']) (isOsc : bel = true → kind = ']')
      (plain : ∀ c ∈ body, c ≠ '\x1b' ∧ (kind = ']' → c ≠ '\x07'))

def stringTerminator (bel : Bool) : List Char := if bel then ['\x07'] else ['\x1b', '\\']

def Piece.chars : Piece → List Char
  | .text chars _ => chars
  | .escape finalByte _ _ => ['\x1b', finalByte]
  | .designation first intermediates finalByte _ _ =>
    '\x1b' :: first :: (intermediates ++ [finalByte])
  | .csi params intermediates finalByte _ _ _ =>
    '\x1b' :: '[' :: (params ++ (intermediates ++ [finalByte]))
  | .string kind body bel _ _ _ => '\x1b' :: kind :: (body ++ stringTerminator bel)

def Piece.printable : Piece → List Char
  | .text chars _ => chars
  | _ => []

/-- What is behind the first byte of a designation, which alone is taken off with the escape. -/
def Piece.leaked : Piece → List Char
  | .designation _ intermediates finalByte _ _ => intermediates ++ [finalByte]
  | _ => []

def render (pieces : List Piece) : List Char := pieces.flatMap Piece.chars

def printableText (pieces : List Piece) : List Char := pieces.flatMap Piece.printable

/-- Stripping leaves the text alone, and takes the same characters for sequences as the driver. -/
def StripsExactly (carriageReturn : StripCarriageReturn) (pieces : List Piece) : Prop :=
  stripAnsiLossy (String.ofList (render pieces)) carriageReturn =
      String.ofList (printableText pieces) ∧
    escapeMarks (scan endsStripped (render pieces)) = escapeMarks (vtTokens (render pieces))

/-- The only byte that the driver ends a sequence at is the last. -/
def EndsOnlyLast (chars : List Char) : Prop :=
  ∃ front last, chars = front ++ [last] ∧ endsCsi last = true ∧ ∀ c ∈ front, endsCsi c = false

/-- When the driver reads the pieces as they are, from the text (`false`) or from inside a
control sequence that it has not seen the end of (`true`). Then it goes on to the next byte that
it ends one at, which has to be the last of a sequence and not in a text. -/
def ReadsOn : Bool → List Piece → Prop
  | _, [] => True
  | inside, .text chars _ :: rest => (inside = true → chars = []) ∧ ReadsOn inside rest
  | inside, .escape finalByte _ _ :: rest => ReadsOn (inside && !endsCsi finalByte) rest
  | _, .designation _ _ _ _ _ :: _ => False
  | _, .csi _ _ finalByte _ _ _ :: rest => ReadsOn (!endsCsi finalByte) rest
  | false, .string _ _ _ _ _ _ :: rest => ReadsOn false rest
  | true, .string kind body bel _ _ _ :: rest =>
    (∀ c ∈ kind :: body, endsCsi c = false) ∧ ReadsOn true rest ∨
      EndsOnlyLast (kind :: body) ∧ bel = false ∧ ReadsOn false rest

def Piece.tokens : Piece → List VtToken
  | .text chars _ => chars.map .char
  | .escape finalByte _ _ => [.escape (some finalByte)]
  | .designation first intermediates finalByte _ _ =>
    .escape (some first) :: (intermediates ++ [finalByte]).map .char
  | .csi params intermediates finalByte _ _ _ => [.csi (params ++ (intermediates ++ [finalByte]))]
  | .string kind body bel _ _ _ =>
    [if kind = ']' then .osc (body ++ stringTerminator bel)
      else .stringSequence (body ++ stringTerminator bel)]

/-- The scanner ends a control sequence where it ends. -/
def Piece.EndsBy (ends : Char → Bool) : Piece → Prop
  | .csi _ _ finalByte _ _ _ => ends finalByte = true
  | _ => True

section Pieces

theorem takeFinal_eq {ends : Char → Bool} {front : List Char} (h : ∀ c ∈ front, ends c = false)
    {finalByte : Char} (hfinal : ends finalByte = true) (rest : List Char) :
    takeFinal ends (front ++ finalByte :: rest) = (front ++ [finalByte], rest) := by
  induction front with
  | nil => exact if_pos hfinal
  | cons next front ih =>
    rw [List.forall_mem_cons] at h
    rw [List.cons_append, takeFinal, h.1, if_neg Bool.false_ne_true, ih h.2]
    rfl

theorem skipOsc_body {body : List Char} (h : ∀ c ∈ body, c ≠ '\x1b' ∧ c ≠ '\x07') (bel : Bool)
    (rest : List Char) :
    skipOsc false (body ++ stringTerminator bel ++ rest) =
      (body ++ stringTerminator bel, rest) := by
  induction body with
  | nil => cases bel <;> rfl
  | cons next body ih =>
    rw [List.forall_mem_cons] at h
    have hescape : (next == '\x1b') = false := beq_eq_false_iff_ne.mpr h.1.1
    rw [List.cons_append, List.cons_append, skipOsc, if_neg (by simp [h.1.2]), hescape, ih h.2]

theorem skipStringSequence_body {body : List Char} (h : ∀ c ∈ body, c ≠ '\x1b')
    (rest : List Char) :
    skipStringSequence false (body ++ stringTerminator false ++ rest) =
      (body ++ stringTerminator false, rest) := by
  induction body with
  | nil => rfl
  | cons next body ih =>
    rw [List.forall_mem_cons] at h
    have hescape : (next == '\x1b') = false := beq_eq_false_iff_ne.mpr h.1
    rw [List.cons_append, List.cons_append, skipStringSequence, if_neg (by simp), hescape,
      ih h.2]

theorem scan_chars (ends : Char → Bool) {chars : List Char} (h : ∀ c ∈ chars, c ≠ '\x1b')
    (rest : List Char) : scan ends (chars ++ rest) = chars.map .char ++ scan ends rest := by
  induction chars with
  | nil => rfl
  | cons ch chars ih =>
    rw [List.forall_mem_cons] at h
    rw [List.cons_append, scan_char ends h.1, ih h.2]
    rfl

theorem plain_ne_escape {c : Char} (h : isControl c = false ∨ c = '\n' ∨ c = '\t') :
    c ≠ '\x1b' := by
  rintro rfl
  revert h
  decide

theorem toNat_le_of_le {c d : Char} (h : c ≤ d) : c.toNat ≤ d.toNat := h

theorem ne_escape_of_le {c d : Char} (h : d ≤ c) (hd : 0x1b < d.toNat) : c ≠ '\x1b' := by
  rintro rfl
  exact absurd (toNat_le_of_le h) (not_le.mpr hd)

theorem isIntermediate_range {c : Char} (h : isIntermediate c = true) :
    0x20 ≤ c.toNat ∧ c.toNat ≤ 0x2F := by
  simpa only [isIntermediate, Bool.and_eq_true, decide_eq_true_eq] using h

theorem isParam_range {c : Char} (h : isParam c = true) : 0x30 ≤ c.toNat ∧ c.toNat ≤ 0x3F := by
  simpa only [isParam, Bool.and_eq_true, decide_eq_true_eq] using h

/-- A scanner that ends no sequence at a parameter or an intermediate byte reads a piece as it
is, if it ends it where it ends. -/
theorem scan_piece {ends : Char → Bool} (hlow : ∀ c, c.toNat < 0x40 → ends c = false)
    (piece : Piece) (h : piece.EndsBy ends) (rest : List Char) :
    scan ends (piece.chars ++ rest) = piece.tokens ++ scan ends rest := by
  cases piece with
  | text chars plain => exact scan_chars ends (fun c hc => plain_ne_escape (plain c hc)) rest
  | escape finalByte range other => exact scan_escape ends other rest
  | designation first intermediates finalByte range finalRange =>
    rw [List.forall_mem_cons] at range
    have hfirst := isIntermediate_range range.1
    have hother : first ∉ ['[', ']', 'P', 'X', '^', '_'] := by
      intro hmem
      have hhigh : ∀ c ∈ ['[', ']', 'P', 'X', '^', '_'], 0x2F < c.toNat :=
        forall_mem_of_all (by decide)
      exact absurd hfirst.2 (not_le.mpr (hhigh first hmem))
    have hplain : ∀ c ∈ intermediates ++ [finalByte], c ≠ '\x1b' := by
      rw [List.forall_mem_append, List.forall_mem_singleton]
      constructor
      · rintro c hc rfl
        exact absurd (range.2 _ hc) (by decide)
      · exact ne_escape_of_le finalRange.1 (by decide)
    change scan ends ('\x1b' :: first :: (intermediates ++ [finalByte] ++ rest)) = _
    rw [scan_escape ends hother, scan_chars ends hplain]
    rfl
  | csi params intermediates finalByte paramRange range finalRange =>
    have hfront : ∀ c ∈ params ++ intermediates, ends c = false := by
      rw [List.forall_mem_append]
      constructor
      · intro c hc
        have hc' := isParam_range (paramRange c hc)
        exact hlow c (by omega)
      · intro c hc
        have hc' := isIntermediate_range (range c hc)
        exact hlow c (by omega)
    have hchars : params ++ (intermediates ++ [finalByte]) ++ rest =
        params ++ intermediates ++ finalByte :: rest := by simp
    change scan ends ('\x1b' :: '[' :: (params ++ (intermediates ++ [finalByte]) ++ rest)) = _
    rw [hchars, scan_csi, takeFinal_eq hfront h, List.append_assoc]
    rfl
  | string kind body bel isKind isOsc plain =>
    change scan ends ('\x1b' :: kind :: (body ++ stringTerminator bel ++ rest)) = _
    rw [Piece.tokens]
    by_cases hosc : kind = ']'
    · subst hosc
      rw [if_pos rfl, scan_osc,
        skipOsc_body fun c hc => ⟨(plain c hc).1, (plain c hc).2 rfl⟩]
      rfl
    · have hbel : bel = false := Bool.eq_false_iff.mpr fun hbel => hosc (isOsc hbel)
      have hstring : kind ∈ ['P', 'X', '^', '_'] := (List.mem_cons.mp isKind).resolve_left hosc
      rw [if_neg hosc, scan_string ends hstring, hbel,
        skipStringSequence_body fun c hc => (plain c hc).1]
      rfl

theorem endsStripped_iff {c : Char} : endsStripped c = true ↔ '@' ≤ c ∧ c ≤ '~' := by
  rw [endsStripped, Bool.and_eq_true, decide_eq_true_eq, decide_eq_true_eq]

theorem endsStripped_of_lt (c : Char) (h : c.toNat < 0x40) : endsStripped c = false := by
  apply Bool.eq_false_iff.mpr
  intro hends
  exact absurd (toNat_le_of_le (endsStripped_iff.mp hends).1) (not_le.mpr h)

theorem scan_endsStripped (pieces : List Piece) :
    scan endsStripped (render pieces) = pieces.flatMap Piece.tokens := by
  induction pieces with
  | nil => exact scan_nil endsStripped
  | cons piece pieces ih =>
    have hends : piece.EndsBy endsStripped := by
      cases piece with
      | csi params intermediates finalByte paramRange range finalRange =>
        exact endsStripped_iff.mpr finalRange
      | text chars plain => trivial
      | escape finalByte range other => trivial
      | designation first intermediates finalByte range finalRange => trivial
      | string kind body bel isKind isOsc plain => trivial
    rw [render, List.flatMap_cons, List.flatMap_cons,
      scan_piece endsStripped_of_lt piece hends]
    exact congrArg _ ih

theorem keptText_plain (carriageReturn : StripCarriageReturn) {chars : List Char}
    (h : ∀ c ∈ chars, isControl c = false ∨ c = '\n' ∨ c = '\t') :
    (chars.map VtToken.char).flatMap (keptText carriageReturn) = chars := by
  induction chars with
  | nil => rfl
  | cons ch chars ih =>
    rw [List.forall_mem_cons] at h
    have hreturn : ch ≠ '\r' := by
      rintro rfl
      exact absurd h.1 (by decide)
    have hkept : keptText carriageReturn (.char ch) = [ch] := by
      unfold keptText
      dsimp only
      rw [if_neg hreturn]
      split
      · rfl
      · next hbreak => rw [h.1.resolve_right hbreak, if_neg Bool.false_ne_true]
    rw [List.map_cons, List.flatMap_cons, hkept, ih h.2]
    rfl

theorem isControl_eq_false {c : Char} (h : 0x20 ≤ c.toNat ∧ c.toNat ≤ 0x7E) :
    isControl c = false := by
  simp only [isControl, Bool.or_eq_false_iff, Bool.and_eq_false_iff, decide_eq_false_iff_not]
  omega

theorem keptText_piece (carriageReturn : StripCarriageReturn) (piece : Piece) :
    piece.tokens.flatMap (keptText carriageReturn) = piece.printable ++ piece.leaked := by
  cases piece with
  | text chars plain =>
    rw [Piece.tokens, keptText_plain carriageReturn plain]
    exact (List.append_nil _).symm
  | escape finalByte range other => rfl
  | designation first intermediates finalByte range finalRange =>
    have hplain : ∀ c ∈ intermediates ++ [finalByte],
        isControl c = false ∨ c = '\n' ∨ c = '\t' := by
      rw [List.forall_mem_append, List.forall_mem_singleton]
      constructor
      · intro c hc
        have hc' := isIntermediate_range (range c (List.mem_cons_of_mem _ hc))
        exact .inl (isControl_eq_false (by omega))
      · have hlow : 0x30 ≤ finalByte.toNat := finalRange.1
        have hhigh : finalByte.toNat ≤ 0x7E := finalRange.2
        exact .inl (isControl_eq_false (by omega))
    rw [Piece.tokens, List.flatMap_cons, keptText_plain carriageReturn hplain]
    rfl
  | csi params intermediates finalByte paramRange range finalRange => rfl
  | string kind body bel isKind isOsc plain =>
    rw [Piece.tokens]
    split <;> rfl

/-- Stripping leaves the text, and of each designation what is behind its first byte. -/
theorem stripAnsiLossy_render (carriageReturn : StripCarriageReturn) (pieces : List Piece) :
    stripAnsiLossy (String.ofList (render pieces)) carriageReturn =
      String.ofList (pieces.flatMap fun piece => piece.printable ++ piece.leaked) := by
  rw [stripAnsiLossy, String.toList_ofList, scan_endsStripped, List.flatMap_assoc]
  congr 1
  exact List.flatMap_congr fun piece _ => keptText_piece carriageReturn piece

theorem flatMap_append_eq_iff {α β : Type} (f g : α → List β) (items : List α) :
    (items.flatMap fun item => f item ++ g item) = items.flatMap f ↔
      ∀ item ∈ items, g item = [] := by
  have hlength : (items.flatMap fun item => f item ++ g item).length =
      (items.flatMap f).length + (items.flatMap g).length := by
    induction items with
    | nil => rfl
    | cons item items ih =>
      simp only [List.flatMap_cons, List.length_append] at ih ⊢
      omega
  constructor
  · intro heq
    rw [heq] at hlength
    have hnone : items.flatMap g = [] := List.length_eq_zero_iff.mp (by omega)
    exact List.flatMap_eq_nil_iff.mp hnone
  · intro hnone
    apply List.flatMap_congr
    intro item hitem
    rw [hnone item hitem, List.append_nil]

theorem stripAnsiLossy_eq_iff (carriageReturn : StripCarriageReturn) (pieces : List Piece) :
    stripAnsiLossy (String.ofList (render pieces)) carriageReturn =
        String.ofList (printableText pieces) ↔ ∀ piece ∈ pieces, piece.leaked = [] := by
  rw [stripAnsiLossy_render, String.ofList_inj, printableText, flatMap_append_eq_iff]

/-- What is left of a control sequence, and what is behind it. -/
def openMarks (chars : List Char) : List Bool :=
  List.replicate (takeCsi chars).1.length true ++ escapeMarks (vtTokens (takeCsi chars).2)

/-- What the driver takes for sequences from the text on, or from inside a control sequence. -/
def marksFrom (inside : Bool) (chars : List Char) : List Bool :=
  if inside then openMarks chars else escapeMarks (vtTokens chars)

theorem escapeMarks_append (front back : List VtToken) :
    escapeMarks (front ++ back) = escapeMarks front ++ escapeMarks back := List.flatMap_append ..

theorem replicate_append_cons (n : Nat) (rest : List Bool) :
    List.replicate n true ++ true :: rest = List.replicate (n + 1) true ++ rest := by
  rw [List.replicate_add, List.append_assoc]
  rfl

theorem openMarks_cons (c : Char) (rest : List Char) :
    openMarks (c :: rest) = true :: marksFrom (!endsCsi c) rest := by
  rw [openMarks, takeCsi]
  by_cases hends : endsCsi c = true
  · rw [if_pos hends, hends]
    rfl
  · rw [if_neg hends, Bool.eq_false_iff.mpr hends]
    rfl

theorem openMarks_front {front : List Char} (h : ∀ c ∈ front, endsCsi c = false)
    (rest : List Char) :
    openMarks (front ++ rest) = List.replicate front.length true ++ openMarks rest := by
  rw [openMarks, takeCsi_open h, List.length_append, List.replicate_add, List.append_assoc]
  rfl

theorem escapeMarks_csi (rest : List Char) :
    escapeMarks (vtTokens ('\x1b' :: '[' :: rest)) = true :: true :: openMarks rest := by
  have hlength : (VtToken.csi (takeCsi rest).1).length = (takeCsi rest).1.length + 2 := rfl
  rw [vtTokens_csi, escapeMarks, List.flatMap_cons]
  change List.replicate (VtToken.length _) true ++ _ = _
  rw [hlength]
  rfl

theorem escapeMarks_text {ch : Char} (h : ch ≠ '\x1b') (rest : List Char) :
    escapeMarks (vtTokens (ch :: rest)) = false :: escapeMarks (vtTokens rest) := by
  rw [vtTokens_char h]
  rfl

/-- A control sequence is read up to its end from the text and from inside of another one. -/
theorem marksFrom_csi (inside : Bool) (params intermediates : List Char) (finalByte : Char)
    (paramRange : ∀ c ∈ params, isParam c = true)
    (range : ∀ c ∈ intermediates, isIntermediate c = true) (rest : List Char) :
    marksFrom inside ('\x1b' :: '[' :: (params ++ (intermediates ++ [finalByte]) ++ rest)) =
      List.replicate ((params ++ (intermediates ++ [finalByte])).length + 2) true ++
        marksFrom (!endsCsi finalByte) rest := by
  have hfront : ∀ c ∈ params ++ intermediates, endsCsi c = false := by
    rw [List.forall_mem_append]
    constructor
    · intro c hc
      exact endsCsi_of_isParam (paramRange c hc)
    · intro c hc
      have hc' := isIntermediate_range (range c hc)
      exact endsCsi_of_lt (by omega)
  have hchars : params ++ (intermediates ++ [finalByte]) ++ rest =
      params ++ intermediates ++ finalByte :: rest := by simp
  have hmarks : openMarks (params ++ (intermediates ++ [finalByte]) ++ rest) =
      List.replicate (params ++ (intermediates ++ [finalByte])).length true ++
        marksFrom (!endsCsi finalByte) rest := by
    rw [hchars, openMarks_front hfront, openMarks_cons, replicate_append_cons,
      ← List.append_assoc]
    simp [Nat.add_assoc]
  have hboth : marksFrom inside ('\x1b' :: '[' :: (params ++ (intermediates ++ [finalByte]) ++
      rest)) = true :: true :: openMarks (params ++ (intermediates ++ [finalByte]) ++ rest) := by
    cases inside with
    | false => exact escapeMarks_csi _
    | true =>
      have hescape : endsCsi '\x1b' = false := by decide
      have hbracket : endsCsi '[' = false := by decide
      change openMarks _ = _
      rw [openMarks_cons, hescape]
      change _ :: openMarks _ = _
      rw [openMarks_cons, hbracket]
      rfl
  rw [hboth, hmarks]
  rfl

theorem exists_ends (chars : List Char) :
    (∀ c ∈ chars, endsCsi c = false) ∨
      ∃ front last back, chars = front ++ last :: back ∧ endsCsi last = true ∧
        ∀ c ∈ front, endsCsi c = false := by
  induction chars with
  | nil => exact .inl fun c hc => absurd hc List.not_mem_nil
  | cons c chars ih =>
    by_cases hends : endsCsi c = true
    · exact .inr ⟨[], c, chars, rfl, hends, fun c hc => absurd hc List.not_mem_nil⟩
    · have hc := Bool.eq_false_iff.mpr hends
      rcases ih with hnone | ⟨front, last, back, hchars, hlast, hfront⟩
      · exact .inl (List.forall_mem_cons.mpr ⟨hc, hnone⟩)
      · exact .inr ⟨c :: front, last, back, congrArg _ hchars, hlast,
          List.forall_mem_cons.mpr ⟨hc, hfront⟩⟩

theorem endsCsi_terminator (bel : Bool) : ∀ c ∈ stringTerminator bel, endsCsi c = false := by
  cases bel
  · exact forall_mem_of_all (by decide)
  · exact forall_mem_of_all (by decide)

/-- Inside a control sequence a string is read to the first byte that may end it. -/
theorem openMarks_string_iff {kind : Char} {body : List Char} {bel : Bool}
    (hkind : kind ≠ '\x1b') (hbody : ∀ c ∈ body, c ≠ '\x1b') (rest : List Char)
    (marks : List Bool) :
    openMarks ('\x1b' :: (kind :: body ++ stringTerminator bel ++ rest)) =
        List.replicate ((kind :: body ++ stringTerminator bel).length + 1) true ++ marks ↔
      (∀ c ∈ kind :: body, endsCsi c = false) ∧ openMarks rest = marks ∨
        EndsOnlyLast (kind :: body) ∧ bel = false ∧ escapeMarks (vtTokens rest) = marks := by
  have hescape : endsCsi '\x1b' = false := by decide
  have hplain : ∀ c ∈ kind :: body, c ≠ '\x1b' := List.forall_mem_cons.mpr ⟨hkind, hbody⟩
  have hfirst (chars : List Char) : openMarks ('\x1b' :: chars) = true :: openMarks chars := by
    rw [openMarks_cons, hescape]
    rfl
  clear hkind hbody
  generalize kind :: body = string at hplain ⊢
  rw [hfirst, List.replicate_succ, List.cons_append, List.cons_inj_right]
  rcases exists_ends string with hnone | ⟨front, last, back, hstring, hlast, hfront⟩
  · have hall : ∀ c ∈ string ++ stringTerminator bel, endsCsi c = false :=
      List.forall_mem_append.mpr ⟨hnone, endsCsi_terminator bel⟩
    have hnot : ¬EndsOnlyLast string := by
      rintro ⟨front, last, rfl, hlast, -⟩
      rw [hnone last (by simp)] at hlast
      cases hlast
    rw [openMarks_front hall, List.append_cancel_left_eq]
    exact ⟨fun h => .inl ⟨hnone, h⟩, fun h => h.elim And.right fun h => absurd h.1 hnot⟩
  · have hsome : ¬∀ c ∈ string, endsCsi c = false := by
      intro hnone
      rw [hnone last (by simp [hstring])] at hlast
      cases hlast
    have hmarks : openMarks (string ++ stringTerminator bel ++ rest) =
        List.replicate (front.length + 1) true ++
          escapeMarks (vtTokens (back ++ (stringTerminator bel ++ rest))) := by
      rw [hstring, List.append_assoc, List.append_assoc, openMarks_front hfront,
        List.cons_append, openMarks_cons, hlast, replicate_append_cons]
      rfl
    have hlength : (string ++ stringTerminator bel).length =
        front.length + 1 + (back.length + (stringTerminator bel).length) := by
      rw [hstring]
      simp
      omega
    rw [hmarks, hlength, ← List.replicate_append_replicate (n := front.length + 1),
      List.append_assoc, List.append_cancel_left_eq]
    cases back with
    | cons next back =>
      -- What is behind the byte would be text.
      have hnext : next ≠ '\x1b' := hplain next (by simp [hstring])
      have hnot : ¬EndsOnlyLast string := by
        rintro ⟨front', last', hstring', -, hfront'⟩
        have hdrop : front' = front ++ last :: (next :: back).dropLast := by
          have heq := congrArg List.dropLast (hstring'.symm.trans hstring)
          rw [List.dropLast_concat] at heq
          simpa using heq
        rw [hfront' last (by simp [hdrop])] at hlast
        cases hlast
      rw [List.cons_append, escapeMarks_text hnext, List.length_cons, Nat.succ_add,
        List.replicate_succ, List.cons_append]
      constructor
      · intro heq
        exact absurd (List.cons_eq_cons.mp heq).1 Bool.false_ne_true
      · exact fun h => h.elim (fun h => absurd h.1 hsome) fun h => absurd h.1 hnot
    | nil =>
      have hends : EndsOnlyLast string := ⟨front, last, hstring, hlast, hfront⟩
      rw [List.nil_append]
      cases bel with
      | true =>
        change escapeMarks (vtTokens ('\x07' :: rest)) = true :: marks ↔ _
        rw [escapeMarks_text (by decide)]
        constructor
        · intro heq
          exact absurd (List.cons_eq_cons.mp heq).1 Bool.false_ne_true
        · exact fun h => h.elim (fun h => absurd h.1 hsome) fun h => absurd h.2.1 (by decide)
      | false =>
        change escapeMarks (vtTokens ('\x1b' :: '\\' :: rest)) = true :: true :: marks ↔ _
        rw [vtTokens_escape (by decide)]
        change true :: true :: escapeMarks (vtTokens rest) = true :: true :: marks ↔ _
        rw [List.cons_inj_right, List.cons_inj_right]
        exact ⟨fun h => .inr ⟨hends, rfl, h⟩,
          fun h => h.elim (fun h => absurd h.1 hsome) fun h => h.2.2⟩

theorem ReadsOn.leaked_eq_nil {inside : Bool} {pieces : List Piece} (h : ReadsOn inside pieces) :
    ∀ piece ∈ pieces, piece.leaked = [] := by
  induction pieces generalizing inside with
  | nil => exact fun piece hpiece => absurd hpiece List.not_mem_nil
  | cons piece pieces ih =>
    rw [List.forall_mem_cons]
    cases piece with
    | text chars plain =>
      rw [ReadsOn] at h
      exact ⟨rfl, ih h.2⟩
    | escape finalByte range other =>
      rw [ReadsOn] at h
      exact ⟨rfl, ih h⟩
    | designation first intermediates finalByte range finalRange =>
      rw [ReadsOn] at h
      exact h.elim
    | csi params intermediates finalByte paramRange range finalRange =>
      rw [ReadsOn] at h
      exact ⟨rfl, ih h⟩
    | string kind body bel isKind isOsc plain =>
      cases inside with
      | false =>
        rw [ReadsOn] at h
        exact ⟨rfl, ih h⟩
      | true =>
        rw [ReadsOn] at h
        exact ⟨rfl, h.elim (fun h => ih h.2) fun h => ih h.2.2⟩

/-- Without designations the driver takes the sequences for what they are just if it reads on. -/
theorem marksFrom_iff (inside : Bool) {pieces : List Piece}
    (hleaked : ∀ piece ∈ pieces, piece.leaked = []) :
    marksFrom inside (render pieces) = escapeMarks (pieces.flatMap Piece.tokens) ↔
      ReadsOn inside pieces := by
  induction pieces generalizing inside with
  | nil => cases inside <;> simp [marksFrom, openMarks, render, takeCsi, vtTokens_nil, ReadsOn]
  | cons piece pieces ih =>
    rw [List.forall_mem_cons] at hleaked
    have hrender : render (piece :: pieces) = piece.chars ++ render pieces := rfl
    rw [hrender, List.flatMap_cons, escapeMarks_append]
    have hground (hends : piece.EndsBy endsCsi) :
        marksFrom false (piece.chars ++ render pieces) =
            escapeMarks piece.tokens ++ escapeMarks (pieces.flatMap Piece.tokens) ↔
          ReadsOn false pieces := by
      change escapeMarks (vtTokens (piece.chars ++ render pieces)) = _ ↔ _
      rw [← scan_endsCsi, scan_piece (fun c => endsCsi_of_lt) piece hends, scan_endsCsi,
        escapeMarks_append, List.append_cancel_left_eq]
      exact ih false hleaked.2
    cases piece with
    | text chars plain =>
      rw [ReadsOn]
      cases inside with
      | false => exact (hground trivial).trans (and_iff_right fun h => absurd h Bool.false_ne_true).symm
      | true =>
        cases chars with
        | nil => exact (ih true hleaked.2).trans (and_iff_right fun _ => rfl).symm
        | cons c chars =>
          change openMarks (c :: (chars ++ render pieces)) = false :: _ ↔ _
          rw [openMarks_cons]
          constructor
          · intro heq
            exact absurd (List.cons_eq_cons.mp heq).1.symm Bool.false_ne_true
          · exact fun h => absurd (h.1 rfl) (List.cons_ne_nil _ _)
    | escape finalByte range other =>
      rw [ReadsOn]
      cases inside with
      | false => exact hground trivial
      | true =>
        have hescape : endsCsi '\x1b' = false := by decide
        change openMarks ('\x1b' :: finalByte :: render pieces) = true :: true :: _ ↔ _
        rw [openMarks_cons, hescape, List.cons_inj_right]
        change openMarks (finalByte :: render pieces) = true :: _ ↔ _
        rw [openMarks_cons, List.cons_inj_right]
        exact ih _ hleaked.2
    | designation first intermediates finalByte range finalRange =>
      exact absurd hleaked.1 (by simp [Piece.leaked])
    | csi params intermediates finalByte paramRange range finalRange =>
      have htokens : escapeMarks (Piece.csi params intermediates finalByte paramRange range
          finalRange).tokens =
            List.replicate ((params ++ (intermediates ++ [finalByte])).length + 2) true :=
        List.append_nil _
      have hmarks := marksFrom_csi inside params intermediates finalByte paramRange range
        (render pieces)
      change marksFrom inside ('\x1b' :: '[' :: (params ++ (intermediates ++ [finalByte]) ++
        render pieces)) = _ ↔ _
      rw [hmarks, htokens, List.append_cancel_left_eq, ReadsOn]
      exact ih _ hleaked.2
    | string kind body bel isKind isOsc plain =>
      cases inside with
      | false =>
        rw [ReadsOn]
        exact hground trivial
      | true =>
        have htokens : escapeMarks (Piece.string kind body bel isKind isOsc plain).tokens =
            List.replicate ((kind :: body ++ stringTerminator bel).length + 1) true := by
          rw [Piece.tokens]
          split <;> exact List.append_nil _
        have hkind : kind ≠ '\x1b' := by
          rintro rfl
          exact absurd isKind (by decide)
        rw [htokens, ReadsOn, ← ih true hleaked.2, ← ih false hleaked.2]
        exact openMarks_string_iff hkind (fun c hc => (plain c hc).1) (render pieces) _

end Pieces

/-- Stripping and the driver take an output for what it is just if it has no designations and
the driver reads on behind each control sequence. -/
theorem stripsExactly_iff (carriageReturn : StripCarriageReturn) (pieces : List Piece) :
    StripsExactly carriageReturn pieces ↔ ReadsOn false pieces := by
  have hsame (hleaked : ∀ piece ∈ pieces, piece.leaked = []) :
      escapeMarks (scan endsStripped (render pieces)) = escapeMarks (vtTokens (render pieces)) ↔
        ReadsOn false pieces := by
    rw [scan_endsStripped, eq_comm]
    exact marksFrom_iff false hleaked
  rw [StripsExactly, stripAnsiLossy_eq_iff]
  constructor
  · exact fun h => (hsame h.1).mp h.2
  · exact fun h => ⟨h.leaked_eq_nil, (hsame h.leaked_eq_nil).mpr h⟩

/-- A designation in front of a text, and a control sequence that no letter ends. -/
theorem not_stripsExactly :
    ¬StripsExactly .drop
        [.designation '(' [] 'B' (forall_mem_of_all (by decide)) (by decide),
          .text ['x'] (forall_mem_of_all (by decide))] ∧
      ¬StripsExactly .drop
        [.csi ['1'] [] '`' (forall_mem_of_all (by decide)) (forall_mem_of_all (by decide))
            (by decide),
          .text ['x', 'y'] (forall_mem_of_all (by decide))] := by
  unfold StripsExactly
  constructor
  · decide +kernel
  · decide +kernel

end HerdrWebui.Terminal
