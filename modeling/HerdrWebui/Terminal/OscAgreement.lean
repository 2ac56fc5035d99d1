import HerdrWebui.Terminal.OscSequences

/-!
What the renderer sees of a stream that is cut into its sequences, and the streams in which
the tracker sees the same.
-/

namespace HerdrWebui.Terminal

inductive VtMode where
  | ground
  | escape
  | csi
  | string (osc previousEscape : Bool)

def VtMode.step : VtMode → Char → VtMode
  | .ground, c => if c = '\x1b' then .escape else .ground
  | .escape, c =>
    if c = '[' then .csi
    else if c = ']' then .string true false
    else if c ∈ ['P', 'X', '^', '_'] then .string false false
    else .ground
  | .csi, c => if endsCsi c then .ground else .csi
  | .string osc previousEscape, c =>
    if osc = true ∧ c = '\x07' ∨ previousEscape = true ∧ c = '\\' then .ground
    else .string osc (c == '\x1b')

def vtScanner {α : Type} (char : α → Char) (size : α → Nat) : Scanner VtMode α where
  step mode symbol := mode.step (char symbol)
  inOsc mode := match mode with
    | .string osc _ => osc
    | _ => false
  closes _ _ := true
  size := size

def VtMode.afterText : VtMode → VtMode
  | .ground => .ground
  | .escape => .ground
  | .csi => .csi
  | .string osc _ => .string osc false

theorem VtMode.step_high (mode : VtMode) {c : Char} (h : 0x80 ≤ c.toNat) :
    mode.step c = mode.afterText := by
  have hne {d : Char} (hd : d.toNat < 0x80) : c ≠ d := by
    rintro rfl
    omega
  have halpha : c.isAlpha = false := by
    have hvalue : 0x80 ≤ c.val.toNat := h
    unfold Char.isAlpha Char.isUpper Char.isLower
    simp only [UInt32.le_iff_toNat_le]
    simp
    omega
  cases mode with
  | ground => exact if_neg (hne (by decide))
  | escape =>
    simp [VtMode.step, VtMode.afterText, hne (by decide : '['.toNat < 0x80),
      hne (by decide : ']'.toNat < 0x80), hne (by decide : 'P'.toNat < 0x80),
      hne (by decide : 'X'.toNat < 0x80), hne (by decide : '^'.toNat < 0x80),
      hne (by decide : '_'.toNat < 0x80)]
  | csi =>
    simp [VtMode.step, VtMode.afterText, endsCsi, halpha, hne (by decide : '~'.toNat < 0x80),
      hne (by decide : '@'.toNat < 0x80)]
  | string osc previousEscape =>
    simp [VtMode.step, VtMode.afterText, hne (by decide : '\x07'.toNat < 0x80),
      hne (by decide : '\\'.toNat < 0x80), hne (by decide : '\x1b'.toNat < 0x80)]

theorem takeCsi_drop (chars : List Char) :
    (takeCsi chars).2 = chars.drop (takeCsi chars).1.length := by
  induction chars with
  | nil => rfl
  | cons next rest ih =>
    rw [takeCsi]
    split
    · rfl
    · exact ih

theorem skipOsc_drop (previousEscape : Bool) (chars : List Char) :
    (skipOsc previousEscape chars).2 =
      chars.drop (skipOsc previousEscape chars).1.length := by
  induction chars generalizing previousEscape with
  | nil => rfl
  | cons next rest ih =>
    rw [skipOsc]
    split
    · rfl
    · exact ih _

theorem skipStringSequence_drop (previousEscape : Bool) (chars : List Char) :
    (skipStringSequence previousEscape chars).2 =
      chars.drop (skipStringSequence previousEscape chars).1.length := by
  induction chars generalizing previousEscape with
  | nil => rfl
  | cons next rest ih =>
    rw [skipStringSequence]
    split
    · rfl
    · exact ih _

section Symbols

variable {α : Type} {char : α → Char} {size : α → Nat}

theorem spans_takeCsi (start start' pos : Nat) (symbols : List α) :
    (vtScanner char size).spans .csi start pos symbols =
      (vtScanner char size).spans .ground start'
        (pos + ((symbols.map size).take (takeCsi (symbols.map char)).1.length).sum)
        (symbols.drop (takeCsi (symbols.map char)).1.length) := by
  induction symbols generalizing start pos with
  | nil => rfl
  | cons symbol symbols ih =>
    rw [List.map_cons, takeCsi]
    by_cases hends : endsCsi (char symbol) = true
    · have hstep : (vtScanner char size).step .csi symbol = .ground := if_pos hends
      rw [if_pos hends, spans_outside rfl (by rw [hstep]; rfl) start start', hstep]
      simp [vtScanner]
    · have hstep : (vtScanner char size).step .csi symbol = .csi := if_neg hends
      rw [if_neg hends, spans_outside rfl (by rw [hstep]; rfl) start start, hstep, ih]
      simp [vtScanner, Nat.add_assoc]

theorem spans_skipString (previousEscape : Bool) (start start' pos : Nat)
    (symbols : List α) :
    (vtScanner char size).spans (.string false previousEscape) start pos symbols =
      (vtScanner char size).spans .ground start'
        (pos + ((symbols.map size).take
          (skipStringSequence previousEscape (symbols.map char)).1.length).sum)
        (symbols.drop (skipStringSequence previousEscape (symbols.map char)).1.length) := by
  induction symbols generalizing previousEscape start pos with
  | nil => rfl
  | cons symbol symbols ih =>
    rw [List.map_cons, skipStringSequence]
    by_cases hends : previousEscape = true ∧ char symbol = '\\'
    · have hstep : (vtScanner char size).step (.string false previousEscape) symbol = .ground :=
        if_pos (Or.inr hends)
      rw [if_pos hends, spans_outside rfl (by rw [hstep]; rfl) start start', hstep]
      simp [vtScanner]
    · have hstep : (vtScanner char size).step (.string false previousEscape) symbol =
          .string false (char symbol == '\x1b') :=
        if_neg (not_or.mpr ⟨fun hand => Bool.false_ne_true hand.1, hends⟩)
      rw [if_neg hends, spans_outside rfl (by rw [hstep]; rfl) start start, hstep, ih]
      simp [vtScanner, Nat.add_assoc]

/-- A terminator is in what is left of a body, the last symbol counted in. -/
def HasTerminator (previousEscape : Bool) (body : List Char) : Prop :=
  '\x07' ∈ body ∨ ['\x1b', '\\'] <:+: if previousEscape then '\x1b' :: body else body

theorem hasTerminator_cons {previousEscape : Bool} {c : Char} {body : List Char} :
    HasTerminator previousEscape (c :: body) ↔
      (c = '\x07' ∨ previousEscape = true ∧ c = '\\') ∨ HasTerminator (c == '\x1b') body := by
  unfold HasTerminator
  rw [pair_infix_cons, List.mem_cons, eq_comm (a := '\x07')]
  tauto

instance (previousEscape : Bool) (body : List Char) :
    Decidable (HasTerminator previousEscape body) := inferInstanceAs (Decidable (_ ∨ _))

theorem not_hasTerminator_nil (previousEscape : Bool) : ¬HasTerminator previousEscape [] := by
  cases previousEscape <;> decide

theorem spans_skipOsc (previousEscape : Bool) (start start' pos : Nat) (symbols : List α) :
    (vtScanner char size).spans (.string true previousEscape) start pos symbols =
      ⟨start, if HasTerminator previousEscape (skipOsc previousEscape (symbols.map char)).1 then
          .terminated (pos + ((symbols.map size).take
            (skipOsc previousEscape (symbols.map char)).1.length).sum)
        else .unfinished⟩ ::
        (vtScanner char size).spans .ground start'
          (pos + ((symbols.map size).take
            (skipOsc previousEscape (symbols.map char)).1.length).sum)
          (symbols.drop (skipOsc previousEscape (symbols.map char)).1.length) := by
  induction symbols generalizing previousEscape start pos with
  | nil =>
    have hnone : ¬HasTerminator previousEscape (skipOsc previousEscape (List.map char [])).1 :=
      not_hasTerminator_nil previousEscape
    rw [if_neg hnone]
    rfl
  | cons symbol symbols ih =>
    rw [List.map_cons, skipOsc]
    by_cases hends : char symbol = '\x07' ∨ previousEscape = true ∧ char symbol = '\\'
    · have hstep : (vtScanner char size).step (.string true previousEscape) symbol = .ground :=
        if_pos (hends.imp_left fun hbel => ⟨rfl, hbel⟩)
      rw [if_pos hends, if_pos (hasTerminator_cons.mpr (.inl hends)),
        spans_closes rfl (by rw [hstep]; rfl) rfl start start', hstep]
      simp [vtScanner]
    · have hstep : (vtScanner char size).step (.string true previousEscape) symbol =
          .string true (char symbol == '\x1b') :=
        if_neg fun h => hends (h.imp_left And.right)
      rw [if_neg hends, spans_inside rfl (by rw [hstep]; rfl), hstep, ih]
      simp only [hasTerminator_cons, hends, false_or]
      simp [vtScanner, Nat.add_assoc]

/-- A symbol that leads from one mode to another, both outside of OSC sequences. -/
theorem spans_ground_cons {mode : VtMode} {symbol : α} (next : VtMode)
    (h : (vtScanner char size).inOsc mode = false)
    (hstep : mode.step (char symbol) = next)
    (hnext : (vtScanner char size).inOsc next = false) (start start' pos : Nat)
    (symbols : List α) :
    (vtScanner char size).spans mode start pos (symbol :: symbols) =
      (vtScanner char size).spans next start' (pos + size symbol) symbols := by
  subst hstep
  exact spans_outside h hnext start start' pos symbols

/-- The tokens that are OSC sequences are those that the scanner is inside of. -/
theorem tokenSpans_eq (symbols : List α)
    (hesc : ∀ symbol ∈ symbols, char symbol = '\x1b' → size symbol = 1) (start pos : Nat) :
    tokenSpans pos (symbols.map size) (vtTokens (symbols.map char)) =
      (vtScanner char size).spans .ground start pos symbols := by
  obtain ⟨n, hn⟩ : ∃ n, symbols.length ≤ n := ⟨_, le_rfl⟩
  induction n generalizing symbols start pos with
  | zero =>
    rw [List.length_eq_zero_iff.mp (Nat.le_zero.mp hn)]
    simp only [List.map_nil, vtTokens_nil, tokenSpans]
    rfl
  | succ n ih =>
    match symbols with
    | [] =>
      simp only [List.map_nil, vtTokens_nil, tokenSpans]
      rfl
    | first :: symbols =>
      rw [List.forall_mem_cons] at hesc
      obtain ⟨hone, hesc⟩ := hesc
      rw [List.length_cons] at hn
      simp only [List.map_cons]
      by_cases hfirst : char first = '\x1b'
      · have hopen : VtMode.ground.step (char first) = .escape := if_pos hfirst
        rw [hfirst, spans_ground_cons .escape rfl hopen rfl start start]
        match symbols with
        | [] =>
          simp only [List.map_nil, vtTokens_lone, tokenSpans]
          rfl
        | second :: symbols =>
          rw [List.forall_mem_cons] at hesc
          rw [List.length_cons] at hn
          simp only [List.map_cons]
          -- What the sequence leaves is shorter.
          have hrest (count pos : Nat) :
              tokenSpans pos ((symbols.map size).drop count)
                  (vtTokens ((symbols.map char).drop count)) =
                (vtScanner char size).spans .ground start pos (symbols.drop count) := by
            rw [← List.map_drop, ← List.map_drop]
            apply ih
            · exact fun symbol hmem => hesc.2 symbol (List.mem_of_mem_drop hmem)
            · rw [List.length_drop]
              omega
          by_cases hcsi : char second = '['
          · have hstep : VtMode.escape.step (char second) = .csi := if_pos hcsi
            rw [hcsi, vtTokens_csi, tokenSpans_cons (.csi _) nofun,
              spans_ground_cons .csi rfl hstep rfl start start, spans_takeCsi start start,
              takeCsi_drop, ← hrest]
            simp [VtToken.length, Nat.add_assoc]
          by_cases hosc : char second = ']'
          · have hstep : (vtScanner char size).step .escape second = .string true false :=
              (if_neg hcsi).trans (if_pos hosc)
            rw [hosc, vtTokens_osc, spans_opens rfl, hstep, spans_skipOsc false _ start,
              skipOsc_drop, ← hrest]
            simp [tokenSpans, VtToken.length, Nat.add_assoc, hone hfirst, vtScanner,
              oscTerminated, HasTerminator]
          by_cases hstring : char second ∈ ['P', 'X', '^', '_']
          · have hstep : VtMode.escape.step (char second) = .string false false := by
              rw [VtMode.step, if_neg hcsi, if_neg hosc, if_pos hstring]
            rw [vtTokens_string hstring, tokenSpans_cons (.stringSequence _) nofun,
              spans_ground_cons _ rfl hstep rfl start start,
              spans_skipString false start start, skipStringSequence_drop, ← hrest]
            simp [VtToken.length, Nat.add_assoc]
          · have hstep : VtMode.escape.step (char second) = .ground := by
              rw [VtMode.step, if_neg hcsi, if_neg hosc, if_neg hstring]
            have hnone : char second ∉ ['[', ']', 'P', 'X', '^', '_'] := by
              rw [List.mem_cons, List.mem_cons, not_or, not_or]
              exact ⟨hcsi, hosc, hstring⟩
            rw [vtTokens_escape hnone, tokenSpans_cons (.escape _) nofun,
              spans_ground_cons .ground rfl hstep rfl start start]
            have hlast := hrest 0 (pos + size first + size second)
            simpa [VtToken.length, Nat.add_assoc] using hlast
      · have hstep : VtMode.ground.step (char first) = .ground := if_neg hfirst
        rw [vtTokens_char hfirst, tokenSpans_cons (.char _) nofun,
          spans_ground_cons .ground rfl hstep rfl start start,
          ← ih symbols hesc start _ (Nat.le_of_succ_le_succ hn)]
        simp [VtToken.length]

theorem inOsc_afterText (mode : VtMode) :
    (vtScanner char size).inOsc mode.afterText = (vtScanner char size).inOsc mode := by
  cases mode <;> rfl

theorem spans_text {mode : VtMode} {symbol : α} (h : 0x80 ≤ (char symbol).toNat)
    (start pos : Nat) (symbols : List α) :
    (vtScanner char size).spans mode start pos (symbol :: symbols) =
      (vtScanner char size).spans mode.afterText start (pos + size symbol) symbols := by
  have hstep : (vtScanner char size).step mode symbol = mode.afterText := mode.step_high h
  have hsame : (vtScanner char size).inOsc ((vtScanner char size).step mode symbol) =
      (vtScanner char size).inOsc mode := by rw [hstep, inOsc_afterText]
  rw [← hstep]
  cases hin : (vtScanner char size).inOsc mode with
  | false => exact spans_outside hin (hsame.trans hin) start start pos symbols
  | true => exact spans_inside hin (hsame.trans hin) start pos symbols

end Symbols

def byteScanner : Scanner VtMode UInt8 := vtScanner latin fun _ => 1

theorem latin_toNat (byte : UInt8) : (latin byte).toNat = byte.toNat := by
  have hvalid : byte.toNat.isValidChar := Or.inl (by have := byte.toNat_lt; omega)
  rw [latin, Char.ofNat, dif_pos hvalid]
  rfl

theorem afterText_afterText (mode : VtMode) : mode.afterText.afterText = mode.afterText := by
  cases mode <;> rfl

/-- Some bytes that are not of ASCII are read like one character that is not. -/
theorem byteSpans_text (mode : VtMode) {bytes : List UInt8} (hne : bytes ≠ [])
    (h : ∀ byte ∈ bytes, ¬byte < 0x80) (start pos : Nat) (more : List UInt8) :
    byteScanner.spans mode start pos (bytes ++ more) =
      byteScanner.spans mode.afterText start (pos + bytes.length) more := by
  induction bytes generalizing mode pos with
  | nil => exact absurd rfl hne
  | cons byte bytes ih =>
    rw [List.forall_mem_cons] at h
    have hhigh : 0x80 ≤ (latin byte).toNat := by
      have hle := UInt8.le_iff_toNat_le.mp (UInt8.not_lt.mp h.1)
      rw [latin_toNat]
      exact hle
    rw [List.cons_append, byteScanner, spans_text hhigh]
    by_cases hlast : bytes = []
    · rw [hlast]
      rfl
    · have hrest := ih mode.afterText hlast h.2 (pos + 1)
      rw [afterText_afterText] at hrest
      rw [List.length_cons, ← Nat.add_assoc, Nat.add_right_comm]
      exact hrest

theorem byteSpans_pieces (mode : VtMode) (pieces : List (Char × List UInt8))
    (h : ∀ piece ∈ pieces, IsPiece piece) (start pos : Nat) :
    (vtScanner (α := Char × List UInt8) (·.1) (·.2.length)).spans mode start pos pieces =
      byteScanner.spans mode start pos (pieces.flatMap (·.2)) := by
  induction pieces generalizing mode start pos with
  | nil => rfl
  | cons piece pieces ih =>
    rw [List.forall_mem_cons] at h
    rw [List.flatMap_cons]
    rcases h.1 with ⟨byte, -, rfl⟩ | ⟨hhigh, hne, hbytes⟩
    · have hrest := ih (mode.step (latin byte)) h.2
      rw [List.singleton_append, Scanner.spans, Scanner.spans]
      simp only [byteScanner, vtScanner, List.length_singleton] at hrest ⊢
      rw [← hrest, ← hrest]
      rfl
    · rw [spans_text hhigh, byteSpans_text mode hne hbytes, ih _ h.2]

theorem rendererSpans_eq (bytes : List UInt8) :
    rendererSpans bytes = byteScanner.spans .ground 0 0 bytes := by
  have hpieces : ∀ piece ∈ lossyPieces bytes, IsPiece piece := fun _ => isPiece_of_mem
  have hescape : ∀ piece ∈ lossyPieces bytes, piece.1 = '\x1b' → piece.2.length = 1 := by
    intro piece hmem hchar
    rcases hpieces piece hmem with ⟨byte, -, rfl⟩ | ⟨hhigh, -, -⟩
    · rfl
    · rw [hchar] at hhigh
      exact absurd hhigh (by decide)
  unfold rendererSpans
  rw [tokenSpans_eq _ hescape 0, byteSpans_pieces _ _ hpieces, lossyPieces_bytes]

theorem latin_inj {byte byte' : UInt8} : latin byte = latin byte' ↔ byte = byte' := by
  apply Iff.intro _ (congrArg latin)
  intro heq
  have hnat := congrArg Char.toNat heq
  rw [latin_toNat, latin_toNat] at hnat
  exact UInt8.toNat_inj.mp hnat

/-- A byte that leads from one mode to another, both outside of OSC sequences. -/
theorem byteSpans_cons {mode : VtMode} {byte : UInt8} (next : VtMode)
    (h : byteScanner.inOsc mode = false) (hstep : mode.step (latin byte) = next)
    (hnext : byteScanner.inOsc next = false) (start start' pos : Nat) (bytes : List UInt8) :
    byteScanner.spans mode start pos (byte :: bytes) =
      byteScanner.spans next start' (pos + 1) bytes :=
  spans_ground_cons next h hstep hnext start start' pos bytes

theorem byteSpans_csi {params : List UInt8}
    (h : ∀ param ∈ params, endsCsi (latin param) = false) (start pos : Nat)
    (more : List UInt8) :
    byteScanner.spans .csi start pos (params ++ more) =
      byteScanner.spans .csi start (pos + params.length) more := by
  induction params generalizing pos with
  | nil => rfl
  | cons param params ih =>
    rw [List.forall_mem_cons] at h
    have hstep : VtMode.csi.step (latin param) = .csi :=
      if_neg (Bool.eq_false_iff.mp h.1)
    rw [List.cons_append, byteSpans_cons .csi rfl hstep rfl start start, ih h.2,
      List.length_cons, Nat.add_assoc, Nat.add_comm 1]

theorem byteSpans_body {osc previousEscape : Bool} {body : List UInt8}
    (hbel : osc = true → 0x07 ∉ body)
    (hst : ¬terminator false <:+: if previousEscape then 0x1b :: body else body)
    (start pos : Nat) (more : List UInt8) :
    byteScanner.spans (.string osc previousEscape) start pos (body ++ more) =
      byteScanner.spans (.string osc (escapedAfter previousEscape body)) start
        (pos + body.length) more := by
  induction body generalizing previousEscape pos with
  | nil => rfl
  | cons byte body ih =>
    have hpair := mt pair_infix_cons.mpr hst
    rw [not_or] at hpair
    have hstep : VtMode.step (.string osc previousEscape) (latin byte) =
        .string osc (byte == 0x1b) := by
      have hescape : (latin byte == '\x1b') = (byte == 0x1b) :=
        decide_eq_decide.mpr (latin_inj : latin byte = latin 0x1b ↔ _)
      rw [VtMode.step, hescape]
      apply if_neg
      rintro (⟨hosc, hends⟩ | ⟨hescaped, hends⟩)
      · have hbyte : byte = 0x07 := (latin_inj : latin byte = latin 0x07 ↔ _).mp hends
        exact hbel hosc (hbyte ▸ List.mem_cons_self)
      · exact hpair.1 ⟨hescaped, (latin_inj : latin byte = latin 0x5c ↔ _).mp hends⟩
    have hrest := ih (fun hosc hmem => hbel hosc (List.mem_cons_of_mem _ hmem)) hpair.2 (pos + 1)
    rw [List.length_cons, ← Nat.add_assoc, Nat.add_right_comm, List.cons_append]
    apply Eq.trans _ hrest
    rw [← hstep]
    cases osc with
    | false =>
      have hnext : byteScanner.inOsc
          (VtMode.step (.string false previousEscape) (latin byte)) = false := by
        rw [hstep]
        rfl
      exact spans_outside rfl hnext start start pos _
    | true =>
      have hnext : byteScanner.inOsc
          (VtMode.step (.string true previousEscape) (latin byte)) = true := by
        rw [hstep]
        rfl
      exact spans_inside rfl hnext start pos _

theorem byteSpans_unended {osc : Bool} {body : List UInt8} (h : Unended osc body)
    (start pos : Nat) (more : List UInt8) :
    byteScanner.spans (.string osc false) start pos (body ++ more) =
      byteScanner.spans (.string osc (escapedAfter false body)) start (pos + body.length) more := by
  have hst : ¬terminator false <:+: if false then 0x1b :: body else body := h.2
  exact byteSpans_body h.1 hst start pos more

theorem byteSpans_terminator (bel previousEscape : Bool) (start start' pos : Nat)
    (more : List UInt8) :
    byteScanner.spans (.string true previousEscape) start pos (terminator bel ++ more) =
      ⟨start, .terminated (pos + (terminator bel).length)⟩ ::
        byteScanner.spans .ground start' (pos + (terminator bel).length) more := by
  cases bel with
  | true => exact spans_closes rfl (by cases previousEscape <;> rfl) rfl start start' pos more
  | false =>
    have hescape : byteScanner.step (.string true previousEscape) 0x1b = .string true true := by
      cases previousEscape <;> rfl
    have hinside := (spans_inside rfl (by rw [hescape]; rfl) start pos (0x5c :: more) :
      byteScanner.spans _ _ _ (0x1b :: _) = _)
    rw [hescape] at hinside
    exact hinside.trans (spans_closes rfl rfl rfl start start' (pos + 1) more)

theorem byteSpans_stringEnd (previousEscape : Bool) (start start' pos : Nat)
    (more : List UInt8) :
    byteScanner.spans (.string false previousEscape) start pos (terminator false ++ more) =
      byteScanner.spans .ground start' (pos + (terminator false).length) more := by
  have hescape : byteScanner.step (.string false previousEscape) 0x1b = .string false true := by
    cases previousEscape <;> rfl
  have houtside := (spans_outside rfl (by rw [hescape]; rfl) start start pos (0x5c :: more) :
    byteScanner.spans _ _ _ (0x1b :: _) = _)
  rw [hescape] at houtside
  exact houtside.trans (spans_outside rfl rfl start start' (pos + 1) more)

theorem step_csi : VtMode.escape.step (latin 0x5b) = .csi := rfl

theorem step_stringKind {kind : UInt8} (h : kind ∈ stringKinds) :
    VtMode.escape.step (latin kind) = .string false false := by
  simp only [stringKinds, List.mem_cons, List.not_mem_nil, or_false] at h
  rcases h with rfl | rfl | rfl | rfl <;> rfl

theorem step_escape {next : UInt8} (h : next ∉ 0x5b :: 0x5d :: stringKinds) :
    VtMode.escape.step (latin next) = .ground := by
  have hne {byte : UInt8} (hbyte : byte ∈ 0x5b :: 0x5d :: stringKinds) :
      latin next ≠ latin byte := fun heq => h (latin_inj.mp heq ▸ hbyte)
  have hbracket : latin next ≠ '[' := hne (by decide : (0x5b : UInt8) ∈ _)
  have hosc : latin next ≠ ']' := hne (by decide : (0x5d : UInt8) ∈ _)
  have hstring : latin next ∉ ['P', 'X', '^', '_'] := by
    simp only [List.mem_cons, List.not_mem_nil, or_false, not_or]
    exact ⟨hne (by decide : (0x50 : UInt8) ∈ _), hne (by decide : (0x58 : UInt8) ∈ _),
      hne (by decide : (0x5e : UInt8) ∈ _), hne (by decide : (0x5f : UInt8) ∈ _)⟩
  rw [VtMode.step, if_neg hbracket, if_neg hosc, if_neg hstring]

theorem byteSpans_introducer {second : UInt8} {mode : VtMode}
    (hstep : VtMode.escape.step (latin second) = mode) (hmode : byteScanner.inOsc mode = false)
    (start pos : Nat) (bytes : List UInt8) :
    byteScanner.spans .ground start pos (0x1b :: second :: bytes) =
      byteScanner.spans mode start (pos + 2) bytes := by
  rw [byteSpans_cons .escape rfl rfl rfl start start, byteSpans_cons mode rfl hstep hmode start start]

theorem byteSpans_osc (start pos : Nat) (bytes : List UInt8) :
    byteScanner.spans .ground start pos (0x1b :: 0x5d :: bytes) =
      byteScanner.spans (.string true false) pos (pos + 2) bytes := by
  rw [byteSpans_cons .escape rfl rfl rfl start start]
  exact spans_opens rfl 0x5d start (pos + 1) bytes

/-- A whole sequence leads back to the ground, and is seen just if it is an OSC sequence. -/
theorem byteSpans_item {item : VtItem} (h : item.IsWhole) (rest : VtRest)
    (items : List VtItem) (start pos : Nat) (more : List UInt8)
    (hmore : byteScanner.spans .ground start (pos + item.bytes.length) more =
      cutSpans rest (pos + item.bytes.length) items) :
    byteScanner.spans .ground start pos (item.bytes ++ more) =
      cutSpans rest pos (item :: items) := by
  cases item with
  | plain byte =>
    have hstep : VtMode.ground.step (latin byte) = .ground :=
      if_neg fun heq => h ((latin_inj : latin byte = latin 0x1b ↔ _).mp heq)
    exact (byteSpans_cons .ground rfl hstep rfl start start pos more).trans hmore
  | escape next =>
    exact (byteSpans_introducer (step_escape h) rfl start pos more).trans hmore
  | csi params finalByte =>
    have hfinal : VtMode.csi.step (latin finalByte) = .ground := if_pos h.2
    have hlength : pos + (VtItem.csi params finalByte).bytes.length =
        pos + 2 + params.length + 1 := by
      simp [VtItem.bytes]
      omega
    rw [hlength] at hmore
    rw [VtItem.bytes, List.cons_append, List.cons_append,
      byteSpans_introducer step_csi rfl, List.append_assoc, byteSpans_csi h.1, List.singleton_append,
      byteSpans_cons .ground rfl hfinal rfl start start, hmore, ← hlength]
    rfl
  | string kind payload =>
    have hlength : pos + (VtItem.string kind payload).bytes.length =
        pos + 2 + payload.length + (terminator false).length := by
      simp [VtItem.bytes]
      omega
    rw [hlength] at hmore
    rw [VtItem.bytes, List.cons_append, List.cons_append,
      byteSpans_introducer (step_stringKind h.1) rfl, List.append_assoc,
      byteSpans_unended h.2, byteSpans_stringEnd _ start start, hmore, ← hlength]
    rfl
  | osc body bel =>
    have hlength : pos + (VtItem.osc body bel).bytes.length =
        pos + 2 + body.length + (terminator bel).length := by
      simp [VtItem.bytes]
      omega
    rw [hlength] at hmore
    rw [VtItem.bytes, List.cons_append, List.cons_append, byteSpans_osc, List.append_assoc,
      byteSpans_unended h, byteSpans_terminator bel _ pos start, hmore, ← hlength]
    rfl

theorem byteSpans_rest {rest : VtRest} (h : rest.IsOpen) (start pos : Nat) :
    byteScanner.spans .ground start pos rest.bytes = cutSpans rest pos [] := by
  cases rest with
  | nothing => rfl
  | escape => rfl
  | csi params =>
    rw [VtRest.bytes, byteSpans_introducer step_csi rfl, ← List.append_nil params, byteSpans_csi h]
    rfl
  | string kind payload =>
    rw [VtRest.bytes, byteSpans_introducer (step_stringKind h.1) rfl,
      ← List.append_nil payload, byteSpans_unended h.2]
    rfl
  | osc body =>
    rw [VtRest.bytes, byteSpans_osc, ← List.append_nil body, byteSpans_unended h]
    rfl

theorem rendererSpans_cut {bytes : List UInt8} (cut : VtCut bytes) :
    rendererSpans bytes = cutSpans cut.rest 0 cut.items := by
  have hrun (items : List VtItem) (hwhole : ∀ item ∈ items, item.IsWhole) (pos : Nat) :
      byteScanner.spans .ground 0 pos (items.flatMap VtItem.bytes ++ cut.rest.bytes) =
        cutSpans cut.rest pos items := by
    induction items generalizing pos with
    | nil => exact byteSpans_rest cut.isOpen 0 pos
    | cons item items ih =>
      rw [List.forall_mem_cons] at hwhole
      rw [List.flatMap_cons, List.append_assoc]
      exact byteSpans_item hwhole.1 cut.rest items 0 pos _ (ih hwhole.2 _)
  rw [rendererSpans_eq]
  conv_lhs => rw [cut.bytes_eq]
  exact hrun cut.items cut.isWhole 0

theorem exists_terminator (bel : Bool) (bytes : List UInt8) :
    Unended bel bytes ∨ ∃ body ending more, Unended bel body ∧ (ending = true → bel = true) ∧
      bytes = body ++ (terminator ending ++ more) := by
  have hempty : Unended bel [] := ⟨fun _ => List.not_mem_nil, by decide⟩
  induction bytes with
  | nil => exact .inl hempty
  | cons byte bytes ih =>
    by_cases hbel : bel = true ∧ byte = 0x07
    · exact .inr ⟨[], true, bytes, hempty, fun _ => hbel.1, by rw [hbel.2]; rfl⟩
    by_cases hst : terminator false <+: byte :: bytes
    · obtain ⟨more, hmore⟩ := hst
      exact .inr ⟨[], false, more, hempty, nofun, hmore.symm⟩
    -- A body of which the first byte starts no terminator.
    have hcons {body more : List UInt8} (h : Unended bel body) (hbody : bytes = body ++ more)
        (hpair : ¬terminator false <+: byte :: body) : Unended bel (byte :: body) := by
      constructor
      · intro hosc hmem
        rcases List.mem_cons.mp hmem with heq | hrest
        · exact hbel ⟨hosc, heq.symm⟩
        · exact h.1 hosc hrest
      · rw [List.infix_cons_iff, not_or]
        exact ⟨hpair, h.2⟩
    rcases ih with hnone | ⟨body, ending, more, hbody, hending, heq⟩
    · exact .inl (hcons hnone (List.append_nil bytes).symm hst)
    · right
      refine ⟨byte :: body, ending, more, hcons hbody heq fun hpair => hst ?_, hending, ?_⟩
      · rw [heq]
        exact hpair.trans (List.prefix_append (byte :: body) _)
      · rw [heq]
        rfl

theorem exists_final (bytes : List UInt8) :
    (∀ byte ∈ bytes, endsCsi (latin byte) = false) ∨ ∃ params finalByte more,
      (∀ param ∈ params, endsCsi (latin param) = false) ∧ endsCsi (latin finalByte) = true ∧
      bytes = params ++ finalByte :: more := by
  induction bytes with
  | nil => exact .inl nofun
  | cons byte bytes ih =>
    by_cases hends : endsCsi (latin byte) = true
    · exact .inr ⟨[], byte, bytes, nofun, hends, rfl⟩
    · have hbyte := Bool.eq_false_iff.mpr hends
      rcases ih with hnone | ⟨params, finalByte, more, hparams, hfinal, heq⟩
      · exact .inl (List.forall_mem_cons.mpr ⟨hbyte, hnone⟩)
      · exact .inr ⟨byte :: params, finalByte, more,
          List.forall_mem_cons.mpr ⟨hbyte, hparams⟩, hfinal, by rw [heq]; rfl⟩

/-- A whole sequence in front of a stream that is cut. -/
def VtCut.cons {more : List UInt8} (cut : VtCut more) (item : VtItem) (h : item.IsWhole) :
    VtCut (item.bytes ++ more) where
  items := item :: cut.items
  rest := cut.rest
  bytes_eq := by
    conv_lhs => rw [cut.bytes_eq]
    rw [List.flatMap_cons, List.append_assoc]
  isWhole := List.forall_mem_cons.mpr ⟨h, cut.isWhole⟩
  isOpen := cut.isOpen

def VtCut.last (rest : VtRest) (h : rest.IsOpen) : VtCut rest.bytes := ⟨[], rest, rfl, nofun, h⟩

theorem exists_cut (bytes : List UInt8) : Nonempty (VtCut bytes) := by
  obtain ⟨n, hn⟩ : ∃ n, bytes.length ≤ n := ⟨_, le_rfl⟩
  induction n generalizing bytes with
  | zero =>
    rw [List.length_eq_zero_iff.mp (Nat.le_zero.mp hn)]
    exact ⟨VtCut.last .nothing trivial⟩
  | succ n ih =>
    -- What is behind a whole sequence is shorter.
    have hcons (item : VtItem) (h : item.IsWhole) (more : List UInt8)
        (hbytes : bytes = item.bytes ++ more) : Nonempty (VtCut bytes) := by
      have hpos := List.length_pos_iff.mpr item.bytes_ne_nil
      rw [hbytes, List.length_append] at hn
      obtain ⟨cut⟩ := ih more (by omega)
      exact hbytes ▸ ⟨cut.cons item h⟩
    have hlast (rest : VtRest) (h : rest.IsOpen) (hbytes : bytes = rest.bytes) :
        Nonempty (VtCut bytes) := hbytes ▸ ⟨VtCut.last rest h⟩
    match bytes with
    | [] => exact hlast .nothing trivial rfl
    | first :: bytes =>
      by_cases hescape : first = 0x1b
      · subst hescape
        match bytes with
        | [] => exact hlast .escape trivial rfl
        | second :: bytes =>
          by_cases hcsi : second = 0x5b
          · subst hcsi
            rcases exists_final bytes with
              hnone | ⟨params, finalByte, more, hparams, hfinal, rfl⟩
            · exact hlast (.csi bytes) hnone rfl
            · exact hcons (.csi params finalByte) ⟨hparams, hfinal⟩ more
                (by simp [VtItem.bytes])
          by_cases hosc : second = 0x5d
          · subst hosc
            rcases exists_terminator true bytes with
              hnone | ⟨body, ending, more, hbody, -, rfl⟩
            · exact hlast (.osc bytes) hnone rfl
            · exact hcons (.osc body ending) hbody more (by simp [VtItem.bytes])
          by_cases hstring : second ∈ stringKinds
          · rcases exists_terminator false bytes with
              hnone | ⟨payload, ending, more, hpayload, hending, rfl⟩
            · exact hlast (.string second bytes) ⟨hstring, hnone⟩ rfl
            · have hst : ending = false := Bool.eq_false_iff.mpr fun hbel =>
                Bool.false_ne_true (hending hbel)
              subst hst
              exact hcons (.string second payload) ⟨hstring, hpayload⟩ more
                (by simp [VtItem.bytes])
          · apply hcons (.escape second) _ bytes rfl
            rw [VtItem.IsWhole, List.mem_cons, List.mem_cons, not_or, not_or]
            exact ⟨hcsi, hosc, hstring⟩
      · exact hcons (.plain first) hescape bytes rfl

/-- The tracker and the renderer see the same OSC sequences just if the stream is calm. -/
theorem oscAgrees_iff (bytes : List UInt8) :
    OscAgrees bytes ↔ ∃ cut : VtCut bytes, IsCalm cut.rest false cut.items := by
  have htracker (cut : VtCut bytes) :
      trackerSpans bytes = cutSpans cut.rest 0 cut.items ↔ IsCalm cut.rest false cut.items := by
    unfold trackerSpans
    conv_lhs => lhs; rw [cut.bytes_eq]
    exact spans_cut_iff cut.isOpen cut.items cut.isWhole ⟨rfl, rfl⟩ 0 0
  constructor
  · rintro ⟨hspans, -⟩
    obtain ⟨cut⟩ := exists_cut bytes
    exact ⟨cut, (htracker cut).mp (hspans.trans (rendererSpans_cut cut))⟩
  · rintro ⟨cut, hcalm⟩
    refine ⟨((htracker cut).mpr hcalm).trans (rendererSpans_cut cut).symm, ?_⟩
    rintro chunks rfl
    exact Osc9Tracker.foldl_observe {} chunks

/-- The renderer hides a notification that ends in two escapes and a backslash; the tracker
pairs the escapes, and waits for another terminator. -/
theorem not_oscAgrees_escapes :
    ¬OscAgrees [0x1b, 0x5d, 0x39, 0x3b, 0x61, 0x1b, 0x1b, 0x5c] := by
  rintro ⟨hspans, -⟩
  exact absurd hspans (by decide +kernel)

/-- A notification in the payload of another sequence is one to the tracker only. -/
example : ¬OscAgrees [0x1b, 0x50, 0x1b, 0x5d, 0x39, 0x3b, 0x61, 0x07, 0x1b, 0x5c] := by
  rintro ⟨hspans, -⟩
  exact absurd hspans (by decide +kernel)

end HerdrWebui.Terminal
