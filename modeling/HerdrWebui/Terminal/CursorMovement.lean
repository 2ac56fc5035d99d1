import HerdrWebui.Data.Edges
import HerdrWebui.Terminal.VtText

/-!
What a cursor movement behind an output does to the text. It writes nothing; but rows are
added down to the one it goes to, and where there are more than the limit those at the top are
trimmed off.
-/

namespace HerdrWebui.Terminal

/-- The final bytes of the sequences that position the cursor. -/
def movementFinals : List Char := ['H', 'f', 'A', 'B', 'C', 'D', 'G', 'd']

def movementSequence (params : List Char) (finalByte : Char) : List Char :=
  '\x1b' :: '[' :: params ++ [finalByte]

/-- A token that leaves the screen as it is: one that is ignored, or a sequence that has not come
to its final byte. -/
def Inert : VtToken → Prop
  | .csi sequence => ∀ c ∈ sequence, endsCsi c = false
  | .osc _ | .stringSequence _ | .escape _ => True
  | .char _ => False

/-- How the sequence of a movement is read: as it is, behind an unfinished sequence of its kind,
or as a part of a string. -/
def ReadAsMovement (finalByte : Char) : VtToken → Prop
  | .csi sequence => sequence.getLast? = some finalByte
  | .osc _ | .stringSequence _ => True
  | .escape _ | .char _ => False

section Tokens

variable {params : List Char} {finalByte : Char}

/-- A sequence that has come to its final byte is not changed by what follows. -/
theorem takeCsi_append (chars more : List Char) :
    takeCsi (chars ++ more) = ((takeCsi chars).1, (takeCsi chars).2 ++ more) ∨
      takeCsi chars = (chars, []) ∧ ∀ c ∈ chars, endsCsi c = false := by
  induction chars with
  | nil => exact .inr ⟨rfl, fun c hc => absurd hc List.not_mem_nil⟩
  | cons next rest ih =>
    rw [List.cons_append, takeCsi, takeCsi]
    by_cases hends : endsCsi next = true
    · rw [if_pos hends, if_pos hends]
      exact .inl rfl
    · rw [if_neg hends, if_neg hends]
      rcases ih with hclosed | ⟨hopen, hrest⟩
      · rw [hclosed]
        exact .inl rfl
      · rw [hopen]
        exact .inr ⟨rfl, List.forall_mem_cons.mpr ⟨Bool.eq_false_iff.mpr hends, hrest⟩⟩

theorem skipOsc_append {more : List Char} (hmore : ∀ previous, skipOsc previous more = (more, []))
    (previousEscape : Bool) (chars : List Char) :
    skipOsc previousEscape (chars ++ more) =
        ((skipOsc previousEscape chars).1, (skipOsc previousEscape chars).2 ++ more) ∨
      skipOsc previousEscape chars = (chars, []) ∧
        skipOsc previousEscape (chars ++ more) = (chars ++ more, []) := by
  induction chars generalizing previousEscape with
  | nil => exact .inr ⟨rfl, hmore previousEscape⟩
  | cons next rest ih =>
    rw [List.cons_append, skipOsc, skipOsc]
    split
    · exact .inl rfl
    · rcases ih (next == '\x1b') with hclosed | ⟨hopen, hswallowed⟩
      · rw [hclosed]
        exact .inl rfl
      · rw [hopen, hswallowed]
        exact .inr ⟨rfl, rfl⟩

theorem skipStringSequence_append {more : List Char}
    (hmore : ∀ previous, skipStringSequence previous more = (more, []))
    (previousEscape : Bool) (chars : List Char) :
    skipStringSequence previousEscape (chars ++ more) =
        ((skipStringSequence previousEscape chars).1,
          (skipStringSequence previousEscape chars).2 ++ more) ∨
      skipStringSequence previousEscape chars = (chars, []) ∧
        skipStringSequence previousEscape (chars ++ more) = (chars ++ more, []) := by
  induction chars generalizing previousEscape with
  | nil => exact .inr ⟨rfl, hmore previousEscape⟩
  | cons next rest ih =>
    rw [List.cons_append, skipStringSequence, skipStringSequence]
    split
    · exact .inl rfl
    · rcases ih (next == '\x1b') with hclosed | ⟨hopen, hswallowed⟩
      · rw [hclosed]
        exact .inl rfl
      · rw [hopen, hswallowed]
        exact .inr ⟨rfl, rfl⟩

theorem endsCsi_movementFinals : ∀ c ∈ movementFinals, endsCsi c = true :=
  forall_mem_of_all (by decide)

theorem movementSequence_eq (params : List Char) (finalByte : Char) :
    movementSequence params finalByte = '\x1b' :: '[' :: (params ++ [finalByte]) := rfl

theorem takeCsi_final (hparams : ∀ c ∈ params, isParam c = true)
    (hfinal : finalByte ∈ movementFinals) :
    takeCsi (params ++ [finalByte]) = (params ++ [finalByte], []) := by
  rw [takeCsi_open fun c hc => endsCsi_of_isParam (hparams c hc), takeCsi,
    if_pos (endsCsi_movementFinals _ hfinal)]

/-- Behind an unfinished sequence the escape and the bracket are parameters like others. -/
theorem takeCsi_movementSequence (hparams : ∀ c ∈ params, isParam c = true)
    (hfinal : finalByte ∈ movementFinals) :
    takeCsi (movementSequence params finalByte) = (movementSequence params finalByte, []) := by
  have hescape : endsCsi '\x1b' = false := by decide
  have hbracket : endsCsi '[' = false := by decide
  rw [movementSequence_eq, takeCsi, takeCsi, hescape, hbracket, takeCsi_final hparams hfinal]
  rfl

theorem movementSequence_plain (hparams : ∀ c ∈ params, isParam c = true)
    (hfinal : finalByte ∈ movementFinals) :
    ∀ c ∈ movementSequence params finalByte, c ≠ '\x07' ∧ c ≠ '\\' := by
  intro c hc
  rw [movementSequence_eq] at hc
  simp only [List.mem_cons, List.mem_append, List.not_mem_nil, or_false] at hc
  rcases hc with rfl | rfl | hparam | rfl
  · exact ⟨by decide, by decide⟩
  · exact ⟨by decide, by decide⟩
  · have hin := hparams c hparam
    constructor
    · rintro rfl
      exact absurd hin (by decide)
    · rintro rfl
      exact absurd hin (by decide)
  · have hplain : ∀ c ∈ movementFinals, c ≠ '\x07' ∧ c ≠ '\\' := forall_mem_of_all (by decide)
    exact hplain c hfinal

theorem skipOsc_plain {chars : List Char} (h : ∀ c ∈ chars, c ≠ '\x07' ∧ c ≠ '\\')
    (previousEscape : Bool) : skipOsc previousEscape chars = (chars, []) := by
  induction chars generalizing previousEscape with
  | nil => rfl
  | cons next rest ih =>
    rw [List.forall_mem_cons] at h
    rw [skipOsc, if_neg fun hstop => hstop.elim h.1.1 fun hback => h.1.2 hback.2, ih h.2]

theorem skipStringSequence_plain {chars : List Char} (h : ∀ c ∈ chars, c ≠ '\x07' ∧ c ≠ '\\')
    (previousEscape : Bool) : skipStringSequence previousEscape chars = (chars, []) := by
  induction chars generalizing previousEscape with
  | nil => rfl
  | cons next rest ih =>
    rw [List.forall_mem_cons] at h
    rw [skipStringSequence, if_neg fun hback => h.1.2 hback.2, ih h.2]

/-- A movement behind characters is read as one token, of its own or with what was not
finished in front of it. -/
def ReadsMovement (movement : List Char) (finalByte : Char) (chars : List Char) : Prop :=
  ∃ front opened token, vtTokens chars = front ++ opened ∧ (∀ token ∈ opened, Inert token) ∧
    vtTokens (chars ++ movement) = front ++ [token] ∧ ReadAsMovement finalByte token

theorem ReadsMovement.cons {movement chars rest : List Char} {token : VtToken}
    (h : ReadsMovement movement finalByte rest)
    (htoken : vtTokens chars = token :: vtTokens rest)
    (hboth : vtTokens (chars ++ movement) = token :: vtTokens (rest ++ movement)) :
    ReadsMovement movement finalByte chars := by
  obtain ⟨front, opened, last, hfront, hopened, happended, hlast⟩ := h
  refine ⟨token :: front, opened, last, ?_, hopened, ?_, hlast⟩
  · rw [htoken, hfront]
    rfl
  · rw [hboth, happended]
    rfl

theorem ReadsMovement.open {movement chars : List Char} (token last : VtToken)
    (htoken : vtTokens chars = [token]) (hinert : Inert token)
    (hboth : vtTokens (chars ++ movement) = [last]) (hlast : ReadAsMovement finalByte last) :
    ReadsMovement movement finalByte chars :=
  ⟨[], [token], last, htoken, List.forall_mem_singleton.mpr hinert, hboth, hlast⟩

theorem readsMovement (hparams : ∀ c ∈ params, isParam c = true)
    (hfinal : finalByte ∈ movementFinals) {chars : List Char}
    (hlone : VtToken.escape none ∉ vtTokens chars) :
    ReadsMovement (movementSequence params finalByte) finalByte chars := by
  have hplain := movementSequence_plain hparams hfinal
  have hends : (movementSequence params finalByte).getLast? = some finalByte := by
    rw [movementSequence_eq, ← List.cons_append, ← List.cons_append, List.getLast?_concat]
  have hfinalCsi := takeCsi_movementSequence hparams hfinal
  generalize hlength : chars.length = length
  induction length using Nat.strong_induction_on generalizing chars with
  | _ length ih =>
  cases chars with
  | nil =>
    refine ⟨[], [], .csi (params ++ [finalByte]), vtTokens_nil, by simp, ?_, ?_⟩
    · rw [List.nil_append, movementSequence_eq, vtTokens_csi, takeCsi_final hparams hfinal,
        vtTokens_nil]
      rfl
    · exact List.getLast?_concat
  | cons ch rest =>
  by_cases hescape : ch = '\x1b'
  · subst hescape
    cases rest with
    | nil =>
      rw [vtTokens_lone] at hlone
      exact absurd (List.mem_singleton.mpr rfl) hlone
    | cons next rest =>
    by_cases hcsi : next = '['
    · subst hcsi
      have htake := takeCsi_length rest
      rw [vtTokens_csi] at hlone
      rcases takeCsi_append rest (movementSequence params finalByte) with hclosed | ⟨hopen, hall⟩
      · apply ReadsMovement.cons
          (ih _ (by simp at hlength; omega) (List.not_mem_of_not_mem_cons hlone) rfl)
          (vtTokens_csi rest)
        rw [List.cons_append, List.cons_append, vtTokens_csi, hclosed]
      · apply ReadsMovement.open (.csi rest)
          (.csi (rest ++ movementSequence params finalByte))
        · rw [vtTokens_csi, hopen, vtTokens_nil]
        · exact hall
        · rw [List.cons_append, List.cons_append, vtTokens_csi, takeCsi_open hall, hfinalCsi,
            vtTokens_nil]
        · exact (List.getLast?_append_of_ne_nil _ (List.cons_ne_nil _ _)).trans hends
    by_cases hosc : next = ']'
    · subst hosc
      have hskip := skipOsc_length false rest
      rw [vtTokens_osc] at hlone
      rcases skipOsc_append (skipOsc_plain hplain) false rest with hclosed | ⟨hopen, hswallowed⟩
      · apply ReadsMovement.cons
          (ih _ (by simp at hlength; omega) (List.not_mem_of_not_mem_cons hlone) rfl)
          (vtTokens_osc rest)
        rw [List.cons_append, List.cons_append, vtTokens_osc, hclosed]
      · apply ReadsMovement.open (.osc rest)
          (.osc (rest ++ movementSequence params finalByte))
        · rw [vtTokens_osc, hopen, vtTokens_nil]
        · trivial
        · rw [List.cons_append, List.cons_append, vtTokens_osc, hswallowed, vtTokens_nil]
        · trivial
    by_cases hstring : next ∈ ['P', 'X', '^', '_']
    · have hskip := skipStringSequence_length false rest
      rw [vtTokens_string hstring] at hlone
      rcases skipStringSequence_append (skipStringSequence_plain hplain) false rest with
        hclosed | ⟨hopen, hswallowed⟩
      · apply ReadsMovement.cons
          (ih _ (by simp at hlength; omega) (List.not_mem_of_not_mem_cons hlone) rfl)
          (vtTokens_string hstring rest)
        rw [List.cons_append, List.cons_append, vtTokens_string hstring, hclosed]
      · apply ReadsMovement.open (.stringSequence rest)
          (.stringSequence (rest ++ movementSequence params finalByte))
        · rw [vtTokens_string hstring, hopen, vtTokens_nil]
        · trivial
        · rw [List.cons_append, List.cons_append, vtTokens_string hstring, hswallowed,
            vtTokens_nil]
        · trivial
    · have hother : next ∉ ['[', ']', 'P', 'X', '^', '_'] := by
        rw [List.mem_cons, List.mem_cons, not_or, not_or]
        exact ⟨hcsi, hosc, hstring⟩
      rw [vtTokens_escape hother] at hlone
      apply ReadsMovement.cons
        (ih _ (by simp at hlength; omega) (List.not_mem_of_not_mem_cons hlone) rfl)
        (vtTokens_escape hother rest)
      rw [List.cons_append, List.cons_append, vtTokens_escape hother]
  · rw [vtTokens_char hescape] at hlone
    apply ReadsMovement.cons
      (ih _ (by simp at hlength; omega) (List.not_mem_of_not_mem_cons hlone) rfl)
      (vtTokens_char hescape rest)
    rw [List.cons_append, vtTokens_char hescape]

end Tokens

/-- The cursor is in a row that is there, and no rows are to be trimmed off. -/
structure Placed {C σ : Type} (core : VtCore C σ) : Prop where
  row : core.row < core.lines.length
  lines : core.lines.length ≤ core.maxLines

section Screen

variable {C σ : Type} {core : VtCore C σ}

namespace Placed

theorem trimScrollback (core : VtCore C σ) (hlimit : 0 < core.maxLines) :
    Placed core.ensureRow.trimScrollback := by
  have hlength : core.ensureRow.lines.length =
      core.lines.length + (core.row + 1 - core.lines.length) := by
    rw [VtCore.ensureRow, List.length_append, List.length_replicate]
  have hrow : core.ensureRow.row = core.row := rfl
  have hkept : core.ensureRow.maxLines = core.maxLines := rfl
  constructor
  · unfold VtCore.trimScrollback
    dsimp only
    rw [List.length_drop, hlength, hrow, hkept]
    omega
  · unfold VtCore.trimScrollback
    dsimp only
    rw [List.length_drop, hlength, hkept]
    omega

theorem maxLines_pos (h : Placed core) : 0 < core.maxLines :=
  (Nat.zero_le _).trans_lt (h.row.trans_le h.lines)

theorem ensureRow_eq (h : Placed core) : core.ensureRow = core := by
  unfold VtCore.ensureRow
  rw [Nat.sub_eq_zero_of_le h.row, List.replicate_zero, List.append_nil]

theorem modifyLine (h : Placed core) (f : List C → List C) : Placed (core.modifyLine f) := by
  constructor
  · rw [VtCore.modifyLine, List.length_modify]
    exact h.row
  · rw [VtCore.modifyLine, List.length_modify]
    exact h.lines

variable [VtCell C σ] {width : Char → Option Nat}

theorem put (h : Placed core) (ch : Char) : Placed (core.put width ch) := by
  have hwritten := h.modifyLine (VtCore.writeCell core.col (VtCell.fromChar ch core.style)
    (VtCell.blank core.style))
  unfold VtCore.put
  rw [h.ensureRow_eq]
  exact ⟨hwritten.row, hwritten.lines⟩

theorem tabGo (h : Placed core) (nextTab fuel : Nat) : Placed (core.tabGo width nextTab fuel) := by
  induction fuel generalizing core with
  | zero => exact h
  | succ fuel ih =>
    rw [VtCore.tabGo]
    split
    · exact ih (h.put ' ')
    · exact h

theorem eraseLine (h : Placed core) (mode : Nat) : Placed (core.eraseLine mode) := by
  unfold VtCore.eraseLine
  rw [h.ensureRow_eq]
  exact h.modifyLine _

theorem eraseDisplay (h : Placed core) (mode : Nat) : Placed (core.eraseDisplay mode) := by
  have hrow := h.row
  have hlines := h.lines
  unfold VtCore.eraseDisplay
  split
  · exact ⟨Nat.one_pos, h.maxLines_pos⟩
  · exact ⟨Nat.one_pos, h.maxLines_pos⟩
  · apply Placed.eraseLine
    constructor
    · dsimp only
      rw [List.length_drop]
      omega
    · dsimp only
      rw [List.length_drop]
      omega
  · have herased := h.eraseLine 0
    have hrow' := herased.row
    have hlines' := herased.lines
    constructor
    · dsimp only
      rw [List.length_take]
      omega
    · dsimp only
      rw [List.length_take]
      omega

theorem applyCsi (h : Placed core) (sequence : List Char) : Placed (core.applyCsi sequence) := by
  unfold VtCore.applyCsi
  split
  · exact h
  · dsimp only
    split
    · exact h.eraseLine _
    split
    · exact h.eraseDisplay _
    split
    · exact ⟨(Nat.sub_le ..).trans_lt h.row, h.lines⟩
    split
    · exact trimScrollback { core with row := _ } h.maxLines_pos
    split
    · exact ⟨h.row, h.lines⟩
    split
    · exact ⟨h.row, h.lines⟩
    split
    · exact ⟨h.row, h.lines⟩
    split
    · exact trimScrollback { core with row := _, col := _ } h.maxLines_pos
    · exact h

theorem step (h : Placed core) (token : VtToken) :
    Placed (core.step width VtCore.applyCsi token) := by
  cases token with
  | csi sequence => exact h.applyCsi sequence
  | osc body => exact h
  | stringSequence payload => exact h
  | escape next => exact h
  | char ch =>
    unfold VtCore.step
    dsimp only
    split
    · exact ⟨h.row, h.lines⟩
    split
    · exact trimScrollback { core with row := core.row + 1, col := 0 } h.maxLines_pos
    split
    · exact ⟨h.row, h.lines⟩
    split
    · exact h.tabGo _ _
    split
    · exact h
    · exact h.put ch

end Placed

/-- The row of a position; the first one if there is none. -/
def cursorRow (params : List Char) : Nat :=
  ((((params.splitOn ';')[0]?).map String.ofList).bind parseUsize).getD 1 - 1

/-- The row that a movement goes down to, before rows are trimmed off. -/
def movementRow (core : VtCore C σ) : VtToken → Nat
  | .csi sequence =>
    if sequence.getLast? = some 'B' then core.row + csiCount sequence.dropLast
    else if sequence.getLast? = some 'H' ∨ sequence.getLast? = some 'f' then
      cursorRow sequence.dropLast
    else core.row
  | _ => core.row

/-- How many rows at the top a movement trims off. -/
def trimmedRows (core : VtCore C σ) (token : VtToken) : Nat :=
  max core.lines.length (movementRow core token + 1) - core.maxLines

theorem lines_ensureRow_trimScrollback (core : VtCore C σ) :
    ∃ n, core.ensureRow.trimScrollback.lines =
      core.lines.drop (max core.lines.length (core.row + 1) - core.maxLines) ++
        List.replicate n [] := by
  have hlength : core.ensureRow.lines.length = max core.lines.length (core.row + 1) := by
    rw [VtCore.ensureRow, List.length_append, List.length_replicate]
    omega
  have hkept : core.ensureRow.maxLines = core.maxLines := rfl
  unfold VtCore.trimScrollback
  dsimp only
  rw [hlength, hkept, VtCore.ensureRow, List.drop_append, List.drop_replicate]
  exact ⟨_, rfl⟩

variable [VtCell C σ] {width : Char → Option Nat}

theorem step_inert {token : VtToken} (h : Inert token) (core : VtCore C σ) :
    core.step width VtCore.applyCsi token = core := by
  cases token with
  | csi sequence =>
    change core.applyCsi sequence = core
    unfold VtCore.applyCsi
    split
    · rfl
    · next finalByte hfinal =>
        have hopen := h finalByte (List.mem_of_getLast? hfinal)
        have hne {c : Char} (hc : endsCsi c = true) : finalByte ≠ c := by
          rintro rfl
          rw [hopen] at hc
          cases hc
        simp [hne (by decide : endsCsi 'K' = true), hne (by decide : endsCsi 'J' = true),
          hne (by decide : endsCsi 'A' = true), hne (by decide : endsCsi 'B' = true),
          hne (by decide : endsCsi 'C' = true), hne (by decide : endsCsi 'D' = true),
          hne (by decide : endsCsi 'G' = true), hne (by decide : endsCsi 'H' = true),
          hne (by decide : endsCsi 'f' = true)]
  | osc body => rfl
  | stringSequence payload => rfl
  | escape next => rfl
  | char ch => exact h.elim

theorem step_maxLines (core : VtCore C σ) (token : VtToken) :
    (core.step width VtCore.applyCsi token).maxLines = core.maxLines := by
  have htabGo (nextTab fuel : Nat) (core : VtCore C σ) :
      (core.tabGo width nextTab fuel).maxLines = core.maxLines := by
    induction fuel generalizing core with
    | zero => rfl
    | succ fuel ih =>
      rw [VtCore.tabGo]
      split
      · exact ih _
      · rfl
  have herase (mode : Nat) : (core.eraseDisplay mode).maxLines = core.maxLines := by
    unfold VtCore.eraseDisplay
    split <;> rfl
  cases token with
  | csi sequence =>
    change (core.applyCsi sequence).maxLines = core.maxLines
    unfold VtCore.applyCsi
    split
    · rfl
    · simp only [apply_ite VtCore.maxLines, herase]
      repeat' split
      all_goals rfl
  | osc body => rfl
  | stringSequence payload => rfl
  | escape next => rfl
  | char ch =>
    unfold VtCore.step
    simp only [apply_ite VtCore.maxLines, VtCore.tab, htabGo]
    repeat' split
    all_goals rfl

/-- A movement keeps the rows that it does not trim off, and adds empty ones below. -/
theorem lines_movement (h : Placed core) {finalByte : Char} (hfinal : finalByte ∈ movementFinals)
    {token : VtToken} (htoken : ReadAsMovement finalByte token) :
    ∃ n, (core.step width VtCore.applyCsi token).lines =
      core.lines.drop (trimmedRows core token) ++ List.replicate n [] := by
  have hrow := h.row
  have hlines := h.lines
  have hsame (htarget : movementRow core token = core.row)
      (hstep : (core.step width VtCore.applyCsi token).lines = core.lines) :
      ∃ n, (core.step width VtCore.applyCsi token).lines =
        core.lines.drop (trimmedRows core token) ++ List.replicate n [] := by
    have hnone : trimmedRows core token = 0 := by
      rw [trimmedRows, htarget]
      omega
    exact ⟨0, by rw [hstep, hnone, List.drop_zero, List.replicate_zero, List.append_nil]⟩
  cases token with
  | osc body => exact hsame rfl rfl
  | stringSequence payload => exact hsame rfl rfl
  | escape next => exact htoken.elim
  | char ch => exact htoken.elim
  | csi sequence =>
    have hlast : sequence.getLast? = some finalByte := htoken
    simp only [movementFinals, List.mem_cons, List.not_mem_nil, or_false] at hfinal
    have hstep : core.step width VtCore.applyCsi (.csi sequence) = core.applyCsi sequence := rfl
    have hmoves (hmove : core.applyCsi sequence = core.moveCursor sequence.dropLast)
        (htarget : movementRow core (.csi sequence) = cursorRow sequence.dropLast) :
        ∃ n, (core.applyCsi sequence).lines =
          core.lines.drop (trimmedRows core (.csi sequence)) ++ List.replicate n [] := by
      rw [hmove, trimmedRows, htarget]
      exact lines_ensureRow_trimScrollback { core with row := _, col := _ }
    rcases hfinal with rfl | rfl | rfl | rfl | rfl | rfl | rfl | rfl
    · exact hmoves (by simp [VtCore.applyCsi, hlast]) (by simp [movementRow, hlast])
    · exact hmoves (by simp [VtCore.applyCsi, hlast]) (by simp [movementRow, hlast])
    · apply hsame
      · simp [movementRow, hlast]
      · rw [hstep]
        simp [VtCore.applyCsi, hlast]
    · have htarget : movementRow core (.csi sequence) =
          core.row + csiCount sequence.dropLast := by simp [movementRow, hlast]
      have hdown : core.applyCsi sequence = (VtCore.ensureRow
          { core with row := core.row + csiCount sequence.dropLast }).trimScrollback := by
        simp [VtCore.applyCsi, hlast]
      rw [hstep, hdown, trimmedRows, htarget]
      exact lines_ensureRow_trimScrollback { core with row := _ }
    all_goals
      apply hsame
      · simp [movementRow, hlast]
      · rw [hstep]
        simp [VtCore.applyCsi, hlast]

end Screen

def isBlank (row : List Char) : Bool := row.all isWhitespace

/-- The lines of a text that are not blank. -/
def nonBlankLines (text : String) : List (List Char) :=
  (text.toList.splitOn '\n').filter fun line => !isBlank line

section Text

variable (width : Char → Option Nat) (options : TerminalTextOptions)

theorem isBlank_trimEnd (row : List Char) : isBlank (trimEnd row) = isBlank row := by
  unfold isBlank trimEnd
  induction row using List.reverseRecOn with
  | nil => rfl
  | append_singleton row c ih =>
    by_cases hc : isWhitespace c = true
    · rw [List.rdropWhile_concat_pos _ _ _ hc, ih, List.all_append]
      simp [hc]
    · rw [List.rdropWhile_concat_neg _ _ _ hc]

theorem filter_dropWhile_isEmpty (texts : List (List Char)) :
    (texts.dropWhile (·.isEmpty)).filter (fun line => !isBlank line) =
      texts.filter fun line => !isBlank line := by
  induction texts with
  | nil => rfl
  | cons text texts ih =>
    cases text with
    | nil =>
      rw [List.dropWhile_cons_of_pos rfl, ih]
      rfl
    | cons c text => rw [List.dropWhile_cons_of_neg (by simp)]

theorem filter_rdropWhile_isEmpty (texts : List (List Char)) :
    (texts.rdropWhile (·.isEmpty)).filter (fun line => !isBlank line) =
      texts.filter fun line => !isBlank line := by
  have hback := filter_dropWhile_isEmpty texts.reverse
  rw [List.rdropWhile, List.filter_reverse, hback, List.filter_reverse, List.reverse_reverse]

theorem filter_splitOn_intercalate {texts : List (List Char)} (h : ∀ text ∈ texts, '\n' ∉ text) :
    ((['\n'].intercalate texts).splitOn '\n').filter (fun line => !isBlank line) =
      texts.filter fun line => !isBlank line := by
  by_cases hne : texts = []
  · subst hne
    rfl
  · rw [List.splitOn_intercalate _ h hne]

theorem nonBlankLines_text (input : String) :
    nonBlankLines (terminalTextLossy width options input) =
      ((textScreen width options input).map trimEnd).filter fun line => !isBlank line := by
  have hplain : ∀ text ∈ (textScreen width options input).map trimEnd, '\n' ∉ text :=
    fun text htext => (textRows_plain width options input text htext).1
  unfold nonBlankLines terminalTextLossy
  dsimp only
  split
  · have hfront : ∀ text ∈ ((textScreen width options input).map trimEnd).dropWhile (·.isEmpty),
        '\n' ∉ text := fun text htext => hplain text ((List.dropWhile_sublist _).subset htext)
    have hback : ∀ text ∈ (((textScreen width options input).map trimEnd).dropWhile
        (·.isEmpty)).rdropWhile (·.isEmpty), '\n' ∉ text :=
      fun text htext => hfront text ((List.rdropWhile_prefix _ _).subset htext)
    rw [String.toList_ofList, toList_joinedRows, dropWhile_intercalate hplain,
      rdropWhile_intercalate hfront, filter_splitOn_intercalate hback, filter_rdropWhile_isEmpty,
      filter_dropWhile_isEmpty]
  · rw [toList_joinedRows, filter_splitOn_intercalate hplain]

def screen (input : String) : VtCore Char Unit :=
  VtCore.vtDrive width VtCore.applyCsi (VtCore.new () options.maxLines) input

theorem placed_screen (input : String) : Placed (screen width options input) := by
  have hrun (tokens : List VtToken) (core : VtCore Char Unit) (h : Placed core) :
      Placed (tokens.foldl (VtCore.step width VtCore.applyCsi) core) := by
    induction tokens generalizing core with
    | nil => exact h
    | cons token tokens ih => exact ih _ (h.step token)
  exact hrun _ _ ⟨Nat.one_pos, Nat.le_max_right ..⟩

theorem screen_maxLines (input : String) :
    (screen width options input).maxLines = max options.maxLines 1 := by
  have hrun (tokens : List VtToken) (core : VtCore Char Unit) :
      (tokens.foldl (VtCore.step width VtCore.applyCsi) core).maxLines = core.maxLines := by
    induction tokens generalizing core with
    | nil => rfl
    | cons token tokens ih => rw [List.foldl_cons, ih, step_maxLines]
  exact hrun _ _

/-- The token that a sequence behind an output is read as. -/
def readToken (output movement : String) : VtToken :=
  ((vtTokens (output ++ movement).toList).getLast?).getD (.escape none)

/-- The rows of a screen that a movement behind the output trims off. -/
def rowsTrimmed (output movement : String) : List (List Char) :=
  (textScreen width options output).take
    (trimmedRows (screen width options output) (readToken output movement))

theorem textScreen_movement {params : List Char} {finalByte : Char}
    (hparams : ∀ c ∈ params, isParam c = true) (hfinal : finalByte ∈ movementFinals)
    {output movement : String} (hmovement : movement.toList = movementSequence params finalByte)
    (hlone : VtToken.escape none ∉ vtTokens output.toList) :
    ∃ n, textScreen width options (output ++ movement) =
      (textScreen width options output).drop
        (trimmedRows (screen width options output) (readToken output movement)) ++
          List.replicate n [] := by
  obtain ⟨front, opened, token, hfront, hinert, hboth, htoken⟩ :=
    readsMovement hparams hfinal hlone
  rw [← hmovement, ← String.toList_append] at hboth
  have hread : readToken output movement = token := by
    rw [readToken, hboth, List.getLast?_concat, Option.getD_some]
  -- What is not finished has not changed the screen.
  have hopened (core : VtCore Char Unit) :
      opened.foldl (VtCore.step width VtCore.applyCsi) core = core := by
    clear hfront
    induction opened with
    | nil => rfl
    | cons first opened ih =>
      rw [List.forall_mem_cons] at hinert
      rw [List.foldl_cons, step_inert hinert.1, ih hinert.2]
  have hscreen : screen width options output =
      front.foldl (VtCore.step width VtCore.applyCsi) (VtCore.new () options.maxLines) := by
    rw [screen, VtCore.vtDrive, hfront, List.foldl_append, hopened]
  have hafter : textScreen width options (output ++ movement) =
      ((screen width options output).step width VtCore.applyCsi token).lines := by
    rw [hscreen, textScreen, VtCore.vtDrive, hboth, List.foldl_append]
    rfl
  rw [hafter, hread]
  exact lines_movement (placed_screen width options output) hfinal htoken

end Text

end HerdrWebui.Terminal
