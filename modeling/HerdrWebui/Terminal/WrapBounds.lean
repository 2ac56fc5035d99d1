import HerdrWebui.Terminal.WrapScreen

/-!
What a run of the screen does to its bounds. The cursor and the rows stay where they have to
be, and no sum leaves the machine word but those of a movement down or to the right, of a
character and of a tab.
-/

namespace HerdrWebui.Terminal

open Wrap

/-- Whatever a run comes to, no sum has overflowed and no index was out of range. -/
def InBounds {C σ : Type} : Except (VtFault C σ) (VtCore C σ) → Prop
  | .ok core => Bounded core
  | .error (.running core) => Bounded core
  | .error .overflow => False
  | .error .outOfRange => False

section Steps

variable {C σ : Type} (width : Char → Option Nat) (intercept : List Char → Option (σ → σ))

/-- The sums of a token stay in the machine word. -/
def StepFits (core : VtCore C σ) : VtToken → Prop
  | .csi sequence => intercept sequence = none →
      (sequence.getLast? = some 'B' → core.row + csiCount sequence.dropLast < 2 ^ 64) ∧
      (sequence.getLast? = some 'C' → core.col + csiCount sequence.dropLast < 2 ^ 64)
  | .osc _ | .stringSequence _ | .escape _ => True
  | .char ch => (ch = '\t' → (core.col / 8 + 1) * 8 < 2 ^ 64) ∧
      (isControl ch = false → core.col + VtCore.charWidth width ch < 2 ^ 64)

variable {width intercept} {maxCols fuel : Nat} [VtCell C σ] {core : VtCore C σ}

theorem tabGo_inBounds (hblank : VtCore.charWidth width ' ' = 1) (h : Bounded core)
    {nextTab : Nat} (htab : nextTab < 2 ^ 64) : InBounds (tabGo width maxCols nextTab fuel core) := by
  induction fuel generalizing core with
  | zero =>
    rw [tabGo]
    split <;> exact h
  | succ fuel ih =>
    rw [tabGo]
    split
    · next hbefore =>
        obtain ⟨hput, hbounded⟩ := put_eq maxCols h
          (show core.col + VtCore.charWidth width ' ' < 2 ^ 64 by omega)
        rw [hput]
        exact ih hbounded
    · exact h

theorem tab_inBounds (hblank : VtCore.charWidth width ' ' = 1) (h : Bounded core)
    (htab : (core.col / 8 + 1) * 8 < 2 ^ 64) : InBounds (tab width maxCols fuel core) := by
  unfold tab usizeMul
  rw [usizeAdd_of_lt (by omega), ok_bind, if_pos htab, ok_bind]
  exact tabGo_inBounds hblank h htab

theorem tab_overflow (htab : 2 ^ 64 ≤ (core.col / 8 + 1) * 8) :
    tab width maxCols fuel core = .error .overflow := by
  unfold tab usizeAdd usizeMul
  split
  · rw [ok_bind, if_neg (by omega)]
    rfl
  · rfl

theorem applyCsi_ok (h : Bounded core) {sequence : List Char}
    (hdown : sequence.getLast? = some 'B' → core.row + csiCount sequence.dropLast < 2 ^ 64)
    (hright : sequence.getLast? = some 'C' → core.col + csiCount sequence.dropLast < 2 ^ 64) :
    ∃ next, applyCsi sequence core = .ok next ∧ Bounded next := by
  have hrow := h.row
  unfold applyCsi
  split
  · exact ⟨core, rfl, h⟩
  · next finalByte hfinal =>
      dsimp only
      split
      · exact ⟨_, eraseLine_eq h _, h.eraseLine _⟩
      split
      · exact ⟨_, eraseDisplay_eq h _⟩
      split
      · exact ⟨_, rfl, (Nat.sub_le ..).trans_lt hrow, h.lines, h.maxLines, h.cells⟩
      split
      · next hB =>
          rw [usizeAdd_of_lt (hdown (hB ▸ hfinal)), ok_bind]
          exact ⟨_, rfl, Bounded.trimScrollback { core with row := _ } h.maxLines_pos h.maxLines
            h.cells⟩
      split
      · next hC =>
          rw [usizeAdd_of_lt (hright (hC ▸ hfinal)), ok_bind]
          exact ⟨_, rfl, hrow, h.lines, h.maxLines, h.cells⟩
      split
      · exact ⟨_, rfl, hrow, h.lines, h.maxLines, h.cells⟩
      split
      · exact ⟨_, rfl, hrow, h.lines, h.maxLines, h.cells⟩
      split
      · exact ⟨_, rfl, h.moveCursor _⟩
      · exact ⟨core, rfl, h⟩

/-- A sequence that overflows nothing does what it does to a screen without bounds. -/
theorem applyCsi_eq (h : Bounded core) {sequence : List Char} {next : VtCore C σ}
    (hok : applyCsi sequence core = .ok next) : next = core.applyCsi sequence := by
  unfold applyCsi at hok
  unfold VtCore.applyCsi
  cases hfinal : sequence.getLast? with
  | none =>
    simp only [hfinal] at hok ⊢
    exact (Except.ok.inj hok).symm
  | some finalByte =>
    simp only [hfinal] at hok ⊢
    split_ifs at hok ⊢ with hK hJ hA hB hC hD hG hH
    · exact (Except.ok.inj ((eraseLine_eq h _).symm.trans hok)).symm
    · exact (Except.ok.inj ((eraseDisplay_eq h _).1.symm.trans hok)).symm
    · exact (Except.ok.inj hok).symm
    · unfold usizeAdd at hok
      split at hok
      · exact (Except.ok.inj hok).symm
      · cases hok
    · unfold usizeAdd at hok
      split at hok
      · exact (Except.ok.inj hok).symm
      · cases hok
    all_goals exact (Except.ok.inj hok).symm

theorem applyCsi_overflow {sequence : List Char}
    (h : ¬((sequence.getLast? = some 'B' → core.row + csiCount sequence.dropLast < 2 ^ 64) ∧
      (sequence.getLast? = some 'C' → core.col + csiCount sequence.dropLast < 2 ^ 64))) :
    applyCsi sequence core = .error .overflow := by
  rw [not_and_or, Classical.not_imp, Classical.not_imp, not_lt, not_lt] at h
  unfold applyCsi
  rcases h with ⟨hfinal, hover⟩ | ⟨hfinal, hover⟩
  · rw [hfinal]
    simp [usizeAdd_of_le hover]
  · rw [hfinal]
    simp [usizeAdd_of_le hover]

theorem step_ok (h : Bounded core) {token : VtToken} (htab : token ≠ .char '\t')
    (hfits : StepFits width intercept core token) :
    ∃ next, step width maxCols intercept fuel core token = .ok next ∧ Bounded next := by
  cases token with
  | csi sequence =>
    rw [step]
    split
    · exact ⟨_, rfl, h.row, h.lines, h.maxLines, h.cells⟩
    · next hown => exact applyCsi_ok h (hfits hown).1 (hfits hown).2
  | osc body => exact ⟨core, rfl, h⟩
  | stringSequence payload => exact ⟨core, rfl, h⟩
  | escape next => exact ⟨core, rfl, h⟩
  | char ch =>
    rw [step]
    split
    · exact ⟨_, rfl, h.row, h.lines, h.maxLines, h.cells⟩
    split
    · exact ⟨_, newLine_eq h, h.newLine⟩
    split
    · exact ⟨_, rfl, h.row, h.lines, h.maxLines, h.cells⟩
    split
    · next hch => exact absurd (congrArg VtToken.char hch) htab
    split
    · exact ⟨core, rfl, h⟩
    · next hplain => exact ⟨_, put_eq maxCols h (hfits.2 (Bool.eq_false_iff.mpr hplain))⟩

theorem step_inBounds (hblank : VtCore.charWidth width ' ' = 1) (h : Bounded core)
    {token : VtToken} (hfits : StepFits width intercept core token) :
    InBounds (step width maxCols intercept fuel core token) := by
  by_cases htab : token = .char '\t'
  · subst htab
    exact tab_inBounds hblank h (hfits.1 rfl)
  · obtain ⟨next, hnext, hbounded⟩ := step_ok h htab hfits
    rw [hnext]
    exact hbounded

theorem step_overflow (h : Bounded core) {token : VtToken}
    (hfits : ¬StepFits width intercept core token) :
    step width maxCols intercept fuel core token = .error .overflow := by
  cases token with
  | csi sequence =>
    rw [StepFits, Classical.not_imp] at hfits
    rw [step, hfits.1]
    exact applyCsi_overflow hfits.2
  | osc body => exact absurd trivial hfits
  | stringSequence payload => exact absurd trivial hfits
  | escape next => exact absurd trivial hfits
  | char ch =>
    rw [StepFits, not_and_or, Classical.not_imp, Classical.not_imp, not_lt, not_lt] at hfits
    rcases hfits with ⟨rfl, htab⟩ | ⟨hplain, hcol⟩
    · exact tab_overflow htab
    · have hne (c : Char) (hc : isControl c = true) : ch ≠ c := by
        rintro rfl
        rw [hplain] at hc
        cases hc
      rw [step, if_neg (hne _ rfl), if_neg (hne _ rfl), if_neg (hne _ rfl), if_neg (hne _ rfl),
        if_neg (by rw [hplain]; exact Bool.false_ne_true)]
      exact put_overflow maxCols h hcol

theorem run_concat (tokens : List VtToken) (token : VtToken) :
    run width maxCols intercept fuel (tokens ++ [token]) core =
      run width maxCols intercept fuel tokens core >>= fun core =>
        step width maxCols intercept fuel core token := by
  rw [run, List.foldlM_append]
  simp only [List.foldlM_cons, List.foldlM_nil, bind_pure]
  rfl

theorem run_inBounds (hblank : VtCore.charWidth width ' ' = 1) (h : Bounded core)
    {tokens : List VtToken} (hfits : ∀ front token back, tokens = front ++ token :: back →
      ∀ reached, run width maxCols intercept fuel front core = .ok reached →
        StepFits width intercept reached token) :
    InBounds (run width maxCols intercept fuel tokens core) := by
  induction tokens using List.reverseRecOn with
  | nil => exact h
  | append_singleton tokens token ih =>
    have hfront := ih fun front token' back htokens => hfits front token' (back ++ [token])
      (by rw [htokens, List.append_assoc, List.cons_append])
    rw [run_concat]
    cases hrun : run width maxCols intercept fuel tokens core with
    | ok reached =>
      rw [hrun] at hfront
      exact step_inBounds hblank hfront (hfits tokens token [] rfl reached hrun)
    | error fault =>
      rw [hrun] at hfront
      exact hfront

theorem bounded_of_run (hblank : VtCore.charWidth width ' ' = 1) (h : Bounded core)
    {tokens : List VtToken} {reached : VtCore C σ}
    (hrun : run width maxCols intercept fuel tokens core = .ok reached) : Bounded reached := by
  induction tokens using List.reverseRecOn generalizing reached with
  | nil => exact Except.ok.inj hrun ▸ h
  | append_singleton tokens token ih =>
    rw [run_concat] at hrun
    cases hfront : run width maxCols intercept fuel tokens core with
    | error fault =>
      rw [hfront] at hrun
      cases hrun
    | ok before =>
      rw [hfront, ok_bind] at hrun
      have hbefore := ih hfront
      by_cases hfits : StepFits width intercept before token
      · have hstep : InBounds (step width maxCols intercept fuel before token) :=
          step_inBounds hblank hbefore hfits
        rw [hrun] at hstep
        exact hstep
      · rw [step_overflow hbefore hfits] at hrun
        cases hrun

end Steps

theorem bounded_new {C σ : Type} {maxLines : Nat} (hmax : maxLines < 2 ^ 64) (style : σ) :
    Bounded (VtCore.new style maxLines : VtCore C σ) := by
  refine ⟨Nat.one_pos, Nat.le_max_right .., ?_, ?_⟩
  · exact max_lt hmax (by omega)
  · intro line hline
    rw [List.mem_singleton.mp hline]
    exact Nat.two_pow_pos _

/-- The screen is in bounds after each token of an input just if the sums of each token stay in
the machine word. -/
theorem vtDrive_inBounds_iff {C σ : Type} [VtCell C σ] {width : Char → Option Nat}
    (hblank : VtCore.charWidth width ' ' = 1) (intercept : List Char → Option (σ → σ))
    (maxCols fuel : Nat) (style : σ) {maxLines : Nat} (hmax : maxLines < 2 ^ 64)
    (input : String) :
    (∀ front back, vtTokens input.toList = front ++ back →
      InBounds (run width maxCols intercept fuel front
        (VtCore.new style maxLines : VtCore C σ))) ↔
      ∀ front token back, vtTokens input.toList = front ++ token :: back →
        ∀ reached, run width maxCols intercept fuel front
            (VtCore.new style maxLines : VtCore C σ) = .ok reached →
          StepFits width intercept reached token := by
  have hnew : Bounded (VtCore.new style maxLines : VtCore C σ) := bounded_new hmax style
  constructor
  · intro h front token back htokens reached hreached
    by_contra hfits
    have hbounded := h front (token :: back) htokens
    rw [hreached] at hbounded
    have hnext := h (front ++ [token]) back (by rw [htokens, List.append_assoc]; rfl)
    rw [run_concat, hreached, ok_bind, step_overflow hbounded hfits] at hnext
    exact hnext
  · intro h front back htokens
    apply run_inBounds hblank hnew
    intro front' token back' hfront
    exact h front' token (back' ++ back) (by rw [htokens, hfront, List.append_assoc]; rfl)

/-- One character is in bounds. -/
theorem vtDrive_inBounds_char :
    InBounds (run (fun _ => some 1) 80 plainSequence 8 (vtTokens "a".toList)
      (VtCore.new () 400 : VtCore Char Unit)) := by
  refine (vtDrive_inBounds_iff rfl plainSequence 80 8 () (by decide) "a").mpr ?_ _ []
    (List.append_nil _).symm
  intro front token back htokens reached hreached
  have hone : vtTokens "a".toList = [.char 'a'] := by decide +kernel
  rw [hone] at htokens
  cases front with
  | nil =>
    obtain ⟨rfl, -⟩ := List.cons_eq_cons.mp htokens
    rw [← Except.ok.inj hreached]
    refine ⟨fun htab => absurd htab (by decide), fun _ => ?_⟩
    decide
  | cons next front => simp at htokens

/-- A movement to the right behind a character. -/
theorem vtDrive_outOfBounds :
    ¬∀ front back, vtTokens "a\x1b[18446744073709551615C".toList = front ++ back →
      InBounds (run (fun _ => some 1) 80 plainSequence 8 front
        (VtCore.new () 400 : VtCore Char Unit)) := by
  intro h
  have hend := h _ [] (List.append_nil _).symm
  have hover : (match run (fun _ => some 1) 80 plainSequence 8
      (vtTokens "a\x1b[18446744073709551615C".toList) (VtCore.new () 400 : VtCore Char Unit) with
    | .error .overflow => true
    | _ => false) = true := by decide +kernel
  split at hover
  · next hrun =>
      rw [hrun] at hend
      exact hend
  · cases hover

end HerdrWebui.Terminal
