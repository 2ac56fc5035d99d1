import HerdrWebui.Terminal.WrapBounds

/-!
Whether the output of a terminal is read to its end. All that may go on without one is a tab:
its blanks are wrapped like other characters, so that a tab stop right of the budget is never
reached.
-/

namespace HerdrWebui.Terminal

open Wrap

section Tabs

variable {C σ : Type} [VtCell C σ] {width : Char → Option Nat} {maxCols : Nat}
  {intercept : List Char → Option (σ → σ)} {core : VtCore C σ}

/-- The tab stop right of the cursor is in the budget, if there is one. A stop that is out of
the machine word stops the run. -/
def TabFits (maxCols : Nat) (core : VtCore C σ) : Prop :=
  maxCols = 0 ∨ (core.col / 8 + 1) * 8 ≤ maxCols ∨ 2 ^ 64 ≤ (core.col / 8 + 1) * 8

/-- A run that has come to its end, with a screen or a fault. -/
def Ends (result : Except (VtFault C σ) (VtCore C σ)) : Prop :=
  ∀ left, result ≠ .error (.running left)

/-- With enough blanks for each tab the run of an input ends. -/
def Terminates (width : Char → Option Nat) (maxCols : Nat)
    (intercept : List Char → Option (σ → σ)) (input : String) (core : VtCore C σ) : Prop :=
  ∃ fuel, Ends (vtDrive width maxCols intercept fuel input core)

theorem tabGo_mono {nextTab fuel more : Nat} (hle : fuel ≤ more)
    (h : Ends (tabGo width maxCols nextTab fuel core)) :
    tabGo width maxCols nextTab more core = tabGo width maxCols nextTab fuel core := by
  induction fuel generalizing core more with
  | zero =>
    rw [tabGo] at h ⊢
    split at h
    · exact absurd rfl (h core)
    · next hdone =>
        rw [if_neg hdone]
        cases more with
        | zero => rw [tabGo, if_neg hdone]
        | succ more => rw [tabGo, if_neg hdone]
  | succ fuel ih =>
    obtain ⟨more, rfl⟩ := Nat.exists_eq_add_one.mpr (Nat.lt_of_lt_of_le fuel.succ_pos hle)
    rw [tabGo] at h ⊢
    rw [tabGo]
    split at h
    · next hbefore =>
        rw [if_pos hbefore, if_pos hbefore]
        cases hput : put width maxCols ' ' core with
        | error fault => rfl
        | ok next =>
          rw [hput] at h
          exact ih (Nat.le_of_succ_le_succ hle) h
    · next hdone => rw [if_neg hdone, if_neg hdone]

theorem step_mono {token : VtToken} {fuel more : Nat} (hle : fuel ≤ more)
    (h : Ends (step width maxCols intercept fuel core token)) :
    step width maxCols intercept more core token =
      step width maxCols intercept fuel core token := by
  cases token with
  | csi sequence => rfl
  | osc body => rfl
  | stringSequence payload => rfl
  | escape next => rfl
  | char ch =>
    by_cases htab : ch = '\t'
    · subst htab
      change tab width maxCols more core = tab width maxCols fuel core
      change Ends (tab width maxCols fuel core) at h
      unfold tab at h ⊢
      cases hstop : (usizeAdd (core.col / 8) 1 : Except (VtFault C σ) Nat) with
      | error fault => rfl
      | ok stop =>
        rw [hstop, ok_bind] at h
        rw [ok_bind, ok_bind]
        cases hnext : (usizeMul stop 8 : Except (VtFault C σ) Nat) with
        | error fault => rfl
        | ok nextTab =>
          rw [hnext] at h
          exact tabGo_mono hle h
    · simp only [step, if_neg htab]

theorem run_mono {tokens : List VtToken} {fuel more : Nat} (hle : fuel ≤ more)
    (h : Ends (run width maxCols intercept fuel tokens core)) :
    run width maxCols intercept more tokens core =
      run width maxCols intercept fuel tokens core := by
  induction tokens generalizing core with
  | nil => rfl
  | cons token tokens ih =>
    have hcons (fuel : Nat) : run width maxCols intercept fuel (token :: tokens) core =
        step width maxCols intercept fuel core token >>= run width maxCols intercept fuel tokens :=
      rfl
    rw [hcons] at h
    have hstep : Ends (step width maxCols intercept fuel core token) := by
      intro left hleft
      rw [hleft] at h
      exact h left rfl
    rw [hcons, hcons, step_mono hle hstep]
    cases hnext : step width maxCols intercept fuel core token with
    | error fault => rfl
    | ok next =>
      rw [hnext] at h
      exact ih h

theorem tab_eq {fuel : Nat} (hword : (core.col / 8 + 1) * 8 < 2 ^ 64) :
    tab width maxCols fuel core = tabGo width maxCols ((core.col / 8 + 1) * 8) fuel core := by
  unfold tab usizeMul
  rw [usizeAdd_of_lt (by omega), ok_bind, if_pos hword, ok_bind]

theorem tabGo_running (hblank : VtCore.charWidth width ' ' = 1) (hpos : 0 < maxCols)
    {nextTab : Nat} (hover : maxCols < nextTab) (hword : nextTab < 2 ^ 64) (h : Bounded core)
    (hbefore : core.col < nextTab) (fuel : Nat) :
    ∃ left, tabGo width maxCols nextTab fuel core = .error (.running left) := by
  induction fuel generalizing core with
  | zero => exact ⟨core, if_pos hbefore⟩
  | succ fuel ih =>
    obtain ⟨hput, hbounded⟩ := put_eq maxCols h
      (show core.col + VtCore.charWidth width ' ' < 2 ^ 64 by omega)
    have hcol : ((wrapped maxCols (VtCore.charWidth width ' ') core).put width ' ').col =
        (wrapped maxCols (VtCore.charWidth width ' ') core).col +
          VtCore.charWidth width ' ' := rfl
    rw [tabGo, if_pos hbefore, hput]
    apply ih hbounded
    rw [hcol, hblank, wrapped]
    split
    · have hzero : core.newLine.col = 0 := rfl
      omega
    · omega

/-- Without a budget, or left of a stop in the budget, each blank is a column. -/
theorem tabGo_ends (hblank : VtCore.charWidth width ' ' = 1) {nextTab : Nat}
    (hfits : maxCols = 0 ∨ nextTab ≤ maxCols) (hword : nextTab < 2 ^ 64) (h : Bounded core)
    {fuel : Nat} (hfuel : nextTab - core.col ≤ fuel) :
    ∃ reached, tabGo width maxCols nextTab fuel core = .ok reached := by
  induction fuel generalizing core with
  | zero => exact ⟨core, if_neg (by omega)⟩
  | succ fuel ih =>
    rw [tabGo]
    by_cases hbefore : core.col < nextTab
    · obtain ⟨hput, hbounded⟩ := put_eq maxCols h
        (show core.col + VtCore.charWidth width ' ' < 2 ^ 64 by omega)
      have hcol : ((wrapped maxCols (VtCore.charWidth width ' ') core).put width ' ').col =
          (wrapped maxCols (VtCore.charWidth width ' ') core).col +
            VtCore.charWidth width ' ' := rfl
      rw [if_pos hbefore, hput]
      apply ih hbounded
      rw [hcol, hblank, wrapped, if_neg (by omega)]
      omega
    · exact ⟨core, if_neg hbefore⟩

theorem step_ends (hblank : VtCore.charWidth width ' ' = 1) (h : Bounded core)
    {token : VtToken} (hfits : token = .char '\t' → TabFits maxCols core) :
    Ends (step width maxCols intercept 8 core token) := by
  by_cases htab : token = .char '\t'
  · subst htab
    change Ends (tab width maxCols 8 core)
    by_cases hword : (core.col / 8 + 1) * 8 < 2 ^ 64
    · have hbudget : maxCols = 0 ∨ (core.col / 8 + 1) * 8 ≤ maxCols :=
        (hfits rfl).imp_right fun hstop => hstop.resolve_right (by omega)
      obtain ⟨reached, hreached⟩ := tabGo_ends hblank hbudget hword h
        (show (core.col / 8 + 1) * 8 - core.col ≤ 8 by omega)
      rw [tab_eq hword, hreached]
      intro left hleft
      cases hleft
    · rw [tab_overflow (by omega)]
      intro left hleft
      cases hleft
  · intro left hleft
    by_cases hsums : StepFits width intercept core token
    · obtain ⟨next, hnext, -⟩ := step_ok h htab hsums
      rw [hnext] at hleft
      cases hleft
    · rw [step_overflow h hsums] at hleft
      cases hleft

theorem run_append (fuel : Nat) (front back : List VtToken) :
    run width maxCols intercept fuel (front ++ back) core =
      run width maxCols intercept fuel front core >>= run width maxCols intercept fuel back := by
  unfold run
  rw [List.foldlM_append]

theorem not_terminates (hblank : VtCore.charWidth width ' ' = 1) (h : Bounded core)
    {input : String} {front back : List VtToken}
    (htokens : vtTokens input.toList = front ++ .char '\t' :: back) {fuel : Nat}
    {reached : VtCore C σ} (hreached : run width maxCols intercept fuel front core = .ok reached)
    (hfits : ¬TabFits maxCols reached) : ¬Terminates width maxCols intercept input core := by
  rintro ⟨enough, hends⟩
  simp only [TabFits, not_or, not_le] at hfits
  have hpos : 0 < maxCols := Nat.pos_of_ne_zero hfits.1
  -- With the blanks of both runs the front ends as it did, and the tab goes on.
  have hfront : run width maxCols intercept (max enough fuel) front core = .ok reached := by
    rw [← hreached]
    apply run_mono (Nat.le_max_right ..)
    rw [hreached]
    intro left hleft
    cases hleft
  obtain ⟨left, hleft⟩ := tabGo_running hblank hpos hfits.2.1 hfits.2.2
    (bounded_of_run hblank h hreached)
    (show reached.col < (reached.col / 8 + 1) * 8 by omega) (max enough fuel)
  have htab : step width maxCols intercept (max enough fuel) reached (.char '\t') =
      .error (.running left) := by
    change tab width maxCols (max enough fuel) reached = _
    rw [tab_eq hfits.2.2, hleft]
  have hrun : vtDrive width maxCols intercept (max enough fuel) input core =
      .error (.running left) := by
    rw [vtDrive, htokens, run_append, hfront, ok_bind]
    change step width maxCols intercept (max enough fuel) reached (.char '\t') >>= _ = _
    rw [htab, error_bind]
  rw [vtDrive, run_mono (Nat.le_max_left ..) hends] at hrun
  exact hends left hrun

theorem run_ends (hblank : VtCore.charWidth width ' ' = 1) (h : Bounded core)
    {tokens : List VtToken} (hfits : ∀ front back, tokens = front ++ .char '\t' :: back →
      ∀ reached, run width maxCols intercept 8 front core = .ok reached →
        TabFits maxCols reached) : Ends (run width maxCols intercept 8 tokens core) := by
  induction tokens using List.reverseRecOn with
  | nil =>
    intro left hleft
    cases hleft
  | append_singleton tokens token ih =>
    have hfront := ih fun front back htokens => hfits front (back ++ [token])
      (by rw [htokens, List.append_assoc, List.cons_append])
    rw [run_concat]
    cases hrun : run width maxCols intercept 8 tokens core with
    | error fault =>
      rw [hrun] at hfront
      exact hfront
    | ok reached =>
      rw [ok_bind]
      apply step_ends hblank (bounded_of_run hblank h hrun)
      rintro rfl
      exact hfits tokens [] rfl reached hrun

end Tabs

/-- The output of a terminal is read to its end just if each tab comes where its stop is in the
budget. -/
theorem vtDrive_terminates_iff {C σ : Type} [VtCell C σ] {width : Char → Option Nat}
    (hblank : VtCore.charWidth width ' ' = 1) (intercept : List Char → Option (σ → σ))
    (maxCols : Nat) (style : σ) {maxLines : Nat} (hmax : maxLines < 2 ^ 64) (input : String) :
    Terminates width maxCols intercept input (VtCore.new style maxLines : VtCore C σ) ↔
      ∀ front back, vtTokens input.toList = front ++ .char '\t' :: back →
        ∀ fuel reached, run width maxCols intercept fuel front
            (VtCore.new style maxLines : VtCore C σ) = .ok reached → TabFits maxCols reached := by
  have hnew : Bounded (VtCore.new style maxLines : VtCore C σ) := bounded_new hmax style
  constructor
  · intro hends front back htokens fuel reached hreached
    by_contra hfits
    exact not_terminates hblank hnew htokens hreached hfits hends
  · intro h
    exact ⟨8, run_ends hblank hnew fun front back htokens => h front back htokens 8⟩

/-- A tab at the start of a line of ten columns. -/
theorem vtDrive_terminates_tab :
    Terminates (fun _ => some 1) 10 plainSequence "\t" (VtCore.new () 400 : VtCore Char Unit) := by
  apply (vtDrive_terminates_iff rfl plainSequence 10 () (by decide) "\t").mpr
  intro front back htokens fuel reached hreached
  have hone : vtTokens "\t".toList = [.char '\t'] := by decide +kernel
  rw [hone] at htokens
  cases front with
  | nil =>
    rw [← Except.ok.inj hreached]
    exact .inr (.inl (by decide))
  | cons next front => simp at htokens

/-- A tab behind the last column of a line of eighty. -/
theorem vtDrive_not_terminates :
    ¬Terminates (fun _ => some 1) 80 plainSequence "\x1b[81G\t"
      (VtCore.new () 400 : VtCore Char Unit) := by
  have htokens : vtTokens "\x1b[81G\t".toList = [.csi ['8', '1', 'G']] ++ .char '\t' :: [] := by
    decide +kernel
  have hnew : Bounded (VtCore.new () 400 : VtCore Char Unit) := bounded_new (by decide) ()
  have hreached : run (fun _ => some 1) 80 plainSequence 0 [.csi ['8', '1', 'G']]
      (VtCore.new () 400 : VtCore Char Unit) = .ok { VtCore.new () 400 with col := 80 } := by
    have hcount : csiCount ['8', '1'] = 81 := by decide +kernel
    simp [run, step, plainSequence, applyCsi, hcount]
  apply not_terminates rfl hnew htokens hreached
  unfold TabFits
  decide

end HerdrWebui.Terminal
