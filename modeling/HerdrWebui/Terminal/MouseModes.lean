import Mathlib.Data.List.TakeWhile
import Mathlib.Tactic

/-!
The mouse modes an attached program asks for (`shared/terminal_adapter.js`), found in its
output as the chunks come.

A sequence that is not complete at the end of a chunk is carried to the next one, unless
more than sixteen characters of it are there.
-/

namespace HerdrWebui.Terminal

/-- `[\d;]`. -/
def isModeParam (c : Char) : Bool := c.isDigit || c == ';'

/-- A match of `MOUSE_MODE_CSI_RE` at the start: the parameters, whether the modes are set,
and what follows. -/
def matchMouseMode : List Char → Option (List Char × Bool × List Char)
  | '\x1b' :: '[' :: '?' :: text =>
    match text.dropWhile isModeParam with
    | 'h' :: rest => some (text.takeWhile isModeParam, true, rest)
    | 'l' :: rest => some (text.takeWhile isModeParam, false, rest)
    | _ => none
  | _ => none

/-- A sequence that sets or resets modes, with the place it starts and the one it ends at. -/
structure ModeSequence where
  start : Nat
  stop : Nat
  params : List Char
  enable : Bool
  deriving DecidableEq

theorem matchMouseMode_length {text params rest : List Char} {enable : Bool}
    (h : matchMouseMode text = some (params, enable, rest)) : rest.length < text.length := by
  unfold matchMouseMode at h
  split at h
  · next tail =>
      have hle := (List.dropWhile_suffix (l := tail) isModeParam).length_le
      split at h
      · next heq =>
          cases h
          rw [heq] at hle
          simp only [List.length_cons] at hle ⊢
          omega
      · next heq =>
          cases h
          rw [heq] at hle
          simp only [List.length_cons] at hle ⊢
          omega
      · cases h
  · cases h

/-- The matches of `MOUSE_MODE_CSI_RE` one after the other, in a text that starts there. -/
def modeSequences (start : Nat) : List Char → List ModeSequence
  | [] => []
  | c :: text =>
    match h : matchMouseMode (c :: text) with
    | some (params, enable, rest) =>
      ⟨start, start + ((c :: text).length - rest.length), params, enable⟩ ::
        modeSequences (start + ((c :: text).length - rest.length)) rest
    | none => modeSequences (start + 1) text
termination_by text => text.length
decreasing_by
  · exact matchMouseMode_length h
  · exact Nat.lt_succ_self _

inductive MouseFlag where
  | tracking
  | sgrMouse
  deriving DecidableEq

/-- `MOUSE_TRACKING_PARAMS` and `MOUSE_SGR_PARAM`. -/
def mouseFlagOf (value : Nat) : Option MouseFlag :=
  if value = 1000 ∨ value = 1002 ∨ value = 1003 then some .tracking
  else if value = 1006 then some .sgrMouse
  else none

/-- The flag a parameter is about, where it is about one. -/
def paramFlag (param : List Char) : Option MouseFlag :=
  if param = [] then none else mouseFlagOf (Nat.ofDigitChars 10 param 0)

/-- The flags a sequence sets or resets, in order. -/
def ModeSequence.flags (sequence : ModeSequence) : List MouseFlag :=
  (sequence.params.splitOn ';').filterMap paramFlag

structure MouseModeState where
  carry : List Char
  tracking : Bool
  sgrMouse : Bool
  deriving DecidableEq

namespace MouseModeState

def flag (s : MouseModeState) : MouseFlag → Bool
  | .tracking => s.tracking
  | .sgrMouse => s.sgrMouse

def setFlag (enable : Bool) (s : MouseModeState) : MouseFlag → MouseModeState
  | .tracking => { s with tracking := enable }
  | .sgrMouse => { s with sgrMouse := enable }

def applySequence (s : MouseModeState) (sequence : ModeSequence) : MouseModeState :=
  sequence.flags.foldl (setFlag sequence.enable) s

end MouseModeState

/-- `^\x1b\[?\??[\d;]*$`. -/
def isModeTail : List Char → Bool
  | '\x1b' :: text =>
    let text := if text.head? = some '[' then text.drop 1 else text
    let text := if text.head? = some '?' then text.drop 1 else text
    text.all isModeParam
  | _ => false

/-- What follows the last escape character, with it. -/
def lastEscape : List Char → Option (List Char)
  | [] => none
  | c :: text => (lastEscape text).or (if c = '\x1b' then some (c :: text) else none)

def mouseModeCarrySuffix (text : List Char) : List Char :=
  match lastEscape text with
  | none => []
  | some tail => if 16 < tail.length then [] else if isModeTail tail then tail else []

def applyMouseModeSequences (s : MouseModeState) (text : List Char) : MouseModeState :=
  if text = [] then s
  else
    let text := s.carry ++ text
    let carry := mouseModeCarrySuffix text
    (modeSequences 0 (text.take (text.length - carry.length))).foldl
      MouseModeState.applySequence { s with carry }

def modeEnd (enable : Bool) : Char := if enable then 'h' else 'l'

def sequenceText (params : List Char) (enable : Bool) : List Char :=
  '\x1b' :: '[' :: '?' :: (params ++ [modeEnd enable])

theorem isModeParam_modeEnd (enable : Bool) : isModeParam (modeEnd enable) = false := by
  cases enable <;> decide

theorem matchMouseMode_eq_some_iff {text params rest : List Char} {enable : Bool} :
    matchMouseMode text = some (params, enable, rest) ↔
      text = sequenceText params enable ++ rest ∧ ∀ c ∈ params, isModeParam c = true := by
  constructor
  · intro h
    unfold matchMouseMode at h
    split at h
    · next tail =>
        have hsplit := List.takeWhile_append_dropWhile (p := isModeParam) (l := tail)
        split at h
        · next heq =>
            cases h
            refine ⟨?_, fun c hmem => List.mem_takeWhile_imp hmem⟩
            rw [heq] at hsplit
            simpa [sequenceText, modeEnd] using hsplit.symm
        · next heq =>
            cases h
            refine ⟨?_, fun c hmem => List.mem_takeWhile_imp hmem⟩
            rw [heq] at hsplit
            simpa [sequenceText, modeEnd] using hsplit.symm
        · cases h
    · cases h
  · rintro ⟨rfl, hparams⟩
    have hend : isModeParam (modeEnd enable) ≠ true := by
      rw [isModeParam_modeEnd]
      exact Bool.false_ne_true
    have hdrop : ((params ++ [modeEnd enable]) ++ rest).dropWhile isModeParam =
        modeEnd enable :: rest := by
      rw [List.append_assoc, List.dropWhile_append_of_pos hparams, List.singleton_append,
        List.dropWhile_cons_of_neg hend]
    have htake : ((params ++ [modeEnd enable]) ++ rest).takeWhile isModeParam = params := by
      rw [List.append_assoc, List.takeWhile_append_of_pos hparams, List.singleton_append,
        List.takeWhile_cons_of_neg hend, List.append_nil]
    rw [sequenceText, List.cons_append, List.cons_append, List.cons_append, matchMouseMode, hdrop,
      htake]
    cases enable <;> rfl

theorem sequenceText_length (params : List Char) (enable : Bool) :
    (sequenceText params enable).length = params.length + 4 := by
  rw [sequenceText, List.length_cons, List.length_cons, List.length_cons, List.length_append]
  rfl

theorem escape_not_mem_sequence {params : List Char} (enable : Bool)
    (h : ∀ c ∈ params, isModeParam c = true) :
    '\x1b' ∉ '[' :: '?' :: (params ++ [modeEnd enable]) := by
  intro hmem
  rw [List.mem_cons, List.mem_cons, List.mem_append, List.mem_singleton] at hmem
  rcases hmem with hmem | hmem | hmem | hmem
  · exact absurd hmem (by decide)
  · exact absurd hmem (by decide)
  · exact absurd (h _ hmem) (by decide)
  · cases enable <;> exact absurd hmem (by decide)

theorem modeSequences_of_some {text params rest : List Char} {enable : Bool} (start : Nat)
    (h : matchMouseMode text = some (params, enable, rest)) :
    modeSequences start text =
      ⟨start, start + (params.length + 4), params, enable⟩ ::
        modeSequences (start + (params.length + 4)) rest := by
  have htext := (matchMouseMode_eq_some_iff.mp h).1
  have hlength : text.length - rest.length = params.length + 4 := by
    rw [htext, List.length_append, sequenceText_length, Nat.add_sub_cancel]
  cases text with
  | nil => cases h
  | cons c text =>
    rw [modeSequences]
    split
    · next heq =>
        rw [h] at heq
        cases heq
        rw [hlength]
    · next heq =>
        rw [h] at heq
        cases heq

theorem modeSequences_of_none {c : Char} {text : List Char} (start : Nat)
    (h : matchMouseMode (c :: text) = none) :
    modeSequences start (c :: text) = modeSequences (start + 1) text := by
  rw [modeSequences]
  split
  · next heq =>
      rw [h] at heq
      cases heq
  · rfl

theorem matchMouseMode_of_ne {c : Char} {text : List Char} (h : c ≠ '\x1b') :
    matchMouseMode (c :: text) = none := by
  unfold matchMouseMode
  split
  · next heq => exact absurd (List.cons.inj heq).1 h
  · rfl

theorem modeSequences_append_of_not_mem {front : List Char} (h : '\x1b' ∉ front) (start : Nat)
    (back : List Char) :
    modeSequences start (front ++ back) = modeSequences (start + front.length) back := by
  induction front generalizing start with
  | nil => rfl
  | cons c front ih =>
    rw [List.mem_cons, not_or] at h
    rw [List.cons_append, modeSequences_of_none start (matchMouseMode_of_ne (Ne.symm h.1)),
      ih h.2, List.length_cons, Nat.add_right_comm, Nat.add_assoc]

theorem modeSequences_of_not_mem {text : List Char} (h : '\x1b' ∉ text) (start : Nat) :
    modeSequences start text = [] := by
  have happend := modeSequences_append_of_not_mem h start []
  rw [List.append_nil] at happend
  rw [happend, modeSequences]

/-- The front of a sequence that goes on behind the cut, as the carry looks for it. -/
structure OpenSequence (head : List Char) : Prop where
  escape : ∃ more, head = '\x1b' :: more ∧ '\x1b' ∉ more
  tail : isModeTail head = true

theorem lastEscape_append {head : List Char} (h : OpenSequence head) (front : List Char) :
    lastEscape (front ++ head) = some head := by
  obtain ⟨more, rfl, hmore⟩ := h.escape
  have hnone : lastEscape more = none := by
    clear h
    induction more with
    | nil => rfl
    | cons c more ih =>
      rw [List.mem_cons, not_or] at hmore
      rw [lastEscape, ih hmore.2, if_neg (Ne.symm hmore.1)]
      rfl
  induction front with
  | nil =>
    rw [List.nil_append, lastEscape, hnone, if_pos rfl]
    rfl
  | cons c front ih =>
    rw [List.cons_append, lastEscape, ih]
    rfl

theorem OpenSequence.modeSequences_eq_nil {head : List Char} (h : OpenSequence head)
    (start : Nat) : modeSequences start head = [] := by
  obtain ⟨more, rfl, hmore⟩ := h.escape
  cases hmatch : matchMouseMode ('\x1b' :: more) with
  | none => rw [modeSequences_of_none start hmatch, modeSequences_of_not_mem hmore]
  | some found =>
    obtain ⟨params, enable, rest⟩ := found
    have htext := (matchMouseMode_eq_some_iff.mp hmatch).1
    have htail := h.tail
    rw [htext] at htail
    have hend := List.all_eq_true.mp htail (modeEnd enable)
      (List.mem_append_left _ (List.mem_append_right _ List.mem_cons_self))
    rw [isModeParam_modeEnd] at hend
    cases hend

theorem openSequence_of_append {head back params : List Char} {enable : Bool}
    (hne : head ≠ []) (hback : back ≠ []) (hparams : ∀ c ∈ params, isModeParam c = true)
    (h : sequenceText params enable = head ++ back) : OpenSequence head := by
  obtain ⟨c, more, rfl⟩ := List.exists_cons_of_ne_nil hne
  rw [sequenceText, List.cons_append, List.cons.injEq] at h
  obtain ⟨rfl, hmore⟩ := h
  refine ⟨⟨more, rfl, fun hmem => ?_⟩, ?_⟩
  · apply escape_not_mem_sequence enable hparams
    rw [hmore]
    exact List.mem_append_left _ hmem
  · match more, hmore with
    | [], _ => rfl
    | [_], hmore =>
      rw [List.cons_append, List.cons.injEq] at hmore
      rw [← hmore.1]
      rfl
    | _ :: _ :: head, hmore =>
      rw [List.cons_append, List.cons.injEq, List.cons_append, List.cons.injEq] at hmore
      obtain ⟨rfl, rfl, hmore⟩ := hmore
      have hhead : ∀ c ∈ head, isModeParam c = true := by
        obtain ⟨init, last, rfl⟩ := (List.eq_nil_or_concat back).resolve_left hback
        rw [List.concat_eq_append, ← List.append_assoc] at hmore
        intro c hmem
        apply hparams
        rw [(List.append_inj' hmore rfl).1]
        exact List.mem_append_left _ hmem
      exact List.all_eq_true.mpr hhead

theorem matchMouseMode_append {front params rest : List Char} {enable : Bool}
    (h : matchMouseMode front = some (params, enable, rest)) (back : List Char) :
    matchMouseMode (front ++ back) = some (params, enable, rest ++ back) := by
  obtain ⟨rfl, hparams⟩ := matchMouseMode_eq_some_iff.mp h
  exact matchMouseMode_eq_some_iff.mpr ⟨List.append_assoc _ _ _, hparams⟩

/-- A match that only what follows completes is of a sequence open at the cut. -/
theorem matchMouseMode_straddles {front back params rest : List Char} {enable : Bool}
    (hne : front ≠ []) (hnone : matchMouseMode front = none)
    (h : matchMouseMode (front ++ back) = some (params, enable, rest)) :
    OpenSequence front ∧ ∃ stray, back = stray ++ rest ∧ '\x1b' ∉ stray ∧
      params.length + 4 = front.length + stray.length ∧ stray ≠ [] := by
  obtain ⟨htext, hparams⟩ := matchMouseMode_eq_some_iff.mp h
  rcases List.append_eq_append_iff.mp htext with ⟨stray, hsequence, hback⟩ | ⟨more, hfront, -⟩
  · have hstray : stray ≠ [] := by
      rintro rfl
      rw [List.append_nil] at hsequence
      have hsome := matchMouseMode_eq_some_iff.mpr
        ⟨hsequence.symm.trans (List.append_nil _).symm, hparams⟩
      rw [hnone] at hsome
      cases hsome
    refine ⟨openSequence_of_append hne hstray hparams hsequence, stray, hback, ?_, ?_, hstray⟩
    · obtain ⟨c, tail, rfl⟩ := List.exists_cons_of_ne_nil hne
      rw [sequenceText, List.cons_append, List.cons.injEq] at hsequence
      intro hmem
      apply escape_not_mem_sequence enable hparams
      rw [hsequence.2]
      exact List.mem_append_right _ hmem
    · rw [← sequenceText_length params enable, hsequence, List.length_append]
  · have hsome := matchMouseMode_eq_some_iff.mpr ⟨hfront, hparams⟩
    rw [hnone] at hsome
    cases hsome

theorem modeSequences_append (start : Nat) (front back : List Char) :
    modeSequences start (front ++ back) =
        modeSequences start front ++ modeSequences (start + front.length) back ∨
      ∃ before head stray rest params enable,
        front = before ++ head ∧ back = stray ++ rest ∧ OpenSequence head ∧
        '\x1b' ∉ stray ∧ stray ≠ [] ∧
        modeSequences start front = modeSequences start before ∧
        modeSequences start (front ++ back) =
          modeSequences start before ++
            ⟨start + before.length, start + front.length + stray.length, params, enable⟩ ::
              modeSequences (start + front.length + stray.length) rest := by
  induction hn : front.length using Nat.strong_induction_on generalizing front start with
  | _ n ih =>
    subst hn
    cases front with
    | nil =>
      left
      rw [modeSequences]
      rfl
    | cons c front =>
      cases hfront : matchMouseMode (c :: front) with
      | some found =>
        obtain ⟨params, enable, rest⟩ := found
        have htext := (matchMouseMode_eq_some_iff.mp hfront).1
        have hlength := congrArg List.length htext
        rw [List.length_append, sequenceText_length] at hlength
        have hwhole := matchMouseMode_append hfront back
        have hshorter := matchMouseMode_length hfront
        have hstop : start + (params.length + 4) + rest.length =
            start + (c :: front).length := by omega
        rw [modeSequences_of_some start hfront, modeSequences_of_some start hwhole]
        rcases ih rest.length hshorter (start + (params.length + 4)) rest rfl with
          hclean | ⟨before, head, stray, more, params', enable', hrest, hback, hopen, hstray,
            hne, hhead, hmore⟩
        · left
          rw [hclean, hstop]
          rfl
        · right
          have hbefore := modeSequences_of_some start (matchMouseMode_eq_some_iff.mpr
            ⟨rfl, (matchMouseMode_eq_some_iff.mp hfront).2⟩ :
            matchMouseMode (sequenceText params enable ++ before) =
              some (params, enable, before))
          refine ⟨sequenceText params enable ++ before, head, stray, more, params', enable',
            ?_, hback, hopen, hstray, hne, ?_, ?_⟩
          · rw [htext, hrest, List.append_assoc]
          · rw [hhead, hbefore]
          · rw [hmore, hbefore, hstop, List.length_append, sequenceText_length, Nat.add_assoc]
            rfl
      | none =>
        cases hwhole : matchMouseMode (c :: front ++ back) with
        | some found =>
          obtain ⟨params, enable, rest⟩ := found
          obtain ⟨hopen, stray, hback, hstray, hlength, hne⟩ :=
            matchMouseMode_straddles (List.cons_ne_nil _ _) hfront hwhole
          right
          obtain ⟨more, hhead, hmore⟩ := hopen.escape
          refine ⟨[], c :: front, stray, rest, params, enable, rfl, hback, hopen, hstray, hne,
            ?_, ?_⟩
          · rw [modeSequences_of_none start hfront, modeSequences]
            cases hhead
            exact modeSequences_of_not_mem hmore _
          · rw [modeSequences_of_some start hwhole, hlength, Nat.add_assoc, modeSequences]
            rfl
        | none =>
          have hskip : modeSequences start (c :: front ++ back) =
              modeSequences (start + 1) (front ++ back) := modeSequences_of_none start hwhole
          rw [modeSequences_of_none start hfront, hskip, List.length_cons]
          have hstart : start + (front.length + 1) = start + 1 + front.length := by omega
          rw [hstart]
          rcases ih front.length (Nat.lt_succ_self _) (start + 1) front rfl with
            hclean | ⟨before, head, stray, rest, params, enable, rfl, hback, hopen, hstray,
              hne, hhead, hmore⟩
          · exact .inl hclean
          · right
            have hbefore : matchMouseMode (c :: before) = none := by
              cases hsome : matchMouseMode (c :: before) with
              | none => rfl
              | some found =>
                have happend := matchMouseMode_append hsome head
                rw [List.cons_append, hfront] at happend
                cases happend
            refine ⟨c :: before, head, stray, rest, params, enable, rfl, hback, hopen, hstray,
              hne, ?_, ?_⟩
            · rw [hhead, modeSequences_of_none start hbefore]
            · rw [hmore, modeSequences_of_none start hbefore, List.length_cons,
                Nat.add_right_comm start 1, Nat.add_assoc start]

def ModeSequence.shift (offset : Nat) (sequence : ModeSequence) : ModeSequence :=
  { sequence with start := offset + sequence.start, stop := offset + sequence.stop }

theorem modeSequences_shift (offset start : Nat) (text : List Char) :
    modeSequences (offset + start) text =
      (modeSequences start text).map (ModeSequence.shift offset) := by
  induction hn : text.length using Nat.strong_induction_on generalizing text start with
  | _ n ih =>
    subst hn
    cases text with
    | nil =>
      rw [modeSequences, modeSequences]
      rfl
    | cons c text =>
      cases htext : matchMouseMode (c :: text) with
      | some found =>
        obtain ⟨params, enable, rest⟩ := found
        rw [modeSequences_of_some _ htext, modeSequences_of_some _ htext, List.map_cons,
          Nat.add_assoc, ih rest.length (matchMouseMode_length htext) _ rest rfl]
        rfl
      | none =>
        rw [modeSequences_of_none _ htext, modeSequences_of_none _ htext, Nat.add_assoc,
          ih text.length (Nat.lt_succ_self _) _ text rfl]

theorem modeSequences_bounds {start : Nat} {text : List Char} {sequence : ModeSequence}
    (h : sequence ∈ modeSequences start text) :
    start ≤ sequence.start ∧ sequence.stop ≤ start + text.length := by
  induction hn : text.length using Nat.strong_induction_on generalizing text start with
  | _ n ih =>
    subst hn
    cases text with
    | nil =>
      rw [modeSequences] at h
      cases h
    | cons c text =>
      cases htext : matchMouseMode (c :: text) with
      | some found =>
        obtain ⟨params, enable, rest⟩ := found
        have hlength := congrArg List.length (matchMouseMode_eq_some_iff.mp htext).1
        rw [List.length_append, sequenceText_length] at hlength
        rw [modeSequences_of_some _ htext] at h
        rcases List.mem_cons.mp h with rfl | hmem
        · refine ⟨le_rfl, ?_⟩
          change start + (params.length + 4) ≤ _
          omega
        · have hmore := ih rest.length (matchMouseMode_length htext) hmem rfl
          omega
      | none =>
        rw [modeSequences_of_none _ htext] at h
        have hmore := ih text.length (Nat.lt_succ_self _) h rfl
        rw [List.length_cons]
        omega

/-- Where chunks end behind what is carried. -/
def chunkCuts (carried : Nat) : List (List Char) → List Nat
  | [] => []
  | chunk :: chunks => (carried + chunk.length) :: chunkCuts (carried + chunk.length) chunks

/-- A cut inside the sequence has more of it in front than the carry takes. -/
def ModeSequence.torn (cuts : List Nat) (sequence : ModeSequence) : Bool :=
  cuts.any fun cut => sequence.start + 16 < cut && cut < sequence.stop

/-- The sequences of an output that no cut tears. -/
def wholeSequences (cuts : List Nat) (text : List Char) : List ModeSequence :=
  (modeSequences 0 text).filter fun sequence => !sequence.torn cuts

/-- The value of a flag behind sequences, which the last of them that is about it gives. -/
def settled (flag : MouseFlag) (initial : Bool) (sequences : List ModeSequence) : Bool :=
  (((sequences.filter fun sequence => flag ∈ sequence.flags).getLast?).map (·.enable)).getD initial

theorem settled_append (flag : MouseFlag) (initial : Bool) (front back : List ModeSequence) :
    settled flag initial (front ++ back) = settled flag (settled flag initial front) back := by
  rw [settled, settled, settled, List.filter_append, List.getLast?_append]
  cases (back.filter fun sequence => flag ∈ sequence.flags).getLast? <;> rfl

theorem settled_shift (flag : MouseFlag) (initial : Bool) (offset : Nat)
    (sequences : List ModeSequence) :
    settled flag initial (sequences.map (ModeSequence.shift offset)) =
      settled flag initial sequences := by
  rw [settled, settled, List.filter_map, List.getLast?_map, Option.map_map]
  rfl

namespace MouseModeState

@[simp] theorem flag_setFlag (enable : Bool) (s : MouseModeState) (flag other : MouseFlag) :
    (s.setFlag enable other).flag flag = if flag = other then enable else s.flag flag := by
  cases flag <;> cases other <;> rfl

theorem flag_applySequence (s : MouseModeState) (sequence : ModeSequence) (flag : MouseFlag) :
    (s.applySequence sequence).flag flag =
      if flag ∈ sequence.flags then sequence.enable else s.flag flag := by
  rw [applySequence]
  induction sequence.flags generalizing s with
  | nil => rfl
  | cons other flags ih =>
    rw [List.foldl_cons, ih, flag_setFlag]
    simp only [List.mem_cons]
    split_ifs <;> simp_all

theorem flag_foldl_applySequence (s : MouseModeState) (sequences : List ModeSequence)
    (flag : MouseFlag) :
    (sequences.foldl applySequence s).flag flag = settled flag (s.flag flag) sequences := by
  induction sequences generalizing s with
  | nil => rfl
  | cons sequence sequences ih =>
    have happend := settled_append flag (s.flag flag) [sequence] sequences
    rw [List.singleton_append] at happend
    rw [List.foldl_cons, ih, happend, flag_applySequence]
    congr 1
    rw [settled, List.filter_singleton]
    split_ifs <;> simp_all

theorem carry_foldl_applySequence (s : MouseModeState) (sequences : List ModeSequence) :
    (sequences.foldl applySequence s).carry = s.carry := by
  induction sequences generalizing s with
  | nil => rfl
  | cons sequence sequences ih =>
    rw [List.foldl_cons, ih, applySequence]
    induction sequence.flags generalizing s with
    | nil => rfl
    | cons flag flags ihflags =>
      rw [List.foldl_cons, ihflags]
      cases flag <;> rfl

end MouseModeState

def IsCarry (carry : List Char) : Prop := carry = [] ∨ OpenSequence carry ∧ carry.length ≤ 16

theorem lastEscape_eq_none {text : List Char} (h : lastEscape text = none) :
    '\x1b' ∉ text := by
  induction text with
  | nil => exact List.not_mem_nil
  | cons c text ih =>
    rw [lastEscape, Option.or_eq_none_iff] at h
    rw [List.mem_cons, not_or]
    refine ⟨fun heq => ?_, ih h.1⟩
    rw [if_pos heq.symm] at h
    exact absurd h.2 (Option.some_ne_none _)

theorem lastEscape_eq_some {text tail : List Char} (h : lastEscape text = some tail) :
    (∃ front, text = front ++ tail) ∧ ∃ more, tail = '\x1b' :: more ∧ '\x1b' ∉ more := by
  induction text with
  | nil => cases h
  | cons c text ih =>
    rw [lastEscape] at h
    cases hlast : lastEscape text with
    | some found =>
      rw [hlast, Option.some_or] at h
      cases h
      obtain ⟨⟨front, hfront⟩, hescape⟩ := ih hlast
      exact ⟨⟨c :: front, congrArg (c :: ·) hfront⟩, hescape⟩
    | none =>
      rw [hlast, Option.none_or] at h
      split at h
      · next hc =>
          cases h
          exact ⟨⟨[], rfl⟩, text, by rw [hc], lastEscape_eq_none hlast⟩
      · cases h

theorem isCarry_mouseModeCarrySuffix (text : List Char) :
    IsCarry (mouseModeCarrySuffix text) ∧ ∃ front, text = front ++ mouseModeCarrySuffix text := by
  rw [mouseModeCarrySuffix]
  cases htail : lastEscape text with
  | none => exact ⟨.inl rfl, text, (List.append_nil _).symm⟩
  | some tail =>
    obtain ⟨hfront, hescape⟩ := lastEscape_eq_some htail
    dsimp only
    split
    · exact ⟨.inl rfl, text, (List.append_nil _).symm⟩
    · next hshort =>
        split
        · next hmode => exact ⟨.inr ⟨⟨hescape, hmode⟩, Nat.not_lt.mp hshort⟩, hfront⟩
        · exact ⟨.inl rfl, text, (List.append_nil _).symm⟩

theorem mouseModeCarrySuffix_append {head : List Char} (h : OpenSequence head)
    (front : List Char) :
    mouseModeCarrySuffix (front ++ head) = if 16 < head.length then [] else head := by
  rw [mouseModeCarrySuffix, lastEscape_append h front]
  dsimp only
  rw [h.tail, if_pos rfl]

theorem applyMouseModeSequences_spec (s : MouseModeState) (hs : IsCarry s.carry)
    (text : List Char) :
    ∃ shown, s.carry ++ text = shown ++ mouseModeCarrySuffix (s.carry ++ text) ∧
      (applyMouseModeSequences s text).carry = mouseModeCarrySuffix (s.carry ++ text) ∧
      ∀ flag, (applyMouseModeSequences s text).flag flag =
        settled flag (s.flag flag) (modeSequences 0 shown) := by
  obtain ⟨-, shown, hshown⟩ := isCarry_mouseModeCarrySuffix (s.carry ++ text)
  refine ⟨shown, hshown, ?_⟩
  by_cases htext : text = []
  · rw [applyMouseModeSequences, if_pos htext]
    have hcarry : mouseModeCarrySuffix (s.carry ++ text) = s.carry := by
      rw [htext, List.append_nil]
      rcases hs with hnil | ⟨hopen, hshort⟩
      · rw [hnil]
        rfl
      · have h := mouseModeCarrySuffix_append hopen []
        rwa [List.nil_append, if_neg (Nat.not_lt.mpr hshort)] at h
    rw [hcarry, htext, List.append_nil] at hshown
    have hshown := List.append_left_eq_self.mp hshown.symm
    refine ⟨hcarry.symm, fun flag => ?_⟩
    rw [hshown, modeSequences]
    rfl
  · rw [applyMouseModeSequences, if_neg htext]
    have htake : (s.carry ++ text).take
        ((s.carry ++ text).length - (mouseModeCarrySuffix (s.carry ++ text)).length) = shown := by
      generalize mouseModeCarrySuffix (s.carry ++ text) = carry at hshown
      rw [hshown, List.length_append, Nat.add_sub_cancel, List.take_left]
    dsimp only
    rw [htake, MouseModeState.carry_foldl_applySequence]
    refine ⟨rfl, fun flag => ?_⟩
    rw [MouseModeState.flag_foldl_applySequence]
    cases flag <;> rfl

theorem chunkCuts_add (offset carried : Nat) (chunks : List (List Char)) :
    chunkCuts (offset + carried) chunks = (chunkCuts carried chunks).map (offset + ·) := by
  induction chunks generalizing carried with
  | nil => rfl
  | cons chunk chunks ih => rw [chunkCuts, chunkCuts, List.map_cons, Nat.add_assoc, ih]

theorem le_of_mem_chunkCuts {carried cut : Nat} {chunks : List (List Char)}
    (h : cut ∈ chunkCuts carried chunks) : carried ≤ cut := by
  induction chunks generalizing carried with
  | nil => cases h
  | cons chunk chunks ih =>
    rcases List.mem_cons.mp h with rfl | h
    · exact Nat.le_add_right _ _
    · exact (Nat.le_add_right _ _).trans (ih h)

theorem filter_torn_of_le {cuts : List Nat} {start : Nat} {text : List Char}
    (h : ∀ cut ∈ cuts, start + text.length ≤ cut) :
    ((modeSequences start text).filter fun sequence => !sequence.torn cuts) =
      modeSequences start text := by
  rw [List.filter_eq_self]
  intro sequence hmem
  have hstop := (modeSequences_bounds hmem).2
  rw [Bool.not_eq_true', ModeSequence.torn, List.any_eq_false]
  intro cut hcut
  have hle := h cut hcut
  rw [Bool.and_eq_true, decide_eq_true_eq, decide_eq_true_eq]
  omega

/-- Behind a shorter front a cut that is not far behind it tears nothing, and the others
move with the sequences. -/
theorem filter_torn_shift {offset cut : Nat} (hcut : cut ≤ offset + 16) (cuts : List Nat)
    (sequences : List ModeSequence) :
    (sequences.map (ModeSequence.shift offset)).filter
        (fun sequence => !sequence.torn (cut :: cuts.map (offset + ·))) =
      (sequences.filter fun sequence => !sequence.torn cuts).map (ModeSequence.shift offset) := by
  rw [List.filter_map]
  congr 1
  apply List.filter_congr
  intro sequence _
  rw [Function.comp_apply, Bool.not_inj_iff, Bool.eq_iff_iff, ModeSequence.torn, ModeSequence.torn,
    ModeSequence.shift]
  simp only [List.any_cons, List.any_map, Bool.or_eq_true, List.any_eq_true, Bool.and_eq_true,
    decide_eq_true_eq, Function.comp_apply]
  constructor
  · rintro (hfirst | ⟨other, hmem, hother⟩)
    · omega
    · exact ⟨other, hmem, by omega⟩
  · rintro ⟨other, hmem, hother⟩
    exact .inr ⟨other, hmem, by omega⟩

/-- The sequences of a chunk, and then those of what is carried with the rest. -/
theorem settled_chunk (flag : MouseFlag) (initial : Bool) (shown carry rest : List Char)
    (chunks : List (List Char)) (hcarry : IsCarry carry)
    (hlong : carry = [] → ∀ before head, shown = before ++ head → OpenSequence head →
      16 < head.length) :
    settled flag initial
        (wholeSequences ((shown ++ carry).length :: chunkCuts (shown ++ carry).length chunks)
          (shown ++ (carry ++ rest))) =
      settled flag (settled flag initial (modeSequences 0 shown))
        (wholeSequences (chunkCuts carry.length chunks) (carry ++ rest)) := by
  have hshort : carry.length ≤ 16 := by
    rcases hcarry with rfl | h
    · exact Nat.zero_le _
    · exact h.2
  have hlater : ∀ cut ∈ (shown ++ carry).length :: chunkCuts (shown ++ carry).length chunks,
      shown.length ≤ cut := by
    intro cut hmem
    rw [List.length_append] at hmem
    rcases List.mem_cons.mp hmem with rfl | hmem
    · exact Nat.le_add_right _ _
    · exact (Nat.le_add_right _ _).trans (le_of_mem_chunkCuts hmem)
  have hshift := modeSequences_shift shown.length 0 (carry ++ rest)
  rw [Nat.add_zero] at hshift
  have hmoved : ((modeSequences shown.length (carry ++ rest)).filter fun sequence =>
        !sequence.torn ((shown ++ carry).length :: chunkCuts (shown ++ carry).length chunks)) =
      (wholeSequences (chunkCuts carry.length chunks) (carry ++ rest)).map
        (ModeSequence.shift shown.length) := by
    rw [hshift, List.length_append, chunkCuts_add, filter_torn_shift (by omega), wholeSequences]
  rcases modeSequences_append 0 shown (carry ++ rest) with
    hclean | ⟨before, head, stray, more, params, enable, hfront, hback, hopen, hstray, hne, hhead,
      hwhole⟩
  · rw [wholeSequences, hclean, List.filter_append, filter_torn_of_le, Nat.zero_add, hmoved,
      settled_append, settled_shift]
    intro cut hmem
    rw [Nat.zero_add]
    exact hlater cut hmem
  · have hnil : carry = [] := by
      rcases hcarry with hnil | ⟨h, -⟩
      · exact hnil
      · obtain ⟨tail, rfl, -⟩ := h.escape
        obtain ⟨c, stray, rfl⟩ := List.exists_cons_of_ne_nil hne
        rw [List.cons_append, List.cons_append, List.cons.injEq] at hback
        rw [← hback.1] at hstray
        exact absurd List.mem_cons_self hstray
    have hlength := hlong hnil before head hfront hopen
    have hshown := congrArg List.length hfront
    rw [List.length_append] at hshown
    have hbefore : ∀ cut ∈ (shown ++ carry).length :: chunkCuts (shown ++ carry).length chunks,
        0 + before.length ≤ cut := by
      intro cut hmem
      have hcut := hlater cut hmem
      omega
    have hrest : modeSequences (0 + shown.length + stray.length) more =
        modeSequences shown.length (carry ++ rest) := by
      rw [hback, modeSequences_append_of_not_mem hstray, Nat.zero_add]
    have htorn : ModeSequence.torn
        ((shown ++ carry).length :: chunkCuts (shown ++ carry).length chunks)
        ⟨0 + before.length, 0 + shown.length + stray.length, params, enable⟩ = true := by
      have hpos := List.length_pos_iff.mpr hne
      rw [ModeSequence.torn, List.any_cons, hnil, List.append_nil, Bool.or_eq_true,
        Bool.and_eq_true, decide_eq_true_eq, decide_eq_true_eq]
      left
      change 0 + before.length + 16 < _ ∧ _ < 0 + shown.length + stray.length
      omega
    rw [wholeSequences, hwhole, hhead, List.filter_append, filter_torn_of_le hbefore,
      List.filter_cons, htorn, if_neg (by decide), hrest, hmoved, settled_append, settled_shift]

/-- What the chunks leave a flag at is what the sequences that are not torn do. -/
theorem flag_foldl_applyMouseModeSequences (chunks : List (List Char)) (s : MouseModeState)
    (hs : IsCarry s.carry) (flag : MouseFlag) :
    (chunks.foldl applyMouseModeSequences s).flag flag =
      settled flag (s.flag flag)
        (wholeSequences (chunkCuts s.carry.length chunks) (s.carry ++ chunks.flatten)) := by
  induction chunks generalizing s with
  | nil =>
    have hnone : modeSequences 0 s.carry = [] := by
      rcases hs with hnil | ⟨hopen, -⟩
      · rw [hnil, modeSequences]
      · exact hopen.modeSequences_eq_nil 0
    rw [List.flatten_nil, List.append_nil, wholeSequences, hnone]
    rfl
  | cons chunk chunks ih =>
    obtain ⟨shown, hshown, hcarry, hflag⟩ := applyMouseModeSequences_spec s hs chunk
    have hnext := (isCarry_mouseModeCarrySuffix (s.carry ++ chunk)).1
    have hlong : mouseModeCarrySuffix (s.carry ++ chunk) = [] → ∀ before head,
        shown = before ++ head → OpenSequence head → 16 < head.length := by
      intro hnil before head hfront hopen
      rw [hnil, List.append_nil, hfront] at hshown
      rw [hshown, mouseModeCarrySuffix_append hopen] at hnil
      by_contra hle
      rw [if_neg hle] at hnil
      obtain ⟨more, hmore, -⟩ := hopen.escape
      rw [hmore] at hnil
      cases hnil
    rw [List.foldl_cons, ih _ (hcarry ▸ hnext), hflag, hcarry, List.flatten_cons, chunkCuts,
      ← List.append_assoc s.carry, ← List.length_append]
    generalize mouseModeCarrySuffix (s.carry ++ chunk) = carry at *
    rw [hshown, List.append_assoc, settled_chunk flag _ shown carry _ chunks hnext hlong]

def MouseModeState.fresh (tracking sgrMouse : Bool) : MouseModeState := ⟨[], tracking, sgrMouse⟩

/-- Where the last sequence about the flag is torn, it says what the last one that is not
torn says, or what the flag was without one. -/
def TornAgree (flag : MouseFlag) (initial : Bool) (cuts : List Nat) (text : List Char) : Prop :=
  ∀ last, ((modeSequences 0 text).filter fun sequence => flag ∈ sequence.flags).getLast? =
    some last → last.torn cuts = true →
      settled flag initial (wholeSequences cuts text) = last.enable

theorem settled_wholeSequences_iff (flag : MouseFlag) (initial : Bool) (cuts : List Nat)
    (text : List Char) :
    settled flag initial (wholeSequences cuts text) =
        settled flag initial (modeSequences 0 text) ↔
      TornAgree flag initial cuts text := by
  rw [TornAgree]
  cases hlast : ((modeSequences 0 text).filter fun sequence => flag ∈ sequence.flags).getLast? with
  | none =>
    have hnil := List.getLast?_eq_none_iff.mp hlast
    rw [settled, settled, wholeSequences, List.filter_filter]
    simp only [Bool.and_comm (decide (flag ∈ _)), ← List.filter_filter, hnil, List.filter_nil]
    simp
  | some last =>
    obtain ⟨front, hfront⟩ := List.getLast?_eq_some_iff.mp hlast
    have hwhole : settled flag initial (modeSequences 0 text) = last.enable := by
      rw [settled, hlast]
      rfl
    rw [hwhole]
    refine ⟨fun h other hother _ => ?_, fun h => ?_⟩
    · cases hother
      exact h
    · by_cases htorn : last.torn cuts = true
      · exact h last rfl htorn
      · have hkept : (!last.torn cuts) = true := by
          rw [Bool.eq_false_of_not_eq_true htorn, Bool.not_false]
        rw [settled, wholeSequences, List.filter_filter]
        simp only [Bool.and_comm (decide (flag ∈ _)), ← List.filter_filter]
        rw [hfront, List.filter_append, List.filter_singleton, hkept, cond_true,
          List.getLast?_concat]
        rfl

/-- Chunk by chunk both flags become what they become at once exactly if, for each of
them, the last sequence about it has at most sixteen characters in front of every cut
inside it, or agrees with the last one that does. -/
theorem applyMouseModeSequences_chunks_iff (chunks : List (List Char))
    (tracking sgrMouse : Bool) :
    (∀ flag, (chunks.foldl applyMouseModeSequences (.fresh tracking sgrMouse)).flag flag =
        (applyMouseModeSequences (.fresh tracking sgrMouse) chunks.flatten).flag flag) ↔
      ∀ flag, TornAgree flag ((MouseModeState.fresh tracking sgrMouse).flag flag)
        (chunkCuts 0 chunks) chunks.flatten := by
  have hchunks := flag_foldl_applyMouseModeSequences chunks (.fresh tracking sgrMouse) (.inl rfl)
  have hwhole := flag_foldl_applyMouseModeSequences [chunks.flatten] (.fresh tracking sgrMouse)
    (.inl rfl)
  refine forall_congr' fun flag => ?_
  have hnone : ∀ cut ∈ chunkCuts 0 [chunks.flatten], 0 + chunks.flatten.length ≤ cut := by
    intro cut hmem
    rw [List.mem_singleton.mp hmem]
  have hflag := hwhole flag
  rw [List.flatten_singleton] at hflag
  change _ = settled flag _ (wholeSequences (chunkCuts 0 [chunks.flatten]) chunks.flatten) at hflag
  rw [wholeSequences, filter_torn_of_le hnone] at hflag
  rw [← settled_wholeSequences_iff, hchunks]
  exact Eq.congr_right hflag

/-- Four modes in one sequence that is cut behind seventeen characters. -/
theorem applyMouseModeSequences_forgets :
    let chunks := ["\x1b[?1000;1002;1003".toList, ";1006h".toList]
    chunks.foldl applyMouseModeSequences (.fresh false false) = ⟨[], false, false⟩ ∧
      applyMouseModeSequences (.fresh false false) chunks.flatten = ⟨[], true, true⟩ := by
  decide +kernel

end HerdrWebui.Terminal
