import HerdrWebui.Data.Text

/-!
The outline of a Markdown text: its headings, outside of fenced code. What the outline takes for a
fence and for a heading is compared, line by line, with what they are.
-/

namespace HerdrWebui.Files

/-- A line that is taken for the begin or the end of a fence. -/
def isFenceMark (line : String) : Bool :=
  let trimmed := line.toList.dropWhile isWhitespace
  "```".toList.isPrefixOf trimmed || "~~".toList.isPrefixOf trimmed

/-- The level and the text of a line that is taken for a heading. -/
def outlineHeading (line : String) : Option (Nat × String) :=
  match line.toList.dropWhile isWhitespace with
  | '#' :: after =>
    let level := (after.takeWhile (· = '#')).length + 1
    let text := trim (String.ofList (after.dropWhile (· = '#')))
    if 6 < level then none
    else if text = "" ∧ 1 < level then none
    else some (level, text)
  | _ => none

/-- The headings with their level, their line and their text. -/
def outlineGo (inFence : Bool) (index : Nat) : List String → List (Nat × Nat × String)
  | [] => []
  | line :: rest =>
    if isFenceMark line then outlineGo (!inFence) (index + 1) rest
    else if inFence then outlineGo inFence (index + 1) rest
    else
      match outlineHeading line with
      | none => outlineGo inFence (index + 1) rest
      | some (level, text) => (level, index + 1, text) :: outlineGo inFence (index + 1) rest

def parseMarkdownOutline (content : String) : List (Nat × Nat × String) :=
  outlineGo false 0 (lines content)

example : parseMarkdownOutline "# Title\n\ntext\n```rust\n# no\n```\n## Sub\n####### deep\n#" =
    [(1, 1, "Title"), (2, 7, "Sub"), (1, 9, "")] := by
  decide +kernel

structure Fence where
  mark : Char
  length : Nat
  deriving DecidableEq

/-- A block may be indented by up to three blanks. -/
def unindent (line : String) : Option (List Char) :=
  if (line.toList.takeWhile (· = ' ')).length ≤ 3 then some (line.toList.dropWhile (· = ' '))
  else none

/-- How many marks a line begins with, and the rest of it. -/
def markRun (mark : Char) (chars : List Char) : Nat × List Char :=
  ((chars.takeWhile (· = mark)).length, chars.dropWhile (· = mark))

/-- A fence is opened by three backticks or tildes; what is behind backticks has no further one. -/
def opensFence (line : String) : Option Fence :=
  (unindent line).bind fun chars =>
    let (ticks, info) := markRun '`' chars
    let (tildes, _) := markRun '~' chars
    if 3 ≤ ticks ∧ '`' ∉ info then some ⟨'`', ticks⟩
    else if 3 ≤ tildes then some ⟨'~', tildes⟩
    else none

/-- It is closed by as many of the same mark, with nothing behind them. -/
def closesFence (fence : Fence) (line : String) : Bool :=
  (unindent line).any fun chars =>
    let (marks, rest) := markRun fence.mark chars
    decide (fence.length ≤ marks) && rest.all fun c => c = ' ' || c = '\t'

def fenceAfter (fence : Option Fence) (line : String) : Option Fence :=
  match fence with
  | none => opensFence line
  | some fence => if closesFence fence line then none else some fence

/-- One to six marks, and then a blank or nothing. -/
def atxLevel (line : String) : Option Nat :=
  (unindent line).bind fun chars =>
    let (level, rest) := markRun '#' chars
    if 1 ≤ level ∧ level ≤ 6 ∧ rest.head?.all (fun c => c = ' ' || c = '\t') then some level
    else none

/-- The level of a line, if it is a heading outside of fences. -/
def atxOutside (fence : Option Fence) (line : String) : Option Nat :=
  if fence = none then atxLevel line else none

/-- The headings outside of fences, with their level and their line. -/
def atxHeadings (fence : Option Fence) (index : Nat) : List String → List (Nat × Nat)
  | [] => []
  | line :: rest =>
    match atxOutside fence line with
    | none => atxHeadings (fenceAfter fence line) (index + 1) rest
    | some level => (level, index + 1) :: atxHeadings (fenceAfter fence line) (index + 1) rest

section Scan

variable {σ τ : Type}

/-- The levels of all lines, where a state goes on from line to line. -/
def levels (level : σ → String → Option Nat) (next : σ → String → σ) (state : σ) :
    List String → List (Option Nat)
  | [] => []
  | line :: rest => level state line :: levels level next (next state line) rest

/-- The lines that have a level, with their number. -/
def numbered (index : Nat) : List (Option Nat) → List (Nat × Nat)
  | [] => []
  | none :: rest => numbered (index + 1) rest
  | some level :: rest => (level, index + 1) :: numbered (index + 1) rest

theorem lt_of_mem_numbered {index : Nat} {found : List (Option Nat)} {entry : Nat × Nat}
    (h : entry ∈ numbered index found) : index < entry.2 := by
  induction found generalizing index with
  | nil => cases h
  | cons level found ih =>
    cases level with
    | none => exact (Nat.lt_succ_self index).trans (ih h)
    | some level =>
      rcases List.mem_cons.mp h with rfl | hrest
      · exact Nat.lt_succ_self index
      · exact (Nat.lt_succ_self index).trans (ih hrest)

theorem numbered_inj {index : Nat} {found found' : List (Option Nat)}
    (hlength : found.length = found'.length) :
    numbered index found = numbered index found' ↔ found = found' := by
  refine ⟨fun h => ?_, fun h => congrArg _ h⟩
  induction found generalizing index found' with
  | nil => exact (List.length_eq_zero_iff.mp hlength.symm).symm
  | cons level found ih =>
    obtain ⟨level', rest', rfl⟩ := List.exists_cons_of_length_eq_add_one hlength.symm
    have hrest : found.length = rest'.length := Nat.succ.inj hlength
    have hfirst (n : Nat) (entries : List (Nat × Nat)) (later : List (Option Nat))
        (hsame : (n, index + 1) :: entries = numbered (index + 1) later) : False := by
      have hmem : (n, index + 1) ∈ numbered (index + 1) later := hsame ▸ List.mem_cons_self
      exact Nat.lt_irrefl _ (lt_of_mem_numbered hmem)
    cases level with
    | none =>
      cases level' with
      | none => rw [ih hrest h]
      | some n' => exact (hfirst n' _ found h.symm).elim
    | some n =>
      cases level' with
      | none => exact (hfirst n _ rest' h).elim
      | some n' =>
        obtain ⟨hhead, htail⟩ := List.cons_eq_cons.mp h
        rw [ih hrest htail, (Prod.mk.inj hhead).1]

variable {level : σ → String → Option Nat} {next : σ → String → σ}
  {level' : τ → String → Option Nat} {next' : τ → String → τ}

theorem length_levels (state : σ) (ls : List String) :
    (levels level next state ls).length = ls.length := by
  induction ls generalizing state with
  | nil => rfl
  | cons line rest ih => exact congrArg _ (ih _)

theorem levels_eq_iff (state : σ) (state' : τ) (ls : List String) :
    levels level next state ls = levels level' next' state' ls ↔
      ∀ front line back, ls = front ++ line :: back →
        level (front.foldl next state) line = level' (front.foldl next' state') line := by
  induction ls generalizing state state' with
  | nil => simp [levels]
  | cons line rest ih =>
    rw [levels, levels, List.cons_eq_cons, ih]
    constructor
    · rintro ⟨hfirst, hrest⟩ front other back hls
      cases front with
      | nil =>
        obtain ⟨rfl, -⟩ := List.cons_eq_cons.mp hls
        exact hfirst
      | cons first front =>
        obtain ⟨rfl, htail⟩ := List.cons_eq_cons.mp hls
        exact hrest front other back htail
    · intro h
      refine ⟨h [] line rest rfl, fun front other back hrest => ?_⟩
      exact h (line :: front) other back (by rw [hrest]; rfl)

end Scan

/-- The level of a line in the outline; `inFence` is what the marks before it left. -/
def outlineLevel (inFence : Bool) (line : String) : Option Nat :=
  if isFenceMark line || inFence then none else (outlineHeading line).map (·.1)

theorem outlineGo_levels (inFence : Bool) (index : Nat) (ls : List String) :
    (outlineGo inFence index ls).map (fun heading => (heading.1, heading.2.1)) =
      numbered index (levels outlineLevel (fun inFence line => inFence ^^ isFenceMark line)
        inFence ls) := by
  induction ls generalizing inFence index with
  | nil => rfl
  | cons line rest ih =>
    rw [outlineGo, levels, outlineLevel]
    by_cases hmark : isFenceMark line = true
    · simp [hmark, numbered, ih]
    · cases inFence with
      | true => simp [hmark, numbered, ih]
      | false =>
        cases hheading : outlineHeading line with
        | none => simp [hmark, numbered, ih]
        | some heading => simp [hmark, numbered, ih]

theorem atxHeadings_levels (fence : Option Fence) (index : Nat) (ls : List String) :
    atxHeadings fence index ls = numbered index (levels atxOutside fenceAfter fence ls) := by
  induction ls generalizing fence index with
  | nil => rfl
  | cons line rest ih =>
    rw [atxHeadings, levels]
    cases atxOutside fence line with
    | none => exact ih ..
    | some level => exact congrArg _ (ih ..)

theorem foldl_fenceMarks (inFence : Bool) (front : List String) :
    front.foldl (fun inFence line => inFence ^^ isFenceMark line) inFence =
      (inFence ^^ decide (front.countP isFenceMark % 2 = 1)) := by
  induction front generalizing inFence with
  | nil => simp
  | cons line front ih =>
    rw [List.foldl_cons, ih, List.countP_cons]
    cases isFenceMark line with
    | false => simp
    | true =>
      rcases Nat.mod_two_eq_zero_or_one (front.countP isFenceMark) with heven | hodd
      · simp [Nat.add_mod, heven]
      · simp [Nat.add_mod, hodd]

end HerdrWebui.Files
