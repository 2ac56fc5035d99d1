import HerdrWebui.Concurrency.System
import HerdrWebui.Data.Text
import Mathlib.Data.List.Rotate

/-!
The search in the diff of the Git screen: a query that is typed, the lines that have it, and the one
of them that is marked. The diff of another view takes the place of the lines and leaves the search
as it is.
-/

namespace HerdrWebui.Tui

open Concurrency

structure DiffSearch where
  diffLines : List String
  active : Bool := false
  query : String := ""
  found : List Nat := []
  selected : Nat := 0

namespace DiffSearch

variable (toLowercase : String → String) (s : DiffSearch)

def finds (line : String) : Bool :=
  (toLowercase (trim s.query)).toList <:+: (toLowercase line).toList

def foundLines : List Nat :=
  (List.range s.diffLines.length).filter fun i => s.diffLines[i]?.any (s.finds toLowercase)

def refreshDiffSearchMatches : DiffSearch :=
  if toLowercase (trim s.query) = "" then { s with found := [], selected := 0 }
  else { s with found := s.foundLines toLowercase, selected := 0 }

def startDiffSearch : DiffSearch := { s with active := true }

def endDiffSearch : DiffSearch := { s with active := false }

def cancelDiffSearch : DiffSearch :=
  { s.endDiffSearch with query := "", found := [], selected := 0 }

def pushDiffSearchChar (ch : Char) : DiffSearch :=
  if s.active then refreshDiffSearchMatches toLowercase { s with query := s.query.push ch } else s

def popDiffSearchChar : DiffSearch :=
  if s.active then
    refreshDiffSearchMatches toLowercase
      { s with query := String.ofList s.query.toList.dropLast }
  else s

def diffSearchAdvance (delta : Int) : DiffSearch :=
  if s.found = [] then s
  else { s with selected := ((s.selected + delta) % s.found.length).toNat }

def diffSearchNext : DiffSearch := s.diffSearchAdvance 1

def diffSearchPrev : DiffSearch := s.diffSearchAdvance (-1)

def diffSearchActiveLine : Option Nat := s.found[s.selected]?

/-- `refresh_diff`, as far as it is about the search. -/
def refreshDiff (lines : List String) : DiffSearch :=
  let loaded := { s with diffLines := lines, found := [], selected := 0 }
  if trim s.query = "" then loaded else loaded.refreshDiffSearchMatches toLowercase

end DiffSearch

inductive DiffSearchAction where
  | start
  | finish
  | cancel
  | push (ch : Char)
  | pop
  | next
  | prev
  | refreshDiff (lines : List String)
  | loadDiff (lines : List String)

def diffSearchSystem (toLowercase : String → String) : System DiffSearch DiffSearchAction where
  init s := ∃ lines, s = { diffLines := lines }
  step s
    | .start => some s.startDiffSearch
    | .finish => some s.endDiffSearch
    | .cancel => some s.cancelDiffSearch
    | .push ch => some (s.pushDiffSearchChar toLowercase ch)
    | .pop => some (s.popDiffSearchChar toLowercase)
    | .next => some s.diffSearchNext
    | .prev => some s.diffSearchPrev
    | .refreshDiff lines => some (s.refreshDiff toLowercase lines)
    | .loadDiff lines => some { s with diffLines := lines }

/-- The lines of another view, or none, come while no lines are held. -/
def LoadsUnsearched (s : DiffSearch) : DiffSearchAction → Prop
  | .loadDiff _ => s.found = []
  | _ => True

instance (s : DiffSearch) : DecidablePred (LoadsUnsearched s)
  | .loadDiff _ => inferInstanceAs (Decidable (s.found = []))
  | .start | .finish | .cancel | .push _ | .pop | .next | .prev | .refreshDiff _ => .isTrue trivial

namespace DiffSearch

variable {toLowercase : String → String} {s s' : DiffSearch}

/-- What is held are the lines that have the query, and one of them is marked. -/
structure Current (toLowercase : String → String) (s : DiffSearch) : Prop where
  found : s.found = [] ∨ s.found = s.foundLines toLowercase
  selected : s.found ≠ [] → s.selected < s.found.length

theorem current_of_nil (h : s.found = []) : s.Current toLowercase := ⟨.inl h, absurd h⟩

theorem current_refresh (s : DiffSearch) :
    (s.refreshDiffSearchMatches toLowercase).Current toLowercase := by
  rw [refreshDiffSearchMatches]
  split
  · exact current_of_nil rfl
  · exact ⟨.inr rfl, fun hne => List.length_pos_of_ne_nil hne⟩

theorem Current.advance (h : s.Current toLowercase) (delta : Int) :
    (s.diffSearchAdvance delta).Current toLowercase := by
  rw [diffSearchAdvance]
  split
  · exact h
  · next hne =>
    refine ⟨h.found, fun _ => ?_⟩
    have hpos : (0 : Int) < s.found.length := by exact_mod_cast List.length_pos_of_ne_nil hne
    have hlt := Int.emod_lt_of_pos (s.selected + delta) hpos
    have hnonneg := Int.emod_nonneg (s.selected + delta) hpos.ne'
    dsimp only
    omega

theorem Current.step {action : DiffSearchAction} (h : s.Current toLowercase)
    (hok : LoadsUnsearched s action)
    (hstep : (diffSearchSystem toLowercase).step s action = some s') : s'.Current toLowercase := by
  cases action <;> obtain rfl := Option.some.inj hstep
  case start | finish => exact ⟨h.found, h.selected⟩
  case cancel => exact current_of_nil rfl
  case push ch =>
    rw [pushDiffSearchChar]
    split
    · apply current_refresh
    · exact h
  case pop =>
    rw [popDiffSearchChar]
    split
    · apply current_refresh
    · exact h
  case next => exact h.advance 1
  case prev => exact h.advance (-1)
  case refreshDiff lines =>
    simp only [refreshDiff]
    split
    · exact current_of_nil rfl
    · apply current_refresh
  case loadDiff lines => exact current_of_nil hok

theorem advance_zero (hlt : s.selected < s.found.length) : s.diffSearchAdvance 0 = s := by
  rw [diffSearchAdvance, if_neg (List.ne_nil_of_length_pos (by omega)), Int.add_zero,
    Int.emod_eq_of_lt (by omega) (by omega), Int.toNat_natCast]

theorem advance_advance (s : DiffSearch) (a b : Int) :
    (s.diffSearchAdvance a).diffSearchAdvance b = s.diffSearchAdvance (a + b) := by
  by_cases hnil : s.found = []
  · simp [diffSearchAdvance, hnil]
  · have hpos := List.length_pos_of_ne_nil hnil
    have hnonneg := Int.emod_nonneg (s.selected + a) (b := s.found.length) (by omega)
    simp [diffSearchAdvance, hnil, Int.toNat_of_nonneg hnonneg, Int.emod_add_emod, Int.add_assoc]

theorem iterate_next (hlt : s.selected < s.found.length) (n : Nat) :
    diffSearchNext^[n] s = s.diffSearchAdvance n := by
  induction n with
  | zero => exact (advance_zero hlt).symm
  | succ n ih =>
    rw [Function.iterate_succ_apply', ih, diffSearchNext, advance_advance]
    rfl

theorem activeLine_advance (hne : s.found ≠ []) (n : Nat) :
    (s.diffSearchAdvance n).diffSearchActiveLine = s.found[(n + s.selected) % s.found.length]? := by
  rw [diffSearchActiveLine, diffSearchAdvance, if_neg hne, Nat.add_comm]
  norm_cast

end DiffSearch

/-- In every run that loads no diff of a commit under a search, the line that is marked has the
query. As many steps to the next one as there are lines found mark each of them, and come back. -/
theorem diffSearch_marks {toLowercase : String → String} {s : DiffSearch}
    (h : (diffSearchSystem toLowercase).ReachVia LoadsUnsearched s) :
    (∀ i ∈ s.diffSearchActiveLine, ∃ line, s.diffLines[i]? = some line ∧
      s.finds toLowercase line = true) ∧
    (s.found ≠ [] →
      ((List.range s.found.length).map fun n =>
        (DiffSearch.diffSearchNext^[n] s).diffSearchActiveLine).Perm
          ((s.foundLines toLowercase).map some) ∧
      DiffSearch.diffSearchNext^[s.found.length] s = s ∧ s.diffSearchNext.diffSearchPrev = s) := by
  have hcurrent : s.Current toLowercase := by
    refine h.invariant (fun _ hinit => ?_) fun _ _ _ _ hcurrent hok hstep => hcurrent.step hok hstep
    obtain ⟨lines, rfl⟩ := hinit
    exact DiffSearch.current_of_nil rfl
  constructor
  · intro i hi
    have hmem := List.mem_of_getElem? hi
    rcases hcurrent.found with hnil | hfound
    · rw [hnil] at hmem
      cases hmem
    · rw [hfound] at hmem
      obtain ⟨line, hline, hfinds⟩ := (Option.any_eq_true _ _).mp (List.mem_filter.mp hmem).2
      exact ⟨line, hline, hfinds⟩
  · intro hne
    have hlt := hcurrent.selected hne
    refine ⟨?_, ?_, ?_⟩
    · rw [← hcurrent.found.resolve_left hne]
      refine .trans (.of_eq ?_) ((List.rotate_perm s.found s.selected).map some)
      refine List.ext_getElem (by simp) fun n hn _ => ?_
      rw [List.length_map, List.length_range] at hn
      rw [List.getElem_map, List.getElem_map, List.getElem_range, DiffSearch.iterate_next hlt,
        DiffSearch.activeLine_advance hne, ← List.getElem?_rotate hn, List.getElem?_eq_getElem]
    · rw [DiffSearch.iterate_next hlt]
      refine .trans ?_ (DiffSearch.advance_zero hlt)
      simp [DiffSearch.diffSearchAdvance, hne]
    · rw [DiffSearch.diffSearchPrev, DiffSearch.diffSearchNext, DiffSearch.advance_advance]
      exact DiffSearch.advance_zero hlt

/-- A query of one letter in three lines, of which two have it. -/
def typedSearch : List DiffSearchAction :=
  [.refreshDiff ["+b", " a", "-b"], .start, .push 'b', .finish, .next]

theorem typedSearch_runs : ((diffSearchSystem id).runVia LoadsUnsearched { diffLines := [] }
    typedSearch).isSome = true := by
  decide +kernel

theorem diffSearch_marks_typed :
    DiffSearch.diffSearchNext^[2] (((diffSearchSystem id).runVia LoadsUnsearched
      { diffLines := [] } typedSearch).get typedSearch_runs) =
    ((diffSearchSystem id).runVia LoadsUnsearched { diffLines := [] } typedSearch).get
      typedSearch_runs := by
  have hmarks := diffSearch_marks (System.reachVia_get (M := diffSearchSystem id) ⟨[], rfl⟩
    typedSearch_runs)
  exact (hmarks.2 (by decide +kernel)).2.1

end HerdrWebui.Tui
