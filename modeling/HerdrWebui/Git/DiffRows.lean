import HerdrWebui.Git.UnifiedDiff
import Mathlib.Tactic

/-!
The rows of a chunk in two columns. A run of deleted lines stands next to the run of added
lines behind it.
-/

namespace HerdrWebui.Git

/-- Deleted lines next to added ones, as long as there are any of either. -/
def pairedRows (deletes adds : List GitDiffLine) : List GitDiffRow :=
  (List.range (max deletes.length adds.length)).map fun pairIndex =>
    ⟨deletes[pairIndex]?, adds[pairIndex]?⟩

def isDelete (line : GitDiffLine) : Bool := line.lineType = .delete

def isAdd (line : GitDiffLine) : Bool := line.lineType = .add

def sideBySideRows : List GitDiffLine → List GitDiffRow
  | [] => []
  | line :: lines =>
    match line.lineType with
    | .delete =>
      let deletes := line :: lines.takeWhile isDelete
      let more := lines.dropWhile isDelete
      pairedRows deletes (more.takeWhile isAdd) ++ sideBySideRows (more.dropWhile isAdd)
    | .add => ⟨none, some line⟩ :: sideBySideRows lines
    | .normal => ⟨some line, some line⟩ :: sideBySideRows lines
termination_by lines => lines.length
decreasing_by
  · have hadds := (List.dropWhile_sublist isAdd (l := lines.dropWhile isDelete)).length_le
    have hdeletes := (List.dropWhile_sublist isDelete (l := lines)).length_le
    rw [List.length_cons]
    omega
  all_goals simp

theorem filterMap_getElem?_range {α : Type} (xs : List α) {n : Nat} (h : xs.length ≤ n) :
    (List.range n).filterMap (xs[·]?) = xs := by
  induction xs generalizing n with
  | nil => simp
  | cons x xs ih =>
    obtain ⟨m, rfl⟩ : ∃ m, n = m + 1 := ⟨n - 1, by rw [List.length_cons] at h; omega⟩
    rw [List.length_cons] at h
    rw [List.range_succ_eq_map, List.filterMap_cons, List.filterMap_map]
    simp only [List.getElem?_cons_zero]
    congr 1
    exact ih (by omega)

theorem pairedRows_old (deletes adds : List GitDiffLine) :
    (pairedRows deletes adds).filterMap (·.oldLine) = deletes := by
  rw [pairedRows, List.filterMap_map]
  exact filterMap_getElem?_range deletes (Nat.le_max_left _ _)

theorem pairedRows_new (deletes adds : List GitDiffLine) :
    (pairedRows deletes adds).filterMap (·.newLine) = adds := by
  rw [pairedRows, List.filterMap_map]
  exact filterMap_getElem?_range adds (Nat.le_max_right _ _)

theorem pairedRows_some {deletes adds : List GitDiffLine} {row : GitDiffRow}
    (h : row ∈ pairedRows deletes adds) : row.oldLine.isSome ∨ row.newLine.isSome := by
  obtain ⟨pairIndex, hindex, rfl⟩ := List.mem_map.mp h
  rw [List.mem_range, lt_max_iff] at hindex
  simpa using hindex

theorem pairedRows_sides {deletes adds : List GitDiffLine} {row : GitDiffRow}
    (h : row ∈ pairedRows deletes adds) {line : GitDiffLine}
    (hline : row.oldLine = some line ∨ row.newLine = some line) :
    line ∈ deletes ∨ line ∈ adds := by
  obtain ⟨pairIndex, -, rfl⟩ := List.mem_map.mp h
  exact hline.imp List.mem_of_getElem? List.mem_of_getElem?

/-- A row keeps what stands in it: it has a side, and a context line has both. -/
structure RowKept (row : GitDiffRow) : Prop where
  some_side : row.oldLine.isSome ∨ row.newLine.isSome
  context : ∀ line : GitDiffLine, line.lineType = .normal →
    (row.oldLine = some line ∨ row.newLine = some line) →
      row.oldLine = some line ∧ row.newLine = some line

theorem rowKept_paired {deletes adds : List GitDiffLine}
    (hdeletes : ∀ line ∈ deletes, line.lineType = .delete)
    (hadds : ∀ line ∈ adds, line.lineType = .add) :
    ∀ row ∈ pairedRows deletes adds, RowKept row := by
  intro row hrow
  refine ⟨pairedRows_some hrow, fun line hnormal hline => ?_⟩
  rcases pairedRows_sides hrow hline with hmem | hmem
  · rw [hdeletes line hmem] at hnormal
    cases hnormal
  · rw [hadds line hmem] at hnormal
    cases hnormal

/-- What is neither deleted nor added stands in both columns. -/
structure RowsKeep (lines : List GitDiffLine) (rows : List GitDiffRow) : Prop where
  old : rows.filterMap (·.oldLine) = lines.filter (·.lineType ≠ .add)
  new : rows.filterMap (·.newLine) = lines.filter (·.lineType ≠ .delete)
  rows_kept : ∀ row ∈ rows, RowKept row

theorem RowsKeep.append {lines lines' : List GitDiffLine} {rows rows' : List GitDiffRow}
    (h : RowsKeep lines rows) (h' : RowsKeep lines' rows') :
    RowsKeep (lines ++ lines') (rows ++ rows') := by
  refine ⟨?_, ?_, ?_⟩
  · rw [List.filterMap_append, List.filter_append, h.old, h'.old]
  · rw [List.filterMap_append, List.filter_append, h.new, h'.new]
  · exact List.forall_mem_append.mpr ⟨h.rows_kept, h'.rows_kept⟩

theorem rowsKeep_paired {deletes adds : List GitDiffLine}
    (hdeletes : ∀ line ∈ deletes, line.lineType = .delete)
    (hadds : ∀ line ∈ adds, line.lineType = .add) :
    RowsKeep (deletes ++ adds) (pairedRows deletes adds) := by
  refine ⟨?_, ?_, rowKept_paired hdeletes hadds⟩
  · have hnone : adds.filter (·.lineType ≠ .add) = [] :=
      List.filter_eq_nil_iff.mpr fun line hline => by simp [hadds line hline]
    have hall : deletes.filter (·.lineType ≠ .add) = deletes :=
      List.filter_eq_self.mpr fun line hline => by simp [hdeletes line hline]
    rw [List.filter_append, hnone, hall, List.append_nil, pairedRows_old]
  · have hnone : deletes.filter (·.lineType ≠ .delete) = [] :=
      List.filter_eq_nil_iff.mpr fun line hline => by simp [hdeletes line hline]
    have hall : adds.filter (·.lineType ≠ .delete) = adds :=
      List.filter_eq_self.mpr fun line hline => by simp [hadds line hline]
    rw [List.filter_append, hnone, hall, List.nil_append, pairedRows_new]

theorem rowsKeep_add {line : GitDiffLine} (h : line.lineType = .add) :
    RowsKeep [line] [⟨none, some line⟩] := by
  refine ⟨by simp [h], by simp [h], ?_⟩
  intro row hrow
  obtain rfl := List.mem_singleton.mp hrow
  refine ⟨.inr rfl, fun other hnormal hother => ?_⟩
  rcases hother with hold | hnew
  · cases hold
  · obtain rfl := Option.some.inj hnew
    rw [h] at hnormal
    cases hnormal

theorem rowsKeep_normal {line : GitDiffLine} (h : line.lineType = .normal) :
    RowsKeep [line] [⟨some line, some line⟩] := by
  refine ⟨by simp [h], by simp [h], ?_⟩
  intro row hrow
  obtain rfl := List.mem_singleton.mp hrow
  exact ⟨.inl rfl, fun other _ hother => ⟨hother.elim id id, hother.elim id id⟩⟩

/-- The old column has the lines that are not added and the new column those that are not
deleted, in order. Every row has a side, and a context line both sides of one. -/
theorem sideBySideRows_keep (lines : List GitDiffLine) :
    RowsKeep lines (sideBySideRows lines) := by
  fun_induction sideBySideRows lines with
  | case1 => exact ⟨rfl, rfl, fun row hrow => absurd hrow List.not_mem_nil⟩
  | case2 line lines hdelete deletes more ih =>
    have hdeletes : ∀ line ∈ deletes, line.lineType = .delete := by
      rw [List.forall_mem_cons]
      refine ⟨hdelete, fun other hother => ?_⟩
      have hkind : isDelete other = true := List.mem_takeWhile_imp hother
      exact of_decide_eq_true hkind
    have hadds : ∀ line ∈ more.takeWhile isAdd, line.lineType = .add := by
      intro other hother
      have hkind : isAdd other = true := List.mem_takeWhile_imp hother
      exact of_decide_eq_true hkind
    have hlines : line :: lines = deletes ++ more.takeWhile isAdd ++ more.dropWhile isAdd := by
      rw [List.append_assoc, List.takeWhile_append_dropWhile, List.cons_append,
        List.takeWhile_append_dropWhile]
    rw [hlines]
    exact (rowsKeep_paired hdeletes hadds).append ih
  | case3 line lines hadd ih => exact (rowsKeep_add hadd).append ih
  | case4 line lines hnormal ih => exact (rowsKeep_normal hnormal).append ih

end HerdrWebui.Git
