import HerdrWebui.Data.Text

/-!
Paths as texts: how they are joined, and the place one names when none of its directories
is a link.

Nothing here is about a particular program.
-/

namespace HerdrWebui

def isAbsolute (path : String) : Bool := hasPrefix "/" path

/-- `Path::join`. -/
def joinPath (dir part : String) : String :=
  if isAbsolute part then part
  else if dir.isEmpty ∨ hasSuffix "/" dir then dir ++ part
  else dir ++ "/" ++ part

/-- One name on the way from a place. A place is the names that lead to it, the last
first. -/
def enter (absolute : Bool) (place : List String) (name : String) : List String :=
  if name = "" ∨ name = "." then place
  else if name = ".." then
    match place with
    | [] => if absolute then [] else [".."]
    | top :: below => if top = ".." then ".." :: place else below
  else name :: place

/-- Where a path leads, from the root or not. -/
def leadsTo (path : String) : Bool × List String :=
  (isAbsolute path,
    ((path.toList.splitOn '/').map String.ofList).foldl (enter (isAbsolute path)) [])

theorem enter_proper {name : String} (h : name ≠ "" ∧ name ≠ "." ∧ name ≠ "..")
    (absolute : Bool) (place : List String) : enter absolute place name = name :: place := by
  have hstay : ¬(name = "" ∨ name = ".") := by tauto
  unfold enter
  rw [if_neg hstay, if_neg h.2.2]

theorem isAbsolute_append {dir : String} (h : dir ≠ "") (rest : String) :
    isAbsolute (dir ++ rest) = isAbsolute dir := by
  rw [isAbsolute, isAbsolute, hasPrefix, hasPrefix, String.toList_append]
  cases hchars : dir.toList with
  | nil => exact absurd (String.toList_eq_nil_iff.mp hchars) h
  | cons c chars => rfl

theorem not_isAbsolute {part : String} (h : '/' ∉ part.toList) : isAbsolute part = false := by
  rw [isAbsolute, hasPrefix]
  cases hchars : part.toList with
  | nil => rfl
  | cons c chars =>
    rw [hchars, List.mem_cons, not_or] at h
    simp [List.isPrefixOf, h.1]

theorem exists_joinPath_eq (dir : String) :
    ∃ pre, ∀ part : String, '/' ∉ part.toList → joinPath dir part = pre ++ part := by
  by_cases h : dir.isEmpty ∨ hasSuffix "/" dir
  · apply Exists.intro dir
    intro part hpart
    rw [joinPath, not_isAbsolute hpart, if_neg Bool.false_ne_true, if_pos h]
  · apply Exists.intro (dir ++ "/")
    intro part hpart
    rw [joinPath, not_isAbsolute hpart, if_neg Bool.false_ne_true, if_neg h]

theorem foldl_enter_slash (absolute : Bool) (chars : List Char) {part : String}
    (h : '/' ∉ part.toList) :
    (((chars ++ '/' :: part.toList).splitOn '/').map String.ofList).foldl (enter absolute) [] =
      enter absolute (((chars.splitOn '/').map String.ofList).foldl (enter absolute) []) part := by
  rw [List.splitOn_append_cons_self, List.splitOn_eq_singleton h, List.map_append,
    List.foldl_append]
  simp

theorem leadsTo_joinPath (dir : String) {part : String} (hpart : '/' ∉ part.toList) :
    leadsTo (joinPath dir part) =
      ((leadsTo dir).1, enter (leadsTo dir).1 (leadsTo dir).2 part) := by
  have hslash : hasSuffix "/" dir = true → ∃ chars, dir.toList = chars ++ '/' :: "".toList := by
    intro hends
    obtain ⟨chars, hchars⟩ := List.isSuffixOf_iff_suffix.mp hends
    exact ⟨chars, hchars.symm⟩
  rw [joinPath, not_isAbsolute hpart, if_neg Bool.false_ne_true]
  by_cases hempty : dir = ""
  · subst hempty
    have hname : ((part.toList.splitOn '/').map String.ofList) = [part] := by
      rw [List.splitOn_eq_singleton hpart, List.map_singleton, String.ofList_toList]
    rw [if_pos (.inl rfl), String.empty_append, leadsTo, not_isAbsolute hpart, hname]
    rfl
  · by_cases hends : hasSuffix "/" dir = true
    · obtain ⟨chars, hchars⟩ := hslash hends
      have hstay (place : List String) (absolute : Bool) : enter absolute place "" = place := by
        unfold enter
        rw [if_pos (.inl rfl)]
      rw [if_pos (.inr hends), leadsTo, leadsTo, isAbsolute_append hempty, String.toList_append,
        hchars, foldl_enter_slash _ _ List.not_mem_nil, hstay]
      rw [String.toList_empty, List.append_assoc, List.cons_append, List.nil_append,
        foldl_enter_slash _ _ hpart]
    · have hplain : ¬(dir.isEmpty = true ∨ hasSuffix "/" dir = true) := by
        rw [String.isEmpty_iff]
        tauto
      rw [if_neg hplain, leadsTo, leadsTo, String.append_assoc, isAbsolute_append hempty,
        String.toList_append, String.toList_append]
      exact congrArg _ (foldl_enter_slash _ _ hpart)

end HerdrWebui
