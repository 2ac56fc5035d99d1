import HerdrWebui.Data.Text

/-!
The empty lines at the edges of a text: taken off the lines, and off the text they are
joined to.

Nothing here is about a particular program.
-/

namespace HerdrWebui

section Lines

variable {α : Type}

/-- The lines without the empty ones before the first and after the last that is not. -/
def trimEdges (lines : List (List α)) : List (List α) :=
  (lines.dropWhile (·.isEmpty)).rdropWhile (·.isEmpty)

theorem exists_replicate_dropWhile (lines : List (List α)) :
    ∃ n, lines = List.replicate n [] ++ lines.dropWhile (·.isEmpty) := by
  apply Exists.intro (lines.takeWhile (·.isEmpty)).length
  have hempty : lines.takeWhile (·.isEmpty) =
      List.replicate (lines.takeWhile (·.isEmpty)).length [] := by
    apply List.eq_replicate_iff.mpr ⟨rfl, fun line hline => ?_⟩
    exact List.isEmpty_iff.mp (List.mem_takeWhile_imp hline)
  rw [← hempty, List.takeWhile_append_dropWhile]

theorem exists_replicate_rdropWhile (lines : List (List α)) :
    ∃ n, lines = lines.rdropWhile (·.isEmpty) ++ List.replicate n [] := by
  obtain ⟨n, hn⟩ := exists_replicate_dropWhile lines.reverse
  apply Exists.intro n
  have hback := congrArg List.reverse hn
  rwa [List.reverse_reverse, List.reverse_append, List.reverse_replicate] at hback

theorem exists_edges (lines : List (List α)) :
    ∃ m n, lines = List.replicate m [] ++ (trimEdges lines ++ List.replicate n []) := by
  obtain ⟨m, hm⟩ := exists_replicate_dropWhile lines
  obtain ⟨n, hn⟩ := exists_replicate_rdropWhile (lines.dropWhile (·.isEmpty))
  exact ⟨m, n, hm.trans (congrArg _ hn)⟩

theorem trimEdges_getLast {lines : List (List α)} (h : trimEdges lines ≠ []) :
    (trimEdges lines).getLast h ≠ [] := by
  intro hempty
  have hlast := List.rdropWhile_last_not (fun line : List α => line.isEmpty) _ h
  exact hlast (List.isEmpty_iff.mpr hempty)

theorem trimEdges_head {lines : List (List α)} (h : trimEdges lines ≠ []) :
    (trimEdges lines).head h ≠ [] := by
  have hpre : trimEdges lines <+: lines.dropWhile (·.isEmpty) := List.rdropWhile_prefix _ _
  have hne : lines.dropWhile (·.isEmpty) ≠ [] := fun hnil =>
    h (List.prefix_nil.mp (hnil ▸ hpre))
  have hhead : (trimEdges lines).head h = (lines.dropWhile (·.isEmpty)).head hne := hpre.head h
  rw [hhead]
  intro hempty
  have hfirst := List.head_dropWhile_not (fun line : List α => line.isEmpty) hne
  rw [hempty] at hfirst
  cases hfirst

/-- Where the lines of one text are empty those of the other are too: if the trimmed
lines are the same, all are. -/
theorem trimEdges_inj {lines lines' : List (List α)} (hlength : lines.length = lines'.length)
    (h : ∀ i : Nat, lines[i]? = some [] → lines'[i]? = some []) :
    trimEdges lines = trimEdges lines' ↔ lines = lines' := by
  apply Iff.intro _ (congrArg trimEdges)
  intro heq
  obtain ⟨m, n, hm⟩ := exists_edges lines
  obtain ⟨m', n', hm'⟩ := exists_edges lines'
  rw [← heq] at hm'
  have hedges : m + n = m' + n' := by
    have hleft := congrArg List.length hm
    have hright := congrArg List.length hm'
    simp only [List.length_append, List.length_replicate] at hleft hright
    omega
  by_cases hne : trimEdges lines = []
  · rw [hm, hm', hne]
    simp [hedges]
  · have hfirst := trimEdges_head hne
    have hlast := trimEdges_getLast hne
    have hpos := List.length_pos_iff.mpr hne
    generalize trimEdges lines = middle at hm hm' hne hfirst hlast hpos
    -- The first line that is kept of one text is not taken off the other.
    have hle : m ≤ m' := by
      by_contra hlt
      have hempty : lines[m']? = some [] := by
        rw [hm, List.getElem?_append_left (by simp; omega), List.getElem?_replicate]
        simp
        omega
      have hkept := h m' hempty
      rw [hm', List.getElem?_append_right (by simp), List.length_replicate, Nat.sub_self,
        List.getElem?_append_left hpos, ← List.head?_eq_getElem?, List.head?_eq_some_head hne,
        Option.some_inj] at hkept
      exact hfirst hkept
    -- Nor is the last.
    have hge : m' ≤ m := by
      by_contra hlt
      have hempty : lines[m' + (middle.length - 1)]? = some [] := by
        rw [hm, List.getElem?_append_right (by simp; omega),
          List.getElem?_append_right (by simp; omega), List.getElem?_replicate]
        simp
        omega
      have hkept := h _ hempty
      rw [hm', List.getElem?_append_right (by simp), List.length_replicate,
        Nat.add_sub_cancel_left, List.getElem?_append_left (by omega),
        ← List.getLast?_eq_getElem?, List.getLast?_eq_some_getLast hne, Option.some_inj] at hkept
      exact hlast hkept
    have hsame : m = m' ∧ n = n' := by omega
    rw [hm, hm']
    rw [hsame.1, hsame.2]

end Lines

section Text

variable {texts : List (List Char)}

theorem intercalate_concat (h : texts ≠ []) (text : List Char) :
    ['\n'].intercalate (texts ++ [text]) = ['\n'].intercalate texts ++ '\n' :: text := by
  induction texts with
  | nil => exact absurd rfl h
  | cons first texts ih =>
    cases texts with
    | nil => simp
    | cons second texts =>
      rw [List.cons_append, List.cons_append, List.intercalate_cons_cons, ← List.cons_append,
        ih (List.cons_ne_nil _ _), List.intercalate_cons_cons]
      simp

/-- The line breaks at the start of a text are those of its empty lines there. -/
theorem dropWhile_intercalate (h : ∀ text ∈ texts, '\n' ∉ text) :
    (['\n'].intercalate texts).dropWhile (· = '\n') =
      ['\n'].intercalate (texts.dropWhile (·.isEmpty)) := by
  induction texts with
  | nil => rfl
  | cons text texts ih =>
    rw [List.forall_mem_cons] at h
    cases text with
    | nil =>
      rw [List.dropWhile_cons_of_pos rfl, ← ih h.2]
      cases texts with
      | nil => rfl
      | cons second texts =>
        rw [List.intercalate_cons_cons, List.nil_append, List.singleton_append,
          List.dropWhile_cons_of_pos (by decide)]
    | cons c text =>
      have hc : c ≠ '\n' := fun heq => h.1 (heq ▸ List.mem_cons_self)
      rw [List.dropWhile_cons_of_neg (by simp)]
      cases texts with
      | nil => simp [hc]
      | cons second texts =>
        rw [List.intercalate_cons_cons, List.cons_append, List.cons_append,
          List.dropWhile_cons_of_neg (by simpa using hc)]

theorem rdropWhile_intercalate (h : ∀ text ∈ texts, '\n' ∉ text) :
    (['\n'].intercalate texts).rdropWhile (· = '\n') =
      ['\n'].intercalate (texts.rdropWhile (·.isEmpty)) := by
  induction texts using List.reverseRecOn with
  | nil => rfl
  | append_singleton texts text ih =>
    rw [List.forall_mem_append, List.forall_mem_singleton] at h
    rcases List.eq_nil_or_concat text with rfl | ⟨front, c, rfl⟩
    · rw [List.rdropWhile_concat_pos _ _ _ rfl, ← ih h.1]
      by_cases hne : texts = []
      · rw [hne]
        rfl
      · rw [intercalate_concat hne, List.rdropWhile_concat_pos _ _ _ (by decide)]
    · have hc : c ≠ '\n' := fun heq => h.2 (by simp [heq])
      have hlast : ∃ before, ['\n'].intercalate (texts ++ [front ++ [c]]) = before ++ [c] := by
        by_cases hne : texts = []
        · exact ⟨front, by simp [hne]⟩
        · exact ⟨['\n'].intercalate texts ++ '\n' :: front, by
            rw [intercalate_concat hne]
            simp⟩
      obtain ⟨before, hbefore⟩ := hlast
      rw [List.concat_eq_append, List.rdropWhile_concat_neg _ _ _ (by simp), hbefore,
        List.rdropWhile_concat_neg _ _ _ (by simpa using hc)]

theorem lines_intercalate (h : ∀ text ∈ texts, '\n' ∉ text ∧ '\r' ∉ text)
    (hlast : ∀ text ∈ texts.getLast?, text ≠ []) :
    lines (String.ofList (['\n'].intercalate texts)) = texts.map String.ofList := by
  by_cases hne : texts = []
  · subst hne
    rfl
  · have hended : texts.dropLast.map (fun line =>
        if line.getLast? = some '\r' then line.dropLast else line) = texts.dropLast := by
      apply (List.map_congr_left fun line hline => if_neg fun hcr => ?_).trans (List.map_id _)
      exact (h line (List.mem_of_mem_dropLast hline)).2 (List.mem_of_mem_getLast? hcr)
    have hopen : texts.getLast?.toList.filter (· ≠ []) = [texts.getLast hne] := by
      rw [List.getLast?_eq_some_getLast hne, Option.toList_some, List.filter_cons_of_pos]
      · rfl
      · exact decide_eq_true (hlast _ (List.getLast?_eq_some_getLast hne))
    unfold lines
    rw [String.toList_ofList, List.splitOn_intercalate _ (fun text htext => (h text htext).1) hne]
    dsimp only
    rw [hended, hopen, List.dropLast_append_getLast]

theorem lines_trimmed (h : ∀ text ∈ texts, '\n' ∉ text ∧ '\r' ∉ text) :
    lines (String.ofList
        (((['\n'].intercalate texts).dropWhile (· = '\n')).rdropWhile (· = '\n'))) =
      (trimEdges texts).map String.ofList := by
  have hfront : ∀ text ∈ texts.dropWhile (·.isEmpty), '\n' ∉ text ∧ '\r' ∉ text :=
    fun text htext => h text ((List.dropWhile_sublist _).subset htext)
  rw [dropWhile_intercalate fun text htext => (h text htext).1,
    rdropWhile_intercalate fun text htext => (hfront text htext).1]
  apply lines_intercalate
  · exact fun text htext => hfront text ((List.rdropWhile_prefix _ _).subset htext)
  · intro text htext
    obtain ⟨hne, rfl⟩ := List.mem_getLast?_eq_getLast htext
    exact trimEdges_getLast hne

end Text

end HerdrWebui
