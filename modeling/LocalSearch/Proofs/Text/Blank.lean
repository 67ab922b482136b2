import Mathlib.Data.List.DropRight
import LocalSearch.Text.Blank
/-!
# Trimming and cutting

* `splitAt_eq_splitOn`: cutting a list at a character is `List.splitOn`.
* `trimList_append_left`, `trimList_append_right`, `trimList_append_cons`: blank characters at the
  ends do not count, and a character that is not blank stays with what stands around it.
* `filterMap_linesOf`: what lines say, if neither line ends nor empty lines say anything.
-/

namespace LocalSearch.Text

theorem splitAt_eq_splitOn (separator : Char) (cs : List Char) :
    splitAt separator cs = cs.splitOn separator := by
  induction cs with
  | nil => rfl
  | cons c rest ih =>
    rw [splitAt, ih, List.splitOn_cons_eq_if_modifyHead]
    by_cases h : c = separator
    · simp [h]
    · have hne : (c == separator) = false := by simpa using h
      rw [if_neg h, hne]
      obtain ⟨part, parts, hparts⟩ :=
        List.exists_cons_of_ne_nil (List.splitOn_ne_nil separator rest)
      rw [hparts]
      rfl

/-! ## Trimming -/

/-- Only blank characters. -/
def Blank (cs : List Char) : Prop :=
  ∀ c ∈ cs, isBlank c = true

variable {cs before after : List Char} {c : Char}

theorem trimList_eq (cs : List Char) :
    trimList cs = (cs.dropWhile isBlank).rdropWhile isBlank := rfl

theorem trimList_eq_nil (h : Blank cs) : trimList cs = [] := by
  rw [trimList_eq, List.dropWhile_eq_nil_iff.2 h]
  rfl

theorem trimList_append_left (h : Blank before) : trimList (before ++ cs) = trimList cs := by
  rw [trimList_eq, List.dropWhile_append_of_pos h, trimList_eq]

/-- Blank characters at the end go, whatever stands before them. -/
theorem rdropWhile_append_of_blank (h : Blank after) :
    (cs ++ after).rdropWhile isBlank = cs.rdropWhile isBlank := by
  unfold List.rdropWhile
  rw [List.reverse_append,
    List.dropWhile_append_of_pos fun c hc => h c (List.mem_reverse.1 hc)]

theorem trimList_append_right (h : Blank after) : trimList (cs ++ after) = trimList cs := by
  rw [trimList_eq, List.dropWhile_append, trimList_eq]
  split
  · rename_i hnil
    rw [List.dropWhile_eq_nil_iff.2 h, List.isEmpty_iff.1 hnil]
  · exact rdropWhile_append_of_blank h

theorem trimList_dropWhile (cs : List Char) : trimList (cs.dropWhile isBlank) = trimList cs := by
  rw [trimList_eq, List.dropWhile_idempotent, trimList_eq]

theorem trimList_rdropWhile (cs : List Char) : trimList (cs.rdropWhile isBlank) = trimList cs := by
  conv_rhs => rw [← List.rdropWhile_append_rtakeWhile (p := isBlank) (l := cs)]
  refine (trimList_append_right fun c hc => ?_).symm
  exact List.mem_rtakeWhile_imp hc

theorem trimList_trimList (cs : List Char) : trimList (trimList cs) = trimList cs := by
  rw [trimList_eq cs, trimList_rdropWhile, trimList_dropWhile, trimList_eq]

theorem mem_of_mem_trimList (h : c ∈ trimList cs) : c ∈ cs := by
  rw [trimList_eq] at h
  apply (List.dropWhile_suffix isBlank).subset
  exact (List.rdropWhile_prefix isBlank _).subset h

/-- A character that is not blank keeps what stands between it and the ends. -/
theorem trimList_append_cons (h : isBlank c = false) (cs after : List Char) :
    trimList (cs ++ c :: after) = cs.dropWhile isBlank ++ c :: after.rdropWhile isBlank := by
  have hleft : (cs ++ c :: after).dropWhile isBlank = cs.dropWhile isBlank ++ c :: after := by
    rw [List.dropWhile_append]
    split
    · rename_i hnil
      rw [List.isEmpty_iff.1 hnil, List.dropWhile_cons_of_neg (by simp [h])]
      rfl
    · rfl
  have hright : ∀ before : List Char,
      (before ++ c :: after).rdropWhile isBlank = before ++ c :: after.rdropWhile isBlank := by
    intro before
    unfold List.rdropWhile
    rw [List.reverse_append, List.reverse_cons, List.append_assoc, List.dropWhile_append]
    split
    · rename_i hnil
      rw [List.isEmpty_iff.1 hnil, List.singleton_append, List.dropWhile_cons_of_neg (by simp [h])]
      simp
    · simp
  rw [trimList_eq, hleft, hright]

theorem trimList_append_cons_ne_nil (h : isBlank c = false) (cs after : List Char) :
    trimList (cs ++ c :: after) ≠ [] := by
  rw [trimList_append_cons h]
  simp

theorem trimList_of_not_blank (h : ∀ c ∈ cs, isBlank c = false) : trimList cs = cs := by
  have hdrop : cs.dropWhile isBlank = cs :=
    List.dropWhile_eq_self_iff.2 fun hl => by simp [h]
  have hrdrop : cs.rdropWhile isBlank = cs :=
    List.rdropWhile_eq_self_iff.2 fun hl => by simp [h]
  rw [trimList_eq, hdrop, hrdrop]

/-- What is left begins with a character that is not blank. -/
theorem isBlank_of_trimList_eq_cons {rest : List Char} (h : trimList cs = c :: rest) :
    isBlank c = false := by
  obtain ⟨tail, htail⟩ := List.rdropWhile_prefix isBlank (cs.dropWhile isBlank)
  rw [← trimList_eq, h] at htail
  have hhead := List.head?_dropWhile_not isBlank cs
  rw [← htail] at hhead
  exact hhead

theorem toList_of_trim {s : String} (h : trim s = s) : trimList s.toList = s.toList :=
  (String.toList_ofList (l := trimList s.toList)).symm.trans (congrArg String.toList h)

/-- The blanks around a text without blanks at its ends go. -/
theorem trimList_between {before after : List Char} {s : String} (h : trim s = s)
    (hbefore : Blank before) (hafter : Blank after) :
    String.ofList (trimList (before ++ s.toList ++ after)) = s := by
  rw [trimList_append_right hafter, trimList_append_left hbefore]
  exact h

/-! ## Lines -/

theorem trimList_dropReturn (line : List Char) : trimList (dropReturn line) = trimList line := by
  unfold dropReturn
  split
  · rename_i rest hreverse
    have hline : line = rest.reverse ++ ['\r'] := by
      rw [← List.reverse_reverse line, hreverse, List.reverse_cons]
    have hreturn : Blank ['\r'] := by
      intro c hc
      rw [List.mem_singleton.1 hc]
      rfl
    rw [hline, trimList_append_right hreturn]
  · rfl

theorem filterMap_linesOf {β : Type} {f : List Char → Option β}
    (hreturn : ∀ line, f (dropReturn line) = f line) (hnil : f [] = none) (cs : List Char) :
    (linesOf cs).filterMap f = (cs.splitOn '\n').filterMap f := by
  obtain ⟨ended, last, hlines⟩ : ∃ ended last, cs.splitOn '\n' = ended ++ [last] :=
    ⟨_, _, (List.dropLast_append_getLast (List.splitOn_ne_nil '\n' cs)).symm⟩
  have hended : (ended.map dropReturn).filterMap f = ended.filterMap f := by
    rw [List.filterMap_map]
    exact List.filterMap_congr fun line _ => hreturn line
  unfold linesOf
  rw [splitAt_eq_splitOn, hlines]
  simp only [List.reverse_append, List.reverse_cons, List.reverse_nil, List.nil_append,
    List.singleton_append, ← List.map_reverse, List.reverse_reverse]
  split
  · rename_i h
    rw [List.isEmpty_iff.1 h, List.filterMap_append, hended]
    simp [hnil]
  · rw [List.filterMap_append, List.filterMap_append, hended]

end LocalSearch.Text
