import BuildPlan.Proofs.Text.Words

/-!
# Texts with a separator

When the parts of a text can be told from the text.  Cutting at one character gives the pieces that do
not have it in them (`splitOnP_eq_iff`), one more than it stands in the text (`length_splitOnP`).  A
separator of several characters that may occur in the parts is found again unless one right part ends in
the separator and the other right part (`append_separator_cases`).
-/

namespace BuildPlan.Chars

variable {cs left right left' right' rest : List Char} {sep : Char}

/-- Cutting a text at a character gives the pieces that make up the text when they are joined with it, and
the character is in none of them. -/
theorem splitOnP_eq_iff {pieces : List (List Char)} (h : pieces ≠ []) :
    cs.splitOnP (· == sep) = pieces ↔
      cs = [sep].intercalate pieces ∧ ∀ piece ∈ pieces, sep ∉ piece := by
  rw [← List.splitOn_eq_splitOnP]
  constructor
  · rintro rfl
    refine ⟨(List.intercalate_splitOn sep).symm, fun piece hp hs => ?_⟩
    rw [List.splitOn_eq_splitOnP] at hp
    simpa using eq_false_of_mem_splitOnP hp hs
  · rintro ⟨rfl, hfree⟩
    exact List.splitOn_intercalate sep hfree h

/-- A text is cut into two parts at a character that stands in it once. -/
theorem splitOnP_eq_pair_iff :
    cs.splitOnP (· == sep) = [left, right] ↔
      cs = left ++ sep :: right ∧ sep ∉ left ∧ sep ∉ right := by
  rw [splitOnP_eq_iff (by simp)]
  simp [List.intercalate]

/-- There is one piece more than the character stands in the text. -/
theorem length_splitOnP (cs : List Char) (sep : Char) :
    (cs.splitOnP (· == sep)).length = cs.count sep + 1 := by
  induction cs with
  | nil => rfl
  | cons c cs ih =>
    rw [List.splitOnP_cons_eq_if_modifyHead]
    by_cases hc : c = sep
    · simp [hc, ih]
    · simp [hc, ih]

/-- Two ways to read a text at a separator whose first character does not come again in it: they are the
same, or the right part of one ends in the separator and the right part of the other. -/
theorem append_separator_cases (hs : sep ∉ rest)
    (h : left ++ (sep :: rest) ++ right = left' ++ (sep :: rest) ++ right') :
    (left = left' ∧ right = right') ∨ sep :: rest ++ right <:+ right' ∨
      sep :: rest ++ right' <:+ right := by
  -- the shorter of two endings of the text stands inside of the longer one's right part
  have shorter : ∀ {before r r' : List Char}, before ≠ [] →
      sep :: rest ++ r = before ++ (sep :: rest ++ r') → sep :: rest ++ r' <:+ r := by
    intro before r r' hne he
    obtain ⟨b, before, rfl⟩ := List.exists_cons_of_ne_nil hne
    simp only [List.cons_append, List.cons.injEq] at he
    obtain ⟨-, he⟩ := he
    rcases List.append_eq_append_iff.mp he with ⟨gap, -, hr⟩ | ⟨gap, hrest, hr⟩
    · exact ⟨gap, hr.symm⟩
    · cases gap with
      | nil => exact ⟨[], by simpa using hr⟩
      | cons g gap =>
        have hg : sep = g := by simpa using congrArg List.head? hr
        exact absurd (by simp [hrest, hg]) hs
  rw [List.append_assoc, List.append_assoc] at h
  rcases List.append_eq_append_iff.mp h with ⟨gap, hl, hr⟩ | ⟨gap, hl, hr⟩
  · by_cases hgap : gap = []
    · subst hgap
      exact Or.inl ⟨by simpa using hl.symm, by simpa using hr⟩
    · exact Or.inr (Or.inr (shorter hgap hr))
  · by_cases hgap : gap = []
    · subst hgap
      exact Or.inl ⟨by simpa using hl, by simpa using hr.symm⟩
    · exact Or.inr (Or.inl (shorter hgap hr))

end BuildPlan.Chars
