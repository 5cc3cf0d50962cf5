import BuildPlan.Text.Blank
import Mathlib.Data.List.Infix
import Mathlib.Data.List.TakeWhile

/-!
# Words and lines

Words have no blanks in them, blanks at the ends of a text have no part in its words (`Text.words_trim`),
and words that are joined with spaces are the words of the joined text (`Text.words_intercalate`).  Lines
that are joined with line feeds are the lines of the joined text, if none of them is empty or ends in a
blank (`Text.lines_intercalate_entries`).
-/

namespace BuildPlan

namespace Chars

variable {cs line w piece : List Char} {c b : Char} {p : Char → Bool}

/-! ### Pieces -/

/-- No separator is left in the pieces of a text. -/
theorem eq_false_of_mem_splitOnP (h : piece ∈ cs.splitOnP p) (hc : c ∈ piece) : p c = false := by
  induction cs generalizing piece with
  | nil =>
    rw [List.splitOnP_nil, List.mem_singleton] at h
    subst h
    cases hc
  | cons x cs ih =>
    rw [List.splitOnP_cons_eq_if_modifyHead] at h
    split at h
    · rcases List.mem_cons.mp h with rfl | h
      · cases hc
      · exact ih h hc
    · next hx =>
      -- a character that does not cut is put in front of the first piece
      obtain ⟨first, rest, hsplit⟩ := List.exists_cons_of_ne_nil (List.splitOnP_ne_nil p cs)
      rw [hsplit, List.modifyHead_cons] at h
      rw [hsplit] at ih
      rcases List.mem_cons.mp h with rfl | h
      · rcases List.mem_cons.mp hc with rfl | hc
        · simpa using hx
        · exact ih List.mem_cons_self hc
      · exact ih (List.mem_cons_of_mem _ h) hc

/-! ### Words -/

/-- A word is not empty, and there is no blank in it. -/
theorem of_mem_words (h : w ∈ words cs) : w ≠ [] ∧ ∀ c ∈ w, isBlank c = false := by
  obtain ⟨hpiece, hne⟩ := List.mem_filter.mp h
  exact ⟨by simpa using hne, fun c hc => eq_false_of_mem_splitOnP hpiece hc⟩

/-- A blank ends a word. -/
theorem words_append_blank (before after : List Char) (hb : isBlank b) :
    words (before ++ b :: after) = words before ++ words after := by
  unfold words
  rw [List.splitOnP_append_cons before after hb, List.filter_append]

@[simp] theorem words_nil : words [] = [] := rfl

theorem words_cons_blank (hb : isBlank b) (cs : List Char) : words (b :: cs) = words cs := by
  have hcut := words_append_blank [] cs hb
  rwa [words_nil, List.nil_append, List.nil_append] at hcut

theorem words_append_of_blank {rest : List Char} (h : ∀ c ∈ rest, isBlank c) (cs : List Char) :
    words (cs ++ rest) = words cs := by
  induction rest using List.reverseRecOn with
  | nil => rw [List.append_nil]
  | append_singleton rest b ih =>
    have hb : isBlank b := h b (by simp)
    rw [← List.append_assoc, words_append_blank _ _ hb, words_nil, List.append_nil]
    exact ih fun c hc => h c (List.mem_append_left _ hc)

theorem words_append_of_blank_left {front : List Char} (h : ∀ c ∈ front, isBlank c)
    (cs : List Char) : words (front ++ cs) = words cs := by
  induction front with
  | nil => rfl
  | cons b front ih =>
    obtain ⟨hb, hfront⟩ := List.forall_mem_cons.mp h
    rw [List.cons_append, words_cons_blank hb, ih hfront]

/-- A character that is not blank stands in a word. -/
theorem words_cons_ne_nil (hc : isBlank c = false) (cs : List Char) : words (c :: cs) ≠ [] := by
  obtain ⟨first, rest, hsplit⟩ := List.exists_cons_of_ne_nil (List.splitOnP_ne_nil isBlank cs)
  unfold words
  rw [List.splitOnP_cons_eq_if_modifyHead, hsplit]
  simp [hc]

theorem words_eq_nil_iff : words cs = [] ↔ ∀ c ∈ cs, isBlank c := by
  induction cs with
  | nil => simp
  | cons c cs ih =>
    cases hc : isBlank c with
    | false =>
      refine iff_of_false (words_cons_ne_nil hc cs) fun h => ?_
      rw [h c List.mem_cons_self] at hc
      cases hc
    | true =>
      rw [words_cons_blank hc, ih, List.forall_mem_cons]
      exact (and_iff_right hc).symm

/-- A text without blanks is one word. -/
theorem words_eq_singleton (hne : cs ≠ []) (h : ∀ c ∈ cs, isBlank c = false) : words cs = [cs] := by
  unfold words
  rw [List.splitOnP_eq_singleton h]
  exact List.filter_eq_self.mpr (by simpa using hne)

/-- Words that are joined with blanks are read again. -/
theorem words_intercalate {ws : List (List Char)} (hb : isBlank b)
    (h : ∀ w ∈ ws, w ≠ [] ∧ ∀ c ∈ w, isBlank c = false) : words ([b].intercalate ws) = ws := by
  induction ws with
  | nil => rfl
  | cons w ws ih =>
    obtain ⟨⟨hne, hw⟩, hall⟩ := List.forall_mem_cons.mp h
    cases ws with
    | nil => rw [List.intercalate_singleton, words_eq_singleton hne hw]
    | cons next ws =>
      rw [List.intercalate_cons_cons, List.append_assoc, List.singleton_append,
        words_append_blank _ _ hb, words_eq_singleton hne hw, ih hall, List.singleton_append]

/-! ### Trimmed texts -/

/-- A text is the blanks in front, the trimmed text, and the blanks behind. -/
theorem exists_eq_trim (cs : List Char) :
    ∃ front rest, cs = front ++ trim cs ++ rest ∧ (∀ c ∈ front, isBlank c) ∧
      ∀ c ∈ rest, isBlank c := by
  have htake : ∀ cs : List Char, ∀ c ∈ cs.takeWhile isBlank, isBlank c :=
    fun cs c hc => List.mem_takeWhile_imp hc
  refine ⟨cs.takeWhile isBlank,
    ((cs.dropWhile isBlank).reverse.takeWhile isBlank).reverse, ?_, htake cs, fun c hc => ?_⟩
  · unfold trim
    rw [List.append_assoc, ← List.reverse_append, List.takeWhile_append_dropWhile,
      List.reverse_reverse, List.takeWhile_append_dropWhile]
  · exact htake _ c (List.mem_reverse.mp hc)

/-- Trimming a text does not change its words. -/
theorem words_trim (cs : List Char) : words (trim cs) = words cs := by
  obtain ⟨front, rest, hcs, hfront, hrest⟩ := exists_eq_trim cs
  calc words (trim cs)
      = words (front ++ trim cs ++ rest) := by
        rw [words_append_of_blank hrest, words_append_of_blank_left hfront]
    _ = words cs := by rw [← hcs]

theorem mem_of_mem_trim (h : c ∈ trim cs) : c ∈ cs := by
  obtain ⟨front, rest, hcs, -, -⟩ := exists_eq_trim cs
  rw [hcs]
  exact List.mem_append_left _ (List.mem_append_right _ h)

theorem trim_eq_nil_iff : trim cs = [] ↔ ∀ c ∈ cs, isBlank c := by
  constructor
  · intro h
    rw [← words_eq_nil_iff, ← words_trim, h, words_nil]
  · intro h
    unfold trim
    rw [List.dropWhile_eq_nil_iff.mpr h]
    rfl

/-- A trimmed text does not end in a blank. -/
theorem isBlank_of_getLast?_trim (h : (trim cs).getLast? = some c) : isBlank c = false := by
  unfold trim at h
  rw [List.getLast?_reverse] at h
  have hhead := List.head?_dropWhile_not isBlank (cs.dropWhile isBlank).reverse
  rw [h] at hhead
  exact hhead

/-- Blanks in front go, up to the first character that is not blank. -/
theorem dropWhile_blank_append {front : List Char} (hfront : ∀ c ∈ front, isBlank c)
    (hhead : ∀ c, cs.head? = some c → isBlank c = false) : (front ++ cs).dropWhile isBlank = cs := by
  rw [List.dropWhile_append_of_pos hfront]
  cases cs with
  | nil => rfl
  | cons c cs => simp [hhead c rfl]

/-- Of a text without blanks, with blanks in front and behind, the text itself is left. -/
theorem trim_append_of_blank {front rest : List Char} (hfront : ∀ c ∈ front, isBlank c)
    (hrest : ∀ c ∈ rest, isBlank c) (hcs : ∀ c ∈ cs, isBlank c = false) :
    trim (front ++ cs ++ rest) = cs := by
  by_cases hne : cs = []
  · subst hne
    rw [List.append_nil, trim_eq_nil_iff]
    simpa [or_imp, forall_and] using ⟨hfront, hrest⟩
  · have hhead : ∀ c, (cs ++ rest).head? = some c → isBlank c = false := by
      intro c hc
      rw [List.head?_append_of_ne_nil _ hne] at hc
      exact hcs c (List.mem_of_head? hc)
    have hlast : ∀ c, cs.reverse.head? = some c → isBlank c = false := by
      intro c hc
      exact hcs c (List.mem_reverse.mp (List.mem_of_head? hc))
    have hback : ∀ c ∈ rest.reverse, isBlank c := fun c hc => hrest c (List.mem_reverse.mp hc)
    rw [trim, List.append_assoc, dropWhile_blank_append hfront hhead, List.reverse_append,
      dropWhile_blank_append hback hlast, List.reverse_reverse]

/-! ### Lines -/

theorem mem_of_mem_dropReturn (h : c ∈ dropReturn line) : c ∈ line := by
  unfold dropReturn at h
  split at h
  · exact List.dropLast_subset line h
  · exact h

theorem exists_piece_of_mem_endLines {pieces : List (List Char)} (h : line ∈ endLines pieces) :
    ∃ piece ∈ pieces, ∀ c ∈ line, c ∈ piece := by
  fun_induction endLines pieces with
  | case1 => cases h
  | case2 last hl => cases h
  | case3 last hl => exact ⟨line, h, fun _ hc => hc⟩
  | case4 first rest hrest ih =>
    rcases List.mem_cons.mp h with rfl | h
    · exact ⟨first, List.mem_cons_self, fun _ => mem_of_mem_dropReturn⟩
    · obtain ⟨piece, hp, hall⟩ := ih h
      exact ⟨piece, List.mem_cons_of_mem _ hp, hall⟩

/-- There is no line feed in a line. -/
theorem newline_notMem_of_mem_lines (h : line ∈ lines cs) : '\n' ∉ line := by
  obtain ⟨piece, hp, hall⟩ := exists_piece_of_mem_endLines h
  intro hc
  simpa using eq_false_of_mem_splitOnP hp (hall _ hc)

/-- The pieces in front of others end as lines. -/
theorem endLines_append (pieces : List (List Char)) {rest : List (List Char)} (h : rest ≠ []) :
    endLines (pieces ++ rest) = pieces.map dropReturn ++ endLines rest := by
  induction pieces with
  | nil => rfl
  | cons first pieces ih =>
    rw [List.cons_append, endLines.eq_3 _ _ (by simp [h]), ih, List.map_cons, List.cons_append]

/-- A line feed ends a line, and what stands behind it does not change the lines in front. -/
theorem lines_append_newline (cs rest : List Char) :
    lines (cs ++ '\n' :: rest) = lines (cs ++ ['\n']) ++ lines rest := by
  unfold lines
  rw [List.splitOnP_append_cons cs rest rfl, List.splitOnP_append_cons cs [] rfl,
    endLines_append _ (List.splitOnP_ne_nil _ rest), endLines_append _ (List.splitOnP_ne_nil _ []),
    List.append_assoc]
  rfl

/-- Pieces that are neither empty nor end in a carriage return are the lines that they end. -/
theorem endLines_eq_self {pieces : List (List Char)}
    (h : ∀ piece ∈ pieces, piece ≠ [] ∧ piece.getLast? ≠ some '\r') : endLines pieces = pieces := by
  fun_induction endLines pieces with
  | case1 => rfl
  -- the empty last piece is the only one dropped
  | case2 last hl =>
    obtain ⟨hne, -⟩ := h last List.mem_cons_self
    exact absurd (List.isEmpty_iff.mp hl) hne
  | case3 last hl => rfl
  | case4 first rest hrest ih =>
    obtain ⟨⟨-, hreturn⟩, hall⟩ := List.forall_mem_cons.mp h
    rw [ih hall, dropReturn, if_neg hreturn]

/-- Lines that are joined with line feeds are read again. -/
theorem lines_intercalate {pieces : List (List Char)} (hn : ∀ piece ∈ pieces, '\n' ∉ piece)
    (h : ∀ piece ∈ pieces, piece ≠ [] ∧ piece.getLast? ≠ some '\r') :
    lines (['\n'].intercalate pieces) = pieces := by
  unfold lines
  by_cases hp : pieces = []
  · subst hp
    rfl
  · rw [← List.splitOn_eq_splitOnP, List.splitOn_intercalate '\n' hn hp]
    exact endLines_eq_self h

end Chars

namespace Text

variable {s line word : String}

theorem toList_trim (s : String) : (trim s).toList = Chars.trim s.toList :=
  String.toList_ofList

theorem words_trim (s : String) : words (trim s) = words s := by
  rw [words, words, toList_trim, Chars.words_trim]

theorem isBlank_iff : isBlank s ↔ ∀ c ∈ s.toList, Chars.isBlank c := by
  simp [isBlank]

theorem words_eq_nil_iff : words s = [] ↔ isBlank s := by
  rw [isBlank_iff, ← Chars.words_eq_nil_iff, words, List.map_eq_nil_iff]

theorem trim_eq_empty_iff : trim s = "" ↔ isBlank s := by
  rw [isBlank_iff, ← Chars.trim_eq_nil_iff, trim]
  simp

/-- Of a text without blanks, with blanks in front and behind, the text itself is left. -/
theorem trim_append_of_blank {front rest : String} (hfront : isBlank front) (hrest : isBlank rest)
    (hs : ∀ c ∈ s.toList, Chars.isBlank c = false) : trim (front ++ s ++ rest) = s := by
  rw [trim, String.toList_append, String.toList_append,
    Chars.trim_append_of_blank (isBlank_iff.mp hfront) (isBlank_iff.mp hrest) hs,
    String.ofList_toList]

/-- A word is not empty, and there is no blank in it. -/
theorem of_mem_words (h : word ∈ words s) :
    word ≠ "" ∧ ∀ c ∈ word.toList, Chars.isBlank c = false := by
  obtain ⟨w, hw, rfl⟩ := List.mem_map.mp h
  rw [String.toList_ofList]
  obtain ⟨hne, hblank⟩ := Chars.of_mem_words hw
  exact ⟨by simpa using hne, hblank⟩

/-- Words that are joined with spaces are read again. -/
theorem words_intercalate {ws : List String}
    (h : ∀ word ∈ ws, word ≠ "" ∧ ∀ c ∈ word.toList, Chars.isBlank c = false) :
    words (String.intercalate " " ws) = ws := by
  have hchars : ∀ w ∈ ws.map String.toList, w ≠ [] ∧ ∀ c ∈ w, Chars.isBlank c = false := by
    intro w hw
    obtain ⟨word, hword, rfl⟩ := List.mem_map.mp hw
    obtain ⟨hne, hblank⟩ := h word hword
    exact ⟨by simpa using hne, hblank⟩
  have hspace : Chars.isBlank ' ' := by decide
  rw [words, String.toList_intercalate]
  show (Chars.words ([' '].intercalate (ws.map String.toList))).map String.ofList = ws
  rw [Chars.words_intercalate hspace hchars, List.map_map]
  simp [Function.comp_def]

/-- The lines of a text that is put behind ended lines come behind them. -/
theorem lines_append (hs : s = "" ∨ ∃ front, s = front ++ "\n") (rest : String) :
    lines (s ++ rest) = lines s ++ lines rest := by
  rcases hs with rfl | ⟨front, rfl⟩
  · rw [String.empty_append]
    rfl
  · have hcut : (front ++ "\n" ++ rest).toList = front.toList ++ '\n' :: rest.toList := by
      simp
    have hend : (front ++ "\n").toList = front.toList ++ ['\n'] := by
      simp
    rw [lines, lines, lines, hcut, hend, Chars.lines_append_newline, List.map_append]

/-- The trimmed lines of a text that are not blank are those of its lines that are not blank, trimmed. -/
theorem entries_eq (s : String) :
    entries s = ((lines s).filter fun line => !isBlank line).map trim := by
  have hkeep : ∀ line : String, (!(trim line).isEmpty) = !isBlank line := by
    intro line
    rw [Bool.not_inj_iff, Bool.eq_iff_iff, String.isEmpty_iff, trim_eq_empty_iff]
  unfold entries
  rw [List.filter_map]
  simp only [Function.comp_def, hkeep]

/-- Trimmed lines that are joined with line feeds are read again. -/
theorem lines_intercalate_entries {ls : List String} (h : ∀ line ∈ ls, ∃ s, line ∈ entries s) :
    lines (String.intercalate "\n" ls) = ls := by
  have hentry : ∀ cs ∈ ls.map String.toList,
      '\n' ∉ cs ∧ cs ≠ [] ∧ cs.getLast? ≠ some '\r' := by
    intro cs hcs
    obtain ⟨line, hline, rfl⟩ := List.mem_map.mp hcs
    obtain ⟨s, hs⟩ := h line hline
    rw [entries_eq] at hs
    obtain ⟨raw, hraw, rfl⟩ := List.mem_map.mp hs
    obtain ⟨hraw, hb⟩ := List.mem_filter.mp hraw
    obtain ⟨chars, hchars, rfl⟩ := List.mem_map.mp hraw
    -- an entry is trimmed and not blank, so it ends in no break and is not empty
    refine ⟨?_, ?_, ?_⟩
    · rw [toList_trim, String.toList_ofList]
      exact fun hn => Chars.newline_notMem_of_mem_lines hchars (Chars.mem_of_mem_trim hn)
    · rw [Ne, String.toList_eq_nil_iff, trim_eq_empty_iff]
      simpa using hb
    · rw [toList_trim]
      exact fun hr => absurd (Chars.isBlank_of_getLast?_trim hr) (by decide)
  have hjoin : (String.intercalate "\n" ls).toList = ['\n'].intercalate (ls.map String.toList) :=
    String.toList_intercalate
  rw [lines, hjoin, Chars.lines_intercalate (fun cs hcs => (hentry cs hcs).1)
    fun cs hcs => (hentry cs hcs).2, List.map_map]
  simp [Function.comp_def]

end Text

end BuildPlan
