import BuildPlan.Proofs.Text.Integer
import BuildPlan.Proofs.Text.Words
import BuildPlan.Schedule.Cron

/-!
# Cron schedules as texts

A text is a cron schedule just if it has five words or more and each of the first five is a star or an
integer text of 32 bits; what follows does not count.  Many texts are read as one schedule, and the one that
it is written as is among them: it is read back, so it tells the schedule (`CronSpec.parse_text`).
-/

namespace BuildPlan

/-! ### Fields -/

namespace CronField

variable {field : CronField} {word : String} {c : Char}

/-- The word is a star, or a text of the value. -/
def WrittenAs : CronField → String → Prop
  | .any, word => word = "*"
  | .value n, word => Text.IsUnsigned word n.toNat

/-- Some field is written as the word. -/
def IsWord (word : String) : Prop :=
  word = "*" ∨ ∃ n ≤ 4294967295, Text.IsUnsigned word n

theorem not_isUnsigned_star (n : Nat) : ¬ Text.IsUnsigned "*" n := by
  rintro ⟨digits, rfl | hplus, h⟩
  · exact absurd (h.isDigit '*' (by decide)) (by decide)
  · exact absurd (List.cons.inj hplus).1 (by decide)

theorem parse?_eq_some_iff : parse? word = some field ↔ field.WrittenAs word := by
  unfold parse?
  by_cases hstar : word = "*"
  · subst hstar
    rw [if_pos rfl]
    cases field with
    | any => exact iff_of_true rfl rfl
    | value n => exact iff_of_false nofun (not_isUnsigned_star n.toNat)
  · rw [if_neg hstar, Option.map_eq_some_iff]
    cases field with
    | any => exact iff_of_false (fun ⟨_, _, h⟩ => by cases h) hstar
    | value n => simp only [value.injEq, exists_eq_right, Text.uint32?_eq_some_iff, WrittenAs]

theorem exists_writtenAs_iff : (∃ field : CronField, field.WrittenAs word) ↔ IsWord word := by
  constructor
  · rintro ⟨field, h⟩
    cases field with
    | any => exact Or.inl h
    | value n => exact Or.inr ⟨n.toNat, Nat.le_of_lt_succ n.toNat_lt, h⟩
  · rintro (rfl | ⟨n, hn, h⟩)
    · exact ⟨.any, rfl⟩
    · refine ⟨.value (UInt32.ofNat n), ?_⟩
      show Text.IsUnsigned word (UInt32.ofNat n).toNat
      rwa [UInt32.toNat_ofNat_of_lt' (Nat.lt_succ_of_le hn)]

theorem writtenAs_text (field : CronField) : field.WrittenAs field.text := by
  cases field with
  | any => rfl
  | value n => exact Text.isUnsigned_repr n.toNat

/-- A field of a cron schedule is written with digits or as a star. -/
theorem isDigit_or_star (h : c ∈ field.text.toList) : c.isDigit ∨ c = '*' := by
  cases field with
  | any =>
    have h' : c ∈ ['*'] := h
    exact Or.inr (List.mem_singleton.mp h')
  | value n => exact Or.inl ((Chars.isNumeral_repr n.toNat).isDigit c h)

/-- The written form of a field is one word. -/
theorem text_isWord (field : CronField) :
    field.text ≠ "" ∧ ∀ c ∈ field.text.toList, Chars.isBlank c = false := by
  constructor
  · cases field with
    | any => decide
    | value n =>
      intro h
      have hnil := (Chars.isNumeral_repr n.toNat).ne_nil
      exact hnil (String.toList_eq_nil_iff.mpr h)
  · intro c hc
    rcases isDigit_or_star hc with hdigit | rfl
    · exact Chars.isBlank_of_isDigit hdigit
    · decide

end CronField

/-! ### Schedules -/

namespace CronSpec

variable {text : String} {c : CronSpec} {e : CompileError}

theorem ofFields?_eq_some_iff {fields : List CronField} : ofFields? fields = some c ↔ c.fields = fields := by
  constructor
  · intro h
    unfold ofFields? at h
    split at h
    · cases h
      rfl
    · cases h
  · rintro rfl
    rfl

/-- The fields of a schedule are written as the first five words of its texts, in this order. -/
theorem parse_eq_ok_iff :
    parse text = .ok c ↔ List.Forall₂ CronField.WrittenAs c.fields ((Text.words text).take 5) := by
  have hread : (((Text.words text).take 5).mapM CronField.parse?).bind ofFields? = some c ↔
      List.Forall₂ CronField.WrittenAs c.fields ((Text.words text).take 5) := by
    simp only [Option.bind_eq_some_iff, ofFields?_eq_some_iff, mapM_eq_some_iff_forall₂,
      CronField.parse?_eq_some_iff, exists_eq_right']
  rw [← hread]
  unfold parse
  split
  · next cron hcron => simp [hcron]
  · next hnone => simp [hnone]

/-- The text has five words that fields are written as, in front of whatever there may be. -/
def Readable (text : String) : Prop :=
  5 ≤ (Text.words text).length ∧ ∀ word ∈ (Text.words text).take 5, CronField.IsWord word

theorem exists_fields_eq_iff {fields : List CronField} :
    (∃ c : CronSpec, c.fields = fields) ↔ fields.length = 5 := by
  constructor
  · rintro ⟨c, rfl⟩
    rfl
  · intro h
    match fields, h with
    | [minute, hour, dayOfMonth, month, dayOfWeek], _ =>
      exact ⟨⟨minute, hour, dayOfMonth, month, dayOfWeek⟩, rfl⟩

theorem exists_parse_iff : (∃ c, parse text = .ok c) ↔ Readable text := by
  have hlength : 5 ≤ (Text.words text).length ↔ ((Text.words text).take 5).length = 5 := by
    rw [List.length_take]
    omega
  simp only [parse_eq_ok_iff, Readable, hlength, ← CronField.exists_writtenAs_iff,
    ← exists_forall₂_iff]
  constructor
  · rintro ⟨c, h⟩
    exact ⟨h.length_eq.symm, c.fields, h⟩
  · rintro ⟨hl, fields, h⟩
    obtain ⟨c, rfl⟩ := exists_fields_eq_iff.mpr (h.length_eq.trans hl)
    exact ⟨c, h⟩

/-- A text that is no cron schedule is refused as a whole. -/
theorem parse_eq_error_iff :
    parse text = .error e ↔ ¬ Readable text ∧ e = .malformedSchedule .cron text := by
  rw [← exists_parse_iff]
  unfold parse
  split
  · next cron hcron => simp
  · next hnone => simp [eq_comm]

/-! ### Written forms -/

theorem words_text (c : CronSpec) : Text.words c.text = c.fields.map CronField.text := by
  refine Text.words_intercalate fun word hword => ?_
  obtain ⟨field, -, rfl⟩ := List.mem_map.mp hword
  exact field.text_isWord

/-- A schedule is read back from its written form. -/
theorem parse_text (c : CronSpec) : parse c.text = .ok c := by
  rw [parse_eq_ok_iff, words_text, List.take_of_length_le (by simp [fields]),
    List.forall₂_map_right_iff, List.forall₂_same]
  exact fun field _ => field.writtenAs_text

theorem text_injective : Function.Injective CronSpec.text := by
  intro c c' h
  have hread := parse_text c
  rw [h, parse_text c'] at hread
  exact (Except.ok.inj hread).symm

/-- **Cron schedules and their texts.**  A text is a cron schedule if and only if it has at least five words
and each of the first five is a star or a text of an integer up to 4294967295; every other text is refused
as a whole.  The fields are those of the first five words, in this order, and nothing else in the text
counts.  Each schedule is read back from the text that it is written as, which is five words; so that text
tells the schedule, and to write what has been read and to read it again changes nothing. -/
theorem parse_takes_five_words :
    (∀ text, (∃ c, parse text = .ok c) ↔
      5 ≤ (Text.words text).length ∧ ∀ word ∈ (Text.words text).take 5,
        word = "*" ∨ ∃ n ≤ 4294967295, Text.IsUnsigned word n) ∧
    (∀ text e, parse text = .error e ↔
      ¬ (∃ c, parse text = .ok c) ∧ e = .malformedSchedule .cron text) ∧
    (∀ text c, parse text = .ok c ↔
      List.Forall₂ CronField.WrittenAs c.fields ((Text.words text).take 5)) ∧
    (∀ text text' c, (Text.words text).take 5 = (Text.words text').take 5 →
      (parse text = .ok c ↔ parse text' = .ok c)) ∧
    (∀ c, parse c.text = .ok c ∧ Text.words c.text = c.fields.map CronField.text) ∧
    Function.Injective CronSpec.text ∧
    ∀ text, (parse text >>= fun c => parse c.text) = parse text := by
  refine ⟨fun text => exists_parse_iff, fun text e => ?_, fun text c => parse_eq_ok_iff,
    fun text text' c hsame => ?_, fun c => ⟨parse_text c, words_text c⟩, text_injective, fun text => ?_⟩
  · rw [parse_eq_error_iff, exists_parse_iff]
  · rw [parse_eq_ok_iff, parse_eq_ok_iff, hsame]
  · cases h : parse text with
    | error e => rfl
    | ok c =>
      dsimp only [bind, Except.bind]
      rw [parse_text]

/-- Leading zeros, a plus sign, wide blanks and a sixth word, with a field at the limit; one more than the
limit is refused. -/
theorem parse_takes_five_words_at_limit :
    let text := "\u2003+007 * \t0000059\n4294967295 0 daily"
    let text' := "+007 * 0000059 4294967295 0"
    let above := "+007 * 0000059 4294967296 0"
    let c : CronSpec := ⟨.value 7, .any, .value 59, .value 4294967295, .value 0⟩
    parse text = .ok c ∧ c.text = "7 * 59 4294967295 0" ∧
      (Text.words text).take 5 = (Text.words text').take 5 ∧ parse text' = .ok c ∧
      parse above = .error (.malformedSchedule .cron above) := by
  intro text text' above c
  obtain ⟨-, herror, -, hwords, -⟩ := parse_takes_five_words
  have hc : parse text = .ok c := by decide +kernel
  have hsame : (Text.words text).take 5 = (Text.words text').take 5 := by decide +kernel
  refine ⟨hc, by decide +kernel, hsame, (hwords text text' c hsame).mp hc,
    (herror above _).mpr ⟨?_, rfl⟩⟩
  rintro ⟨c', hc'⟩
  have hnone : (parse above).toOption = none := by decide +kernel
  rw [hc'] at hnone
  cases hnone

end CronSpec

end BuildPlan
