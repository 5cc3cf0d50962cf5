import BuildPlan.HttpAuth
import BuildPlan.Proofs.Configuration.Options
import BuildPlan.Proofs.Text.Separator
import Mathlib.Data.List.Forall2

/-!
# Credentials files

What a credentials file says is told from its lines: a line is an entry written as four fields with commas
between them (`HttpAuthEntry.WrittenAs`), and the first line that is for a repository answers for it
(`LineAnswers`).  A file is refused for its first line that is neither blank nor has four fields.
-/

namespace BuildPlan

/-! ### Lines -/

/-- The line is made of four fields with commas between them, and the entry of the last three without the
blanks around them. -/
def HttpAuthEntry.WrittenAs (e : HttpAuthEntry) (line : String) : Prop :=
  ∃ realm url username password,
    line = realm ++ "," ++ url ++ "," ++ username ++ "," ++ password ∧
    (∀ field ∈ [realm, url, username, password], ',' ∉ field.toList) ∧
    e = ⟨Text.trim url, ⟨Text.trim username, Text.trim password⟩⟩

/-- The line is for the repository and has these credentials. -/
def LineAnswers (line repository : String) (c : Credentials) : Prop :=
  ∃ e : HttpAuthEntry, e.WrittenAs line ∧ e.url.toList <+: repository.toList ∧ e.credentials = c

namespace HttpAuth

variable {line text repository : String} {ls : List String} {e : HttpAuthEntry}
  {es es' : List HttpAuthEntry} {c : Credentials} {number : Nat} {error : ConfigError}

/-- The fields of a line are four just if the line is written so. -/
theorem exists_fields_iff :
    (∃ realm, fields line = [realm, e.url, e.credentials.username, e.credentials.password]) ↔
      e.WrittenAs line := by
  constructor
  · rintro ⟨_, h⟩
    obtain ⟨realm, _, hpieces, -, h⟩ := List.map_eq_cons_iff.mp h
    obtain ⟨url, _, rfl, hurl, h⟩ := List.map_eq_cons_iff.mp h
    obtain ⟨username, _, rfl, husername, h⟩ := List.map_eq_cons_iff.mp h
    obtain ⟨password, _, rfl, hpassword, h⟩ := List.map_eq_cons_iff.mp h
    cases List.map_eq_nil_iff.mp h
    obtain ⟨hline, hfree⟩ := (Chars.splitOnP_eq_iff (by simp)).mp hpieces
    refine ⟨.ofList realm, .ofList url, .ofList username, .ofList password, ?_, ?_, ?_⟩
    · rw [← String.toList_inj, hline]
      simp [List.intercalate]
    · simpa using hfree
    · obtain ⟨_, _, _⟩ := e
      simpa [Text.trim] using ⟨hurl.symm, husername.symm, hpassword.symm⟩
  · rintro ⟨realm, url, username, password, rfl, hfree, rfl⟩
    refine ⟨Text.trim realm, ?_⟩
    have hcut : (realm ++ "," ++ url ++ "," ++ username ++ "," ++ password).toList.splitOnP (· == ',') =
        [realm, url, username, password].map String.toList := by
      refine (Chars.splitOnP_eq_iff (by simp)).mpr ⟨?_, ?_⟩
      · simp [List.intercalate]
      · simpa using hfree
    rw [fields, hcut]
    rfl

theorem length_fields (line : String) : (fields line).length = line.toList.count ',' + 1 := by
  rw [fields, List.length_map, Chars.length_splitOnP]

theorem writtenAs_unique {e' : HttpAuthEntry} (h : e.WrittenAs line) (h' : e'.WrittenAs line) :
    e = e' := by
  obtain ⟨realm, hf⟩ := exists_fields_iff.mpr h
  obtain ⟨realm', hf'⟩ := exists_fields_iff.mpr h'
  obtain ⟨url, username, password⟩ := e
  obtain ⟨url', username', password'⟩ := e'
  have heq := hf.symm.trans hf'
  simp only [List.cons.injEq, and_true] at heq
  obtain ⟨-, rfl, rfl, rfl⟩ := heq
  rfl

/-- Three commas make four fields. -/
theorem exists_writtenAs_iff : (∃ e : HttpAuthEntry, e.WrittenAs line) ↔ line.toList.count ',' = 3 := by
  have hlen := length_fields line
  constructor
  · rintro ⟨e, h⟩
    obtain ⟨realm, hf⟩ := exists_fields_iff.mpr h
    rw [hf] at hlen
    exact (Nat.succ.inj hlen).symm
  · intro h
    rw [h] at hlen
    obtain ⟨realm, url, username, password, hf⟩ := List.length_eq_four.mp hlen
    exact ⟨⟨url, ⟨username, password⟩⟩, exists_fields_iff.mp ⟨realm, hf⟩⟩

/-! ### What is read -/

theorem readLine_of_blank (h : Text.isBlank line) (number : Nat) : readLine line number = .ok none :=
  if_pos h

theorem readLine_of_writtenAs (hb : ¬ Text.isBlank line) (h : e.WrittenAs line) (number : Nat) :
    readLine line number = .ok (some e) := by
  obtain ⟨realm, hf⟩ := exists_fields_iff.mpr h
  unfold readLine
  rw [if_neg hb, hf]

/-- The line can be read: it is blank, or it has three commas. -/
def Readable (line : String) : Prop :=
  Text.isBlank line ∨ line.toList.count ',' = 3

theorem not_readable_iff :
    ¬ Readable line ↔ Text.isBlank line = false ∧ line.toList.count ',' ≠ 3 := by
  simp [Readable]

/-- A line that can be read is blank, or it is an entry that is written so. -/
theorem readLine_cases (h : Readable line) :
    (Text.isBlank line ∧ ∀ number, readLine line number = .ok none) ∨
    (¬ Text.isBlank line ∧
      ∃ e : HttpAuthEntry, e.WrittenAs line ∧ ∀ number, readLine line number = .ok (some e)) := by
  by_cases hb : Text.isBlank line
  · exact Or.inl ⟨hb, readLine_of_blank hb⟩
  · obtain ⟨e, he⟩ := exists_writtenAs_iff.mpr (h.resolve_left hb)
    exact Or.inr ⟨hb, e, he, readLine_of_writtenAs hb he⟩

theorem exists_readLine (h : Readable line) (number : Nat) :
    ∃ entry, readLine line number = .ok entry := by
  rcases readLine_cases h with ⟨-, hread⟩ | ⟨-, e, -, hread⟩
  · exact ⟨_, hread number⟩
  · exact ⟨_, hread number⟩

theorem readLine_of_not_readable (h : ¬ Readable line) (number : Nat) :
    readLine line number =
      .error (.invalid (.credentialLine number (line.toList.count ',' + 1))) := by
  obtain ⟨hb, hcount⟩ := not_readable_iff.mp h
  have hlen := length_fields line
  unfold readLine
  rw [if_neg (by simp [hb])]
  split
  · -- the only branch left for four fields is the one that needs three separators
    next hf =>
    rw [hf] at hlen
    exact absurd (Nat.succ.inj hlen).symm hcount
  · rw [hlen]

theorem readLines_cons_of_error (h : readLine line number = .error error) (ls : List String) :
    readLines (line :: ls) number = .error error := by
  rw [readLines, h]
  rfl

theorem readLines_cons_of_ok {entry : Option HttpAuthEntry} (h : readLine line number = .ok entry)
    (ls : List String) : readLines (line :: ls) number =
      (readLines ls (number + 1)).map fun es => entry.toList ++ es := by
  rw [readLines, h]
  show (readLines ls (number + 1) >>= _) = _
  cases readLines ls (number + 1) <;> rfl

/-- The entries are those that the lines that are not blank are written as. -/
theorem readLines_eq_ok_iff :
    readLines ls number = .ok es ↔
      List.Forall₂ HttpAuthEntry.WrittenAs es (ls.filter fun line => !Text.isBlank line) := by
  induction ls generalizing number es with
  | nil =>
    rw [List.filter_nil, List.forall₂_nil_right_iff]
    exact ⟨fun h => (Except.ok.inj h).symm, fun h => congrArg _ h.symm⟩
  | cons line ls ih =>
    by_cases hr : Readable line
    · rcases readLine_cases hr with ⟨hb, hread⟩ | ⟨hb, e, he, hread⟩
      · rw [readLines_cons_of_ok (hread number), map_eq_ok_iff, List.filter_cons_of_neg (by simp [hb]),
          ← @ih _ (number + 1)]
        simp
      · rw [readLines_cons_of_ok (hread number), map_eq_ok_iff, List.filter_cons_of_pos (by simp [hb]),
          List.forall₂_cons_right_iff]
        simp only [ih]
        constructor
        · rintro ⟨rest, hrest, rfl⟩
          exact ⟨e, rest, he, hrest, rfl⟩
        · rintro ⟨e', rest, he', hrest, rfl⟩
          exact ⟨rest, hrest, by rw [writtenAs_unique he he']; rfl⟩
    · obtain ⟨hb, hcount⟩ := not_readable_iff.mp hr
      rw [readLines_cons_of_error (readLine_of_not_readable hr number),
        List.filter_cons_of_pos (by simp [hb]), List.forall₂_cons_right_iff]
      refine iff_of_false nofun ?_
      rintro ⟨e, -, he, -⟩
      exact hcount (exists_writtenAs_iff.mp ⟨e, he⟩)

theorem exists_readLines_iff :
    (∃ es, readLines ls number = .ok es) ↔ ∀ line ∈ ls, Readable line := by
  induction ls generalizing number with
  | nil => exact iff_of_true ⟨[], rfl⟩ (by simp)
  | cons line ls ih =>
    rw [List.forall_mem_cons]
    by_cases hr : Readable line
    · obtain ⟨entry, hread⟩ := exists_readLine hr number
      rw [readLines_cons_of_ok hread, ← @ih (number + 1), and_iff_right hr]
      simp only [map_eq_ok_iff]
      exact ⟨fun ⟨_, es, hes, _⟩ => ⟨es, hes⟩, fun ⟨es, hes⟩ => ⟨_, es, hes, rfl⟩⟩
    · rw [readLines_cons_of_error (readLine_of_not_readable hr number)]
      exact iff_of_false nofun fun hall => hr hall.1

/-- Lines are refused for the first one that cannot be read. -/
theorem readLines_eq_error_iff :
    readLines ls number = .error error ↔
      ∃ before line after, ls = before ++ line :: after ∧ (∀ l ∈ before, Readable l) ∧
        ¬ Readable line ∧
        error = .invalid (.credentialLine (number + before.length) (line.toList.count ',' + 1)) := by
  induction ls generalizing number with
  | nil =>
    refine iff_of_false nofun ?_
    rintro ⟨before, line, after, h, -⟩
    simp at h
  | cons line ls ih =>
    by_cases hr : Readable line
    · obtain ⟨entry, hread⟩ := exists_readLine hr number
      rw [readLines_cons_of_ok hread, map_eq_error_iff, ih]
      constructor
      · rintro ⟨before, l, after, rfl, hall, hl, rfl⟩
        refine ⟨line :: before, l, after, rfl, List.forall_mem_cons.mpr ⟨hr, hall⟩, hl, ?_⟩
        rw [List.length_cons, Nat.add_right_comm, Nat.add_assoc]
      · rintro ⟨before, l, after, heq, hall, hl, rfl⟩
        -- this line is readable, so it is not the one that was refused
        cases before with
        | nil =>
          cases heq
          exact absurd hr hl
        | cons first before =>
          cases heq
          refine ⟨before, l, after, rfl, (List.forall_mem_cons.mp hall).2, hl, ?_⟩
          rw [List.length_cons, Nat.add_right_comm, Nat.add_assoc]
    · rw [readLines_cons_of_error (readLine_of_not_readable hr number)]
      constructor
      · rintro ⟨⟩
        exact ⟨[], line, ls, rfl, by simp, hr, rfl⟩
      · rintro ⟨before, l, after, heq, hall, hl, rfl⟩
        cases before with
        | nil =>
          cases heq
          rfl
        | cons first before =>
          cases heq
          exact absurd (List.forall_mem_cons.mp hall).1 hr

/-! ### Answers -/

theorem startsWith_iff : Text.startsWith repository e.url ↔ e.url.toList <+: repository.toList :=
  List.isPrefixOf_iff_prefix

theorem lineAnswers_iff (h : e.WrittenAs line) :
    LineAnswers line repository c ↔ Text.startsWith repository e.url ∧ e.credentials = c := by
  rw [startsWith_iff]
  constructor
  · rintro ⟨e', he', hurl, hc⟩
    cases writtenAs_unique h he'
    exact ⟨hurl, hc⟩
  · rintro ⟨hurl, hc⟩
    exact ⟨e, h, hurl, hc⟩

theorem credentialsFor_cons (e : HttpAuthEntry) (es : List HttpAuthEntry) (repository : String) :
    credentialsFor ⟨e :: es⟩ repository =
      if Text.startsWith repository e.url then some e.credentials
      else credentialsFor ⟨es⟩ repository := by
  unfold credentialsFor
  rw [List.find?_cons]
  cases Text.startsWith repository e.url <;> rfl

/-- Entries that are read from lines answer as the first of the lines does that is for the repository. -/
theorem credentialsFor_eq_some_iff (h : List.Forall₂ HttpAuthEntry.WrittenAs es ls) :
    credentialsFor ⟨es⟩ repository = some c ↔
      ∃ before line after, ls = before ++ line :: after ∧
        (∀ l ∈ before, ∀ c', ¬ LineAnswers l repository c') ∧ LineAnswers line repository c := by
  induction h with
  | nil =>
    refine iff_of_false nofun ?_
    rintro ⟨before, line, after, h, -⟩
    simp at h
  | @cons e line es ls he _ ih =>
    rw [credentialsFor_cons]
    by_cases hurl : Text.startsWith repository e.url
    · rw [if_pos hurl]
      constructor
      · rintro ⟨⟩
        exact ⟨[], line, ls, rfl, by simp, (lineAnswers_iff he).mpr ⟨hurl, rfl⟩⟩
      · rintro ⟨before, l, after, heq, hnone, hl⟩
        -- the entry answers, so the first line that answers is its own
        cases before with
        | nil =>
          cases heq
          rw [((lineAnswers_iff he).mp hl).2]
        | cons first before =>
          cases heq
          exact absurd ((lineAnswers_iff he).mpr ⟨hurl, rfl⟩)
            ((List.forall_mem_cons.mp hnone).1 e.credentials)
    · have hline : ∀ c', ¬ LineAnswers line repository c' :=
        fun c' hc => hurl ((lineAnswers_iff he).mp hc).1
      -- the entry does not answer, so the question goes to the lines behind it
      rw [if_neg hurl, ih]
      constructor
      · rintro ⟨before, l, after, rfl, hnone, hl⟩
        exact ⟨line :: before, l, after, rfl, List.forall_mem_cons.mpr ⟨hline, hnone⟩, hl⟩
      · rintro ⟨before, l, after, heq, hnone, hl⟩
        cases before with
        | nil =>
          cases heq
          exact absurd hl (hline c)
        | cons first before =>
          cases heq
          exact ⟨before, l, after, rfl, (List.forall_mem_cons.mp hnone).2, hl⟩

/-- There is no answer just if none of the lines is for the repository. -/
theorem credentialsFor_eq_none_iff (h : List.Forall₂ HttpAuthEntry.WrittenAs es ls) :
    credentialsFor ⟨es⟩ repository = none ↔ ∀ line ∈ ls, ∀ c, ¬ LineAnswers line repository c := by
  induction h with
  | nil => exact iff_of_true rfl (by simp)
  | @cons e line es ls he _ ih =>
    rw [credentialsFor_cons, List.forall_mem_cons]
    by_cases hurl : Text.startsWith repository e.url
    · rw [if_pos hurl]
      exact iff_of_false nofun fun hnone =>
        hnone.1 e.credentials ((lineAnswers_iff he).mpr ⟨hurl, rfl⟩)
    · rw [if_neg hurl, ih]
      exact (and_iff_right fun c' hc => hurl ((lineAnswers_iff he).mp hc).1).symm

theorem credentialsFor_append (es es' : List HttpAuthEntry) (repository : String) :
    credentialsFor ⟨es ++ es'⟩ repository =
      (credentialsFor ⟨es⟩ repository).or (credentialsFor ⟨es'⟩ repository) := by
  unfold credentialsFor
  rw [List.find?_append, Option.map_or]

/-! ### Files -/

theorem parse_eq (text : String) : parse text = (readLines (Text.lines text) 1).map HttpAuth.mk := by
  unfold parse
  cases readLines (Text.lines text) 1 <;> rfl

theorem parse_eq_ok_iff {h : HttpAuth} :
    parse text = .ok h ↔ List.Forall₂ HttpAuthEntry.WrittenAs h.entries
      ((Text.lines text).filter fun line => !Text.isBlank line) := by
  rw [parse_eq, map_eq_ok_iff, ← @readLines_eq_ok_iff _ _ 1]
  constructor
  · rintro ⟨es, hes, rfl⟩
    exact hes
  · exact fun hes => ⟨h.entries, hes, rfl⟩

theorem exists_parse_iff :
    (∃ h, parse text = .ok h) ↔ ∀ line ∈ Text.lines text, Readable line := by
  rw [← @exists_readLines_iff _ 1, parse_eq]
  simp only [map_eq_ok_iff]
  exact ⟨fun ⟨_, es, hes, _⟩ => ⟨es, hes⟩, fun ⟨es, hes⟩ => ⟨_, es, hes, rfl⟩⟩

/-- A file behind one whose last line is ended: the entries come behind those of the other. -/
theorem parse_append {text' : String} {h h' : HttpAuth}
    (hend : text = "" ∨ ∃ front, text = front ++ "\n") (hp : parse text = .ok h)
    (hp' : parse text' = .ok h') : parse (text ++ text') = .ok ⟨h.entries ++ h'.entries⟩ := by
  rw [parse_eq_ok_iff] at hp hp' ⊢
  rw [Text.lines_append hend, List.filter_append]
  exact List.rel_append hp hp'

theorem message_credentialLine (number count : Nat) :
    (ConfigError.invalid (.credentialLine number count)).message =
      "invalid value for .httpauth line " ++ toString number ++
        ": expected 4 comma-separated fields, got " ++ toString count := by
  have hstart : "invalid value for .httpauth line " = "invalid value for " ++ ".httpauth line " := by
    decide +kernel
  have hmiddle : ": expected 4 comma-separated fields, got " =
      ": " ++ "expected 4 comma-separated fields, got " := by decide +kernel
  rw [hstart, hmiddle]
  show "invalid value for " ++ (".httpauth line " ++ toString number) ++ ": " ++
    ("expected 4 comma-separated fields, got " ++ toString count) = _
  simp only [String.append_assoc]

/-- **A credentials file and its answers.**  A text is a credentials file if and only if every line that
is not blank has exactly three commas.  Then there is one entry for each line that is not blank, in order,
and a repository gets the trimmed third and fourth fields of the first line whose trimmed second field it
begins with.  A text that is none is refused for its first line that is wrong, by its number and its count
of fields.  Where one file is put behind another that is empty or ends its last line, the first one
answers if it can, and else the second. -/
theorem parse_answers_first (text : String) :
    ((∃ h, parse text = .ok h) ↔ ∀ line ∈ Text.lines text, Readable line) ∧
    (∀ h, parse text = .ok h →
      let written := (Text.lines text).filter fun line => !Text.isBlank line
      List.Forall₂ HttpAuthEntry.WrittenAs h.entries written ∧
      ∀ repository,
        (∀ c, h.credentialsFor repository = some c ↔
          ∃ before line after, written = before ++ line :: after ∧
            (∀ l ∈ before, ∀ c', ¬ LineAnswers l repository c') ∧ LineAnswers line repository c) ∧
        (h.credentialsFor repository = none ↔
          ∀ line ∈ written, ∀ c, ¬ LineAnswers line repository c)) ∧
    (∀ error, parse text = .error error ↔
      ∃ before line after, Text.lines text = before ++ line :: after ∧
        (∀ l ∈ before, Readable l) ∧ ¬ Readable line ∧
        error = .invalid (.credentialLine (before.length + 1) (line.toList.count ',' + 1)) ∧
        error.message = "invalid value for .httpauth line " ++ toString (before.length + 1) ++
          ": expected 4 comma-separated fields, got " ++ toString (line.toList.count ',' + 1)) ∧
    ∀ text' h h', (text = "" ∨ ∃ front, text = front ++ "\n") → parse text = .ok h →
      parse text' = .ok h' →
      ∃ h'', parse (text ++ text') = .ok h'' ∧ ∀ repository,
        h''.credentialsFor repository =
          (h.credentialsFor repository).or (h'.credentialsFor repository) := by
  refine ⟨exists_parse_iff, fun h hp => ?_, fun error => ?_, fun text' h h' hend hp hp' => ?_⟩
  · have hall := parse_eq_ok_iff.mp hp
    exact ⟨hall, fun repository =>
      ⟨fun c => credentialsFor_eq_some_iff hall, credentialsFor_eq_none_iff hall⟩⟩
  · rw [parse_eq, map_eq_error_iff, readLines_eq_error_iff]
    constructor
    · rintro ⟨before, line, after, hl, hall, hline, rfl⟩
      rw [Nat.add_comm 1]
      exact ⟨before, line, after, hl, hall, hline, rfl, message_credentialLine _ _⟩
    · rintro ⟨before, line, after, hl, hall, hline, rfl, -⟩
      rw [Nat.add_comm before.length]
      exact ⟨before, line, after, hl, hall, hline, rfl⟩
  · exact ⟨_, parse_append hend hp hp', credentialsFor_append h.entries h'.entries⟩

/-- A file with a blank line and a carriage return, in front of one with a wider entry; and a text whose
third line has a field too few. -/
theorem parse_answers_first_of_two_files :
    let first := "svn, https://h/private ,ann,s3\r\n \n"
    let second := ",https://h,,pass word"
    ∃ h h' h'', parse first = .ok h ∧ parse second = .ok h' ∧ parse (first ++ second) = .ok h'' ∧
      h.entries.length = 1 ∧
      h''.credentialsFor "https://h/private/app" = some ⟨"ann", "s3"⟩ ∧
      h''.credentialsFor "https://h/app" = some ⟨"", "pass word"⟩ ∧
      h''.credentialsFor "http://h" = none ∧
      parse (first ++ "svn, https://h, ann") = .error (.invalid (.credentialLine 3 3)) := by
  intro first second
  let h : HttpAuth := ⟨[⟨"https://h/private", ⟨"ann", "s3"⟩⟩]⟩
  let h' : HttpAuth := ⟨[⟨"https://h", ⟨"", "pass word"⟩⟩]⟩
  have hp : parse first = .ok h := by decide +kernel
  have hp' : parse second = .ok h' := by decide +kernel
  obtain ⟨-, -, -, hjoin⟩ := parse_answers_first first
  obtain ⟨h'', hp'', hanswers⟩ := hjoin second h h' (.inr ⟨"svn, https://h/private ,ann,s3\r\n ", rfl⟩)
    hp hp'
  refine ⟨h, h', h'', hp, hp', hp'', rfl, ?_, ?_, ?_, ?_⟩
  · rw [hanswers]
    decide +kernel
  · rw [hanswers]
    decide +kernel
  · rw [hanswers]
    decide +kernel
  · obtain ⟨-, -, herror, -⟩ := parse_answers_first (first ++ "svn, https://h, ann")
    have hcut : Text.lines (first ++ "svn, https://h, ann") =
        ["svn, https://h/private ,ann,s3", " "] ++ "svn, https://h, ann" :: [] := by decide +kernel
    refine (herror _).mpr ⟨_, _, _, hcut, ?_, ?_, rfl, message_credentialLine _ _⟩
    · unfold Readable
      decide +kernel
    · unfold Readable
      decide +kernel

end HttpAuth

end BuildPlan
