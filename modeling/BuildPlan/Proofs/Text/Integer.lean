import BuildPlan.Proofs.Text.Words
import BuildPlan.Text.Integer
import Mathlib.Data.List.Forall2

/-!
# Integer texts and the numbers they denote

A numeral is a row of ASCII digits that denotes a number, most significant digit first
(`Chars.IsNumeral`).  Leading zeros are allowed, so a number has many numerals; the one it is written as is
among them.  A text is read as an unsigned integer just if it is a numeral, possibly with a plus sign in
front, of a number in range (`Text.uint32?_eq_some_iff`), and as a signed one just if it is a numeral with
any sign or none, of a number in range (`Text.int64?_trim_eq_some_iff`, where blanks around it do not count).
-/

namespace BuildPlan

/-- A list is read piece by piece. -/
theorem mapM_eq_some_iff_forall₂ {α β : Type} {f : α → Option β} {as : List α} {bs : List β} :
    as.mapM f = some bs ↔ List.Forall₂ (fun b a => f a = some b) bs as := by
  induction as generalizing bs with
  | nil =>
    rw [List.forall₂_nil_right_iff]
    exact ⟨fun h => (Option.some.inj h).symm, fun h => congrArg some h.symm⟩
  | cons a as ih =>
    rw [List.mapM_cons, List.forall₂_cons_right_iff]
    constructor
    · intro h
      obtain ⟨b, hb, h⟩ := Option.bind_eq_some_iff.mp h
      obtain ⟨rest, hrest, h⟩ := Option.bind_eq_some_iff.mp h
      cases h
      exact ⟨b, rest, hb, ih.mp hrest, rfl⟩
    · rintro ⟨b, rest, hb, hrest, rfl⟩
      rw [hb, ih.mpr hrest]
      rfl

theorem exists_forall₂_iff {α β : Type} {r : α → β → Prop} {bs : List β} :
    (∃ as, List.Forall₂ r as bs) ↔ ∀ b ∈ bs, ∃ a, r a b := by
  induction bs with
  | nil => exact iff_of_true ⟨[], .nil⟩ (by simp)
  | cons b bs ih =>
    rw [List.forall_mem_cons, ← ih]
    constructor
    · rintro ⟨_, _ | ⟨ha, has⟩⟩
      exact ⟨⟨_, ha⟩, _, has⟩
    · rintro ⟨⟨a, ha⟩, as, has⟩
      exact ⟨a :: as, .cons ha has⟩

namespace Chars

variable {c : Char} {cs digits : List Char} {d n : Nat}

/-! ### Digits -/

/-- A row of digits that denotes a number. -/
structure IsNumeral (digits : List Char) (n : Nat) : Prop where
  ne_nil : digits ≠ []
  isDigit : ∀ c ∈ digits, c.isDigit
  value : Nat.ofDigitChars 10 digits 0 = n

/-- A number is written as one of its numerals. -/
theorem isNumeral_toDigits (n : Nat) : IsNumeral (Nat.toDigits 10 n) n :=
  ⟨Nat.toDigits_ne_nil, fun _ => Nat.isDigit_of_mem_toDigits (by decide) (by decide),
    Nat.ofDigitChars_ten_toDigits⟩

theorem isNumeral_repr (n : Nat) : IsNumeral (Nat.repr n).toList n := by
  rw [Nat.toList_repr]
  exact isNumeral_toDigits n

theorem exists_digitChar (h : c.isDigit) : ∃ d < 10, c = Nat.digitChar d := by
  obtain ⟨hlow, hhigh⟩ : 48 ≤ c.toNat ∧ c.toNat ≤ 57 := Char.isDigit_iff_toNat.mp h
  have hd : c.toNat - 48 < 10 := by omega
  refine ⟨c.toNat - 48, hd, Char.toNat_inj.mp ?_⟩
  rw [Nat.toNat_digitChar_of_lt_ten hd]
  omega

theorem isBlank_of_isDigit (h : c.isDigit) : isBlank c = false := by
  have hall : ∀ d < 10, isBlank (Nat.digitChar d) = false := by decide
  obtain ⟨d, hd, rfl⟩ := exists_digitChar h
  exact hall d hd

theorem digit?_eq_some_iff : digit? c = some d ↔ c.isDigit ∧ d = c.toNat - '0'.toNat := by
  have hrange : ('0' ≤ c ∧ c ≤ '9') ↔ c.isDigit :=
    Char.isDigit_iff_toNat.symm
  unfold digit?
  by_cases h : c.isDigit
  · rw [if_pos (hrange.mpr h)]
    simp [h, eq_comm]
  · rw [if_neg (mt hrange.mp h)]
    simp [h]

theorem mapM_digit?_eq_some_iff {ds : List Nat} :
    cs.mapM digit? = some ds ↔
      (∀ c ∈ cs, c.isDigit) ∧ ds = cs.map fun c => c.toNat - '0'.toNat := by
  rw [mapM_eq_some_iff_forall₂]
  simp only [digit?_eq_some_iff]
  induction cs generalizing ds with
  | nil => simp
  | cons c cs ih =>
    rw [List.forall₂_cons_right_iff]
    simp only [ih, List.forall_mem_cons, List.map_cons]
    constructor
    · rintro ⟨d, rest, ⟨hc, rfl⟩, ⟨hcs, rfl⟩, rfl⟩
      exact ⟨⟨hc, hcs⟩, rfl⟩
    · rintro ⟨⟨hc, hcs⟩, rfl⟩
      exact ⟨_, _, ⟨hc, rfl⟩, ⟨hcs, rfl⟩, rfl⟩

theorem ofDigits_eq_ofDigitChars (cs : List Char) :
    ofDigits 10 (cs.map fun c => c.toNat - '0'.toNat) = Nat.ofDigitChars 10 cs 0 := by
  unfold ofDigits
  rw [List.foldl_map, Nat.ofDigitChars_eq_foldl]
  simp only [Nat.mul_comm]

/-- What is read from digits is the number that they denote. -/
theorem nat?_eq_some_iff : nat? cs = some n ↔ IsNumeral cs n := by
  unfold nat?
  by_cases hne : cs = []
  · subst hne
    exact iff_of_false nofun fun h => h.ne_nil rfl
  · rw [if_neg (by simpa using hne), Option.map_eq_some_iff]
    constructor
    · rintro ⟨ds, hds, rfl⟩
      obtain ⟨hdigits, rfl⟩ := mapM_digit?_eq_some_iff.mp hds
      exact ⟨hne, hdigits, (ofDigits_eq_ofDigitChars cs).symm⟩
    · rintro ⟨-, hdigits, rfl⟩
      exact ⟨_, mapM_digit?_eq_some_iff.mpr ⟨hdigits, rfl⟩, ofDigits_eq_ofDigitChars cs⟩

/-! ### Signs -/

/-- There is no sign in front of a numeral. -/
theorem IsNumeral.ne_cons (h : IsNumeral digits n) (hc : c.isDigit = false) : digits ≠ c :: cs := by
  rintro rfl
  rw [h.isDigit c List.mem_cons_self] at hc
  cases hc

/-- A plus sign counts only once, and digits do without. -/
theorem unsigned?_eq_some_iff :
    unsigned? cs = some n ↔ ∃ digits, (cs = digits ∨ cs = '+' :: digits) ∧ IsNumeral digits n := by
  unfold unsigned?
  split
  · next digits =>
    rw [nat?_eq_some_iff]
    constructor
    · exact fun h => ⟨digits, Or.inr rfl, h⟩
    · rintro ⟨digits', rfl | heq, h⟩
      · -- a numeral does not begin with a sign
        exact absurd rfl (h.ne_cons (by decide))
      · rwa [(List.cons.inj heq).2]
  · next hplus =>
    rw [nat?_eq_some_iff]
    constructor
    · exact fun h => ⟨cs, Or.inl rfl, h⟩
    · rintro ⟨digits, rfl | rfl, h⟩
      · exact h
      · exact absurd rfl (hplus digits)

/-- The text of an integer: a numeral, possibly with a sign in front. -/
inductive IsSigned : List Char → Int → Prop
  | bare {digits : List Char} {n : Nat} (h : IsNumeral digits n) : IsSigned digits n
  | plus {digits : List Char} {n : Nat} (h : IsNumeral digits n) : IsSigned ('+' :: digits) n
  | minus {digits : List Char} {n : Nat} (h : IsNumeral digits n) : IsSigned ('-' :: digits) (-n)

/-- Digits are read with at most one sign in front. -/
theorem int?_eq_some_iff {m : Int} : int? cs = some m ↔ IsSigned cs m := by
  unfold int?
  split
  · next digits =>
    constructor
    · intro h
      obtain ⟨n, hn, rfl⟩ := Option.map_eq_some_iff.mp h
      exact .plus (nat?_eq_some_iff.mp hn)
    · rintro (h | h)
      · exact absurd rfl (h.ne_cons (by decide))
      · rw [nat?_eq_some_iff.mpr h]
        rfl
  · next digits =>
    constructor
    · intro h
      obtain ⟨n, hn, rfl⟩ := Option.map_eq_some_iff.mp h
      exact .minus (nat?_eq_some_iff.mp hn)
    · rintro (h | - | h)
      · exact absurd rfl (h.ne_cons (by decide))
      · rw [nat?_eq_some_iff.mpr h]
        rfl
  · next hplus hminus =>
    constructor
    · intro h
      obtain ⟨n, hn, rfl⟩ := Option.map_eq_some_iff.mp h
      exact .bare (nat?_eq_some_iff.mp hn)
    · rintro (h | h | h)
      · rw [nat?_eq_some_iff.mpr h]
        rfl
      · exact absurd rfl (hplus _)
      · exact absurd rfl (hminus _)

theorem isBlank_of_isSigned {m : Int} (h : IsSigned cs m) (hc : c ∈ cs) : isBlank c = false := by
  cases h with
  | bare h => exact isBlank_of_isDigit (h.isDigit c hc)
  | plus h =>
    rcases List.mem_cons.mp hc with rfl | hc
    · decide
    · exact isBlank_of_isDigit (h.isDigit c hc)
  | minus h =>
    rcases List.mem_cons.mp hc with rfl | hc
    · decide
    · exact isBlank_of_isDigit (h.isDigit c hc)

/-- An integer is written as one of its texts. -/
theorem isSigned_toString (m : Int) : IsSigned (toString m).toList m := by
  cases m with
  | ofNat n => exact .bare (isNumeral_repr n)
  | negSucc n =>
    show IsSigned ("-" ++ Nat.repr n.succ).toList _
    rw [String.toList_append]
    exact .minus (isNumeral_repr n.succ)

end Chars

namespace Text

variable {s : String}

/-- The text is a numeral of the number, or a plus sign and one. -/
def IsUnsigned (s : String) (n : Nat) : Prop :=
  ∃ digits, (s.toList = digits ∨ s.toList = '+' :: digits) ∧ Chars.IsNumeral digits n

theorem isUnsigned_repr (n : Nat) : IsUnsigned (Nat.repr n) n :=
  ⟨_, Or.inl rfl, Chars.isNumeral_repr n⟩

/-- A text is read as an integer of 32 bits just if it denotes that integer. -/
theorem uint32?_eq_some_iff {n : UInt32} : uint32? s = some n ↔ IsUnsigned s n.toNat := by
  unfold uint32? IsUnsigned
  simp only [← Chars.unsigned?_eq_some_iff, Option.map_eq_some_iff, Option.filter_eq_some_iff,
    decide_eq_true_eq]
  constructor
  · rintro ⟨m, ⟨hm, hlt⟩, rfl⟩
    rwa [UInt32.toNat_ofNat_of_lt' hlt]
  · exact fun h => ⟨n.toNat, ⟨h, n.toNat_lt_size⟩, UInt32.ofNat_toNat⟩

/-- The text is the text of the integer, with any blanks around it. -/
def Denotes (s : String) (m : Int) : Prop :=
  Chars.IsSigned (trim s).toList m

/-- An integer that is written with blanks around it is denoted by what is written. -/
theorem denotes_toString {front rest : String} (hfront : isBlank front) (hrest : isBlank rest)
    (m : Int) : Denotes (front ++ toString m ++ rest) m := by
  have hsigned := Chars.isSigned_toString m
  unfold Denotes
  rwa [trim_append_of_blank hfront hrest fun _ => Chars.isBlank_of_isSigned hsigned]

/-- A text denotes one integer at most. -/
theorem Denotes.unique {a b : Int} (ha : Denotes s a) (hb : Denotes s b) : a = b :=
  Option.some.inj ((Chars.int?_eq_some_iff.mpr ha).symm.trans (Chars.int?_eq_some_iff.mpr hb))

/-- A text is read as an integer of 64 bits just if it denotes that integer and this is in range. -/
theorem int64?_trim_eq_some_iff {m : Int} :
    int64? (trim s) = some m ↔
      Denotes s m ∧ -9223372036854775808 ≤ m ∧ m ≤ 9223372036854775807 := by
  have hmin : Int64.minValue.toInt = -9223372036854775808 := by decide
  have hmax : Int64.maxValue.toInt = 9223372036854775807 := by decide
  rw [int64?, Option.filter_eq_some_iff, Chars.int?_eq_some_iff, decide_eq_true_eq, hmin, hmax]
  rfl

end Text

end BuildPlan
