import TransferLedger.Proofs.Json.Grammar

/-! Spelled numbers read.

The digits before the fraction are a run that the next part ends, so the parts of a number are
found where they were put.
-/

namespace TransferLedger.Json.Numeral

variable {numeral : Numeral} {c : Char} {text sign digits tail fraction exponent : List Char}

theorem isEmpty_digits (isDigits : Digits digits) : digits.isEmpty = false := by
  simpa using isDigits.1

theorem takeWhile_digits (all : ∀ c ∈ digits, c.isDigit = true)
    (ends : ∀ c, tail.head? = some c → c.isDigit = false) :
    (digits ++ tail).takeWhile Char.isDigit = digits := by
  rw [List.takeWhile_append_of_pos all]
  cases tail with
  | nil => rw [List.takeWhile_nil, List.append_nil]
  | cons c later => rw [List.takeWhile_cons_of_neg (by simp [ends c rfl]), List.append_nil]

theorem dropWhile_digits (all : ∀ c ∈ digits, c.isDigit = true)
    (ends : ∀ c, tail.head? = some c → c.isDigit = false) :
    (digits ++ tail).dropWhile Char.isDigit = tail := by
  rw [List.dropWhile_append_of_pos all]
  cases tail with
  | nil => rfl
  | cons c later => rw [List.dropWhile_cons_of_neg (by simp [ends c rfl])]

theorem toLower_digit (digit : c.isDigit = true) : c.toLower = c := by
  have small : c.val ≤ '9'.val := by simpa [Char.isDigit] using (Bool.and_eq_true_iff.1 digit).2
  have below : ¬ (c.val ≥ 'A'.val ∧ c.val ≤ 'Z'.val) := by
    rintro ⟨letter, -⟩
    exact absurd (UInt32.le_trans letter small) (by decide)
  exact dif_neg below

theorem map_toLower_digits (all : ∀ c ∈ digits, c.isDigit = true) :
    digits.map Char.toLower = digits := by
  rw [List.map_congr_left fun c member => toLower_digit (all c member), List.map_id']

theorem lower_exponent (isExponent : Exponent exponent) :
    exponent = [] ∨ ∃ sign digits, exponent.map Char.toLower = 'e' :: (sign ++ digits) ∧
      sign ∈ [[], ['+'], ['-']] ∧ Digits digits := by
  cases isExponent with
  | absent => exact .inl rfl
  | @power mark sign digits letter signed isDigits =>
      have lower : mark.toLower = 'e' := by
        rcases letter with rfl | rfl
        · decide
        · decide
      have unmoved : ∀ sign ∈ [[], ['+'], ['-']], sign.map Char.toLower = sign := by decide
      refine .inr ⟨sign, digits, ?_, signed, isDigits⟩
      rw [List.map_cons, List.map_append, lower, unmoved sign signed,
        map_toLower_digits isDigits.2]

theorem isNumeralTail_exponent (isExponent : Exponent exponent) :
    isNumeralTail exponent = true := by
  rcases lower_exponent isExponent with rfl | ⟨sign, digits, lower, signed, isDigits⟩
  · rfl
  have all : digits.all Char.isDigit = true := List.all_eq_true.2 isDigits.2
  simp only [isNumeralTail, lower]
  simp only [List.mem_cons, List.not_mem_nil, or_false] at signed
  rcases signed with rfl | rfl | rfl
  · cases digits with
    | nil => exact absurd rfl isDigits.1
    | cons first rest =>
        have digit := isDigits.2 first List.mem_cons_self
        have plus : first ≠ '+' := by rintro rfl; cases digit
        have minus : first ≠ '-' := by rintro rfl; cases digit
        simpa [plus, minus] using all
  · simp [isDigits.1, all]
  · simp [isDigits.1, all]

theorem isNumeralTail_point (isDigits : Digits digits) (isExponent : Exponent exponent) :
    isNumeralTail ('.' :: (digits ++ exponent)) = isNumeralTail exponent := by
  have point : Char.toLower '.' = '.' := by decide
  have ends : ∀ c, (exponent.map Char.toLower).head? = some c → c.isDigit = false := by
    intro c begins
    rcases lower_exponent isExponent with rfl | ⟨sign, digits, lower, -, -⟩
    · cases begins
    · rw [lower] at begins
      cases begins
      rfl
  simp only [isNumeralTail, List.map_cons, List.map_append, point, map_toLower_digits isDigits.2,
    takeWhile_digits isDigits.2 ends, dropWhile_digits isDigits.2 ends, isEmpty_digits isDigits,
    Bool.not_false, Bool.true_and]
  rcases lower_exponent isExponent with rfl | ⟨sign, digits, lower, -, -⟩
  · rfl
  · rw [lower]
    rfl

/-- A fraction and an exponent, each of which may be missing. -/
theorem isNumeralTail_append (isFraction : Fraction fraction) (isExponent : Exponent exponent) :
    isNumeralTail (fraction ++ exponent) = true := by
  cases isFraction with
  | absent => exact isNumeralTail_exponent isExponent
  | point isDigits =>
      exact (isNumeralTail_point isDigits isExponent).trans (isNumeralTail_exponent isExponent)

theorem no_leading_zero (whole : Whole digits) :
    ¬ (digits.head? = some '0' ∧ digits.length ≠ 1) := by
  rintro ⟨zero, long⟩
  rw [whole.leading zero] at long
  exact long rfl

section

variable (whole : Whole digits) (ends : ∀ c, tail.head? = some c → c.isDigit = false)
include whole ends

theorem read?_unsigned :
    read? (digits ++ tail) =
      if tail = [] then some (.integer (Nat.ofDigitChars 10 digits 0 : Nat))
      else if isNumeralTail tail then some (.real (String.ofList (digits ++ tail)))
      else none := by
  have minus : (digits ++ tail).head? ≠ some '-' := by
    cases digits with
    | nil => exact absurd rfl whole.digits.1
    | cons first later =>
        rintro minus
        cases minus
        cases whole.digits.2 '-' List.mem_cons_self
  simp only [read?, minus, decide_false, Bool.false_eq_true, if_false,
    takeWhile_digits whole.digits.2 ends, dropWhile_digits whole.digits.2 ends,
    isEmpty_digits whole.digits,
    Bool.false_or, Bool.and_eq_true, decide_eq_true_eq, Bool.false_and, List.isEmpty_iff,
    Text.Decimal.value_eq_ofDigitChars]
  rw [if_neg (no_leading_zero whole)]

theorem read?_signed :
    read? ('-' :: (digits ++ tail)) =
      if tail = [] then
        if digits = ['0'] then some (.real "-0")
        else some (.integer (-(Nat.ofDigitChars 10 digits 0 : Int)))
      else if isNumeralTail tail then some (.real (String.ofList ('-' :: (digits ++ tail))))
      else none := by
  simp only [read?, List.head?_cons, decide_true, if_true, List.drop_one, List.tail_cons,
    takeWhile_digits whole.digits.2 ends, dropWhile_digits whole.digits.2 ends,
    isEmpty_digits whole.digits,
    Bool.false_or, Bool.and_eq_true, decide_eq_true_eq, Bool.true_and, List.isEmpty_iff,
    Text.Decimal.value_eq_ofDigitChars]
  rw [if_neg (no_leading_zero whole)]

end

theorem fraction_append_ends (isFraction : Fraction fraction) (isExponent : Exponent exponent) :
    ∀ c, (fraction ++ exponent).head? = some c → c.isDigit = false := by
  rintro c begins
  cases isFraction with
  | absent =>
      cases isExponent with
      | absent => cases begins
      | power letter _ _ =>
          cases begins
          rcases letter with rfl | rfl
          · rfl
          · rfl
  | point _ =>
      cases begins
      rfl

/-- Every spelled number is read. -/
theorem read?_of_spells (spelled : numeral.Spells text) : read? text = some numeral := by
  cases spelled with
  | natural whole =>
      have read : read? (text ++ []) = _ := read?_unsigned whole nofun
      rwa [List.append_nil, if_pos rfl] at read
  | @negative digits whole nonzero =>
      have read : read? ('-' :: (digits ++ [])) = _ := read?_signed whole nofun
      rwa [List.append_nil, if_pos rfl, if_neg nonzero] at read
  | negativeZero => rfl
  | @real sign digits fraction exponent signed whole isFraction isExponent proper =>
      have ends := fraction_append_ends isFraction isExponent
      have tail := isNumeralTail_append isFraction isExponent
      simp only [List.mem_cons, List.not_mem_nil, or_false] at signed
      rcases signed with rfl | rfl
      · exact (read?_unsigned whole ends).trans (by rw [if_neg proper, if_pos tail]; rfl)
      · exact (read?_signed whole ends).trans (by rw [if_neg proper, if_pos tail]; rfl)

/-- The four parts of a spelled number. -/
theorem Spells.parts (spelled : numeral.Spells text) :
    ∃ sign whole fraction exponent, sign ∈ [[], ['-']] ∧ Whole whole ∧ Fraction fraction ∧
      Exponent exponent ∧ text = sign ++ (whole ++ (fraction ++ exponent)) := by
  cases spelled with
  | natural whole =>
      exact ⟨[], _, [], [], by decide, whole, .absent, .absent, by simp⟩
  | negative whole _ =>
      exact ⟨['-'], _, [], [], by decide, whole, .absent, .absent, by simp⟩
  | negativeZero =>
      have zero : Whole ['0'] := ⟨by decide, fun _ => rfl⟩
      exact ⟨['-'], _, [], [], by decide, zero, .absent, .absent, rfl⟩
  | real signed whole isFraction isExponent _ =>
      exact ⟨_, _, _, _, signed, whole, isFraction, isExponent, rfl⟩

theorem isNumeralChar_of_isDigit (digit : c.isDigit = true) : Scanner.isNumeralChar c = true := by
  rw [Scanner.isNumeralChar, digit]
  rfl

theorem isNumeralChar_of_sign (signed : sign ∈ [[], ['+'], ['-']]) (member : c ∈ sign) :
    Scanner.isNumeralChar c = true := by
  simp only [List.mem_cons, List.not_mem_nil, or_false] at signed
  rcases signed with rfl | rfl | rfl
  · cases member
  · cases List.mem_singleton.1 member
    rfl
  · cases List.mem_singleton.1 member
    rfl

theorem Spells.isNumeralChar (spelled : numeral.Spells text) (member : c ∈ text) :
    Scanner.isNumeralChar c = true := by
  obtain ⟨sign, whole, fraction, exponent, signed, isWhole, isFraction, isExponent, rfl⟩ :=
    spelled.parts
  simp only [List.mem_append] at member
  rcases member with inSign | inWhole | inFraction | inExponent
  · have wider : ∀ sign ∈ [[], ['-']], sign ∈ [[], ['+'], ['-']] := by decide
    exact isNumeralChar_of_sign (wider sign signed) inSign
  · exact isNumeralChar_of_isDigit (isWhole.digits.2 c inWhole)
  · cases isFraction with
    | absent => cases inFraction
    | point isDigits =>
        rcases List.mem_cons.1 inFraction with rfl | digit
        · rfl
        · exact isNumeralChar_of_isDigit (isDigits.2 c digit)
  · cases isExponent with
    | absent => cases inExponent
    | power letter signed isDigits =>
        simp only [List.mem_cons, List.mem_append] at inExponent
        rcases inExponent with rfl | inSign | digit
        · rcases letter with rfl | rfl
          · rfl
          · rfl
        · exact isNumeralChar_of_sign signed inSign
        · exact isNumeralChar_of_isDigit (isDigits.2 c digit)

theorem Spells.begins (spelled : numeral.Spells text) :
    ∃ first rest, text = first :: rest ∧ (first = '-' ∨ first.isDigit = true) := by
  obtain ⟨sign, whole, fraction, exponent, signed, isWhole, -, -, rfl⟩ := spelled.parts
  simp only [List.mem_cons, List.not_mem_nil, or_false] at signed
  rcases signed with rfl | rfl
  · cases whole with
    | nil => exact absurd rfl isWhole.digits.1
    | cons first rest =>
        exact ⟨first, _, rfl, .inr (isWhole.digits.2 first List.mem_cons_self)⟩
  · exact ⟨_, _, rfl, .inl rfl⟩

end TransferLedger.Json.Numeral
