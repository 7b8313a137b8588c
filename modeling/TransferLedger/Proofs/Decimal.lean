import TransferLedger.Text.Blank
import TransferLedger.Text.Decimal

/-! Written numbers read back. -/

namespace TransferLedger.Text.Decimal

variable {width number : Nat} {digits rest : List Char}

theorem isDigit_of_mem_padded {c : Char} (member : c ∈ padded width number) :
    c.isDigit = true := by
  rw [padded] at member
  rcases List.mem_append.1 member with zero | digit
  · rw [(List.mem_replicate.1 zero).2]
    rfl
  · exact Nat.isDigit_of_mem_toDigits (by decide) (by decide) digit

theorem length_padded (short : (Nat.toDigits 10 number).length ≤ width) :
    (padded width number).length = width := by
  simp only [padded, List.length_append, List.length_replicate]
  omega

theorem padded_eq_cons (wide : 0 < width) (short : (Nat.toDigits 10 number).length ≤ width) :
    ∃ first later, padded width number = first :: later ∧ first.isDigit = true := by
  have length := length_padded short
  cases written : padded width number with
  | nil =>
      rw [written, List.length_nil] at length
      omega
  | cons first later =>
      refine ⟨first, later, rfl, ?_⟩
      have member : first ∈ padded width number := by
        rw [written]
        exact List.mem_cons_self
      exact isDigit_of_mem_padded member

/-- A number is written without a leading zero, unless it is zero. -/
theorem toDigits_cons (positive : 0 < number) :
    ∃ first rest, Nat.toDigits 10 number = first :: rest ∧ first ≠ '0' := by
  induction number using Nat.strongRecOn with
  | ind number ih =>
      by_cases single : number < 10
      · refine ⟨number.digitChar, [], Nat.toDigits_of_lt_base single, fun zero => ?_⟩
        rw [Nat.digitChar_eq_zero] at zero
        omega
      · obtain ⟨first, rest, higher, nonzero⟩ := ih (number / 10) (by omega) (by omega)
        refine ⟨first, rest ++ [(number % 10).digitChar], ?_, nonzero⟩
        rw [Nat.toDigits_of_base_le (by decide) (by omega), higher, List.cons_append]

/-- Reading takes a run of digits up to the width or to the next character. -/
theorem leading_append (all : ∀ c ∈ digits, c.isDigit = true) (short : digits.length ≤ width)
    (ends : digits.length = width ∨ ∀ c, rest.head? = some c → c.isDigit = false) :
    leading width (digits ++ rest) = digits := by
  rw [leading, List.take_append, List.take_of_length_le short, List.takeWhile_append_of_pos all]
  have stops : (rest.take (width - digits.length)).takeWhile Char.isDigit = [] := by
    rcases ends with full | stops
    · rw [full, Nat.sub_self, List.take_zero, List.takeWhile_nil]
    · cases rest with
      | nil => rw [List.take_nil, List.takeWhile_nil]
      | cons c later =>
          cases width - digits.length with
          | zero => rw [List.take_zero, List.takeWhile_nil]
          | succ room =>
              have other : ¬ c.isDigit = true := by simp [stops c rfl]
              rw [List.take_succ_cons, List.takeWhile_cons_of_neg other]
  rw [stops, List.append_nil]

theorem read?_padded (wide : 0 < width) (short : (Nat.toDigits 10 number).length ≤ width) :
    read? width (padded width number ++ rest) = some (number, rest) := by
  have length := length_padded short
  have front : leading width (padded width number ++ rest) = padded width number :=
    leading_append (fun _ => isDigit_of_mem_padded) (Nat.le_of_eq length) (Or.inl length)
  have filled : (padded width number).isEmpty = false := by
    obtain ⟨first, later, written, _⟩ := padded_eq_cons wide short
    rw [written]
    rfl
  rw [read?]
  simp only [front, filled, Bool.false_eq_true, if_false, value_padded, List.drop_left]

/-! ## Blanks -/

theorem isBlank_of_isDigit {c : Char} (digit : c.isDigit = true) : Blank.isBlank c = false := by
  have range : 48 ≤ c.toNat ∧ c.toNat ≤ 57 := by
    simpa [Char.isDigit, UInt32.le_iff_toNat_le] using digit
  simp only [Blank.isBlank, Blank.ranges, List.any_cons, List.any_nil, Bool.or_false,
    Bool.or_eq_false_iff, Bool.and_eq_false_iff, decide_eq_false_iff_not]
  omega

theorem skip_cons {c : Char} (solid : Blank.isBlank c = false) :
    Blank.skip (c :: rest) = c :: rest := by
  rw [Blank.skip, List.dropWhile_cons_of_neg (by simp [solid])]

theorem skip_padded (wide : 0 < width) (short : (Nat.toDigits 10 number).length ≤ width) :
    Blank.skip (padded width number ++ rest) = padded width number ++ rest := by
  obtain ⟨first, later, written, digit⟩ := padded_eq_cons wide short
  rw [written]
  exact skip_cons (isBlank_of_isDigit digit)

end TransferLedger.Text.Decimal
