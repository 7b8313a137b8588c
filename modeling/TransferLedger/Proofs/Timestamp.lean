import TransferLedger.Proofs.Decimal
import TransferLedger.Timestamp

/-! Written moments read back.

Years of four digits are written without a sign, so every part of such a moment
fills its width and the reader cannot take more or less of it.
-/

namespace TransferLedger.Timestamp

open Text.Decimal (padded value leading read?_padded skip_padded skip_cons isDigit_of_mem_padded
  length_padded padded_eq_cons)

namespace Reader

variable {α β : Type} {text rest : List Char} {number : Nat}

theorem bind_run {reader : Reader α} {next : α → Reader β} {value : α}
    (read : reader text = some (value, rest)) : (reader >>= next) text = next value rest := by
  change (reader text >>= fun result => next result.1 result.2) = _
  rw [read]
  rfl

theorem blanks_run : blanks text = some ((), Text.Blank.skip text) :=
  rfl

/-- Blanks may stand here, but none do. -/
theorem blanks_none (solid : Text.Blank.skip text = text) : blanks text = some ((), text) := by
  rw [blanks_run, solid]

theorem exactly_run {c : Char} {accepted : List Char} (known : accepted.contains c = true) :
    exactly accepted (c :: rest) = some ((), rest) :=
  if_pos known

theorem number_run (small : number < 100) :
    Reader.number 2 (padded 2 number ++ rest) = some (number, rest) := by
  have short : (Nat.toDigits 10 number).length ≤ 2 :=
    (Nat.length_toDigits_le_iff (by decide) (by decide)).2 small
  rw [Reader.number, bind_run (blanks_none (skip_padded (by decide) short))]
  exact read?_padded (by decide) short

theorem below_run {bound : Nat} {reader : Reader Nat} (inside : number < bound)
    (read : reader text = some (number, rest)) :
    below bound reader text = some (⟨number, inside⟩, rest) := by
  rw [below, bind_run read, dif_pos inside]
  rfl

theorem get_run : (get : Reader (List Char)) text = some (text, text) :=
  rfl

theorem year_run {year : Int} (positive : 0 ≤ year) (small : year ≤ 9999) :
    Reader.year (yearText year ++ rest) = some (year, rest) := by
  have short : (Nat.toDigits 10 year.toNat).length ≤ 4 :=
    (Nat.length_toDigits_le_iff (by decide) (by decide)).2
      (show year.toNat < 10000 by omega)
  have read : Text.Decimal.read? 4 (padded 4 year.toNat ++ rest) =
      some (year.toNat, rest) := read?_padded (by decide) short
  have solid : Text.Blank.skip (padded 4 year.toNat ++ rest) =
      padded 4 year.toNat ++ rest := skip_padded (by decide) short
  obtain ⟨first, later, written, digit⟩ := padded_eq_cons (by decide) short
  have unsigned : first ≠ '-' ∧ first ≠ '+' := by
    constructor <;>
      · rintro rfl
        cases digit
  rw [yearText, if_pos ⟨positive, small⟩, Reader.year, bind_run (blanks_none solid),
    bind_run get_run]
  rw [written, List.cons_append] at read ⊢
  simp only [List.cons.injEq, unsigned, false_and, imp_self, implies_true, read,
    Option.map_some, Int.toNat_of_nonneg positive]

/-- What is read of a fraction that is written with the digits it needs. -/
theorem fraction_digits {width number scale : Nat} (short : (Nat.toDigits 10 number).length ≤ width)
    (wide : 0 < width) (narrow : width ≤ 9)
    (scaled : value (padded width number ++ List.replicate (9 - width) '0') = scale * number) :
    fraction ('.' :: (padded width number ++ ['Z'])) = some (scale * number, ['Z']) := by
  have length := length_padded short
  have digits : leading 9 (padded width number ++ ['Z']) = padded width number := by
    apply Text.Decimal.leading_append (fun _ => isDigit_of_mem_padded) (by omega)
    exact Or.inr fun c first => by cases first; rfl
  have filled : (padded width number).isEmpty = false := by
    obtain ⟨first, later, written, _⟩ := padded_eq_cons wide short
    rw [written]
    rfl
  have rest : (padded width number ++ ['Z']).dropWhile Char.isDigit = ['Z'] := by
    rw [List.dropWhile_append_of_pos fun _ => isDigit_of_mem_padded]
    rfl
  simp only [fraction, digits, filled, length, scaled, rest, Bool.false_eq_true, if_false]

theorem scaled_padded {scale count : Nat} (power : Nat.pow 10 count = scale)
    (width number : Nat) :
    value (padded width number ++ List.replicate count '0') = scale * number := by
  rw [Text.Decimal.value_eq_ofDigitChars, Nat.ofDigitChars_append,
    Nat.ofDigitChars_replicate_zero, ← power, ← Text.Decimal.value_eq_ofDigitChars]
  exact congrArg (Nat.pow 10 count * ·) (Text.Decimal.value_padded width number)

theorem fraction_run {nanos : Nat} (small : nanos < 1000000000) :
    fraction (fractionText nanos ++ ['Z']) = some (nanos, ['Z']) := by
  rw [fractionText]
  split
  · rename_i zero
    rw [zero]
    rfl
  · split
    · rename_i millis
      have short : (Nat.toDigits 10 (nanos / 1000000)).length ≤ 3 :=
        (Nat.length_toDigits_le_iff (by decide) (by decide)).2
          (show nanos / 1000000 < 1000 by omega)
      have read := fraction_digits short (by decide) (by decide)
        (@scaled_padded 1000000 6 rfl 3 (nanos / 1000000))
      have exact : 1000000 * (nanos / 1000000) = nanos := by omega
      rwa [exact] at read
    · split
      · rename_i micros
        have short : (Nat.toDigits 10 (nanos / 1000)).length ≤ 6 :=
          (Nat.length_toDigits_le_iff (by decide) (by decide)).2
            (show nanos / 1000 < 1000000 by omega)
        have read := fraction_digits short (by decide) (by decide)
          (@scaled_padded 1000 3 rfl 6 (nanos / 1000))
        have exact : 1000 * (nanos / 1000) = nanos := by omega
        rwa [exact] at read
      · have short : (Nat.toDigits 10 nanos).length ≤ 9 :=
          (Nat.length_toDigits_le_iff (by decide) (by decide)).2 small
        have read := fraction_digits short (by decide) (by decide) (@scaled_padded 1 0 rfl 9 nanos)
        rwa [Nat.one_mul] at read

theorem offset_utc : offset ['Z'] = some (0, []) :=
  rfl

end Reader

open Reader

theorem make?_eq (date : Date) : Date.make? date.year date.month date.day = some date :=
  dif_pos date.valid

theorem month_lt (date : Date) : date.month < 100 := by
  have := date.valid.2.1
  omega

theorem day_lt (date : Date) : date.day < 100 := by
  have inside := date.valid.2.2.2
  rw [Date.daysIn] at inside
  split at inside
  · split at inside <;> omega
  · split at inside <;> omega

/-- Nothing moves a clock reading that is in UTC already. -/
theorem fromOffset?_zero (clock : Timestamp) : fromOffset? 0 clock = some clock := by
  obtain ⟨date, hour, minute, second, nanos⟩ := clock
  have early : ¬ (hour.val * 60 + minute.val - 0 : Int) < 0 := by omega
  have late : ¬ 1440 ≤ (hour.val * 60 + minute.val - 0 : Int) := by omega
  have ofDay : ((hour.val * 60 + minute.val - 0 : Int) % 1440).toNat =
      hour.val * 60 + minute.val := by omega
  have hours : Fin.ofNat 24 ((hour.val * 60 + minute.val) / 60) = hour := by
    apply Fin.ext
    simp only [Fin.val_ofNat]
    omega
  have minutes : Fin.ofNat 60 ((hour.val * 60 + minute.val) % 60) = minute := by
    apply Fin.ext
    simp only [Fin.val_ofNat]
    omega
  simp only [fromOffset?, early, late, ofDay, hours, minutes, if_false]
  rfl

/-- A moment whose year has four digits is read back as it was written. -/
theorem ofText?_toText {moment : Timestamp} (positive : 0 ≤ moment.date.year)
    (small : moment.date.year ≤ 9999) : ofText? moment.toText = some moment := by
  obtain ⟨date, hour, minute, second, nanos⟩ := moment
  have read : Reader.moment (toText { date, hour, minute, second, nanos }).toList =
      some ({ date, hour, minute, second, nanos }, []) := by
    have dash (rest : List Char) : Text.Blank.skip ('-' :: rest) = '-' :: rest := skip_cons rfl
    have colon (rest : List Char) : Text.Blank.skip (':' :: rest) = ':' :: rest := skip_cons rfl
    rw [toText, String.toList_ofList, Reader.moment,
      bind_run (year_run positive small), bind_run (blanks_none (dash _)),
      bind_run (exactly_run rfl), bind_run (number_run (month_lt date)),
      bind_run (blanks_none (dash _)), bind_run (exactly_run rfl),
      bind_run (number_run (day_lt date)), make?_eq date]
    dsimp only
    rw [bind_run (exactly_run rfl), bind_run (below_run hour.isLt (number_run (by omega))),
      bind_run (blanks_none (colon _)), bind_run (exactly_run rfl),
      bind_run (below_run minute.isLt (number_run (by omega))),
      bind_run (blanks_none (colon _)), bind_run (exactly_run rfl),
      bind_run (below_run second.isLt (number_run (by omega))),
      bind_run (below_run nanos.isLt (fraction_run nanos.isLt)),
      bind_run (blanks_none (skip_cons rfl)), bind_run offset_utc, bind_run (blanks_none rfl),
      fromOffset?_zero]
    rfl
  rw [ofText?, read]

end TransferLedger.Timestamp
