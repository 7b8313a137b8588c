import TransferLedger.Text.Decimal
import TransferLedger.Text.Blank

/-! Moments in Coordinated Universal Time.

A moment is kept as its calendar date and clock reading, so that what is written
in UTC is read back without any arithmetic; only an offset from UTC moves a
clock reading, and by less than a day.
-/

namespace TransferLedger

namespace Date

def isLeapYear (year : Int) : Bool :=
  year % 4 == 0 && (year % 100 != 0 || year % 400 == 0)

def daysIn (year : Int) (month : Nat) : Nat :=
  if month = 2 then (if isLeapYear year then 29 else 28)
  else if month = 4 ∨ month = 6 ∨ month = 9 ∨ month = 11 then 30
  else 31

/-- Whether the calendar, which runs from the year -262143 to 262142, has a day. -/
def Exists (year : Int) (month day : Nat) : Prop :=
  (-262143 ≤ year ∧ year ≤ 262142) ∧ (1 ≤ month ∧ month ≤ 12) ∧
    (1 ≤ day ∧ day ≤ daysIn year month)

instance (year : Int) (month day : Nat) : Decidable (Exists year month day) :=
  inferInstanceAs (Decidable (_ ∧ _))

end Date

structure Date where
  year : Int
  month : Nat
  day : Nat
  valid : Date.Exists year month day
  deriving DecidableEq

namespace Date

def make? (year : Int) (month day : Nat) : Option Date :=
  if valid : Exists year month day then some { year, month, day, valid } else none

def next? (date : Date) : Option Date :=
  if date.day < daysIn date.year date.month then make? date.year date.month (date.day + 1)
  else if date.month < 12 then make? date.year (date.month + 1) 1
  else make? (date.year + 1) 1 1

def previous? (date : Date) : Option Date :=
  if 1 < date.day then make? date.year date.month (date.day - 1)
  else if 1 < date.month then
    make? date.year (date.month - 1) (daysIn date.year (date.month - 1))
  else make? (date.year - 1) 12 31

end Date

/-- A leap second is second 60 of its minute. -/
structure Timestamp where
  date : Date
  hour : Fin 24
  minute : Fin 60
  second : Fin 61
  nanos : Fin 1000000000
  deriving DecidableEq

namespace Timestamp

def epoch : Timestamp where
  date := { year := 1970, month := 1, day := 1, valid := by decide }
  hour := 0
  minute := 0
  second := 0
  nanos := 0

instance : Inhabited Timestamp := ⟨epoch⟩

/-- The moment at which clocks `offset` minutes ahead of UTC show `clock`. -/
def fromOffset? (offset : Int) (clock : Timestamp) : Option Timestamp := do
  let minutes : Int := clock.hour.val * 60 + clock.minute.val - offset
  let date ←
    if minutes < 0 then clock.date.previous?
    else if 1440 ≤ minutes then clock.date.next?
    else some clock.date
  let ofDay := (minutes % 1440).toNat
  some { clock with date, hour := Fin.ofNat 24 (ofDay / 60), minute := Fin.ofNat 60 (ofDay % 60) }

/-! ## Writing -/

/-- Four digits, or a sign and at least four. -/
def yearText (year : Int) : List Char :=
  if 0 ≤ year ∧ year ≤ 9999 then Text.Decimal.padded 4 year.toNat
  else (if year < 0 then '-' else '+') :: Text.Decimal.padded 4 year.natAbs

/-- No fraction, or the first of 3, 6 and 9 digits that is exact. -/
def fractionText (nanos : Nat) : List Char :=
  if nanos = 0 then []
  else if nanos % 1000000 = 0 then '.' :: Text.Decimal.padded 3 (nanos / 1000000)
  else if nanos % 1000 = 0 then '.' :: Text.Decimal.padded 6 (nanos / 1000)
  else '.' :: Text.Decimal.padded 9 nanos

def toText (moment : Timestamp) : String :=
  let two := Text.Decimal.padded 2
  String.ofList (yearText moment.date.year ++ '-' :: (two moment.date.month ++
    '-' :: (two moment.date.day ++ 'T' :: (two moment.hour.val ++ ':' :: (two moment.minute.val ++
      ':' :: (two moment.second.val ++ (fractionText moment.nanos.val ++ ['Z'])))))))

/-! ## Reading

Blanks may stand before each number, before the signs between them, and around
the whole. -/

abbrev Reader := StateT (List Char) Option

namespace Reader

def blanks : Reader Unit :=
  modify Text.Blank.skip

def exactly (accepted : List Char) : Reader Unit
  | c :: rest => if accepted.contains c then some ((), rest) else none
  | [] => none

def number (width : Nat) : Reader Nat := do
  blanks
  fun text => Text.Decimal.read? width text

/-- Up to four digits, or a sign and any number of digits. -/
def year : Reader Int := do
  blanks
  match ← get with
  | '-' :: rest =>
      set rest
      fun text => (Text.Decimal.read? text.length text).map fun (value, rest) => (-(value : Int), rest)
  | '+' :: rest =>
      set rest
      fun text => (Text.Decimal.read? text.length text).map fun (value, rest) => ((value : Int), rest)
  | _ => fun text => (Text.Decimal.read? 4 text).map fun (value, rest) => ((value : Int), rest)

/-- A fraction of a second in nanoseconds.  Digits after the ninth are dropped. -/
def fraction : Reader Nat
  | '.' :: rest => do
      let digits := Text.Decimal.leading 9 rest
      let billionths := digits ++ List.replicate (9 - digits.length) '0'
      if digits.isEmpty then none
      else some (Text.Decimal.value billionths, rest.dropWhile Char.isDigit)
  | text => some (0, text)

def below (bound : Nat) (reader : Reader Nat) : Reader (Fin bound) := do
  let value ← reader
  if inside : value < bound then pure ⟨value, inside⟩ else failure

/-- Two digits with no blank before them. -/
def twoDigits : Reader Nat
  | tens :: ones :: rest =>
      if tens.isDigit && ones.isDigit then some (Text.Decimal.value [tens, ones], rest) else none
  | _ => none

/-- The offset from UTC in minutes, less than a day either way. -/
def offset : Reader Int := do
  match ← get with
  | 'Z' :: rest | 'z' :: rest =>
      set rest
      pure 0
  | u :: t :: c :: rest =>
      if [u, t, c].map Char.toUpper = ['U', 'T', 'C'] then
        set rest
        pure 0
      else
        let ahead := u == '+'
        exactly ['+', '-', '−']
        let hours ← twoDigits
        modify fun text => text.dropWhile fun c => c == ':' || Text.Blank.isBlank c
        let minutes ← twoDigits
        if minutes < 60 ∧ hours * 60 + minutes < 1440 then
          let size : Int := ↑(hours * 60 + minutes)
          pure (if ahead then size else -size)
        else failure
  | _ => failure

def moment : Reader Timestamp := do
  let year ← year
  blanks
  exactly ['-']
  let month ← number 2
  blanks
  exactly ['-']
  let day ← number 2
  let some date := Date.make? year month day | failure
  exactly ['T', 't', ' ']
  let hour ← below 24 (number 2)
  blanks
  exactly [':']
  let minute ← below 60 (number 2)
  blanks
  exactly [':']
  let second ← below 61 (number 2)
  let nanos ← below 1000000000 fraction
  blanks
  let offset ← offset
  blanks
  let some moment := fromOffset? offset { date, hour, minute, second, nanos } | failure
  pure moment

end Reader

def ofText? (text : String) : Option Timestamp :=
  match Reader.moment text.toList with
  | some (moment, []) => some moment
  | _ => none

end Timestamp

end TransferLedger
