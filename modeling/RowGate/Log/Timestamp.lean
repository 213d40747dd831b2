import RowGate.Text.Digits

/-! # Timestamps

An instant of the calendar as a text: date and time of day in universal time, with
microseconds. Years are counted in eras of 400 years that begin with a March.
-/
namespace RowGate.Log.Timestamp

def microsPerDay : Nat := 86400000000

structure Date where
  year : Nat
  month : Nat
  day : Nat
  deriving DecidableEq, Repr

/-- The date so many days after the first of January 1970. -/
def Date.ofDays (days : Nat) : Date :=
  let z := days + 719468
  let era := z / 146097
  let dayOfEra := z % 146097
  let yearOfEra := (dayOfEra - dayOfEra / 1460 + dayOfEra / 36524 - dayOfEra / 146096) / 365
  let dayOfYear := dayOfEra - (365 * yearOfEra + yearOfEra / 4 - yearOfEra / 100)
  let shifted := (5 * dayOfYear + 2) / 153
  let month := if shifted < 10 then shifted + 3 else shifted - 9
  ⟨yearOfEra + era * 400 + (if month ≤ 2 then 1 else 0), month,
   dayOfYear - (153 * shifted + 2) / 5 + 1⟩

/-- The text of an instant so many microseconds after the first of January 1970. -/
def text (micros : Nat) : String :=
  let date := Date.ofDays (micros / microsPerDay)
  let rest := micros % microsPerDay
  let seconds := rest / 1000000
  String.ofList (Digits.padded 4 date.year ++ '-' :: (Digits.padded 2 date.month ++ '-' ::
    (Digits.padded 2 date.day ++ 'T' :: (Digits.padded 2 (seconds / 3600) ++ ':' ::
      (Digits.padded 2 (seconds / 60 % 60) ++ ':' :: (Digits.padded 2 (seconds % 60) ++ '.' ::
        (Digits.padded 6 (rest % 1000000) ++ ['Z'])))))))

end RowGate.Log.Timestamp
