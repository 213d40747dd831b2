import RowGate.Decimal.Double

/-! # Reading decimals

A decimal text is an optional sign, digits with an optional point among them, and an
optional exponent; the names of the infinities and of the indeterminate value are read
in any case. The result is the nearest double.
-/
namespace RowGate.Decimal

/-- Digits at the front and what follows them. -/
def digitRun (s : List Char) : List Char × List Char := s.span Digits.isDigit

/-- A signed exponent that takes up the rest of the text. -/
def exponent? (s : List Char) : Option Int :=
  match s with
  | '-' :: ds => (Digits.natural? ds).map (fun n => -(n : Int))
  | '+' :: ds => (Digits.natural? ds).map (fun n => (n : Int))
  | ds => (Digits.natural? ds).map (fun n => (n : Int))

/-- The digits, the places and the exponent of a decimal without a sign. -/
def parts? (s : List Char) : Option (List Char × List Char × Int) :=
  let (whole, rest) := digitRun s
  let (places, rest) := match rest with
    | '.' :: rest => digitRun rest
    | rest => ([], rest)
  if whole.isEmpty && places.isEmpty then none
  else match rest with
    | [] => some (whole, places, 0)
    | c :: rest =>
      if c = 'e' ∨ c = 'E' then (exponent? rest).map (fun k => (whole, places, k)) else none

def word (s : List Char) : String := String.ofList (s.map Char.toLower)

def indeterminateWord : String := "nan"
def infinityWords : List String := ["inf", "infinity"]

def unsigned? (negative : Bool) (s : List Char) : Option Double :=
  if word s = indeterminateWord then some .nan
  else if infinityWords.contains (word s) then some (.infinite negative)
  else (parts? s).map fun (whole, places, k) =>
    Double.ofDecimal negative (Digits.read 0 (whole ++ places)) (k - places.length)

/-- A text that is read as a double when it stands behind no sign. -/
def isUnsigned (s : List Char) : Bool :=
  word s = indeterminateWord || infinityWords.contains (word s) || (parts? s).isSome

def double? (s : List Char) : Option Double :=
  match s with
  | '-' :: rest => unsigned? true rest
  | '+' :: rest => unsigned? false rest
  | rest => unsigned? false rest

end RowGate.Decimal
