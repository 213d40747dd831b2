/-! # Rows as one array

The rows of a result are JSON texts; together they are written as one array with each row
after the first on a line of its own.
-/
namespace RowGate.Service

def separatedRows : List (List Char) → List Char
  | [] => []
  | [x] => x
  | x :: y :: rest => x ++ ',' :: '\n' :: separatedRows (y :: rest)

def arrayChars : List (List Char) → List Char
  | [] => ['[', ' ', ']']
  | rows => '[' :: ' ' :: (separatedRows rows ++ ['\n', ' ', ']'])

/-- The array of some rows. -/
def arrayText (rows : List String) : String := String.ofList (arrayChars (rows.map String.toList))

end RowGate.Service
