/-! # UTF-8

Octets of a text and the text of octets. Reading stops at the first octet that no
text can have there, and says how many octets were read well before it and how long
the longest broken beginning of a character at that place is.
-/
namespace RowGate

abbrev Octets := List UInt8

/-- The character whose number an octet is. -/
def letter (b : UInt8) : Char := Char.ofNat b.toNat

namespace Utf8

/-- Why octets are no text: a broken sequence of some length, or an end inside a character. -/
inductive Fault where
  | broken (start length : Nat)
  | cut (start : Nat)
  deriving DecidableEq, Repr

def Fault.message : Fault → String
  | .broken start length =>
    "invalid utf-8 sequence of " ++ toString length ++ " bytes from index " ++ toString start
  | .cut start => "incomplete utf-8 byte sequence from index " ++ toString start

def encode (s : List Char) : Octets := s.flatMap String.utf8EncodeChar

def octets (s : String) : Octets := encode s.toList

def isTail (b : UInt8) : Bool := 0x80 ≤ b && b ≤ 0xBF

/-- The second octets allowed after the first octet of a three-octet character. -/
def second3 (a b : UInt8) : Bool :=
  if a = 0xE0 then 0xA0 ≤ b && b ≤ 0xBF
  else if a = 0xED then 0x80 ≤ b && b ≤ 0x9F
  else isTail b

/-- The second octets allowed after the first octet of a four-octet character. -/
def second4 (a b : UInt8) : Bool :=
  if a = 0xF0 then 0x90 ≤ b && b ≤ 0xBF
  else if a = 0xF4 then 0x80 ≤ b && b ≤ 0x8F
  else isTail b

def join2 (a b : UInt8) : Char :=
  Char.ofNat ((a.toNat - 0xC0) * 64 + (b.toNat - 0x80))
def join3 (a b c : UInt8) : Char :=
  Char.ofNat (((a.toNat - 0xE0) * 64 + (b.toNat - 0x80)) * 64 + (c.toNat - 0x80))
def join4 (a b c d : UInt8) : Char :=
  Char.ofNat ((((a.toNat - 0xF0) * 64 + (b.toNat - 0x80)) * 64 + (c.toNat - 0x80)) * 64 +
    (d.toNat - 0x80))

/-- Reads the octets from index `i` on. -/
def decodeFrom (i : Nat) : Octets → Except Fault (List Char)
  | [] => .ok []
  | a :: rest =>
    if a < 0x80 then (decodeFrom (i + 1) rest).map (Char.ofNat a.toNat :: ·)
    else if a < 0xC2 then .error (.broken i 1)
    else if a < 0xE0 then
      match rest with
      | [] => .error (.cut i)
      | b :: rest =>
        if isTail b then (decodeFrom (i + 2) rest).map (join2 a b :: ·)
        else .error (.broken i 1)
    else if a < 0xF0 then
      match rest with
      | [] => .error (.cut i)
      | b :: rest =>
        if second3 a b then
          match rest with
          | [] => .error (.cut i)
          | c :: rest =>
            if isTail c then (decodeFrom (i + 3) rest).map (join3 a b c :: ·)
            else .error (.broken i 2)
        else .error (.broken i 1)
    else if a < 0xF5 then
      match rest with
      | [] => .error (.cut i)
      | b :: rest =>
        if second4 a b then
          match rest with
          | [] => .error (.cut i)
          | c :: rest =>
            if isTail c then
              match rest with
              | [] => .error (.cut i)
              | d :: rest =>
                if isTail d then (decodeFrom (i + 4) rest).map (join4 a b c d :: ·)
                else .error (.broken i 3)
            else .error (.broken i 2)
        else .error (.broken i 1)
    else .error (.broken i 1)

def decode (b : Octets) : Except Fault (List Char) := decodeFrom 0 b

/-- The text of the octets, or where they stop being one. -/
def text (b : Octets) : Except Fault String := (decode b).map String.ofList

/-- The character that stands for octets that are none. -/
def replacement : Char := Char.ofNat 0xFFFD

/-- The characters of octets that are a text, and nothing for others. -/
def readable (b : Octets) : List Char := (decode b).toOption.getD []

/-- Reads any octets: each broken beginning of a character gives one replacement. -/
def lossy : Octets → List Char
  | [] => []
  | a :: rest =>
    match decode (a :: rest) with
    | .ok s => s
    | .error (.cut start) => readable ((a :: rest).take start) ++ [replacement]
    | .error (.broken start length) =>
      readable ((a :: rest).take start) ++ replacement :: lossy (rest.drop (start + length - 1))
termination_by b => b.length
decreasing_by
  simp only [List.length_drop, List.length_cons]
  omega

end Utf8
end RowGate
