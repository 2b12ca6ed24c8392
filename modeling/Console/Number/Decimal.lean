import Console.Text.Blank

namespace Console

structure Decimal where
  negative : Bool
  coefficient : Nat
  exponent : Int
  deriving DecidableEq, Repr

namespace Decimal

def splitSign : Text → Bool × Text
  | [] => (false, [])
  | c :: s => if c = '-' then (true, s) else if c = '+' then (false, s) else (false, c :: s)

def isDigits (s : Text) : Bool := !s.isEmpty && s.all Char.isDigit

def isHexDigit (c : Char) : Bool := c.isDigit || ('a' ≤ c && c ≤ 'f') || ('A' ≤ c && c ≤ 'F')

def digitValue (c : Char) : Nat :=
  if c.isDigit then c.toNat - '0'.toNat
  else if c.isLower then c.toNat - 'a'.toNat + 10
  else c.toNat - 'A'.toNat + 10

def valueIn (base : Nat) (digits : Text) : Nat :=
  digits.foldl (fun n c => n * base + digitValue c) 0

def signed (negative : Bool) (magnitude : Nat) : Int :=
  if negative then -magnitude else magnitude

def readInteger? (s : Text) : Option Int :=
  let (negative, digits) := splitSign s
  if isDigits digits then some (signed negative (valueIn 10 digits)) else none

def writeNat (n : Nat) : Text := Nat.toDigits 10 n

def writeInteger (n : Int) : Text :=
  if n < 0 then '-' :: writeNat n.natAbs else writeNat n.natAbs

def readExponent? : Text → Option Int
  | [] => some 0
  | c :: s => if c = 'e' ∨ c = 'E' then readInteger? s else none

def splitFraction : Text → Text × Text
  | [] => ([], [])
  | c :: s => if c = '.' then (s.takeWhile Char.isDigit, s.dropWhile Char.isDigit) else ([], c :: s)

/-- Reads a decimal: an optional sign, digits with an optional point anywhere among them, and an
optional exponent. At least one digit stands before the exponent. -/
def read? (s : Text) : Option Decimal :=
  let (negative, s) := splitSign s
  let whole := s.takeWhile Char.isDigit
  let (fraction, s) := splitFraction (s.dropWhile Char.isDigit)
  if isDigits (whole ++ fraction) then
    (readExponent? s).map fun e =>
      ⟨negative, valueIn 10 (whole ++ fraction), e - fraction.length⟩
  else none

end Decimal

end Console
