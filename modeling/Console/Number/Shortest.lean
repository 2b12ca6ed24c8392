import Console.Number.Binary32

namespace Console.Binary32

def readsBack (units coefficient : Nat) (exponent : Int) : Bool :=
  FloatFormat.single.round coefficient exponent == some units

/-- The point of the grid `10^exponent` that reads back as so many units: of two, the nearer one,
and of two that are as near, the greater. -/
def onGrid? (units : Nat) (exponent : Int) : Option Nat :=
  -- The number is `n / d` steps of the grid.
  let n := units * Nat.pow 10 (-exponent).toNat
  let d := Nat.pow 2 FloatFormat.single.scale * Nat.pow 10 exponent.toNat
  let below := n / d
  let lower := readsBack units below exponent
  let upper := readsBack units (below + 1) exponent
  if upper && (!lower || d ≤ 2 * (n % d)) then some (below + 1)
  else if lower then some below
  else none

def searchGrids (units : Nat) (exponent : Int) : Nat → Nat × Int
  | 0 => (0, 0)
  | tries + 1 =>
    match onGrid? units exponent with
    | some coefficient => (coefficient, exponent)
    | none => searchGrids units (exponent - 1) tries

def shortest (units : Nat) : Nat × Int :=
  if units = 0 then (0, 0) else searchGrids units 39 94

def positional (coefficient : Nat) (exponent : Int) : Text × Text :=
  let digits := Decimal.writeNat coefficient
  if 0 ≤ exponent then
    (if coefficient = 0 then digits else digits ++ List.replicate exponent.toNat '0', [])
  else
    let padded := List.replicate (exponent.natAbs + 1 - digits.length) '0' ++ digits
    (padded.take (padded.length - exponent.natAbs), padded.drop (padded.length - exponent.natAbs))

/-- How a number is laid out: whether whole numbers keep a `.0`, and for which powers of ten of the
first digit an exponent is written. -/
structure Layout where
  keepsPoint : Bool
  usesExponent : Int → Bool

def plainLayout : Layout := ⟨false, fun _ => false⟩

def literalLayout : Layout := ⟨true, fun power => power < -4 ∨ 16 ≤ power⟩

def layOutMagnitude (layout : Layout) (units : Nat) : Text :=
  let (coefficient, exponent) := shortest units
  let digits := Decimal.writeNat coefficient
  let power := exponent + digits.length - 1
  if units ≠ 0 ∧ layout.usesExponent power then
    let fraction := digits.drop 1
    digits.take 1 ++ (if fraction.isEmpty then [] else '.' :: fraction) ++
      'e' :: Decimal.writeInteger power
  else
    let (whole, fraction) := positional coefficient exponent
    if !fraction.isEmpty then whole ++ '.' :: fraction
    else if layout.keepsPoint then whole ++ ['.', '0']
    else whole

def layOut (layout : Layout) : Binary32 → Text
  | nan => Text.of "NaN"
  | infinite negative => (if negative then ['-'] else []) ++ Text.of "inf"
  | finite negative units => (if negative then ['-'] else []) ++ layOutMagnitude layout units

def write (x : Binary32) : Text := x.layOut plainLayout

def literal (x : Binary32) : Text := x.layOut literalLayout

end Console.Binary32
