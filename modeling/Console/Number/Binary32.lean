import Console.Number.FloatFormat

namespace Console

inductive Binary32
  | nan
  | infinite (negative : Bool)
  | finite (negative : Bool) (units : Nat)
  deriving DecidableEq, Repr

namespace Binary32

def ofDecimal (d : Decimal) : Binary32 :=
  match FloatFormat.single.round d.coefficient d.exponent with
  | some units => .finite d.negative units
  | none => .infinite d.negative

def greatest : Binary32 := .finite false ((Nat.pow 2 24 - 1) * Nat.pow 2 253)

def least : Binary32 := .finite true ((Nat.pow 2 24 - 1) * Nat.pow 2 253)

def lowerAscii (s : Text) : Text := s.map Char.toLower

def read? (s : Text) : Option Binary32 :=
  let (negative, word) := Decimal.splitSign s
  let word := lowerAscii word
  if word = Text.of "nan" then some nan
  else if word = Text.of "inf" ∨ word = Text.of "infinity" then some (infinite negative)
  else (Decimal.read? s).map ofDecimal

def rank? : Binary32 → Option Int
  | nan => none
  | infinite negative => some (Decimal.signed negative (Nat.pow 2 277))
  | finite negative units => some (Decimal.signed negative units)

def le (x y : Binary32) : Bool :=
  match x.rank?, y.rank? with
  | some x, some y => x ≤ y
  | _, _ => false

@[simp] theorem nan_le (y : Binary32) : nan.le y = false := rfl

@[simp] theorem le_nan (x : Binary32) : x.le nan = false := by
  cases x <;> rfl

end Binary32

end Console
