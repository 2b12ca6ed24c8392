import Console.Number.Decimal

namespace Console

def roundQuotient (n d : Nat) : Nat :=
  let q := n / d
  let twice := 2 * (n % d)
  if twice < d ∨ (twice = d ∧ q % 2 = 0) then q else q + 1

theorem roundQuotient_nearest {n d : Nat} (hd : 0 < d) :
    2 * n ≤ (2 * roundQuotient n d + 1) * d ∧ 2 * roundQuotient n d * d ≤ 2 * n + d := by
  have hn := Nat.div_add_mod n d
  have hr := Nat.mod_lt n hd
  unfold roundQuotient
  simp only
  have expand (q : Nat) : (2 * q + 1) * d = 2 * (d * q) + d ∧ 2 * q * d = 2 * (d * q) :=
    ⟨by rw [Nat.add_mul, Nat.mul_assoc, Nat.mul_comm q d]; omega,
     by rw [Nat.mul_assoc, Nat.mul_comm q d]⟩
  split
  · rw [(expand _).1, (expand _).2]; omega
  · rw [(expand _).1, (expand _).2, Nat.mul_add]; omega

/-- A format of floating point numbers: magnitudes are multiples of `2^(-scale)`, called units, with
at most `precision` significant bits, and less than `2^width` units. -/
structure FloatFormat where
  precision : Nat
  scale : Nat
  width : Nat

namespace FloatFormat

def single : FloatFormat := ⟨24, 149, 277⟩

def bitLength (n : Nat) : Nat := if n = 0 then 0 else n.log2 + 1

def roundUnits (format : FloatFormat) (n d : Nat) : Nat :=
  let step := Nat.pow 2 (bitLength (n / d) - format.precision)
  roundQuotient n (d * step) * step

/-- The magnitude of a decimal in units: nearest, ties to even, `none` if that is too large. The
first two cases only spare the large powers of ten. -/
def round (format : FloatFormat) (coefficient : Nat) (exponent : Int) : Option Nat :=
  let digits : Int := (Decimal.writeNat coefficient).length + exponent
  if coefficient = 0 then some 0
  else if (format.width : Int) - format.scale ≤ 3 * (digits - 1) then none
  else if 3 * digits ≤ -(format.scale : Int) - 2 then some 0
  else
    let units :=
      if 0 ≤ exponent then
        format.roundUnits (coefficient * Nat.pow 10 exponent.toNat * Nat.pow 2 format.scale) 1
      else format.roundUnits (coefficient * Nat.pow 2 format.scale) (Nat.pow 10 exponent.natAbs)
    if units < Nat.pow 2 format.width then some units else none

end FloatFormat

end Console
