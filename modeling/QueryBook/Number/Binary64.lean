/-!
# Double-precision numbers by their bits

A double is kept as its 64 bits, so two values are equal exactly when they are stored alike, and
the conversion of whole numbers is arithmetic on natural numbers. A whole number becomes the
nearest double, a tie going to the even significand; one that would round past the largest finite
double has no conversion.
-/

namespace QueryBook

/-- A double-precision number in its interchange format: sign, eleven exponent bits, fifty-two
fraction bits. -/
structure Binary64 where
  bits : UInt64
deriving DecidableEq, Repr, Inhabited

namespace Binary64

/-- The sign bit. -/
def negative (x : Binary64) : Bool := x.bits.toNat / Nat.pow 2 63 == 1

/-- The exponent field. -/
def exponentField (x : Binary64) : Nat := x.bits.toNat / Nat.pow 2 52 % Nat.pow 2 11

/-- The fraction field. -/
def fraction (x : Binary64) : Nat := x.bits.toNat % Nat.pow 2 52

/-- Not a number: all exponent bits set and a fraction that is not zero. -/
def isNaN (x : Binary64) : Bool := x.exponentField == 2047 && x.fraction != 0

/-- Infinity of either sign. -/
def isInfinite (x : Binary64) : Bool := x.exponentField == 2047 && x.fraction == 0

/-- Zero of either sign. -/
def isZero (x : Binary64) : Bool := x.exponentField == 0 && x.fraction == 0

/-- The whole number `m` of a finite value `m * 2 ^ q`. -/
def significand (x : Binary64) : Nat :=
  if x.exponentField = 0 then x.fraction else Nat.pow 2 52 + x.fraction

/-- The power `q` of a finite value `m * 2 ^ q`. -/
def power (x : Binary64) : Int := (max x.exponentField 1 : Nat) - 1075

/-- `n / 2 ^ shift` rounded to the nearest whole number, a tie going to the even one. -/
def roundShift (n shift : Nat) : Nat :=
  let low := n / Nat.pow 2 shift
  let rest := 2 * (n % Nat.pow 2 shift)
  if rest > Nat.pow 2 shift ∨ (rest = Nat.pow 2 shift ∧ low % 2 = 1) then low + 1 else low

/-- The exponent and fraction fields of the double nearest to a positive whole number. -/
def fieldsOfNat (n : Nat) : Nat × Nat :=
  let shift := n.log2 - 52
  let m := if n.log2 ≤ 52 then n * Nat.pow 2 (52 - n.log2) else roundShift n shift
  -- rounding up may reach the next power of two, whose fraction is zero
  if m = Nat.pow 2 53 then (n.log2 + 1024, 0) else (n.log2 + 1023, m - Nat.pow 2 52)

/-- The double nearest to a whole number, or `none` past the largest finite double. -/
def ofInt? (n : Int) : Option Binary64 :=
  if n = 0 then some ⟨0⟩
  else
    let (exponent, fraction) := fieldsOfNat n.natAbs
    if exponent ≥ 2047 then none
    else
      let sign := if n < 0 then Nat.pow 2 63 else 0
      some ⟨.ofNat (sign + exponent * Nat.pow 2 52 + fraction)⟩

end Binary64

end QueryBook
