import QueryBook.Number.Binary64

/-!
# The shortest decimal that reads back

A finite double stands for every real number nearer to it than to its neighbours. Its shortest
decimal is the one with the fewest digits inside that interval, and among those of equal length
the nearest to the value. The ends of the interval read back too when the significand is even.

On the grid of decimals with `n` digits, if any point lies in the interval then one of the two
grid points around the value does, so it is enough to look at those two for `n = 1, 2, …`.
-/

namespace QueryBook.Decimal

/-- A decimal number `digits * 10 ^ exponent`. -/
structure Scientific where
  digits : Nat
  exponent : Int
deriving DecidableEq, Repr

/-- A value and the ends of the interval that reads back as it, over one denominator. -/
structure Interval where
  low : Nat
  value : Nat
  high : Nat
  scale : Nat
  /-- Whether the ends belong to the interval. -/
  closed : Bool
deriving Repr

/-- The interval of a finite positive double. Below a power of two the neighbour is twice as near,
so the lower end is a quarter of the spacing away and not a half. -/
def Interval.ofBinary64 (x : Binary64) : Interval :=
  let m := x.significand
  let e := x.power - 2
  let below := if x.fraction = 0 ∧ x.exponentField > 1 then 1 else 2
  let up := Nat.pow 2 e.toNat
  { low := (4 * m - below) * up
    value := 4 * m * up
    high := (4 * m + 2) * up
    scale := Nat.pow 2 (-e).toNat
    closed := m % 2 = 0 }

/-- The interval times `10 ^ -k`. -/
def Interval.shift (i : Interval) (k : Int) : Interval :=
  let up := Nat.pow 10 (-k).toNat
  { i with low := i.low * up, value := i.value * up, high := i.high * up,
           scale := i.scale * Nat.pow 10 k.toNat }

/-- The whole number in the interval that is nearest to its value, of the two around the value; a
tie goes to the even one. -/
def Interval.whole? (i : Interval) : Option Nat :=
  let c := i.value / i.scale
  let down := c * i.scale
  let up := (c + 1) * i.scale
  let downIn := if i.closed then i.low ≤ down else i.low < down
  let upIn := if i.closed then up ≤ i.high else up < i.high
  if downIn ∧ upIn then
    let below := i.value - down
    let above := up - i.value
    if below < above ∨ (below = above ∧ c % 2 = 0) then some c else some (c + 1)
  else if downIn then some c
  else if upIn then some (c + 1)
  else none

/-- How many decimal digits a number has. -/
def digitCount (n : Nat) : Nat := (Nat.toDigits 10 n).length

/-- The least `j ≥ start` with `10 ^ j * value ≥ scale`, looked for in `fuel` steps. -/
def leadingZeros (value scale : Nat) : Nat → Nat → Nat
  | 0, start => start
  | fuel + 1, start =>
    if value * Nat.pow 10 start ≥ scale then start else leadingZeros value scale fuel (start + 1)

/-- The place of the decimal point: the value lies in `[10 ^ (p - 1), 10 ^ p)`. No double is below
`10 ^ -324`, which bounds the search. -/
def Interval.point (i : Interval) : Int :=
  if i.value ≥ i.scale then digitCount (i.value / i.scale)
  else 1 - leadingZeros i.value i.scale 330 1

/-- The first of the grids with `n`, `n + 1`, … digits that meets the interval. -/
def search (i : Interval) (point : Int) : Nat → Nat → Scientific
  | 0, n => ⟨i.value * Nat.pow 10 n / i.scale, -n⟩
  | fuel + 1, n =>
    match (i.shift (point - n)).whole? with
    | some digits => ⟨digits, point - n⟩
    | none => search i point fuel (n + 1)

/-- Trailing zeros moved into the exponent. -/
def Scientific.strip (s : Scientific) : Nat → Scientific
  | 0 => s
  | fuel + 1 =>
    if s.digits ≠ 0 ∧ s.digits % 10 = 0 then
      Scientific.strip ⟨s.digits / 10, s.exponent + 1⟩ fuel
    else s

/-- The shortest decimal of a finite positive double. Seventeen digits always suffice. -/
def shortest (x : Binary64) : Scientific :=
  let i := Interval.ofBinary64 x
  (search i i.point 17 1).strip 20

end QueryBook.Decimal
