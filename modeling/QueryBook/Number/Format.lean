import QueryBook.Number.Shortest

/-!
# Decimal notation of doubles

A double is written by the digits of its shortest decimal. The notation is positional while the
decimal point falls at most sixteen places right of the first digit and at most three places left
of it, and keeps at least one digit on either side of the point; otherwise it is scientific, with
a signed exponent of at least two digits.
-/

namespace QueryBook.Decimal

/-- Where a number is written out and how its exponent looks. -/
structure Style where
  /-- The least place of the decimal point that is written positionally. -/
  least : Int
  /-- The greatest one. -/
  greatest : Int
  /-- The fewest digits of an exponent. -/
  exponentWidth : Nat

/-- The style of numbers in messages. -/
def Style.message : Style := { least := -3, greatest := 16, exponentWidth := 2 }

/-- `digits` with the decimal point after `point` of them, zeros filling the gaps. -/
def positional (digits : List Char) (point : Int) : List Char :=
  if point ≤ 0 then
    '0' :: '.' :: (List.replicate (-point).toNat '0' ++ digits)
  else
    let whole := digits.take point.toNat
    let rest := digits.drop point.toNat
    whole ++ List.replicate (point.toNat - whole.length) '0' ++ '.' ::
      (if rest.isEmpty then ['0'] else rest)

/-- `digits` with the point after the first, and the power of ten. -/
def scientific (width : Nat) (digits : List Char) (point : Int) : List Char :=
  let exponent := point - 1
  let places := Nat.toDigits 10 exponent.natAbs
  let padded := List.replicate (width - places.length) '0' ++ places
  let mantissa := digits.take 1 ++ if digits.length > 1 then '.' :: digits.drop 1 else []
  mantissa ++ 'e' :: (if exponent < 0 then '-' else '+') :: padded

/-- The text of a finite positive double. -/
def finiteText (style : Style) (x : Binary64) : List Char :=
  let s := shortest x
  let digits := Nat.toDigits 10 s.digits
  let point := digits.length + s.exponent
  if style.least ≤ point ∧ point ≤ style.greatest then positional digits point
  else scientific style.exponentWidth digits point

end QueryBook.Decimal

namespace QueryBook.Binary64

/-- The text of a double in messages. -/
def text (x : Binary64) : String :=
  if x.isNaN then "nan"
  else
    let sign := if x.negative then "-" else ""
    sign ++
      (if x.isInfinite then "inf"
       else if x.isZero then "0.0"
       else .ofList (Decimal.finiteText .message x))

end QueryBook.Binary64
