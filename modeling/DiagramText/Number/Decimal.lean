import DiagramText.Number.Binary64

namespace DiagramText

/-- The number `coefficient * 10 ^ exponent`, or its opposite. -/
structure Decimal where
  negative : Bool
  coefficient : Nat
  exponent : Int
  deriving DecidableEq, Repr

namespace Decimal

def ofDigits (cs : List Char) : Nat :=
  Nat.ofDigitChars 10 cs 0

def sign : List Char → Bool × List Char
  | '-' :: cs => (true, cs)
  | '+' :: cs => (false, cs)
  | cs => (false, cs)

/-- The power of ten at the end of a numeral: nothing, or `e` and a signed integer. -/
def power? : List Char → Option Int
  | [] => some 0
  | c :: cs =>
    if c = 'e' ∨ c = 'E' then
      let (negative, digits) := sign cs
      if digits ≠ [] ∧ digits.all Char.isDigit then
        let n : Int := ofDigits digits
        some (if negative then -n else n)
      else none
    else none

/-- Reads `[sign] digits [. digits] [power]`, with a digit before or after the point. -/
def ofText? (cs : List Char) : Option Decimal :=
  let (negative, cs) := sign cs
  let whole := cs.takeWhile Char.isDigit
  let (fraction, cs) :=
    match cs.dropWhile Char.isDigit with
    | '.' :: r => (r.takeWhile Char.isDigit, r.dropWhile Char.isDigit)
    | r => ([], r)
  if whole ++ fraction = [] then none
  else (power? cs).map fun e ↦ ⟨negative, ofDigits (whole ++ fraction), e - fraction.length⟩

/-- The nearest binary64 number, if there is a finite one. Powers of ten far out of reach are
settled by the number of digits alone. -/
def toBinary64? (x : Decimal) : Option Binary64 :=
  let magnitude : Int := (Nat.toDigits 10 x.coefficient).length + x.exponent
  if x.coefficient = 0 ∨ magnitude < -330 then some (.zero x.negative)
  else if 310 < magnitude then none
  else
    Binary64.ofRatio? x.negative (x.coefficient * Nat.pow 10 x.exponent.toNat)
      (Nat.pow 10 (-x.exponent).toNat)

end Decimal

def Binary64.ofText? (cs : List Char) : Option Binary64 :=
  (Decimal.ofText? cs).bind Decimal.toBinary64?

end DiagramText
