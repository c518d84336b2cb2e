import DiagramText.Number.Shortest

namespace DiagramText

structure NumeralStyle where
  /-- Of two equally near numerals the even one is taken, not the greater. -/
  tiesToEven : Bool
  /-- The exponents that are written without a power of ten; all of them when absent. -/
  positional : Option (Int × Int)
  keepsPoint : Bool

namespace NumeralStyle

def json : NumeralStyle :=
  ⟨true, some (-5, 16), true⟩

/-- The form of numbers in messages: never a power of ten. -/
def message : NumeralStyle :=
  ⟨false, none, false⟩

def isPositional (s : NumeralStyle) (e : Int) : Bool :=
  s.positional.all fun (low, high) ↦ low ≤ e && e < high

end NumeralStyle

namespace Binary64

/-- Digits with the point after the one of exponent zero. -/
def positional (s : NumeralStyle) (digits : List Char) (e : Int) : List Char :=
  if e < 0 then '0' :: '.' :: (List.replicate (-e - 1).toNat '0' ++ digits)
  else
    let whole := e.toNat + 1
    if digits.length ≤ whole then
      digits ++ List.replicate (whole - digits.length) '0' ++ (if s.keepsPoint then ['.', '0'] else [])
    else digits.take whole ++ '.' :: digits.drop whole

def scientific (digits : List Char) (e : Int) : List Char :=
  let point := if digits.length ≤ 1 then [] else '.' :: digits.drop 1
  digits.take 1 ++ point ++ 'e' :: (if e < 0 then '-' else '+') :: Nat.toDigits 10 e.natAbs

def render (s : NumeralStyle) (x : Binary64) : String :=
  let (digits, e) := x.shortest s.tiesToEven
  let body := if s.isPositional e then positional s digits e else scientific digits e
  String.ofList (if x.negative then '-' :: body else body)

end Binary64

end DiagramText
