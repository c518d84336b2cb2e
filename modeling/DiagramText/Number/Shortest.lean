import DiagramText.Number.Binary64

namespace DiagramText.Binary64

/-- The greatest `e` with `10 ^ e ≤ n / d`. -/
def floorLog10 (n d : Nat) : Int :=
  let e : Int := ((Nat.toDigits 10 n).length : Int) - (Nat.toDigits 10 d).length
  if d * Nat.pow 10 e.toNat ≤ n * Nat.pow 10 (-e).toNat then e else e - 1

/-- Numerators over one denominator: a number, and the bounds of what is read as it. -/
structure Interval where
  low : Nat
  value : Nat
  high : Nat
  denominator : Nat
  closed : Bool

/-- The reals that round to the number. The spacing is halved below a power of two; the bounds
themselves round to an even significand. -/
def interval (x : Binary64) : Interval :=
  let up := Nat.pow 2 (x.exponent - 2).toNat
  let below := if x.significand = Nat.pow 2 52 ∧ x.exponent ≠ -1074 then 1 else 2
  { low := (4 * x.significand - below) * up
    value := 4 * x.significand * up
    high := (4 * x.significand + 2) * up
    denominator := Nat.pow 2 (2 - x.exponent).toNat
    closed := x.significand % 2 = 0 }

def Interval.scaled (i : Interval) (e : Int) : Interval :=
  let s := Nat.pow 10 (-e).toNat
  ⟨i.low * s, i.value * s, i.high * s, i.denominator * Nat.pow 10 e.toNat, i.closed⟩

def Interval.contains (i : Interval) (k : Nat) : Bool :=
  let n := k * i.denominator
  if i.closed then i.low ≤ n && n ≤ i.high else i.low < n && n < i.high

def Interval.integer? (tiesToEven : Bool) (i : Interval) : Option Nat :=
  let k := i.value / i.denominator
  let twice := 2 * (i.value % i.denominator)
  match i.contains k, i.contains (k + 1) with
  | false, false => none
  | true, false => some k
  | false, true => some (k + 1)
  | true, true =>
    if twice < i.denominator then some k
    else if i.denominator < twice then some (k + 1)
    else if tiesToEven && k % 2 = 0 then some k
    else some (k + 1)

/-- The first of the grids of `e + 1 - n`, `e + 1 - (n + 1)`, … places that has a point in the
interval, and that point. -/
def Interval.firstPoint (tiesToEven : Bool) (i : Interval) (e : Int) : Nat → Nat → Nat × Int
  | 0, n => let g := e + 1 - n; ((i.scaled g).value / (i.scaled g).denominator, g)
  | fuel + 1, n =>
    let g := e + 1 - n
    match (i.scaled g).integer? tiesToEven with
    | some k => (k, g)
    | none => i.firstPoint tiesToEven e fuel (n + 1)

/-- The significant digits and the exponent of the first one. Seventeen digits always suffice. -/
def shortest (tiesToEven : Bool) (x : Binary64) : List Char × Int :=
  if x.significand = 0 then (['0'], 0)
  else
    let i := x.interval
    let (k, g) := i.firstPoint tiesToEven (floorLog10 i.value i.denominator) 17 1
    let digits := Nat.toDigits 10 k
    ((digits.reverse.dropWhile (· = '0')).reverse, g + digits.length - 1)

end DiagramText.Binary64
