namespace DiagramText

/-- The significands and exponents of binary64 numbers, each number written in one way. -/
def Binary64.Canonical (significand : Nat) (exponent : Int) : Prop :=
  significand < Nat.pow 2 53 ∧ -1074 ≤ exponent ∧ exponent ≤ 971 ∧
    (Nat.pow 2 52 ≤ significand ∨ exponent = -1074)

instance (m : Nat) (q : Int) : Decidable (Binary64.Canonical m q) := by
  unfold Binary64.Canonical; infer_instance

/-- The number `significand * 2 ^ exponent`, or its opposite; zero has a sign too. -/
structure Binary64 where
  negative : Bool
  significand : Nat
  exponent : Int
  canonical : Binary64.Canonical significand exponent
  deriving DecidableEq, Repr

namespace Binary64

def zero (negative : Bool) : Binary64 :=
  ⟨negative, 0, -1074, by decide⟩

instance : Inhabited Binary64 :=
  ⟨zero false⟩

def scaled (n d : Nat) (q : Int) : Nat × Nat :=
  (n * Nat.pow 2 (-q).toNat, d * Nat.pow 2 q.toNat)

/-- The greatest `e` with `2 ^ e ≤ n / d`. -/
def floorLog2 (n d : Nat) : Int :=
  let e : Int := (n.log2 : Int) - d.log2
  let (a, b) := scaled n d e
  if b ≤ a then e else e - 1

/-- The integer nearest to `n / d`; of two the even one. -/
def roundHalfEven (n d : Nat) : Nat :=
  let k := n / d
  let r := n % d
  if 2 * r < d ∨ 2 * r = d ∧ k % 2 = 0 then k else k + 1

/-- The significand and exponent nearest to `n / d`, without an upper bound on the exponent. -/
def nearest (n d : Nat) : Nat × Int :=
  let q := max (floorLog2 n d - 52) (-1074)
  let (a, b) := scaled n d q
  let m := roundHalfEven a b
  if m = Nat.pow 2 53 then (Nat.pow 2 52, q + 1) else (m, q)

def ofRatio? (negative : Bool) (n d : Nat) : Option Binary64 :=
  if n = 0 then some (zero negative)
  else
    let (m, q) := nearest n d
    if h : Canonical m q then some ⟨negative, m, q, h⟩ else none

def toNat? (x : Binary64) : Option Nat :=
  if x.negative ∧ x.significand ≠ 0 then none
  else if x.significand % Nat.pow 2 (-x.exponent).toNat = 0 then
    some (x.significand * Nat.pow 2 x.exponent.toNat / Nat.pow 2 (-x.exponent).toNat)
  else none

end Binary64

end DiagramText
