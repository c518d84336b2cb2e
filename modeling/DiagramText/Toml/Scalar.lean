import DiagramText.Data
import DiagramText.Number.Decimal
import DiagramText.Toml.Text

namespace DiagramText.Toml

/-- The digits of a numeral without the underscores, each of which stands between two digits. -/
def digits? (isDigit : Char → Bool) : List Char → Option (List Char)
  | [] => none
  | [c] => if isDigit c then some [c] else none
  | c :: '_' :: cs => if isDigit c then (digits? isDigit cs).map (c :: ·) else none
  | c :: cs => if isDigit c then (digits? isDigit cs).map (c :: ·) else none

def isOfBase (base : Nat) (c : Char) : Bool :=
  (hexDigit? c).any (· < base)

def ofBase (base : Nat) (digits : List Char) : Nat :=
  digits.foldl (fun n c ↦ base * n + (hexDigit? c).getD 0) 0

/-- Decimal digits that begin with a zero only if there are no others. -/
def wholeDigits? (cs : List Char) : Option (List Char) :=
  (digits? Char.isDigit cs).filter fun ds ↦ ds.head? ≠ some '0' || ds.length = 1

def bounded? (n : Int) : Option Data :=
  if -(Nat.pow 2 127 : Int) ≤ n ∧ n < Nat.pow 2 128 then some (.integer n) else none

def integer? : List Char → Option Data
  | '0' :: 'x' :: cs => (digits? (isOfBase 16) cs).bind fun ds ↦ bounded? (ofBase 16 ds)
  | '0' :: 'o' :: cs => (digits? (isOfBase 8) cs).bind fun ds ↦ bounded? (ofBase 8 ds)
  | '0' :: 'b' :: cs => (digits? (isOfBase 2) cs).bind fun ds ↦ bounded? (ofBase 2 ds)
  | cs =>
    let (negative, magnitude) := Decimal.sign cs
    (wholeDigits? magnitude).bind fun ds ↦
      let n : Int := ofBase 10 ds
      bounded? (if negative then -n else n)

def exponent? : List Char → Option (List Char)
  | [] => some []
  | c :: cs =>
    if c = 'e' || c = 'E' then
      let (negative, magnitude) := Decimal.sign cs
      (digits? Char.isDigit magnitude).map fun ds ↦ 'e' :: (if negative then '-' :: ds else ds)
    else none

def isMantissa (c : Char) : Bool :=
  c.isDigit || c = '_'

/-- A number with a point, a power of ten or both, and digits on either side of the point. -/
def float? (cs : List Char) : Option Data := do
  let (negative, magnitude) := Decimal.sign cs
  if magnitude = "inf".toList ∨ magnitude = "nan".toList then some (.float none)
  else
    let whole ← wholeDigits? (magnitude.takeWhile isMantissa)
    let (fraction, power) ← match magnitude.dropWhile isMantissa with
      | '.' :: rest => do
        some ('.' :: (← digits? Char.isDigit (rest.takeWhile isMantissa)), rest.dropWhile isMantissa)
      | rest => if rest.isEmpty then none else some ([], rest)
    let numeral := whole ++ fraction ++ (← exponent? power)
    some (.float (some (← Binary64.ofText? (if negative then '-' :: numeral else numeral))))

def pair? (a b : Char) : Option Nat :=
  if a.isDigit && b.isDigit then some (ofBase 10 [a, b]) else none

def daysOf (year month : Nat) : Nat :=
  if month = 2 then
    if year % 4 = 0 ∧ (year % 100 ≠ 0 ∨ year % 400 = 0) then 29 else 28
  else if month ∈ [4, 6, 9, 11] then 30
  else 31

def afterDay? : List Char → Option (List Char)
  | a :: b :: c :: d :: '-' :: m :: n :: '-' :: e :: f :: rest => do
    let year := 100 * (← pair? a b) + (← pair? c d)
    let month ← pair? m n
    let day ← pair? e f
    if 1 ≤ month ∧ month ≤ 12 ∧ 1 ≤ day ∧ day ≤ daysOf year month then some rest else none
  | _ => none

def afterMinute? : List Char → Option (List Char)
  | a :: b :: ':' :: c :: d :: rest => do
    if (← pair? a b) ≤ 23 ∧ (← pair? c d) ≤ 59 then some rest else none
  | _ => none

/-- The text after a time of day; the seconds and their fraction may be missing. -/
def afterTime? (cs : List Char) : Option (List Char) := do
  match ← afterMinute? cs with
  | ':' :: a :: b :: rest =>
    if (← pair? a b) ≤ 60 then
      match rest with
      | '.' :: fraction =>
        if fraction.head?.any Char.isDigit then some (fraction.dropWhile Char.isDigit) else none
      | _ => some rest
    else none
  | rest => some rest

/-- The text after a time and its distance from universal time, which may be missing. -/
def afterZoned? (cs : List Char) : Option (List Char) := do
  match ← afterTime? cs with
  | c :: rest =>
    if c = 'Z' || c = 'z' then some rest
    else if c = '+' || c = '-' then afterMinute? rest
    else none
  | [] => some []

def isMoment (cs : List Char) : Bool :=
  match afterDay? cs with
  | some [] => true
  | some (c :: rest) => (c = 'T' || c = 't' || c = ' ') && afterZoned? rest = some []
  | none => afterTime? cs = some []

def scalar? (cs : List Char) : Option Data :=
  if cs = "true".toList then some (.bool true)
  else if cs = "false".toList then some (.bool false)
  else if isMoment cs then some (.moment (String.ofList cs))
  else integer? cs <|> float? cs

def word : Pattern :=
  .many1 fun c ↦ Pattern.isWordChar c || c = '+' || c = '-' || c = '.' || c = ':'

/-- A day, a blank and a time, which are one value. -/
def spacedMoment : Pattern := fun cs ↦
  ((word.seq ((Pattern.literal [' ']).seq word)) cs).filter fun (taken, _) ↦ isMoment taken

def scalar : Reader Data := do
  StateT.lift (scalar? (← Reader.taken (spacedMoment.alt word)))

end DiagramText.Toml
