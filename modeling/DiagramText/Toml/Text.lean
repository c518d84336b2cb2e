import DiagramText.Toml.Reader

namespace DiagramText.Toml

/-- Between three quotes a string goes over lines. Double quotes admit escapes, single quotes do
not. -/
structure Quotes where
  quote : Char
  isTripled : Bool

namespace Quotes

def escapes (q : Quotes) : Bool :=
  q.quote = '"'

def mark (q : Quotes) : List Char :=
  List.replicate (if q.isTripled then 3 else 1) q.quote

def admits (q : Quotes) (c : Char) (cs : List Char) : Bool :=
  !isControl c || q.isTripled && (c = '\n' || c = '\r' && cs.head? = some '\n')

/-- The end of the string, if `cs` begins with one. Up to two quotes before three of them belong to
the string. -/
def end? (q : Quotes) (cs : List Char) : Option (List Char × List Char) :=
  (Text.after? q.mark cs).map fun rest ↦
    let inner := if q.isTripled then (rest.take 2).takeWhile (· = q.quote) else []
    (inner, rest.drop inner.length)

def body (q : Quotes) : Pattern
  | [] => none
  | [c] => if (q.end? [c]).isSome then some ([], []) else none
  | c :: d :: cs =>
    if c = '\\' && q.escapes then (q.body cs).map fun (taken, rest) ↦ (c :: d :: taken, rest)
    else
      match q.end? (c :: d :: cs) with
      | some r => some r
      | none =>
        if q.admits c (d :: cs) then (q.body (d :: cs)).map fun (taken, rest) ↦ (c :: taken, rest)
        else none

end Quotes

def hexDigit? (c : Char) : Option Nat :=
  if c.isDigit then some (c.toNat - '0'.toNat)
  else if 'a' ≤ c && c ≤ 'f' then some (c.toNat - 'a'.toNat + 10)
  else if 'A' ≤ c && c ≤ 'F' then some (c.toNat - 'A'.toNat + 10)
  else none

def codePoint? (digits : List Char) : Option Char := do
  let n := (← digits.mapM hexDigit?).foldl (fun n d ↦ 16 * n + d) 0
  if h : n.isValidChar then some (Char.ofNatAux n h) else none

def escaped? : Char → Option Char
  | 'b' => some '\x08'
  | 't' => some '\t'
  | 'n' => some '\n'
  | 'f' => some '\x0c'
  | 'r' => some '\r'
  | 'e' => some '\x1b'
  | '"' => some '"'
  | '\\' => some '\\'
  | _ => none

def endsLine (cs : List Char) : Bool :=
  (Pattern.lineEnd (cs.dropWhile Pattern.isSpace)).isSome

def isVoid (c : Char) : Bool :=
  Pattern.isSpace c || Text.isBreak c

/-- The text that a written string with escapes stands for. A backslash at the end of a line takes
away the blanks and line ends after it, which is what `joining` says is going on. -/
def unescape (joining : Bool) : List Char → Option (List Char)
  | [] => some []
  | '\\' :: 'x' :: a :: b :: cs => do
    some ((← codePoint? [a, b]) :: (← unescape false cs))
  | '\\' :: 'u' :: a :: b :: c :: d :: cs => do
    some ((← codePoint? [a, b, c, d]) :: (← unescape false cs))
  | '\\' :: 'U' :: a :: b :: c :: d :: e :: f :: g :: h :: cs => do
    some ((← codePoint? [a, b, c, d, e, f, g, h]) :: (← unescape false cs))
  | '\\' :: c :: cs =>
    if isVoid c then if endsLine (c :: cs) then unescape true cs else none
    else do some ((← escaped? c) :: (← unescape false cs))
  | c :: cs =>
    if joining && isVoid c then unescape true cs else do some (c :: (← unescape false cs))

def quoted (q : Quotes) : Reader String := do
  Reader.skip (.literal q.mark)
  if q.isTripled then Reader.skip Pattern.lineEnd.optional
  let body ← Reader.taken q.body
  let text ← if q.escapes then StateT.lift (unescape false body) else pure body
  pure (String.ofList text)

def string : Reader String :=
  quoted ⟨'"', true⟩ <|> quoted ⟨'\'', true⟩ <|> quoted ⟨'"', false⟩ <|> quoted ⟨'\'', false⟩

def simpleKey : Reader String :=
  String.ofList <$> Reader.taken (.many1 fun c ↦ Pattern.isWordChar c || c = '-') <|>
    quoted ⟨'"', false⟩ <|> quoted ⟨'\'', false⟩

def key : Reader (List String) :=
  Reader.separated simpleKey do
    Reader.skip blanks
    Reader.mark "."
    Reader.skip blanks

end DiagramText.Toml
