import DiagramText.Value

namespace DiagramText

/-- A refusal for what was expected may be taken back by an alternative, one for an invalid value
may not. -/
inductive Refusal
  | expected (what : String)
  | invalid (fault : Fault)

inductive Outcome (α : Type)
  | accepted (value : α) (rest : List Token)
  | refused (why : Refusal) (rest : List Token)

/-- Reads a beginning of a list of tokens. -/
def Production (α : Type) := List Token → Outcome α

def Refusal.fault (textEnd : Nat) (rest : List Token) : Refusal → Fault
  | invalid f => f
  | expected what =>
    match rest with
    | [] => .endOfInput textEnd what
    | t :: _ => if t.kind = .newline then .endOfLine t.span what else .unexpectedToken t what

namespace Token

def isNewline (t : Token) : Bool :=
  t.kind = .newline

end Token

namespace Production

variable {α β : Type}

protected def pure (a : α) : Production α := fun ts ↦
  .accepted a ts

protected def bind (p : Production α) (f : α → Production β) : Production β := fun ts ↦
  match p ts with
  | .accepted a rest => f a rest
  | .refused why rest => .refused why rest

instance : Monad Production where
  pure := Production.pure
  bind := Production.bind

@[simp] theorem pure_apply (a : α) (ts : List Token) :
    (pure a : Production α) ts = .accepted a ts := rfl

theorem bind_apply (p : Production α) (f : α → Production β) (ts : List Token) :
    (p >>= f) ts =
      match p ts with
      | .accepted a rest => f a rest
      | .refused why rest => .refused why rest := rfl

def expected (what : String) : Production α := fun ts ↦
  .refused (.expected what) ts

def invalid (f : Fault) : Production α := fun ts ↦
  .refused (.invalid f) ts

def nextKind : Production (Option Token.Kind) := fun ts ↦
  .accepted (ts.head?.map Token.kind) ts

def satisfying (what : String) (f : Token → Option α) : Production α
  | [] => .refused (.expected what) []
  | t :: ts =>
    match f t with
    | some a => .accepted a ts
    | none => .refused (.expected what) (t :: ts)

def token (kind : Token.Kind) (what : String) : Production Token :=
  satisfying what fun t ↦ if t.kind = kind then some t else none

def keyword (k : Keyword) : Production Token :=
  token (.keyword k) k.text

def symbol (s : Symbol) : Production Token :=
  token (.symbol s) s.text

def keywordOf (ks : List Keyword) (what : String) : Production Keyword :=
  satisfying what fun t ↦ ks.find? fun k ↦ t.kind = .keyword k

/-- The production, or nothing where something else was expected. -/
def optional (p : Production α) : Production (Option α) := fun ts ↦
  match p ts with
  | .accepted a rest => .accepted (some a) rest
  | .refused (.expected _) _ => .accepted none ts
  | .refused (.invalid f) rest => .refused (.invalid f) rest

def many (p : Production α) (ts : List Token) : Outcome (List α) :=
  match p ts with
  | .accepted a rest =>
    if rest.length < ts.length then
      match many p rest with
      | .accepted as rest => .accepted (a :: as) rest
      | .refused why rest => .refused why rest
    else .accepted [] ts
  | .refused (.expected _) _ => .accepted [] ts
  | .refused (.invalid f) rest => .refused (.invalid f) rest
termination_by ts.length

def many1 (p : Production α) : Production (List α) := do
  let a ← p
  let as ← many p
  pure (a :: as)

def newlines : Production Unit := fun ts ↦
  .accepted () (ts.dropWhile Token.isNewline)

/-- The end of a statement: line ends, or the end of the text. -/
def endOfLine : Production Unit
  | [] => .accepted () []
  | t :: ts =>
    if t.isNewline then .accepted () (ts.dropWhile Token.isNewline)
    else .refused (.expected "end of line") (t :: ts)

def value (read : Reader) (kind : Token.Kind) (what : String) : Production (Spanned Value) :=
  fun ts ↦
    match token kind what ts with
    | .refused why rest => .refused why rest
    | .accepted t rest =>
      match read t with
      | .ok v => .accepted ⟨v, t.span⟩ rest
      | .error f => .refused (.invalid f) ts

def text (read : Reader) (kind : Token.Kind) (what : String) : Production (Spanned String) := do
  let v ← value read kind what
  pure (v.map Value.toText)

def number (read : Reader) (kind : Token.Kind) (what : String) : Production (Spanned Binary64) := do
  let v ← value read kind what
  match v.value with
  | .number x => pure ⟨x, v.span⟩
  | .text s => invalid (.notANumber s v.span)

end Production

end DiagramText
