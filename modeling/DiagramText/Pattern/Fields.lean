import DiagramText.Pattern.Lexical

namespace DiagramText.Pattern

/-- The rest of a quoted field whose opening quote is read; two quotes in a row are one that
belongs to the field. -/
def quotedRest : Pattern
  | '"' :: '"' :: cs => (quotedRest cs).map fun (taken, rest) ↦ ('"' :: '"' :: taken, rest)
  | '"' :: cs => some (['"'], cs)
  | c :: cs => (quotedRest cs).map fun (taken, rest) ↦ (c :: taken, rest)
  | [] => none

/-- A quoted field that is not empty, over any number of lines. -/
def quotedField : Pattern := fun cs ↦
  ((literal ['"']).seq quotedRest cs).filter fun (taken, _) ↦ 2 < taken.length

def sankeyNode : Pattern := fun cs ↦
  if Text.startsWith ['"'] cs then quotedField cs else (freeText [',']).nonempty cs

/-- The text leaves nothing on its line but blanks and a comment. -/
def endsLine (cs : List Char) : Bool :=
  let rest := cs.dropWhile isSpace
  rest.head?.all Text.isBreak || Text.startsWith commentMark rest

/-- A number, quoted or not, that is the last thing on its line. -/
def sankeyValue : Pattern :=
  (digits.alt ((literal ['"']).seq (digits.seq (literal ['"'])))).whenRest endsLine

def sectionTitle : Pattern :=
  (literal "section".toList).seq ((many1 isSpace).seq (freeText []).nonempty)

def periodTitle : Pattern :=
  (freeText [':']).nonempty

def periodEvent : Pattern :=
  (literal [':']).seq ((many isSpace).seq (freeText [':']).nonempty)

def enclosed (opening : List Char) (inner : Char → Bool) (closing : List Char) : Pattern :=
  (literal opening).seq ((many1 inner).seq (literal closing))

def archIcon : Pattern :=
  enclosed ['('] (fun c ↦ isWordChar c || c = ':' || c = '-') [')']

def archTextIcon : Pattern :=
  enclosed ['(', '"'] (fun c ↦ !(c = '"' || Text.isBreak c)) ['"', ')']

def archTitle : Pattern :=
  enclosed ['['] (fun c ↦ !(c = ']' || Text.isBreak c)) [']']

end DiagramText.Pattern
