import DiagramText.Pattern.Basic

namespace DiagramText

namespace Pattern

def isWordChar (c : Char) : Bool :=
  c.isAlphanum || c = '_'

def isSpace (c : Char) : Bool :=
  c = ' ' || c = '\t'

def commentMark : List Char :=
  ['%', '%']

/-- Free text: all up to a line break, a comment mark or a character in `stops`. -/
def freeText (stops : List Char) : Pattern
  | [] => some ([], [])
  | c :: cs =>
    if Text.isBreak c || stops.contains c || Text.startsWith commentMark (c :: cs) then
      some ([], c :: cs)
    else (freeText stops cs).map fun (taken, rest) ↦ (c :: taken, rest)

/-- Blanks within a line, and carriage returns that begin no line end. -/
def blanks : Pattern
  | [] => some ([], [])
  | c :: cs =>
    if isSpace c || c = '\r' && cs.head? ≠ some '\n' then
      (blanks cs).map fun (taken, rest) ↦ (c :: taken, rest)
    else some ([], c :: cs)

def whitespace : Pattern :=
  blanks.nonempty

def lineEnd : Pattern :=
  (literal ['\r', '\n']).alt (literal ['\n'])

/-- A comment mark and the rest of its line, with the blanks before it. -/
def lineComment : Pattern :=
  (many isSpace).seq ((literal commentMark).seq (many fun c ↦ !Text.isBreak c))

/-- `%%*` to the next `*%%`, over any number of lines, with the blanks before it. -/
def blockComment : Pattern :=
  (many isSpace).seq ((literal ['%', '%', '*']).seq (through ['*', '%', '%']))

def directive : Pattern :=
  (literal ['%', '%', '\x7b']).seq (through ['\x7d', '%', '%'])

/-- A reserved word that no letter, digit, underscore or hyphen continues. -/
def keyword (word : List Char) : Pattern :=
  (literal word).whenRest fun rest ↦ !rest.head?.any fun c ↦ isWordChar c || c = '-'

def identifier : Pattern :=
  (one fun c ↦ c.isAlpha || c = '_').seq (many isWordChar)

def digits : Pattern :=
  (many1 Char.isDigit).seq ((literal ['.']).seq (many1 Char.isDigit)).optional

/-- Digits that no letter, digit, underscore or point continues. -/
def number : Pattern :=
  digits.whenRest fun rest ↦ !rest.head?.any fun c ↦ isWordChar c || c = '.'

def quoted (quote : Char) : Pattern :=
  (literal [quote]).seq ((many fun c ↦ !(c = quote || Text.isBreak c)).seq (literal [quote]))

def string : Pattern :=
  (quoted '"').alt (quoted '\'')

/-- `title`, alone on its line or followed by blank-separated text. -/
def title : Pattern :=
  ((literal "title".toList).whenRest fun rest ↦
    rest.head?.all (fun c ↦ Text.isBreak c || isSpace c) || Text.startsWith commentMark rest).seq
    (freeText [])

def labelled (word : List Char) : Pattern :=
  (literal word).seq ((many isSpace).seq ((literal [':']).seq (freeText [])))

def accTitle : Pattern :=
  labelled "accTitle".toList

/-- `accDescr`, with a colon and the rest of the line or with a block in braces. -/
def accDescr : Pattern :=
  (labelled "accDescr".toList).alt
    ((literal "accDescr".toList).seq
      ((many Text.isBlank).seq ((literal ['\x7b']).seq (through ['\x7d']))))

end Pattern

/-- A directive, which stands before any other content. -/
def Matcher.directive : Matcher := fun c ↦
  if c.before.all Text.isBlank then Pattern.directive.matcher c else none

namespace Pattern

theorem splits_freeText (stops : List Char) : Splits (freeText stops) := by
  intro cs
  induction cs with
  | nil => intro taken rest h; obtain ⟨rfl, rfl⟩ := Prod.mk.inj (Option.some.inj h); rfl
  | cons c cs ih =>
    intro taken rest h
    unfold freeText at h
    split at h
    · obtain ⟨rfl, rfl⟩ := Prod.mk.inj (Option.some.inj h); rfl
    · obtain ⟨⟨t, r⟩, ht, he⟩ := Option.map_eq_some_iff.1 h
      obtain ⟨rfl, rfl⟩ := Prod.mk.inj he
      rw [ih t r ht, List.cons_append]

theorem splits_blanks : Splits blanks := by
  intro cs
  induction cs with
  | nil => intro taken rest h; obtain ⟨rfl, rfl⟩ := Prod.mk.inj (Option.some.inj h); rfl
  | cons c cs ih =>
    intro taken rest h
    unfold blanks at h
    split at h
    · obtain ⟨⟨t, r⟩, ht, he⟩ := Option.map_eq_some_iff.1 h
      obtain ⟨rfl, rfl⟩ := Prod.mk.inj he
      rw [ih t r ht, List.cons_append]
    · obtain ⟨rfl, rfl⟩ := Prod.mk.inj (Option.some.inj h); rfl

end Pattern

end DiagramText
