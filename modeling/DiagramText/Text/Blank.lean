namespace DiagramText.Text

/-- The characters with the White_Space property. -/
def isBlank (c : Char) : Bool :=
  c = ' ' || ('\t' ≤ c && c ≤ '\r') || c = '\u0085' || c = '\u00a0' || c = '\u1680' ||
    ('\u2000' ≤ c && c ≤ '\u200a') || c = '\u2028' || c = '\u2029' || c = '\u202f' ||
    c = '\u205f' || c = '\u3000'

def isBreak (c : Char) : Bool :=
  c = '\n' || c = '\r'

def trimStart (cs : List Char) : List Char :=
  cs.dropWhile isBlank

def dropWhileEnd (p : Char → Bool) (cs : List Char) : List Char :=
  (cs.reverse.dropWhile p).reverse

def trimEnd (cs : List Char) : List Char :=
  dropWhileEnd isBlank cs

def trim (cs : List Char) : List Char :=
  trimEnd (trimStart cs)

theorem trimStart_length_le (cs : List Char) : (trimStart cs).length ≤ cs.length :=
  (List.dropWhile_suffix isBlank).length_le

def firstWord (cs : List Char) : List Char :=
  (trimStart cs).takeWhile fun c ↦ !isBlank c

end DiagramText.Text
