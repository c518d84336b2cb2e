import DiagramText.Fault
import DiagramText.Lexicon.Basic

namespace DiagramText

structure Lexed where
  tokens : List Token
  errors : List Diagnostic
  deriving DecidableEq, Repr

namespace Lexicon

open Text (byteSize)

def token (kind : Token.Kind) (c : Cursor) (text : List Char) : Token :=
  ⟨kind, String.ofList text, ⟨c.offset, c.offset + byteSize text⟩⟩

/-- The text up to the next blank or the next place where a rule matches; `before` is what stands
before it. -/
def upToMatch (l : Lexicon) (before : List Char) : List Char → List Char × List Char
  | [] => ([], [])
  | c :: cs =>
    if Text.isBlank c || (l.match? ⟨before, c :: cs⟩).isSome then ([], c :: cs)
    else
      let (taken, rest) := l.upToMatch (c :: before) cs
      (c :: taken, rest)

def isQuote (c : Char) : Bool :=
  c = '"' || c = '\''

/-- The run of text given up where no rule matches: after a quote the rest of the line, else the
text up to the next place to go on. -/
def unmatched (l : Lexicon) (before : List Char) (c : Char) (cs : List Char) :
    List Char × List Char :=
  if isQuote c then
    (c :: cs.takeWhile fun c ↦ !Text.isBreak c, cs.dropWhile fun c ↦ !Text.isBreak c)
  else
    let (taken, rest) := l.upToMatch (c :: before) cs
    (c :: taken, rest)

def unmatchedFault (t : Token) : Fault :=
  if t.text.toList.head?.any isQuote then .unterminatedString t.text t.span
  else .unexpectedText t.text t.span

theorem upToMatch_append (l : Lexicon) (before cs : List Char) :
    (l.upToMatch before cs).1 ++ (l.upToMatch before cs).2 = cs := by
  induction cs generalizing before with
  | nil => rfl
  | cons c cs ih =>
    unfold upToMatch
    split
    · rfl
    · simp [ih]

theorem unmatched_append (l : Lexicon) (before : List Char) (c : Char) (cs : List Char) :
    (l.unmatched before c cs).1 ++ (l.unmatched before c cs).2 = c :: cs := by
  unfold unmatched
  split
  · simp
  · simp [upToMatch_append]

theorem length_unmatched_lt (l : Lexicon) (before : List Char) (c : Char) (cs : List Char) :
    (l.unmatched before c cs).2.length < cs.length + 1 := by
  unfold unmatched
  split
  · exact Nat.lt_succ_of_le (List.dropWhile_suffix _).length_le
  · have := congrArg List.length (l.upToMatch_append (c :: before) cs)
    simp only [List.length_append] at this
    simp only
    omega

/-- Text that no rule matches becomes an `invalid` token and a diagnostic. -/
def scan (l : Lexicon) (c : Cursor) : Lexed :=
  match ha : c.after with
  | [] => ⟨[], []⟩
  | ch :: cs =>
    match hm : l.match? c with
    | some m =>
      have := ha ▸ length_rest_lt_of_match? hm
      let next := l.scan (c.past m.text m.rest)
      if m.kind.isHidden then next else ⟨token m.kind c m.text :: next.tokens, next.errors⟩
    | none =>
      have := l.length_unmatched_lt c.before ch cs
      let run := l.unmatched c.before ch cs
      let next := l.scan (c.past run.1 run.2)
      let t := token .invalid c run.1
      ⟨t :: next.tokens, (unmatchedFault t).diagnostic :: next.errors⟩
termination_by c.after.length
decreasing_by all_goals rw [ha]; exact this

def tokenize (l : Lexicon) (text : List Char) : Lexed :=
  l.scan (.start text)

end Lexicon

end DiagramText
