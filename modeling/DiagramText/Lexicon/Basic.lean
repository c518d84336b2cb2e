import DiagramText.Pattern.Fields
import DiagramText.Token

namespace DiagramText

structure Match where
  kind : Token.Kind
  text : List Char
  rest : List Char

structure Rule where
  kind : Token.Kind
  matcher : Matcher

namespace Rule

def ofPattern (kind : Token.Kind) (p : Pattern) : Rule :=
  ⟨kind, p.matcher⟩

def keyword (k : Keyword) : Rule :=
  ofPattern (.keyword k) (Pattern.keyword k.text.toList)

def symbol (s : Symbol) : Rule :=
  ofPattern (.symbol s) (Pattern.literal s.text.toList)

/-- A match takes at least one character and ends between two, whatever the matcher says. -/
def match? (r : Rule) (c : Cursor) : Option Match :=
  (r.matcher c).bind fun stop ↦
    if stop ≤ c.offset then none
    else (Text.splitBytes? (stop - c.offset) c.after).map fun (text, rest) ↦ ⟨r.kind, text, rest⟩

theorem after_eq_of_match? {r : Rule} {c : Cursor} {m : Match} (h : r.match? c = some m) :
    c.after = m.text ++ m.rest ∧ m.text ≠ [] := by
  obtain ⟨stop, -, h⟩ := Option.bind_eq_some_iff.1 h
  split at h
  · cases h
  · obtain ⟨⟨text, rest⟩, hs, rfl⟩ := Option.map_eq_some_iff.1 h
    obtain ⟨he, hn⟩ := Text.splitBytes?_eq_some_iff.1 hs
    refine ⟨he, ?_⟩
    rintro rfl
    simp at hn
    omega

end Rule

structure Lexicon where
  rules : List Rule

namespace Lexicon

def base : Lexicon :=
  ⟨[⟨.directive, Matcher.directive⟩,
    .ofPattern .blockComment Pattern.blockComment,
    .ofPattern .lineComment Pattern.lineComment,
    .ofPattern .whitespace Pattern.whitespace,
    .ofPattern .newline Pattern.lineEnd]⟩

def add (l : Lexicon) (rules : List Rule) : Lexicon :=
  ⟨l.rules ++ rules⟩

def keywords (l : Lexicon) (ks : List Keyword) : Lexicon :=
  l.add (ks.map Rule.keyword)

/-- The symbols from the longest to the shortest, those of one length in the given order. -/
def longestFirst (ss : List Symbol) : List Symbol :=
  ss.mergeSort fun a b ↦ b.text.utf8ByteSize ≤ a.text.utf8ByteSize

def symbols (l : Lexicon) (ss : List Symbol) : Lexicon :=
  l.add ((longestFirst ss).map Rule.symbol)

def annotations (l : Lexicon) : Lexicon :=
  l.add [.ofPattern .accDescr Pattern.accDescr, .ofPattern .accTitle Pattern.accTitle,
    .ofPattern .title Pattern.title]

def match? (l : Lexicon) (c : Cursor) : Option Match :=
  l.rules.findSome? fun r ↦ r.match? c

theorem after_eq_of_match? {l : Lexicon} {c : Cursor} {m : Match} (h : l.match? c = some m) :
    c.after = m.text ++ m.rest ∧ m.text ≠ [] := by
  obtain ⟨r, -, hr⟩ := List.exists_of_findSome?_eq_some h
  exact Rule.after_eq_of_match? hr

theorem length_rest_lt_of_match? {l : Lexicon} {c : Cursor} {m : Match} (h : l.match? c = some m) :
    m.rest.length < c.after.length := by
  obtain ⟨he, hn⟩ := after_eq_of_match? h
  have := List.length_pos_iff.2 hn
  rw [he, List.length_append]
  omega

end Lexicon

end DiagramText
