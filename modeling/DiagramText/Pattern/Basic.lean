import DiagramText.Cursor
import DiagramText.Text.Blank

namespace DiagramText

open Text (byteSize)

/-- Reads a beginning of a text: the part taken and the rest. -/
abbrev Pattern := List Char → Option (List Char × List Char)

/-- The byte offset at which a match that starts at the cursor ends. -/
abbrev Matcher := Cursor → Option Nat

namespace Pattern

def Splits (p : Pattern) : Prop :=
  ∀ cs taken rest, p cs = some (taken, rest) → cs = taken ++ rest

def literal (mark : List Char) : Pattern := fun cs ↦
  (Text.after? mark cs).map fun rest ↦ (mark, rest)

def many (p : Char → Bool) : Pattern := fun cs ↦
  some (cs.takeWhile p, cs.dropWhile p)

def many1 (p : Char → Bool) : Pattern := fun cs ↦
  if cs.takeWhile p = [] then none else some (cs.takeWhile p, cs.dropWhile p)

def one (p : Char → Bool) : Pattern
  | c :: cs => if p c then some ([c], cs) else none
  | [] => none

def through (mark : List Char) : Pattern := fun cs ↦
  (Text.cut? mark cs).map fun (before, rest) ↦ (before ++ mark, rest)

def seq (p q : Pattern) : Pattern := fun cs ↦
  (p cs).bind fun (a, r) ↦ (q r).map fun (b, rest) ↦ (a ++ b, rest)

def alt (p q : Pattern) : Pattern := fun cs ↦
  match p cs with
  | some r => some r
  | none => q cs

def optional (p : Pattern) : Pattern := fun cs ↦
  some ((p cs).getD ([], cs))

def whenRest (p : Pattern) (ok : List Char → Bool) : Pattern := fun cs ↦
  (p cs).filter fun (_, rest) ↦ ok rest

def nonempty (p : Pattern) : Pattern := fun cs ↦
  (p cs).filter fun (taken, _) ↦ !taken.isEmpty

/-- The pattern as a matcher. Nothing matches without characters. -/
def matcher (p : Pattern) : Matcher := fun c ↦
  (p c.after).bind fun (taken, _) ↦
    if taken.isEmpty then none else some (c.offset + byteSize taken)

theorem splits_literal (mark : List Char) : Splits (literal mark) := by
  intro cs taken rest h
  obtain ⟨r, hr, he⟩ := Option.map_eq_some_iff.1 h
  obtain ⟨rfl, rfl⟩ := Prod.mk.inj he
  exact Text.after?_eq_some_iff.1 hr

theorem splits_many (p : Char → Bool) : Splits (many p) := by
  intro cs taken rest h
  obtain ⟨rfl, rfl⟩ := Prod.mk.inj (Option.some.inj h)
  exact (List.takeWhile_append_dropWhile).symm

theorem splits_many1 (p : Char → Bool) : Splits (many1 p) := by
  intro cs taken rest h
  unfold many1 at h
  split at h
  · cases h
  · exact splits_many p cs taken rest h

theorem splits_one (p : Char → Bool) : Splits (one p) := by
  intro cs taken rest h
  cases cs with
  | nil => cases h
  | cons c cs =>
    simp only [one] at h
    split at h
    · obtain ⟨rfl, rfl⟩ := Prod.mk.inj (Option.some.inj h)
      rfl
    · cases h

theorem splits_through (mark : List Char) : Splits (through mark) := by
  intro cs taken rest h
  obtain ⟨⟨b, r⟩, hb, he⟩ := Option.map_eq_some_iff.1 h
  obtain ⟨rfl, rfl⟩ := Prod.mk.inj he
  exact Text.eq_append_of_cut? hb

theorem Splits.seq {p q : Pattern} (hp : Splits p) (hq : Splits q) : Splits (p.seq q) := by
  intro cs taken rest h
  obtain ⟨⟨a, r⟩, ha, hr⟩ := Option.bind_eq_some_iff.1 h
  obtain ⟨⟨b, s⟩, hb, he⟩ := Option.map_eq_some_iff.1 hr
  obtain ⟨rfl, rfl⟩ := Prod.mk.inj he
  rw [hp _ _ _ ha, hq _ _ _ hb, List.append_assoc]

theorem Splits.alt {p q : Pattern} (hp : Splits p) (hq : Splits q) : Splits (p.alt q) := by
  intro cs taken rest h
  unfold Pattern.alt at h
  split at h
  · rename_i r hr
    exact hp _ _ _ (hr.trans h)
  · exact hq _ _ _ h

theorem Splits.optional {p : Pattern} (hp : Splits p) : Splits p.optional := by
  intro cs taken rest h
  unfold Pattern.optional at h
  cases hc : p cs with
  | none =>
    rw [hc] at h
    obtain ⟨rfl, rfl⟩ := Prod.mk.inj (Option.some.inj h)
    rfl
  | some r =>
    rw [hc] at h
    obtain rfl := Option.some.inj h
    exact hp _ _ _ hc

theorem Splits.whenRest {p : Pattern} (hp : Splits p) (ok : List Char → Bool) :
    Splits (p.whenRest ok) := fun cs taken rest h ↦
  hp cs taken rest (Option.filter_eq_some_iff.1 h).1

theorem Splits.nonempty {p : Pattern} (hp : Splits p) : Splits p.nonempty := fun cs taken rest h ↦
  hp cs taken rest (Option.filter_eq_some_iff.1 h).1

end Pattern

end DiagramText
