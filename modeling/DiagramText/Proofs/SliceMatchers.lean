import DiagramText.Proofs.Slices

namespace DiagramText

open Text (byteSize bytes find? findChar? from? isBlank isBreak sliceFrom sliceTo startsWith)
open Pattern (commentMark isSpace)

namespace Text

def skip (p : Char → Bool) (text : List Char) (start : Nat) : Sliced Nat := do
  let rest ← sliceFrom text start
  pure (start + (byteSize rest - byteSize (rest.dropWhile p)))

def freeTextEnd (stops : List Char) (text : List Char) (start : Nat) : Sliced Nat := do
  let rest ← sliceFrom text start
  let stop := (findChar? (fun c ↦ isBreak c || stops.contains c) rest).getD (byteSize rest)
  let line ← sliceTo rest stop
  pure (start + (find? commentMark line).getD stop)

def blanksEnd (bs : List UInt8) (stop : Nat) : Nat :=
  if h : stop < bs.length then
    if bs[stop] = ' '.toUInt8 ∨ bs[stop] = '\t'.toUInt8 ∨
        bs[stop] = '\r'.toUInt8 ∧ bs[stop + 1]? ≠ some '\n'.toUInt8 then
      blanksEnd bs (stop + 1)
    else stop
  else stop

/-- The offset of the quote that closes a field, from `index` on; two quotes in a row close none. -/
def closingQuote (field : List Char) (index : Nat) : Sliced (Option Nat) := do
  let rest ← sliceFrom field index
  match find? ['"'] rest with
  | none => pure none
  | some n =>
    if h : (bytes field)[index + n + 1]? = some '"'.toUInt8 then closingQuote field (index + n + 2)
    else pure (some (index + n))
termination_by byteSize field - index
decreasing_by
  obtain ⟨hlt, -⟩ := List.getElem?_eq_some_iff.1 h
  rw [length_bytes] at hlt
  omega

end Text

/-- Where a match that starts at a byte offset of a text stops. -/
abbrev SliceMatcher := List Char → Nat → Sliced (Option Nat)

namespace SliceMatcher

open Text (blanksEnd closingQuote freeTextEnd skip trim)

def total (f : List Char → Nat → Sliced Nat) : SliceMatcher := fun text start ↦ do
  pure (some (← f text start))

def seq (m n : SliceMatcher) : SliceMatcher := fun text start ↦ do
  match ← m text start with
  | some mid => n text mid
  | none => pure none

def alt (m n : SliceMatcher) : SliceMatcher := fun text start ↦ do
  match ← m text start with
  | some stop => pure (some stop)
  | none => n text start

def moving (m : SliceMatcher) : SliceMatcher := fun text start ↦ do
  pure ((← m text start).filter (start < ·))

/-- A pattern on the text from an offset on. A bad offset is no match. -/
def anchored (p : Pattern) : SliceMatcher := fun text start ↦
  pure ((from? text start).bind fun rest ↦ (p rest).bind fun (_, left) ↦
    let stop := byteSize text - byteSize left
    if start < stop then some stop else none)

def word (w : List Char) : SliceMatcher := fun text start ↦
  pure (if (from? text start).any (startsWith w) then some (start + byteSize w) else none)

/-- A mark at an offset, which has to be a good one. -/
def mark (w : List Char) : SliceMatcher := fun text start ↦ do
  let rest ← sliceFrom text start
  pure (if startsWith w rest then some (start + byteSize w) else none)

def whitespace : SliceMatcher := fun text start ↦
  let stop := blanksEnd (bytes text) start
  pure (if start < stop then some stop else none)

def directive : SliceMatcher := fun text start ↦ do
  let before ← sliceTo text start
  if (trim before).isEmpty then anchored Pattern.directive text start else pure none

def titleRest : SliceMatcher := fun text start ↦ do
  let rest ← sliceFrom text start
  match rest.head? with
  | none => pure (some start)
  | some c =>
    if isBreak c then pure (some start)
    else if isSpace c then total (freeTextEnd []) text start
    else pure (if startsWith commentMark rest then some start else none)

def title : SliceMatcher :=
  (word "title".toList).seq titleRest

def colonText : SliceMatcher :=
  (total (skip isSpace)).seq ((mark [':']).seq (total (freeTextEnd [])))

def accTitle : SliceMatcher :=
  (word "accTitle".toList).seq colonText

def braces : SliceMatcher := fun text brace ↦ do
  let body ← sliceFrom text brace
  if startsWith ['\x7b'] body then
    let body ← sliceFrom text brace
    pure ((find? ['\x7d'] body).map fun close ↦ brace + close + 1)
  else pure none

def accDescr : SliceMatcher :=
  (word "accDescr".toList).seq (colonText.alt ((total (skip isBlank)).seq braces))

def sankeyNode : SliceMatcher := fun text start ↦
  match from? text start with
  | none => pure none
  | some rest =>
    if startsWith ['"'] rest then do
      let quote ← closingQuote rest 1
      pure ((quote.filter (1 < ·)).map fun quote ↦ start + quote + 1)
    else moving (total (freeTextEnd [','])) text start

/-- Nothing but blanks and a comment on the rest of the line, which is not taken. -/
def lineEndAhead : SliceMatcher := fun text stop ↦ do
  let next ← skip isSpace text stop
  let tail ← sliceFrom text next
  pure (if tail.head?.all isBreak || startsWith commentMark tail then some stop else none)

def sankeyValue : SliceMatcher :=
  (anchored (Pattern.digits.alt
    ((Pattern.literal ['"']).seq (Pattern.digits.seq (Pattern.literal ['"']))))).seq lineEndAhead

def sectionTitle : SliceMatcher :=
  (word "section".toList).seq
    ((moving (total (skip isSpace))).seq (moving (total (freeTextEnd []))))

def periodTitle : SliceMatcher :=
  moving (total (freeTextEnd [':']))

def periodEvent : SliceMatcher :=
  (word [':']).seq ((total (skip isSpace)).seq (moving (total (freeTextEnd [':']))))

end SliceMatcher

namespace Pattern

def ahead (ok : List Char → Bool) : Pattern := fun cs ↦
  if ok cs then some ([], cs) else none

theorem splits_ahead (ok : List Char → Bool) : Splits (ahead ok) := by
  intro cs taken rest h
  simp only [ahead, Option.ite_none_right_eq_some, Option.some.injEq, Prod.mk.injEq] at h
  obtain ⟨-, rfl, rfl⟩ := h
  rfl

theorem whenRest_eq_seq_ahead (p : Pattern) (ok : List Char → Bool) :
    p.whenRest ok = p.seq (ahead ok) := by
  funext cs
  cases h : p cs with
  | none => simp [whenRest, seq, h]
  | some r => cases hok : ok r.2 <;> simp [whenRest, seq, ahead, h, hok]

theorem seq_assoc (p q r : Pattern) : (p.seq q).seq r = p.seq (q.seq r) := by
  funext cs
  simp only [seq]
  cases p cs with
  | none => rfl
  | some a =>
    cases hq : q a.2 with
    | none => simp [hq]
    | some b => cases hr : r b.2 <;> simp [hq, hr]

theorem seq_alt_seq (p q r : Pattern) : (p.seq q).alt (p.seq r) = p.seq (q.alt r) := by
  funext cs
  simp only [seq, Pattern.alt]
  cases p cs with
  | none => rfl
  | some a => cases hq : q a.2 <;> simp [hq]

theorem nonempty_nonempty (p : Pattern) : p.nonempty.nonempty = p.nonempty := by
  funext cs
  simp [nonempty, Option.filter_filter]

theorem nonempty_many (p : Char → Bool) : (many p).nonempty = many1 p := by
  funext cs
  by_cases h : cs.takeWhile p = [] <;> simp [nonempty, many, many1, h]

end Pattern

namespace SliceMatcher

/-- At every place of a text no slice of the matcher fails, and it stops where the pattern does. -/
structure Follows (m : SliceMatcher) (p : Pattern) : Prop where
  splits : p.Splits
  eq_ok (c : Cursor) :
    m c.text c.offset = .ok ((p c.after).map fun r ↦ c.offset + byteSize r.1)

variable {m n : SliceMatcher} {p q : Pattern}

theorem Follows.seq (hm : m.Follows p) (hn : n.Follows q) : (m.seq n).Follows (p.seq q) where
  splits := hm.splits.seq hn.splits
  eq_ok c := by
    rw [SliceMatcher.seq, hm.eq_ok, Sliced.ok_bind, Pattern.seq]
    cases hp : p c.after with
    | none => rfl
    | some r =>
      -- The second matcher starts where the first one stopped, which is a place of the text.
      have hsecond := hn.eq_ok (c.past r.1 r.2)
      rw [Cursor.text_past (hm.splits _ _ _ hp), Cursor.offset_past] at hsecond
      refine hsecond.trans ?_
      simp [Cursor.past, Nat.add_assoc, Function.comp_def]

theorem Follows.alt (hm : m.Follows p) (hn : n.Follows q) : (m.alt n).Follows (p.alt q) where
  splits := hm.splits.alt hn.splits
  eq_ok c := by
    rw [SliceMatcher.alt, hm.eq_ok, Sliced.ok_bind, Pattern.alt]
    cases p c.after with
    | none => exact hn.eq_ok c
    | some r => rfl

theorem filter_lt_map (start : Nat) (o : Option (List Char × List Char)) :
    (o.map fun r ↦ start + byteSize r.1).filter (start < ·) =
      (o.filter fun r ↦ !r.1.isEmpty).map fun r ↦ start + byteSize r.1 := by
  cases o with
  | none => rfl
  | some r =>
    obtain ⟨taken, rest⟩ := r
    cases taken with
    | nil => simp [Option.filter_some]
    | cons a taken =>
      have := a.utf8Size_pos.ne'
      simp [Option.filter_some, this]

theorem Follows.moving (hm : m.Follows p) : m.moving.Follows p.nonempty where
  splits := hm.splits.nonempty
  eq_ok c := by
    rw [SliceMatcher.moving, hm.eq_ok, Sliced.ok_bind, filter_lt_map]
    rfl

theorem follows_word (w : List Char) : (word w).Follows (Pattern.literal w) where
  splits := Pattern.splits_literal w
  eq_ok c := by
    rw [word, Cursor.from?_text, Pattern.literal]
    cases h : Text.after? w c.after <;> simp [startsWith, h]

theorem follows_mark (w : List Char) : (mark w).Follows (Pattern.literal w) where
  splits := Pattern.splits_literal w
  eq_ok c := by
    rw [mark, Cursor.sliceFrom_text, Sliced.ok_bind, Pattern.literal]
    cases h : Text.after? w c.after <;> simp [startsWith, h]

theorem follows_anchored (hp : p.Splits) : (anchored p).Follows p.nonempty where
  splits := hp.nonempty
  eq_ok c := by
    rw [anchored, Cursor.from?_text, Pattern.nonempty, ← filter_lt_map]
    cases h : p c.after with
    | none => simp [h]
    | some r =>
      -- The size of the text less that of what is left is the offset past what is taken.
      have hsize : byteSize c.text - byteSize r.2 = c.offset + byteSize r.1 := by
        rw [Cursor.text, hp _ _ _ h]
        simp [Cursor.offset, ← Nat.add_assoc]
      simp [h, hsize, Option.filter_some]

end SliceMatcher

end DiagramText
