import DiagramText.Text.Basic

namespace DiagramText

/-- A position in a text: the characters before it, nearest first, and those after it. -/
structure Cursor where
  before : List Char
  after : List Char
  deriving DecidableEq, Repr

namespace Cursor

open Text (byteSize)

def start (text : List Char) : Cursor :=
  ⟨[], text⟩

def offset (c : Cursor) : Nat :=
  byteSize c.before

def text (c : Cursor) : List Char :=
  c.before.reverse ++ c.after

def past (c : Cursor) (taken rest : List Char) : Cursor :=
  ⟨taken.reverse ++ c.before, rest⟩

/-- The cursor at a byte offset, if that is the place between two characters or an end. -/
def at? (text : List Char) (offset : Nat) : Option Cursor :=
  (Text.splitBytes? offset text).map fun (taken, rest) ↦ ⟨taken.reverse, rest⟩

@[simp] theorem offset_start (text : List Char) : (start text).offset = 0 := rfl

@[simp] theorem text_start (text : List Char) : (start text).text = text := rfl

@[simp] theorem offset_past (c : Cursor) (taken rest : List Char) :
    (c.past taken rest).offset = c.offset + byteSize taken := by
  simp [past, offset, Nat.add_comm]

theorem text_past {c : Cursor} {taken rest : List Char} (h : c.after = taken ++ rest) :
    (c.past taken rest).text = c.text := by
  simp [past, text, h]

theorem at?_eq_some_iff {text : List Char} {offset : Nat} {c : Cursor} :
    at? text offset = some c ↔ c.text = text ∧ c.offset = offset := by
  obtain ⟨before, after⟩ := c
  simp only [at?, Option.map_eq_some_iff, Prod.exists, Text.splitBytes?_eq_some_iff, mk.injEq,
    Cursor.text, Cursor.offset]
  constructor
  · rintro ⟨taken, rest, ⟨rfl, rfl⟩, rfl, rfl⟩
    simp
  · rintro ⟨rfl, rfl⟩
    exact ⟨before.reverse, after, by simp, by simp⟩

end Cursor

end DiagramText
