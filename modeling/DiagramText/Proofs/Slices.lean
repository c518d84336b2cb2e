import DiagramText.Proofs.Rules
import Mathlib.Data.List.TakeWhile

namespace DiagramText

open Text (byteSize splitBytes? startsWith)

/-- A slice that a text does not have: out of its bounds, or cut within a character. -/
structure BadSlice where
  start : Nat
  stop : Nat
  deriving DecidableEq, Repr

abbrev Sliced := Except BadSlice

@[simp] theorem Sliced.ok_bind {α β : Type} (a : α) (f : α → Sliced β) :
    (Except.ok a : Sliced α) >>= f = f a := rfl

@[simp] theorem Sliced.pure_eq_ok {α : Type} (a : α) : (pure a : Sliced α) = .ok a := rfl

theorem Sliced.bind_eq_ok_iff {α β : Type} {x : Sliced α} {f : α → Sliced β} {b : β} :
    x >>= f = .ok b ↔ ∃ a, x = .ok a ∧ f a = .ok b := by
  cases x with
  | error e => simp [bind, Except.bind]
  | ok a => simp

namespace Text

/-- The offset is at an end of the text or stands between two characters of it. -/
def IsBoundary (text : List Char) (offset : Nat) : Prop :=
  (splitBytes? offset text).isSome

instance (text : List Char) (offset : Nat) : Decidable (IsBoundary text offset) :=
  inferInstanceAs (Decidable (_ = true))

/-- The slice `start..`, none where it would be a bad one. -/
def from? (text : List Char) (start : Nat) : Option (List Char) :=
  (splitBytes? start text).map Prod.snd

def sliceFrom (text : List Char) (start : Nat) : Sliced (List Char) :=
  match splitBytes? start text with
  | some (_, rest) => .ok rest
  | none => .error ⟨start, byteSize text⟩

def sliceTo (text : List Char) (stop : Nat) : Sliced (List Char) :=
  match splitBytes? stop text with
  | some (taken, _) => .ok taken
  | none => .error ⟨0, stop⟩

def slice (text : List Char) (start stop : Nat) : Sliced (List Char) :=
  if start ≤ stop then do
    let rest ← sliceFrom text start
    sliceTo rest (stop - start)
  else .error ⟨start, stop⟩

def find? (mark cs : List Char) : Option Nat :=
  (cut? mark cs).map fun (before, _) ↦ byteSize before

def findChar? (p : Char → Bool) (cs : List Char) : Option Nat :=
  if cs.any p then some (byteSize (cs.takeWhile fun c ↦ !p c)) else none

def bytes (cs : List Char) : List UInt8 :=
  cs.flatMap String.utf8EncodeChar

@[simp] theorem length_bytes (cs : List Char) : (bytes cs).length = byteSize cs := by
  induction cs with
  | nil => rfl
  | cons c cs ih =>
    rw [bytes, List.flatMap_cons, List.length_append, String.length_utf8EncodeChar, byteSize_cons,
      ← ih, bytes]

theorem sliceTo_append (taken rest : List Char) :
    sliceTo (taken ++ rest) (byteSize taken) = .ok taken := by
  rw [sliceTo, splitBytes?_eq_some_iff.2 ⟨rfl, rfl⟩]

theorem sliceFrom_append (taken rest : List Char) :
    sliceFrom (taken ++ rest) (byteSize taken) = .ok rest := by
  rw [sliceFrom, splitBytes?_eq_some_iff.2 ⟨rfl, rfl⟩]

theorem splitBytes?_append (as : List Char) (n : Nat) (bs : List Char) :
    splitBytes? (byteSize as + n) (as ++ bs) = (splitBytes? n bs).map fun p ↦ (as ++ p.1, p.2) := by
  ext ⟨taken, rest⟩
  simp only [splitBytes?_eq_some_iff, Option.map_eq_some_iff, Prod.exists, Prod.mk.injEq]
  constructor
  · rintro ⟨h, hn⟩
    rcases List.append_eq_append_iff.1 h with ⟨t, rfl, rfl⟩ | ⟨t, rfl, rfl⟩
    · rw [byteSize_append] at hn
      exact ⟨t, rest, ⟨rfl, Nat.add_left_cancel hn⟩, rfl, rfl⟩
    · rw [byteSize_append] at hn
      cases t with
      | nil => exact ⟨[], bs, ⟨rfl, by simp at hn; exact hn.symm⟩, by simp, rfl⟩
      | cons c t =>
        have := c.utf8Size_pos
        rw [byteSize_cons] at hn
        omega
  · rintro ⟨t, r, ⟨rfl, rfl⟩, rfl, rfl⟩
    exact ⟨by rw [List.append_assoc], byteSize_append ..⟩

theorem sliceFrom_eq_ok_iff {text rest : List Char} {start : Nat} :
    sliceFrom text start = .ok rest ↔ ∃ taken, text = taken ++ rest ∧ byteSize taken = start := by
  rw [sliceFrom]
  constructor
  · intro h
    split at h
    · cases h
      exact ⟨_, splitBytes?_eq_some_iff.1 ‹_›⟩
    · cases h
  · rintro ⟨taken, h⟩
    rw [splitBytes?_eq_some_iff.2 h]

theorem isBoundary_iff {text : List Char} {offset : Nat} :
    IsBoundary text offset ↔ ∃ c : Cursor, c.text = text ∧ c.offset = offset := by
  rw [IsBoundary, ← Option.isSome_map (f := fun p ↦ (⟨p.1.reverse, p.2⟩ : Cursor)),
    Option.isSome_iff_exists]
  exact exists_congr fun c ↦ Cursor.at?_eq_some_iff

theorem IsBoundary.le {text : List Char} {offset : Nat} (h : IsBoundary text offset) :
    offset ≤ byteSize text := by
  obtain ⟨⟨taken, rest⟩, hs⟩ := Option.isSome_iff_exists.1 h
  obtain ⟨rfl, rfl⟩ := splitBytes?_eq_some_iff.1 hs
  rw [byteSize_append]
  exact Nat.le_add_right _ _

theorem find?_cons (mark : List Char) (c : Char) (cs : List Char) :
    find? mark (c :: cs) =
      if startsWith mark (c :: cs) then some 0 else (find? mark cs).map (c.utf8Size + ·) := by
  rw [find?, Text.cut?, startsWith]
  cases Text.after? mark (c :: cs) <;> simp [find?, Function.comp_def]

theorem findChar?_getD (p : Char → Bool) (cs : List Char) :
    (findChar? p cs).getD (byteSize cs) = byteSize (cs.takeWhile fun c ↦ !p c) := by
  rw [findChar?]
  split
  · rfl
  · rename_i h
    rw [List.takeWhile_eq_self_iff.2]
    · rfl
    · simpa using h

theorem sliceTo_takeWhile (p : Char → Bool) (cs : List Char) :
    sliceTo cs (byteSize (cs.takeWhile p)) = .ok (cs.takeWhile p) := by
  have h := Text.sliceTo_append (cs.takeWhile p) (cs.dropWhile p)
  rwa [List.takeWhile_append_dropWhile] at h

theorem trim_eq_nil_iff {cs : List Char} : trim cs = [] ↔ ∀ c ∈ cs, isBlank c = true := by
  have hstart : (∀ c ∈ cs.dropWhile isBlank, isBlank c = true) ↔ ∀ c ∈ cs, isBlank c = true := by
    refine ⟨fun h ↦ ?_, fun h c hc ↦ h c ((List.dropWhile_suffix _).mem hc)⟩
    rw [← List.takeWhile_append_dropWhile (p := isBlank) (l := cs), List.forall_mem_append]
    exact ⟨fun c hc ↦ List.mem_takeWhile_imp hc, h⟩
  rw [← hstart, trim, Text.trimEnd, Text.dropWhileEnd, List.reverse_eq_nil_iff,
    List.dropWhile_eq_nil_iff, Text.trimStart]
  simp

theorem toNat_toUInt8 {a : Char} (ha : a.toNat ≤ 127) : a.toUInt8.toNat = a.toNat := by
  rw [Char.toUInt8, UInt32.toNat_toUInt8]
  exact Nat.mod_eq_of_lt (Nat.lt_of_le_of_lt ha (by decide))

theorem head?_utf8EncodeChar_eq_some_iff {a c : Char} (ha : a.toNat ≤ 127) :
    (String.utf8EncodeChar c).head? = some a.toUInt8 ↔ c = a := by
  constructor
  · intro h
    have h := congrArg (Option.map UInt8.toNat) h
    rw [Option.map_some, toNat_toUInt8 ha, String.utf8EncodeChar] at h
    have hc : c.val.toNat = c.toNat := rfl
    -- The first byte of a longer form is 192 or more.
    have hv : c.toNat = a.toNat := by
      split at h
      · simp at h
        omega
      · split at h
        · simp at h
          omega
        · split at h <;> simp at h <;> omega
    exact Char.toNat_inj.1 hv
  · rintro rfl
    have h1 : c.val ≤ 127 := UInt32.le_iff_toNat_le.2 ha
    rw [String.utf8EncodeChar_eq_singleton (Char.utf8Size_eq_one_iff.2 h1)]
    rfl

end Text

open Text

namespace Cursor

@[simp] theorem isBoundary_offset (c : Cursor) : IsBoundary c.text c.offset :=
  isBoundary_iff.2 ⟨c, rfl, rfl⟩

theorem byteSize_text (c : Cursor) : byteSize c.text = c.offset + byteSize c.after := by
  rw [text, byteSize_append, byteSize_reverse]
  rfl

theorem splitBytes?_text (c : Cursor) :
    splitBytes? c.offset c.text = some (c.before.reverse, c.after) :=
  splitBytes?_eq_some_iff.2 ⟨rfl, byteSize_reverse _⟩

theorem splitBytes?_add (c : Cursor) (n : Nat) :
    splitBytes? (c.offset + n) c.text =
      (splitBytes? n c.after).map fun p ↦ (c.before.reverse ++ p.1, p.2) := by
  rw [offset, ← byteSize_reverse, text, splitBytes?_append]

@[simp] theorem sliceFrom_text (c : Cursor) : sliceFrom c.text c.offset = .ok c.after := by
  rw [sliceFrom, splitBytes?_text]

@[simp] theorem sliceTo_text (c : Cursor) : sliceTo c.text c.offset = .ok c.before.reverse := by
  rw [sliceTo, splitBytes?_text]

@[simp] theorem from?_text (c : Cursor) : from? c.text c.offset = some c.after := by
  rw [from?, splitBytes?_text, Option.map_some]

theorem slice_text {c : Cursor} {taken rest : List Char} (h : c.after = taken ++ rest) :
    slice c.text c.offset (c.offset + byteSize taken) = .ok taken := by
  rw [slice, if_pos (Nat.le_add_right _ _), sliceFrom_text, Sliced.ok_bind,
    Nat.add_sub_cancel_left, h, sliceTo_append]

theorem getElem?_bytes_text_eq_some_iff (c : Cursor) {a : Char} (ha : a.toNat ≤ 127) :
    (bytes c.text)[c.offset]? = some a.toUInt8 ↔ c.after.head? = some a := by
  have hbytes : bytes c.text = bytes c.before.reverse ++ bytes c.after := List.flatMap_append ..
  have hlen : (bytes c.before.reverse).length = c.offset := by
    rw [length_bytes, byteSize_reverse]
    rfl
  rw [hbytes, ← hlen, List.getElem?_append_right (Nat.le_refl _), Nat.sub_self]
  cases c.after with
  | nil => simp [bytes]
  | cons ch cs =>
    have hpos : 0 < (String.utf8EncodeChar ch).length := by
      rw [String.length_utf8EncodeChar]
      exact ch.utf8Size_pos
    rw [bytes, List.flatMap_cons, List.getElem?_append_left hpos, ← List.head?_eq_getElem?,
      head?_utf8EncodeChar_eq_some_iff ha, List.head?_cons, Option.some.injEq]

end Cursor

end DiagramText
