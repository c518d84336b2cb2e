import DiagramText.Kind
import DiagramText.Text.Basic
import DiagramText.Text.Blank

namespace DiagramText

namespace Preamble

open Text (after? cut? startsWith trimStart)

def beyond? (mark cs : List Char) : Option (List Char) :=
  (cut? mark cs).map Prod.snd

/-- The text after the directive or block comment it begins with. The star that opens a block
comment may be the one that closes it. -/
def afterClosed? (cs : List Char) : Option (List Char) :=
  if startsWith ['%', '%', '\x7b'] cs then beyond? ['\x7d', '%', '%'] cs
  else if startsWith ['%', '%', '*'] cs then beyond? ['*', '%', '%'] cs
  else none

/-- The text after the comment or directive it begins with; a line comment leaves its line end. -/
def afterItem? (cs : List Char) : Option (List Char) :=
  match afterClosed? cs with
  | some rest => some rest
  | none => if startsWith ['%', '%'] cs then some (cs.dropWhile (· ≠ '\n')) else none

theorem length_beyond?_lt {mark cs rest : List Char} (hm : mark ≠ []) (h : beyond? mark cs = some rest) :
    rest.length < cs.length := by
  obtain ⟨⟨before, r⟩, hc, rfl⟩ := Option.map_eq_some_iff.1 h
  have := List.length_pos_iff.2 hm
  rw [Text.eq_append_of_cut? hc]
  simp
  omega

theorem length_afterItem?_lt {cs rest : List Char} (h : afterItem? cs = some rest) :
    rest.length < cs.length := by
  unfold afterItem? at h
  split at h
  · rename_i r hr
    obtain rfl := Option.some.inj h
    unfold afterClosed? at hr
    split at hr
    · exact length_beyond?_lt (by simp) hr
    · split at hr
      · exact length_beyond?_lt (by simp) hr
      · cases hr
  · split at h
    · rename_i hp
      obtain rfl := Option.some.inj h
      obtain ⟨r, hr⟩ := Option.isSome_iff_exists.1 hp
      rw [Text.after?_eq_some_iff.1 hr]
      have := (List.dropWhile_suffix (l := r) (· ≠ '\n')).length_le
      simp at this ⊢
      omega
    · cases h

def skip (cs : List Char) : List Char :=
  match h : afterItem? (trimStart cs) with
  | some rest =>
    have := Nat.lt_of_lt_of_le (length_afterItem?_lt h) (Text.trimStart_length_le cs)
    skip rest
  | none => trimStart cs
termination_by cs.length

end Preamble

def Kind.ofText? (text : String) : Option Kind :=
  let cs := Preamble.skip text.toList
  Kind.all.find? fun k ↦ k.keywords.any fun word ↦ Text.startsWith word.toList cs

end DiagramText
