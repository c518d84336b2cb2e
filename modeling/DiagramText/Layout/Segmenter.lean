import DiagramText.Unicode.WordBreak

namespace DiagramText

/-- The visible characters of a text make it up, and none of them is empty. -/
structure Segmenter where
  graphemes : String → List String
  words : String → List String
  join_graphemes : ∀ s, String.join (graphemes s) = s
  ne_empty_of_mem_graphemes : ∀ s, ∀ g ∈ graphemes s, g ≠ ""

namespace Segmenter

theorem join_map_ofList (pieces : List (List Char)) :
    String.join (pieces.map String.ofList) = String.ofList pieces.flatten := by
  induction pieces with
  | nil => rfl
  | cons p ps ih => simp [ih]

def unicode : Segmenter where
  graphemes s := (Unicode.clusters s.toList).map String.ofList
  words s := (Unicode.words s.toList).map String.ofList
  join_graphemes s := by
    rw [join_map_ofList, Unicode.clusters, Unicode.Boundaries.pieces_flatten, String.ofList_toList]
  ne_empty_of_mem_graphemes s g hg := by
    obtain ⟨p, hp, rfl⟩ := List.mem_map.1 hg
    have := Unicode.Boundaries.ne_nil_of_mem_pieces _ hp
    simpa using this

/-- A text cut at single spaces, which are pieces of their own. -/
def splitSpaces : List Char → List (List Char)
  | [] => []
  | c :: cs =>
    if c = ' ' then [' '] :: splitSpaces cs
    else
      match splitSpaces cs with
      | [] => [[c]]
      | piece :: more => if piece = [' '] then [c] :: piece :: more else (c :: piece) :: more

def codePoints (cs : List Char) : List (List Char) :=
  cs.map fun c ↦ [c]

theorem codePoints_flatten (cs : List Char) : (codePoints cs).flatten = cs := by
  induction cs with
  | nil => rfl
  | cons c cs ih => simpa [codePoints] using ih

def plain : Segmenter where
  graphemes s := (codePoints s.toList).map String.ofList
  words s := (splitSpaces s.toList).map String.ofList
  join_graphemes s := by rw [join_map_ofList, codePoints_flatten, String.ofList_toList]
  ne_empty_of_mem_graphemes s g hg := by
    obtain ⟨p, hp, rfl⟩ := List.mem_map.1 hg
    obtain ⟨c, -, rfl⟩ := List.mem_map.1 hp
    simp

end Segmenter

end DiagramText
