import DiagramText.Proofs.SegmentsAgree
import Mathlib.Data.List.Chain

namespace DiagramText.Segmenter

variable {p : List Char} {ps : List (List Char)}

/-- Single spaces and words without spaces, of which no two are neighbours. -/
@[mk_iff]
structure SpaceCut (ps : List (List Char)) : Prop where
  piece : ∀ p ∈ ps, p = [' '] ∨ p ≠ [] ∧ ' ' ∉ p
  apart : ps.IsChain fun p q ↦ p = [' '] ∨ q = [' ']

namespace SpaceCut

theorem nil : SpaceCut [] :=
  ⟨by simp, .nil⟩

theorem tail (h : SpaceCut (p :: ps)) : SpaceCut ps :=
  ⟨(List.forall_mem_cons.1 h.piece).2, (List.isChain_cons.1 h.apart).2⟩

theorem space (h : SpaceCut ps) : SpaceCut ([' '] :: ps) :=
  ⟨List.forall_mem_cons.2 ⟨.inl rfl, h.piece⟩,
    List.isChain_cons.2 ⟨fun _ _ ↦ .inl rfl, h.apart⟩⟩

theorem word (hn : p ≠ []) (hp : ' ' ∉ p) (h : SpaceCut ps) (hs : ∀ q ∈ ps.head?, q = [' ']) :
    SpaceCut (p :: ps) :=
  ⟨List.forall_mem_cons.2 ⟨.inr ⟨hn, hp⟩, h.piece⟩,
    List.isChain_cons.2 ⟨fun q hq ↦ .inr (hs q hq), h.apart⟩⟩

theorem head?_tail (h : SpaceCut (p :: ps)) (hp : p ≠ [' ']) : ∀ q ∈ ps.head?, q = [' '] :=
  fun q hq ↦ ((List.isChain_cons.1 h.apart).1 q hq).resolve_left hp

/-- A character that is no space goes on with the word behind it, or is a word of its own. -/
theorem of_splitSpaces (cs : List Char) : SpaceCut (splitSpaces cs) := by
  have hword {c : Char} {p : List Char} (hc : c ≠ ' ') (hp : ' ' ∉ p) : ' ' ∉ c :: p :=
    List.not_mem_cons_of_ne_of_not_mem (Ne.symm hc) hp
  fun_induction splitSpaces cs with
  | case1 => exact nil
  | case2 cs ih => exact ih.space
  | case3 c cs hc hnone ih =>
    exact nil.word (List.cons_ne_nil c []) (hword hc List.not_mem_nil) (by simp)
  | case4 c cs hc more hmore ih =>
    rw [hmore] at ih
    refine ih.word (List.cons_ne_nil c []) (hword hc List.not_mem_nil) fun q hq ↦ ?_
    exact (Option.some.inj hq).symm
  | case5 c cs hc piece more hmore hp ih =>
    rw [hmore] at ih
    obtain ⟨-, hpiece⟩ := (ih.piece piece List.mem_cons_self).resolve_left hp
    exact ih.tail.word (List.cons_ne_nil c piece) (hword hc hpiece) (ih.head?_tail hp)

theorem eq_splitSpaces (h : SpaceCut ps) : ps = splitSpaces ps.flatten := by
  induction ps with
  | nil => rfl
  | cons p ps ih =>
    have hrest := ih h.tail
    rcases h.piece p List.mem_cons_self with rfl | ⟨hn, hp⟩
    · rw [List.flatten_cons, List.singleton_append, splitSpaces_space, ← hrest]
    · have hword : [p].filter (· ≠ []) = [p] := by simpa using hn
      have hspace : p ≠ [' '] := by
        rintro rfl
        exact hp List.mem_cons_self
      -- Behind the word the text is over or goes on with a space, and the word ends there.
      cases ps with
      | nil => rw [List.flatten_singleton, splitSpaces_of_not_mem hp, hword]
      | cons q ps =>
        obtain rfl := h.head?_tail hspace q rfl
        rw [List.flatten_cons, List.singleton_append, splitSpaces_space] at hrest
        rw [List.flatten_cons, List.flatten_cons, List.singleton_append, splitSpaces_append hp,
          hword, List.singleton_append, ← hrest]

theorem iff_eq_splitSpaces {cs : List Char} :
    ps = splitSpaces cs ↔ ps.flatten = cs ∧ SpaceCut ps := by
  constructor
  · rintro rfl
    exact ⟨splitSpaces_flatten cs, of_splitSpaces cs⟩
  · rintro ⟨rfl, h⟩
    exact h.eq_splitSpaces

end SpaceCut

theorem toList_eq_space_iff {s : String} : s.toList = [' '] ↔ s = " " := by
  rw [← String.toList_inj]
  rfl

theorem spaceCut_map_toList {pieces : List String} : SpaceCut (pieces.map String.toList) ↔
    (∀ p ∈ pieces, p = " " ∨ p ≠ "" ∧ ' ' ∉ p.toList) ∧
      pieces.IsChain fun p q ↦ p = " " ∨ q = " " := by
  simp only [spaceCut_iff, List.forall_mem_map, List.isChain_map, toList_eq_space_iff, ne_eq,
    String.toList_eq_nil_iff]

/-- The words of a text are the one way to cut it into single spaces and words without spaces, of
which no two are neighbours. -/
theorem eq_words_plain_iff (text : String) (pieces : List String) :
    pieces = plain.words text ↔ String.join pieces = text ∧
      (∀ p ∈ pieces, p = " " ∨ p ≠ "" ∧ ' ' ∉ p.toList) ∧
      pieces.IsChain fun p q ↦ p = " " ∨ q = " " := by
  have hplain : plain.words text = (splitSpaces text.toList).map String.ofList := rfl
  have hwords : pieces = plain.words text ↔
      pieces.map String.toList = splitSpaces text.toList := by
    constructor
    · rintro rfl
      simp [hplain]
    · intro h
      simp [hplain, ← h]
  have hjoin : (pieces.map String.toList).flatten = text.toList ↔ String.join pieces = text := by
    rw [← String.toList_inj, String.toList_join, List.flatMap_def]
  rw [hwords, SpaceCut.iff_eq_splitSpaces, hjoin, spaceCut_map_toList]

end DiagramText.Segmenter
