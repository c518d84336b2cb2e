import DiagramText.Proofs.WrapLines
import Mathlib.Order.Bounds.Defs

namespace DiagramText

section Pieces

variable {accepts : String → Bool} {used : String} {gs : List String}

theorem acceptedPieces_le_length (accepts : String → Bool) (used : String) (gs : List String) :
    acceptedPieces accepts used gs ≤ gs.length := by
  induction gs generalizing used with
  | nil => exact Nat.le_refl 0
  | cons g gs ih =>
    rw [acceptedPieces]
    split
    · exact Nat.succ_le_succ (ih (used ++ g))
    · exact Nat.zero_le _

theorem rejects_take_acceptedPieces (h : acceptedPieces accepts used gs < gs.length) :
    accepts (used ++ String.join (gs.take (acceptedPieces accepts used gs + 1))) = false := by
  induction gs generalizing used with
  | nil => exact absurd h (Nat.lt_irrefl 0)
  | cons g gs ih =>
    rw [acceptedPieces] at h ⊢
    split
    · rename_i ha
      rw [if_pos ha] at h
      have hrest := ih (Nat.lt_of_succ_lt_succ h)
      rw [List.take_succ_cons, String.join_cons, ← String.append_assoc]
      exact hrest
    · rename_i ha
      simpa using ha

end Pieces

namespace Word

def front (seg : Segmenter) (w : Word) (k : Nat) : Word :=
  ⟨String.join ((seg.graphemes w.content).take k), w.style⟩

def back (seg : Segmenter) (w : Word) (k : Nat) : Word :=
  ⟨String.join ((seg.graphemes w.content).drop k), w.style⟩

/-- The word has `k` visible characters, and each of its beginnings up to there fits. -/
def FitsUpTo (seg : Segmenter) (fits : Line → Bool) (w : Word) (k : Nat) : Prop :=
  k ≤ (seg.graphemes w.content).length ∧ ∀ j, 1 ≤ j → j ≤ k → fits [w.front seg j] = true

variable {seg : Segmenter} {fits : Line → Bool} {w : Word}

/-- The visible characters of a word that are accepted one after the other. -/
def accepted (seg : Segmenter) (fits : Line → Bool) (w : Word) : Nat :=
  acceptedPieces (fun s ↦ fits [⟨s, w.style⟩]) "" (seg.graphemes w.content)

theorem isGreatest_accepted (seg : Segmenter) (fits : Line → Bool) (w : Word) :
    IsGreatest {k | w.FitsUpTo seg fits k} (w.accepted seg fits) := by
  constructor
  · refine ⟨acceptedPieces_le_length _ _ _, ?_⟩
    intro j hpos hle
    have hfits := accepts_take_acceptedPieces hpos hle
    rwa [String.empty_append] at hfits
  · intro k hk
    obtain ⟨hlength, hfits⟩ := hk
    by_contra hlt
    have hmore : w.accepted seg fits + 1 ≤ k := by omega
    have hrejected := rejects_take_acceptedPieces (Nat.lt_of_lt_of_le hmore hlength)
    rw [String.empty_append] at hrejected
    have hfront := hfits _ (Nat.le_add_left 1 _) hmore
    exact absurd hfront (Bool.eq_false_iff.1 hrejected)

theorem cut_eq (seg : Segmenter) (fits : Line → Bool) (w : Word) :
    w.cut seg fits = (w.front seg (max 1 (w.accepted seg fits)),
      w.back seg (max 1 (w.accepted seg fits))) := rfl

theorem front_min (seg : Segmenter) (w : Word) (k : Nat) :
    w.front seg (min k (seg.graphemes w.content).length) = w.front seg k := by
  rw [front, front, ← List.take_eq_take_min]

theorem back_min (seg : Segmenter) (w : Word) (k : Nat) :
    w.back seg (min k (seg.graphemes w.content).length) = w.back seg k := by
  have hdrop : (seg.graphemes w.content).drop (min k (seg.graphemes w.content).length) =
      (seg.graphemes w.content).drop k := by
    rcases Nat.le_total k (seg.graphemes w.content).length with hk | hk
    · rw [Nat.min_eq_left hk]
    · rw [Nat.min_eq_right hk, List.drop_length, List.drop_of_length_le hk]
  rw [back, back, hdrop]

theorem accepted_eq_zero (h : fits [w.front seg 1] = false) : w.accepted seg fits = 0 := by
  by_contra hn
  have hfirst := (isGreatest_accepted seg fits w).1.2 1 (Nat.le_refl 1) (by omega)
  exact absurd hfirst (Bool.eq_false_iff.1 h)

theorem one_le_accepted (hn : seg.graphemes w.content ≠ []) (h : fits [w.front seg 1] = true) :
    1 ≤ w.accepted seg fits := by
  apply (isGreatest_accepted seg fits w).2
  refine ⟨List.length_pos_iff.2 hn, ?_⟩
  intro j hpos hle
  obtain rfl : j = 1 := Nat.le_antisymm hle hpos
  exact h

/-- Where every beginning of a beginning that fits does, the beginnings that fit are those up to the
greatest one. -/
theorem isGreatest_of_closed {k : Nat} (hk : IsGreatest {k | w.FitsUpTo seg fits k} k)
    (hclosed : ∀ i j, 1 ≤ i → i ≤ j → j ≤ (seg.graphemes w.content).length →
      fits [w.front seg j] = true → fits [w.front seg i] = true)
    (hfits : fits [w.front seg k] = true) :
    IsGreatest {j | j ≤ (seg.graphemes w.content).length ∧ fits [w.front seg j] = true} k := by
  refine ⟨⟨hk.1.1, hfits⟩, ?_⟩
  intro j hj
  apply hk.2
  refine ⟨hj.1, ?_⟩
  intro i hpos hle
  exact hclosed i j hpos hle hj.1 hj.2

theorem cut_point (h : ¬(seg.graphemes w.content ≠ [] ∧ fits [w.front seg 1] = false)) :
    min (max 1 (w.accepted seg fits)) (seg.graphemes w.content).length = w.accepted seg fits := by
  have hlength : w.accepted seg fits ≤ (seg.graphemes w.content).length :=
    (isGreatest_accepted seg fits w).1.1
  by_cases hn : seg.graphemes w.content = []
  · rw [hn, List.length_nil] at hlength ⊢
    omega
  · have hfirst : fits [w.front seg 1] = true := by
      rw [← Bool.not_eq_false]
      exact fun hf ↦ h ⟨hn, hf⟩
    have hpos := one_le_accepted hn hfirst
    omega

/-- A word is cut between two of its visible characters, in its own style on both sides. All
beginnings up to the cut fit, and the next one does not; only a first character that does not fit is
taken all the same. So where every beginning of what fits does, the longest one that fits is
taken. -/
theorem cut_isGreatest (seg : Segmenter) (fits : Line → Bool) (w : Word) :
    ∃ k, w.cut seg fits = (w.front seg k, w.back seg k) ∧
      (k = 0 ↔ seg.graphemes w.content = []) ∧
      (if seg.graphemes w.content ≠ [] ∧ fits [w.front seg 1] = false then k = 1
        else IsGreatest {k | w.FitsUpTo seg fits k} k) ∧
      ((∀ i j, 1 ≤ i → i ≤ j → j ≤ (seg.graphemes w.content).length →
          fits [w.front seg j] = true → fits [w.front seg i] = true) →
        fits [w.front seg 1] = true →
        IsGreatest {j | j ≤ (seg.graphemes w.content).length ∧ fits [w.front seg j] = true} k) := by
  have hgreatest := isGreatest_accepted seg fits w
  refine ⟨min (max 1 (w.accepted seg fits)) (seg.graphemes w.content).length, ?_, ?_, ?_, ?_⟩
  · rw [front_min, back_min, cut_eq]
  · rw [← List.length_eq_zero_iff]
    omega
  · split
    · rename_i hforced
      have hpos := List.length_pos_iff.2 hforced.1
      rw [accepted_eq_zero hforced.2]
      omega
    · rename_i hfree
      rw [cut_point hfree]
      exact hgreatest
  · intro hclosed hfirst
    rw [cut_point fun hforced ↦ absurd hforced.2 (by rw [hfirst]; decide)]
    apply isGreatest_of_closed hgreatest hclosed
    by_cases hn : seg.graphemes w.content = []
    · have hwhole := front_min seg w 1
      have hnone : w.accepted seg fits ≤ 0 := by simpa [hn] using hgreatest.1.1
      rw [hn, List.length_nil, Nat.min_zero] at hwhole
      rwa [Nat.le_zero.1 hnone, hwhole]
    · exact hgreatest.1.2 _ (one_le_accepted hn hfirst) (Nat.le_refl _)

def mixedWord : Word :=
  ⟨"a日b", .strong⟩

/-- Four bytes do not fit, though five do: the cut stands before the first beginning that does not
fit. By columns, the longest beginning that fits is taken. -/
theorem cut_isGreatest_mixedWord :
    mixedWord.cut .plain (fun l ↦ l.text.utf8ByteSize ≠ 4) = (⟨"a", .strong⟩, ⟨"日b", .strong⟩) ∧
    IsGreatest {k | mixedWord.FitsUpTo .plain (fun l ↦ l.text.utf8ByteSize ≠ 4) k} 1 ∧
    mixedWord.cut .plain (Line.fitsIn 3) = (⟨"a日", .strong⟩, ⟨"b", .strong⟩) ∧
    IsGreatest {j | j ≤ 3 ∧ Line.fitsIn 3 [mixedWord.front .plain j] = true} 2 := by
  have hfour : mixedWord.cut .plain (fun l ↦ l.text.utf8ByteSize ≠ 4) =
      (⟨"a", .strong⟩, ⟨"日b", .strong⟩) := by decide
  have hthree : mixedWord.cut .plain (Line.fitsIn 3) = (⟨"a日", .strong⟩, ⟨"b", .strong⟩) := by
    decide +kernel
  have hclosed : ∀ j ≤ 3, ∀ i ≤ j, 1 ≤ i → Line.fitsIn 3 [mixedWord.front .plain j] = true →
      Line.fitsIn 3 [mixedWord.front .plain i] = true := by decide +kernel
  refine ⟨hfour, ?_, hthree, ?_⟩
  · obtain ⟨k, hcut, -, hk, -⟩ :=
      cut_isGreatest .plain (fun l ↦ l.text.utf8ByteSize ≠ 4) mixedWord
    rw [if_neg (by decide)] at hk
    have hone : ∀ k ≤ 3, (⟨"a", .strong⟩ : Word) = mixedWord.front .plain k → k = 1 := by decide
    rwa [hone k hk.1.1 (congrArg Prod.fst (hfour.symm.trans hcut))] at hk
  · obtain ⟨k, hcut, -, -, hk⟩ := cut_isGreatest .plain (Line.fitsIn 3) mixedWord
    have hk : IsGreatest {j | j ≤ 3 ∧ Line.fitsIn 3 [mixedWord.front .plain j] = true} k :=
      hk (fun i j hpos hle hlength ↦ hclosed j hlength i hle hpos) (by decide +kernel)
    have htwo : ∀ k ≤ 3, (⟨"a日", .strong⟩ : Word) = mixedWord.front .plain k → k = 2 := by decide
    rwa [htwo k hk.1.1 (congrArg Prod.fst (hthree.symm.trans hcut))] at hk

end Word

end DiagramText
