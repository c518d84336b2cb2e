import DiagramText.Number.Decimal
import Mathlib.Data.List.TakeWhile

namespace DiagramText

namespace Binary64

variable {n : Nat}

theorem scaled_of_nonneg {q : Int} (h : 0 ≤ q) (n d : Nat) :
    scaled n d q = (n, d * Nat.pow 2 q.toNat) := by
  have hq : (-q).toNat = 0 := by omega
  rw [scaled, hq]
  simp

theorem scaled_of_nonpos {q : Int} (h : q ≤ 0) (n d : Nat) :
    scaled n d q = (n * Nat.pow 2 (-q).toNat, d) := by
  have hq : q.toNat = 0 := by omega
  rw [scaled, hq]
  simp

theorem floorLog2_one (hn : n ≠ 0) : floorLog2 n 1 = n.log2 := by
  have hlog : (1 : Nat).log2 = 0 := by decide
  have hle : Nat.pow 2 n.log2 ≤ n := Nat.log2_self_le hn
  rw [floorLog2, hlog]
  simp only [Int.natCast_zero, Int.sub_zero, scaled_of_nonneg (Int.natCast_nonneg _),
    Int.toNat_natCast, Nat.one_mul, if_pos hle]

theorem roundHalfEven_one (n : Nat) : roundHalfEven n 1 = n := by
  simp [roundHalfEven, Nat.mod_one]

theorem significand_bounds (hn : n ≠ 0) (h : n < Nat.pow 2 53) :
    Nat.pow 2 52 ≤ n * Nat.pow 2 (52 - n.log2) ∧ n * Nat.pow 2 (52 - n.log2) < Nat.pow 2 53 := by
  have hlog : n.log2 < 53 := (Nat.log2_lt hn).2 h
  have hsplit (k : Nat) (hk : n.log2 + (52 - n.log2) = 52) :
      Nat.pow 2 (52 + k) = 2 ^ (n.log2 + k) * 2 ^ (52 - n.log2) := by
    rw [← Nat.pow_add]
    change 2 ^ (52 + k) = _
    congr 1
    omega
  have hsum : n.log2 + (52 - n.log2) = 52 := by omega
  constructor
  · calc Nat.pow 2 52 = 2 ^ n.log2 * 2 ^ (52 - n.log2) := hsplit 0 hsum
      _ ≤ n * 2 ^ (52 - n.log2) := Nat.mul_le_mul_right _ (Nat.log2_self_le hn)
  · calc n * 2 ^ (52 - n.log2) < 2 ^ (n.log2 + 1) * 2 ^ (52 - n.log2) :=
          Nat.mul_lt_mul_of_pos_right Nat.lt_log2_self (Nat.two_pow_pos _)
      _ = Nat.pow 2 53 := (hsplit 1 hsum).symm

theorem nearest_one (hn : n ≠ 0) (h : n < Nat.pow 2 53) :
    nearest n 1 = (n * Nat.pow 2 (52 - n.log2), (n.log2 : Int) - 52) := by
  have hlog : n.log2 < 53 := (Nat.log2_lt hn).2 h
  have hmax : max ((n.log2 : Int) - 52) (-1074) = n.log2 - 52 := by omega
  have hshift : (-((n.log2 : Int) - 52)).toNat = 52 - n.log2 := by omega
  have hne : n * Nat.pow 2 (52 - n.log2) ≠ Nat.pow 2 53 :=
    Nat.ne_of_lt (significand_bounds hn h).2
  simp only [nearest, floorLog2_one hn, hmax,
    scaled_of_nonpos (show (n.log2 : Int) - 52 ≤ 0 by omega), hshift, roundHalfEven_one, if_neg hne]

theorem exists_ofRatio?_one (h : n < Nat.pow 2 53) :
    ∃ x, ofRatio? false n 1 = some x ∧ x.toNat? = some n := by
  rcases Decidable.em (n = 0) with rfl | hn
  · refine ⟨zero false, rfl, ?_⟩
    simp only [toNat?, zero, Nat.zero_mod, Nat.zero_mul, Nat.zero_div]
    rfl
  have hlog : n.log2 < 53 := (Nat.log2_lt hn).2 h
  obtain ⟨hlow, hhigh⟩ := significand_bounds hn h
  have hcanonical : Canonical (n * Nat.pow 2 (52 - n.log2)) ((n.log2 : Int) - 52) :=
    ⟨hhigh, by omega, by omega, .inl hlow⟩
  refine ⟨⟨false, _, _, hcanonical⟩, ?_, ?_⟩
  · simp only [ofRatio?, if_neg hn, nearest_one hn h, dif_pos hcanonical]
  · have hshift : (-((n.log2 : Int) - 52)).toNat = 52 - n.log2 := by omega
    have hwhole : ((n.log2 : Int) - 52).toNat = 0 := by omega
    have hdiv : n * Nat.pow 2 (52 - n.log2) / Nat.pow 2 (52 - n.log2) = n :=
      Nat.mul_div_cancel n (Nat.two_pow_pos _)
    have hone (m : Nat) : m * Nat.pow 2 0 = m := Nat.mul_one m
    simp only [toNat?, hshift, hwhole, Nat.mul_mod_left, hone, hdiv, Bool.false_eq_true, false_and,
      if_true, if_false]

end Binary64

namespace Decimal

variable {ds : List Char}

theorem ofText?_digits (hn : ds ≠ []) (hd : ∀ d ∈ ds, d.isDigit = true) :
    ofText? ds = some ⟨false, ofDigits ds, 0⟩ := by
  have htake : ds.takeWhile Char.isDigit = ds := List.takeWhile_eq_self_iff.2 hd
  have hdrop : ds.dropWhile Char.isDigit = [] := List.dropWhile_eq_nil_iff.2 hd
  have hsign : sign ds = (false, ds) := by
    unfold sign
    split
    · exact absurd (hd '-' List.mem_cons_self) (by decide)
    · exact absurd (hd '+' List.mem_cons_self) (by decide)
    · rfl
  simp [ofText?, hsign, htake, hdrop, hn, power?]

theorem toBinary64?_whole {n : Nat} (h : n < Nat.pow 2 53) :
    (⟨false, n, 0⟩ : Decimal).toBinary64? = Binary64.ofRatio? false n 1 := by
  have hlength : (Nat.toDigits 10 n).length ≤ 16 := by
    rw [Nat.length_toDigits_le_iff (by decide) (by decide)]
    exact Nat.lt_trans h (by decide)
  rcases Decidable.em (n = 0) with rfl | hn
  · rfl
  · have hlow : ¬((Nat.toDigits 10 n).length : Int) < -330 := by omega
    have hhigh : ¬(310 : Int) < (Nat.toDigits 10 n).length := by omega
    simp [toBinary64?, hn, hlow, hhigh]

end Decimal

/-- Digits of a number of at most 53 bits, with or without zeros before them, are read as the binary64
number that is this number. -/
theorem Binary64.exists_ofText?_digits {ds : List Char} (hn : ds ≠ [])
    (hd : ∀ d ∈ ds, d.isDigit = true) (h : Decimal.ofDigits ds < Nat.pow 2 53) :
    ∃ x, ofText? ds = some x ∧ x.toNat? = some (Decimal.ofDigits ds) := by
  obtain ⟨x, hx, hnat⟩ := exists_ofRatio?_one h
  refine ⟨x, ?_, hnat⟩
  rw [ofText?, Decimal.ofText?_digits hn hd, Option.bind_some, Decimal.toBinary64?_whole h, hx]

end DiagramText
