import DiagramText.Proofs.WholeNumbers
import Mathlib.Algebra.Order.Field.Power
import Mathlib.Algebra.Order.Field.Rat
import Mathlib.Tactic.FieldSimp
import Mathlib.Tactic.Linarith
import Mathlib.Tactic.NormNum
import Mathlib.Tactic.Positivity
import Mathlib.Tactic.Ring

namespace DiagramText

theorem zpow_eq_div {b : ℚ} (hb : b ≠ 0) (q : ℤ) : b ^ q = b ^ q.toNat / b ^ (-q).toNat := by
  rw [← zpow_natCast, ← zpow_natCast, ← zpow_sub₀ hb]
  congr 1
  omega

theorem le_of_cast_lt_add_one {m k : Nat} (h : (m : ℚ) < k + 1) : m ≤ k :=
  Nat.lt_succ_iff.1 (by exact_mod_cast h)

namespace Binary64

variable {n d a b m k : Nat} {q : Int}

def toRat (x : Binary64) : ℚ :=
  (if x.negative then -1 else 1) * (x.significand * 2 ^ x.exponent)

theorem toNat?_eq_some_iff {x : Binary64} : x.toNat? = some k ↔ x.toRat = k := by
  obtain ⟨negative, m, q, hc⟩ := x
  have hvalue : (m : ℚ) * 2 ^ q = (m * 2 ^ q.toNat : ℕ) / (2 ^ (-q).toNat : ℕ) := by
    rw [zpow_eq_div two_ne_zero]
    push_cast
    ring
  have hpos : 0 < 2 ^ (-q).toNat := Nat.two_pow_pos _
  simp only [toNat?, toRat, Nat.pow_eq]
  by_cases hneg : negative = true ∧ m ≠ 0
  · obtain ⟨rfl, hm⟩ := hneg
    have hlt : (0 : ℚ) < m * 2 ^ q :=
      mul_pos (Nat.cast_pos.2 (Nat.pos_of_ne_zero hm)) (zpow_pos two_pos q)
    have hk : (0 : ℚ) ≤ k := Nat.cast_nonneg k
    rw [if_pos ⟨rfl, hm⟩, if_pos rfl]
    refine iff_of_false (Option.some_ne_none k).symm fun h ↦ ?_
    linarith
  · have hsign : (if negative = true then (-1 : ℚ) else 1) * (m * 2 ^ q) = m * 2 ^ q := by
      cases negative with
      | false => simp
      | true => simp [show m = 0 by simpa using hneg]
    rw [if_neg hneg, hsign, hvalue]
    by_cases hdvd : m % 2 ^ (-q).toNat = 0
    · obtain ⟨j, rfl⟩ := Nat.dvd_of_mod_eq_zero hdvd
      have hdiv : 2 ^ (-q).toNat * j * 2 ^ q.toNat / 2 ^ (-q).toNat = j * 2 ^ q.toNat := by
        rw [Nat.mul_assoc, Nat.mul_div_cancel_left _ hpos]
      have hne : ((2 ^ (-q).toNat : ℕ) : ℚ) ≠ 0 := Nat.cast_ne_zero.2 hpos.ne'
      have hratio : ((2 ^ (-q).toNat * j * 2 ^ q.toNat : ℕ) : ℚ) / (2 ^ (-q).toNat : ℕ) =
          (j * 2 ^ q.toNat : ℕ) := by
        rw [Nat.mul_assoc, Nat.cast_mul, mul_div_cancel_left₀ _ hne]
      rw [if_pos hdvd, Option.some_inj, hratio, Nat.cast_inj]
      exact iff_of_eq (congrArg (· = k) hdiv)
    · rw [if_neg hdvd]
      refine iff_of_false (Option.some_ne_none k).symm fun h ↦ hdvd ?_
      have hshift : q.toNat = 0 := by
        by_contra hq
        have hz : (-q).toNat = 0 := by omega
        exact hdvd (by rw [hz]; exact Nat.mod_one m)
      have hne : ((2 ^ (-q).toNat : ℕ) : ℚ) ≠ 0 := Nat.cast_ne_zero.2 hpos.ne'
      rw [hshift, pow_zero, Nat.mul_one, div_eq_iff hne, ← Nat.cast_mul, Nat.cast_inj] at h
      exact h ▸ Nat.mul_mod_left k _

theorem scaled_div (n d : Nat) (q : Int) :
    ((scaled n d q).1 : ℚ) / (scaled n d q).2 = n / d / 2 ^ q := by
  have hn : ((scaled n d q).1 : ℚ) = n * 2 ^ (-q).toNat := by
    exact_mod_cast rfl
  have hd : ((scaled n d q).2 : ℚ) = d * 2 ^ q.toNat := by
    exact_mod_cast rfl
  rw [hn, hd, zpow_eq_div two_ne_zero]
  field_simp

theorem scaled_snd_ne_zero (hd : d ≠ 0) : (scaled n d q).2 ≠ 0 :=
  (Nat.mul_pos (Nat.pos_of_ne_zero hd) (Nat.two_pow_pos _)).ne'

theorem scaled_le_iff (hd : d ≠ 0) : (scaled n d q).2 ≤ (scaled n d q).1 ↔ (2 : ℚ) ^ q ≤ n / d := by
  have hpos : (0 : ℚ) < (scaled n d q).2 :=
    Nat.cast_pos.2 (Nat.pos_of_ne_zero (scaled_snd_ne_zero hd))
  have hpow : (0 : ℚ) < 2 ^ q := zpow_pos two_pos q
  rw [← one_le_div hpow, ← scaled_div, one_le_div hpos, Nat.cast_le]

theorem floorLog2_bounds (hn : n ≠ 0) (hd : d ≠ 0) :
    (2 : ℚ) ^ floorLog2 n d ≤ n / d ∧ (n / d : ℚ) < 2 ^ (floorLog2 n d + 1) := by
  have hcast (m : Nat) (hm : m ≠ 0) :
      (2 : ℚ) ^ (m.log2 : ℤ) ≤ m ∧ (m : ℚ) < 2 ^ ((m.log2 : ℤ) + 1) := by
    constructor
    · exact_mod_cast Nat.log2_self_le hm
    · exact_mod_cast @Nat.lt_log2_self m
  obtain ⟨hnlow, hnhigh⟩ := hcast n hn
  obtain ⟨hdlow, hdhigh⟩ := hcast d hd
  have hdpos : (0 : ℚ) < d := Nat.cast_pos.2 (Nat.pos_of_ne_zero hd)
  set e : ℤ := n.log2 - d.log2 with he
  have hlow : (2 : ℚ) ^ (e - 1) ≤ n / d := by
    rw [le_div_iff₀ hdpos]
    calc (2 : ℚ) ^ (e - 1) * d ≤ 2 ^ (e - 1) * 2 ^ ((d.log2 : ℤ) + 1) := by gcongr
      _ = 2 ^ (n.log2 : ℤ) := by rw [← zpow_add₀ two_ne_zero, he]; congr 1; ring
      _ ≤ n := hnlow
  have hhigh : (n / d : ℚ) < 2 ^ (e + 1) := by
    rw [div_lt_iff₀ hdpos]
    calc (n : ℚ) < 2 ^ ((n.log2 : ℤ) + 1) := hnhigh
      _ = 2 ^ (e + 1) * 2 ^ (d.log2 : ℤ) := by rw [← zpow_add₀ two_ne_zero, he]; congr 1; ring
      _ ≤ 2 ^ (e + 1) * d := by gcongr
  have hfloor : floorLog2 n d = if (scaled n d e).2 ≤ (scaled n d e).1 then e else e - 1 := rfl
  rw [hfloor]
  split
  · rename_i h
    exact ⟨(scaled_le_iff hd).1 h, hhigh⟩
  · rename_i h
    refine ⟨hlow, ?_⟩
    rw [scaled_le_iff hd, not_le] at h
    rwa [sub_add_cancel]

theorem div_eq_quotient_add (hb : b ≠ 0) :
    (a / b : ℚ) = (a / b : ℕ) + (a % b : ℕ) / b := by
  have hpos : (b : ℚ) ≠ 0 := Nat.cast_ne_zero.2 hb
  rw [eq_comm, ← eq_sub_iff_add_eq', div_eq_iff hpos, sub_mul, div_mul_cancel₀ _ hpos]
  have h : (b : ℚ) * (a / b : ℕ) + (a % b : ℕ) = a := by exact_mod_cast Nat.div_add_mod a b
  linarith

theorem abs_sub_roundHalfEven_le (hb : b ≠ 0) : |(a / b : ℚ) - roundHalfEven a b| ≤ 1 / 2 := by
  have hpos : (0 : ℚ) < b := Nat.cast_pos.2 (Nat.pos_of_ne_zero hb)
  have hr : (a % b : ℕ) < (b : ℚ) := Nat.cast_lt.2 (Nat.mod_lt a (Nat.pos_of_ne_zero hb))
  have hnonneg : (0 : ℚ) ≤ (a % b : ℕ) / b := by positivity
  have hround : roundHalfEven a b =
      if 2 * (a % b) < b ∨ 2 * (a % b) = b ∧ a / b % 2 = 0 then a / b else a / b + 1 := rfl
  rw [hround, div_eq_quotient_add hb, abs_le]
  split
  · rename_i h
    have hle : 2 * ((a % b : ℕ) : ℚ) ≤ b := by
      exact_mod_cast h.elim Nat.le_of_lt fun h ↦ h.1.le
    have hhalf : ((a % b : ℕ) : ℚ) / b ≤ 1 / 2 := by
      rw [div_le_iff₀ hpos]
      linarith
    constructor <;> linarith
  · rename_i h
    have hle : (b : ℚ) ≤ 2 * ((a % b : ℕ) : ℚ) := by
      exact_mod_cast Nat.not_lt.1 (not_or.1 h).1
    have hhalf : 1 / 2 ≤ ((a % b : ℕ) : ℚ) / b := by
      rw [le_div_iff₀ hpos]
      linarith
    have hone : ((a % b : ℕ) : ℚ) / b < 1 := (div_lt_one hpos).2 hr
    push_cast
    constructor <;> linarith

/-- Of two equally near numbers the even one is taken, so an even one is taken whenever none is
nearer. -/
theorem roundHalfEven_eq_of_even (hb : b ≠ 0) (hm : m % 2 = 0)
    (h : |(a / b : ℚ) - m| ≤ 1 / 2) : roundHalfEven a b = m := by
  have hpos : (0 : ℚ) < b := Nat.cast_pos.2 (Nat.pos_of_ne_zero hb)
  have hround : roundHalfEven a b =
      if 2 * (a % b) < b ∨ 2 * (a % b) = b ∧ a / b % 2 = 0 then a / b else a / b + 1 := rfl
  have hone : ((a % b : ℕ) : ℚ) / b < 1 :=
    (div_lt_one hpos).2 (Nat.cast_lt.2 (Nat.mod_lt a (Nat.pos_of_ne_zero hb)))
  have hnonneg : (0 : ℚ) ≤ (a % b : ℕ) / b := by positivity
  have hhalf : ((a % b : ℕ) : ℚ) / b ≤ 1 / 2 ↔ 2 * (a % b) ≤ b := by
    rw [div_le_iff₀ hpos, ← @Nat.cast_le ℚ]
    push_cast
    constructor <;> intro h <;> linarith
  have hhalf' : 1 / 2 ≤ ((a % b : ℕ) : ℚ) / b ↔ b ≤ 2 * (a % b) := by
    rw [le_div_iff₀ hpos, ← @Nat.cast_le ℚ]
    push_cast
    constructor <;> intro h <;> linarith
  rw [div_eq_quotient_add hb, abs_le] at h
  have hle : a / b ≤ m := le_of_cast_lt_add_one (by linarith)
  have hge : m ≤ a / b + 1 := le_of_cast_lt_add_one (by rw [Nat.cast_add_one]; linarith)
  rw [hround]
  rcases Nat.eq_or_lt_of_le hle with he | hlt
  · have hlow : 2 * (a % b) ≤ b := hhalf.1 (by rw [he] at h; linarith)
    rw [if_pos (by omega), he]
  · have he : m = a / b + 1 := by omega
    have hhigh : b ≤ 2 * (a % b) := hhalf'.1 (by rw [he] at h; push_cast at h; linarith)
    rw [if_neg (by omega), he]

/-- The exponent of the last place that a binary64 number near to the ratio has. -/
def place (n d : Nat) : Int :=
  max (floorLog2 n d - 52) (-1074)

/-- The ratio in units of its last place, rounded. -/
def units (n d : Nat) : Nat :=
  roundHalfEven (scaled n d (place n d)).1 (scaled n d (place n d)).2

theorem nearest_eq (n d : Nat) :
    nearest n d =
      if units n d = 2 ^ 53 then (2 ^ 52, place n d + 1) else (units n d, place n d) := rfl

theorem nearest_value (n d : Nat) :
    ((nearest n d).1 : ℚ) * 2 ^ (nearest n d).2 = units n d * 2 ^ place n d := by
  rw [nearest_eq]
  split
  · rename_i h
    rw [h, zpow_add_one₀ two_ne_zero]
    push_cast
    ring
  · rfl

theorem abs_sub_units_le (hd : d ≠ 0) :
    |(n / d : ℚ) / 2 ^ place n d - units n d| ≤ 1 / 2 := by
  rw [← scaled_div]
  exact abs_sub_roundHalfEven_le (scaled_snd_ne_zero hd)

theorem units_eq_of_even (hd : d ≠ 0) (hm : m % 2 = 0)
    (h : |(n / d : ℚ) / 2 ^ place n d - m| ≤ 1 / 2) : units n d = m := by
  rw [← scaled_div] at h
  exact roundHalfEven_eq_of_even (scaled_snd_ne_zero hd) hm h

theorem units_bounds (hn : n ≠ 0) (hd : d ≠ 0) :
    units n d ≤ 2 ^ 53 ∧ (2 ^ 52 ≤ units n d ∨ place n d = -1074) := by
  obtain ⟨hlow, hhigh⟩ := floorLog2_bounds hn hd
  have hunits := abs_le.1 (abs_sub_units_le (n := n) hd)
  have hpos : (0 : ℚ) < 2 ^ place n d := zpow_pos two_pos _
  have hplace : floorLog2 n d - 52 ≤ place n d := Int.le_max_left _ _
  constructor
  · have hratio : (n / d : ℚ) / 2 ^ place n d ≤ 2 ^ (53 : ℤ) := by
      rw [div_le_iff₀ hpos, ← zpow_add₀ two_ne_zero]
      exact hhigh.le.trans (zpow_le_zpow_right₀ one_le_two (by omega))
    have hcast : (2 : ℚ) ^ (53 : ℤ) = (2 ^ 53 : ℕ) := by norm_num
    exact le_of_cast_lt_add_one (by linarith)
  · rcases Int.le_total (floorLog2 n d - 52) (-1074) with hp | hp
    · exact .inr (Int.max_eq_right hp)
    · have he : place n d = floorLog2 n d - 52 := Int.max_eq_left hp
      have hratio : 2 ^ (52 : ℤ) ≤ (n / d : ℚ) / 2 ^ place n d := by
        rw [le_div_iff₀ hpos, ← zpow_add₀ two_ne_zero, he]
        exact (zpow_le_zpow_right₀ one_le_two (by omega)).trans hlow
      have hcast : (2 : ℚ) ^ (52 : ℤ) = (2 ^ 52 : ℕ) := by norm_num
      exact .inl (le_of_cast_lt_add_one (by linarith))

theorem canonical_nearest (hn : n ≠ 0) (hd : d ≠ 0) (h : (n / d : ℚ) < 2 ^ (1000 : ℤ)) :
    Canonical (nearest n d).1 (nearest n d).2 := by
  obtain ⟨hhigh, hlow⟩ := units_bounds hn hd
  have hplace : -1074 ≤ place n d := Int.le_max_right _ _
  have hlog : floorLog2 n d < 1000 :=
    (zpow_lt_zpow_iff_right₀ one_lt_two).1 ((floorLog2_bounds hn hd).1.trans_lt h)
  have hreach : place n d ≤ 970 := Int.max_le.2 ⟨by omega, by omega⟩
  rw [nearest_eq]
  split
  · exact ⟨(by decide : 2 ^ 52 < Nat.pow 2 53), by omega, by omega, .inl (Nat.le_refl _)⟩
  · rename_i hne
    exact ⟨Nat.lt_of_le_of_ne hhigh hne, hplace, by omega, hlow⟩

theorem floorLog2_eq (hn : n ≠ 0) (hd : d ≠ 0) (hlow : (2 : ℚ) ^ q ≤ n / d)
    (hhigh : (n / d : ℚ) < 2 ^ (q + 1)) : floorLog2 n d = q := by
  obtain ⟨hlow', hhigh'⟩ := floorLog2_bounds hn hd
  have hle : floorLog2 n d < q + 1 :=
    (zpow_lt_zpow_iff_right₀ one_lt_two).1 (hlow'.trans_lt hhigh)
  have hge : q < floorLog2 n d + 1 :=
    (zpow_lt_zpow_iff_right₀ one_lt_two).1 (hlow.trans_lt hhigh')
  omega

theorem abs_sub_le_of_units (hd : d ≠ 0) (h : (units n d : ℚ) * 2 ^ place n d = k) :
    |(n / d : ℚ) - k| ≤ 2 ^ (place n d - 1) := by
  have hpos : (0 : ℚ) < 2 ^ place n d := zpow_pos two_pos _
  have hscale : (n / d : ℚ) - k = ((n / d : ℚ) / 2 ^ place n d - units n d) * 2 ^ place n d := by
    rw [sub_mul, div_mul_cancel₀ _ hpos.ne', h]
  rw [hscale, abs_mul, abs_of_pos hpos, zpow_sub_one₀ two_ne_zero]
  calc |(n / d : ℚ) / 2 ^ place n d - units n d| * 2 ^ place n d
      ≤ 1 / 2 * 2 ^ place n d := by gcongr; exact abs_sub_units_le hd
    _ = 2 ^ place n d * 2⁻¹ := by ring

/-- A whole number has an even number of units, so that half a unit is near enough. -/
theorem units_of_abs_sub_le (hd : d ≠ 0) (hp : place n d < 0)
    (h : |(n / d : ℚ) - k| ≤ 2 ^ (place n d - 1)) : (units n d : ℚ) * 2 ^ place n d = k := by
  have hpos : (0 : ℚ) < 2 ^ place n d := zpow_pos two_pos _
  obtain ⟨j, hj⟩ : ∃ j : Nat, place n d = -(j + 1) := ⟨(-place n d - 1).toNat, by omega⟩
  have heven : k * 2 ^ (j + 1) % 2 = 0 := by
    rw [Nat.pow_succ, ← Nat.mul_assoc]
    exact Nat.mul_mod_left _ 2
  have hcast : ((k * 2 ^ (j + 1) : ℕ) : ℚ) * 2 ^ place n d = k := by
    have hcancel : (2 : ℚ) ^ (j + 1) * 2 ^ place n d = 1 := by
      rw [hj, ← zpow_natCast, ← zpow_add₀ two_ne_zero]
      simp
    push_cast
    rw [mul_assoc, hcancel, mul_one]
  have hunits : units n d = k * 2 ^ (j + 1) := by
    refine units_eq_of_even hd heven ?_
    have hscale : (n / d : ℚ) / 2 ^ place n d - (k * 2 ^ (j + 1) : ℕ) =
        ((n / d : ℚ) - k) / 2 ^ place n d := by
      rw [sub_div, ← eq_div_of_mul_eq hpos.ne' hcast]
    rw [hscale, abs_div, abs_of_pos hpos, div_le_iff₀ hpos]
    rw [zpow_sub_one₀ two_ne_zero] at h
    linarith
  rw [hunits, hcast]

/-- The ratios that are rounded to a whole number `k`: those no further from it than half the step
to the next number. The step below a power of two is half the step above it, and the step from zero
is that of the smallest number. -/
def readAs (k : Nat) : Set ℚ :=
  if k = 0 then Set.Icc 0 (2 ^ (-1075 : ℤ))
  else Set.Icc (k - 2 ^ ((k.log2 : ℤ) - if k = 2 ^ k.log2 then 54 else 53))
    (k + 2 ^ ((k.log2 : ℤ) - 53))

theorem mem_readAs_zero_iff {v : ℚ} : v ∈ readAs 0 ↔ 0 ≤ v ∧ v ≤ 2 ^ (-1075 : ℤ) := by
  rw [readAs, if_pos rfl, Set.mem_Icc]

theorem mem_readAs_iff {v : ℚ} (hk : k ≠ 0) :
    v ∈ readAs k ↔ k - 2 ^ ((k.log2 : ℤ) - if k = 2 ^ k.log2 then 54 else 53) ≤ v ∧
      v ≤ k + 2 ^ ((k.log2 : ℤ) - 53) := by
  rw [readAs, if_neg hk, Set.mem_Icc]

theorem units_eq_zero_iff (hn : n ≠ 0) (hd : d ≠ 0) :
    (units n d : ℚ) * 2 ^ place n d = (0 : ℕ) ↔ (n / d : ℚ) ∈ readAs 0 := by
  have hnonneg : (0 : ℚ) ≤ n / d := by positivity
  rw [mem_readAs_zero_iff]
  constructor
  · intro h
    have hunits : units n d = 0 := by
      have hpos : (2 : ℚ) ^ place n d ≠ 0 := (zpow_pos two_pos _).ne'
      simpa [hpos] using h
    have hplace : place n d = -1074 := by
      have := (units_bounds hn hd).2
      omega
    have hnear := (abs_le.1 (abs_sub_le_of_units hd h)).2
    rw [hplace] at hnear
    exact ⟨hnonneg, by simpa using hnear⟩
  · rintro ⟨-, h⟩
    have hlog : floorLog2 n d ≤ -1075 :=
      (zpow_le_zpow_iff_right₀ one_lt_two).1 ((floorLog2_bounds hn hd).1.trans h)
    have hplace : place n d = -1074 := Int.max_eq_right (by omega)
    refine units_of_abs_sub_le hd (by omega) ?_
    rw [hplace, Nat.cast_zero, sub_zero, abs_of_nonneg hnonneg]
    exact h

theorem log2_bounds (hk : k ≠ 0) :
    (2 : ℚ) ^ (k.log2 : ℤ) ≤ k ∧ (k : ℚ) + 1 ≤ 2 ^ ((k.log2 : ℤ) + 1) := by
  constructor
  · exact_mod_cast Nat.log2_self_le hk
  · exact_mod_cast @Nat.lt_log2_self k

theorem mem_readAs_of_units (hn : n ≠ 0) (hd : d ≠ 0) (hk : k ≠ 0)
    (h : (units n d : ℚ) * 2 ^ place n d = k) : (n / d : ℚ) ∈ readAs k := by
  obtain ⟨hlow, hhigh⟩ := log2_bounds hk
  obtain ⟨hmax, hmin⟩ := units_bounds hn hd
  have hpos : (0 : ℚ) < 2 ^ place n d := zpow_pos two_pos _
  have hmax : (k : ℚ) ≤ 2 ^ (place n d + 53) := by
    rw [← h, add_comm, zpow_add₀ two_ne_zero]
    gcongr
    exact_mod_cast hmax
  have hlast : k.log2 ≤ place n d + 53 :=
    (zpow_le_zpow_iff_right₀ one_lt_two).1 (hlow.trans hmax)
  have hmin : (2 : ℚ) ^ (place n d + 52) ≤ k := by
    rw [← h, add_comm, zpow_add₀ two_ne_zero]
    gcongr
    exact_mod_cast hmin.resolve_right (by omega)
  have hfirst : place n d + 52 < k.log2 + 1 :=
    (zpow_lt_zpow_iff_right₀ one_lt_two).1 (hmin.trans_lt ((lt_add_one (k : ℚ)).trans_le hhigh))
  obtain ⟨hbelow, habove⟩ := abs_le.1 (abs_sub_le_of_units hd h)
  have hupper : (2 : ℚ) ^ (place n d - 1) ≤ 2 ^ ((k.log2 : ℤ) - 53) :=
    zpow_le_zpow_right₀ one_le_two (by omega)
  refine (mem_readAs_iff hk).2 ⟨?_, by linarith⟩
  split
  · rename_i hpow
    rcases Int.lt_or_eq_of_le (show k.log2 - 53 ≤ place n d by omega) with hp | hp
    · -- The ratio has the logarithm of the power of two, so it is not below it.
      have hlog : floorLog2 n d = k.log2 := by
        have : place n d = max (floorLog2 n d - 52) (-1074) := rfl
        omega
      have hge := (floorLog2_bounds hn hd).1
      have hcast : (k : ℚ) = 2 ^ (k.log2 : ℤ) := by exact_mod_cast congrArg (Nat.cast : ℕ → ℚ) hpow
      rw [hlog, ← hcast] at hge
      have : (0 : ℚ) < 2 ^ ((k.log2 : ℤ) - 54) := zpow_pos two_pos _
      linarith
    · rw [← hp, sub_sub] at hbelow
      norm_num at hbelow ⊢
      linarith
  · linarith

theorem units_of_mem_readAs (hn : n ≠ 0) (hd : d ≠ 0) (hk : k ≠ 0) (hlt : k < 2 ^ 52)
    (h : (n / d : ℚ) ∈ readAs k) : (units n d : ℚ) * 2 ^ place n d = k := by
  obtain ⟨hlow, hhigh⟩ := log2_bounds hk
  obtain ⟨hbelow, habove⟩ := (mem_readAs_iff hk).1 h
  have hlog : k.log2 < 52 := (Nat.log2_lt hk).2 hlt
  have hstep : (2 : ℚ) ^ ((k.log2 : ℤ) - 53) < 1 := zpow_lt_one_of_neg₀ one_lt_two (by omega)
  rcases le_or_gt ((2 : ℚ) ^ (k.log2 : ℤ)) (n / d) with hge | hlt
  · have hplace : place n d = k.log2 - 52 := by
      rw [place, floorLog2_eq hn hd hge (by linarith)]
      omega
    refine units_of_abs_sub_le hd (by omega) ?_
    rw [hplace, sub_sub, abs_le]
    have hhalf : (2 : ℚ) ^ ((k.log2 : ℤ) - if k = 2 ^ k.log2 then 54 else 53) ≤
        2 ^ ((k.log2 : ℤ) - 53) := zpow_le_zpow_right₀ one_le_two (by split <;> omega)
    norm_num
    constructor <;> linarith
  · have hpow : k = 2 ^ k.log2 := by
      by_contra hne
      rw [if_neg hne] at hbelow
      have hsucc : ((2 ^ k.log2 : ℕ) : ℚ) + 1 ≤ k := by
        exact_mod_cast Nat.lt_of_le_of_ne (Nat.log2_self_le hk) (Ne.symm hne)
      rw [zpow_natCast] at hlt
      push_cast at hsucc
      linarith
    have hcast : (k : ℚ) = 2 ^ (k.log2 : ℤ) := by exact_mod_cast congrArg (Nat.cast : ℕ → ℚ) hpow
    rw [if_pos hpow] at hbelow
    have hplace : place n d = k.log2 - 53 := by
      have hhalf : (2 : ℚ) ^ ((k.log2 : ℤ) - 54) ≤ 2 ^ ((k.log2 : ℤ) - 1) :=
        zpow_le_zpow_right₀ one_le_two (by omega)
      have htwice : (2 : ℚ) ^ (k.log2 : ℤ) = 2 * 2 ^ ((k.log2 : ℤ) - 1) := by
        rw [zpow_sub_one₀ two_ne_zero]
        ring
      rw [place, @floorLog2_eq n d (k.log2 - 1) hn hd (by linarith) (by rwa [sub_add_cancel])]
      omega
    refine units_of_abs_sub_le hd (by omega) ?_
    rw [hplace, sub_sub, abs_le]
    norm_num
    constructor <;> linarith

theorem bounds_of_mem_readAs {v : ℚ} (h : v ∈ readAs k) (hk : k < 2 ^ 52) :
    v ≤ k + 1 ∧ (k ≠ 0 → 1 / 2 ≤ v) := by
  rcases Decidable.em (k = 0) with rfl | hne
  · have hstep : (2 : ℚ) ^ (-1075 : ℤ) ≤ 1 := zpow_le_one_of_nonpos₀ one_le_two (by omega)
    refine ⟨?_, fun h ↦ absurd rfl h⟩
    rw [Nat.cast_zero, zero_add]
    exact (mem_readAs_zero_iff.1 h).2.trans hstep
  · obtain ⟨hbelow, habove⟩ := (mem_readAs_iff hne).1 h
    have hlog : k.log2 < 52 := (Nat.log2_lt hne).2 hk
    have hstep {q : ℤ} (hq : q ≤ k.log2 - 53) : (2 : ℚ) ^ q ≤ 1 / 2 := by
      calc (2 : ℚ) ^ q ≤ 2 ^ (-1 : ℤ) := zpow_le_zpow_right₀ one_le_two (by omega)
        _ = 1 / 2 := by norm_num
    have hone : (1 : ℚ) ≤ k := by exact_mod_cast Nat.pos_of_ne_zero hne
    have hupper := hstep (Int.le_refl _)
    have hlower := @hstep (k.log2 - if k = 2 ^ k.log2 then 54 else 53) (by split <;> omega)
    exact ⟨by linarith, fun _ ↦ by linarith⟩

theorem zero_mem_readAs_iff (hk : k < 2 ^ 52) : (0 : ℚ) ∈ readAs k ↔ k = 0 := by
  constructor
  · intro h
    by_contra hne
    have := (bounds_of_mem_readAs h hk).2 hne
    norm_num at this
  · rintro rfl
    exact mem_readAs_zero_iff.2 ⟨le_rfl, by positivity⟩

theorem toNat?_zero (negative : Bool) : (zero negative).toNat? = some 0 := by
  rw [toNat?_eq_some_iff]
  simp [toRat, zero]

theorem ofRatio?_bind_toNat?_iff (hd : d ≠ 0) (hk : k < 2 ^ 52) :
    (ofRatio? false n d).bind toNat? = some k ↔ (n / d : ℚ) ∈ readAs k := by
  rcases Decidable.em (n = 0) with rfl | hn
  · rw [ofRatio?, if_pos rfl, Option.bind_some, toNat?_zero, Nat.cast_zero, zero_div,
      zero_mem_readAs_iff hk, Option.some_inj, eq_comm]
  · have hiff : (units n d : ℚ) * 2 ^ place n d = k ↔ (n / d : ℚ) ∈ readAs k := by
      rcases Decidable.em (k = 0) with rfl | hne
      · exact units_eq_zero_iff hn hd
      · exact ⟨mem_readAs_of_units hn hd hne, units_of_mem_readAs hn hd hne hk⟩
    by_cases hc : Canonical (nearest n d).1 (nearest n d).2
    · have hratio : ofRatio? false n d = some ⟨false, (nearest n d).1, (nearest n d).2, hc⟩ := by
        simp only [ofRatio?, if_neg hn, dif_pos hc]
      rw [hratio, Option.bind_some, toNat?_eq_some_iff, ← hiff, ← nearest_value]
      simp [toRat]
    · have hratio : ofRatio? false n d = none := by
        simp only [ofRatio?, if_neg hn, dif_neg hc]
      rw [hratio]
      refine iff_of_false (Option.some_ne_none k).symm fun h ↦ hc (canonical_nearest hn hd ?_)
      have hbound : ((k + 1 : ℕ) : ℚ) ≤ (2 ^ 52 : ℕ) := Nat.cast_le.2 hk
      calc (n / d : ℚ) ≤ (k + 1 : ℕ) := by
            rw [Nat.cast_add_one]
            exact (bounds_of_mem_readAs h hk).1
        _ ≤ (2 ^ 52 : ℕ) := hbound
        _ = 2 ^ (52 : ℤ) := by norm_num
        _ < 2 ^ (1000 : ℤ) := zpow_lt_zpow_right₀ one_lt_two (by omega)

end Binary64

namespace Decimal

variable {k : Nat}

def toRat (x : Decimal) : ℚ :=
  (if x.negative then -1 else 1) * (x.coefficient * 10 ^ x.exponent)

theorem coefficient_bounds {c : Nat} (hc : c ≠ 0) (e : ℤ) :
    (10 : ℚ) ^ ((Nat.toDigits 10 c).length + e - 1) ≤ c * 10 ^ e ∧
      (c * 10 ^ e : ℚ) < 10 ^ ((Nat.toDigits 10 c).length + e) := by
  obtain ⟨l, hl⟩ : ∃ l, (Nat.toDigits 10 c).length = l + 1 :=
    Nat.exists_eq_succ_of_ne_zero (mt List.length_eq_zero_iff.1 Nat.toDigits_ne_nil)
  have hpos : (0 : ℚ) < 10 ^ e := zpow_pos (by norm_num) e
  have hlow : 10 ^ l ≤ c := by
    rcases Nat.eq_zero_or_pos l with rfl | hlpos
    · exact Nat.pos_of_ne_zero hc
    · refine Nat.le_of_not_lt fun hlt ↦ ?_
      have := (Nat.length_toDigits_le_iff (by decide) hlpos).2 hlt
      omega
  have hhigh : c < 10 ^ (l + 1) :=
    (Nat.length_toDigits_le_iff (by decide) (Nat.succ_pos l)).1 hl.le
  have hlow : (10 : ℚ) ^ (l : ℤ) ≤ c := by exact_mod_cast hlow
  have hhigh : (c : ℚ) < 10 ^ ((l : ℤ) + 1) := by exact_mod_cast hhigh
  rw [hl]
  push_cast
  constructor
  · rw [show (l : ℤ) + 1 + e - 1 = l + e by ring, zpow_add₀ (by norm_num)]
    gcongr
  · rw [zpow_add₀ (by norm_num) _ e]
    gcongr

/-- The decimals that come out as a whole number are those that are rounded to it, also where they
are settled by the number of their digits. -/
theorem toBinary64?_bind_toNat?_iff {x : Decimal} (hx : x.negative = false) (hk : k < 2 ^ 52) :
    x.toBinary64?.bind Binary64.toNat? = some k ↔ x.toRat ∈ Binary64.readAs k := by
  obtain ⟨negative, c, e⟩ := x
  obtain rfl : negative = false := hx
  have hrat : (⟨false, c, e⟩ : Decimal).toRat = c * 10 ^ e := by simp [toRat]
  rw [hrat]
  simp only [toBinary64?]
  rcases Decidable.em (c = 0) with rfl | hc
  · rw [if_pos (.inl rfl), Option.bind_some, Binary64.toNat?_zero, Nat.cast_zero, zero_mul,
      Binary64.zero_mem_readAs_iff hk, Option.some_inj, eq_comm]
  obtain ⟨hlow, hhigh⟩ := coefficient_bounds hc e
  have hten : (1 : ℚ) ≤ 10 := by norm_num
  have hnonneg : (0 : ℚ) ≤ c * 10 ^ e := by positivity
  split
  · rename_i hsmall
    have hsmall : ((Nat.toDigits 10 c).length + e : ℤ) ≤ -331 := by omega
    have htiny : (c * 10 ^ e : ℚ) ≤ 2 ^ (-1075 : ℤ) := by
      calc (c * 10 ^ e : ℚ) ≤ 10 ^ (-10 * 33 : ℤ) :=
            hhigh.le.trans (zpow_le_zpow_right₀ hten (by omega))
        _ = (10 ^ (-10 : ℤ)) ^ (33 : ℤ) := zpow_mul 10 (-10) 33
        _ ≤ (2 ^ (-33 : ℤ)) ^ (33 : ℤ) :=
            zpow_le_zpow_left₀ (by omega) (by positivity) (by norm_num)
        _ = 2 ^ (-33 * 33 : ℤ) := (zpow_mul 2 (-33) 33).symm
        _ ≤ 2 ^ (-1075 : ℤ) := zpow_le_zpow_right₀ one_le_two (by omega)
    have hhalf : (2 : ℚ) ^ (-1075 : ℤ) < 2 ^ (-1 : ℤ) :=
      zpow_lt_zpow_right₀ one_lt_two (by omega)
    rw [zpow_neg_one] at hhalf
    rw [Option.bind_some, Binary64.toNat?_zero, Option.some_inj]
    constructor
    · rintro rfl
      exact Binary64.mem_readAs_zero_iff.2 ⟨hnonneg, htiny⟩
    · intro h
      by_contra hne
      have := (Binary64.bounds_of_mem_readAs h hk).2 (Ne.symm hne)
      linarith
  · split
    · rename_i hlarge
      refine iff_of_false (Option.some_ne_none k).symm fun h ↦ ?_
      have hbound : ((k + 1 : ℕ) : ℚ) ≤ (2 ^ 52 : ℕ) := Nat.cast_le.2 hk
      have hfar : (10 : ℚ) ^ (20 : ℤ) ≤ c * 10 ^ e :=
        (zpow_le_zpow_right₀ hten (by omega)).trans hlow
      have hreach : ((2 ^ 52 : ℕ) : ℚ) < 10 ^ (20 : ℤ) := by norm_num
      have hnear := (Binary64.bounds_of_mem_readAs h hk).1
      rw [Nat.cast_add_one] at hbound
      linarith
    · have hratio : (c * 10 ^ e : ℚ) =
          (c * Nat.pow 10 e.toNat : ℕ) / (Nat.pow 10 (-e).toNat : ℕ) := by
        rw [zpow_eq_div (by norm_num)]
        simp only [Nat.pow_eq]
        push_cast
        ring
      rw [hratio]
      exact Binary64.ofRatio?_bind_toNat?_iff (Nat.pow_pos (by decide)).ne' hk

end Decimal

end DiagramText
