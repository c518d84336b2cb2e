import DiagramText.Proofs.Accepted
import DiagramText.Proofs.RoundedNumbers
import DiagramText.Proofs.Written

namespace DiagramText

/-- A numeral and the number that it denotes, exactly. -/
inductive Numeral.Denotes : List Char → ℚ → Prop
  | whole {ds : List Char} : ds ≠ [] → (∀ d ∈ ds, d.isDigit = true) →
      Denotes ds (Decimal.ofDigits ds)
  | point {ds es : List Char} : ds ≠ [] → (∀ d ∈ ds, d.isDigit = true) → es ≠ [] →
      (∀ e ∈ es, e.isDigit = true) →
      Denotes (ds ++ '.' :: es) (Decimal.ofDigits ds + Decimal.ofDigits es / 10 ^ es.length)

theorem Numeral.denotes_point {ds es : List Char} {m n : Nat} (hn : ds ≠ [])
    (hd : ds.all Char.isDigit = true) (hen : es ≠ []) (he : es.all Char.isDigit = true)
    (hm : Decimal.ofDigits ds = m) (hk : Decimal.ofDigits es = n) :
    Denotes (ds ++ '.' :: es) (m + n / 10 ^ es.length) := by
  rw [← hm, ← hk]
  exact .point hn (List.all_eq_true.1 hd) hen (List.all_eq_true.1 he)

namespace Decimal

variable {ds es : List Char}

theorem ofDigits_append (ds es : List Char) :
    ofDigits (ds ++ es) = 10 ^ es.length * ofDigits ds + ofDigits es := by
  rw [ofDigits, Nat.ofDigitChars_append, Nat.ofDigitChars_eq_ofDigitChars_zero]
  rfl

theorem sign_append_of_digits (hn : ds ≠ []) (hd : ∀ d ∈ ds, d.isDigit = true) (cs : List Char) :
    sign (ds ++ cs) = (false, ds ++ cs) := by
  obtain ⟨d, ds, rfl⟩ := List.exists_cons_of_ne_nil hn
  have hdigit : d.isDigit = true := hd d List.mem_cons_self
  rw [List.cons_append]
  unfold sign
  split
  · rename_i h
    rw [(List.cons.inj h).1] at hdigit
    cases hdigit
  · rename_i h
    rw [(List.cons.inj h).1] at hdigit
    cases hdigit
  · rfl

theorem ofText?_point (hn : ds ≠ []) (hd : ∀ d ∈ ds, d.isDigit = true)
    (he : ∀ e ∈ es, e.isDigit = true) :
    ofText? (ds ++ '.' :: es) = some ⟨false, ofDigits (ds ++ es), -es.length⟩ := by
  have htake : (ds ++ '.' :: es).takeWhile Char.isDigit = ds := by
    rw [List.takeWhile_append_of_pos hd, List.takeWhile_cons_of_neg (by decide), List.append_nil]
  have hdrop : (ds ++ '.' :: es).dropWhile Char.isDigit = '.' :: es := by
    rw [List.dropWhile_append_of_pos hd, List.dropWhile_cons_of_neg (by decide)]
  have htake' : es.takeWhile Char.isDigit = es := List.takeWhile_eq_self_iff.2 he
  have hdrop' : es.dropWhile Char.isDigit = [] := List.dropWhile_eq_nil_iff.2 he
  simp [ofText?, sign_append_of_digits hn hd, htake, hdrop, htake', hdrop', hn, power?]

end Decimal

variable {cs : List Char} {v : ℚ}

theorem Numeral.Denotes.exists_ofText? (h : Denotes cs v) :
    ∃ x, Decimal.ofText? cs = some x ∧ x.negative = false ∧ x.toRat = v := by
  cases h with
  | whole hn hd => exact ⟨_, Decimal.ofText?_digits hn hd, rfl, by simp [Decimal.toRat]⟩
  | @point ds es hn hd _ he =>
    refine ⟨_, Decimal.ofText?_point hn hd he, rfl, ?_⟩
    have hpow : (10 : ℚ) ^ es.length ≠ 0 := by positivity
    have hsum : ((10 ^ es.length * Decimal.ofDigits ds + Decimal.ofDigits es : ℕ) : ℚ) /
        10 ^ es.length = Decimal.ofDigits ds + Decimal.ofDigits es / 10 ^ es.length := by
      push_cast
      field_simp
    rw [Decimal.ofDigits_append, ← hsum]
    simp [Decimal.toRat, div_eq_mul_inv]

/-- The numerals that come out as a whole number are those of the numbers rounded to it. -/
theorem Numeral.Denotes.bind_toNat?_iff (h : Denotes cs v) {k : Nat} (hk : k < 2 ^ 52) :
    (Binary64.ofText? cs).bind Binary64.toNat? = some k ↔ v ∈ Binary64.readAs k := by
  obtain ⟨x, hx, hneg, rfl⟩ := h.exists_ofText?
  rw [Binary64.ofText?, hx, Option.bind_some, Decimal.toBinary64?_bind_toNat?_iff hneg hk]

theorem Binary64.natCast_mem_readAs (k : Nat) : (k : ℚ) ∈ readAs k := by
  rcases Decidable.em (k = 0) with rfl | hk
  · exact mem_readAs_zero_iff.2 ⟨le_rfl, by positivity⟩
  · have hpos (q : ℤ) : (0 : ℚ) < 2 ^ q := zpow_pos two_pos q
    exact (mem_readAs_iff hk).2 ⟨sub_le_self _ (hpos _).le, le_add_of_nonneg_right (hpos _).le⟩

namespace Packet

open Grammar.Packet (bit maxBit)

variable {t : Token} {n : Nat}

theorem common_of_number (hk : t.kind = .number) :
    Reader.common t = (Reader.numberOf t t.text.toList).map .number := by
  simp only [Reader.common, hk]

theorem number_of_some {x : Binary64} (hk : t.kind = .number)
    (hx : Binary64.ofText? t.text.toList = some x) (what : String) (ts : List Token) :
    Production.number Reader.common .number what (t :: ts) = .accepted ⟨x, t.span⟩ ts := by
  refine Production.number_cons hk ?_ what ts
  rw [common_of_number hk, Reader.numberOf, hx]
  rfl

theorem bit_of_some (hk : t.kind = .number) (hn : n ≤ maxBit)
    (h : (Binary64.ofText? t.text.toList).bind Binary64.toNat? = some n) (what : String)
    (ts : List Token) : bit what (t :: ts) = .accepted ⟨n, t.span⟩ ts := by
  obtain ⟨x, hx, hnat⟩ := Option.bind_eq_some_iff.1 h
  simp only [bit, Production.bind_apply, number_of_some hk hx, hnat, Option.filter_some,
    decide_eq_true hn, if_true, Production.pure_apply]

theorem bit_of_none (hk : t.kind = .number)
    (h : ∀ n ≤ maxBit, (Binary64.ofText? t.text.toList).bind Binary64.toNat? ≠ some n)
    (what : String) (ts : List Token) :
    ∃ f rest, bit what (t :: ts) = .refused (.invalid f) rest ∧
      f.diagnostic.code = some .E102 ∧ f.diagnostic.primarySpan = some t.span := by
  cases hx : Binary64.ofText? t.text.toList with
  | none =>
    have hread : Reader.common t = .error (.notANumber t.text t.span) := by
      rw [common_of_number hk, Reader.numberOf, hx]
      rfl
    refine ⟨.notANumber t.text t.span, t :: ts, ?_, rfl, rfl⟩
    simp only [bit, Production.number, Production.value, Production.bind_apply,
      Production.token_cons hk, hread]
  | some x =>
    rw [hx] at h
    have hnone : x.toNat?.filter (· ≤ maxBit) = none :=
      Option.filter_eq_none_iff.2 fun n hn ↦ by
        simpa using fun hle ↦ h n hle hn
    refine ⟨.notWholeBits x t.span, ts, ?_, rfl, rfl⟩
    simp only [bit, Production.bind_apply, number_of_some hk hx, hnone]
    rfl

theorem bit_eq_accepted_iff (hk : t.kind = .number) (what : String) (ts : List Token) :
    bit what (t :: ts) = .accepted ⟨n, t.span⟩ ts ↔
      n ≤ maxBit ∧ (Binary64.ofText? t.text.toList).bind Binary64.toNat? = some n := by
  constructor
  · intro h
    by_cases hbits : ∀ m ≤ maxBit, (Binary64.ofText? t.text.toList).bind Binary64.toNat? ≠ some m
    · obtain ⟨f, rest, hf, -⟩ := bit_of_none hk hbits what ts
      rw [hf] at h
      cases h
    · push Not at hbits
      obtain ⟨m, hm, hnat⟩ := hbits
      rw [bit_of_some hk hm hnat] at h
      obtain ⟨he, -⟩ := Outcome.accepted.inj h
      rw [Spanned.mk.injEq] at he
      exact he.1 ▸ ⟨hm, hnat⟩
  · rintro ⟨hn, h⟩
    exact bit_of_some hk hn h what ts

/-- A numeral is accepted as bits just where the number that it denotes is rounded to a whole number
of 32 bits, and as that number. So whole numbers of 32 bits are, each as itself; but a number beside
one of them is too, if the two are closer than binary64 numbers tell apart. -/
theorem bit_rounds (hk : t.kind = .number) (hv : Numeral.Denotes t.text.toList v) (what : String)
    (ts : List Token) :
    (∀ n, bit what (t :: ts) = .accepted ⟨n, t.span⟩ ts ↔ n ≤ maxBit ∧ v ∈ Binary64.readAs n) ∧
    (∀ n : Nat, n ≤ maxBit → v = n → bit what (t :: ts) = .accepted ⟨n, t.span⟩ ts) ∧
    ((∀ n ≤ maxBit, v ∉ Binary64.readAs n) →
      ∃ f rest, bit what (t :: ts) = .refused (.invalid f) rest ∧
        f.diagnostic.code = some .E102 ∧ f.diagnostic.primarySpan = some t.span) := by
  have hiff (n : Nat) :
      bit what (t :: ts) = .accepted ⟨n, t.span⟩ ts ↔ n ≤ maxBit ∧ v ∈ Binary64.readAs n := by
    rw [bit_eq_accepted_iff hk]
    refine and_congr_right fun hn ↦ hv.bind_toNat?_iff ?_
    exact Nat.lt_of_le_of_lt hn (by decide)
  refine ⟨hiff, fun n hn he ↦ ?_, fun h ↦ ?_⟩
  · exact (hiff n).2 ⟨hn, he ▸ Binary64.natCast_mem_readAs n⟩
  · refine bit_of_none hk (fun n hn hnat ↦ h n hn ?_) what ts
    exact ((hiff n).1 (bit_of_some hk hn hnat what ts)).2

def beyondBits : Token :=
  ⟨.number, "4294967295.0000001", ⟨12, 30⟩⟩

theorem denotes_beyondBits :
    Numeral.Denotes beyondBits.text.toList (4294967295 + 1 / 10 ^ 7) := by
  have h := @Numeral.denotes_point "4294967295".toList "0000001".toList 4294967295 1 (by decide) rfl
    (by decide) rfl (by decide) (by decide)
  exact_mod_cast h

theorem bit_rounds_beyondBits :
    beyondBits.kind = .number ∧
    Numeral.Denotes beyondBits.text.toList (4294967295 + 1 / 10 ^ 7) ∧
    bit "start bit" [beyondBits] = .accepted ⟨4294967295, ⟨12, 30⟩⟩ [] := by
  have hlog : Nat.log2 4294967295 = 31 := by decide
  have hmem : (4294967295 + 1 / 10 ^ 7 : ℚ) ∈ Binary64.readAs 4294967295 := by
    rw [Binary64.mem_readAs_iff (by decide), hlog]
    norm_num
  exact ⟨rfl, denotes_beyondBits,
    ((bit_rounds rfl denotes_beyondBits "start bit" []).1 4294967295).2 ⟨by decide, hmem⟩⟩

def beyondOne : Token :=
  ⟨.number, "1.00000000000000000001", ⟨12, 34⟩⟩

theorem denotes_beyondOne : Numeral.Denotes beyondOne.text.toList (1 + 1 / 10 ^ 20) := by
  have h := @Numeral.denotes_point "1".toList "00000000000000000001".toList 1 1 (by decide) rfl
    (by decide) rfl (by decide) (by decide)
  exact_mod_cast h

/-- Just above one, and just above the greatest number of 32 bits: both are accepted. -/
theorem bit_overlooks :
    Numeral.Denotes beyondOne.text.toList (1 + 1 / 10 ^ 20) ∧
    (¬∃ n : Nat, (1 + 1 / 10 ^ 20 : ℚ) = n) ∧
    bit "start bit" [beyondOne] = .accepted ⟨1, ⟨12, 34⟩⟩ [] ∧
    Numeral.Denotes beyondBits.text.toList (4294967295 + 1 / 10 ^ 7) ∧
    (maxBit : ℚ) < 4294967295 + 1 / 10 ^ 7 ∧
    bit "start bit" [beyondBits] = .accepted ⟨4294967295, ⟨12, 30⟩⟩ [] := by
  refine ⟨denotes_beyondOne, ?_, bit_of_some rfl (by decide) (by decide +kernel) _ _,
    denotes_beyondBits, by norm_num [maxBit],
    bit_of_some rfl (by decide) (by decide +kernel) _ _⟩
  rintro ⟨n, hn⟩
  have hlow : (1 : ℚ) < n := by rw [← hn]; norm_num
  have hhigh : (n : ℚ) < 2 := by rw [← hn]; norm_num
  norm_cast at hlow hhigh
  omega

end Packet

end DiagramText
