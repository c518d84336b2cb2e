import DiagramText.Proofs.Alike
import Mathlib.Data.List.TakeWhile

namespace DiagramText

open Text (after? cut? isBlank isBreak startsWith)
open Pattern (isSpace)

namespace Text

variable {mark cs rest : List Char} {z : Char}

theorem cut?_append (hm : mark ≠ []) (h : z ∉ mark) (cs rest : List Char) :
    cut? mark (cs ++ z :: rest) =
      match cut? mark cs with
      | some (before, tail) => some (before, tail ++ z :: rest)
      | none => (cut? mark (z :: rest)).map fun (before, tail) ↦ (cs ++ before, tail) := by
  induction cs with
  | nil =>
    have hn : cut? mark [] = none := by
      cases mark with
      | nil => exact absurd rfl hm
      | cons m ms => rfl
    rw [hn]
    cases h : cut? mark (z :: rest) <;> simp [h]
  | cons c cs ih =>
    have ha := after?_append h (c :: cs) rest
    rw [List.cons_append] at ha ⊢
    rw [cut?, ha, cut?]
    cases after? mark (c :: cs) with
    | some tail => rfl
    | none =>
      simp only [Option.map_none, ih]
      cases cut? mark cs with
      | some p => rfl
      | none => cases cut? mark (z :: rest) <;> rfl

theorem takeWhile_append_cons {p : Char → Bool} (hz : p z = false) (cs rest : List Char) :
    (cs ++ z :: rest).takeWhile p = cs.takeWhile p := by
  rw [List.takeWhile_append, List.takeWhile_cons_of_neg (by simp [hz]), List.append_nil]
  split
  · rename_i h
    exact ((List.takeWhile_prefix p).eq_of_length h).symm
  · rfl

end Text

/-- Two ways for a text to go on: from a line end on as it was, or with something put in, before
which a blank may stand. None of what is put in ends what was left open. -/
structure Seam where
  old : List Char
  blank : List Char
  new : List Char
  old_head : ∃ b cs, old = b :: cs ∧ isBreak b = true
  old_blanks : Pattern.blanks old = some ([], old)
  new_blanks : Pattern.blanks new = some ([], new)
  put_in : (blank = [] ∧ ∃ b cs, new = b :: cs ∧ isBreak b = true ∧ old.head? = some b) ∨
    (blank = [' '] ∧ ∃ cs, new = '%' :: '%' :: ' ' :: cs)
  closing : ∀ mark ∈ [['*', '%', '%'], ['\x7d', '%', '%'], ['\x7d']],
    cut? mark old = none → cut? mark (blank ++ new) = none
  quotedRest_none : Pattern.quotedRest old = none → Pattern.quotedRest (blank ++ new) = none
  dropWhile_quote : ∃ b cs,
    (blank ++ new).dropWhile (fun c ↦ !(c = '"' || isBreak c)) = b :: cs ∧ isBreak b = true
  dropWhile_blank : ∀ c ∈ ((blank ++ new).dropWhile isBlank).head?, c ≠ '\x7b'

namespace Seam

variable {S : Seam}

def whole (S : Seam) : List Char :=
  S.blank ++ S.new

theorem whole_head (S : Seam) : ∃ z cs, S.whole = z :: cs ∧ (z = ' ' ∨ isBreak z = true) := by
  rcases S.put_in with ⟨hb, b, cs, hn, hbr, -⟩ | ⟨hb, cs, hn⟩
  · exact ⟨b, cs, by rw [whole, hb, hn, List.nil_append], .inr hbr⟩
  · exact ⟨' ', S.new, by rw [whole, hb, List.singleton_append], .inl rfl⟩

/-- Both texts go on with the same characters up to the seam. -/
def Ahead (S : Seam) (xs ys : List Char) : Prop :=
  ∃ cs, xs = cs ++ S.old ∧ ys = cs ++ S.whole

/-- The texts are at the seam, beyond the blank. -/
def AtGap (S : Seam) (xs ys : List Char) : Prop :=
  xs = S.old ∧ ys = S.new

def Meets (S : Seam) (xs ys : List Char) : Prop :=
  S.Ahead xs ys ∨ S.AtGap xs ys

def Before (S : Seam) (xs ys : List Char) : Prop :=
  ∃ cs, cs ≠ [] ∧ xs = cs ++ S.old ∧ ys = cs ++ S.whole

def Firm (S : Seam) (xs ys : List Char) : Prop :=
  S.Before xs ys ∨ S.AtGap xs ys

theorem Ahead.meets {xs ys : List Char} (h : S.Ahead xs ys) : S.Meets xs ys :=
  .inl h

theorem Before.ahead {xs ys : List Char} (h : S.Before xs ys) : S.Ahead xs ys := by
  obtain ⟨cs, -, hx, hy⟩ := h
  exact ⟨cs, hx, hy⟩

theorem Firm.meets {xs ys : List Char} (h : S.Firm xs ys) : S.Meets xs ys :=
  h.imp_left Before.ahead

theorem not_mem_old_head {mark : List Char} (hm : mark.any isBreak = false) :
    ∃ b cs, S.old = b :: cs ∧ b ∉ mark := by
  obtain ⟨b, cs, ho, hb⟩ := S.old_head
  exact ⟨b, cs, ho, fun h ↦ List.any_eq_false.1 hm b h hb⟩

theorem not_mem_whole_head {mark : List Char} (hm : mark.any isBreak = false)
    (hs : ' ' ∉ mark) : ∃ z cs, S.whole = z :: cs ∧ z ∉ mark := by
  obtain ⟨z, cs, hw, rfl | hz⟩ := S.whole_head
  · exact ⟨' ', cs, hw, hs⟩
  · exact ⟨z, cs, hw, fun h ↦ List.any_eq_false.1 hm z h hz⟩

end Seam

/-- The pattern fails on both of two related texts, or leaves related texts of both. -/
def Pattern.Carries (R R' : List Char → List Char → Prop) (p : Pattern) : Prop :=
  ∀ xs ys, R xs ys → (p xs = none ∧ p ys = none) ∨
    ∃ t u xs' ys', p xs = some (t, xs') ∧ p ys = some (u, ys') ∧ R' xs' ys'

namespace Pattern

variable {S : Seam} {R R' R'' Q : List Char → List Char → Prop} {p q : Pattern}

theorem Carries.mono (h : Carries R R' p) (hQ : ∀ xs ys, Q xs ys → R xs ys)
    (hR : ∀ xs ys, R' xs ys → R'' xs ys) : Carries Q R'' p := by
  intro xs ys hxy
  rcases h xs ys (hQ xs ys hxy) with hn | ⟨t, u, xs', ys', hx, hy, hr⟩
  · exact .inl hn
  · exact .inr ⟨t, u, xs', ys', hx, hy, hR xs' ys' hr⟩

theorem Carries.seq (hp : Carries R R' p) (hq : Carries R' R'' q) : Carries R R'' (p.seq q) := by
  intro xs ys hxy
  rcases hp xs ys hxy with ⟨hx, hy⟩ | ⟨t, u, xs', ys', hx, hy, hr⟩
  · exact .inl ⟨by simp [Pattern.seq, hx], by simp [Pattern.seq, hy]⟩
  · rcases hq xs' ys' hr with ⟨hx', hy'⟩ | ⟨t', u', xs'', ys'', hx', hy', hr'⟩
    · exact .inl ⟨by simp [Pattern.seq, hx, hx'], by simp [Pattern.seq, hy, hy']⟩
    · exact .inr ⟨t ++ t', u ++ u', xs'', ys'', by simp [Pattern.seq, hx, hx'],
        by simp [Pattern.seq, hy, hy'], hr'⟩

theorem Carries.alt (hp : Carries R R' p) (hq : Carries R R' q) : Carries R R' (p.alt q) := by
  intro xs ys hxy
  unfold Pattern.alt
  rcases hp xs ys hxy with ⟨hx, hy⟩ | ⟨t, u, xs', ys', hx, hy, hr⟩
  · rw [hx, hy]
    exact hq xs ys hxy
  · rw [hx, hy]
    exact .inr ⟨t, u, xs', ys', rfl, rfl, hr⟩

theorem Carries.optional (hp : Carries R R p) : Carries R R p.optional := by
  intro xs ys hxy
  unfold Pattern.optional
  rcases hp xs ys hxy with ⟨hx, hy⟩ | ⟨t, u, xs', ys', hx, hy, hr⟩
  · rw [hx, hy]
    exact .inr ⟨[], [], xs, ys, rfl, rfl, hxy⟩
  · rw [hx, hy]
    exact .inr ⟨t, u, xs', ys', rfl, rfl, hr⟩

theorem Carries.whenRest {ok : List Char → Bool} (hp : Carries R R' p)
    (ho : ∀ xs ys, R' xs ys → ok xs = ok ys) : Carries R R' (p.whenRest ok) := by
  intro xs ys hxy
  unfold Pattern.whenRest
  rcases hp xs ys hxy with ⟨hx, hy⟩ | ⟨t, u, xs', ys', hx, hy, hr⟩
  · exact .inl ⟨by simp [hx], by simp [hy]⟩
  · have hok := ho xs' ys' hr
    cases hy' : ok ys' with
    | true => exact .inr ⟨t, u, xs', ys', by simp [hx, hok, hy'], by simp [hy, hy'], hr⟩
    | false => exact .inl ⟨by simp [hx, hok, hy'], by simp [hy, hy']⟩

theorem carries_literal_ahead {mark : List Char} (hb : mark.any isBreak = false)
    (hs : ' ' ∉ mark) : Carries S.Ahead S.Ahead (literal mark) := by
  obtain ⟨b, bs, ho, hb'⟩ := @Seam.not_mem_old_head S mark hb
  obtain ⟨z, zs, hw, hz⟩ := @Seam.not_mem_whole_head S mark hb hs
  rintro xs ys ⟨cs, rfl, rfl⟩
  rw [ho, hw, literal, literal, Text.after?_append hb', Text.after?_append hz]
  cases after? mark cs with
  | none => exact .inl ⟨rfl, rfl⟩
  | some rest => exact .inr ⟨_, _, _, _, rfl, rfl, rest, by rw [ho], by rw [hw]⟩

theorem carries_literal {mark : List Char} (hn : mark ≠ []) (hb : mark.any isBreak = false)
    (hs : ' ' ∉ mark) (hp : '%' ∉ mark) : Carries S.Meets S.Ahead (literal mark) := by
  rintro xs ys (h | ⟨rfl, rfl⟩)
  · exact carries_literal_ahead hb hs xs ys h
  · obtain ⟨m, ms, rfl⟩ := List.exists_cons_of_ne_nil hn
    have hp : m ≠ '%' := fun h ↦ hp (h ▸ List.mem_cons_self)
    have hne {c : Char} (hc : isBreak c = true) : m ≠ c :=
      fun h ↦ List.any_eq_false.1 hb m List.mem_cons_self (h ▸ hc)
    refine .inl ⟨?_, ?_⟩
    · obtain ⟨b, bs, ho, hb⟩ := S.old_head
      simp [literal, ho, after?, hne hb]
    · rcases S.put_in with ⟨-, b', cs, hnew, hb', -⟩ | ⟨-, cs, hnew⟩
      · simp [literal, hnew, after?, hne hb']
      · simp [literal, hnew, after?, hp]

theorem carries_many {c : Char → Bool} (hs : c ' ' = false) (hb : ∀ b, isBreak b = true → c b = false) :
    Carries S.Ahead S.Ahead (many c) := by
  obtain ⟨b, bs, ho, hbr⟩ := S.old_head
  obtain ⟨z, zs, hw, hz⟩ := S.whole_head
  have hz : c z = false := by
    rcases hz with rfl | hz
    · exact hs
    · exact hb z hz
  rintro xs ys ⟨cs, rfl, rfl⟩
  refine .inr ⟨_, _, _, _, rfl, rfl, cs.dropWhile c, ?_, ?_⟩
  · rw [ho, Text.dropWhile_append_cons (hb b hbr)]
  · rw [hw, Text.dropWhile_append_cons hz]

theorem carries_many1 {c : Char → Bool} (hs : c ' ' = false)
    (hb : ∀ b, isBreak b = true → c b = false) : Carries S.Ahead S.Ahead (many1 c) := by
  obtain ⟨b, bs, ho, hbr⟩ := S.old_head
  obtain ⟨z, zs, hw, hz⟩ := S.whole_head
  have hz : c z = false := by
    rcases hz with rfl | hz
    · exact hs
    · exact hb z hz
  rintro xs ys ⟨cs, rfl, rfl⟩
  simp only [many1, ho, hw, Text.takeWhile_append_cons (hb b hbr), Text.takeWhile_append_cons hz,
    Text.dropWhile_append_cons (hb b hbr), Text.dropWhile_append_cons hz]
  split
  · exact .inl ⟨rfl, rfl⟩
  · exact .inr ⟨_, _, _, _, rfl, rfl, cs.dropWhile c, by rw [ho], by rw [hw]⟩

theorem carries_one {c : Char → Bool} (hs : c ' ' = false)
    (hb : ∀ b, isBreak b = true → c b = false) : Carries S.Ahead S.Ahead (one c) := by
  obtain ⟨b, bs, ho, hbr⟩ := S.old_head
  obtain ⟨z, zs, hw, hz⟩ := S.whole_head
  have hz : c z = false := by
    rcases hz with rfl | hz
    · exact hs
    · exact hb z hz
  rintro xs ys ⟨cs, rfl, rfl⟩
  cases cs with
  | nil => exact .inl ⟨by simp [one, ho, hb b hbr], by simp [one, hw, hz]⟩
  | cons a cs =>
    cases ha : c a with
    | true => exact .inr ⟨[a], [a], _, _, by simp [one, ha], by simp [one, ha], cs, rfl, rfl⟩
    | false => exact .inl ⟨by simp [one, ha], by simp [one, ha]⟩

theorem isSpace_of_isBreak {c : Char} (h : isBreak c = true) : isSpace c = false := by
  simp only [isBreak, Bool.or_eq_true, decide_eq_true_eq] at h
  rcases h with rfl | rfl <;> decide

theorem dropWhile_isSpace_whole (S : Seam) : S.whole.dropWhile isSpace = S.new := by
  rw [Seam.whole]
  rcases S.put_in with ⟨hb, b, cs, hn, hbr, -⟩ | ⟨hb, cs, hn⟩
  · rw [hb, hn, List.nil_append, List.dropWhile_cons_of_neg (by simp [isSpace_of_isBreak hbr])]
  · rw [hb, hn]
    rfl

theorem dropWhile_isSpace_old (S : Seam) : S.old.dropWhile isSpace = S.old := by
  obtain ⟨b, bs, ho, hbr⟩ := S.old_head
  rw [ho, List.dropWhile_cons_of_neg (by simp [isSpace_of_isBreak hbr])]

theorem dropWhile_isSpace_firm (cs : List Char) :
    S.Firm ((cs ++ S.old).dropWhile isSpace) ((cs ++ S.whole).dropWhile isSpace) := by
  rw [List.dropWhile_append, List.dropWhile_append, dropWhile_isSpace_whole, dropWhile_isSpace_old]
  split
  · exact .inr ⟨rfl, rfl⟩
  · rename_i h
    exact .inl ⟨_, fun he ↦ h (by rw [he]; rfl), rfl, rfl⟩

theorem carries_many_isSpace : Carries S.Ahead S.Firm (many isSpace) := by
  rintro xs ys ⟨cs, rfl, rfl⟩
  exact .inr ⟨_, _, _, _, rfl, rfl, dropWhile_isSpace_firm cs⟩

theorem freeText_gap (S : Seam) (stops : List Char) :
    freeText stops S.old = some ([], S.old) ∧ freeText stops S.new = some ([], S.new) := by
  obtain ⟨b, bs, ho, hbr⟩ := S.old_head
  refine ⟨by simp [ho, freeText, hbr], ?_⟩
  rcases S.put_in with ⟨-, b', cs, hn, hbr', -⟩ | ⟨-, cs, hn⟩
  · simp [hn, freeText, hbr']
  · simp [hn, freeText, startsWith, commentMark, after?]

theorem startsWith_commentMark (S : Seam) (cs : List Char) :
    startsWith commentMark (cs ++ S.old) = startsWith commentMark cs ∧
    startsWith commentMark (cs ++ S.whole) = startsWith commentMark cs := by
  obtain ⟨b, bs, ho, hb⟩ := @Seam.not_mem_old_head S commentMark (by decide)
  obtain ⟨z, zs, hw, hz⟩ := @Seam.not_mem_whole_head S commentMark (by decide) (by decide)
  rw [ho, hw]
  exact ⟨Text.startsWith_append hb cs bs, Text.startsWith_append hz cs zs⟩

theorem carries_freeText {stops : List Char} (hs : ' ' ∉ stops) :
    Carries S.Meets S.Meets (freeText stops) := by
  obtain ⟨hold, hnew⟩ := freeText_gap S stops
  rintro xs ys (⟨cs, rfl, rfl⟩ | ⟨rfl, rfl⟩)
  · induction cs with
    | nil =>
      rcases S.put_in with ⟨hb, -⟩ | ⟨hb, -⟩
      · refine .inr ⟨_, [], _, S.new, hold, ?_, .inr ⟨rfl, rfl⟩⟩
        rw [List.nil_append, Seam.whole, hb, List.nil_append]
        exact hnew
      · -- The blank before the comment is free text too, and the text stops right after it.
        refine .inr ⟨_, [' '], _, S.new, hold, ?_, .inr ⟨rfl, rfl⟩⟩
        rw [List.nil_append, Seam.whole, hb, List.singleton_append, freeText, hnew]
        simp [isBreak, startsWith, commentMark, after?, hs]
    | cons c cs ih =>
      obtain ⟨ho, hw⟩ := startsWith_commentMark S (c :: cs)
      rw [List.cons_append] at ho hw
      simp only [List.cons_append, freeText, ho, hw]
      split
      · exact .inr ⟨[], [], _, _, rfl, rfl, .inl ⟨c :: cs, rfl, rfl⟩⟩
      · rcases ih with ⟨hx, hy⟩ | ⟨t, u, xs', ys', hx, hy, hr⟩
        · exact .inl ⟨by rw [hx]; rfl, by rw [hy]; rfl⟩
        · exact .inr ⟨c :: t, c :: u, xs', ys', by rw [hx]; rfl, by rw [hy]; rfl, hr⟩
  · exact .inr ⟨_, _, _, _, hold, hnew, .inr ⟨rfl, rfl⟩⟩

theorem carries_freeText_nonempty {stops : List Char} (hs : ' ' ∉ stops) :
    Carries S.Firm S.Meets (freeText stops).nonempty := by
  rintro xs ys (⟨cs, hn, rfl, rfl⟩ | ⟨rfl, rfl⟩)
  · obtain ⟨c, cs, rfl⟩ := List.exists_cons_of_ne_nil hn
    obtain ⟨ho, hw⟩ := startsWith_commentMark S (c :: cs)
    rw [List.cons_append] at ho hw
    simp only [nonempty, List.cons_append, freeText, ho, hw]
    split
    · exact .inl ⟨rfl, rfl⟩
    · rcases @carries_freeText S stops hs _ _ (.inl ⟨cs, rfl, rfl⟩) with
        ⟨hx, hy⟩ | ⟨t, u, xs', ys', hx, hy, hr⟩
      · exact .inl ⟨by rw [hx]; rfl, by rw [hy]; rfl⟩
      · exact .inr ⟨c :: t, c :: u, xs', ys', by rw [hx]; rfl, by rw [hy]; rfl, hr⟩
  · obtain ⟨hold, hnew⟩ := freeText_gap S stops
    exact .inl ⟨by rw [nonempty, hold]; rfl, by rw [nonempty, hnew]; rfl⟩

/-- Where blanks must come first, a blank at the seam is of no use without text after it. -/
theorem carries_spaced_freeText {stops : List Char} (hs : ' ' ∉ stops) :
    Carries S.Ahead S.Meets ((many1 isSpace).seq (freeText stops).nonempty) := by
  obtain ⟨b, bs, ho, hbr⟩ := S.old_head
  have hold : S.old.takeWhile isSpace = [] := by
    rw [ho, List.takeWhile_cons_of_neg (by simp [isSpace_of_isBreak hbr])]
  rintro xs ys ⟨cs, rfl, rfl⟩
  have hrest := carries_freeText_nonempty hs _ _ (@dropWhile_isSpace_firm S cs)
  cases cs with
  | nil =>
    refine .inl ⟨by simp [seq, many1, hold], ?_⟩
    rcases hrest with ⟨-, hy⟩ | ⟨t, u, xs', ys', hx, -, -⟩
    · rw [List.nil_append] at hy ⊢
      unfold seq many1
      split
      · rfl
      · simp [hy]
    · rw [List.nil_append, dropWhile_isSpace_old, nonempty, (freeText_gap S stops).1] at hx
      cases hx
  | cons c cs =>
    cases hc : isSpace c with
    | false => exact .inl ⟨by simp [seq, many1, hc], by simp [seq, many1, hc]⟩
    | true =>
      rw [List.cons_append, List.cons_append, List.dropWhile_cons_of_pos hc,
        List.dropWhile_cons_of_pos hc] at hrest
      rcases hrest with ⟨hx, hy⟩ | ⟨t, u, xs', ys', hx, hy, hr⟩
      · exact .inl ⟨by simp [seq, many1, hc, hx], by simp [seq, many1, hc, hy]⟩
      · exact .inr ⟨_, _, xs', ys', by simp [seq, many1, hc, hx]; rfl,
          by simp [seq, many1, hc, hy]; rfl, hr⟩

end Pattern

def Pattern.Loses (R : List Char → List Char → Prop) (p : Pattern) : Prop :=
  ∀ xs ys, R xs ys → p xs = none → p ys = none

/-- What the pattern takes before the seam, it takes of both of two related texts. -/
def Seam.Finds (S : Seam) (R R' : List Char → List Char → Prop) (p : Pattern) : Prop :=
  ∀ xs ys t rest, R xs ys → p xs = some (t, rest ++ S.old) →
    ∃ u ys', p ys = some (u, ys') ∧ R' (rest ++ S.old) ys'

namespace Pattern

variable {S : Seam} {R R' R'' Q : List Char → List Char → Prop} {p q : Pattern}

theorem Carries.finds (hp : Carries R R' p) : S.Finds R R' p := by
  intro xs ys t rest hxy h
  rcases hp xs ys hxy with ⟨hx, -⟩ | ⟨t', u, xs', ys', hx, hy, hr⟩
  · rw [h] at hx
    cases hx
  · obtain ⟨rfl, rfl⟩ := Prod.mk.inj (Option.some.inj (h.symm.trans hx))
    exact ⟨u, ys', hy, hr⟩

theorem Carries.loses (hp : Carries R R' p) : Loses R p := by
  intro xs ys hxy h
  rcases hp xs ys hxy with ⟨-, hy⟩ | ⟨t', u, xs', ys', hx, -, -⟩
  · exact hy
  · rw [h] at hx
    cases hx

theorem Loses.mono (h : Loses R p) (hQ : ∀ xs ys, Q xs ys → R xs ys) : Loses Q p :=
  fun xs ys hxy ↦ h xs ys (hQ xs ys hxy)

theorem Carries.before (h : Carries S.Ahead R p) : Carries S.Before R p :=
  h.mono (fun _ _ ↦ Seam.Before.ahead) fun _ _ ↦ id

theorem Loses.before (h : Loses S.Ahead p) : Loses S.Before p :=
  h.mono fun _ _ ↦ Seam.Before.ahead

theorem Loses.seq (hp : Carries R R' p) (hq : Loses R' q) : Loses R (p.seq q) := by
  intro xs ys hxy h
  rcases hp xs ys hxy with ⟨-, hy⟩ | ⟨t, u, xs', ys', hx, hy, hr⟩
  · simp [Pattern.seq, hy]
  · have hx' : q xs' = none := by simpa [Pattern.seq, hx] using h
    simp [Pattern.seq, hy, hq xs' ys' hr hx']

end Pattern

namespace Seam

variable {S : Seam} {R R' R'' Q : List Char → List Char → Prop} {p q : Pattern}

theorem Finds.mono (h : S.Finds R R' p) (hQ : ∀ xs ys, Q xs ys → R xs ys)
    (hR : ∀ xs ys, R' xs ys → R'' xs ys) : S.Finds Q R'' p := by
  intro xs ys t rest hxy hx
  obtain ⟨u, ys', hy, hr⟩ := h xs ys t rest (hQ xs ys hxy) hx
  exact ⟨u, ys', hy, hR _ _ hr⟩

theorem Finds.before (h : S.Finds S.Ahead R p) : S.Finds S.Before R p :=
  h.mono (fun _ _ ↦ Before.ahead) fun _ _ ↦ id

theorem Finds.seq (hs : q.Splits) (hp : S.Finds R R' p) (hq : S.Finds R' R'' q) :
    S.Finds R R'' (p.seq q) := by
  intro xs ys t rest hxy h
  obtain ⟨a, mid, b, ha, hb, rfl⟩ := Pattern.seq_eq_some_iff.1 h
  obtain rfl := hs _ _ _ hb
  rw [← List.append_assoc] at ha hb
  obtain ⟨u, ys', hy, hr⟩ := hp xs ys a (b ++ rest) hxy ha
  obtain ⟨u', ys'', hy', hr'⟩ := hq _ _ b rest hr hb
  exact ⟨u ++ u', ys'', Pattern.seq_eq_some_iff.2 ⟨u, ys', u', hy, hy', rfl⟩, hr'⟩

/-- No carriage return before the seam belongs to a line feed after it. -/
def Clear (S : Seam) (cs : List Char) : Prop :=
  cs.getLast? = some '\r' → S.old.head? ≠ some '\n'

theorem Clear.tail {c : Char} {cs : List Char} (h : S.Clear (c :: cs)) (hn : cs ≠ []) :
    S.Clear cs := by
  obtain ⟨d, ds, rfl⟩ := List.exists_cons_of_ne_nil hn
  exact fun hl ↦ h (by rw [List.getLast?_cons_cons]; exact hl)

theorem Clear.whole_head {cs : List Char} (h : S.Clear cs) (hl : cs.getLast? = some '\r') :
    S.whole.head? ≠ some '\n' := by
  rcases S.put_in with ⟨hb, b, bs, hn, -, ho⟩ | ⟨hb, -⟩
  · rw [whole, hb, hn, List.nil_append]
    have := h hl
    rw [ho] at this
    simpa using this
  · simp [whole, hb]

end Seam

namespace Pattern

variable {S : Seam} {cs : List Char}

theorem blanks_whole (S : Seam) : ∃ t, blanks S.whole = some (t, S.new) := by
  have hn := S.new_blanks
  rcases S.put_in with ⟨hb, -⟩ | ⟨hb, -⟩
  · exact ⟨[], by rw [Seam.whole, hb, List.nil_append, hn]⟩
  · exact ⟨[' '], by rw [Seam.whole, hb, List.singleton_append, blanks, hn]; rfl⟩

theorem blanks_meets (hc : S.Clear cs) : ∃ t u xs ys, blanks (cs ++ S.old) = some (t, xs) ∧
    blanks (cs ++ S.whole) = some (u, ys) ∧ S.Meets xs ys := by
  induction cs with
  | nil =>
    obtain ⟨u, hu⟩ := blanks_whole S
    exact ⟨[], u, S.old, S.new, S.old_blanks, hu, .inr ⟨rfl, rfl⟩⟩
  | cons c cs ih =>
    have hhead (rest : List Char) : cs ≠ [] → (cs ++ rest).head? = cs.head? := by
      intro hn
      obtain ⟨d, ds, rfl⟩ := List.exists_cons_of_ne_nil hn
      rfl
    have hcond : (isSpace c || c = '\r' && (cs ++ S.old).head? ≠ some '\n') =
        (isSpace c || c = '\r' && (cs ++ S.whole).head? ≠ some '\n') := by
      by_cases hn : cs = []
      · subst hn
        by_cases hr : c = '\r'
        · have hl : [c].getLast? = some '\r' := by rw [hr]; rfl
          have ho := hc hl
          have hw := hc.whole_head hl
          simp [ho, hw]
        · simp [hr]
      · rw [hhead _ hn, hhead _ hn]
    rw [List.cons_append, List.cons_append, blanks, blanks, hcond]
    split
    · obtain ⟨t, u, xs, ys, hx, hy, hm⟩ : ∃ t u xs ys, blanks (cs ++ S.old) = some (t, xs) ∧
          blanks (cs ++ S.whole) = some (u, ys) ∧ S.Meets xs ys := by
        by_cases hn : cs = []
        · subst hn
          exact ih nofun
        · exact ih (hc.tail hn)
      exact ⟨c :: t, c :: u, xs, ys, by rw [hx]; rfl, by rw [hy]; rfl, hm⟩
    · exact ⟨[], [], _, _, rfl, rfl, .inl ⟨c :: cs, rfl, rfl⟩⟩

end Pattern

namespace Seam

variable {S : Seam} {kind : Token.Kind} {p q : Pattern}

/-- The two matches end at the same place before the seam, or at the gap. -/
def Follows (S : Seam) (kind : Token.Kind) (m m' : List Char × List Char) : Prop :=
  (m'.1 = m.1 ∧ S.Ahead m.2 m'.2) ∨
    (Token.Pads kind m.1 ∧ m'.1 = m.1 ++ S.blank ∧ S.AtGap m.2 m'.2)

def Keeps (S : Seam) (kind : Token.Kind) (p : Pattern) : Prop :=
  ∀ cs t rest, cs ≠ [] → S.Clear cs → p (cs ++ S.old) = some (t, rest ++ S.old) →
    ∃ m, p (cs ++ S.whole) = some m ∧ S.Follows kind (t, rest ++ S.old) m

def Misses (S : Seam) (p : Pattern) : Prop :=
  ∀ cs, cs ≠ [] → S.Clear cs → p (cs ++ S.old) = none → p (cs ++ S.whole) = none

theorem Keeps.alt (hp : S.Keeps kind p) (hn : S.Misses p) (hq : S.Keeps kind q) :
    S.Keeps kind (p.alt q) := by
  intro cs t rest hcs hc h
  unfold Pattern.alt at h ⊢
  cases hpo : p (cs ++ S.old) with
  | none =>
    rw [hpo] at h
    rw [hn cs hcs hc hpo]
    exact hq cs t rest hcs hc h
  | some m =>
    rw [hpo] at h
    obtain ⟨m', hm', hf⟩ := hp cs t rest hcs hc (hpo.trans h)
    rw [hm']
    exact ⟨m', rfl, hf⟩

theorem Misses.alt (hp : S.Misses p) (hq : S.Misses q) : S.Misses (p.alt q) := by
  intro cs hcs hc h
  unfold Pattern.alt at h ⊢
  cases hpo : p (cs ++ S.old) with
  | none =>
    rw [hpo] at h
    rw [hp cs hcs hc hpo]
    exact hq cs hcs hc h
  | some m =>
    rw [hpo] at h
    cases h

theorem Ahead.taken {cs t u xs ys : List Char} (h : S.Ahead xs ys) (hx : cs ++ S.old = t ++ xs)
    (hy : cs ++ S.whole = u ++ ys) : u = t := by
  obtain ⟨rest, rfl, rfl⟩ := h
  rw [← List.append_assoc] at hx hy
  exact List.append_cancel_right
    ((List.append_cancel_right hy).symm.trans (List.append_cancel_right hx))

theorem Meets.taken {cs t u xs ys : List Char} (h : S.Meets xs ys) (hx : cs ++ S.old = t ++ xs)
    (hy : cs ++ S.whole = u ++ ys) :
    (u = t ∧ S.Ahead xs ys) ∨ (t = cs ∧ u = t ++ S.blank ∧ S.AtGap xs ys) := by
  rcases h with h | ⟨rfl, rfl⟩
  · exact .inl ⟨h.taken hx hy, h⟩
  · obtain rfl := List.append_cancel_right hx
    rw [whole, ← List.append_assoc] at hy
    exact .inr ⟨rfl, (List.append_cancel_right hy).symm, rfl, rfl⟩

theorem keeps_of_finds (hs : p.Splits) (hp : S.Finds S.Before S.Meets p)
    (hk : ∀ cs t rest, p cs = some (t, rest) → Token.Pads kind t) : S.Keeps kind p := by
  intro cs t rest hcs _ h
  obtain ⟨u, ys, hy, hm⟩ := hp _ _ t rest ⟨cs, hcs, rfl, rfl⟩ h
  refine ⟨(u, ys), hy, ?_⟩
  rcases hm.taken (hs _ _ _ h) (hs _ _ _ hy) with ha | ⟨-, hu, hg⟩
  · exact .inl ha
  · exact .inr ⟨hk _ _ _ h, hu, hg⟩

theorem keeps_of_finds_ahead (hs : p.Splits) (hp : S.Finds S.Before S.Ahead p) :
    S.Keeps kind p := by
  intro cs t rest hcs _ h
  obtain ⟨u, ys, hy, hm⟩ := hp _ _ t rest ⟨cs, hcs, rfl, rfl⟩ h
  exact ⟨(u, ys), hy, .inl ⟨hm.taken (hs _ _ _ h) (hs _ _ _ hy), hm⟩⟩

theorem misses_of_loses (hp : p.Loses S.Before) : S.Misses p :=
  fun cs hcs _ h ↦ hp _ _ ⟨cs, hcs, rfl, rfl⟩ h

theorem Follows.ne_nil {m m' : List Char × List Char} (h : S.Follows kind m m') (hm : m.1 ≠ []) :
    m'.1 ≠ [] := by
  rcases h with ⟨he, -⟩ | ⟨-, he, -⟩
  · rwa [he]
  · rw [he]
    exact List.append_ne_nil_of_left_ne_nil hm _

theorem Keeps.nonempty (hp : S.Keeps kind p) : S.Keeps kind p.nonempty := by
  intro cs t rest hcs hc h
  obtain ⟨h, ht⟩ := Option.filter_eq_some_iff.1 h
  obtain ⟨m, hm, hf⟩ := hp cs t rest hcs hc h
  refine ⟨m, Option.filter_eq_some_iff.2 ⟨hm, ?_⟩, hf⟩
  have hne : m.1 ≠ [] := hf.ne_nil (by simpa using ht)
  simpa using hne

theorem Misses.nonempty (hs : p.Splits) (hp : S.Keeps kind p) (hn : S.Misses p) :
    S.Misses p.nonempty := by
  intro cs hcs hc h
  cases hpo : p (cs ++ S.old) with
  | none => simp [Pattern.nonempty, hn cs hcs hc hpo]
  | some m =>
    obtain ⟨t, r⟩ := m
    have ht : t = [] := by simpa [Pattern.nonempty, hpo, Option.filter_some] using h
    subst ht
    obtain rfl : r = cs ++ S.old := (hs _ _ _ hpo).symm
    obtain ⟨m', hm', hf⟩ := hp cs [] cs hcs hc hpo
    rcases hf with ⟨he, -⟩ | ⟨-, -, hg, -⟩
    · have he : m'.1 = [] := he
      simp [Pattern.nonempty, hm', Option.filter_some, he]
    · exact absurd (List.append_left_eq_self.1 hg) hcs

end Seam

end DiagramText
