import DiagramText.Proofs.Written
import Mathlib.Data.List.Nodup

namespace DiagramText

open Lexicon (longestFirst)
open Pattern (isSpace isWordChar)
open Text (isBreak)

variable {cs : List Char} {m : Match}

theorem eq_some_iff_of_unique {α : Type} {answer : Option α} {P : α → Prop} {a : α}
    (hsound : ∀ a, answer = some a → P a) (hsome : ∀ a, P a → answer.isSome = true)
    (hunique : ∀ a b, P a → P b → a = b) : answer = some a ↔ P a := by
  refine ⟨hsound a, fun ha ↦ ?_⟩
  obtain ⟨b, hb⟩ := Option.isSome_iff_exists.1 (hsome a ha)
  rw [hunique a b ha (hsound b hb)]
  exact hb

theorem Pattern.keyword_eq_some_iff {word taken rest : List Char} :
    keyword word cs = some (taken, rest) ↔ taken = word ∧ cs = word ++ rest ∧
      ∀ c ∈ rest.head?, (isWordChar c || c = '-') = false := by
  rw [keyword, whenRest, Option.filter_eq_some_iff, literal_eq_some_iff, and_assoc]
  cases rest <;> simp

namespace Keyword

variable {j k : Keyword}

def all : List Keyword :=
  [info, showInfo, pie, showData, packetBeta, packet, sankeyBeta, sankey, timeline, .section,
    architectureBeta, architecture, group, service, junction, .in]

theorem mem_all (k : Keyword) : k ∈ all := by
  cases k <;> decide

theorem text_injective : Function.Injective text := by
  have hnodup : (all.map text).Nodup := by decide
  intro j k h
  exact List.inj_on_of_nodup_map hnodup j.mem_all k.mem_all h

/-- Every character of a keyword would go on with another keyword. -/
theorem goesOn_of_mem (k : Keyword) :
    ∀ c ∈ k.text.toList, (isWordChar c || c = '-') = true := by
  have hall : (k.text.toList.all fun c ↦ isWordChar c || c = '-') = true := by
    cases k <;> decide
  exact List.all_eq_true.1 hall

theorem exists_letter (k : Keyword) : ∃ d ds, k.text.toList = d :: ds ∧ d.isAlpha = true := by
  cases k <;> exact ⟨_, _, rfl, by decide⟩

theorem eq_of_begins {taken rest : List Char}
    (hj : Pattern.keyword j.text.toList cs = some (taken, rest)) (hk : k.text.toList <+: cs)
    (h : j.text.toList <+: k.text.toList) : j = k := by
  obtain ⟨more, hmore⟩ := h
  obtain ⟨behind, rfl⟩ := hk
  obtain ⟨-, hrest, hover⟩ := Pattern.keyword_eq_some_iff.1 hj
  cases more with
  | nil =>
    rw [List.append_nil] at hmore
    exact text_injective (String.toList_inj.1 hmore)
  | cons c more =>
    rw [← hmore, List.append_assoc, List.append_cancel_left_eq] at hrest
    have hc : (isWordChar c || c = '-') = true := by
      apply k.goesOn_of_mem
      rw [← hmore]
      exact List.mem_append_right _ List.mem_cons_self
    have hstops : (isWordChar c || c = '-') = false := by
      apply hover
      rw [← hrest]
      rfl
    rw [hstops] at hc
    cases hc

theorem eq_of_match? {m' : Match} (hj : (Shape.keyword j).match? cs = some m)
    (hk : (Shape.keyword k).match? cs = some m') : j = k := by
  obtain ⟨-, hj, -⟩ := Shape.match?_eq_some_iff.1 hj
  obtain ⟨-, hk, -⟩ := Shape.match?_eq_some_iff.1 hk
  have hjcs : j.text.toList <+: cs := ⟨_, (Pattern.keyword_eq_some_iff.1 hj).2.1.symm⟩
  have hkcs : k.text.toList <+: cs := ⟨_, (Pattern.keyword_eq_some_iff.1 hk).2.1.symm⟩
  rcases List.prefix_or_prefix_of_prefix hjcs hkcs with h | h
  · exact eq_of_begins hj hkcs h
  · exact (eq_of_begins hk hjcs h).symm

theorem first?_eq_some_iff {ks : List Keyword} :
    Shape.first? (ks.map Shape.keyword) cs = some m ↔
      ∃ k ∈ ks, (Shape.keyword k).match? cs = some m := by
  rw [Shape.first?, List.findSome?_map]
  refine eq_some_iff_of_unique (fun m h ↦ List.exists_of_findSome?_eq_some h) ?_ ?_
  · rintro m ⟨k, hk, hm⟩
    rw [List.findSome?_isSome_iff]
    exact ⟨k, hk, Option.isSome_iff_exists.2 ⟨m, hm⟩⟩
  · rintro m m' ⟨j, -, hj⟩ ⟨k, -, hk⟩
    obtain rfl := eq_of_match? hj hk
    exact Option.some.inj (hj.symm.trans hk)

theorem first?_congr {ks ks' : List Keyword} (h : ∀ k, k ∈ ks' ↔ k ∈ ks) :
    Shape.first? (ks'.map Shape.keyword) cs = Shape.first? (ks.map Shape.keyword) cs := by
  ext m
  simp only [first?_eq_some_iff, h]

end Keyword

namespace Symbol

variable {s t : Symbol} {ss ss' : List Symbol}

def all : List Symbol :=
  [colon, comma, minus, doubleMinus, plus, leftAngle, rightAngle, groupModifier]

theorem mem_all (s : Symbol) : s ∈ all := by
  cases s <;> decide

theorem text_injective : Function.Injective text := by
  have hnodup : (all.map text).Nodup := by decide
  intro s t h
  exact List.inj_on_of_nodup_map hnodup s.mem_all t.mem_all h

theorem utf8ByteSize_text (s : Symbol) : s.text.utf8ByteSize = s.text.toList.length := by
  cases s <;> rfl

theorem exists_mark (s : Symbol) : ∃ d ds, s.text.toList = d :: ds ∧ isSpace d = false ∧
    isBreak d = false ∧ d ≠ '%' ∧ d.isAlpha = false := by
  cases s <;> exact ⟨_, _, rfl, by decide⟩

/-- The symbol is one of the list and stands at the beginning of the text, where no longer one of
the list does. -/
structure IsLongestAt (s : Symbol) (ss : List Symbol) (cs : List Char) : Prop where
  mem : s ∈ ss
  stands : s.text.toList <+: cs
  longest : ∀ t ∈ ss, t.text.toList <+: cs → t.text.toList.length ≤ s.text.toList.length

theorem IsLongestAt.unique (hs : s.IsLongestAt ss cs) (ht : t.IsLongestAt ss cs) : s = t := by
  have hlength : s.text.toList.length = t.text.toList.length :=
    Nat.le_antisymm (ht.longest s hs.mem hs.stands) (hs.longest t ht.mem ht.stands)
  have hbegins : s.text.toList <+: t.text.toList :=
    List.prefix_of_prefix_length_le hs.stands ht.stands (Nat.le_of_eq hlength)
  exact text_injective (String.toList_inj.1 (hbegins.eq_of_length hlength))

theorem isLongestAt_congr (h : ∀ t, t ∈ ss' ↔ t ∈ ss) :
    s.IsLongestAt ss' cs ↔ s.IsLongestAt ss cs := by
  constructor
  · intro hs
    exact ⟨(h s).1 hs.mem, hs.stands, fun t ht ↦ hs.longest t ((h t).2 ht)⟩
  · intro hs
    exact ⟨(h s).2 hs.mem, hs.stands, fun t ht ↦ hs.longest t ((h t).1 ht)⟩

theorem match?_eq_some_iff : (Shape.symbol s).match? cs = some m ↔
    m.kind = .symbol s ∧ m.text = s.text.toList ∧ cs = s.text.toList ++ m.rest := by
  have hn : s.text.toList ≠ [] := by cases s <;> decide
  rw [Shape.match?_eq_some_iff, Shape.symbol, Pattern.literal_eq_some_iff]
  constructor
  · rintro ⟨hk, ⟨ht, hcs⟩, -⟩
    exact ⟨hk.symm, ht, hcs⟩
  · rintro ⟨hk, ht, hcs⟩
    exact ⟨hk.symm, ⟨ht, hcs⟩, ht ▸ hn⟩

theorem isSome_match? : ((Shape.symbol s).match? cs).isSome = true ↔ s.text.toList <+: cs := by
  rw [Option.isSome_iff_exists]
  constructor
  · rintro ⟨m, hm⟩
    exact ⟨m.rest, (match?_eq_some_iff.1 hm).2.2.symm⟩
  · rintro ⟨rest, hrest⟩
    exact ⟨⟨.symbol s, s.text.toList, rest⟩, match?_eq_some_iff.2 ⟨rfl, rfl, hrest.symm⟩⟩

theorem pairwise_longestFirst (ss : List Symbol) :
    (longestFirst ss).Pairwise fun s t ↦ t.text.toList.length ≤ s.text.toList.length := by
  have hsorted := @List.pairwise_mergeSort Symbol
    (fun a b ↦ decide (b.text.utf8ByteSize ≤ a.text.utf8ByteSize))
    (fun a b c hab hbc ↦ by simp only [decide_eq_true_eq] at *; omega)
    (fun a b ↦ by simp only [Bool.or_eq_true, decide_eq_true_eq]; omega) ss
  refine hsorted.imp fun {s t} h ↦ ?_
  rw [← utf8ByteSize_text, ← utf8ByteSize_text]
  exact of_decide_eq_true h

theorem exists_isLongestAt
    (h : Shape.first? ((longestFirst ss).map Shape.symbol) cs = some m) :
    ∃ s, s.IsLongestAt ss cs ∧ (Shape.symbol s).match? cs = some m := by
  rw [Shape.first?, List.findSome?_map, List.findSome?_eq_some_iff] at h
  obtain ⟨before, s, behind, hss, hm, hnone⟩ := h
  have hmem : ∀ t, t ∈ ss ↔ t ∈ before ++ s :: behind := by
    intro t
    rw [← hss, longestFirst, List.mem_mergeSort]
  have hsorted := pairwise_longestFirst ss
  rw [hss, List.pairwise_append, List.pairwise_cons] at hsorted
  obtain ⟨-, ⟨hbehind, -⟩, -⟩ := hsorted
  refine ⟨s, ⟨?_, ?_, fun t ht hstands ↦ ?_⟩, hm⟩
  · rw [hmem]
    exact List.mem_append_right _ List.mem_cons_self
  · rw [← isSome_match?, show (Shape.symbol s).match? cs = some m from hm]
    rfl
  · -- Those tried before do not stand here, and those behind are not longer.
    rcases List.mem_append.1 ((hmem t).1 ht) with hb | hb
    · rw [← isSome_match?, show (Shape.symbol t).match? cs = none from hnone t hb] at hstands
      cases hstands
    · rcases List.mem_cons.1 hb with rfl | hb
      · exact Nat.le_refl _
      · exact hbehind t hb

theorem isSome_first? (hs : s ∈ ss) (h : s.text.toList <+: cs) :
    (Shape.first? ((longestFirst ss).map Shape.symbol) cs).isSome = true := by
  rw [Shape.first?, List.findSome?_map, List.findSome?_isSome_iff]
  exact ⟨s, List.mem_mergeSort.2 hs, isSome_match?.2 h⟩

theorem first?_eq_some_iff :
    Shape.first? ((longestFirst ss).map Shape.symbol) cs = some m ↔
      ∃ s, s.IsLongestAt ss cs ∧ (Shape.symbol s).match? cs = some m := by
  refine eq_some_iff_of_unique (fun m h ↦ exists_isLongestAt h) ?_ ?_
  · rintro m ⟨s, hs, -⟩
    exact isSome_first? hs.mem hs.stands
  · rintro m m' ⟨s, hs, hm⟩ ⟨t, ht, hm'⟩
    obtain rfl := hs.unique ht
    exact Option.some.inj (hm.symm.trans hm')

theorem first?_congr (h : ∀ s, s ∈ ss' ↔ s ∈ ss) :
    Shape.first? ((longestFirst ss').map Shape.symbol) cs =
      Shape.first? ((longestFirst ss).map Shape.symbol) cs := by
  ext m
  simp only [first?_eq_some_iff, isLongestAt_congr h]

end Symbol

namespace Lexicon

variable {c : Cursor} {s : Symbol} {ks ks' : List Keyword} {ss ss' : List Symbol}

theorem match?_keywords_symbols (ks : List Keyword) (ss : List Symbol) (c : Cursor) :
    ((base.keywords ks).symbols ss).match? c =
      (base.match? c).or ((Shape.first? (ks.map Shape.keyword) c.after).or
        (Shape.first? ((longestFirst ss).map Shape.symbol) c.after)) := by
  have hkeywords : ks.map Rule.keyword = (ks.map Shape.keyword).map Shape.rule := by
    rw [List.map_map]
    rfl
  have hsymbols : (longestFirst ss).map Rule.symbol =
      ((longestFirst ss).map Shape.symbol).map Shape.rule := by
    rw [List.map_map]
    rfl
  have hsplits : ∀ s ∈ ks.map Shape.keyword, s.pattern.Splits := by
    intro s hs
    obtain ⟨k, -, rfl⟩ := List.mem_map.1 hs
    exact Pattern.splits_keyword _
  have hsplits' : ∀ s ∈ (longestFirst ss).map Shape.symbol, s.pattern.Splits := by
    intro s hs
    obtain ⟨t, -, rfl⟩ := List.mem_map.1 hs
    exact Pattern.splits_literal _
  rw [match?, symbols, add, keywords, add, List.findSome?_append, List.findSome?_append,
    hkeywords, hsymbols, findSome?_rules hsplits, findSome?_rules hsplits', Option.or_assoc]
  rfl

theorem match?_base_of_symbol (h : s.text.toList <+: c.after) : base.match? c = none := by
  obtain ⟨d, ds, hd, hspace, hbreak, hmark, -⟩ := s.exists_mark
  obtain ⟨rest, hrest⟩ := h
  rw [hd, List.cons_append] at hrest
  rw [match?_base, ← hrest, directiveAt?, ← hrest, Shape.match?_directive_of_head hmark,
    Shape.first?_base_of_unmarked hspace hbreak, ite_self, Option.none_or]
  simp [Pattern.commentMark, Text.after?, hmark.symm]

theorem first?_keywords_of_symbol (h : s.text.toList <+: cs) :
    Shape.first? (ks.map Shape.keyword) cs = none := by
  obtain ⟨d, ds, hd, -, -, -, hletter⟩ := s.exists_mark
  obtain ⟨rest, rfl⟩ := h
  rw [Shape.first?, List.findSome?_eq_none_iff]
  intro shape hshape
  obtain ⟨k, -, rfl⟩ := List.mem_map.1 hshape
  obtain ⟨e, es, he, halpha⟩ := k.exists_letter
  have hne : e ≠ d := by
    rintro rfl
    rw [hletter] at halpha
    cases halpha
  rw [hd, List.cons_append]
  exact Shape.match?_keyword_of_head he hne _

theorem match?_of_symbol (h : s.text.toList <+: c.after) :
    ((base.keywords ks).symbols ss).match? c =
      Shape.first? ((longestFirst ss).map Shape.symbol) c.after := by
  rw [match?_keywords_symbols, match?_base_of_symbol h, first?_keywords_of_symbol h,
    Option.none_or, Option.none_or]

theorem first?_of_kind_eq_symbol (h : ((base.keywords ks).symbols ss).match? c = some m)
    (hk : m.kind = .symbol s) :
    Shape.first? ((longestFirst ss).map Shape.symbol) c.after = some m := by
  rw [match?_keywords_symbols, Option.or_eq_some_iff, Option.or_eq_some_iff] at h
  rcases h with hbase | ⟨-, hkeyword | ⟨-, hsymbol⟩⟩
  · have hkind := kind_of_match?_base hbase
    rw [hk] at hkind
    simp [Token.Kind.isHidden] at hkind
  · obtain ⟨k, -, hm⟩ := Keyword.first?_eq_some_iff.1 hkeyword
    have hkind := (Shape.match?_eq_some_iff.1 hm).1
    rw [hk] at hkind
    cases hkind
  · exact hsymbol

theorem match?_keyword (k : Keyword) (c : Cursor) :
    (Rule.keyword k).match? c = (Shape.keyword k).match? c.after :=
  Rule.match?_ofPattern _ (Pattern.splits_keyword _) c

/-- In whatever order keywords and symbols are listed, the rules find the same. They find a symbol
wherever one of those listed stands, the longest of them, and never two keywords in one place. -/
theorem match?_of_perm (hks : ks'.Perm ks) (hss : ss'.Perm ss) (c : Cursor) :
    ((base.keywords ks').symbols ss').match? c = ((base.keywords ks).symbols ss).match? c ∧
    (∀ m s, ((base.keywords ks).symbols ss).match? c = some m → m.kind = .symbol s →
      s.IsLongestAt ss c.after ∧ m.text = s.text.toList) ∧
    (∀ s ∈ ss, s.text.toList <+: c.after →
      ∃ m t, ((base.keywords ks).symbols ss).match? c = some m ∧ m.kind = .symbol t) ∧
    ∀ j k : Keyword, ((Rule.keyword j).match? c).isSome = true →
      ((Rule.keyword k).match? c).isSome = true → j = k := by
  refine ⟨?_, fun m s hm hk ↦ ?_, fun s hs hstands ↦ ?_, fun j k hj hk ↦ ?_⟩
  · rw [match?_keywords_symbols, match?_keywords_symbols,
      Keyword.first?_congr fun _ ↦ hks.mem_iff, Symbol.first?_congr fun _ ↦ hss.mem_iff]
  · obtain ⟨t, ht, htm⟩ := Symbol.exists_isLongestAt (first?_of_kind_eq_symbol hm hk)
    obtain ⟨hkind, htext, -⟩ := Symbol.match?_eq_some_iff.1 htm
    obtain rfl := Token.Kind.symbol.inj (hk.symm.trans hkind)
    exact ⟨ht, htext⟩
  · obtain ⟨m, hm⟩ := Option.isSome_iff_exists.1 (Symbol.isSome_first? hs hstands)
    obtain ⟨t, -, htm⟩ := Symbol.exists_isLongestAt hm
    exact ⟨m, t, (match?_of_symbol hstands).trans hm, (Symbol.match?_eq_some_iff.1 htm).1⟩
  · rw [match?_keyword, Option.isSome_iff_exists] at hj hk
    obtain ⟨m, hm⟩ := hj
    obtain ⟨m', hm'⟩ := hk
    exact Keyword.eq_of_match? hm hm'

theorem match?_of_perm_hyphens :
    [Keyword.packet, .packetBeta].Perm [.packetBeta, .packet] ∧
    [Symbol.minus, .doubleMinus].Perm [.doubleMinus, .minus] ∧
    (∃ m, ((base.keywords [.packet, .packetBeta]).symbols [.minus, .doubleMinus]).match?
        ⟨['a'], "--b".toList⟩ = some m ∧ m.text = "--".toList) ∧
    ((Rule.keyword .packetBeta).match? (.start "packet-beta".toList)).isSome = true ∧
    ((Rule.keyword .packet).match? (.start "packet-beta".toList)).isSome = false := by
  have hks : [Keyword.packet, .packetBeta].Perm [.packetBeta, .packet] := .swap _ _ _
  have hss : [Symbol.minus, .doubleMinus].Perm [.doubleMinus, .minus] := .swap _ _ _
  refine ⟨hks, hss, ?_, ?_⟩
  · obtain ⟨hsame, hlongest, hfound, -⟩ := match?_of_perm hks hss ⟨['a'], "--b".toList⟩
    have hmem : Symbol.doubleMinus ∈ [Symbol.doubleMinus, .minus] := List.mem_cons_self
    have hstands : Symbol.doubleMinus.text.toList <+: "--b".toList := by decide
    obtain ⟨m, s, hm, hk⟩ := hfound .doubleMinus hmem hstands
    obtain ⟨hs, htext⟩ := hlongest m s hm hk
    refine ⟨m, hsame.trans hm, ?_⟩
    have hlength := hs.longest .doubleMinus hmem hstands
    rcases List.mem_pair.1 hs.mem with rfl | rfl
    · exact htext
    · exact absurd hlength (by decide)
  · have hbeta : ((Rule.keyword .packetBeta).match? (.start "packet-beta".toList)).isSome = true :=
      rfl
    refine ⟨hbeta, ?_⟩
    rw [Bool.eq_false_iff]
    intro hpacket
    obtain ⟨-, -, -, hone⟩ := match?_of_perm hks hss (.start "packet-beta".toList)
    cases hone .packetBeta .packet hbeta hpacket

end Lexicon

end DiagramText
