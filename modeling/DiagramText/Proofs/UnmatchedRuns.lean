import DiagramText.Proofs.Lossless
import Mathlib.Data.List.TakeWhile

namespace DiagramText

open Text (byteSize isBlank isBreak)

namespace Cursor

def AtBlank (c : Cursor) : Prop :=
  ∃ ch ∈ c.after.head?, isBlank ch = true

def AtBreak (c : Cursor) : Prop :=
  ∃ ch ∈ c.after.head?, isBreak ch = true

variable {c d : Cursor} {run rest : List Char}

theorem past_cons (c : Cursor) (ch : Char) (taken rest : List Char) :
    c.past (ch :: taken) rest = (⟨ch :: c.before, rest⟩ : Cursor).past taken rest := by
  simp [past]

theorem exists_eq_past (ha : c.after = run ++ rest) (ht : d.text = c.text)
    (hstart : c.offset ≤ d.offset) (hstop : d.offset ≤ c.offset + byteSize run) :
    ∃ a b, run = a ++ b ∧ d = c.past a (b ++ rest) := by
  have hnil {cs : List Char} (h : byteSize cs ≤ 0) : cs = [] := by
    by_contra hn
    have := Text.byteSize_pos hn
    omega
  suffices ∃ a b, run = a ++ b ∧ d.offset = c.offset + byteSize a by
    obtain ⟨a, b, rfl, ho⟩ := this
    refine ⟨a, b, rfl, Option.some.inj ((at?_eq_some_iff.2 ⟨ht, rfl⟩).symm.trans
      (at?_eq_some_iff.2 ⟨?_, ?_⟩))⟩
    · exact text_past (ha.trans (List.append_assoc a b rest))
    · rw [offset_past, ho]
  have hd : d.offset = byteSize d.before.reverse := (Text.byteSize_reverse _).symm
  have hc : c.offset = byteSize c.before.reverse := (Text.byteSize_reverse _).symm
  rw [text, text, ha] at ht
  rcases List.append_eq_append_iff.1 ht with ⟨w, hw, -⟩ | ⟨w, hw, hrun⟩
  · rw [hw, Text.byteSize_append] at hc
    exact ⟨[], run, rfl, by rw [Text.byteSize_nil]; omega⟩
  · rw [hw, Text.byteSize_append] at hd
    rcases List.append_eq_append_iff.1 hrun with ⟨v, rfl, -⟩ | ⟨v, rfl, -⟩
    · rw [Text.byteSize_append] at hd
      exact ⟨run, [], (List.append_nil run).symm, by omega⟩
    · exact ⟨w, v, rfl, by omega⟩

end Cursor

/-- The span goes on from its start to the next place where `Stop` holds, or to the end of the
text. -/
structure Span.RunsTo (s : Span) (text : List Char) (Stop : Cursor → Prop) : Prop where
  nonempty : s.start < s.stop
  inside : ∀ i c, s.start < i → i < s.stop → Cursor.at? text i = some c → ¬Stop c
  ends : ∃ c, Cursor.at? text s.stop = some c ∧ (c.after = [] ∨ Stop c)

theorem Cursor.runsTo {c : Cursor} {run rest : List Char} {Stop : Cursor → Prop}
    (ha : c.after = run ++ rest) (hn : run ≠ [])
    (hinside : ∀ a ch b, a ≠ [] → run = a ++ ch :: b → ¬Stop (c.past a (ch :: (b ++ rest))))
    (hover : rest = [] ∨ Stop (c.past run rest)) :
    Span.RunsTo ⟨c.offset, c.offset + byteSize run⟩ c.text Stop := by
  refine ⟨by have := Text.byteSize_pos hn; simp only; omega, fun i d hi hj hd ↦ ?_,
    c.past run rest, at?_eq_some_iff.2 ⟨text_past ha, offset_past c run rest⟩, hover⟩
  obtain ⟨ht, rfl⟩ := at?_eq_some_iff.1 hd
  obtain ⟨a, b, rfl, rfl⟩ := exists_eq_past ha ht (Nat.le_of_lt hi) (Nat.le_of_lt hj)
  simp only [offset_past, Text.byteSize_append] at hi hj
  cases b with
  | nil => simp at hj
  | cons ch b =>
    refine hinside a ch b ?_ rfl
    rintro rfl
    simp at hi

namespace Lexicon

variable {l : Lexicon} {c c' : Cursor} {ts : List Token} {es : List Diagnostic}

/-- Where a scan that gives up text goes on: a blank stands here, or a rule matches. -/
def Resumes (l : Lexicon) (c : Cursor) : Prop :=
  c.AtBlank ∨ (l.match? c).isSome

theorem resumes_cons_iff {before cs : List Char} {ch : Char} :
    l.Resumes ⟨before, ch :: cs⟩ ↔ (isBlank ch || (l.match? ⟨before, ch :: cs⟩).isSome) = true := by
  simp [Resumes, Cursor.AtBlank]

theorem upToMatch_stops (l : Lexicon) (c : Cursor) {taken rest : List Char}
    (h : l.upToMatch c.before c.after = (taken, rest)) :
    (∀ a ch b, taken = a ++ ch :: b → ¬l.Resumes (c.past a (ch :: (b ++ rest)))) ∧
      (rest = [] ∨ l.Resumes (c.past taken rest)) := by
  obtain ⟨before, after⟩ := c
  induction after generalizing before taken with
  | nil =>
    obtain ⟨rfl, rfl⟩ := Prod.mk.inj h
    exact ⟨by simp, .inl rfl⟩
  | cons ch cs ih =>
    simp only [upToMatch] at h
    split at h
    · rename_i hgo
      obtain ⟨rfl, rfl⟩ := Prod.mk.inj h
      exact ⟨by simp, .inr (resumes_cons_iff.2 hgo)⟩
    · rename_i hgo
      obtain ⟨t, r, ht⟩ : ∃ t r, l.upToMatch (ch :: before) cs = (t, r) := ⟨_, _, rfl⟩
      rw [ht] at h
      obtain ⟨rfl, rfl⟩ := Prod.mk.inj h
      obtain ⟨hinside, hover⟩ := ih (ch :: before) ht
      refine ⟨fun a d b hb ↦ ?_, by rwa [Cursor.past_cons]⟩
      cases a with
      | nil =>
        obtain ⟨rfl, rfl⟩ := List.cons.inj hb
        have hcs := l.upToMatch_append (ch :: before) cs
        rw [ht] at hcs
        rw [hcs]
        exact fun hr ↦ hgo (resumes_cons_iff.1 hr)
      | cons a as =>
        obtain ⟨rfl, rfl⟩ := List.cons.inj hb
        rw [Cursor.past_cons]
        exact hinside as d b rfl

theorem unmatched_runsTo (l : Lexicon) {c : Cursor} {ch : Char} {cs : List Char}
    {Stop : Cursor → Prop} (ha : c.after = ch :: cs) {taken rest : List Char}
    (hu : l.unmatched c.before ch cs = (ch :: taken, rest))
    (hinside : ∀ a d b, taken = a ++ d :: b → ¬Stop (c.past (ch :: a) (d :: (b ++ rest))))
    (hover : rest = [] ∨ Stop (c.past (ch :: taken) rest)) :
    (l.unmatchedToken c ch cs).span.RunsTo c.text Stop := by
  have happ := l.unmatched_append c.before ch cs
  rw [hu] at happ
  rw [unmatchedToken, hu]
  refine c.runsTo (ha.trans happ.symm) (List.cons_ne_nil ch taken) (fun a d b hn hab ↦ ?_) hover
  obtain ⟨x, a, rfl⟩ := List.exists_cons_of_ne_nil hn
  obtain ⟨rfl, htaken⟩ := List.cons.inj hab
  exact hinside a d b htaken

theorem quoted_runsTo (l : Lexicon) {c : Cursor} {ch : Char} {cs : List Char}
    (ha : c.after = ch :: cs) (hq : isQuote ch = true) :
    (l.unmatchedToken c ch cs).span.RunsTo c.text Cursor.AtBreak := by
  refine l.unmatched_runsTo ha (by rw [unmatched, if_pos hq]) ?_ ?_
  · rintro a d b hab ⟨ch', hch, hb⟩
    obtain rfl : d = ch' := Option.some.inj hch
    have hd : d ∈ cs.takeWhile fun c ↦ !isBreak c := hab ▸ by simp
    simpa [hb] using List.mem_takeWhile_imp hd
  · cases hr : cs.dropWhile fun c ↦ !isBreak c with
    | nil => exact .inl rfl
    | cons d rest =>
      have hd := List.head?_dropWhile_not (fun c ↦ !isBreak c) cs
      rw [hr] at hd
      exact .inr ⟨d, rfl, by simpa using hd⟩

theorem unquoted_runsTo (l : Lexicon) {c : Cursor} {ch : Char} {cs : List Char}
    (ha : c.after = ch :: cs) (hq : isQuote ch = false) :
    (l.unmatchedToken c ch cs).span.RunsTo c.text l.Resumes := by
  obtain ⟨taken, rest, hu⟩ : ∃ taken rest, l.upToMatch (ch :: c.before) cs = (taken, rest) :=
    ⟨_, _, rfl⟩
  obtain ⟨hinside, hover⟩ := l.upToMatch_stops ⟨ch :: c.before, cs⟩ hu
  have hrun : l.unmatched c.before ch cs = (ch :: taken, rest) := by
    rw [unmatched, hq, if_neg Bool.false_ne_true, hu]
  refine l.unmatched_runsTo ha hrun (fun a d b hab ↦ ?_) ?_
  · rw [Cursor.past_cons]
    exact hinside a d b hab
  · rwa [Cursor.past_cons]

theorem code_unmatched (l : Lexicon) (c : Cursor) (ch : Char) (cs : List Char) :
    (unmatchedFault (l.unmatchedToken c ch cs)).diagnostic.code =
      some (if isQuote ch then .E002 else .E001) := by
  have hhead : (l.unmatchedToken c ch cs).text.toList.head? = some ch := by
    rw [unmatchedToken, token, String.toList_ofList, unmatched]
    split <;> rfl
  rw [unmatchedFault, hhead, Option.any_some]
  split <;> rfl

theorem Walks.exists_unmatched (h : Walks l c ts es c') {e : Diagnostic} (he : e ∈ es) :
    ∃ d ch cs, d.text = c.text ∧ d.after = ch :: cs ∧ l.match? d = none ∧
      e = (unmatchedFault (l.unmatchedToken d ch cs)).diagnostic := by
  induction h with
  | done c => cases he
  | skip hm _ _ ih | take hm _ _ ih =>
    rw [← text_past_of_match? hm]
    exact ih he
  | @giveUp c c' ch cs ts es hm ha _ ih =>
    rcases List.mem_cons.1 he with rfl | he
    · exact ⟨c, ch, cs, rfl, ha, hm, rfl⟩
    · rw [← text_pastUnmatched ha]
      exact ih he

/-- What a diagnostic of a scan marks begins where no rule matches. It is all text up to the next
place where a rule matches or a blank stands; or it begins with a quote and is all that is left of
the line. -/
theorem errors_runsTo (l : Lexicon) (text : List Char) :
    ∀ e ∈ (l.tokenize text).errors, ∃ s c ch cs, e.primarySpan = some s ∧
      Cursor.at? text s.start = some c ∧ c.after = ch :: cs ∧ l.match? c = none ∧
      (e.code = some .E001 ∧ isQuote ch = false ∧ s.RunsTo text l.Resumes ∨
        e.code = some .E002 ∧ isQuote ch = true ∧ s.RunsTo text Cursor.AtBreak) := by
  intro e he
  obtain ⟨c', -, hw⟩ := l.walks_scan (.start text)
  obtain ⟨c, ch, cs, rfl, ha, hm, rfl⟩ := hw.exists_unmatched he
  have hat : Cursor.at? c.text c.offset = some c := Cursor.at?_eq_some_iff.2 ⟨rfl, rfl⟩
  refine ⟨_, c, ch, cs, primarySpan_unmatchedFault _, hat, ha, hm, ?_⟩
  rw [code_unmatched]
  cases hq : isQuote ch with
  | true => exact .inr ⟨rfl, rfl, l.quoted_runsTo ha hq⟩
  | false => exact .inl ⟨rfl, rfl, l.unquoted_runsTo ha hq⟩

def blurred : List Char :=
  "pie\n\u00a0#\"x:5 'y\r\n".toList

theorem errors_runsTo_blurred :
    (Kind.pie.grammar.lexicon.tokenize blurred).errors.map (fun e ↦ (e.code, e.primarySpan)) =
      [(some .E001, some ⟨4, 9⟩), (some .E002, some ⟨12, 14⟩)] ∧
    Span.RunsTo ⟨4, 9⟩ blurred Kind.pie.grammar.lexicon.Resumes ∧
    Span.RunsTo ⟨12, 14⟩ blurred Cursor.AtBreak := by
  have hruns := errors_runsTo Kind.pie.grammar.lexicon blurred
  have hblank : (Fault.unexpectedText "\u00a0#\"x" ⟨4, 9⟩).diagnostic ∈
      (Kind.pie.grammar.lexicon.tokenize blurred).errors := by decide +kernel
  have hquote : (Fault.unterminatedString "'y" ⟨12, 14⟩).diagnostic ∈
      (Kind.pie.grammar.lexicon.tokenize blurred).errors := by decide +kernel
  refine ⟨by decide +kernel, ?_, ?_⟩
  · obtain ⟨s, c, ch, cs, hs, -, -, -, ⟨-, -, hrun⟩ | ⟨hcode, -⟩⟩ := hruns _ hblank
    · obtain rfl := Option.some.inj hs
      exact hrun
    · cases hcode
  · obtain ⟨s, c, ch, cs, hs, -, -, -, ⟨hcode, -⟩ | ⟨-, -, hrun⟩⟩ := hruns _ hquote
    · cases hcode
    · obtain rfl := Option.some.inj hs
      exact hrun

end Lexicon

end DiagramText
