import DiagramText.Proofs.Accepted
import DiagramText.Reading
import Mathlib.Data.List.TakeWhile

namespace DiagramText

open Text (after? cut? isBlank startsWith trimStart)

namespace Text

theorem startsWith_eq_true_iff {mark cs : List Char} :
    startsWith mark cs = true ↔ ∃ rest, cs = mark ++ rest := by
  rw [startsWith, Option.isSome_iff_exists]
  simp only [after?_eq_some_iff]

theorem trimStart_append_of_blank {w : List Char} (h : ∀ c ∈ w, isBlank c = true) (cs : List Char) :
    trimStart (w ++ cs) = trimStart cs :=
  List.dropWhile_append_of_pos h

theorem trimStart_append_eq_iff {w cs : List Char} :
    trimStart (w ++ cs) = trimStart cs ↔ ∀ c ∈ w, isBlank c = true := by
  refine ⟨fun h ↦ ?_, fun h ↦ trimStart_append_of_blank h cs⟩
  induction w with
  | nil => simp
  | cons c w ih =>
    cases hc : isBlank c with
    | true =>
      rw [List.cons_append, trimStart, List.dropWhile_cons_of_pos hc] at h
      exact List.forall_mem_cons.2 ⟨hc, ih h⟩
    | false =>
      rw [List.cons_append, trimStart, List.dropWhile_cons_of_neg (by simp [hc])] at h
      have hl := congrArg List.length h
      have := trimStart_length_le cs
      simp only [List.length_cons, List.length_append] at hl
      omega

theorem trimStart_cons {c : Char} (h : isBlank c = false) (cs : List Char) :
    trimStart (c :: cs) = c :: cs :=
  List.dropWhile_cons_of_neg (by simp [h])

end Text

/-- A comment or directive from its mark on, and the text after it. -/
structure Comment where
  kind : Token.Kind
  text : List Char
  rest : List Char
  deriving DecidableEq

namespace Preamble

/-- The comments and directives that the lexicon reads before a diagram, and the text of the
diagram. -/
def read (c : Cursor) : List Comment × List Char :=
  match h : Lexicon.base.match? c with
  | none => ([], c.after)
  | some m =>
    have := Lexicon.length_rest_lt_of_match? h
    let next := read (c.past m.text m.rest)
    if m.kind = .whitespace ∨ m.kind = .newline then next
    else (⟨m.kind, m.text.dropWhile Pattern.isSpace, m.rest⟩ :: next.1, next.2)
termination_by c.after.length

/-- Where each comment begins, and where the diagram does. -/
def marks (p : List Comment × List Char) : List (List Char) :=
  p.1.map (fun m ↦ m.text ++ m.rest) ++ [p.2]

/-- The places where detection looks for a comment, or for the keyword in the end. -/
def trail (cs : List Char) : List (List Char) :=
  match h : afterItem? (trimStart cs) with
  | some rest =>
    have := Nat.lt_of_lt_of_le (length_afterItem?_lt h) (Text.trimStart_length_le cs)
    trimStart cs :: trail rest
  | none => [trimStart cs]
termination_by cs.length

end Preamble

/-- Comments that detection takes to end elsewhere. -/
inductive Comment.Misread : Comment → Prop
  /-- The star that opens a block comment is taken for the one that closes it. -/
  | star {text rest : List Char} :
      startsWith ['%', '%', '*', '%', '%'] text = true → Misread ⟨.blockComment, text, rest⟩
  /-- A line comment is taken for a directive or a block comment that does not end with it. -/
  | closed {text rest stop : List Char} : Preamble.afterClosed? (text ++ rest) = some stop →
      (¬∃ blanks, (∀ c ∈ blanks, isBlank c = true) ∧ stop = blanks ++ rest) →
      Misread ⟨.lineComment, text, rest⟩
  /-- A line comment ends at a carriage return that more text follows on the line. -/
  | carriageReturn {text rest : List Char} {c : Char} : Preamble.afterClosed? (text ++ rest) = none →
      c ∈ rest.takeWhile (· ≠ '\n') → isBlank c = false → Misread ⟨.lineComment, text, rest⟩

namespace Preamble

theorem read_of_none {c : Cursor} (h : Lexicon.base.match? c = none) : read c = ([], c.after) := by
  rw [read]
  split
  · rfl
  · simp_all

theorem read_of_match {c : Cursor} {m : Match} (h : Lexicon.base.match? c = some m) :
    read c =
      let next := read (c.past m.text m.rest)
      if m.kind = .whitespace ∨ m.kind = .newline then next
      else (⟨m.kind, m.text.dropWhile Pattern.isSpace, m.rest⟩ :: next.1, next.2) := by
  rw [read]
  split
  · simp_all
  · simp_all

theorem trail_of_none {cs : List Char} (h : afterItem? (trimStart cs) = none) :
    trail cs = [trimStart cs] := by
  rw [trail]
  split
  · simp_all
  · rfl

theorem trail_of_some {cs rest : List Char} (h : afterItem? (trimStart cs) = some rest) :
    trail cs = trimStart cs :: trail rest := by
  rw [trail]
  split
  · simp_all
  · simp_all

theorem trail_congr {as bs : List Char} (h : trimStart as = trimStart bs) : trail as = trail bs := by
  cases ha : afterItem? (trimStart as) with
  | none => rw [trail_of_none ha, trail_of_none (h ▸ ha), h]
  | some rest =>
    have hb : afterItem? (trimStart bs) = some rest := h ▸ ha
    rw [trail_of_some ha, trail_of_some hb, h]

theorem head?_trail (cs : List Char) : (trail cs).head? = some (trimStart cs) := by
  cases h : afterItem? (trimStart cs) with
  | none => rw [trail_of_none h]; rfl
  | some rest => rw [trail_of_some h]; rfl

theorem getLast?_trail (cs : List Char) : (trail cs).getLast? = some (skip cs) := by
  induction hn : cs.length using Nat.strongRecOn generalizing cs with
  | ind n ih =>
    subst hn
    rw [skip]
    split
    · rename_i rest h
      have hlt := Nat.lt_of_lt_of_le (length_afterItem?_lt h) (Text.trimStart_length_le cs)
      have hlast := ih _ hlt rest rfl
      rw [trail_of_some h, List.getLast?_cons, hlast]
      rfl
    · rename_i h
      rw [trail_of_none h]
      rfl

end Preamble

inductive Comment.Written : Comment → Prop
  | directive {body inner rest : List Char} : cut? ['\x7d', '%', '%'] inner = some (body, rest) →
      Written ⟨.directive, ['%', '%', '\x7b'] ++ (body ++ ['\x7d', '%', '%']), rest⟩
  | block {body inner rest : List Char} : cut? ['*', '%', '%'] inner = some (body, rest) →
      Written ⟨.blockComment, ['%', '%', '*'] ++ (body ++ ['*', '%', '%']), rest⟩
  | line {body rest : List Char} : (∀ c ∈ body, Text.isBreak c = false) →
      (∀ inner, ['%', '%'] ++ body ++ rest = ['%', '%', '*'] ++ inner →
        cut? ['*', '%', '%'] inner = none) →
      Written ⟨.lineComment, ['%', '%'] ++ body, rest⟩

namespace Pattern

theorem dropWhile_isSpace_takeWhile_append (cs : List Char) {c : Char} (h : isSpace c = false)
    (rest : List Char) : (cs.takeWhile isSpace ++ c :: rest).dropWhile isSpace = c :: rest := by
  rw [List.dropWhile_append_of_pos fun _ ↦ List.mem_takeWhile_imp]
  exact List.dropWhile_cons_of_neg (by simp [h])

end Pattern

theorem Pattern.blank_of_whitespace {cs taken rest : List Char}
    (h : whitespace cs = some (taken, rest)) : ∀ c ∈ taken, isBlank c = true := by
  have hb := (Option.filter_eq_some_iff.1 h).1
  clear h
  induction cs generalizing taken rest with
  | nil =>
    obtain ⟨rfl, rfl⟩ := Prod.mk.inj (Option.some.inj hb)
    simp
  | cons c cs ih =>
    unfold blanks at hb
    split at hb
    · rename_i hc
      obtain ⟨⟨t, r⟩, ht, he⟩ := Option.map_eq_some_iff.1 hb
      obtain ⟨rfl, rfl⟩ := Prod.mk.inj he
      refine List.forall_mem_cons.2 ⟨?_, ih ht⟩
      rcases Bool.or_eq_true_iff.1 hc with hc | hc
      · exact isBlank_of_isSpace hc
      · obtain rfl := (by simpa using hc : c = '\r' ∧ _).1
        decide
    · obtain ⟨rfl, rfl⟩ := Prod.mk.inj (Option.some.inj hb)
      simp

theorem Pattern.blank_of_lineEnd {cs taken rest : List Char}
    (h : lineEnd cs = some (taken, rest)) : ∀ c ∈ taken, isBlank c = true := by
  unfold lineEnd alt at h
  split at h
  · rename_i r hr
    obtain rfl := Option.some.inj h
    obtain ⟨rfl, -⟩ := literal_eq_some_iff.1 hr
    simp [isBlank]
  · obtain ⟨rfl, -⟩ := literal_eq_some_iff.1 h
    simp [isBlank]

def Comment.SpacedIn (kind : Token.Kind) (text rest : List Char) : Prop :=
  ∃ spaces, (∀ c ∈ spaces, isBlank c = true) ∧
    text = spaces ++ text.dropWhile Pattern.isSpace ∧
    Comment.Written ⟨kind, text.dropWhile Pattern.isSpace, rest⟩

theorem Comment.SpacedIn.of_takeWhile {kind : Token.Kind} {text rest : List Char} (cs : List Char)
    (h : Written ⟨kind, '%' :: text, rest⟩) :
    SpacedIn kind (cs.takeWhile Pattern.isSpace ++ '%' :: text) rest := by
  have hdrop := Pattern.dropWhile_isSpace_takeWhile_append cs
    (by decide : Pattern.isSpace '%' = false) text
  refine ⟨cs.takeWhile Pattern.isSpace, ?_, congrArg _ hdrop.symm, by rwa [hdrop]⟩
  exact fun c hc ↦ Pattern.isBlank_of_isSpace (List.mem_takeWhile_imp hc)

theorem Pattern.spacedIn_of_directive {cs text rest : List Char}
    (h : directive cs = some (text, rest)) : Comment.SpacedIn .directive text rest := by
  obtain ⟨_, inner, _, hl, ht, rfl⟩ := seq_eq_some_iff.1 h
  obtain ⟨rfl, -⟩ := literal_eq_some_iff.1 hl
  obtain ⟨body, hc, rfl⟩ := through_eq_some_iff.1 ht
  exact .of_takeWhile [] (.directive hc)

theorem Pattern.blockComment_eq_some_iff {cs text rest : List Char} :
    blockComment cs = some (text, rest) ↔ ∃ body inner,
      cs.dropWhile isSpace = ['%', '%', '*'] ++ inner ∧
      cut? ['*', '%', '%'] inner = some (body, rest) ∧
      text = cs.takeWhile isSpace ++ (['%', '%', '*'] ++ (body ++ ['*', '%', '%'])) := by
  simp only [blockComment, seq_eq_some_iff, many_eq_some_iff, literal_eq_some_iff,
    through_eq_some_iff]
  constructor
  · rintro ⟨_, _, _, ⟨rfl, rfl⟩, ⟨_, inner, _, ⟨rfl, hi⟩, ⟨body, hc, rfl⟩, rfl⟩, rfl⟩
    exact ⟨body, inner, hi, hc, rfl⟩
  · rintro ⟨body, inner, hi, hc, rfl⟩
    exact ⟨_, _, _, ⟨rfl, rfl⟩, ⟨_, inner, _, ⟨rfl, hi⟩, ⟨body, hc, rfl⟩, rfl⟩, rfl⟩

theorem Pattern.spacedIn_of_blockComment {cs text rest : List Char}
    (h : blockComment cs = some (text, rest)) : Comment.SpacedIn .blockComment text rest := by
  obtain ⟨body, inner, -, hc, rfl⟩ := blockComment_eq_some_iff.1 h
  exact .of_takeWhile cs (.block hc)

theorem Pattern.spacedIn_of_lineComment {cs text rest : List Char} (hb : blockComment cs = none)
    (h : lineComment cs = some (text, rest)) : Comment.SpacedIn .lineComment text rest := by
  obtain ⟨_, _, _, hs, h, rfl⟩ := seq_eq_some_iff.1 h
  obtain ⟨rfl, rfl⟩ := many_eq_some_iff.1 hs
  obtain ⟨_, line, _, hl, hm, rfl⟩ := seq_eq_some_iff.1 h
  obtain ⟨rfl, hline⟩ := literal_eq_some_iff.1 hl
  obtain ⟨rfl, rfl⟩ := many_eq_some_iff.1 hm
  refine .of_takeWhile cs (.line (fun c hc ↦ by simpa using List.mem_takeWhile_imp hc) ?_)
  intro inner hi
  rw [List.append_assoc, List.takeWhile_append_dropWhile] at hi
  have hi : cs.dropWhile isSpace = ['%', '%', '*'] ++ inner := hline.trans hi
  cases hcut : cut? ['*', '%', '%'] inner with
  | none => rfl
  | some p =>
    have := blockComment_eq_some_iff.2 ⟨p.1, inner, hi, hcut, rfl⟩
    rw [hb] at this
    cases this

theorem Lexicon.blank_or_spacedIn {c : Cursor} {m : Match} (h : base.match? c = some m) :
    ((m.kind = .whitespace ∨ m.kind = .newline) ∧ ∀ ch ∈ m.text, isBlank ch = true) ∨
    (¬(m.kind = .whitespace ∨ m.kind = .newline) ∧ Comment.SpacedIn m.kind m.text m.rest) := by
  rw [match?_base, Option.or_eq_some_iff] at h
  rcases h with hd | ⟨-, h⟩
  · obtain ⟨-, hm⟩ := Option.ite_none_right_eq_some.1 hd
    obtain ⟨hk, hp, -⟩ := Shape.match?_eq_some_iff.1 hm
    rw [← hk]
    exact .inr ⟨by decide, Pattern.spacedIn_of_directive hp⟩
  · simp only [Shape.first?, Shape.base, List.findSome?_cons, List.findSome?_nil] at h
    split at h
    · rename_i hm
      obtain rfl := Option.some.inj h
      obtain ⟨hk, hp, -⟩ := Shape.match?_eq_some_iff.1 hm
      rw [← hk]
      exact .inr ⟨by decide, Pattern.spacedIn_of_blockComment hp⟩
    · rename_i hblock
      have hb : Pattern.blockComment c.after = none := by
        rw [Option.eq_none_iff_forall_ne_some]
        rintro ⟨text, rest⟩ hp
        obtain ⟨_, _, -, -, ht⟩ := Pattern.blockComment_eq_some_iff.1 hp
        have := Shape.eq_nil_of_match?_eq_none hblock hp
        simp [this] at ht
      split at h
      · rename_i hm
        obtain rfl := Option.some.inj h
        obtain ⟨hk, hp, -⟩ := Shape.match?_eq_some_iff.1 hm
        rw [← hk]
        exact .inr ⟨by decide, Pattern.spacedIn_of_lineComment hb hp⟩
      · split at h
        · rename_i hm
          obtain rfl := Option.some.inj h
          obtain ⟨hk, hp, -⟩ := Shape.match?_eq_some_iff.1 hm
          exact .inl ⟨.inl hk.symm, Pattern.blank_of_whitespace hp⟩
        · split at h
          · rename_i hm
            obtain rfl := Option.some.inj h
            obtain ⟨hk, hp, -⟩ := Shape.match?_eq_some_iff.1 hm
            exact .inl ⟨.inr hk.symm, Pattern.blank_of_lineEnd hp⟩
          · cases h

namespace Preamble

theorem afterClosed?_directive {inner body rest : List Char}
    (h : cut? ['\x7d', '%', '%'] inner = some (body, rest)) :
    afterClosed? (['%', '%', '\x7b'] ++ inner) = some rest := by
  simp [afterClosed?, startsWith, after?, beyond?, cut?, h]

theorem afterClosed?_block {inner body rest : List Char}
    (h : cut? ['*', '%', '%'] inner = some (body, rest)) :
    afterClosed? (['%', '%', '*'] ++ inner) =
      some ((after? ['%', '%'] inner).getD rest) := by
  cases ha : after? ['%', '%'] inner <;>
    simp [afterClosed?, startsWith, after?, beyond?, cut?, h, ha]

theorem afterItem?_of_closed {cs rest : List Char} (h : afterClosed? cs = some rest) :
    afterItem? cs = some rest := by
  simp [afterItem?, h]

theorem afterItem?_line {cs : List Char} (h : afterClosed? (['%', '%'] ++ cs) = none) :
    afterItem? (['%', '%'] ++ cs) = some (cs.dropWhile (· ≠ '\n')) := by
  simp only [List.cons_append, List.nil_append] at h ⊢
  simp [afterItem?, h, startsWith, after?]

theorem eq_append_of_afterClosed? {cs rest : List Char} (h : afterClosed? cs = some rest) :
    ∃ before, cs = before ++ ['%'] ++ rest := by
  have hcut {mark cs rest : List Char} (h : beyond? (mark ++ ['%']) cs = some rest) :
      ∃ before, cs = before ++ ['%'] ++ rest := by
    obtain ⟨⟨before, r⟩, hc, rfl⟩ := Option.map_eq_some_iff.1 h
    exact ⟨before ++ mark, by simpa using Text.eq_append_of_cut? hc⟩
  unfold afterClosed? at h
  split at h
  · exact @hcut ['\x7d', '%'] cs rest h
  · split at h
    · exact @hcut ['*', '%'] cs rest h
    · cases h

theorem trimStart_eq_iff {before stop text rest : List Char}
    (h : before ++ ['%'] ++ stop = text ++ rest) :
    trimStart stop = trimStart rest ↔
      ∃ blanks, (∀ c ∈ blanks, isBlank c = true) ∧ stop = blanks ++ rest := by
  rcases List.append_eq_append_iff.1 h with ⟨w, -, rfl⟩ | ⟨w, hw, rfl⟩
  · rw [Text.trimStart_append_eq_iff]
    constructor
    · exact fun hb ↦ ⟨w, hb, rfl⟩
    · rintro ⟨blanks, hb, he⟩
      rwa [List.append_cancel_right he]
  · rcases List.eq_nil_or_concat w with rfl | ⟨w, c, rfl⟩
    · exact ⟨fun _ ↦ ⟨[], by simp, rfl⟩, fun _ ↦ rfl⟩
    · have hc : c = '%' := by
        have := congrArg List.getLast? hw
        simpa using this.symm
      constructor
      · intro he
        have hb := Text.trimStart_append_eq_iff.1 he.symm c (by simp)
        rw [hc] at hb
        exact absurd hb (by decide)
      · rintro ⟨blanks, -, he⟩
        have := congrArg List.length he
        simp at this
        omega

end Preamble

theorem exists_of_marks_append {body ys zs : List Char}
    (h : body ++ ['*', '%', '%'] ++ ys = ['%', '%'] ++ zs) :
    ∃ x, body = ['%', '%'] ++ x ∧ zs = x ++ ['*', '%', '%'] ++ ys := by
  rcases body with _ | ⟨a, _ | ⟨b, x⟩⟩
  · simp at h
  · simp at h
  · simp only [List.cons_append, List.nil_append, List.cons.injEq] at h
    obtain ⟨rfl, rfl, rfl⟩ := h
    exact ⟨x, rfl, by simp⟩

theorem Comment.misread_block_iff {body rest : List Char} :
    Misread ⟨.blockComment, ['%', '%', '*'] ++ (body ++ ['*', '%', '%']), rest⟩ ↔
      ∃ x, body = ['%', '%'] ++ x := by
  constructor
  · rintro ⟨hs⟩
    obtain ⟨tail, ht⟩ := Text.startsWith_eq_true_iff.1 hs
    have ht : ['%', '%', '*'] ++ (body ++ ['*', '%', '%']) = ['%', '%', '*'] ++ (['%', '%'] ++ tail) :=
      ht
    obtain ⟨x, hx, -⟩ := @exists_of_marks_append body [] tail (by simpa using ht)
    exact ⟨x, hx⟩
  · rintro ⟨x, rfl⟩
    exact .star (Text.startsWith_eq_true_iff.2 ⟨x ++ ['*', '%', '%'], rfl⟩)

/-- Detection goes on beyond the comment if it does not misread it, and at another place if it
does. -/
def Comment.Found (m : Comment) : Prop :=
  ∃ stop, Preamble.afterItem? (m.text ++ m.rest) = some stop ∧
    (trimStart stop = trimStart m.rest ↔ ¬m.Misread)

theorem Comment.found_directive {body inner rest : List Char}
    (hc : cut? ['\x7d', '%', '%'] inner = some (body, rest)) :
    Found ⟨.directive, ['%', '%', '\x7b'] ++ (body ++ ['\x7d', '%', '%']), rest⟩ := by
  have he : ['%', '%', '\x7b'] ++ (body ++ ['\x7d', '%', '%']) ++ rest =
      ['%', '%', '\x7b'] ++ inner := by simp [Text.eq_append_of_cut? hc]
  refine ⟨rest, ?_, iff_of_true rfl fun hm ↦ by cases hm⟩
  rw [he]
  exact Preamble.afterItem?_of_closed (Preamble.afterClosed?_directive hc)

theorem Comment.found_block {body inner rest : List Char}
    (hc : cut? ['*', '%', '%'] inner = some (body, rest)) :
    Found ⟨.blockComment, ['%', '%', '*'] ++ (body ++ ['*', '%', '%']), rest⟩ := by
  have hi := Text.eq_append_of_cut? hc
  have he : ['%', '%', '*'] ++ (body ++ ['*', '%', '%']) ++ rest = ['%', '%', '*'] ++ inner := by
    simp [hi]
  refine ⟨(after? ['%', '%'] inner).getD rest, ?_, ?_⟩
  · rw [he]
    exact Preamble.afterItem?_of_closed (Preamble.afterClosed?_block hc)
  · rw [misread_block_iff]
    cases ha : after? ['%', '%'] inner with
    | none =>
      refine iff_of_true rfl ?_
      rintro ⟨x, rfl⟩
      rw [hi] at ha
      simp [after?] at ha
    | some stop =>
      -- the star that opens the comment closes it for detection, which stops before another star
      have hs := Text.after?_eq_some_iff.1 ha
      rw [hi] at hs
      obtain ⟨x, rfl, rfl⟩ := exists_of_marks_append hs
      refine iff_of_false (fun ht ↦ ?_) fun hn ↦ hn ⟨x, rfl⟩
      have hb := Text.trimStart_append_eq_iff.1 ht '*' (by simp)
      exact absurd hb (by decide)

theorem Comment.found_line_closed {body rest stop : List Char}
    (ha : Preamble.afterClosed? (['%', '%'] ++ body ++ rest) = some stop) :
    Found ⟨.lineComment, ['%', '%'] ++ body, rest⟩ := by
  obtain ⟨before, hbefore⟩ := Preamble.eq_append_of_afterClosed? ha
  refine ⟨stop, Preamble.afterItem?_of_closed ha, ?_⟩
  rw [Preamble.trimStart_eq_iff hbefore.symm]
  constructor
  · intro hw hm
    cases hm with
    | closed ha' hn =>
      obtain rfl := Option.some.inj (ha.symm.trans ha')
      exact hn hw
    | carriageReturn ha' =>
      rw [ha] at ha'
      cases ha'
  · exact fun hm ↦ Classical.byContradiction fun hn ↦ hm (.closed ha hn)

/-- For detection a line comment goes on to a line feed, over carriage returns. -/
theorem Comment.found_line {body rest : List Char} (hbody : ∀ c ∈ body, Text.isBreak c = false)
    (ha : Preamble.afterClosed? (['%', '%'] ++ body ++ rest) = none) :
    Found ⟨.lineComment, ['%', '%'] ++ body, rest⟩ := by
  have hdrop : (body ++ rest).dropWhile (· ≠ '\n') = rest.dropWhile (· ≠ '\n') := by
    refine List.dropWhile_append_of_pos fun c hc ↦ ?_
    have := hbody c hc
    simp only [Text.isBreak, Bool.or_eq_false_iff, decide_eq_false_iff_not] at this
    simpa using this.1
  have hsplit : rest.takeWhile (· ≠ '\n') ++ rest.dropWhile (· ≠ '\n') = rest :=
    List.takeWhile_append_dropWhile
  have hblank := @Text.trimStart_append_eq_iff (rest.takeWhile (· ≠ '\n'))
    (rest.dropWhile (· ≠ '\n'))
  rw [hsplit] at hblank
  refine ⟨rest.dropWhile (· ≠ '\n'), ?_, ?_⟩
  · rw [List.append_assoc] at ha ⊢
    rw [Preamble.afterItem?_line ha, hdrop]
  · rw [eq_comm, hblank]
    constructor
    · intro hb hm
      cases hm with
      | closed ha' =>
        rw [ha] at ha'
        cases ha'
      | carriageReturn _ hc hn =>
        rw [hb _ hc] at hn
        cases hn
    · intro hm c hc
      cases hb : isBlank c with
      | true => rfl
      | false => exact absurd (.carriageReturn ha hc hb) hm

theorem Comment.Written.found {m : Comment} (h : m.Written) : m.Found := by
  cases h with
  | directive hc => exact found_directive hc
  | block hc => exact found_block hc
  | @line body rest hbody hblock =>
    cases ha : Preamble.afterClosed? (['%', '%'] ++ body ++ rest) with
    | some stop => exact found_line_closed ha
    | none => exact found_line hbody ha

theorem Comment.Written.trimStart {m : Comment} (h : m.Written) :
    trimStart (m.text ++ m.rest) = m.text ++ m.rest := by
  cases h <;> exact Text.trimStart_cons (by decide) _

namespace Preamble

variable {word : List Char} {c : Cursor} {m : Match}

theorem read_cases (h : Lexicon.base.match? c = some m) :
    (read c = read (c.past m.text m.rest) ∧ trimStart c.after = trimStart m.rest) ∨
    ∃ r : Comment, r.Written ∧ r.rest = m.rest ∧ trimStart c.after = r.text ++ m.rest ∧
      read c = (r :: (read (c.past m.text m.rest)).1, (read (c.past m.text m.rest)).2) := by
  obtain ⟨ha, -⟩ := Lexicon.after_eq_of_match? h
  rw [read_of_match h, ha]
  rcases Lexicon.blank_or_spacedIn h with ⟨hk, hb⟩ | ⟨hk, spaces, hs, ht, hwritten⟩
  · left
    simp only [hk, if_true, true_and]
    exact Text.trimStart_append_of_blank hb m.rest
  · right
    refine ⟨_, hwritten, rfl, ?_, by simp only [hk, if_false]⟩
    rw [ht, List.append_assoc, Text.trimStart_append_of_blank hs, ← ht]
    exact hwritten.trimStart

theorem marks_cons (r : Comment) (p : List Comment × List Char) :
    marks (r :: p.1, p.2) = (r.text ++ r.rest) :: marks p := rfl

theorem head?_marks_read (hw : ∀ cs, trimStart (word ++ cs) = word ++ cs) (h : Opens word c) :
    (marks (read c)).head? = some (trimStart c.after) := by
  induction h with
  | @here c rest hn ha =>
    rw [read_of_none hn, ha, hw]
    rfl
  | @past c m hm _ ih =>
    rcases read_cases hm with ⟨hr, ht⟩ | ⟨r, -, hrest, ht, hr⟩
    · rw [hr, ht]
      exact ih
    · rw [hr, ht, marks_cons, hrest]
      rfl

theorem exists_read_snd (h : Opens word c) : ∃ rest, (read c).2 = word ++ rest := by
  induction h with
  | @here c rest hn ha => exact ⟨rest, by rw [read_of_none hn, ha]⟩
  | @past c m hm _ ih =>
    obtain ⟨rest, hrest⟩ := ih
    rcases read_cases hm with ⟨hr, -⟩ | ⟨r, -, -, -, hr⟩
    · exact ⟨rest, by rw [hr, hrest]⟩
    · exact ⟨rest, by rw [hr, hrest]⟩

/-- Detection follows the marks of the comments if it misreads none, and only then. -/
theorem trail_eq_marks_iff (hw : ∀ cs, trimStart (word ++ cs) = word ++ cs)
    (hi : ∀ cs, afterItem? (word ++ cs) = none) (h : Opens word c) :
    trail c.after = marks (read c) ↔ ∀ m ∈ (read c).1, ¬m.Misread := by
  induction h with
  | @here c rest hn ha =>
    rw [read_of_none hn, ha, trail_of_none, hw]
    · simp [marks]
    · rw [hw]
      exact hi rest
  | @past c m hm hopens ih =>
    have ih : trail m.rest = marks (read (c.past m.text m.rest)) ↔ _ := ih
    rcases read_cases hm with ⟨hr, ht⟩ | ⟨r, hwritten, hrest, ht, hr⟩
    · rw [hr, trail_congr ht]
      exact ih
    · obtain ⟨stop, hstop, hmis⟩ := hwritten.found
      rw [hrest] at hstop hmis
      rw [← ht] at hstop
      -- The two agree on this comment iff they go on from the same place, and then on the rest.
      rw [hr, marks_cons, trail_of_some hstop, ht, hrest, List.forall_mem_cons, ← hmis, ← ih,
        List.cons.injEq]
      constructor
      · rintro ⟨-, he⟩
        have hhead := head?_marks_read hw hopens
        rw [← he, head?_trail] at hhead
        have hts : trimStart stop = trimStart m.rest := Option.some.inj hhead
        exact ⟨hts, trail_congr hts ▸ he⟩
      · rintro ⟨hts, he⟩
        exact ⟨rfl, trail_congr hts ▸ he⟩

end Preamble

theorem Kind.ofText?_eq {k : Kind} {w : Keyword} {text : String} {rest : List Char}
    (hw : w ∈ k.openers) (h : Preamble.skip text.toList = w.text.toList ++ rest) :
    Kind.ofText? text = some k := by
  simp only [ofText?, h]
  cases k <;> simp only [openers, List.mem_cons, List.not_mem_nil, or_false] at hw <;>
    rcases hw with rfl | rfl <;> simp [all, keywords, Keyword.text, startsWith, after?]

theorem Keyword.trimStart_text (w : Keyword) (cs : List Char) :
    trimStart (w.text.toList ++ cs) = w.text.toList ++ cs := by
  cases w <;> simp [Keyword.text, trimStart, isBlank]

theorem Keyword.afterItem?_text (w : Keyword) (cs : List Char) :
    Preamble.afterItem? (w.text.toList ++ cs) = none := by
  cases w <;>
    simp [Keyword.text, Preamble.afterItem?, Preamble.afterClosed?, startsWith, after?]

theorem Diagram.read_of_ofText? {s : Settings} {text : String} {k : Kind} {d : Diagram}
    (hs : s.kind = none) (hk : Kind.ofText? text = some k) (h : k.parse text = .ok d) :
    read s text = .ok d := by
  simp only [read, hs, kindOf, hk, readAs, h]
  rfl

/-- On an accepted text, detection finds the comments where the grammar does if it misreads none of
them, and only then. It finds the kind and the diagram of such a text. -/
theorem Kind.ofText?_of_parse {k : Kind} {text : String} {d : Diagram} (h : k.parse text = .ok d) :
    (Preamble.trail text.toList = Preamble.marks (Preamble.read (.start text.toList)) ↔
      ∀ m ∈ (Preamble.read (.start text.toList)).1, ¬m.Misread) ∧
    ((∀ m ∈ (Preamble.read (.start text.toList)).1, ¬m.Misread) →
      Kind.ofText? text = some k ∧ ∀ s : Settings, s.kind = none → Diagram.read s text = .ok d) := by
  obtain ⟨w, hw, hopens⟩ := exists_opens h
  have htrail := Preamble.trail_eq_marks_iff w.trimStart_text w.afterItem?_text hopens
  refine ⟨htrail, fun hmis ↦ ?_⟩
  obtain ⟨rest, hrest⟩ := Preamble.exists_read_snd hopens
  have hlast := Preamble.getLast?_trail text.toList
  have he : Preamble.trail text.toList = _ := htrail.2 hmis
  rw [he, Preamble.marks, List.getLast?_concat, hrest] at hlast
  have hk := ofText?_eq hw (Option.some.inj hlast).symm
  exact ⟨hk, fun s hs ↦ Diagram.read_of_ofText? hs hk h⟩

theorem Kind.ofText?_of_parse_commented :
    Kind.pie.parse "%% a\n%%* b *%% pie" = .ok (.pie { showData := false }) ∧
    Kind.ofText? "%% a\n%%* b *%% pie" = some .pie := by
  have hp : Kind.pie.parse "%% a\n%%* b *%% pie" = .ok (.pie { showData := false }) :=
    parse_eq_ok_of_toOption (by decide +kernel)
  have hr : (Preamble.read (.start "%% a\n%%* b *%% pie".toList)).1 =
      [⟨.lineComment, "%% a".toList, "\n%%* b *%% pie".toList⟩,
        ⟨.blockComment, "%%* b *%%".toList, " pie".toList⟩] := by decide +kernel
  have hline : ¬Comment.Misread ⟨.lineComment, "%% a".toList, "\n%%* b *%% pie".toList⟩ := by
    have hc : Preamble.afterClosed? ("%% a".toList ++ "\n%%* b *%% pie".toList) = none := by decide
    have hl : "\n%%* b *%% pie".toList.takeWhile (· ≠ '\n') = [] := by decide
    rintro (_ | ⟨ha, -⟩ | ⟨-, hm, -⟩)
    · rw [hc] at ha
      cases ha
    · rw [hl] at hm
      cases hm
  have hblock : ¬Comment.Misread ⟨.blockComment, "%%* b *%%".toList, " pie".toList⟩ := by
    rintro ⟨hs⟩
    exact absurd hs (by decide)
  refine ⟨hp, ((ofText?_of_parse hp).2 ?_).1⟩
  rw [hr]
  exact List.forall_mem_cons.2 ⟨hline, List.forall_mem_cons.2 ⟨hblock, by simp⟩⟩

/-- Accepted texts of which detection misses the diagram: a star that both opens and closes a block
comment, a carriage return at the end of a comment, and a directive that is not the first. -/
theorem Kind.ofText?_overlooks :
    (Kind.pie.parse "%%*%% *%%\npie" = .ok (.pie { showData := false }) ∧
      Kind.ofText? "%%*%% *%%\npie" = none) ∧
    (Kind.pie.parse "%% c\rpie" = .ok (.pie { showData := false }) ∧
      Kind.ofText? "%% c\rpie" = none) ∧
    (Kind.pie.parse "%% c\n%%\x7bx\x7d%% y\npie" = .ok (.pie { showData := false }) ∧
      Kind.ofText? "%% c\n%%\x7bx\x7d%% y\npie" = none) :=
  ⟨⟨parse_eq_ok_of_toOption (by decide +kernel), by decide +kernel⟩,
    ⟨parse_eq_ok_of_toOption (by decide +kernel), by decide +kernel⟩,
    ⟨parse_eq_ok_of_toOption (by decide +kernel), by decide +kernel⟩⟩

end DiagramText
