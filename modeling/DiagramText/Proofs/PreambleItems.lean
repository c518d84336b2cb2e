import DiagramText.Proofs.Detection
import Mathlib.Data.List.Infix

namespace DiagramText

open Text (after? cut? isBlank startsWith trimStart)

/-- What holds no mark is cut off where a mark follows it. The first character of the mark is not
repeated in it, so that no mark begins before this one and ends within it. -/
theorem Text.cut?_append_mark {m : Char} {ms body : List Char} (hm : m ∉ ms)
    (hb : ¬m :: ms <:+: body) (rest : List Char) :
    cut? (m :: ms) (body ++ m :: ms ++ rest) = some (body, rest) := by
  have hfound (cs : List Char) : after? (m :: ms) (m :: ms ++ cs) = some cs :=
    after?_eq_some_iff.2 rfl
  induction body with
  | nil =>
    simp only [List.nil_append, List.cons_append, cut?] at hfound ⊢
    rw [hfound]
  | cons c body ih =>
    have hnone : after? (m :: ms) (c :: (body ++ m :: ms ++ rest)) = none := by
      by_contra hsome
      obtain ⟨r, hr⟩ := Option.ne_none_iff_exists'.1 hsome
      obtain ⟨rfl, he⟩ := List.cons.inj (after?_eq_some_iff.1 hr)
      rw [List.append_assoc] at he
      rcases List.append_eq_append_iff.1 he with ⟨x, rfl, hx⟩ | ⟨x, rfl, -⟩
      · cases x with
        | nil => exact hb ⟨[], [], by simp⟩
        | cons d x =>
          obtain ⟨rfl, -⟩ := List.cons.inj hx
          exact hm (by simp)
      · exact hb ⟨[], x, by simp⟩
    have hcut := ih fun hin ↦ hb (hin.trans (List.suffix_cons c body).isInfix)
    simp only [List.cons_append, cut?, hnone]
    simp only [List.cons_append, List.append_assoc] at hcut ⊢
    rw [hcut]
    rfl

namespace Preamble

/-- What a preamble is made of. A comment or directive is given by what stands between its marks,
which holds no closing mark. -/
inductive Item
  | blanks (cs : List Char) (blank : ∀ c ∈ cs, isBlank c = true)
  | lineComment (body : List Char) (line : '\n' ∉ body)
      (plain : ∀ c ∈ body.head?, c ∉ ['\x7b', '*'])
  | blockComment (body : List Char) (closed : ¬['*', '%', '%'] <:+: body)
      (opened : ¬['%', '%'] <+: body)
  | directive (body : List Char) (closed : ¬['\x7d', '%', '%'] <:+: body)

def Item.text : Item → List Char
  | blanks cs _ => cs
  | lineComment body _ _ => ['%', '%'] ++ body ++ ['\n']
  | blockComment body _ _ => ['%', '%', '*'] ++ body ++ ['*', '%', '%']
  | directive body _ => ['%', '%', '\x7b'] ++ body ++ ['\x7d', '%', '%']

/-- A number of rounds in which detection takes blanks and a comment or directive away. -/
inductive Rounds : Nat → List Char → List Char → Prop
  | zero (cs : List Char) : Rounds 0 cs cs
  | cons {n : Nat} {cs rest stop : List Char} : afterItem? (trimStart cs) = some rest →
      Rounds n rest stop → Rounds (n + 1) cs stop

variable {n : Nat} {cs rest stop : List Char}

theorem skip_of_some (h : afterItem? (trimStart cs) = some rest) : skip cs = skip rest := by
  rw [skip]
  split
  · simp_all
  · simp_all

theorem skip_of_none (h : afterItem? (trimStart cs) = none) : skip cs = trimStart cs := by
  rw [skip]
  split
  · simp_all
  · rfl

theorem skip_congr {as bs : List Char} (h : trimStart as = trimStart bs) : skip as = skip bs := by
  have ha := getLast?_trail as
  rw [trail_congr h, getLast?_trail] at ha
  exact (Option.some.inj ha).symm

theorem skip_append_of_blank {w : List Char} (h : ∀ c ∈ w, isBlank c = true) (cs : List Char) :
    skip (w ++ cs) = skip cs :=
  skip_congr (Text.trimStart_append_of_blank h cs)

theorem length_lt_of_round (h : afterItem? (trimStart cs) = some rest) : rest.length < cs.length :=
  Nat.lt_of_lt_of_le (length_afterItem?_lt h) (Text.trimStart_length_le cs)

theorem Rounds.add_length_le (h : Rounds n cs stop) : n + stop.length ≤ cs.length := by
  induction h with
  | zero cs => exact Nat.le_of_eq (Nat.zero_add _)
  | cons hr _ ih =>
    have hlt := length_lt_of_round hr
    omega

theorem Rounds.skip_eq (h : Rounds n cs stop) : skip cs = skip stop := by
  induction h with
  | zero cs => rfl
  | cons hr _ ih => exact (skip_of_some hr).trans ih

theorem exists_rounds_end (cs : List Char) :
    ∃ n stop, Rounds n cs stop ∧ afterItem? (trimStart stop) = none := by
  induction hl : cs.length using Nat.strongRecOn generalizing cs with
  | ind l ih =>
    cases hr : afterItem? (trimStart cs) with
    | none => exact ⟨0, cs, .zero cs, hr⟩
    | some rest =>
      obtain ⟨n, stop, hrounds, hend⟩ := ih rest.length (hl ▸ length_lt_of_round hr) rest rfl
      exact ⟨n + 1, stop, .cons hr hrounds, hend⟩

theorem afterItem?_lineComment {body : List Char} (line : '\n' ∉ body)
    (plain : ∀ c ∈ body.head?, c ∉ ['\x7b', '*']) (cs : List Char) :
    afterItem? (['%', '%'] ++ (body ++ '\n' :: cs)) = some ('\n' :: cs) := by
  have hopen : afterClosed? (['%', '%'] ++ (body ++ '\n' :: cs)) = none := by
    cases body with
    | nil => rfl
    | cons c body =>
      have hc := plain c rfl
      simp only [List.mem_cons, List.not_mem_nil, or_false, not_or] at hc
      simp [afterClosed?, startsWith, after?, Ne.symm hc.1, Ne.symm hc.2]
  have hbody : ∀ c ∈ body, decide (c ≠ '\n') = true :=
    fun c hc ↦ decide_eq_true fun he ↦ line (he ▸ hc)
  have hdrop : (body ++ '\n' :: cs).dropWhile (· ≠ '\n') = '\n' :: cs :=
    List.dropWhile_append_of_pos hbody
  rw [afterItem?_line hopen, hdrop]

theorem afterItem?_blockComment {body : List Char} (closed : ¬['*', '%', '%'] <:+: body)
    (opened : ¬['%', '%'] <+: body) (cs : List Char) :
    afterItem? (['%', '%', '*'] ++ (body ++ ['*', '%', '%'] ++ cs)) = some cs := by
  have hopen : after? ['%', '%'] (body ++ ['*', '%', '%'] ++ cs) = none := by
    by_contra hsome
    obtain ⟨r, hr⟩ := Option.ne_none_iff_exists'.1 hsome
    obtain ⟨x, hx, -⟩ := exists_of_marks_append (Text.after?_eq_some_iff.1 hr)
    exact opened ⟨x, hx.symm⟩
  have hclosed := afterClosed?_block (Text.cut?_append_mark (by decide) closed cs)
  rw [hopen] at hclosed
  exact afterItem?_of_closed hclosed

theorem afterItem?_directive {body : List Char} (closed : ¬['\x7d', '%', '%'] <:+: body)
    (cs : List Char) :
    afterItem? (['%', '%', '\x7b'] ++ (body ++ ['\x7d', '%', '%'] ++ cs)) = some cs :=
  afterItem?_of_closed (afterClosed?_directive (Text.cut?_append_mark (by decide) closed cs))

theorem skip_item (i : Item) (cs : List Char) : skip (i.text ++ cs) = skip cs := by
  have hmark (cs : List Char) : trimStart ('%' :: cs) = '%' :: cs :=
    Text.trimStart_cons (by decide) cs
  cases i with
  | blanks w blank => exact skip_append_of_blank blank cs
  | lineComment body line plain =>
    have hround := afterItem?_lineComment line plain cs
    calc skip (Item.text (.lineComment body line plain) ++ cs)
      _ = skip (['%', '%'] ++ (body ++ '\n' :: cs)) := by simp [Item.text]
      _ = skip ('\n' :: cs) := skip_of_some ((congrArg afterItem? (hmark _)).trans hround)
      _ = skip cs := @skip_append_of_blank ['\n'] (by simp [isBlank]) cs
  | blockComment body closed opened =>
    have hround := afterItem?_blockComment closed opened cs
    calc skip (Item.text (.blockComment body closed opened) ++ cs)
      _ = skip (['%', '%', '*'] ++ (body ++ ['*', '%', '%'] ++ cs)) := by simp [Item.text]
      _ = skip cs := skip_of_some ((congrArg afterItem? (hmark _)).trans hround)
  | directive body closed =>
    have hround := afterItem?_directive closed cs
    calc skip (Item.text (.directive body closed) ++ cs)
      _ = skip (['%', '%', '\x7b'] ++ (body ++ ['\x7d', '%', '%'] ++ cs)) := by simp [Item.text]
      _ = skip cs := skip_of_some ((congrArg afterItem? (hmark _)).trans hround)

theorem skip_items (items : List Item) (cs : List Char) :
    skip (items.flatMap Item.text ++ cs) = skip cs := by
  induction items with
  | nil => rfl
  | cons i items ih => rw [List.flatMap_cons, List.append_assoc, skip_item, ih]

end Preamble

open Preamble (Item Rounds)

/-- Detection finds in a text what it finds with any preamble before it. It goes on for no more
rounds than the text has characters, and so comes to where no item is left. -/
theorem Kind.ofText?_items (items : List Item) (text : String) :
    Kind.ofText? (String.ofList (items.flatMap Item.text) ++ text) = Kind.ofText? text ∧
    (∀ n stop, Rounds n text.toList stop → n ≤ text.toList.length) ∧
    ∃ n stop, Rounds n text.toList stop ∧ Preamble.afterItem? (trimStart stop) = none ∧
      Preamble.skip text.toList = trimStart stop := by
  refine ⟨?_, fun n stop h ↦ Nat.le_of_add_right_le h.add_length_le, ?_⟩
  · simp only [ofText?, String.toList_append, String.toList_ofList, Preamble.skip_items]
  · obtain ⟨n, stop, hrounds, hend⟩ := Preamble.exists_rounds_end text.toList
    exact ⟨n, stop, hrounds, hend, by rw [hrounds.skip_eq, Preamble.skip_of_none hend]⟩

def Preamble.themed : List Item :=
  [.blanks "\n  ".toList (List.all_eq_true.1 rfl),
    .directive "init: \x7b\"theme\": \"dark\"\x7d".toList (by decide +kernel),
    .blanks ['\n'] (List.all_eq_true.1 rfl), .lineComment " a comment".toList (by simp) (by simp),
    .blockComment " block\n ".toList (by decide +kernel) (by simp),
    .blanks "\n\t".toList (List.all_eq_true.1 rfl)]

theorem Kind.ofText?_items_themed :
    Preamble.themed.flatMap Item.text =
      "\n  %%\x7binit: \x7b\"theme\": \"dark\"\x7d\x7d%%\n%% a comment\n%%* block\n *%%\n\t".toList ∧
    Kind.ofText? (String.ofList (Preamble.themed.flatMap Item.text) ++ "timeline\n") =
      some .timeline := by
  have hkind : Kind.ofText? "timeline\n" = some .timeline := by decide +kernel
  exact ⟨rfl, (ofText?_items Preamble.themed "timeline\n").1.trans hkind⟩

end DiagramText
