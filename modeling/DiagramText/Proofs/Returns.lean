import DiagramText.Text.Basic
import DiagramText.Text.Blank
import Mathlib.Data.List.Induction
import Mathlib.Data.List.TakeWhile

namespace DiagramText.Text

def withReturns (cs : List Char) : List Char :=
  cs.flatMap fun c ↦ if c = '\n' then ['\r', '\n'] else [c]

variable {cs mark : List Char} {p : Char → Bool}

@[simp] theorem withReturns_nil : withReturns [] = [] := rfl

@[simp] theorem withReturns_feed (cs : List Char) :
    withReturns ('\n' :: cs) = '\r' :: '\n' :: withReturns cs := rfl

theorem withReturns_cons {c : Char} (h : c ≠ '\n') (cs : List Char) :
    withReturns (c :: cs) = c :: withReturns cs := by
  simp [withReturns, h]

@[simp] theorem withReturns_append (as bs : List Char) :
    withReturns (as ++ bs) = withReturns as ++ withReturns bs :=
  List.flatMap_append

theorem withReturns_of_not_mem (h : '\n' ∉ cs) : withReturns cs = cs := by
  induction cs with
  | nil => rfl
  | cons c cs ih =>
    obtain ⟨hc, hcs⟩ := not_or.1 (mt List.mem_cons.2 h)
    rw [withReturns_cons (Ne.symm hc), ih hcs]

theorem isEmpty_withReturns (cs : List Char) : (withReturns cs).isEmpty = cs.isEmpty := by
  cases cs with
  | nil => rfl
  | cons c cs =>
    by_cases hc : c = '\n'
    · rw [hc]
      rfl
    · rw [withReturns_cons hc]
      rfl

theorem all_withReturns (h : p '\r' = p '\n') (cs : List Char) :
    (withReturns cs).all p = cs.all p := by
  induction cs with
  | nil => rfl
  | cons c cs ih =>
    by_cases hc : c = '\n'
    · simp [hc, ih, h]
    · simp [withReturns_cons hc, ih]

theorem any_head?_withReturns (h : p '\r' = p '\n') (cs : List Char) :
    (withReturns cs).head?.any p = cs.head?.any p := by
  cases cs with
  | nil => rfl
  | cons c cs =>
    by_cases hc : c = '\n'
    · simp [hc, h]
    · simp [withReturns_cons hc]

theorem all_head?_withReturns (h : p '\r' = p '\n') (cs : List Char) :
    (withReturns cs).head?.all p = cs.head?.all p := by
  cases cs with
  | nil => rfl
  | cons c cs =>
    by_cases hc : c = '\n'
    · simp [hc, h]
    · simp [withReturns_cons hc]

theorem takeWhile_withReturns (h : p '\r' = p '\n') (cs : List Char) :
    (withReturns cs).takeWhile p = withReturns (cs.takeWhile p) := by
  induction cs with
  | nil => rfl
  | cons c cs ih =>
    by_cases hc : c = '\n'
    · cases hn : p '\n' <;> simp [hc, h, hn, ih]
    · cases hp : p c <;> simp [withReturns_cons hc, hp, ih]

theorem dropWhile_withReturns (h : p '\r' = p '\n') (cs : List Char) :
    (withReturns cs).dropWhile p = withReturns (cs.dropWhile p) := by
  induction cs with
  | nil => rfl
  | cons c cs ih =>
    by_cases hc : c = '\n'
    · cases hn : p '\n' <;> simp [hc, h, hn, ih]
    · cases hp : p c <;> simp [withReturns_cons hc, hp, ih]

theorem takeWhile_withReturns_of_neg (hr : p '\r' = false) (hn : p '\n' = false) (cs : List Char) :
    (withReturns cs).takeWhile p = cs.takeWhile p := by
  rw [takeWhile_withReturns (hr.trans hn.symm), withReturns_of_not_mem]
  intro h
  rw [List.mem_takeWhile_imp h] at hn
  cases hn

theorem dropWhileEnd_withReturns (hn : p '\n' = false) (cs : List Char) :
    dropWhileEnd p (withReturns cs) = withReturns (dropWhileEnd p cs) := by
  have hconcat (as : List Char) (a : Char) :
      dropWhileEnd p (as ++ [a]) = if p a = true then dropWhileEnd p as else as ++ [a] := by
    cases ha : p a <;> simp [dropWhileEnd, ha]
  induction cs using List.reverseRecOn with
  | nil => rfl
  | append_singleton as a ih =>
    by_cases ha : a = '\n'
    · have hfeed : withReturns (as ++ [a]) = withReturns as ++ ['\r'] ++ ['\n'] := by simp [ha]
      have hkeep (bs : List Char) : dropWhileEnd p (bs ++ ['\n']) = bs ++ ['\n'] := by
        rw [hconcat, hn, if_neg Bool.false_ne_true]
      rw [hfeed, hkeep, ha, hkeep, ← hfeed, ha]
    · have hsame : withReturns [a] = [a] := withReturns_cons ha []
      rw [withReturns_append, hsame, hconcat, hconcat, ih]
      cases p a <;> simp [hsame]

theorem after?_withReturns (hr : '\r' ∉ mark) (hn : '\n' ∉ mark) (cs : List Char) :
    after? mark (withReturns cs) = (after? mark cs).map withReturns := by
  induction mark generalizing cs with
  | nil => rfl
  | cons m ms ih =>
    obtain ⟨hrm, hrms⟩ := not_or.1 (mt List.mem_cons.2 hr)
    obtain ⟨hnm, hnms⟩ := not_or.1 (mt List.mem_cons.2 hn)
    cases cs with
    | nil => rfl
    | cons c cs =>
      by_cases hc : c = '\n'
      · simp [hc, after?, Ne.symm hrm, Ne.symm hnm]
      · rw [withReturns_cons hc, after?, after?]
        split
        · exact ih hrms hnms cs
        · rfl

theorem startsWith_withReturns (hr : '\r' ∉ mark) (hn : '\n' ∉ mark) (cs : List Char) :
    startsWith mark (withReturns cs) = startsWith mark cs := by
  rw [startsWith, startsWith, after?_withReturns hr hn, Option.isSome_map]

theorem cut?_withReturns (hm : mark ≠ []) (hr : '\r' ∉ mark) (hn : '\n' ∉ mark) (cs : List Char) :
    cut? mark (withReturns cs) =
      (cut? mark cs).map fun (before, rest) ↦ (withReturns before, withReturns rest) := by
  obtain ⟨m, ms, rfl⟩ := List.exists_cons_of_ne_nil hm
  induction cs with
  | nil => rfl
  | cons c cs ih =>
    by_cases hc : c = '\n'
    · -- the mark begins with neither character of the line end
      have hrm : m ≠ '\r' := fun h ↦ hr (h ▸ List.mem_cons_self)
      have hnm : m ≠ '\n' := fun h ↦ hn (h ▸ List.mem_cons_self)
      rw [hc, withReturns_feed]
      simp only [cut?, after?, hrm, hnm, if_false, ih]
      cases cut? (m :: ms) cs <;> rfl
    · have ha := after?_withReturns hr hn (c :: cs)
      rw [withReturns_cons hc] at ha ⊢
      rw [cut?, cut?, ha]
      cases after? (m :: ms) (c :: cs) with
      | some rest => rfl
      | none =>
        simp only [Option.map_none, ih]
        cases cut? (m :: ms) cs with
        | none => rfl
        | some cut => simp [withReturns_cons hc]

theorem lines_withReturns (h : '\r' ∉ cs) : lines (withReturns cs) = lines cs := by
  induction cs with
  | nil => rfl
  | cons c cs ih =>
    obtain ⟨hr, hcs⟩ := not_or.1 (mt List.mem_cons.2 h)
    by_cases hc : c = '\n'
    · rw [hc, withReturns_feed, lines, lines, ih hcs]
    · rw [withReturns_cons hc]
      have hreturn : c ≠ '\r' := fun h ↦ hr h.symm
      have hline {ds es : List Char} (h : lines ds = lines es) :
          lines (c :: ds) = lines (c :: es) := by
        simp [lines, hreturn, h]
      exact hline (ih hcs)

end DiagramText.Text
