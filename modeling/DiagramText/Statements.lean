import DiagramText.Production

namespace DiagramText

def afterLine (ts : List Token) : List Token :=
  (ts.dropWhile fun t ↦ !t.isNewline).drop 1

theorem length_afterLine_lt (t : Token) (ts : List Token) :
    (afterLine (t :: ts)).length < (t :: ts).length := by
  have h := (List.dropWhile_suffix (l := t :: ts) fun t ↦ !t.isNewline).length_le
  simp only [afterLine, List.length_drop]
  simp only [List.length_cons] at h ⊢
  omega

/-- What each statement of a list of tokens yields, in order. After one that cannot be read, reading
goes on behind the next line end. A statement that takes no token would be read for ever, so it is
the last one. -/
def statements {α : Type} (statement : Production α) (textEnd : Nat) (ts : List Token) :
    List (Except Fault α) :=
  match h : ts.dropWhile Token.isNewline with
  | [] => []
  | u :: us =>
    have : (u :: us).length ≤ ts.length := h ▸ (List.dropWhile_suffix _).length_le
    match statement (u :: us) with
    | .accepted a rest =>
      if rest.length < (u :: us).length then .ok a :: statements statement textEnd rest
      else [.ok a]
    | .refused why rest =>
      have := length_afterLine_lt u us
      .error (why.fault textEnd rest) :: statements statement textEnd (afterLine (u :: us))
termination_by ts.length

def itemsOf {α : Type} (results : List (Except Fault α)) : List α :=
  results.filterMap fun r ↦
    match r with
    | .ok a => some a
    | .error _ => none

def faultsOf {α : Type} (results : List (Except Fault α)) : List Fault :=
  results.filterMap fun r ↦
    match r with
    | .ok _ => none
    | .error f => some f

end DiagramText
