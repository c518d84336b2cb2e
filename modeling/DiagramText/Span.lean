namespace DiagramText

/-- The bytes from `start` up to and without `stop`. -/
structure Span where
  start : Nat
  stop : Nat
  deriving DecidableEq, Repr, Inhabited

namespace Span

def emptyAt (offset : Nat) : Span :=
  ⟨offset, offset⟩

def length (s : Span) : Nat :=
  s.stop - s.start

def isEmpty (s : Span) : Bool :=
  s.start = s.stop

def union (s t : Span) : Span :=
  ⟨min s.start t.start, max s.stop t.stop⟩

def unionAll : List Span → Span
  | [] => emptyAt 0
  | s :: ss => ss.foldl union s

end Span

structure Spanned (α : Type) where
  value : α
  span : Span
  deriving Repr

namespace Spanned

/-- Where a value stands does not tell it apart from another. -/
instance {α : Type} [BEq α] : BEq (Spanned α) :=
  ⟨fun a b ↦ a.value == b.value⟩

def map {α β : Type} (f : α → β) (a : Spanned α) : Spanned β :=
  ⟨f a.value, a.span⟩

@[simp] theorem map_span {α β : Type} (f : α → β) (a : Spanned α) : (a.map f).span = a.span := rfl

end Spanned

end DiagramText
