namespace DiagramText.Unicode

/-- Ranges of code points, first and last ones included, in increasing order. -/
abbrev Ranges := Array (Nat × Nat)

namespace Ranges

def search (rs : Ranges) (n low high : Nat) : Bool :=
  if low < high then
    let mid := (low + high) / 2
    match rs[mid]? with
    | none => false
    | some (first, last) =>
      if n < first then rs.search n low mid
      else if last < n then rs.search n (mid + 1) high
      else true
  else false
termination_by high - low

def contains (rs : Ranges) (c : Char) : Bool :=
  rs.search c.toNat 0 rs.size

end Ranges

end DiagramText.Unicode
