set_option autoImplicit false

/-! # Sets of code points

A character property of Unicode is a set of code points. It is stored as closed ranges in
increasing order, so that membership is decided by halving. -/

namespace Promptline.Unicode

/-- A set of code points, given by disjoint closed ranges in increasing order. -/
structure CodePointSet where
  ranges : Array (Nat × Nat)

namespace CodePointSet

/-- Looks for `n` among the ranges with index in `[low, high)`; each step halves that stretch,
    so a fuel above the logarithm of its length never runs out. -/
def search (ranges : Array (Nat × Nat)) (n : Nat) : Nat → Nat → Nat → Bool
  | 0, _, _ => false
  | fuel + 1, low, high =>
    if low < high then
      let middle := (low + high) / 2
      match ranges[middle]? with
      | none => false
      | some (first, last) =>
        if n < first then search ranges n fuel low middle
        else if last < n then search ranges n fuel (middle + 1) high
        else true
    else false

/-- Whether the code point `n` belongs to the set. -/
def contains (s : CodePointSet) (n : Nat) : Bool :=
  search s.ranges n (s.ranges.size.log2 + 2) 0 s.ranges.size

/-- Whether the character `c` belongs to the set. -/
def hasChar (s : CodePointSet) (c : Char) : Bool :=
  s.contains c.toNat

/-- The ranges increase and do not touch, which is what halving needs. -/
def IsSorted (s : CodePointSet) : Prop :=
  s.ranges.toList.Pairwise fun a b => a.1 ≤ a.2 ∧ a.2 < b.1

end CodePointSet

end Promptline.Unicode
