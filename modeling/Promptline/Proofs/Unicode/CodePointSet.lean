import Promptline.Unicode.CodePointSet

set_option autoImplicit false

/-! # Where sets of code points lie

What a set contains is in one of its ranges (`CodePointSet.exists_range`), so whole stretches of
code points are found to be inside of sets or outside of them by a look at the ranges. -/

namespace Promptline.Unicode

namespace CodePointSet

variable {s t : CodePointSet} {n first last : Nat}

/-- What is found is in a range. -/
theorem exists_range_of_search {ranges : Array (Nat × Nat)} {fuel low high : Nat}
    (h : search ranges n fuel low high = true) :
    ∃ range ∈ ranges.toList, range.1 ≤ n ∧ n ≤ range.2 := by
  induction fuel generalizing low high with
  | zero => cases h
  | succ fuel ih =>
      rw [search] at h
      dsimp only at h
      split at h
      · split at h
        · cases h
        · next first last hrange =>
            split at h
            · exact ih h
            · split at h
              · exact ih h
              · next hfirst hlast =>
                  exact ⟨(first, last), Array.mem_toList_iff.2 (Array.mem_of_getElem? hrange),
                    Nat.not_lt.1 hfirst, Nat.not_lt.1 hlast⟩
      · cases h

theorem exists_range (h : s.contains n = true) :
    ∃ range ∈ s.ranges.toList, range.1 ≤ n ∧ n ≤ range.2 :=
  exists_range_of_search h

/-- A set has nothing in a stretch. -/
def avoids (s : CodePointSet) (first last : Nat) : Bool :=
  s.ranges.toList.all fun range => Nat.blt range.2 first || Nat.blt last range.1

/-- A set lies in some stretches. -/
def liesIn (s : CodePointSet) (stretches : List (Nat × Nat)) : Bool :=
  s.ranges.toList.all fun range =>
    stretches.any fun stretch => Nat.ble stretch.1 range.1 && Nat.ble range.2 stretch.2

/-- Two sets have nothing in common. -/
def isApart (s t : CodePointSet) : Bool :=
  t.ranges.toList.all fun range => s.avoids range.1 range.2

theorem not_contains_of_avoids (h : s.avoids first last = true) (hfirst : first ≤ n)
    (hlast : n ≤ last) : s.contains n = false := by
  rw [Bool.eq_false_iff]
  intro hcontains
  obtain ⟨range, hrange, hlow, hhigh⟩ := exists_range hcontains
  have hout := List.all_eq_true.1 h range hrange
  simp only [Bool.or_eq_true, Nat.blt_eq] at hout
  omega

theorem not_contains_of_isApart (h : s.isApart t = true) (ht : t.contains n = true) :
    s.contains n = false := by
  obtain ⟨range, hrange, hlow, hhigh⟩ := exists_range ht
  exact not_contains_of_avoids (List.all_eq_true.1 h range hrange) hlow hhigh

theorem exists_stretch (stretches : List (Nat × Nat)) (h : s.liesIn stretches = true)
    (hn : s.contains n = true) : ∃ stretch ∈ stretches, stretch.1 ≤ n ∧ n ≤ stretch.2 := by
  obtain ⟨range, hrange, hlow, hhigh⟩ := exists_range hn
  obtain ⟨stretch, hstretch, hin⟩ := List.any_eq_true.1 (List.all_eq_true.1 h range hrange)
  simp only [Bool.and_eq_true, Nat.ble_eq] at hin
  exact ⟨stretch, hstretch, Nat.le_trans hin.1 hlow, Nat.le_trans hhigh hin.2⟩

end CodePointSet

end Promptline.Unicode
