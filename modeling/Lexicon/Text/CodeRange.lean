/-!
# Code point ranges

A property of characters is held as an ascending list of ranges of code points. A lookup stops at
the first range that lies above the code point; since a `CodeTable` is ascending, nothing is lost by
stopping early (`CodeTable.contains_eq_any`).
-/

namespace Lexicon.Text

/-- The code points from `first` to `last`, both included. -/
structure CodeRange where
  first : Nat
  last : Nat
deriving DecidableEq

namespace CodeRange

/-- Whether the code point lies in the range. -/
def contains (r : CodeRange) (code : Nat) : Bool :=
  r.first ≤ code && code ≤ r.last

/-- Whether some range of an ascending list contains the code point. -/
def covers : List CodeRange → Nat → Bool
  | [], _ => false
  | r :: rest, code =>
    if code < r.first then false else if code ≤ r.last then true else covers rest code

/-- Each range is in order and ends before the next one begins. -/
def isAscending : List CodeRange → Bool
  | [] => true
  | [r] => r.first ≤ r.last
  | r :: s :: rest => r.first ≤ r.last && r.last < s.first && isAscending (s :: rest)

/-- On an ascending list every range after one that lies above a code point lies above it too. -/
private theorem any_contains_of_lt {r : CodeRange} {rest : List CodeRange} {code : Nat}
    (h : isAscending (r :: rest)) (hlt : code < r.first) :
    (r :: rest).any (·.contains code) = false := by
  induction rest generalizing r with
  | nil => simp [contains]; omega
  | cons s rest ih =>
    simp only [isAscending, Bool.and_eq_true, decide_eq_true_eq] at h
    rw [List.any_cons, ih h.2 (by omega), Bool.or_false]
    simp [contains]; omega

/-- On an ascending list `covers` asks every range. -/
theorem covers_eq_any {rs : List CodeRange} (h : isAscending rs) (code : Nat) :
    covers rs code = rs.any (·.contains code) := by
  induction rs with
  | nil => rfl
  | cons r rest ih =>
    have hrest : isAscending rest := by
      cases rest with
      | nil => rfl
      | cons s rest => simp only [isAscending, Bool.and_eq_true] at h; exact h.2
    rw [covers]
    split
    · rename_i hlt
      exact (any_contains_of_lt h hlt).symm
    · rename_i hge
      split
      · rename_i hle
        simp [contains, hle]; omega
      · rename_i hgt
        rw [ih hrest, List.any_cons]
        simp [contains, hgt]

end CodeRange

/-- A set of code points, held as ranges in ascending order. -/
structure CodeTable where
  ranges : List CodeRange
  ascending : CodeRange.isAscending ranges

namespace CodeTable

/-- Whether the code point is in the set. -/
def contains (t : CodeTable) (code : Nat) : Bool :=
  CodeRange.covers t.ranges code

/-- A table contains what some range of it contains. -/
theorem contains_eq_any (t : CodeTable) (code : Nat) :
    t.contains code = t.ranges.any (·.contains code) :=
  CodeRange.covers_eq_any t.ascending code

end CodeTable

end Lexicon.Text
