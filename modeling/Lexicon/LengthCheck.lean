import Lexicon.LengthRange

/-!
# Checks of the input length

A check compares the length of the whole input with one or two bounds. `narrowing previous current`
is the check that leads from what is already known about the length to what is needed: it names
only the bounds that differ, and is absent where none does. `admits_narrowing_iff_allows` says that
after it exactly the lengths that the narrower range allows are left.
-/

namespace Lexicon

/-- A test of the length of an input. -/
inductive LengthCheck where
  /-- The length is `n`. -/
  | exact (n : Nat)
  /-- The length is at least `n`. -/
  | min (n : Nat)
  /-- The length is at most `n`. -/
  | max (n : Nat)
  /-- The length lies between the two bounds, both included. -/
  | range (lo hi : Nat)
deriving DecidableEq

namespace LengthCheck

/-- Whether an input of this length passes. -/
def admits (check : LengthCheck) (length : Nat) : Bool :=
  match check with
  | exact n => length = n
  | min n => n ≤ length
  | max n => length ≤ n
  | range lo hi => lo ≤ length && length ≤ hi

/-- The check as text. -/
def text : LengthCheck → String
  | exact n => s!"len == {n}"
  | min n => s!"len >= {n}"
  | max n => s!"len <= {n}"
  | range lo hi => s!"len in {lo}..={hi}"

/-- The check that narrows `previous` to `current`: a single length is asked for by itself, else
the bounds that differ are. -/
def narrowing (previous current : LengthRange) : Option LengthCheck :=
  if previous = current then none
  else if current.isExact then some (exact current.min)
  else if current.min ≠ previous.min then
    if current.max ≠ previous.max then some (range current.min current.max)
    else some (min current.min)
  else if current.max ≠ previous.max then some (max current.max)
  else none

/-- Whether a length passes a check that may be absent. -/
def admitsAll (check : Option LengthCheck) (length : Nat) : Bool :=
  check.all (·.admits length)

@[simp] theorem narrowing_self (r : LengthRange) : narrowing r r = none := by
  simp [narrowing]

/-- Of the lengths that are possible before it, the narrowing check admits those that the narrower
range allows. The narrower range must not gain a bound at the limit. -/
theorem admits_narrowing_iff_allows {previous current : LengthRange} {length : Nat}
    (h : previous.Allows length) (hmin : current.min < LengthRange.limit)
    (hmax : current.max = previous.max ∨ current.max < LengthRange.limit) :
    admitsAll (narrowing previous current) length ↔ current.Allows length := by
  obtain ⟨plo, phi⟩ := previous
  obtain ⟨lo, hi⟩ := current
  simp only [LengthRange.Allows] at h hmin hmax ⊢
  simp only [narrowing, LengthRange.isExact, LengthRange.mk.injEq, decide_eq_true_eq]
  repeat' split
  all_goals simp_all [admitsAll, admits]
  all_goals omega

end LengthCheck

end Lexicon
