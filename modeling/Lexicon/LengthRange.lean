/-!
# Ranges of input lengths

The lengths of input, in characters, for which a label can still match, as inclusive bounds. The
bounds are those of the whole input, not of the part that is still to be read.

Lengths are counted up to `LengthRange.limit`, the largest number of 64 bits. A range whose upper
bound is the limit has no upper bound: its text is open to the right, and counting stops there.
-/

namespace Lexicon

/-- Inclusive bounds on the length of an input. -/
structure LengthRange where
  min : Nat
  max : Nat
deriving DecidableEq

namespace LengthRange

/-- The largest length that is counted. -/
def limit : Nat := 0xffffffffffffffff

/-- The length after this one; there is none after the limit. -/
def succ (length : Nat) : Nat :=
  if length < limit then length + 1 else length

/-- Nothing is known about the length. -/
def unconstrained : LengthRange := ⟨0, limit⟩

/-- The range of a single length. -/
def exact (length : Nat) : LengthRange := ⟨length, length⟩

/-- Whether the range is that of a single length. -/
def isExact (r : LengthRange) : Bool :=
  r.min = r.max

/-- Both bounds one character further. -/
def deeper (r : LengthRange) : LengthRange :=
  ⟨succ r.min, succ r.max⟩

/-- The smallest range that covers both. -/
def union (r s : LengthRange) : LengthRange :=
  ⟨Nat.min r.min s.min, Nat.max r.max s.max⟩

/-- The range with its lower bound raised to at least `length`. -/
def atLeast (r : LengthRange) (length : Nat) : LengthRange :=
  ⟨Nat.max r.min length, r.max⟩

/-- The range with its lower bound replaced. -/
def withMin (r : LengthRange) (length : Nat) : LengthRange :=
  ⟨length, r.max⟩

/-- The bounds as text, open to the right where there is no upper bound. -/
def text (r : LengthRange) : String :=
  if r.max = limit then s!"{r.min}.." else s!"{r.min}..={r.max}"

/-- Whether an input of this length is possible where the range is all that is known of it. An upper
bound at the limit is no bound. -/
def Allows (r : LengthRange) (length : Nat) : Prop :=
  r.min ≤ length ∧ (length ≤ r.max ∨ limit ≤ r.max)

instance (r : LengthRange) (length : Nat) : Decidable (r.Allows length) :=
  inferInstanceAs (Decidable (_ ∧ _))

theorem allows_unconstrained (length : Nat) : unconstrained.Allows length :=
  ⟨Nat.zero_le _, .inr (Nat.le_refl _)⟩

theorem allows_exact {length n : Nat} (hn : n < limit) : (exact n).Allows length ↔ length = n := by
  simp only [Allows, exact]
  omega

theorem allows_atLeast {length n : Nat} {r : LengthRange} :
    (r.atLeast n).Allows length ↔ r.Allows length ∧ n ≤ length := by
  simp only [Allows, atLeast, Nat.max_def]
  split <;> omega

end LengthRange

end Lexicon
