import Lexicon.LengthCheck

/-!
# Checks that narrow what is known

`needed.Within known` says that of the lengths in `known` some are left in `needed`, and no others
come in. The check that narrows `known` to `needed` then leaves exactly those (`Within.allows_iff`),
and where it is written at all it rejects a length that was possible before
(`Within.exists_rejected`) and admits another (`Within.exists_admitted`).
-/

namespace Lexicon

open LengthCheck (narrowing admitsAll admits_narrowing_iff_allows)
open LengthRange (limit)

namespace LengthCheck

/-- The numbers that the check compares the length with. -/
def bounds : LengthCheck → List Nat
  | exact n => [n]
  | min n => [n]
  | max n => [n]
  | range lo hi => [lo, hi]

/-- Only what is known already needs no check. -/
theorem narrowing_eq_none_iff {known needed : LengthRange} :
    narrowing known needed = none ↔ known = needed := by
  constructor
  · intro h
    obtain ⟨klo, khi⟩ := known
    obtain ⟨lo, hi⟩ := needed
    simp only [narrowing] at h
    repeat' split at h
    all_goals simp_all
  · rintro rfl
    exact narrowing_self known

/-- A check that narrows compares with bounds of the narrower range, and with the upper one only if
it is new. -/
theorem eq_of_mem_bounds_narrowing {known needed : LengthRange} {check : LengthCheck}
    (h : narrowing known needed = some check) {bound : Nat} (hbound : bound ∈ check.bounds) :
    bound = needed.min ∨ bound = needed.max ∧ needed.max ≠ known.max := by
  simp only [narrowing] at h
  repeat' split at h
  all_goals simp only [reduceCtorEq, Option.some.injEq] at h
  all_goals subst h
  all_goals simp_all [bounds]

end LengthCheck

namespace LengthRange

/-- `needed` is a part of `known` that is not empty. Its upper bound is the one of `known`, or a
smaller one below the limit. -/
structure Within (needed known : LengthRange) : Prop where
  min_le : known.min ≤ needed.min
  min_le_max : needed.min ≤ needed.max
  min_lt : needed.min < limit
  max_eq_or_lt : needed.max = known.max ∨ needed.max < known.max ∧ needed.max < limit

namespace Within

variable {known needed : LengthRange} {check : LengthCheck} {length : Nat}

/-- A range below the limit lies within another if its bounds do. -/
theorem of_allows (hmin : known.Allows needed.min) (hmax : known.Allows needed.max)
    (hle : needed.min ≤ needed.max) (hlt : needed.max < limit) : needed.Within known where
  min_le := hmin.1
  min_le_max := hle
  min_lt := Nat.lt_of_le_of_lt hle hlt
  max_eq_or_lt := by
    obtain ⟨-, hmax⟩ := hmax
    omega

/-- The lower bound may be raised as long as some length is left. -/
theorem of_atLeast (h : known.Allows length) (hmin : known.min < limit) {n : Nat}
    (hle : n ≤ length) (hlt : n < limit) : (known.atLeast n).Within known where
  min_le := Nat.le_max_left ..
  min_le_max := by
    obtain ⟨hlo, hhi⟩ := h
    refine Nat.max_le.2 ⟨?_, ?_⟩
    · change known.min ≤ known.max
      omega
    · change n ≤ known.max
      omega
  min_lt := Nat.max_lt.2 ⟨hmin, hlt⟩
  max_eq_or_lt := .inl rfl

/-- The narrower range allows what was allowed before and passes the check. -/
theorem allows_iff (h : needed.Within known) :
    needed.Allows length ↔ known.Allows length ∧ admitsAll (narrowing known needed) length := by
  obtain ⟨hmin, -, hlt, hmax⟩ := h
  have hallows : needed.Allows length → known.Allows length := by
    rintro ⟨hlo, hhi⟩
    exact ⟨by omega, by omega⟩
  constructor
  · intro hneeded
    refine ⟨hallows hneeded, ?_⟩
    exact (admits_narrowing_iff_allows (hallows hneeded) hlt (by omega)).2 hneeded
  · rintro ⟨hknown, hadmits⟩
    exact (admits_narrowing_iff_allows hknown hlt (by omega)).1 hadmits

/-- A check that is written rejects a length that was possible. -/
theorem exists_rejected (h : needed.Within known) (hcheck : narrowing known needed = some check) :
    ∃ length ≤ limit, known.Allows length ∧ ¬ check.admits length := by
  have hiff : ∀ length, needed.Allows length ↔ known.Allows length ∧ check.admits length := by
    intro length
    rw [h.allows_iff, hcheck]
    rfl
  obtain ⟨hmin, hle, hlt, hmax⟩ := h
  have hne : known ≠ needed := fun heq => by
    rw [LengthCheck.narrowing_eq_none_iff.2 heq] at hcheck
    simp at hcheck
  by_cases hlo : known.min = needed.min
  · -- the upper bound has come down, and the length just above it is rejected
    have hhi : needed.max < known.max ∧ needed.max < limit := by
      refine hmax.resolve_left fun heq => hne ?_
      cases known
      cases needed
      simp_all
    refine ⟨needed.max + 1, hhi.2, ⟨by omega, .inl hhi.1⟩, fun hadmits => ?_⟩
    obtain ⟨-, habove⟩ := (hiff (needed.max + 1)).2 ⟨⟨by omega, .inl hhi.1⟩, hadmits⟩
    omega
  · -- the lower bound has come up, and the old one is rejected
    have hknown : known.Allows known.min := ⟨Nat.le_refl _, by omega⟩
    refine ⟨known.min, by omega, hknown, fun hadmits => ?_⟩
    obtain ⟨hbelow, -⟩ := (hiff known.min).2 ⟨hknown, hadmits⟩
    omega

/-- A check that is written admits a length that was possible. -/
theorem exists_admitted (h : needed.Within known) (hcheck : narrowing known needed = some check) :
    ∃ length ≤ limit, known.Allows length ∧ check.admits length := by
  have hneeded : needed.Allows needed.min := ⟨Nat.le_refl _, .inl h.min_le_max⟩
  obtain ⟨hknown, hadmits⟩ := h.allows_iff.1 hneeded
  rw [hcheck] at hadmits
  exact ⟨needed.min, Nat.le_of_lt h.min_lt, hknown, hadmits⟩

end Within

end LengthRange

end Lexicon
