import Lexicon.Decision.Preorder

/-!
# Paths through a decision

A path goes from the root of a decision to the end of some evaluation. What matters of it are the
offsets at which the input is read, in order. A branch may be the last thing on a path: the input
may end there, or go on with a character without a case.

`WellFormed` collects what evaluation relies on beyond the type of decisions. Reading only goes
forward, so offsets grow; a run tests something; and the case of a character is found by bisection,
so the cases are in order.
-/

namespace Lexicon.Decision

universe u

variable {V : Type u}

/-- The offsets are those read on some path from the root to an end. -/
inductive IsPath : Decision V → List Nat → Prop
  | guard {check : LengthCheck} {next : Decision V} {offsets : List Nat}
      (path : next.IsPath offsets) : (guard check next).IsPath offsets
  | spell {tests : List CharTest} {next : Decision V} {offsets : List Nat}
      (path : next.IsPath offsets) :
      (spell tests next).IsPath (tests.map CharTest.offset ++ offsets)
  | ends (offset : Nat) (onEnd : Option V) (cases : List (Char × Decision V)) :
      (dispatch offset onEnd cases).IsPath [offset]
  | goesOn {offset : Nat} {onEnd : Option V} {cases : List (Char × Decision V)}
      {entry : Char × Decision V} {offsets : List Nat} (mem : entry ∈ cases)
      (path : entry.2.IsPath offsets) : (dispatch offset onEnd cases).IsPath (offset :: offsets)
  | accept (payload : V) : (accept payload).IsPath []
  | miss : (miss : Decision V).IsPath []

section

variable {offsets : List Nat}

@[simp] theorem isPath_guard {check : LengthCheck} {next : Decision V} :
    (guard check next).IsPath offsets ↔ next.IsPath offsets :=
  ⟨fun | .guard h => h, .guard⟩

theorem isPath_spell {tests : List CharTest} {next : Decision V} :
    (spell tests next).IsPath offsets ↔
      ∃ rest, next.IsPath rest ∧ offsets = tests.map CharTest.offset ++ rest := by
  constructor
  · rintro (_ | h)
    exact ⟨_, h, rfl⟩
  · rintro ⟨rest, h, rfl⟩
    exact .spell h

theorem isPath_dispatch {offset : Nat} {onEnd : Option V} {cases : List (Char × Decision V)} :
    (dispatch offset onEnd cases).IsPath offsets ↔
      offsets = [offset] ∨
        ∃ entry ∈ cases, ∃ rest, entry.2.IsPath rest ∧ offsets = offset :: rest := by
  constructor
  · rintro (_ | _ | _ | ⟨hentry, h⟩)
    · exact .inl rfl
    · exact .inr ⟨_, hentry, _, h, rfl⟩
  · rintro (rfl | ⟨entry, hentry, rest, h, rfl⟩)
    · exact .ends offset onEnd cases
    · exact .goesOn hentry h

@[simp] theorem isPath_accept {payload : V} : (accept payload).IsPath offsets ↔ offsets = [] :=
  ⟨fun | .accept _ => rfl, fun h => h ▸ .accept payload⟩

@[simp] theorem isPath_miss : (miss : Decision V).IsPath offsets ↔ offsets = [] :=
  ⟨fun | .miss => rfl, fun h => h ▸ .miss⟩

@[simp] theorem isPath_guarded {check : Option LengthCheck} {next : Decision V} :
    (guarded check next).IsPath offsets ↔ next.IsPath offsets := by
  cases check with
  | none => exact Iff.rfl
  | some check => exact isPath_guard

@[simp] theorem isPath_ofPayload {payload : Option V} :
    (ofPayload payload).IsPath offsets ↔ offsets = [] := by
  cases payload with
  | none => exact isPath_miss
  | some v => exact isPath_accept

end

/-- A decision that evaluation can follow without going back or missing a case. -/
structure WellFormed (d : Decision V) : Prop where
  /-- Along every path the offsets grow. -/
  offsets_ascending : ∀ offsets, d.IsPath offsets → offsets.Pairwise (· < ·)
  /-- No run is empty. -/
  tests_ne_nil : ∀ tests, .spell tests ∈ d.heads → tests ≠ []
  /-- The cases of a branch are in the order of their characters, each with one case. -/
  chars_ascending : ∀ offset onEnd chars, .dispatch offset onEnd chars ∈ d.heads →
    chars.Pairwise (· < ·)

end Lexicon.Decision
