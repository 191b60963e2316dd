import Lexicon.Decision.Eval
import Lexicon.Decision.Paths
import Mathlib.Data.List.Basic

/-!
# Decisions that read forward

`ReadsFrom position d` says that every offset that `d` reads lies at or behind `position` and behind
all that it has read before. It is the form in which growing offsets are used: it goes along with
the cursor (`readsFrom_of_paths`).

Beside it stand the equations that take a run apart test by test.
-/

namespace Lexicon.Decision

universe u

variable {V : Type u}

/-- Started at a position, the decision only reads forward. -/
inductive ReadsFrom : Nat → Decision V → Prop
  | guard {position : Nat} {check : LengthCheck} {next : Decision V}
      (reads : ReadsFrom position next) : ReadsFrom position (guard check next)
  | spell_nil {position : Nat} {next : Decision V} (reads : ReadsFrom position next) :
      ReadsFrom position (spell [] next)
  | spell_cons {position : Nat} {test : CharTest} {tests : List CharTest} {next : Decision V}
      (le : position ≤ test.offset) (reads : ReadsFrom (test.offset + 1) (spell tests next)) :
      ReadsFrom position (spell (test :: tests) next)
  | dispatch {position offset : Nat} {onEnd : Option V} {cases : List (Char × Decision V)}
      (le : position ≤ offset) (reads : ∀ entry ∈ cases, ReadsFrom (offset + 1) entry.2) :
      ReadsFrom position (dispatch offset onEnd cases)
  | accept (position : Nat) (payload : V) : ReadsFrom position (accept payload)
  | miss (position : Nat) : ReadsFrom position miss

/-! ### From paths -/

/-- The offsets grow, from a position on. -/
def GrowsFrom (position : Nat) (offsets : List Nat) : Prop :=
  (∀ offset ∈ offsets, position ≤ offset) ∧ offsets.Pairwise (· < ·)

theorem growsFrom_cons {position offset : Nat} {offsets : List Nat} :
    GrowsFrom position (offset :: offsets) ↔
      position ≤ offset ∧ GrowsFrom (offset + 1) offsets := by
  simp only [GrowsFrom, List.forall_mem_cons, List.pairwise_cons, Nat.succ_le_iff]
  constructor
  · rintro ⟨⟨hle, -⟩, hlt, hrest⟩
    exact ⟨hle, hlt, hrest⟩
  · rintro ⟨hle, hlt, hrest⟩
    exact ⟨⟨hle, fun o ho => Nat.le_of_lt (Nat.lt_of_le_of_lt hle (hlt o ho))⟩, hlt, hrest⟩

/-- Every decision has a path. -/
theorem exists_isPath (d : Decision V) : ∃ offsets, d.IsPath offsets := by
  induction d using Decision.induction with
  | guard check next ih =>
    obtain ⟨offsets, h⟩ := ih
    exact ⟨offsets, .guard h⟩
  | spell tests next ih =>
    obtain ⟨offsets, h⟩ := ih
    exact ⟨_, .spell h⟩
  | dispatch offset onEnd cases ih => exact ⟨_, .ends offset onEnd cases⟩
  | accept payload => exact ⟨_, .accept payload⟩
  | miss => exact ⟨_, .miss⟩

/-- A path behind all but the first test of a run is one behind the run. -/
theorem IsPath.cons_test {tests : List CharTest} {next : Decision V} {offsets : List Nat}
    (h : (Decision.spell tests next).IsPath offsets) (test : CharTest) :
    (Decision.spell (test :: tests) next).IsPath (test.offset :: offsets) := by
  obtain ⟨rest, hrest, rfl⟩ := isPath_spell.1 h
  exact .spell hrest

/-- A run reads forward if what is behind it does from where its tests end. -/
private theorem readsFrom_spell {next : Decision V}
    (hnext : ∀ position, (∀ offsets, next.IsPath offsets → GrowsFrom position offsets) →
      ReadsFrom position next) (tests : List CharTest) {position : Nat}
    (h : ∀ offsets, (spell tests next).IsPath offsets → GrowsFrom position offsets) :
    ReadsFrom position (spell tests next) := by
  induction tests generalizing position with
  | nil => exact .spell_nil (hnext position fun offsets hpath => h offsets (.spell hpath))
  | cons test tests ih =>
    -- some path leads on, and the first test comes before all of it
    obtain ⟨offsets, hpath⟩ := exists_isPath (spell tests next)
    refine .spell_cons (growsFrom_cons.1 (h _ (hpath.cons_test test))).1 (ih ?_)
    intro offsets hpath
    exact (growsFrom_cons.1 (h _ (hpath.cons_test test))).2

/-- A decision reads forward if its offsets grow along every path. -/
theorem readsFrom_of_growsFrom {position : Nat} {d : Decision V}
    (h : ∀ offsets, d.IsPath offsets → GrowsFrom position offsets) : ReadsFrom position d := by
  induction d using Decision.induction generalizing position with
  | guard check next ih => exact .guard (ih fun offsets hpath => h offsets (.guard hpath))
  | spell tests next ih => exact readsFrom_spell (fun position => ih) tests h
  | dispatch offset onEnd cases ih =>
    refine .dispatch (growsFrom_cons.1 (h _ (.ends offset onEnd cases))).1 ?_
    intro entry hentry
    exact ih entry hentry fun offsets hpath => (growsFrom_cons.1 (h _ (.goesOn hentry hpath))).2
  | accept payload => exact .accept position payload
  | miss => exact .miss position

theorem WellFormed.readsFrom_zero {d : Decision V} (h : d.WellFormed) : ReadsFrom 0 d :=
  readsFrom_of_growsFrom fun offsets hpath =>
    ⟨fun _ _ => Nat.zero_le _, h.offsets_ascending offsets hpath⟩

/-! ### Test by test -/

theorem run_spell_nil (fold : CaseFold) (length : Nat) (next : Decision V) (cursor : Cursor) :
    (spell [] next).run fold length cursor = next.run fold length cursor := by
  rw [run, Cursor.passAll]

/-- A run reads the character of its first test, and goes on behind it if the test passes. -/
theorem run_spell_cons (fold : CaseFold) (length : Nat) (test : CharTest) (tests : List CharTest)
    (next : Decision V) (cursor : Cursor) :
    (spell (test :: tests) next).run fold length cursor =
      (cursor.read test.offset).bind fun read =>
        if fold.apply read.1 = test.char then (spell tests next).run fold length read.2
        else none := by
  rw [run, Cursor.passAll]
  cases cursor.read test.offset with
  | none => rfl
  | some read =>
    dsimp only [Option.bind_some]
    by_cases hc : fold.apply read.1 = test.char
    · rw [if_pos hc, if_pos hc, run]
    · rw [if_neg hc, if_neg hc]

end Lexicon.Decision
