import Lexicon.Decision.Eval
import Mathlib.Data.List.Basic

/-!
# The cursor as a reader of offsets

A cursor that stands at an offset of an input reads every offset from there on as random access
does (`read_cursorAt`). A run of consecutive tests from there passes exactly if the folded input
goes on with the characters of the tests (`passAll_consecutive`).
-/

namespace Lexicon

/-- The cursor of an input in front of the character at an offset. -/
def cursorAt (cs : List Char) (position : Nat) : Cursor :=
  ⟨cs.drop position, position⟩

theorem start_eq_cursorAt (cs : List Char) : Cursor.start cs = cursorAt cs 0 := rfl

/-- What has not been passed is read where it is. -/
theorem read_cursorAt {cs : List Char} {position offset : Nat} (h : position ≤ offset) :
    (cursorAt cs position).read offset =
      cs[offset]?.map fun c => (c, cursorAt cs (offset + 1)) := by
  have hdrop : (cs.drop position).drop (offset - position) = cs.drop offset := by
    rw [List.drop_drop]
    congr 1
    omega
  rw [Cursor.read, cursorAt, if_neg (by change ¬ offset < position; omega), hdrop]
  by_cases hlt : offset < cs.length
  · rw [List.drop_eq_getElem_cons hlt, List.getElem?_eq_getElem hlt]
    rfl
  · rw [List.drop_eq_nil_of_le (by omega), List.getElem?_eq_none (by omega)]
    rfl

/-- Consecutive tests pass if the folded input goes on with their characters. -/
theorem passAll_consecutive (fold : CaseFold) (cs : List Char) (position : Nat)
    (chars : List Char) :
    (cursorAt cs position).passAll fold (CharTest.consecutive position chars) =
      if chars <+: (cs.drop position).map fold.apply then
        some (cursorAt cs (position + chars.length)) else none := by
  induction chars generalizing position with
  | nil => simp [CharTest.consecutive, Cursor.passAll]
  | cons c rest ih =>
    rw [CharTest.consecutive, Cursor.passAll, read_cursorAt (Nat.le_refl position)]
    by_cases hlt : position < cs.length
    · rw [List.getElem?_eq_getElem hlt, List.drop_eq_getElem_cons hlt, List.map_cons,
        Option.map_some]
      dsimp only
      rw [ih, List.length_cons, Nat.add_assoc, Nat.add_comm 1]
      simp only [List.cons_prefix_cons]
      by_cases hc : fold.apply cs[position] = c
      · simp [hc]
      · simp [hc, Ne.symm hc]
    · rw [List.getElem?_eq_none (by omega), List.drop_eq_nil_of_le (by omega)]
      simp

end Lexicon
