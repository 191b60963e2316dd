import Lexicon.Text.Quoted

/-!
# Tests of single characters
-/

namespace Lexicon

/-- The test that the folded input has a given character at an offset. -/
structure CharTest where
  offset : Nat
  char : Char
deriving DecidableEq

namespace CharTest

/-- The test as text, with the characters that are `alone` written as themselves. -/
def text (alone : Char → Bool) (test : CharTest) : String :=
  s!"s[{test.offset}] == " ++ Text.quoteCharBy alone test.char

/-- The tests that an input has the given characters one after the other from an offset on. -/
def consecutive (offset : Nat) : List Char → List CharTest
  | [] => []
  | c :: rest => ⟨offset, c⟩ :: consecutive (offset + 1) rest

@[simp] theorem length_consecutive (offset : Nat) (cs : List Char) :
    (consecutive offset cs).length = cs.length := by
  induction cs generalizing offset with
  | nil => rfl
  | cons c rest ih => simp [consecutive, ih]

@[simp] theorem map_char_consecutive (offset : Nat) (cs : List Char) :
    (consecutive offset cs).map char = cs := by
  induction cs generalizing offset with
  | nil => rfl
  | cons c rest ih => simp [consecutive, ih]

/-- The offsets of consecutive tests count up by one. -/
theorem map_offset_consecutive (offset : Nat) (cs : List Char) :
    (consecutive offset cs).map CharTest.offset = List.range' offset cs.length := by
  induction cs generalizing offset with
  | nil => rfl
  | cons c rest ih => simp [consecutive, ih, List.range'_succ]

end CharTest

end Lexicon
