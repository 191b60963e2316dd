import Lexicon.Source.Function
import Lexicon.Text.Uppercase

/-!
# Running a function

What a function answers for an input: its value, or a panic where it reads a character beyond the
end. Alternatives of a condition are tried from left to right, and those after the first that holds
are not looked at.
-/

namespace Lexicon.Source

/-- The end of a run. -/
inductive Outcome where
  /-- A character beyond the end of the input was read. -/
  | panic
  /-- The function returned a value. -/
  | value (result : Value)
deriving DecidableEq

theorem Outcome.value_ne_panic (result : Value) : value result ≠ panic := by
  simp

/-- The character that is read, if the input has one there. -/
def CharRead.run (input : List Char) (read : CharRead) : Option Char :=
  input[read.offset]?.map fun c => if read.folded then Text.simpleUppercase c else c

/-- Whether the test holds, unless it panics. -/
def Test.run (input : List Char) : Test → Option Bool
  | length comparison n => some (comparison.holds input.length n)
  | differs read c => (read.run input).map (· != c)

/-- Whether an alternative holds, unless one before it panics. -/
def Condition.run (input : List Char) : Condition → Option Bool
  | [] => some false
  | test :: rest =>
    match test.run input with
    | none => none
    | some true => some true
    | some false => Condition.run input rest

namespace Block

mutual

/-- The end of the block's run on an input. -/
def run (input : List Char) : Block → Outcome
  | exitIf condition value next =>
    match condition.run input with
    | none => .panic
    | some true => .value value
    | some false => next.run input
  | select read arms =>
    match read.run input with
    | none => .panic
    | some c => runArms input c arms
  | result value => .value value

/-- The end of the run of the first arm for the character. -/
def runArms (input : List Char) (c : Char) : List (Char × Block) → Outcome
  | [] => .value none
  | (key, block) :: rest => if c = key then block.run input else runArms input c rest

end

end Block

/-- The end of the function's run on an input. -/
def Function.run (f : Function) (input : List Char) : Outcome :=
  f.body.run input

end Lexicon.Source
