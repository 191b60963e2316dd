import Lexicon.Source.Layout
import Lexicon.Text.Quoted

/-!
# Blocks of source code

The statements of a Rust function over a slice of characters `s`, as far as a decision needs them:
early exits under a condition, matches on one character, and a final value. What a block looks like
(`lines`) and what it does (`run`) are kept apart and know nothing of each other.

Values are of type `Option`. The payload is an expression that is given by the caller, and nothing
is known of it but its text.
-/

namespace Lexicon.Source

/-- How a length is compared with a number. -/
inductive Comparison where
  | eq
  | ne
  | lt
  | gt
deriving DecidableEq

namespace Comparison

/-- The operator. -/
def symbol : Comparison → String
  | eq => "=="
  | ne => "!="
  | lt => "<"
  | gt => ">"

/-- Whether the comparison holds of two numbers. -/
def holds : Comparison → Nat → Nat → Bool
  | eq, m, n => m = n
  | ne, m, n => m ≠ n
  | lt, m, n => m < n
  | gt, m, n => n < m

end Comparison

/-- The character of the input at an offset, as it is or after a call of the local `fold`. -/
structure CharRead where
  offset : Nat
  folded : Bool
deriving DecidableEq

/-- The expression that reads the character. -/
def CharRead.pieces (read : CharRead) : List Piece :=
  if read.folded then [.written "fold(s[", .written (toString read.offset), .written "])"]
  else [.written "s[", .written (toString read.offset), .written "]"]

/-- One alternative of a condition. -/
inductive Test where
  /-- A comparison of `len` with a number. -/
  | length (comparison : Comparison) (n : Nat)
  /-- A character that is not the one given. -/
  | differs (read : CharRead) (c : Char)
deriving DecidableEq

/-- The test as an expression. -/
def Test.pieces : Test → List Piece
  | length comparison n =>
    [.written "len ", .written comparison.symbol, .written " ", .written (toString n)]
  | differs read c => read.pieces ++ [.written " != ", .written (Text.quoteChar c)]

/-- A condition: one of the alternatives, tried from left to right. -/
abbrev Condition := List Test

/-- The alternatives of a condition as an expression. -/
def Condition.pieces : Condition → List Piece
  | [] => []
  | [test] => test.pieces
  | test :: rest => test.pieces ++ .written " || " :: Condition.pieces rest

/-- A value: none, or a payload by its expression. -/
abbrev Value := Option String

/-- The value as an expression. -/
def Value.pieces : Value → List Piece
  | some expression => [.written "Some(", .given expression, .written ")"]
  | none => [.written "None"]

/-- Statements that end with a value. -/
inductive Block where
  /-- Leave with a value if the condition holds; else go on with `next`. -/
  | exitIf (condition : Condition) (value : Value) (next : Block)
  /-- Go on with the arm of the character that is read; without an arm the value is `None`. -/
  | select (read : CharRead) (arms : List (Char × Block))
  /-- End with a value. -/
  | result (value : Value)

namespace Block

/-- What holds of a block whenever it holds of its parts holds of every block. -/
theorem induction {motive : Block → Prop}
    (exitIf : ∀ condition value next, motive next → motive (exitIf condition value next))
    (select : ∀ read arms, (∀ arm ∈ arms, motive arm.2) → motive (select read arms))
    (result : ∀ value, motive (result value)) (b : Block) : motive b := by
  refine Block.rec (motive_1 := motive) (motive_2 := fun arms => ∀ arm ∈ arms, motive arm.2)
    (motive_3 := fun arm => motive arm.2) exitIf select result ?_ ?_ ?_ b
  · simp
  · intro arm rest harm hrest a ha
    rcases List.mem_cons.1 ha with rfl | ha
    · exact harm
    · exact hrest a ha
  · exact fun _ _ h => h

mutual

/-- The lines of a block, each branch one level deeper than its head. -/
def lines (depth : Nat) : Block → List Line
  | exitIf condition value next =>
    ⟨depth, .written "if " :: (condition.pieces ++ [.written " \x7b"])⟩ ::
      ⟨depth + 1, .written "return " :: (value.pieces ++ [.written ";"])⟩ ::
      ⟨depth, [.written "\x7d"]⟩ :: next.lines depth
  | select read arms =>
    ⟨depth, .written "match " :: (read.pieces ++ [.written " \x7b"])⟩ ::
      (linesArms (depth + 1) arms ++ [⟨depth, [.written "\x7d"]⟩])
  | result value => [⟨depth, value.pieces⟩]

/-- The lines of the arms of a match, with the one for all other characters last. -/
def linesArms (depth : Nat) : List (Char × Block) → List Line
  | [] => [⟨depth, [.written "_ => None,"]⟩]
  | (c, block) :: rest =>
    ⟨depth, [.written (Text.quoteChar c), .written " => \x7b"]⟩ ::
      (block.lines (depth + 1) ++ ⟨depth, [.written "\x7d"]⟩ :: linesArms depth rest)

end

end Block

end Lexicon.Source
