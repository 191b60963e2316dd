import Lexicon.Decision.Stats
import Lexicon.Source.Function

/-!
# From decisions to source code

A test of a decision says what must hold; in source code the function leaves where it fails. So a
guard becomes an exit under the opposite comparisons, a run of tests an exit as soon as one
character differs, and a branch a match, after an exit for the input that ends there if that input
has a payload.
-/

namespace Lexicon

open Source

universe u

variable {V : Type u}

/-- The lengths that a check rejects, as alternatives. -/
def LengthCheck.failure : LengthCheck → Condition
  | exact n => [.length .ne n]
  | min n => [.length .lt n]
  | max n => [.length .gt n]
  | range lo hi => [.length .lt lo, .length .gt hi]

/-- The inputs on which a test fails, as an alternative. -/
def CharTest.failure (fold : CaseFold) (test : CharTest) : Source.Test :=
  .differs ⟨test.offset, !fold.isOrdinal⟩ test.char

namespace Decision

mutual

/-- The block that decides as the decision does, with payloads as the expressions that `render`
gives for them. -/
def toBlock (fold : CaseFold) (render : V → String) : Decision V → Block
  | guard check next => .exitIf check.failure none (next.toBlock fold render)
  | spell tests next =>
    .exitIf (tests.map (CharTest.failure fold)) none (next.toBlock fold render)
  | dispatch offset onEnd cases =>
    let choice := .select ⟨offset, !fold.isOrdinal⟩ (armsOfCases fold render cases)
    match onEnd with
    | some payload => .exitIf [.length .eq offset] (some (render payload)) choice
    | none => choice
  | accept payload => .result (some (render payload))
  | miss => .result none

/-- The arms that decide as the cases do. -/
def armsOfCases (fold : CaseFold) (render : V → String) :
    List (Char × Decision V) → List (Char × Block)
  | [] => []
  | (c, d) :: rest => (c, d.toBlock fold render) :: armsOfCases fold render rest

end

theorem armsOfCases_eq_map (fold : CaseFold) (render : V → String)
    (cases : List (Char × Decision V)) :
    armsOfCases fold render cases =
      cases.map fun entry => (entry.1, entry.2.toBlock fold render) := by
  induction cases with
  | nil => rfl
  | cons entry rest ih => rw [armsOfCases, ih, List.map_cons]

/-- The function that decides as the decision does, with the definitions that it needs: of the
input if anything is asked of it, of the fold if characters are read folded, and of the length if a
length is compared. -/
def toFunction (signature : Signature) (render : V → String) (d : Decision V) : Function where
  name := signature.name
  returnType := signature.returnType
  isPublic := signature.isPublic
  scope :=
    { input := d.readsInput || d.readsLength
      fold := d.readsInput && !signature.fold.isOrdinal
      length := d.readsLength }
  body := d.toBlock signature.fold render

/-- The source of a function that decides as the decision does. -/
def emitSource (signature : Signature) (render : V → String) (d : Decision V) : List Piece :=
  (d.toFunction signature render).source

/-- The source as text. -/
def emit (signature : Signature) (render : V → String) (d : Decision V) : String :=
  textOf (d.emitSource signature render)

end Decision

end Lexicon
