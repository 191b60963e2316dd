import Lexicon.Decision.Basic
import Lexicon.Text.Layout

/-!
# Listing of a decision

One row per guard and run, which stand above what follows them, and per branch its payload for an
input that ends there, the offset that is read, and the cases with their decisions, two levels
deeper, closed by the row for all other characters. A level is two spaces.

Which characters are written as themselves is a parameter of the text of rows; the listing fixes it.
-/

namespace Lexicon

open Text (Line)

universe u

/-- What one line of a listing says. -/
inductive Row (V : Type u) where
  /-- A guard of what follows. -/
  | guard (check : LengthCheck)
  /-- A run in front of what follows. -/
  | spell (tests : List CharTest)
  /-- The payload for an input that ends where the branch that follows reads. -/
  | onEnd (offset : Nat) (payload : V)
  /-- A branch, of which the cases follow. -/
  | dispatch (offset : Nat)
  /-- A case, of which the decision follows. -/
  | case (c : Char)
  /-- The end of the cases: all other characters are misses. -/
  | otherwise
  | accept (payload : V)
  | miss
deriving DecidableEq

/-- The text of a row, with `quote` as the written form of payloads and the characters that are
`alone` written as themselves. -/
def Row.text {V : Type u} (alone : Char → Bool) (quote : V → String) : Row V → String
  | guard check => "check " ++ check.text
  | spell tests => "check " ++ " && ".intercalate (tests.map (CharTest.text alone))
  | onEnd offset payload => s!"if len == {offset} return " ++ quote payload
  | dispatch offset => s!"match s[{offset}]"
  | case c => Text.quoteCharBy alone c ++ " =>"
  | otherwise => "_ => miss"
  | accept payload => "return " ++ quote payload
  | miss => "miss"

namespace Decision

variable {V : Type u}

mutual

/-- The rows of a decision, each with its depth. -/
def rows (depth : Nat) : Decision V → List (Nat × Row V)
  | guard check next => (depth, .guard check) :: next.rows depth
  | spell tests next => (depth, .spell tests) :: next.rows depth
  | dispatch offset onEnd cases =>
    let rest := (depth, .dispatch offset) :: rowsCases (depth + 1) cases
    match onEnd with
    | some payload => (depth, .onEnd offset payload) :: rest
    | none => rest
  | accept payload => [(depth, .accept payload)]
  | miss => [(depth, .miss)]

/-- The rows of the cases of a branch, and of the characters that have none. -/
def rowsCases (depth : Nat) : List (Char × Decision V) → List (Nat × Row V)
  | [] => [(depth, .otherwise)]
  | (c, d) :: rest => (depth, .case c) :: (d.rows (depth + 1) ++ rowsCases depth rest)

end

/-- The listing of a decision, with `quote` as the written form of payloads and the characters that
are `alone` written as themselves. -/
def listingBy (alone : Char → Bool) (quote : V → String) (d : Decision V) : String :=
  Line.renderAll 2 ((d.rows 0).map fun row => ⟨row.1, row.2.text alone quote⟩)

/-- The listing of a decision. -/
def listing (quote : V → String) (d : Decision V) : String :=
  d.listingBy Text.Quoted.standsAlone quote

end Decision

end Lexicon
