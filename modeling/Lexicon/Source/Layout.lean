/-!
# Source text

Source text is a sequence of pieces. Most are written here; the name of a function, the type of its
payloads and the expressions for them are given by the caller and taken as they are. Keeping the two
apart costs nothing in the text, and a reader of it need not look into what was given.

Pieces are laid out in lines that know their depth.
-/

namespace Lexicon.Source

/-- A piece of source text. -/
inductive Piece where
  /-- Text in the form of the language. -/
  | written (text : String)
  /-- Text of the caller, which is not looked into. -/
  | given (text : String)
deriving DecidableEq

/-- The text of the piece. -/
def Piece.text : Piece → String
  | written text => text
  | given text => text

/-- The text of pieces, one after the other. -/
def textOf (source : List Piece) : String :=
  String.join (source.map Piece.text)

/-- The text consists of the characters of the pieces, written and given alike. -/
theorem toList_textOf (source : List Piece) :
    (textOf source).toList = source.flatMap fun
      | .written text => text.toList
      | .given text => text.toList := by
  have hpiece : ∀ piece : Piece, piece.text.toList = match piece with
      | .written text => text.toList
      | .given text => text.toList := by
    intro piece
    cases piece <;> rfl
  rw [textOf, String.toList_join, List.flatMap_map]
  simp only [hpiece]

/-- One line of source text, at a depth. -/
structure Line where
  depth : Nat
  pieces : List Piece
deriving DecidableEq

namespace Line

/-- The line with four spaces per level before it and a line break after it. -/
def source (line : Line) : List Piece :=
  .written (String.ofList (List.replicate (4 * line.depth) ' ')) :: (line.pieces ++ [.written "\n"])

/-- All lines, one after the other. -/
def sourceAll (lines : List Line) : List Piece :=
  lines.flatMap source

end Line

end Lexicon.Source
