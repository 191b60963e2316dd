/-!
# Indented lines

Listings and source texts are built as lines that know their depth and become text in one place:
`render` puts a fixed number of spaces per level before a line and a line break after it.
-/

namespace Lexicon.Text

/-- One line of a listing, at a depth. -/
structure Line where
  depth : Nat
  text : String
deriving DecidableEq

namespace Line

/-- The line with `width` spaces per level before its text and a line break after it. -/
def render (width : Nat) (line : Line) : String :=
  String.ofList (List.replicate (width * line.depth) ' ') ++ line.text ++ "\n"

/-- All lines, one after the other. -/
def renderAll (width : Nat) (lines : List Line) : String :=
  String.join (lines.map (render width))

end Line

end Lexicon.Text
