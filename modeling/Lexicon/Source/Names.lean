import Lexicon.Source.Function
import Lexicon.Source.Scan

/-!
# Names in source text

Which lines of a function refer to a name, and what it means that a function binds the names that it
uses and no others. Lines are what stands between the line breaks of the text, and a line is looked
at token by token; text that was given, such as the expression of a payload, is not looked into.
-/

namespace Lexicon.Source

/-- What stands between the line breaks that are written here. -/
def linesOf (source : List Piece) : List (List Piece) := source.splitOn (.written "\n")

/-- The line without the break behind it. -/
def Line.indented (line : Line) : List Piece :=
  .written (String.ofList (List.replicate (4 * line.depth) ' ')) :: line.pieces

/-- A line refers to a name if the name is one of its words. -/
def Refers (name : String) (line : List Piece) : Prop := .word name ∈ tokensOf line

instance (name : String) (line : List Piece) : Decidable (Refers name line) :=
  inferInstanceAs (Decidable (_ ∈ _))

/-- A line calls a function if an opening parenthesis follows its name. -/
def Calls (name : String) (line : List Piece) : Prop :=
  [.word name, .sign "("] <:+: tokensOf line

instance (name : String) (line : List Piece) : Decidable (Calls name line) :=
  inferInstanceAs (Decidable (_ <:+: _))

theorem Calls.refers {name : String} {line : List Piece} (h : Calls name line) :
    Refers name line :=
  h.subset (by simp)

/-- What a function of the given name consists of if it binds the names that it uses and no others:
the header, the definition of `fold`, that of `len`, and the body, in this order. -/
structure Binds (name : String) (header : List Piece) (closure definition body : List (List Piece)) :
    Prop where
  /-- The parameter has a name to refer to if something does. -/
  parameter : [.given name, .sign "(",
      .word (if ∃ line ∈ closure ++ definition ++ body, Refers "s" line then "s" else "_s"),
      .sign ":"] <:+: tokensOf header
  /-- There is a definition of `fold` if the body calls it. -/
  closure_eq : closure =
    if ∃ line ∈ body, Calls "fold" line then Function.foldLines.map Line.indented else []
  /-- There is a definition of `len` if the body refers to it. -/
  definition_eq : definition =
    if ∃ line ∈ body, Refers "len" line then Function.lengthLines.map Line.indented else []
  /-- There are no other definitions. -/
  let_free : ∀ line ∈ header :: body, ¬ Refers "let" line
  /-- There is no call of `fold` in front of the body. -/
  fold_free : ∀ line ∈ header :: (closure ++ definition), ¬ Calls "fold" line
  /-- There is no reference to `len` in front of its definition. -/
  length_free : ∀ line ∈ header :: closure, ¬ Refers "len" line

/-- How the lines in front of the body are spelled in a function of the given signature if it binds
the names that it uses and no others. -/
structure Spells (signature : Signature) (header : List Piece)
    (closure definition body : List (List Piece)) : Prop where
  /-- The parameter is spelled `s` if something refers to it. -/
  header_text : textOf header =
    (if signature.isPublic then "pub fn " else "fn ") ++ signature.name ++ "(" ++
      (if ∃ line ∈ closure ++ definition ++ body, Refers "s" line then "s" else "_s") ++
      ": &[char]) -> Option<" ++ signature.returnType ++ "> \x7b"
  /-- There are the lines that define `fold` if the body calls it. -/
  closure_text : closure.map textOf =
    if ∃ line ∈ body, Calls "fold" line then [
      "    let fold = |c: char| -> char \x7b",
      "        let mut upper = c.to_uppercase();",
      "        match (upper.next(), upper.next()) \x7b",
      "            (Some(u), None) => u,",
      "            _ => c,",
      "        \x7d",
      "    \x7d;"]
    else []
  /-- There is the line that defines `len` if the body refers to it. -/
  definition_text : definition.map textOf =
    if ∃ line ∈ body, Refers "len" line then ["    let len = s.len();"] else []

end Lexicon.Source
