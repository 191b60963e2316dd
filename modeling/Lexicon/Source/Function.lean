import Lexicon.CaseFold
import Lexicon.Source.Block

/-!
# Functions

A Rust function from a slice of characters to an optional payload: a header, bindings for what the
body refers to, and the body. A parameter that nothing reads has a name that says so.
-/

namespace Lexicon.Source

/-- What the caller of an emission decides about the function. -/
structure Signature where
  /-- The name of the function. -/
  name : String
  /-- The type of the payloads. -/
  returnType : String
  /-- How input characters are folded before they are compared. -/
  fold : CaseFold
  /-- Whether the function is visible outside its module. -/
  isPublic : Bool
deriving DecidableEq

namespace Signature

/-- A private function that compares characters as they are. -/
def new (name returnType : String) : Signature := ⟨name, returnType, .ordinal, false⟩

/-- The signature with another fold. -/
def withFold (signature : Signature) (fold : CaseFold) : Signature :=
  { signature with fold }

/-- The signature with the visibility given. -/
def withPublic (signature : Signature) (isPublic : Bool) : Signature :=
  { signature with isPublic }

end Signature

/-- What a function defines for its body. -/
structure Scope where
  /-- Whether the parameter has a name, which the body may refer to. -/
  input : Bool
  /-- Whether `fold` is defined in front of the body. -/
  fold : Bool
  /-- Whether `len` is defined in front of the body. -/
  length : Bool
deriving DecidableEq

/-- A function. -/
structure Function where
  name : String
  returnType : String
  isPublic : Bool
  scope : Scope
  body : Block

namespace Function

/-- The line that opens the function. -/
def header (f : Function) : Line :=
  let visibility := if f.isPublic then "pub " else ""
  let parameter := if f.scope.input then "s" else "_s"
  ⟨0, [.written visibility, .written "fn ", .given f.name, .written "(", .written parameter,
    .written ": &[char]) -> Option<", .given f.returnType, .written "> \x7b"]⟩

/-- The definition of `fold`: the uppercase form of a character if it is a single character, else
the character. -/
def foldLines : List Line := [
  ⟨1, [.written "let fold = |c: char| -> char \x7b"]⟩,
  ⟨2, [.written "let mut upper = c.to_uppercase();"]⟩,
  ⟨2, [.written "match (upper.next(), upper.next()) \x7b"]⟩,
  ⟨3, [.written "(Some(u), None) => u,"]⟩,
  ⟨3, [.written "_ => c,"]⟩,
  ⟨2, [.written "\x7d"]⟩,
  ⟨1, [.written "\x7d;"]⟩]

/-- The definition of `len`. -/
def lengthLines : List Line := [⟨1, [.written "let len = s.len();"]⟩]

/-- The lines of the function. -/
def lines (f : Function) : List Line :=
  f.header ::
    ((if f.scope.fold then foldLines else []) ++ (if f.scope.length then lengthLines else []) ++
      f.body.lines 1 ++ [⟨0, [.written "\x7d"]⟩])

/-- The source of the function. -/
def source (f : Function) : List Piece :=
  Line.sourceAll f.lines

end Function

end Lexicon.Source
