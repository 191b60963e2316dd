import Lexicon.Source.Function
import Lexicon.Source.Scan

/-!
# Reading source text

A function is read from its source, token by token from left to right. The forms of the language are
given here as tokens and owe nothing to how functions are printed: white space, for one, is of no
importance.

What is read is a program: one whose body refers to a name that is not defined is rejected.
-/

namespace Lexicon.Source

namespace Reading

/-- What follows the expected tokens, if the tokens begin with them. -/
def expect : List Token → List Token → Option (List Token)
  | [], ts => some ts
  | _ :: _, [] => none
  | expected :: rest, t :: ts => if t = expected then expect rest ts else none

/-- Whether the tokens begin with the expected ones, and what follows. -/
def accept (expected ts : List Token) : Bool × List Token :=
  match expect expected ts with
  | some ts => (true, ts)
  | none => (false, ts)

/-- A given piece. -/
def readGiven : List Token → Option (String × List Token)
  | .given text :: ts => some (text, ts)
  | _ => none

/-- A number. -/
def readNumber : List Token → Option (Nat × List Token)
  | .number n :: ts => some (n, ts)
  | _ => none

/-- A character literal. -/
def readChar : List Token → Option (Char × List Token)
  | .char c :: ts => some (c, ts)
  | _ => none

/-- The comparison that an operator stands for. -/
def readComparison : List Token → Option (Comparison × List Token)
  | .sign "==" :: ts => some (.eq, ts)
  | .sign "!=" :: ts => some (.ne, ts)
  | .sign "<" :: ts => some (.lt, ts)
  | .sign ">" :: ts => some (.gt, ts)
  | _ => none

/-- A character of the input, `s[n]` or `fold(s[n])`. -/
def readCharRead (ts : List Token) : Option (CharRead × List Token) := do
  let (folded, ts) := accept [.word "fold", .sign "("] ts
  let ts ← expect [.word "s", .sign "["] ts
  let (offset, ts) ← readNumber ts
  let ts ← expect (if folded then [.sign "]", .sign ")"] else [.sign "]"]) ts
  return (⟨offset, folded⟩, ts)

/-- An alternative of a condition, `len == n` or the like, or `x != 'c'`. -/
def readTest (ts : List Token) : Option (Test × List Token) := do
  let (isLength, ts) := accept [.word "len"] ts
  if isLength then
    let (comparison, ts) ← readComparison ts
    let (n, ts) ← readNumber ts
    return (.length comparison n, ts)
  else
    let (read, ts) ← readCharRead ts
    let ts ← expect [.sign "!="] ts
    let (c, ts) ← readChar ts
    return (.differs read c, ts)

/-- At least one alternative. The number bounds how many there are. -/
def readCondition : Nat → List Token → Option (Condition × List Token)
  | 0, _ => none
  | fuel + 1, ts => do
    let (test, ts) ← readTest ts
    let (goesOn, ts) := accept [.sign "||"] ts
    if goesOn then
      let (rest, ts) ← readCondition fuel ts
      return (test :: rest, ts)
    else
      return ([test], ts)

/-- A value, `Some(e)` or `None`. -/
def readValue (ts : List Token) : Option (Value × List Token) := do
  let (isSome, ts) := accept [.word "Some", .sign "("] ts
  if isSome then
    let (expression, ts) ← readGiven ts
    let ts ← expect [.sign ")"] ts
    return (some expression, ts)
  else
    let ts ← expect [.word "None"] ts
    return (none, ts)

mutual

/-- A block. The number bounds how deep it is. -/
def readBlock : Nat → List Token → Option (Block × List Token)
  | 0, _ => none
  | fuel + 1, ts =>
    match ts with
    | .word "if" :: ts => do
      let (condition, ts) ← readCondition fuel ts
      let ts ← expect [.sign "\x7b", .word "return"] ts
      let (value, ts) ← readValue ts
      let ts ← expect [.sign ";", .sign "\x7d"] ts
      let (next, ts) ← readBlock fuel ts
      return (.exitIf condition value next, ts)
    | .word "match" :: ts => do
      let (read, ts) ← readCharRead ts
      let ts ← expect [.sign "\x7b"] ts
      let (arms, ts) ← readArms fuel ts
      return (.select read arms, ts)
    | ts => do
      let (value, ts) ← readValue ts
      return (.result value, ts)

/-- The arms of a match, the one for all other characters last, and the end of the match. -/
def readArms : Nat → List Token → Option (List (Char × Block) × List Token)
  | 0, _ => none
  | fuel + 1, ts =>
    match ts with
    | .char c :: ts => do
      let ts ← expect [.sign "=>", .sign "\x7b"] ts
      let (block, ts) ← readBlock fuel ts
      let ts ← expect [.sign "\x7d"] ts
      let (rest, ts) ← readArms fuel ts
      return ((c, block) :: rest, ts)
    | ts => do
      let ts ← expect [.word "_", .sign "=>", .word "None", .sign ",", .sign "\x7d"] ts
      return ([], ts)

end

/-- The name of a parameter, and whether it may be referred to. -/
def readParameter : List Token → Option (Bool × List Token)
  | .word "s" :: ts => some (true, ts)
  | .word "_s" :: ts => some (false, ts)
  | _ => none

/-- The definition of `fold`, the only closure there is: the uppercase form of a character if it is
a single character, else the character. -/
def foldTokens : List Token :=
  tokensOf [
    .written "let fold = |c: char| -> char \x7b",
    .written "let mut upper = c.to_uppercase();",
    .written "match (upper.next(), upper.next()) \x7b",
    .written "(Some(u), None) => u,",
    .written "_ => c,",
    .written "\x7d",
    .written "\x7d;"]

/-- The definition of `len`. -/
def lengthTokens : List Token := tokensOf [.written "let len = s.len();"]

/-- A function. -/
def readFunction (ts : List Token) : Option (Function × List Token) := do
  let (isPublic, ts) := accept [.word "pub"] ts
  let ts ← expect [.word "fn"] ts
  let (name, ts) ← readGiven ts
  let ts ← expect [.sign "("] ts
  let (input, ts) ← readParameter ts
  let ts ← expect [.sign ":", .sign "&", .sign "[", .word "char", .sign "]", .sign ")", .sign "->",
    .word "Option", .sign "<"] ts
  let (returnType, ts) ← readGiven ts
  let ts ← expect [.sign ">", .sign "\x7b"] ts
  let (fold, ts) := accept foldTokens ts
  let (length, ts) := accept lengthTokens ts
  let (body, ts) ← readBlock ts.length ts
  let ts ← expect [.sign "\x7d"] ts
  return (⟨name, returnType, isPublic, ⟨input, fold, length⟩, body⟩, ts)

end Reading

/-! ### Names -/

/-- Whether the names that the expression refers to are defined. -/
def CharRead.isScoped (scope : Scope) (read : CharRead) : Bool :=
  scope.input && (!read.folded || scope.fold)

/-- Whether the names that the test refers to are defined. -/
def Test.isScoped (scope : Scope) : Test → Bool
  | length _ _ => scope.length
  | differs read _ => read.isScoped scope

mutual

/-- Whether the names that the block refers to are defined. -/
def Block.isScoped (scope : Scope) : Block → Bool
  | .exitIf condition _ next => condition.all (·.isScoped scope) && next.isScoped scope
  | .select read arms => read.isScoped scope && isScopedArms scope arms
  | .result _ => true

/-- Whether the names that the arms refer to are defined. -/
def Block.isScopedArms (scope : Scope) : List (Char × Block) → Bool
  | [] => true
  | (_, block) :: rest => block.isScoped scope && isScopedArms scope rest

end

/-- Whether the names that the function refers to are defined; the definition of `len` refers to the
input. -/
def Function.isScoped (f : Function) : Bool :=
  (!f.scope.length || f.scope.input) && f.body.isScoped f.scope

/-- The function that is all of the source. -/
def read (source : List Piece) : Option Function := do
  let (f, ts) ← Reading.readFunction (tokensOf source)
  if ts.isEmpty && f.isScoped then some f else none

end Lexicon.Source
