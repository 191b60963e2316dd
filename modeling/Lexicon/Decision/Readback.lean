import Lexicon.Decision.Listing
import Lexicon.Source.Scan

/-!
# Listings are read back

A listing is read line by line, each line as a row, and the rows together as a decision.

What a row says follows from its tokens, apart from payloads: these are whatever stands behind the
words in front of them, and are read by the caller. Depths are not needed.

Rows are read from the last to the first. Whatever a row stands in front of has been read before it,
and waits in a stack: the next decision, or the cases of a branch of which the end has been seen.
Reading the rows of a decision puts that decision on top of the stack (`foldrM_build_rows`), so no
two decisions have the same rows.
-/

namespace Lexicon

open Source (Scan Token tokensOf)

universe u

variable {V : Type u}

/-! ### Rows from their text -/

/-- The check of which the tokens are given, behind `len`. -/
def LengthCheck.ofTokens? : List Token → Option LengthCheck
  | [.sign "==", .number n] => some (exact n)
  | [.sign ">=", .number n] => some (min n)
  | [.sign "<=", .number n] => some (max n)
  | [.word "in", .number lo, .sign ".", .sign ".", .sign "=", .number hi] => some (range lo hi)
  | _ => none

/-- The test of which the tokens are given. -/
def CharTest.ofTokens? : List Token → Option CharTest
  | [.word "s", .sign "[", .number offset, .sign "]", .sign "==", .char c] => some ⟨offset, c⟩
  | _ => none

/-- The tests of a run, of which there may be none. -/
def CharTest.allOfTokens? : List Token → Option (List CharTest)
  | [] => some []
  | ts => (ts.splitOn (.sign "&&")).mapM ofTokens?

namespace Row

/-- The row of which the tokens are given, if it has no payload. -/
def ofTokens? : List Token → Option (Row V)
  | .word "check" :: .word "len" :: ts => (LengthCheck.ofTokens? ts).map guard
  | .word "check" :: ts => (CharTest.allOfTokens? ts).map spell
  | [.word "match", .word "s", .sign "[", .number offset, .sign "]"] => some (dispatch offset)
  | [.char c, .sign "=>"] => some (case c)
  | [.word "_", .sign "=>", .word "miss"] => some otherwise
  | [.word "miss"] => some miss
  | _ => none

variable (unquote : String → Option V)

/-- The payload for an input that ends at the offset with which the text begins. -/
def onEndOfText? (text : List Char) : Option (Row V) :=
  match Scan.between.scanChars (text.takeWhile Char.isDigit),
    " return ".toList.isPrefixOf? (text.dropWhile Char.isDigit) with
  | ([], .number offset), some payload => (unquote (.ofList payload)).map (onEnd offset)
  | _, _ => none

/-- The row of which the text is given, with `unquote` to read payloads. -/
def ofText? (text : List Char) : Option (Row V) :=
  match "return ".toList.isPrefixOf? text with
  | some payload => (unquote (.ofList payload)).map accept
  | none =>
    match "if len == ".toList.isPrefixOf? text with
    | some text => onEndOfText? unquote text
    | none => ofTokens? (tokensOf [.written (.ofList text)])

end Row

/-! ### Decisions from their rows -/

/-- What has been read of the rows behind, and waits for a row in front. -/
inductive Part (V : Type u) where
  | decision (d : Decision V)
  /-- The cases of a branch from some case on. -/
  | cases (cases : List (Char × Decision V))

/-- What a row makes of the parts behind it. -/
def Row.build : Row V → List (Part V) → Option (List (Part V))
  | guard check, .decision next :: parts => some (.decision (.guard check next) :: parts)
  | spell tests, .decision next :: parts => some (.decision (.spell tests next) :: parts)
  | onEnd offset payload, .decision (.dispatch offset' none cases) :: parts =>
    if offset = offset' then some (.decision (.dispatch offset (some payload) cases) :: parts)
    else none
  | dispatch offset, .cases cases :: parts => some (.decision (.dispatch offset none cases) :: parts)
  | case c, .decision d :: .cases cases :: parts => some (.cases ((c, d) :: cases) :: parts)
  | otherwise, parts => some (.cases [] :: parts)
  | accept payload, parts => some (.decision (.accept payload) :: parts)
  | miss, parts => some (.decision .miss :: parts)
  | _, _ => none

namespace Decision

/-- The decision that rows are those of. -/
def ofRows? (rows : List (Row V)) : Option (Decision V) :=
  match rows.foldrM Row.build [] with
  | some [.decision d] => some d
  | _ => none

/-- The rows of cases put these on top of what is behind them, if those of their decisions do. -/
private theorem foldrM_build_rowsCases {cases : List (Char × Decision V)}
    (h : ∀ entry ∈ cases, ∀ depth parts,
      ((entry.2.rows depth).map Prod.snd).foldrM Row.build parts =
        some (.decision entry.2 :: parts)) (depth : Nat) (parts : List (Part V)) :
    ((rowsCases depth cases).map Prod.snd).foldrM Row.build parts =
      some (.cases cases :: parts) := by
  induction cases with
  | nil => rfl
  | cons entry rest ih =>
    obtain ⟨c, d⟩ := entry
    have hd := h (c, d) (by simp) (depth + 1) (.cases rest :: parts)
    have hrest := ih fun e he => h e (by simp [he])
    rw [rowsCases, List.map_cons, List.map_append, List.foldrM_cons, List.foldrM_append, hrest]
    exact congrArg (· >>= (Row.case c).build) hd

/-- The rows of a decision put it on top of what is behind them. -/
theorem foldrM_build_rows (d : Decision V) (depth : Nat) (parts : List (Part V)) :
    ((d.rows depth).map Prod.snd).foldrM Row.build parts = some (.decision d :: parts) := by
  induction d using Decision.induction generalizing depth parts with
  | guard check next ih => rw [rows, List.map_cons, List.foldrM_cons, ih]; rfl
  | spell tests next ih => rw [rows, List.map_cons, List.foldrM_cons, ih]; rfl
  | dispatch offset onEnd cases ih =>
    have hcases := foldrM_build_rowsCases ih (depth + 1) parts
    cases onEnd with
    | none => rw [rows, List.map_cons, List.foldrM_cons, hcases]; rfl
    | some payload =>
      rw [rows, List.map_cons, List.map_cons, List.foldrM_cons, List.foldrM_cons, hcases]
      exact if_pos rfl
  | accept payload => rfl
  | miss => rfl

/-- A decision is read back from its rows. -/
theorem ofRows?_rows (d : Decision V) (depth : Nat) :
    ofRows? ((d.rows depth).map Prod.snd) = some d := by
  rw [ofRows?, foldrM_build_rows]

/-- The decision of which the listing is given, with `unquote` to read payloads. Behind the last
line break there is nothing to read. -/
def ofListing? (unquote : String → Option V) (listing : String) : Option (Decision V) :=
  ((listing.toList.splitOn '\n').dropLast.mapM fun line =>
    Row.ofText? unquote (line.dropWhile (· = ' '))).bind ofRows?

end Decision

end Lexicon
