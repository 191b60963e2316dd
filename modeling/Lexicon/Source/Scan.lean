import Lexicon.Source.Layout

/-!
# Tokens

Source text is read one character at a time. What a character means depends on the token it stands
in, so the scanner is a machine whose state is the token begun so far. A given piece is a token of
its own. White space separates tokens and is dropped.

The tokens are those of the language as far as functions of decisions are written in it: words,
decimal numbers, character literals with their escapes, operators, and single marks. Anything else
becomes a token that no program has.
-/

namespace Lexicon.Source

/-- A token of source text. -/
inductive Token where
  /-- A keyword or a name. -/
  | word (text : String)
  /-- A decimal number. -/
  | number (n : Nat)
  /-- A character literal. -/
  | char (c : Char)
  /-- An operator or a mark. -/
  | sign (text : String)
  /-- A piece that was given. -/
  | given (text : String)
  /-- Text that is no token. -/
  | unreadable
deriving DecidableEq

/-- The token that a scanner stands in. -/
inductive Scan where
  /-- None: the last one is complete. -/
  | between
  /-- A word with the characters so far, the last first. -/
  | word (chars : List Char)
  /-- An operator with the characters so far, the last first. -/
  | operator (chars : List Char)
  /-- A number with the value of the digits so far. -/
  | number (n : Nat)
  /-- A character literal of which nothing but the delimiter has been read. -/
  | quote
  /-- A character literal up to the delimiter that closes it. -/
  | quoted (c : Char)
  /-- An escape, behind the backslash. -/
  | escape
  /-- An escape by code point, in front of the brace. -/
  | codeOpen
  /-- An escape by code point with the value of the digits so far, if there are any. -/
  | code (n : Option Nat)
  /-- Text that is no token. -/
  | unreadable
deriving DecidableEq

namespace Scan

/-- Whether words have the character, if not in front. -/
def isWordChar (c : Char) : Bool := c.isAlphanum || c = '_'

/-- Whether operators have the character. Those next to each other are one operator. -/
def isOperatorChar (c : Char) : Bool := "=!<>|&-+*/%^".toList.contains c

/-- The value of a hexadecimal digit. -/
def hexValue? (c : Char) : Option Nat :=
  if c.isDigit then some (c.toNat - '0'.toNat)
  else if 'a' ≤ c ∧ c ≤ 'f' then some (c.toNat - 'a'.toNat + 10)
  else if 'A' ≤ c ∧ c ≤ 'F' then some (c.toNat - 'A'.toNat + 10)
  else none

/-- What a character stands for behind a backslash. -/
def escaped? : Char → Option Char
  | '0' => some '\x00'
  | 't' => some '\t'
  | 'r' => some '\r'
  | 'n' => some '\n'
  | '\\' => some '\\'
  | '\x27' => some '\x27'
  | '\x22' => some '\x22'
  | _ => none

/-- What is left of a token that the text breaks off. -/
def flush : Scan → List Token
  | between => []
  | word chars => [.word (String.ofList chars.reverse)]
  | operator chars => [.sign (String.ofList chars.reverse)]
  | number n => [.number n]
  | _ => [.unreadable]

/-- What a character means where no token has begun. -/
def begin (c : Char) : List Token × Scan :=
  if c.isWhitespace then ([], between)
  else if c.isDigit then ([], number (c.toNat - '0'.toNat))
  else if isWordChar c then ([], word [c])
  else if isOperatorChar c then ([], operator [c])
  else if c = '\x27' then ([], quote)
  else if "()[]\x7b\x7d,;:.".toList.contains c then ([.sign (String.singleton c)], between)
  else ([], unreadable)

/-- A character that does not go on with the token begun. -/
def complete (state : Scan) (c : Char) : List Token × Scan :=
  (state.flush ++ (begin c).1, (begin c).2)

/-- The tokens that a character completes, and the state behind it. -/
def next : Scan → Char → List Token × Scan
  | between, c => begin c
  | word chars, c => if isWordChar c then ([], word (c :: chars)) else complete (word chars) c
  | operator chars, c =>
    if isOperatorChar c then ([], operator (c :: chars)) else complete (operator chars) c
  | number n, c =>
    if c.isDigit then ([], number (10 * n + (c.toNat - '0'.toNat)))
    else if isWordChar c then ([], unreadable)
    else complete (number n) c
  | quote, c =>
    if c = '\\' then ([], escape)
    else if "\x27\n\r\t".toList.contains c then ([], unreadable)
    else ([], quoted c)
  | quoted d, c => if c = '\x27' then ([.char d], between) else ([], unreadable)
  | escape, c =>
    if c = 'u' then ([], codeOpen)
    else match escaped? c with
      | some d => ([], quoted d)
      | none => ([], unreadable)
  | codeOpen, c => if c = '\x7b' then ([], code none) else ([], unreadable)
  | code n, c =>
    if c = '\x7d' then
      match n with
      | some n => if n.isValidChar then ([], quoted (Char.ofNat n)) else ([], unreadable)
      | none => ([], unreadable)
    else match hexValue? c with
      | some digit => ([], code (some (16 * n.getD 0 + digit)))
      | none => ([], unreadable)
  | unreadable, _ => ([], unreadable)

/-- The tokens that characters complete from a state on, and the state behind them. -/
def scanChars (state : Scan) : List Char → List Token × Scan
  | [] => ([], state)
  | c :: rest =>
    let after := scanChars (state.next c).2 rest
    ((state.next c).1 ++ after.1, after.2)

/-- The tokens of source text from a state on. -/
def scan (state : Scan) : List Piece → List Token
  | [] => state.flush
  | .written text :: rest =>
    let read := state.scanChars text.toList
    read.1 ++ scan read.2 rest
  | .given text :: rest => state.flush ++ .given text :: scan between rest

end Scan

/-- The tokens of source text. -/
def tokensOf (source : List Piece) : List Token := Scan.between.scan source

end Lexicon.Source
