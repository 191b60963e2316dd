import Lexicon.Source.Reading
import Mathlib.Tactic.SplitIfs

/-!
# The tokens of a printed function

Printing keeps tokens apart. Each construct has its tokens, and scanning its printed form, whatever
comes behind it, gives these tokens and goes on behind it between two tokens (`scan_lines`,
`tokensOf_source`). Numbers are read back from their digits and character literals from their
escapes (`scanChars_toDigits`, `scan_quoteChar`).
-/

namespace Lexicon.Source

namespace Scan

theorem scanChars_append (state : Scan) (cs ds : List Char) :
    state.scanChars (cs ++ ds) =
      ((state.scanChars cs).1 ++ ((state.scanChars cs).2.scanChars ds).1,
        ((state.scanChars cs).2.scanChars ds).2) := by
  induction cs generalizing state with
  | nil => rfl
  | cons c rest ih => simp [scanChars, ih]

theorem scan_written {state after : Scan} {text : String} {ts : List Token}
    (h : state.scanChars text.toList = (ts, after)) (rest : List Piece) :
    state.scan (.written text :: rest) = ts ++ after.scan rest := by
  rw [scan, h]

/-- It does not matter where written text is divided into pieces. -/
theorem scan_written_append (state : Scan) (s t : String) (rest : List Piece) :
    state.scan (.written (s ++ t) :: rest) = state.scan (.written s :: .written t :: rest) := by
  rw [scan, scan, scan, String.toList_append, scanChars_append, List.append_assoc]

/-! ### Numbers -/

theorem exists_digitChar_of_mem_toDigits {b n : Nat} (hb : 1 < b) {c : Char}
    (h : c ∈ Nat.toDigits b n) : ∃ k < b, c = k.digitChar := by
  induction n using Nat.base_induction b hb with
  | single k hk =>
    rw [Nat.toDigits_of_lt_base hk, List.mem_singleton] at h
    exact ⟨k, hk, h⟩
  | digit n k hk hn ih =>
    rw [← Nat.toDigits_append_toDigits hb hn hk, List.mem_append, Nat.toDigits_of_lt_base hk,
      List.mem_singleton] at h
    exact h.elim ih fun h => ⟨k, hk, h⟩

/-- Where digits are taken up to a value, the digits of a number are taken up to the number. -/
theorem scanChars_toDigits {b : Nat} (hb : 1 < b) {state : Scan} (reading : Nat → Scan)
    (hfirst : ∀ k < b, state.next k.digitChar = ([], reading k))
    (hnext : ∀ n, ∀ k < b, (reading n).next k.digitChar = ([], reading (b * n + k))) (n : Nat) :
    state.scanChars (Nat.toDigits b n) = ([], reading n) := by
  induction n using Nat.base_induction b hb with
  | single k hk =>
    rw [Nat.toDigits_of_lt_base hk, scanChars, hfirst k hk]
    rfl
  | digit n k hk hn ih =>
    -- the induction follows the last digit, which is also the last to be scanned
    rw [← Nat.toDigits_append_toDigits hb hn hk, scanChars_append, ih,
      Nat.toDigits_of_lt_base hk, scanChars, hnext n k hk]
    rfl

/-- A decimal digit goes on with a number or begins one. -/
private theorem next_digitChar {k : Nat} (hk : k < 10) :
    between.next k.digitChar = ([], number k) ∧
      ∀ n, (number n).next k.digitChar = ([], number (10 * n + k)) := by
  have hdigit : k.digitChar.isDigit := by simpa [Nat.isDigit_digitChar] using hk
  have hvalue : k.digitChar.toNat - '0'.toNat = k := Nat.toNat_digitChar_sub_48_of_lt_ten hk
  have hspace : ¬ k.digitChar.isWhitespace := by
    have hall : ∀ k : Fin 10, ¬ (Nat.digitChar k).isWhitespace := by decide
    exact hall ⟨k, hk⟩
  refine ⟨?_, fun n => ?_⟩
  · rw [next, begin, if_neg hspace, if_pos hdigit, hvalue]
  · rw [next, if_pos hdigit, hvalue]

theorem scanChars_toString (n : Nat) :
    between.scanChars (toString n).toList = ([], number n) := by
  rw [Nat.toString_eq_repr, Nat.toList_repr]
  exact scanChars_toDigits (by decide) number (fun k hk => (next_digitChar hk).1)
    (fun n k hk => (next_digitChar hk).2 n) n

theorem scan_toString (n : Nat) (rest : List Piece) :
    between.scan (.written (toString n) :: rest) = (number n).scan rest := by
  rw [scan_written (scanChars_toString n), List.nil_append]

/-- Digits complete an operator. -/
theorem scan_operator_toString (cs : List Char) (n : Nat) (rest : List Piece) :
    (operator cs).scan (.written (toString n) :: rest) =
      .sign (String.ofList cs.reverse) :: between.scan (.written (toString n) :: rest) := by
  obtain ⟨c, digits, hdigits⟩ := List.exists_cons_of_ne_nil (Nat.toDigits_ne_nil (n := n) (b := 10))
  have hoperator : ¬ isOperatorChar c := by
    have hall : ∀ k : Fin 10, ¬ isOperatorChar (Nat.digitChar k) := by decide
    have hmem : c ∈ Nat.toDigits 10 n := by rw [hdigits]; exact List.mem_cons_self
    obtain ⟨k, hk, rfl⟩ := exists_digitChar_of_mem_toDigits (by decide) hmem
    exact hall ⟨k, hk⟩
  have hnext : (operator cs).next c = complete (operator cs) c := if_neg hoperator
  rw [scan, scan, Nat.toString_eq_repr, Nat.toList_repr, hdigits, scanChars, scanChars, hnext]
  rfl

/-! ### Character literals -/

private theorem next_code_digitChar {k : Nat} (hk : k < 16) (n : Option Nat) :
    (code n).next k.digitChar = ([], code (some (16 * n.getD 0 + k))) := by
  have hall : ∀ k : Fin 16, Nat.digitChar k ≠ '\x7d' ∧
      hexValue? (Nat.digitChar k) = some k.val := by decide
  obtain ⟨hbrace, hvalue⟩ := hall ⟨k, hk⟩
  cases n <;> simp_all [next]

/-- The digits of an escape by code point are taken up to the code point. -/
theorem scanChars_code_toDigits (n : Nat) :
    (code none).scanChars (Nat.toDigits 16 n) = ([], code (some n)) :=
  scanChars_toDigits (by decide) (fun n => code (some n))
    (fun k hk => by simpa using next_code_digitChar hk none)
    (fun n k hk => next_code_digitChar hk (some n)) n

/-- The escape of a character by its code point is read as the character. -/
private theorem scanChars_codePoint (c : Char) :
    quote.scanChars (Text.Quoted.codePoint c) = ([], quoted c) := by
  have hvalid : c.toNat.isValidChar := c.valid
  have hopen : quote.scanChars ['\\', 'u', '\x7b'] = ([], code none) := rfl
  rw [Text.Quoted.codePoint, scanChars_append, scanChars_append, hopen, scanChars_code_toDigits]
  simp [scanChars, next, hvalid]

/-- A character that needs no escape is read as itself. -/
private theorem next_quote {c : Char} (hbackslash : c ≠ '\\')
    (hmarks : c ∉ ['\x27', '\n', '\r', '\t']) : quote.next c = ([], quoted c) := by
  have hcontains : ¬ "\x27\n\r\t".toList.contains c := by simpa using hmarks
  rw [next, if_neg hbackslash, if_neg hcontains]

/-- The encoded form of a character is read as the character, whether it is written as itself or
not. -/
private theorem scanChars_encode (alone : Char → Bool) (c : Char) :
    quote.scanChars (Text.Quoted.encode alone Text.Quoted.charDelimiter c) = ([], quoted c) := by
  unfold Text.Quoted.encode Text.Quoted.charDelimiter
  -- the short escapes, then the character as it is, then its code point
  split_ifs with hzero htab hreturn hline hbackslash hdelimiter halone
  · rw [hzero]; rfl
  · rw [htab]; rfl
  · rw [hreturn]; rfl
  · rw [hline]; rfl
  · rw [hbackslash]; rfl
  · rw [hdelimiter]; rfl
  · rw [scanChars, next_quote hbackslash (by simp [hdelimiter, hline, hreturn, htab])]
    rfl
  · exact scanChars_codePoint c

theorem scanChars_quoteCharBy (alone : Char → Bool) (c : Char) :
    between.scanChars (Text.quoteCharBy alone c).toList = ([.char c], between) := by
  have hopen : between.scanChars ['\x27'] = ([], quote) := rfl
  have hclose : (quoted c).scanChars ['\x27'] = ([.char c], between) := rfl
  rw [Text.quoteCharBy, String.toList_ofList, Text.Quoted.literal, List.flatMap_singleton,
    ← List.singleton_append, scanChars_append, Text.Quoted.charDelimiter, hopen,
    scanChars_append]
  rw [← Text.Quoted.charDelimiter, scanChars_encode]
  simp [hclose, Text.Quoted.charDelimiter]

theorem scan_quoteChar (c : Char) (rest : List Piece) :
    between.scan (.written (Text.quoteChar c) :: rest) = .char c :: between.scan rest := by
  rw [Text.quoteChar, scan_written (scanChars_quoteCharBy ..), List.singleton_append]

end Scan

/-! ### Expressions -/

/-- The tokens of the expression. -/
def CharRead.tokens (read : CharRead) : List Token :=
  if read.folded then
    [.word "fold", .sign "(", .word "s", .sign "[", .number read.offset, .sign "]", .sign ")"]
  else [.word "s", .sign "[", .number read.offset, .sign "]"]

/-- The tokens of the test. -/
def Test.tokens : Test → List Token
  | length comparison n => [.word "len", .sign comparison.symbol, .number n]
  | differs read c => read.tokens ++ [.sign "!=", .char c]

/-- The tokens of the alternatives. -/
def Condition.tokens : Condition → List Token
  | [] => []
  | [test] => test.tokens
  | test :: rest => test.tokens ++ .sign "||" :: Condition.tokens rest

/-- The tokens of the value. -/
def Value.tokens : Value → List Token
  | some expression => [.word "Some", .sign "(", .given expression, .sign ")"]
  | none => [.word "None"]

namespace Scan

theorem scan_charRead (read : CharRead) (rest : List Piece) :
    between.scan (read.pieces ++ rest) = read.tokens ++ between.scan rest := by
  obtain ⟨offset, _ | _⟩ := read
  · calc between.scan (.written "s[" :: .written (toString offset) :: .written "]" :: rest)
        = [.word "s", .sign "["] ++
            between.scan (.written (toString offset) :: .written "]" :: rest) := rfl
      _ = [.word "s", .sign "["] ++ (number offset).scan (.written "]" :: rest) := by
          rw [scan_toString]
      _ = _ := rfl
  · calc between.scan (.written "fold(s[" :: .written (toString offset) :: .written "])" :: rest)
        = [.word "fold", .sign "(", .word "s", .sign "["] ++
            between.scan (.written (toString offset) :: .written "])" :: rest) := rfl
      _ = [.word "fold", .sign "(", .word "s", .sign "["] ++
            (number offset).scan (.written "])" :: rest) := by rw [scan_toString]
      _ = _ := rfl

/-- A space completes a number. -/
private theorem scan_number {text : String} {cs : List Char} (h : text.toList = ' ' :: cs) (n : Nat)
    (rest : List Piece) :
    (number n).scan (.written text :: rest) =
      .number n :: between.scan (.written text :: rest) := by
  have hspace : (number n).next ' ' = ([.number n], between) := rfl
  have hbetween : between.next ' ' = ([], between) := rfl
  -- behind the number the space is read once more, as white space
  rw [scan, scan, h, scanChars, scanChars, hspace, hbetween]
  rfl

/-- A test is followed by a space. -/
theorem scan_test (test : Test) {text : String} {cs : List Char} (h : text.toList = ' ' :: cs)
    (rest : List Piece) :
    between.scan (test.pieces ++ .written text :: rest) =
      test.tokens ++ between.scan (.written text :: rest) := by
  cases test with
  | length comparison n =>
    have hsymbol : between.scan (.written "len " :: .written comparison.symbol :: .written " " ::
        .written (toString n) :: .written text :: rest) =
        [.word "len", .sign comparison.symbol] ++
          between.scan (.written (toString n) :: .written text :: rest) := by
      cases comparison <;> rfl
    rw [scan_toString, scan_number h] at hsymbol
    exact hsymbol
  | differs read c =>
    have hne : ∀ rest, between.scan (.written " != " :: rest) = .sign "!=" :: between.scan rest :=
      fun _ => rfl
    rw [Test.pieces, List.append_assoc, scan_charRead, List.cons_append, hne, List.singleton_append,
      scan_quoteChar, Test.tokens, List.append_assoc]
    rfl

theorem scan_condition (condition : Condition) {text : String} {cs : List Char}
    (h : text.toList = ' ' :: cs) (rest : List Piece) :
    between.scan (condition.pieces ++ .written text :: rest) =
      condition.tokens ++ between.scan (.written text :: rest) := by
  induction condition using Condition.pieces.induct with
  | case1 => rfl
  | case2 test => exact scan_test test h rest
  | case3 test tests hne ih =>
    have hspace : " || ".toList = ' ' :: "|| ".toList := rfl
    have hor : ∀ rest, between.scan (.written " || " :: rest) = .sign "||" :: between.scan rest :=
      fun _ => rfl
    rw [Condition.pieces, Condition.tokens, List.append_assoc, List.cons_append,
      scan_test test hspace, hor, ih, List.append_assoc]
    · rfl
    · exact hne
    · exact hne

end Scan

/-! ### Lines -/

mutual

/-- The tokens of the block. -/
def Block.tokens : Block → List Token
  | .exitIf condition value next =>
    .word "if" :: (condition.tokens ++ .sign "\x7b" :: .word "return" ::
      (value.tokens ++ .sign ";" :: .sign "\x7d" :: next.tokens))
  | .select read arms =>
    .word "match" :: (read.tokens ++ .sign "\x7b" :: tokensArms arms)
  | .result value => value.tokens

/-- The tokens of the arms up to the end of the match. -/
def Block.tokensArms : List (Char × Block) → List Token
  | [] => [.word "_", .sign "=>", .word "None", .sign ",", .sign "\x7d"]
  | (c, block) :: rest =>
    .char c :: .sign "=>" :: .sign "\x7b" ::
      (block.tokens ++ .sign "\x7d" :: tokensArms rest)

end

/-- The tokens of the function. -/
def Function.tokens (f : Function) : List Token :=
  (if f.isPublic then [.word "pub"] else []) ++
    .word "fn" :: .given f.name :: .sign "(" :: .word (if f.scope.input then "s" else "_s") ::
    .sign ":" :: .sign "&" :: .sign "[" :: .word "char" :: .sign "]" :: .sign ")" :: .sign "->" ::
    .word "Option" :: .sign "<" :: .given f.returnType :: .sign ">" :: .sign "\x7b" ::
    ((if f.scope.fold then Reading.foldTokens else []) ++
      ((if f.scope.length then Reading.lengthTokens else []) ++
        (f.body.tokens ++ [.sign "\x7d"])))

namespace Scan

/-- The space before a line is no token. -/
theorem scan_indent (n : Nat) (rest : List Piece) :
    between.scan (.written (String.ofList (List.replicate n ' ')) :: rest) =
      between.scan rest := by
  have hspaces : ∀ n, between.scanChars (List.replicate n ' ') = ([], between) := by
    intro n
    induction n with
    | zero => rfl
    | succ n ih =>
      have hspace : between.next ' ' = ([], between) := rfl
      rw [List.replicate_succ, scanChars, hspace, ih]
      rfl
  have hindent : between.scanChars (String.ofList (List.replicate n ' ')).toList =
      ([], between) := by
    rw [String.toList_ofList, hspaces]
  rw [scan_written hindent, List.nil_append]

theorem scan_line (line : Line) (rest : List Piece) :
    between.scan (line.source ++ rest) =
      between.scan (line.pieces ++ .written "\n" :: rest) := by
  rw [Line.source, List.cons_append, scan_indent, List.append_assoc, List.singleton_append]

theorem scan_lines_cons (line : Line) (lines : List Line) (rest : List Piece) :
    between.scan (Line.sourceAll (line :: lines) ++ rest) =
      between.scan (line.pieces ++ .written "\n" :: (Line.sourceAll lines ++ rest)) := by
  rw [Line.sourceAll, List.flatMap_cons, List.append_assoc, scan_line]
  rfl

theorem scan_lines_append (lines lines' : List Line) (rest : List Piece) :
    between.scan (Line.sourceAll (lines ++ lines') ++ rest) =
      between.scan (Line.sourceAll lines ++ (Line.sourceAll lines' ++ rest)) := by
  rw [Line.sourceAll, List.flatMap_append, List.append_assoc]
  rfl

section FixedText

variable (rest : List Piece)

theorem scan_newline : between.scan (.written "\n" :: rest) = between.scan rest := rfl

theorem scan_if : between.scan (.written "if " :: rest) = .word "if" :: between.scan rest :=
  rfl

theorem scan_return :
    between.scan (.written "return " :: rest) = .word "return" :: between.scan rest := rfl

theorem scan_match :
    between.scan (.written "match " :: rest) = .word "match" :: between.scan rest := rfl

theorem scan_open :
    between.scan (.written " \x7b" :: rest) = .sign "\x7b" :: between.scan rest := rfl

theorem scan_close :
    between.scan (.written "\x7d" :: rest) = .sign "\x7d" :: between.scan rest := rfl

theorem scan_arrow :
    between.scan (.written " => \x7b" :: rest) = .sign "=>" :: .sign "\x7b" :: between.scan rest :=
  rfl

theorem scan_otherwise :
    between.scan (.written "_ => None," :: rest) =
      .word "_" :: .sign "=>" :: .word "None" :: .sign "," :: between.scan rest := rfl

private theorem scan_value (value : Value) :
    between.scan (value.pieces ++ .written "\n" :: rest) = value.tokens ++ between.scan rest := by
  cases value <;> rfl

private theorem scan_value_semicolon (value : Value) :
    between.scan (value.pieces ++ .written ";" :: rest) =
      value.tokens ++ .sign ";" :: between.scan rest := by
  cases value <;> rfl

/-- Lines that leave no token open are scanned one by one. -/
private theorem scan_lines_written (texts : List (Nat × String))
    (h : ∀ text ∈ texts, (between.scanChars text.2.toList).2 = between) :
    between.scan (Line.sourceAll (texts.map fun text => ⟨text.1, [.written text.2]⟩) ++ rest) =
      between.scan (texts.map fun text => .written text.2) ++ between.scan rest := by
  induction texts with
  | nil => rfl
  | cons text texts ih =>
    have htext := h text (by simp)
    have hrest := ih fun t ht => h t (by simp [ht])
    rw [List.map_cons, List.map_cons, scan_lines_cons, List.singleton_append, scan, htext,
      scan_newline, hrest, scan, htext, List.append_assoc]

private theorem scan_foldLines :
    between.scan (Line.sourceAll Function.foldLines ++ rest) =
      Reading.foldTokens ++ between.scan rest :=
  scan_lines_written rest [
    (1, "let fold = |c: char| -> char \x7b"), (2, "let mut upper = c.to_uppercase();"),
    (2, "match (upper.next(), upper.next()) \x7b"), (3, "(Some(u), None) => u,"), (3, "_ => c,"),
    (2, "\x7d"), (1, "\x7d;")] (by decide +kernel)

private theorem scan_lengthLines :
    between.scan (Line.sourceAll Function.lengthLines ++ rest) =
      Reading.lengthTokens ++ between.scan rest := rfl

end FixedText

/-- The tokens of the arms, with the line that closes the match. -/
private theorem scan_linesArms {arms : List (Char × Block)}
    (h : ∀ arm ∈ arms, ∀ depth rest, between.scan (Line.sourceAll (arm.2.lines depth) ++ rest) =
      arm.2.tokens ++ between.scan rest) (depth depth' : Nat) (rest : List Piece) :
    between.scan (Line.sourceAll
        (Block.linesArms depth arms ++ [⟨depth', [.written "\x7d"]⟩]) ++ rest) =
      Block.tokensArms arms ++ between.scan rest := by
  induction arms with
  | nil =>
    rw [Block.linesArms, List.singleton_append, scan_lines_cons, List.singleton_append,
      scan_otherwise, scan_newline, scan_lines_cons, List.singleton_append, scan_close,
      scan_newline]
    rfl
  | cons arm arms ih =>
    obtain ⟨c, block⟩ := arm
    have hblock := h (c, block) (by simp)
    have hrest := ih fun a ha => h a (by simp [ha])
    rw [Block.linesArms, List.cons_append, scan_lines_cons, List.cons_append, scan_quoteChar,
      List.singleton_append, scan_arrow, scan_newline, List.append_assoc, scan_lines_append, hblock,
      List.cons_append, scan_lines_cons, List.singleton_append, scan_close, scan_newline, hrest,
      Block.tokensArms]
    simp only [List.cons_append, List.append_assoc]

/-- The lines of a block have its tokens. -/
theorem scan_lines (block : Block) (depth : Nat) (rest : List Piece) :
    between.scan (Line.sourceAll (block.lines depth) ++ rest) =
      block.tokens ++ between.scan rest := by
  induction block using Block.induction generalizing depth rest with
  | exitIf condition value next ih =>
    have hopen : " \x7b".toList = ' ' :: "\x7b".toList := rfl
    rw [Block.lines, scan_lines_cons, List.cons_append, List.append_assoc, List.singleton_append,
      scan_if, scan_condition condition hopen, scan_open, scan_newline, scan_lines_cons,
      List.cons_append, List.append_assoc, List.singleton_append, scan_return,
      scan_value_semicolon, scan_newline, scan_lines_cons, List.singleton_append, scan_close,
      scan_newline, ih, Block.tokens]
    simp only [List.cons_append, List.append_assoc]
  | select read arms ih =>
    rw [Block.lines, scan_lines_cons, List.cons_append, List.append_assoc, List.singleton_append,
      scan_match, scan_charRead, scan_open, scan_newline, scan_linesArms ih, Block.tokens]
    simp only [List.cons_append, List.append_assoc]
  | result value =>
    rw [Block.lines, scan_lines_cons, scan_value]
    rfl

/-- The tokens of the line that opens a function. -/
theorem scan_header (f : Function) (rest : List Piece) :
    between.scan (f.header.pieces ++ rest) =
      (if f.isPublic then [.word "pub"] else []) ++
        .word "fn" :: .given f.name :: .sign "(" ::
        .word (if f.scope.input then "s" else "_s") :: .sign ":" :: .sign "&" :: .sign "[" ::
        .word "char" :: .sign "]" :: .sign ")" :: .sign "->" :: .word "Option" :: .sign "<" ::
        .given f.returnType :: .sign ">" :: .sign "\x7b" :: between.scan rest := by
  rw [Function.header]
  cases f.isPublic <;> cases f.scope.input <;> rfl

end Scan

/-- **Printing and scanning a function gives its tokens.** -/
theorem tokensOf_source (f : Function) : tokensOf f.source = f.tokens := by
  have hfold : ∀ rest, Scan.between.scan
      (Line.sourceAll (if f.scope.fold then Function.foldLines else []) ++ rest) =
        (if f.scope.fold then Reading.foldTokens else []) ++ Scan.between.scan rest := by
    intro rest
    cases f.scope.fold
    · rfl
    · exact Scan.scan_foldLines rest
  have hlength : ∀ rest, Scan.between.scan
      (Line.sourceAll (if f.scope.length then Function.lengthLines else []) ++ rest) =
        (if f.scope.length then Reading.lengthTokens else []) ++ Scan.between.scan rest := by
    intro rest
    cases f.scope.length
    · rfl
    · exact Scan.scan_lengthLines rest
  have hend : Scan.between.scan (Line.sourceAll [⟨0, [.written "\x7d"]⟩] ++ []) =
      [.sign "\x7d"] := rfl
  rw [tokensOf, Function.source, ← List.append_nil (Line.sourceAll f.lines), Function.lines,
    Scan.scan_lines_cons, Scan.scan_header, Scan.scan_newline, Scan.scan_lines_append,
    Scan.scan_lines_append, Scan.scan_lines_append, hfold, hlength, Scan.scan_lines, hend]
  rfl

end Lexicon.Source
