import Lexicon.Proofs.Source.Scanning
import Lexicon.Proofs.Text.Quoted
import Lexicon.Source.Names

/-!
# Names in a printed function

A printed function has one line of text for each of its lines (`Function.linesOf_source`), because
no piece of it that is written has a line break of its own. The words on the lines of a block are
those among its tokens (`Block.exists_refers_lines_iff`), and where a line refers to `fold` it calls
it (`Block.IsLine.calls_fold`). The lines in front of the body are known as text
(`Function.textOf_header`).
-/

namespace Lexicon.Source

/-! ### Lines of text -/

theorem textOf_append (source rest : List Piece) :
    textOf (source ++ rest) = textOf source ++ textOf rest := by
  rw [textOf, List.map_append, String.join_append]
  rfl

/-- The text is that of its lines, with line breaks between them. -/
theorem textOf_eq_intercalate (source : List Piece) :
    textOf source = "\n".intercalate ((linesOf source).map textOf) := by
  have hjoin : ∀ lines : List (List Piece),
      textOf ([Piece.written "\n"].intercalate lines) = "\n".intercalate (lines.map textOf) := by
    intro lines
    induction lines with
    | nil => rfl
    | cons line rest ih =>
      cases rest with
      | nil => simp [textOf]
      | cons next rest =>
        rw [List.intercalate_cons_cons, textOf_append, textOf_append, ih]
        simp only [List.map_cons, String.intercalate_cons_cons]
        rfl
  rw [linesOf, ← hjoin, List.intercalate_splitOn]

/-- Lines that are free of line breaks are the lines of their text; behind the last one there is
nothing. -/
theorem linesOf_sourceAll {lines : List Line}
    (h : ∀ line ∈ lines, .written "\n" ∉ line.indented) :
    linesOf (Line.sourceAll lines) = lines.map Line.indented ++ [[]] :=
  Text.splitOn_flatMap_concat h

/-! ### The forms of lines -/

/-- The forms that a line of a block has. -/
inductive Block.IsLine : List Piece → Prop
  | exit (condition : Condition) :
    IsLine (.written "if " :: (condition.pieces ++ [.written " \x7b"]))
  | leave (value : Value) : IsLine (.written "return " :: (value.pieces ++ [.written ";"]))
  | select (read : CharRead) :
    IsLine (.written "match " :: (read.pieces ++ [.written " \x7b"]))
  | arm (c : Char) : IsLine [.written (Text.quoteChar c), .written " => \x7b"]
  | otherwise : IsLine [.written "_ => None,"]
  | close : IsLine [.written "\x7d"]
  | result (value : Value) : IsLine value.pieces

theorem Block.isLine_of_mem_linesArms {arms : List (Char × Block)}
    (h : ∀ arm ∈ arms, ∀ depth, ∀ line ∈ arm.2.lines depth, IsLine line.pieces) (depth : Nat) :
    ∀ line ∈ linesArms depth arms, IsLine line.pieces := by
  induction arms with
  | nil =>
    rintro line hline
    obtain rfl := List.mem_singleton.1 hline
    exact .otherwise
  | cons arm rest ih =>
    have harm := h arm (by simp) (depth + 1)
    have hrest := ih fun a ha => h a (by simp [ha])
    simp only [linesArms, List.forall_mem_cons, List.forall_mem_append]
    exact ⟨.arm arm.1, harm, .close, hrest⟩

theorem Block.isLine_of_mem_lines (b : Block) (depth : Nat) :
    ∀ line ∈ b.lines depth, IsLine line.pieces := by
  induction b using Block.induction generalizing depth with
  | exitIf condition value next ih =>
    simp only [lines, List.forall_mem_cons]
    exact ⟨.exit condition, .leave value, .close, ih depth⟩
  | select read arms ih =>
    simp only [lines, List.forall_mem_cons, List.forall_mem_append]
    exact ⟨.select read, isLine_of_mem_linesArms ih (depth + 1), .close, by simp⟩
  | result value =>
    simp only [lines, List.forall_mem_cons]
    exact ⟨.result value, by simp⟩

/-! ### Line breaks -/

/-- Text without a line break is not a line break. -/
theorem newline_ne {text : String} (h : Text.OneLine text) : "\n" ≠ text := by
  rintro rfl
  exact h (by decide)

theorem newline_ne_repr (n : Nat) : "\n" ≠ n.repr := newline_ne (.toString n)

theorem newline_ne_quoteChar (c : Char) : "\n" ≠ Text.quoteChar c :=
  newline_ne (Text.oneLine_quoteCharBy _ c)

theorem CharRead.newline_notMem (read : CharRead) : .written "\n" ∉ read.pieces := by
  rw [pieces]
  split <;> simp [newline_ne_repr]

theorem Test.newline_notMem (test : Test) : .written "\n" ∉ test.pieces := by
  cases test with
  | length comparison n => cases comparison <;> simp [pieces, Comparison.symbol, newline_ne_repr]
  | differs read c => simp [pieces, read.newline_notMem, newline_ne_quoteChar]

theorem Condition.newline_notMem (condition : Condition) :
    .written "\n" ∉ condition.pieces := by
  induction condition using Condition.pieces.induct with
  | case1 => exact List.not_mem_nil
  | case2 test => exact test.newline_notMem
  | case3 test rest hne ih =>
    rw [Condition.pieces]
    · simp [test.newline_notMem, ih]
    · exact hne

theorem Value.newline_notMem (value : Value) : .written "\n" ∉ value.pieces := by
  cases value <;> simp [pieces]

theorem Block.IsLine.newline_notMem {line : List Piece} (h : IsLine line) :
    .written "\n" ∉ line := by
  cases h with
  | exit condition => simp [condition.newline_notMem]
  | leave value => simp [value.newline_notMem]
  | select read => simp [read.newline_notMem]
  | arm c => simp [newline_ne_quoteChar]
  | otherwise => simp
  | close => simp
  | result value => exact value.newline_notMem

theorem Line.newline_notMem_indented {line : Line} (h : .written "\n" ∉ line.pieces) :
    .written "\n" ∉ line.indented := by
  have hindent : "\n" ≠ String.ofList (List.replicate (4 * line.depth) ' ') :=
    newline_ne (by simp [Text.OneLine])
  simp [indented, h, hindent]

/-- No line of a function has a line break of its own. -/
theorem Function.newline_notMem_lines (f : Function) :
    ∀ line ∈ f.lines, .written "\n" ∉ line.indented := by
  have hheader : .written "\n" ∉ f.header.pieces := by
    cases hpublic : f.isPublic <;> cases hinput : f.scope.input <;>
      simp [header, hpublic, hinput]
  have hfold : ∀ line ∈ if f.scope.fold then foldLines else [], .written "\n" ∉ line.pieces := by
    split <;> decide
  have hlength : ∀ line ∈ if f.scope.length then lengthLines else [],
      .written "\n" ∉ line.pieces := by
    split <;> decide
  have hbody : ∀ line ∈ f.body.lines 1, .written "\n" ∉ line.pieces := fun line hline =>
    (f.body.isLine_of_mem_lines 1 line hline).newline_notMem
  have hlines : ∀ line ∈ f.lines, .written "\n" ∉ line.pieces := by
    simp only [lines, List.forall_mem_cons, List.forall_mem_append]
    exact ⟨hheader, ⟨⟨hfold, hlength⟩, hbody⟩, by simp⟩
  exact fun line hline => Line.newline_notMem_indented (hlines line hline)

/-! ### Tokens of lines -/

theorem tokensOf_indented (line : Line) : tokensOf line.indented = tokensOf line.pieces :=
  Scan.scan_indent _ _

section Forms

open Scan

theorem tokensOf_exit (condition : Condition) :
    tokensOf (.written "if " :: (condition.pieces ++ [.written " \x7b"])) =
      .word "if" :: (condition.tokens ++ [.sign "\x7b"]) := by
  have hopen : " \x7b".toList = ' ' :: "\x7b".toList := rfl
  rw [tokensOf, scan_if, scan_condition condition hopen]
  rfl

theorem tokensOf_leave (value : Value) :
    tokensOf (.written "return " :: (value.pieces ++ [.written ";"])) =
      .word "return" :: (value.tokens ++ [.sign ";"]) := by
  cases value <;> rfl

theorem tokensOf_select (read : CharRead) :
    tokensOf (.written "match " :: (read.pieces ++ [.written " \x7b"])) =
      .word "match" :: (read.tokens ++ [.sign "\x7b"]) := by
  rw [tokensOf, scan_match, scan_charRead]
  rfl

theorem tokensOf_arm (c : Char) :
    tokensOf [.written (Text.quoteChar c), .written " => \x7b"] =
      [.char c, .sign "=>", .sign "\x7b"] := by
  rw [tokensOf, scan_quoteChar]
  rfl

theorem tokensOf_otherwise :
    tokensOf [.written "_ => None,"] = [.word "_", .sign "=>", .word "None", .sign ","] := rfl

theorem tokensOf_close : tokensOf [.written "\x7d"] = [.sign "\x7d"] := rfl

theorem tokensOf_value (value : Value) : tokensOf value.pieces = value.tokens := by
  cases value <;> rfl

end Forms

theorem Block.flatMap_tokensOf_linesArms {arms : List (Char × Block)}
    (h : ∀ arm ∈ arms, ∀ depth,
      (arm.2.lines depth).flatMap (fun line => tokensOf line.pieces) = arm.2.tokens)
    (depth : Nat) :
    (linesArms depth arms).flatMap (fun line => tokensOf line.pieces) ++ [.sign "\x7d"] =
      tokensArms arms := by
  induction arms with
  | nil => rfl
  | cons arm rest ih =>
    have harm := h arm (by simp) (depth + 1)
    have hrest := ih fun a ha => h a (by simp [ha])
    simp only [linesArms, List.flatMap_cons, List.flatMap_append, List.append_assoc, tokensOf_arm,
      tokensOf_close, harm, hrest, tokensArms]
    rfl

/-- No token of a block spans two lines. -/
theorem Block.flatMap_tokensOf_lines (b : Block) (depth : Nat) :
    (b.lines depth).flatMap (fun line => tokensOf line.pieces) = b.tokens := by
  induction b using Block.induction generalizing depth with
  | exitIf condition value next ih =>
    simp only [lines, List.flatMap_cons, tokensOf_exit, tokensOf_leave, tokensOf_close, ih,
      Block.tokens, List.cons_append, List.nil_append, List.append_assoc]
  | select read arms ih =>
    have harms := flatMap_tokensOf_linesArms ih (depth + 1)
    simp only [lines, List.flatMap_cons, List.flatMap_append, List.flatMap_nil, tokensOf_select,
      tokensOf_close, List.append_nil, harms, Block.tokens, List.cons_append, List.nil_append,
      List.append_assoc]
  | result value =>
    rw [lines, List.flatMap_singleton, tokensOf_value, Block.tokens]

/-- The words on the lines of a block are those among its tokens. -/
theorem Block.exists_refers_lines_iff (b : Block) (depth : Nat) (name : String) :
    (∃ line ∈ b.lines depth, Refers name line.indented) ↔ .word name ∈ b.tokens := by
  rw [← b.flatMap_tokensOf_lines depth, List.mem_flatMap]
  simp only [Refers, tokensOf_indented]

/-! ### Calls -/

theorem CharRead.call_infix_tokens {read : CharRead} (h : .word "fold" ∈ read.tokens) :
    [.word "fold", .sign "("] <:+: read.tokens := by
  obtain ⟨offset, _ | _⟩ := read
  · simp [tokens] at h
  · exact ⟨[], _, rfl⟩

theorem Test.call_infix_tokens {test : Test} (h : .word "fold" ∈ test.tokens) :
    [.word "fold", .sign "("] <:+: test.tokens := by
  cases test with
  | length comparison n => simp [tokens] at h
  | differs read c =>
    have hread : .word "fold" ∈ read.tokens := by simpa [tokens] using h
    exact (CharRead.call_infix_tokens hread).trans (List.prefix_append _ _).isInfix

theorem Condition.call_infix_tokens {condition : Condition}
    (h : .word "fold" ∈ Condition.tokens condition) :
    [.word "fold", .sign "("] <:+: Condition.tokens condition := by
  induction condition using Condition.tokens.induct with
  | case1 => simp [tokens] at h
  | case2 test => exact Test.call_infix_tokens h
  | case3 test rest hne ih =>
    rw [tokens] at h ⊢
    · rcases List.mem_append.1 h with h | h
      · exact (Test.call_infix_tokens h).trans (List.prefix_append _ _).isInfix
      · have hrest := ih (by simpa using h)
        exact hrest.trans ((List.suffix_cons _ _).trans (List.suffix_append _ _)).isInfix
    · exact hne
    · exact hne

/-- A line of a block that refers to `fold` calls it. -/
theorem Block.IsLine.calls_fold {line : List Piece} (h : IsLine line) (hrefers : Refers "fold" line) :
    Calls "fold" line := by
  rw [Refers] at hrefers
  rw [Calls]
  cases h with
  | exit condition =>
    rw [tokensOf_exit] at hrefers ⊢
    have hcondition := Condition.call_infix_tokens (by simpa using hrefers)
    exact hcondition.trans ⟨[.word "if"], [.sign "\x7b"], rfl⟩
  | leave value =>
    rw [tokensOf_leave] at hrefers
    cases value <;> simp [Value.tokens] at hrefers
  | select read =>
    rw [tokensOf_select] at hrefers ⊢
    have hread := CharRead.call_infix_tokens (by simpa using hrefers)
    exact hread.trans ⟨[.word "match"], [.sign "\x7b"], rfl⟩
  | arm c => simp [tokensOf_arm] at hrefers
  | otherwise => simp [tokensOf_otherwise] at hrefers
  | close => simp [tokensOf_close] at hrefers
  | result value =>
    rw [tokensOf_value] at hrefers
    cases value <;> simp [Value.tokens] at hrefers

/-! ### The parts of a function -/

/-- The lines of text of a block that is the body of a function, with the end of the function and
the nothing behind it. -/
def Block.bodyLines (b : Block) : List (List Piece) :=
  (b.lines 1).map Line.indented ++ [Line.indented ⟨0, [.written "\x7d"]⟩, []]

/-- The lines of text that define `fold`, if the function does. -/
def Function.closureLines (f : Function) : List (List Piece) :=
  if f.scope.fold then foldLines.map Line.indented else []

/-- The lines of text that define `len`, if the function does. -/
def Function.definitionLines (f : Function) : List (List Piece) :=
  if f.scope.length then lengthLines.map Line.indented else []

theorem Function.textOf_header (f : Function) :
    textOf f.header.indented =
      (if f.isPublic then "pub fn " else "fn ") ++ f.name ++ "(" ++
        (if f.scope.input then "s" else "_s") ++ ": &[char]) -> Option<" ++ f.returnType ++
        "> \x7b" := by
  rw [← String.toList_inj]
  cases hpublic : f.isPublic <;> cases hinput : f.scope.input <;>
    simp [Line.indented, header, textOf, hpublic, hinput, Piece.text]

theorem Function.map_textOf_foldLines : (foldLines.map Line.indented).map textOf = [
    "    let fold = |c: char| -> char \x7b",
    "        let mut upper = c.to_uppercase();",
    "        match (upper.next(), upper.next()) \x7b",
    "            (Some(u), None) => u,",
    "            _ => c,",
    "        \x7d",
    "    \x7d;"] := by
  decide +kernel

theorem Function.map_textOf_lengthLines :
    (lengthLines.map Line.indented).map textOf = ["    let len = s.len();"] := by
  decide +kernel

/-- A printed function has one line of text for each of its lines. -/
theorem Function.linesOf_source (f : Function) :
    linesOf f.source =
      f.header.indented :: (f.closureLines ++ f.definitionLines ++ f.body.bodyLines) := by
  rw [source, linesOf_sourceAll f.newline_notMem_lines, closureLines, definitionLines,
    Block.bodyLines, lines]
  cases f.scope.fold <;> cases f.scope.length <;> simp

/-- The end of the function refers to nothing. -/
theorem Block.mem_lines_of_refers {b : Block} {name : String} {line : List Piece}
    (h : line ∈ b.bodyLines) (hrefers : Refers name line) :
    ∃ l ∈ b.lines 1, l.indented = line := by
  have hclose : ¬ Refers name (Line.indented ⟨0, [.written "\x7d"]⟩) := by
    rw [Refers, tokensOf_indented, tokensOf_close]
    simp
  have hnothing : ¬ Refers name [] := List.not_mem_nil
  rcases List.mem_append.1 h with h | h
  · exact List.mem_map.1 h
  · rcases List.mem_pair.1 h with rfl | rfl
    · exact absurd hrefers hclose
    · exact absurd hrefers hnothing

theorem Block.mem_bodyLines {b : Block} {line : Line} (h : line ∈ b.lines 1) :
    line.indented ∈ b.bodyLines :=
  List.mem_append_left _ (List.mem_map_of_mem h)

/-- The words on the lines of a body are those among the tokens of the block. -/
theorem Block.exists_refers_bodyLines_iff {b : Block} {name : String} :
    (∃ line ∈ b.bodyLines, Refers name line) ↔ .word name ∈ b.tokens := by
  rw [← b.exists_refers_lines_iff 1]
  constructor
  · rintro ⟨line, hline, hrefers⟩
    obtain ⟨l, hl, rfl⟩ := mem_lines_of_refers hline hrefers
    exact ⟨l, hl, hrefers⟩
  · rintro ⟨l, hl, hrefers⟩
    exact ⟨l.indented, mem_bodyLines hl, hrefers⟩

/-- Some line of a body calls `fold` if some line refers to it. -/
theorem Block.exists_calls_bodyLines_iff {b : Block} :
    (∃ line ∈ b.bodyLines, Calls "fold" line) ↔ .word "fold" ∈ b.tokens := by
  rw [← exists_refers_bodyLines_iff]
  constructor
  · rintro ⟨line, hline, hcalls⟩
    exact ⟨line, hline, hcalls.refers⟩
  · rintro ⟨line, hline, hrefers⟩
    obtain ⟨l, hl, rfl⟩ := mem_lines_of_refers hline hrefers
    refine ⟨l.indented, hline, ?_⟩
    rw [Refers, tokensOf_indented] at hrefers
    rw [Calls, tokensOf_indented]
    exact (b.isLine_of_mem_lines 1 l hl).calls_fold hrefers

/-- The name of a parameter stands behind that of the function. -/
theorem Function.parameter_infix_header (f : Function) :
    [.given f.name, .sign "(", .word (if f.scope.input then "s" else "_s"), .sign ":"] <:+:
      tokensOf f.header.indented := by
  rw [tokensOf_indented, tokensOf, ← List.append_nil f.header.pieces, Scan.scan_header]
  cases f.isPublic
  · exact ⟨[.word "fn"], _, rfl⟩
  · exact ⟨[.word "pub", .word "fn"], _, rfl⟩

/-- The header has no words but those of its own. -/
theorem Function.not_refers_header {f : Function} {name : String}
    (h : name ∉ ["pub", "fn", "s", "_s", "char", "Option"]) : ¬ Refers name f.header.indented := by
  rw [Refers, tokensOf_indented, tokensOf, ← List.append_nil f.header.pieces, Scan.scan_header]
  cases f.isPublic <;> cases f.scope.input <;> simp_all [Scan.scan, Scan.flush]

end Lexicon.Source
