import Lexicon.Decision.Readback
import Lexicon.Proofs.Payload

/-!
# A listing loses nothing

Every part of a row is scanned as its own tokens, whichever characters are written as themselves, so
that a row is read back from its text (`Row.ofText?_text`). The text of a row has no line break and
does not begin with a space; so the lines of a listing are its rows, and the decision is read back
from these (`Decision.ofListing?_listingBy`). What can be read back is determined by its listing
(`listing_lossless`).
-/

namespace Lexicon

open Source (Scan Token tokensOf)
open Text (Line OneLine mapM_map_eq_some)

universe u v w

variable {V : Type u}

/-! ### Tokens -/

/-- The tokens of a check, behind `len`. -/
def LengthCheck.tokens : LengthCheck → List Token
  | exact n => [.sign "==", .number n]
  | min n => [.sign ">=", .number n]
  | max n => [.sign "<=", .number n]
  | range lo hi => [.word "in", .number lo, .sign ".", .sign ".", .sign "=", .number hi]

/-- The tokens of a test. -/
def CharTest.tokens (test : CharTest) : List Token :=
  [.word "s", .sign "[", .number test.offset, .sign "]", .sign "==", .char test.char]

theorem LengthCheck.ofTokens?_tokens (check : LengthCheck) :
    ofTokens? check.tokens = some check := by
  cases check <;> rfl

theorem CharTest.allOfTokens?_intercalate (tests : List CharTest) :
    allOfTokens? ([.sign "&&"].intercalate (tests.map tokens)) = some tests := by
  cases tests with
  | nil => rfl
  | cons test rest =>
    have hne : [Token.sign "&&"].intercalate ((test :: rest).map tokens) ≠ [] := by
      cases rest <;> simp [tokens, List.intercalate_cons_cons]
    have hsign : ∀ ts ∈ (test :: rest).map tokens, Token.sign "&&" ∉ ts := by simp [tokens]
    have hread : ∀ t ∈ test :: rest, ofTokens? t.tokens = some (id t) := fun _ _ => rfl
    rw [allOfTokens?]
    · rw [List.splitOn_intercalate _ hsign (by simp), mapM_map_eq_some id hread, List.map_id]
    · exact hne

namespace Source.Scan

/-- A comparison of the length with a number. -/
private theorem scan_comparison {text symbol : String}
    (h : ∀ rest, between.scan (.written text :: rest) =
      .word "len" :: .sign symbol :: between.scan rest) (n : Nat) :
    between.scan [.written (text ++ toString n)] =
      [.word "len", .sign symbol, .number n] := by
  rw [scan_written_append, h, scan_toString]
  rfl

theorem scan_check (check : LengthCheck) :
    between.scan [.written check.text] = .word "len" :: check.tokens := by
  cases check with
  | exact n => exact scan_comparison (fun _ => rfl) n
  | min n => exact scan_comparison (fun _ => rfl) n
  | max n => exact scan_comparison (fun _ => rfl) n
  | range lo hi =>
    change between.scan [.written ("len in " ++ toString lo ++ "..=" ++ toString hi)] = _
    rw [scan_written_append, scan_written_append, scan_written_append]
    calc between.scan [.written "len in ", .written (toString lo), .written "..=",
          .written (toString hi)]
        = [.word "len", .word "in"] ++
            between.scan [.written (toString lo), .written "..=", .written (toString hi)] := rfl
      _ = [.word "len", .word "in"] ++
            (number lo).scan [.written "..=", .written (toString hi)] := by rw [scan_toString]
      _ = [.word "len", .word "in", .number lo, .sign ".", .sign "."] ++
            (operator ['=']).scan [.written (toString hi)] := rfl
      _ = [.word "len", .word "in", .number lo, .sign ".", .sign ".", .sign "="] ++
            between.scan [.written (toString hi)] := by rw [scan_operator_toString]; rfl
      _ = _ := by rw [scan_toString]; rfl

theorem scan_charTest (alone : Char → Bool) (test : CharTest) (rest : List Piece) :
    between.scan (.written (test.text alone) :: rest) = test.tokens ++ between.scan rest := by
  change between.scan (.written ("s[" ++ toString test.offset ++ "] == " ++
    Text.quoteCharBy alone test.char) :: rest) = _
  rw [scan_written_append, scan_written_append, scan_written_append]
  calc between.scan (.written "s[" :: .written (toString test.offset) :: .written "] == " ::
        .written (Text.quoteCharBy alone test.char) :: rest)
      = [.word "s", .sign "["] ++ between.scan (.written (toString test.offset) ::
          .written "] == " :: .written (Text.quoteCharBy alone test.char) :: rest) := rfl
    _ = [.word "s", .sign "["] ++ (number test.offset).scan (.written "] == " ::
          .written (Text.quoteCharBy alone test.char) :: rest) := by rw [scan_toString]
    _ = [.word "s", .sign "[", .number test.offset, .sign "]", .sign "=="] ++
          between.scan (.written (Text.quoteCharBy alone test.char) :: rest) := rfl
    _ = _ := by rw [scan_written (scanChars_quoteCharBy ..)]; rfl

theorem scan_charTests (alone : Char → Bool) (tests : List CharTest) :
    between.scan [.written (" && ".intercalate (tests.map (CharTest.text alone)))] =
      [.sign "&&"].intercalate (tests.map CharTest.tokens) := by
  induction tests with
  | nil => rfl
  | cons test rest ih =>
    cases rest with
    | nil =>
      rw [List.map_singleton, String.intercalate_singleton, scan_charTest, List.map_singleton,
        List.intercalate_singleton]
      exact List.append_nil _
    | cons next rest =>
      have hand : ∀ rest,
          between.scan (.written " && " :: rest) = .sign "&&" :: between.scan rest := fun _ => rfl
      rw [List.map_cons, List.map_cons, String.intercalate_cons_cons, scan_written_append,
        scan_written_append, scan_charTest, hand, ← List.map_cons, ih]
      simp [List.intercalate_cons_cons]

end Source.Scan

/-! ### Rows from their text -/

namespace Row

variable {alone : Char → Bool} {quote : V → String} {unquote : String → Option V}

/-- Behind `check` there is a test or nothing. -/
private theorem ofTokens?_tests (tests : List CharTest) :
    ofTokens? (.word "check" :: [.sign "&&"].intercalate (tests.map CharTest.tokens)) =
      (some (spell tests) : Option (Row V)) := by
  have hread := congrArg (Option.map (spell : _ → Row V)) (CharTest.allOfTokens?_intercalate tests)
  rcases tests with _ | ⟨test, _ | ⟨next, rest⟩⟩
  · rfl
  · exact hread
  · rw [List.map_cons, List.map_cons, List.intercalate_cons_cons] at hread ⊢
    exact hread

/-- A row without payload is read back from its tokens. -/
private theorem ofTokens?_text {row : Row V} (haccept : ∀ payload, row ≠ accept payload)
    (honEnd : ∀ offset payload, row ≠ onEnd offset payload) :
    ofTokens? (tokensOf [.written (row.text alone quote)]) = some row := by
  cases row with
  | guard check =>
    rw [text, tokensOf, Scan.scan_written_append]
    change ofTokens? (.word "check" :: Scan.between.scan [.written check.text]) = _
    rw [Scan.scan_check]
    exact congrArg (Option.map guard) (LengthCheck.ofTokens?_tokens check)
  | spell tests =>
    rw [text, tokensOf, Scan.scan_written_append]
    change ofTokens? (.word "check" :: Scan.between.scan [.written
      (" && ".intercalate (tests.map (CharTest.text alone)))]) = _
    rw [Scan.scan_charTests]
    exact ofTokens?_tests tests
  | onEnd offset payload => exact absurd rfl (honEnd offset payload)
  | dispatch offset =>
    change ofTokens? (Scan.between.scan [.written ("match s[" ++ toString offset ++ "]")]) = _
    rw [Scan.scan_written_append, Scan.scan_written_append]
    change ofTokens? ([.word "match", .word "s", .sign "["] ++
      Scan.between.scan [.written (toString offset), .written "]"]) = _
    rw [Scan.scan_toString]
    rfl
  | case c =>
    rw [text, tokensOf, Scan.scan_written_append, Scan.scan_written (Scan.scanChars_quoteCharBy ..)]
    rfl
  | otherwise =>
    rw [text]
    rfl
  | accept payload => exact absurd rfl (haccept payload)
  | miss =>
    rw [text]
    rfl

/-- The character with which the text of a row begins. -/
def firstChar : Row V → Char
  | guard _ | spell _ => 'c'
  | onEnd _ _ => 'i'
  | dispatch _ | miss => 'm'
  | case _ => '\x27'
  | otherwise => '_'
  | accept _ => 'r'

theorem head?_toList_text (alone : Char → Bool) (quote : V → String) (row : Row V) :
    (row.text alone quote).toList.head? = some row.firstChar := by
  have happend : ∀ {s t : String} {c : Char}, s.toList.head? = some c →
      (s ++ t).toList.head? = some c := fun h => by
    rw [String.toList_append, List.head?_append, h, Option.some_or]
  cases row with
  | guard check => exact happend rfl
  | spell tests => exact happend rfl
  | onEnd offset payload => exact happend (happend (happend rfl))
  | dispatch offset => exact happend (happend rfl)
  | case c => exact happend (by rw [Text.quoteCharBy, String.toList_ofList]; rfl)
  | otherwise => rw [text]; rfl
  | accept payload => exact happend rfl
  | miss => rw [text]; rfl

/-- A text that begins with another character does not begin with a word. -/
private theorem isPrefixOf?_eq_none {word cs : List Char} (hne : word ≠ [])
    (hhead : cs.head? ≠ word.head?) : word.isPrefixOf? cs = none := by
  refine Option.eq_none_iff_forall_ne_some.2 fun rest hrest => hhead ?_
  rw [← List.isPrefixOf?_eq_some_iff_append_eq.1 hrest, List.head?_append_of_ne_nil _ hne]

private theorem isPrefixOf?_append (word cs : List Char) :
    word.isPrefixOf? (word ++ cs) = some cs :=
  List.isPrefixOf?_eq_some_iff_append_eq.2 rfl

/-- The offset ends at the space behind it. -/
private theorem onEndOfText?_append (offset : Nat) (payload : List Char) :
    onEndOfText? unquote ((toString offset).toList ++ (" return ".toList ++ payload)) =
      (unquote (.ofList payload)).map (onEnd offset) := by
  have hdigits : ∀ c ∈ (toString offset).toList, c.isDigit = true := fun c hc => by
    rw [Nat.toString_eq_repr, Nat.toList_repr] at hc
    exact Nat.isDigit_of_mem_toDigits (by decide) (by decide) hc
  have hspace : (" return ".toList ++ payload).takeWhile Char.isDigit = [] := rfl
  have hreturn : (" return ".toList ++ payload).dropWhile Char.isDigit =
      " return ".toList ++ payload := rfl
  rw [onEndOfText?, List.takeWhile_append_of_pos hdigits, List.dropWhile_append_of_pos hdigits,
    hspace, List.append_nil, Scan.scanChars_toString, hreturn, isPrefixOf?_append]

/-- What begins neither as a payload nor as one for an input that ends is read by its tokens. -/
private theorem ofText?_of_head?_ne {text : List Char} (haccept : text.head? ≠ some 'r')
    (honEnd : text.head? ≠ some 'i') :
    ofText? unquote text = ofTokens? (tokensOf [.written (.ofList text)]) := by
  rw [ofText?, isPrefixOf?_eq_none (by decide) haccept, isPrefixOf?_eq_none (by decide) honEnd]

/-- A row is read back from its text. -/
theorem ofText?_text (h : ∀ payload, unquote (quote payload) = some payload) (row : Row V) :
    ofText? unquote (row.text alone quote).toList = some row := by
  have hhead := head?_toList_text alone quote row
  cases row with
  | accept payload =>
    have htext : ((accept payload).text alone quote).toList =
        "return ".toList ++ (quote payload).toList := String.toList_append
    rw [ofText?, htext, isPrefixOf?_append]
    dsimp only
    rw [String.ofList_toList, h]
    rfl
  | onEnd offset payload =>
    have hreturn : ((onEnd offset payload).text alone quote).toList.head? ≠ some 'r' := by
      rw [hhead]
      simp [firstChar]
    have htext : ((onEnd offset payload).text alone quote).toList =
        "if len == ".toList ++ ((toString offset).toList ++
          (" return ".toList ++ (quote payload).toList)) := by
      change ("if len == " ++ toString offset ++ " return " ++ quote payload).toList = _
      simp only [String.toList_append, List.append_assoc]
    rw [ofText?, isPrefixOf?_eq_none (by decide) hreturn, htext, isPrefixOf?_append]
    dsimp only
    rw [onEndOfText?_append, String.ofList_toList, h]
    rfl
  | _ =>
    rw [ofText?_of_head?_ne (by rw [hhead]; simp [firstChar]) (by rw [hhead]; simp [firstChar]),
      String.ofList_toList]
    exact ofTokens?_text (by simp) (by simp)

end Row

/-! ### Lines -/

theorem LengthCheck.oneLine_text (check : LengthCheck) : OneLine check.text := by
  cases check with
  | exact n => exact .append (by decide) (.toString n)
  | min n => exact .append (by decide) (.toString n)
  | max n => exact .append (by decide) (.toString n)
  | range lo hi =>
    exact .append (.append (.append (by decide) (.toString lo)) (by decide)) (.toString hi)

theorem CharTest.oneLine_text (alone : Char → Bool) (test : CharTest) : OneLine (test.text alone) :=
  .append (.append (.append (by decide) (.toString test.offset)) (by decide))
    (Text.oneLine_quoteCharBy alone test.char)

/-- A row stays on one line if payloads do. -/
theorem Row.oneLine_text {quote : V → String} (h : ∀ payload, OneLine (quote payload))
    (alone : Char → Bool) (row : Row V) : OneLine (row.text alone quote) := by
  cases row with
  | guard check => exact .append (by decide) check.oneLine_text
  | spell tests =>
    refine .append (by decide) (.intercalate (by decide) fun s hs => ?_)
    obtain ⟨test, -, rfl⟩ := List.mem_map.1 hs
    exact test.oneLine_text alone
  | onEnd offset payload =>
    exact .append (.append (.append (by decide) (.toString offset)) (by decide)) (h payload)
  | dispatch offset => exact .append (.append (by decide) (.toString offset)) (by decide)
  | case c => exact .append (Text.oneLine_quoteCharBy alone c) (by decide)
  | otherwise => exact (by decide : OneLine "_ => miss")
  | accept payload => exact .append (by decide) (h payload)
  | miss => exact (by decide : OneLine "miss")

/-! ### Listings -/

namespace Decision

/-- A decision is read back from its listing, if payloads are read back and stay on one line. -/
theorem ofListing?_listingBy {quote : V → String} {unquote : String → Option V}
    (hread : ∀ payload, unquote (quote payload) = some payload)
    (hline : ∀ payload, OneLine (quote payload)) (alone : Char → Bool) (d : Decision V) :
    ofListing? unquote (d.listingBy alone quote) = some d := by
  have hlines : ∀ line ∈ (d.rows 0).map fun row => (⟨row.1, row.2.text alone quote⟩ : Line),
      OneLine line.text := fun line hmem => by
    obtain ⟨row, -, rfl⟩ := List.mem_map.1 hmem
    exact row.2.oneLine_text hline alone
  rw [ofListing?, listingBy, Line.splitOn_renderAll hlines, List.dropLast_concat, List.map_map]
  refine (congrArg (Option.bind · ofRows?) (mapM_map_eq_some Prod.snd fun row _ => ?_)).trans
    (ofRows?_rows d 0)
  -- the text of a row begins behind the spaces in front of it
  have hspaces : ∀ c ∈ List.replicate (2 * row.1) ' ', decide (c = ' ') = true := by simp
  have htext : (row.2.text alone quote).toList.dropWhile (· = ' ') =
      (row.2.text alone quote).toList := by
    obtain ⟨cs, hcs⟩ := List.head?_eq_some_iff.1 (Row.head?_toList_text alone quote row.2)
    have hfirst : row.2.firstChar ≠ ' ' := by cases row.2 <;> simp [Row.firstChar]
    rw [hcs, List.dropWhile_cons_of_neg (by simpa using hfirst)]
  rw [Function.comp_apply, List.dropWhile_append_of_pos hspaces, htext]
  exact Row.ofText?_text hread row.2

/-- Payloads that are told apart and stay on one line are told apart in listings too. -/
theorem listingBy_injective {quote : V → String} (hquote : Function.Injective quote)
    (hline : ∀ payload, OneLine (quote payload)) (alone : Char → Bool) :
    Function.Injective (listingBy alone quote) := fun d e heq => by
  have hread : ∀ payload, Function.partialInv quote (quote payload) = some payload :=
    Function.partialInv_left hquote
  have hd := ofListing?_listingBy hread hline alone d
  rw [heq, ofListing?_listingBy hread hline alone e] at hd
  exact (Option.some.inj hd).symm

end Decision

/-- **A listing loses nothing.** Decisions of any shape are equal if their listings are, over all
payloads whose written forms are told apart and have no line break, and whichever characters are
written as themselves. Numbers, texts and truth values are such payloads. Who can read payloads back
can read the whole decision back. -/
theorem listing_lossless (alone : Char → Bool) :
    (∀ (V : Type u) (quote : V → String), Function.Injective quote →
      (∀ payload, '\n' ∉ (quote payload).toList) →
        Function.Injective (Decision.listingBy alone quote) ∧
        Function.Injective (Decision.listing quote)) ∧
    (∀ (V : Type u) (quote : V → String) (unquote : String → Option V),
      (∀ payload, unquote (quote payload) = some payload) →
      (∀ payload, '\n' ∉ (quote payload).toList) →
        ∀ d : Decision V, Decision.ofListing? unquote (d.listingBy alone quote) = some d) ∧
    Function.Injective (Payload.quotedBy alone) ∧
    ∀ payload : Payload, '\n' ∉ (payload.quotedBy alone).toList := by
  refine ⟨fun V quote hquote hline => ⟨?_, ?_⟩, fun V quote unquote hread hline => ?_,
    Payload.quotedBy_injective alone, Payload.oneLine_quotedBy alone⟩
  · exact Decision.listingBy_injective hquote hline alone
  · exact Decision.listingBy_injective hquote hline Text.Quoted.standsAlone
  · exact Decision.ofListing?_listingBy hread hline alone

/-- Listings with quoted payloads tell decisions apart, for one a payload from its absence. -/
theorem listing_lossless_quoted : Function.Injective (Decision.listing Payload.quoted) ∧
    (Decision.dispatch 1 (some (.text "miss")) []).listing Payload.quoted ≠
      (Decision.dispatch 1 none []).listing Payload.quoted := by
  obtain ⟨hinjective, -, hquoted, hline⟩ := listing_lossless Text.Quoted.standsAlone
  obtain ⟨-, hlisting⟩ := hinjective Payload Payload.quoted hquoted hline
  exact ⟨hlisting, hlisting.ne (by decide)⟩

end Lexicon
