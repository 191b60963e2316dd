import Lexicon.Proofs.Payload
import Lexicon.Proofs.Trie.Canonicity
import Lexicon.Proofs.Trie.Numbering
import Lexicon.Proofs.Trie.Preorder
import Lexicon.Trie.Listing

/-!
# The listing of a trie is its labels

A line of the listing says the depth, the character and the payload of a node, and these are read off
its text (`Node.ofLine?_line`): no text of a node begins with a space, and the quoted character tells
where it ends. From their depths alone the nodes are put together again, from the last line to the
first: behind the line of a node, and in front of any that is not deeper, stand its children
(`Node.foldr_adopt_rows`). So a trie is read back from its listing, but for the numbers of its nodes
(`Trie.ofListing?_listingBy`), and these have no part in the listing. With a trie being its labels but
for numbers, listings are equal if and only if the labels are (`trie_listing_canonical`).
-/

namespace Lexicon

open Text (Line OneLine mapM_map_eq_some)

universe u

variable {V : Type u}

namespace Node

/-! ### What lines say -/

/-- What a line says of its node. -/
structure Row (V : Type u) where
  depth : Nat
  char : Char
  payload : Option V

/-- The rows of a node at a depth and of all nodes below it. -/
def rows (depth : Nat) (n : Node V) : List (Row V) :=
  n.preorder.map fun entry => ⟨depth + entry.1.length, entry.2.char, entry.2.payload⟩

theorem rows_eq (depth : Nat) (n : Node V) :
    n.rows depth = ⟨depth, n.char, n.payload⟩ :: n.children.flatMap (rows (depth + 1)) := by
  rw [rows, preorder, List.map_cons, List.map_flatMap]
  refine congrArg (List.cons _) (congrArg (List.flatMap · n.children) (funext fun m => ?_))
  rw [List.map_map, rows]
  refine List.map_congr_left fun entry _ => ?_
  rw [Function.comp_apply, List.length_cons, Nat.add_assoc, Nat.add_comm 1]

/-- Numbers have no part in what lines say. -/
theorem rows_unnumbered (depth : Nat) (n : Node V) : n.unnumbered.rows depth = n.rows depth := by
  induction n using Node.induction generalizing depth with
  | step n ih =>
    have hbelow : (n.children.map unnumbered).flatMap (rows (depth + 1)) =
        n.children.flatMap (rows (depth + 1)) := by
      rw [List.flatMap_map]
      exact List.flatMap_congr fun m hm => ih m hm (depth + 1)
    rw [rows_eq, rows_eq, char_unnumbered, payload_unnumbered, children_unnumbered, hbelow]

section

variable (alone : Char → Bool) (quote : V → String)

/-- The line of a row. -/
def Row.line (row : Row V) : Line := ⟨row.depth, lineText alone quote row.char row.payload⟩

theorem lines_eq_map_rows (depth : Nat) (n : Node V) :
    n.lines alone quote depth = (n.rows depth).map (Row.line alone quote) := by
  induction n using Node.induction generalizing depth with
  | step n ih =>
    rw [lines_eq, rows_eq, List.map_cons, List.map_flatMap, linesAll_eq_flatMap]
    exact congrArg (List.cons _) (List.flatMap_congr fun m hm => ih m hm (depth + 1))

end

/-! ### Nodes from their rows -/

/-- The node of a row in front of those that it does not adopt: the first nodes behind it that are
one level deeper are its children. -/
def adopt (row : Row V) (behind : List (Nat × Node V)) : List (Nat × Node V) :=
  let deeper := fun entry : Nat × Node V => decide (entry.1 = row.depth + 1)
  (row.depth, ⟨0, row.char, row.payload, (behind.takeWhile deeper).map Prod.snd⟩) ::
    behind.dropWhile deeper

/-- The rows of nodes at the same depth put these in front of what is behind them, if those of each
do. -/
private theorem foldr_adopt_flatMap_rows {ns : List (Node V)} {depth : Nat}
    (h : ∀ m ∈ ns, ∀ behind : List (Nat × Node V), (∀ first ∈ behind.head?, first.1 ≤ depth) →
      (m.rows depth).foldr adopt behind = (depth, m.unnumbered) :: behind)
    {behind : List (Nat × Node V)} (hbehind : ∀ first ∈ behind.head?, first.1 ≤ depth) :
    (ns.flatMap (rows depth)).foldr adopt behind =
      ns.map (fun m => (depth, m.unnumbered)) ++ behind := by
  induction ns with
  | nil => rfl
  | cons m rest ih =>
    have hfirst : ∀ first ∈ (rest.map (fun m => (depth, m.unnumbered)) ++ behind).head?,
        first.1 ≤ depth := by
      cases rest with
      | nil => exact hbehind
      | cons next rest => simp
    rw [List.flatMap_cons, List.foldr_append, ih fun k hk => h k (by simp [hk]),
      h m (by simp) _ hfirst]
    rfl

/-- The rows of a node put it in front of what is behind them, unless this is deeper. -/
theorem foldr_adopt_rows (n : Node V) {depth : Nat} {behind : List (Nat × Node V)}
    (hbehind : ∀ first ∈ behind.head?, first.1 ≤ depth) :
    (n.rows depth).foldr adopt behind = (depth, n.unnumbered) :: behind := by
  induction n using Node.induction generalizing depth behind with
  | step n ih =>
    have hchildren := foldr_adopt_flatMap_rows (fun m hm _ h => ih m hm h)
      fun first hfirst => Nat.le_succ_of_le (hbehind first hfirst)
    have hdeeper : ∀ entry ∈ n.children.map fun m => (depth + 1, m.unnumbered),
        decide (entry.1 = depth + 1) = true := by simp
    -- no node behind is taken for a child
    have hnone : ∀ first ∈ behind.head?, decide (first.1 = depth + 1) = false := fun first hfirst => by
      have hle := hbehind first hfirst
      exact decide_eq_false (by omega)
    have htake : behind.takeWhile (fun entry => entry.1 = depth + 1) = [] := by
      cases behind with
      | nil => rfl
      | cons first rest => rw [List.takeWhile_cons, hnone first rfl]; rfl
    have hdrop : behind.dropWhile (fun entry => entry.1 = depth + 1) = behind := by
      cases behind with
      | nil => rfl
      | cons first rest => rw [List.dropWhile_cons, hnone first rfl]; rfl
    rw [rows_eq, List.foldr_cons, hchildren, adopt]
    dsimp only
    rw [List.takeWhile_append_of_pos hdeeper, List.dropWhile_append_of_pos hdeeper, htake, hdrop,
      List.append_nil, List.map_map, unnumbered]
    rfl

/-! ### Rows from their text -/

section

variable (unquote : String → Option V)

/-- The character and the payload that the text of a line says, with `unquote` to read payloads. -/
def ofLineText? : List Char → Option (Char × Option V)
  | 'T' :: '\x27' :: cs =>
    match Text.Quoted.decode cs with
    | some (c, '\x27' :: ' ' :: payload) =>
      (unquote (.ofList payload)).map fun payload => (c, some payload)
    | _ => none
  | '\x27' :: cs =>
    match Text.Quoted.decode cs with
    | some (c, ['\x27']) => some (c, none)
    | _ => none
  | _ => none

/-- The row of a line, of which the spaces in front say the depth. -/
def ofLine? (line : List Char) : Option (Row V) :=
  (ofLineText? unquote (line.dropWhile (· = ' '))).map fun (c, payload) =>
    ⟨(line.takeWhile (· = ' ')).length / 2, c, payload⟩

end

variable {alone : Char → Bool} {quote : V → String} {unquote : String → Option V}

/-- A quoted character is read from behind its first quotation mark, whatever follows it. -/
private theorem decode_quoted (alone : Char → Bool) (c : Char) (rest : List Char) :
    Text.Quoted.decode (Text.Quoted.encode alone '\x27' c ++ '\x27' :: rest) =
      some (c, '\x27' :: rest) :=
  Text.Quoted.decode_encode_append rfl c _

private theorem toList_quoteCharBy (alone : Char → Bool) (c : Char) :
    (Text.quoteCharBy alone c).toList =
      '\x27' :: (Text.Quoted.encode alone '\x27' c ++ ['\x27']) := by
  rw [Text.quoteCharBy, String.toList_ofList, Text.Quoted.literal, List.flatMap_singleton]
  rfl

theorem ofLineText?_lineText (hread : ∀ payload, unquote (quote payload) = some payload) (c : Char)
    (payload : Option V) :
    ofLineText? unquote (lineText alone quote c payload).toList = some (c, payload) := by
  cases payload with
  | none =>
    rw [lineText, toList_quoteCharBy, ofLineText?, decode_quoted]
    rfl
  | some payload =>
    have htext : (lineText alone quote c (some payload)).toList =
        'T' :: '\x27' :: (Text.Quoted.encode alone '\x27' c ++
          '\x27' :: ' ' :: (quote payload).toList) := by
      simp [lineText, toList_quoteCharBy]
    rw [htext, ofLineText?, decode_quoted]
    simp [hread]

/-- The text of a line does not begin with a space. -/
theorem dropWhile_lineText (c : Char) (payload : Option V) :
    (lineText alone quote c payload).toList.dropWhile (· = ' ') =
      (lineText alone quote c payload).toList := by
  cases payload with
  | none => rw [lineText, toList_quoteCharBy]; rfl
  | some payload => simp [lineText]

theorem ofLine?_line (hread : ∀ payload, unquote (quote payload) = some payload) (row : Row V) :
    ofLine? unquote (List.replicate (2 * row.depth) ' ' ++ (row.line alone quote).text.toList) =
      some row := by
  have hspaces : ∀ c ∈ List.replicate (2 * row.depth) ' ', decide (c = ' ') = true := by simp
  have hdrop : (row.line alone quote).text.toList.dropWhile (· = ' ') =
      (row.line alone quote).text.toList := dropWhile_lineText row.char row.payload
  have htake : (row.line alone quote).text.toList.takeWhile (· = ' ') = [] := by
    have hsplit := List.takeWhile_append_dropWhile (p := fun c => decide (c = ' '))
      (l := (row.line alone quote).text.toList)
    rw [hdrop] at hsplit
    exact List.append_left_eq_self.1 hsplit
  have htext : ofLineText? unquote (row.line alone quote).text.toList =
      some (row.char, row.payload) := ofLineText?_lineText hread row.char row.payload
  rw [ofLine?, List.dropWhile_append_of_pos hspaces, List.takeWhile_append_of_pos hspaces, hdrop,
    htake, htext, List.append_nil, List.length_replicate, Nat.mul_div_cancel_left _ (by decide)]
  rfl

theorem oneLine_lineText (h : ∀ payload, OneLine (quote payload)) (c : Char) (payload : Option V) :
    OneLine (lineText alone quote c payload) := by
  have hquoted : OneLine (Text.quoteCharBy alone c) := Text.oneLine_quoteCharBy alone c
  cases payload with
  | none => exact hquoted
  | some payload =>
    have hfront : OneLine ("T" ++ Text.quoteCharBy alone c) := .append (by decide) hquoted
    have hspace : OneLine ("T" ++ Text.quoteCharBy alone c ++ " ") := hfront.append (by decide)
    exact hspace.append (h payload)

/-- The lines of a node are lines of the listing. -/
theorem oneLine_of_mem_lines (h : ∀ payload, OneLine (quote payload)) {n : Node V} {depth : Nat}
    {line : Line} (hline : line ∈ n.lines alone quote depth) : OneLine line.text := by
  rw [lines_eq_map_rows] at hline
  obtain ⟨row, -, rfl⟩ := List.mem_map.1 hline
  exact oneLine_lineText h row.char row.payload

end Node

/-! ### Listings -/

namespace Trie

variable {alone : Char → Bool} {quote : V → String}

/-- The root, without numbers, of the trie of which the listing is given, with `unquote` to read
payloads. Behind the last line break there is nothing to read. -/
def ofListing? (unquote : String → Option V) (listing : String) : Option (Node V) :=
  ((listing.toList.splitOn '\n').dropLast.mapM (Node.ofLine? unquote)).bind fun rows =>
    match rows.foldr Node.adopt [] with
    | [(_, root)] => some root
    | _ => none

/-- A trie is read back from its listing but for numbers, if payloads are read back and stay on one
line. -/
theorem ofListing?_listingBy {unquote : String → Option V}
    (hread : ∀ payload, unquote (quote payload) = some payload)
    (hline : ∀ payload, OneLine (quote payload)) (t : Trie V) :
    ofListing? unquote (t.listingBy alone quote) = some t.root.unnumbered := by
  have hlines : ∀ line ∈ t.root.lines alone quote 0, OneLine line.text := fun _ hmem =>
    Node.oneLine_of_mem_lines hline hmem
  have hrow : ∀ row ∈ t.root.rows 0, Node.ofLine? unquote
      (List.replicate (2 * (row.line alone quote).depth) ' ' ++
        (row.line alone quote).text.toList) = some (id row) := fun row _ =>
    Node.ofLine?_line hread row
  have hroot : (t.root.rows 0).foldr Node.adopt [] = [(0, t.root.unnumbered)] :=
    t.root.foldr_adopt_rows (by simp)
  rw [ofListing?, listingBy, Line.splitOn_renderAll hlines, List.dropLast_concat,
    Node.lines_eq_map_rows, List.map_map]
  refine (congrArg (Option.bind · _) (mapM_map_eq_some id hrow)).trans ?_
  rw [List.map_id, Option.bind_some, hroot]

/-- Tries are equal but for numbers if and only if their listings are equal. -/
theorem listingBy_eq_iff (hquote : Function.Injective quote)
    (hline : ∀ payload, OneLine (quote payload)) {t t' : Trie V} :
    t.listingBy alone quote = t'.listingBy alone quote ↔
      t.root.unnumbered = t'.root.unnumbered := by
  constructor
  · intro h
    have hread : ∀ payload, Function.partialInv quote (quote payload) = some payload :=
      Function.partialInv_left hquote
    have hroot : ofListing? _ (t.listingBy alone quote) = some t.root.unnumbered :=
      ofListing?_listingBy hread hline t
    rw [h, ofListing?_listingBy hread hline t'] at hroot
    exact (Option.some.inj hroot).symm
  · intro h
    rw [listingBy, listingBy, Node.lines_eq_map_rows, Node.lines_eq_map_rows,
      ← Node.rows_unnumbered, h, Node.rows_unnumbered]

/-- Every line of a listing ends with a line break, and there is one line for each node. -/
theorem count_listingBy (hline : ∀ payload, OneLine (quote payload)) (table : Table V) :
    ((ofTable table).listingBy alone quote).toList.count '\n' = (ofTable table).size := by
  rw [listingBy, Line.count_renderAll fun _ hmem => Node.oneLine_of_mem_lines hline hmem,
    Node.length_lines, count_root_ofTable]

end Trie

/-- **The listing of a trie is its labels.** The listings of the tries of two tables, under whatever
folds, are equal if and only if the tables hold the same entries, that is folded labels with their
payloads, in whatever order; over all payloads whose written forms are told apart and have no line
break, and whichever characters are written as themselves. A listing has one line for each node of
its trie. -/
theorem trie_listing_canonical {quote : V → String} (hquote : Function.Injective quote)
    (hline : ∀ payload, '\n' ∉ (quote payload).toList) (table other : Table V) :
    ((Trie.ofTable table).listing quote = (Trie.ofTable other).listing quote ↔
        ∀ entry, entry ∈ table.entries ↔ entry ∈ other.entries) ∧
      (∀ alone : Char → Bool,
        (Trie.ofTable table).listingBy alone quote = (Trie.ofTable other).listingBy alone quote ↔
          ∀ entry, entry ∈ table.entries ↔ entry ∈ other.entries) ∧
      ((Trie.ofTable table).listing quote).toList.count '\n' = (Trie.ofTable table).size ∧
      ((Trie.ofTable table).listing quote).toList.getLast? = some '\n' := by
  have hlistings : ∀ alone : Char → Bool,
      (Trie.ofTable table).listingBy alone quote = (Trie.ofTable other).listingBy alone quote ↔
        ∀ entry, entry ∈ table.entries ↔ entry ∈ other.entries := fun alone =>
    (Trie.listingBy_eq_iff hquote hline).trans Trie.unnumbered_root_ofTable_eq_iff
  refine ⟨hlistings Text.Quoted.standsAlone, hlistings, Trie.count_listingBy hline table, ?_⟩
  have hne : (Trie.ofTable table).root.lines Text.Quoted.standsAlone quote 0 ≠ [] := by
    rw [Node.lines_eq]
    exact List.cons_ne_nil _ _
  exact Line.getLast?_renderAll hne 2

/-- Labels with a space, a `T`, a quotation mark and a line break have the same listing in another
order, and another listing if one payload changes its kind. -/
theorem trie_listing_canonical_quotes : ∃ table swapped changed : Table Payload,
    table.labels = ["a T", "\x27\n"] ∧ swapped.labels = ["\x27\n", "a T"] ∧
    (Trie.ofTable table).listing Payload.quoted = (Trie.ofTable swapped).listing Payload.quoted ∧
    (Trie.ofTable table).listing Payload.quoted ≠ (Trie.ofTable changed).listing Payload.quoted := by
  let first : Entry Payload := ⟨"a T", .int 1⟩
  let second : Entry Payload := ⟨"\x27\n", .text "1"⟩
  let table : Table Payload := ⟨.ordinal, #[first, second], by decide⟩
  let swapped : Table Payload := ⟨.ordinal, #[second, first], by decide⟩
  let changed : Table Payload := ⟨.ordinal, #[⟨"a T", .text "1"⟩, second], by decide⟩
  have hquote : Function.Injective Payload.quoted := Payload.quotedBy_injective _
  have hline : ∀ payload : Payload, '\n' ∉ payload.quoted.toList := Payload.oneLine_quotedBy _
  obtain ⟨hswapped, -⟩ := trie_listing_canonical hquote hline table swapped
  obtain ⟨hchanged, -⟩ := trie_listing_canonical hquote hline table changed
  have hperm : table.entries.Perm swapped.entries := Array.perm_iff_toList_perm.2 (.swap ..)
  have hnot : first ∉ changed.entries := by simp [changed, first, second]
  refine ⟨table, swapped, changed, rfl, rfl, hswapped.2 fun _ => hperm.mem_iff, fun heq => ?_⟩
  exact hnot ((hchanged.1 heq first).1 (by simp [table]))

end Lexicon
