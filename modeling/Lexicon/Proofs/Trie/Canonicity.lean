import Lexicon.Proofs.Trie.Contents
import Lexicon.Proofs.Trie.Lengths
import Lexicon.Trie.Unnumbered
import Mathlib.Data.List.Sort

/-!
# A trie is its labels

Valid nodes with the same character and the same labels below them are equal but for numbers
(`Node.unnumbered_eq_iff`): children are in order, and every child is there for some label. So the
tries of two tables are equal but for numbers if and only if the tables hold the same entries
(`Trie.unnumbered_root_ofTable_eq_iff`), in whatever order.
-/

namespace Lexicon

universe u

variable {V : Type u}

namespace Node

/-- The children are those that their characters lead to. -/
theorem children_eq_filterMap {n : Node V} (h : Ascending n.children) :
    n.children = (n.children.map char).filterMap n.child? := by
  have hself : n.children.filterMap (n.child? ∘ char) = n.children.filterMap some :=
    List.filterMap_congr fun m hm => child?_char h hm
  rw [List.filterMap_map, hself, List.filterMap_some]

theorem mem_map_char_iff {n : Node V} (h : Ascending n.children) {c : Char} :
    c ∈ n.children.map char ↔ (n.child? c).isSome := by
  rw [List.mem_map, Option.isSome_iff_exists]
  exact exists_congr fun m => (child?_eq_some_iff h).symm

/-- A character leads to a child if and only if some label goes on with it. -/
theorem isSome_child?_iff {n : Node V} (h : n.Valid) {c : Char} :
    (n.child? c).isSome ↔ ∃ rest, (n.lookup? (c :: rest)).isSome := by
  constructor
  · intro hsome
    obtain ⟨m, hm⟩ := Option.isSome_iff_exists.1 hsome
    obtain ⟨hmem, -⟩ := (child?_eq_some_iff h.ascending).1 hm
    obtain ⟨rest, hrest⟩ := exists_lookup?_isSome (h.child hmem) (h.isTerminal hmem)
    exact ⟨rest, by rwa [lookup?_cons, hm]⟩
  · rintro ⟨rest, hrest⟩
    rw [lookup?_cons] at hrest
    exact Option.isSome_of_isSome_bind hrest

/-- Nodes with the same labels below them have children for the same characters. -/
theorem map_char_children_eq {n k : Node V} (hn : n.Valid) (hk : k.Valid)
    (h : ∀ path, n.lookup? path = k.lookup? path) :
    n.children.map char = k.children.map char := by
  refine List.Pairwise.eq_of_mem_iff hn.ascending hk.ascending fun c => ?_
  rw [mem_map_char_iff hn.ascending, mem_map_char_iff hk.ascending, isSome_child?_iff hn,
    isSome_child?_iff hk]
  exact exists_congr fun rest => by rw [h]

theorem unnumbered_eq_of_lookup?_eq {n k : Node V} (hn : n.Valid) (hk : k.Valid)
    (hchar : n.char = k.char) (h : ∀ path, n.lookup? path = k.lookup? path) :
    n.unnumbered = k.unnumbered := by
  induction n using Node.induction generalizing k with
  | step n ih =>
    have hchars := map_char_children_eq hn hk h
    -- what the same character leads to in both is equal but for numbers
    have hchild : ∀ c, (n.child? c).map unnumbered = (k.child? c).map unnumbered := by
      intro c
      have hsome : (n.child? c).isSome ↔ (k.child? c).isSome := by
        rw [← mem_map_char_iff hn.ascending, hchars, mem_map_char_iff hk.ascending]
      cases hm : n.child? c with
      | none =>
        have hnone : k.child? c = none := by simpa [hm] using hsome
        rw [hnone]
      | some m =>
        obtain ⟨l, hl⟩ := Option.isSome_iff_exists.1 (hsome.1 (by rw [hm]; rfl))
        obtain ⟨hmem, rfl⟩ := (child?_eq_some_iff hn.ascending).1 hm
        obtain ⟨hmem', hchar'⟩ := (child?_eq_some_iff hk.ascending).1 hl
        have hlookup : ∀ path, m.lookup? path = l.lookup? path := by
          intro path
          have heq := h (m.char :: path)
          rwa [lookup?_cons, lookup?_cons, hm, hl] at heq
        rw [hl, Option.map_some, Option.map_some,
          ih m hmem (hn.child hmem) (hk.child hmem') hchar'.symm hlookup]
    have hchildren : n.children.map unnumbered = k.children.map unnumbered := by
      rw [children_eq_filterMap hn.ascending, children_eq_filterMap hk.ascending,
        List.map_filterMap, List.map_filterMap, hchars]
      exact List.filterMap_congr fun c _ => hchild c
    rw [unnumbered, unnumbered, hchar, hchildren, ← lookup?_nil n, ← lookup?_nil k, h]

/-- **A valid node is its character and its labels**, but for numbers. -/
theorem unnumbered_eq_iff {n k : Node V} (hn : n.Valid) (hk : k.Valid) :
    n.unnumbered = k.unnumbered ↔
      n.char = k.char ∧ ∀ path, n.lookup? path = k.lookup? path := by
  constructor
  · intro h
    refine ⟨?_, fun path => ?_⟩
    · rw [← char_unnumbered n, h, char_unnumbered]
    · rw [← lookup?_unnumbered n, h, lookup?_unnumbered]
  · rintro ⟨hchar, h⟩
    exact unnumbered_eq_of_lookup?_eq hn hk hchar h

end Node

namespace Trie

variable {table other : Table V}

@[simp] theorem char_root_insertAll (t : Trie V) (entries : List (Entry V)) :
    (t.insertAll entries).root.char = t.root.char := by
  induction entries using List.reverseRecOn with
  | nil => rfl
  | append_singleton entries entry ih =>
    rw [insertAll_concat, insert, Node.char_insert, ih]

theorem char_root_ofTable (table : Table V) : (ofTable table).root.char = rootChar := by
  rw [ofTable_eq_insertAll, char_root_insertAll]
  rfl

/-- The entries of a table are the labels of its trie with their payloads. -/
theorem mem_entries_iff {entry : Entry V} :
    entry ∈ table.entries ↔
      (ofTable table).root.lookup? entry.label.toList = some entry.payload := by
  obtain ⟨label, payload⟩ := entry
  rw [lookup?_root_ofTable]
  constructor
  · intro h
    exact ⟨_, h, rfl, rfl⟩
  · rintro ⟨⟨label', _⟩, h, hlabel, rfl⟩
    obtain rfl := String.toList_inj.1 hlabel
    exact h

/-- Tables hold the same entries if and only if their tries have the same labels. -/
theorem lookup?_root_ofTable_eq_iff :
    (∀ path, (ofTable table).root.lookup? path = (ofTable other).root.lookup? path) ↔
      ∀ entry, entry ∈ table.entries ↔ entry ∈ other.entries := by
  constructor
  · intro h entry
    rw [mem_entries_iff, mem_entries_iff, h]
  · intro h path
    refine Option.ext fun payload => ?_
    rw [lookup?_root_ofTable, lookup?_root_ofTable]
    exact exists_congr fun entry => and_congr_left' (h entry)

/-- **The trie of a table is its entries**, but for numbers. -/
theorem unnumbered_root_ofTable_eq_iff :
    (ofTable table).root.unnumbered = (ofTable other).root.unnumbered ↔
      ∀ entry, entry ∈ table.entries ↔ entry ∈ other.entries := by
  rw [Node.unnumbered_eq_iff (valid_root_ofTable table) (valid_root_ofTable other),
    char_root_ofTable, char_root_ofTable, lookup?_root_ofTable_eq_iff, and_iff_right rfl]

end Trie

end Lexicon
