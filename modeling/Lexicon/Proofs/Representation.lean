import Lexicon.Proofs.Trie.Numbering
import Mathlib.Data.Set.Card

/-!
# What a trie is

`Trie.Represents t entries` collects what holds of the trie of some entries: which paths lead to
nodes, where payloads are, how nodes are numbered and how they hang together. It holds of the trie
of a table, and of what there is of it after each label (`trie_represents`).
-/

namespace Lexicon

universe u

variable {V : Type u}

namespace Trie

/-- The trie holds the prefixes of the labels of the entries, each once. -/
structure Represents (t : Trie V) (entries : List (Entry V)) : Prop where
  /-- A path leads to a node if it begins a label; the empty one leads to the root anyway. -/
  isSome_node?_iff : ∀ path,
    (t.node? path).isSome ↔ path = [] ∨ ∃ entry ∈ entries, path <+: entry.label.toList
  /-- The payload of a node is that of the entry whose label is the path to the node. -/
  payload_node?_iff : ∀ path n, t.node? path = some n → ∀ payload,
    n.payload = some payload ↔ ∃ entry ∈ entries, entry.label.toList = path ∧ entry.payload = payload
  /-- There are as many nodes as prefixes. -/
  size_eq_ncard : t.size = Set.ncard {path | path = [] ∨ ∃ entry ∈ entries, path <+: entry.label.toList}
  /-- Nodes are counted as they are. -/
  count_root_eq : t.root.count = t.size
  /-- The number of a node is the position of its prefix in the order of first occurrence. -/
  map_id_node?_iff : ∀ path id,
    (t.node? path).map Node.id = some id ↔ (prefixes entries)[id]? = some path
  /-- Children are in strict order of their characters. -/
  pairwise_children : ∀ path n, t.node? path = some n →
    (n.children.map Node.char).Pairwise (· < ·)
  /-- A child is found by its own character. -/
  child?_eq_some_iff : ∀ path n, t.node? path = some n → ∀ c m,
    n.child? c = some m ↔ m ∈ n.children ∧ m.char = c
  /-- The number of a child is one that was given out, after that of its parent. -/
  id_lt_of_mem_children : ∀ path n, t.node? path = some n → ∀ m ∈ n.children,
    n.id < m.id ∧ m.id < t.size
  /-- Every number but that of the root is that of one child of one node. -/
  existsUnique_parent : ∀ id, 0 < id → id < t.size → ∃! link : List Char × Char,
    ∃ n m, t.node? link.1 = some n ∧ n.child? link.2 = some m ∧ m.id = id
  /-- Every leaf ends a label, unless there is none. -/
  isTerminal_of_isLeaf : entries ≠ [] → ∀ path n, t.node? path = some n → n.isLeaf → n.isTerminal

theorem node?_concat_eq_some_iff {t : Trie V} {path : List Char} {c : Char} {m : Node V} :
    t.node? (path ++ [c]) = some m ↔ ∃ n, t.node? path = some n ∧ n.child? c = some m := by
  rw [node?_concat, Option.bind_eq_some_iff]

namespace Numbered

variable {t : Trie V} {entries : List (Entry V)}

/-- Where nodes are numbered, every number but the first belongs to one child of one node. -/
theorem existsUnique_parent (h : t.Numbered (prefixes entries)) {id : Nat} (hpos : 0 < id)
    (hlt : id < t.size) : ∃! link : List Char × Char,
      ∃ n m, t.node? link.1 = some n ∧ n.child? link.2 = some m ∧ m.id = id := by
  obtain ⟨path, hpath⟩ : ∃ path, (prefixes entries)[id]? = some path :=
    ⟨_, List.getElem?_eq_getElem (h.size_eq ▸ hlt)⟩
  obtain ⟨m, hm, hid⟩ := Option.map_eq_some_iff.1 ((h.map_id_eq_some_iff path id).2 hpath)
  rcases List.eq_nil_or_concat' path with rfl | ⟨path, c, rfl⟩
  · -- the root has the first number
    have hroot := (h.map_id_eq_some_iff [] 0).2 (getElem?_prefixes_zero entries)
    rw [hm, Option.map_some, Option.some.injEq] at hroot
    omega
  · obtain ⟨n, hn, hchild⟩ := node?_concat_eq_some_iff.1 hm
    refine ⟨(path, c), ⟨n, m, hn, hchild, hid⟩, ?_⟩
    rintro ⟨path', c'⟩ ⟨n', m', hn', hchild', hid'⟩
    have hm' := node?_concat_eq_some_iff.2 ⟨n', hn', hchild'⟩
    have hpath' : (prefixes entries)[id]? = some (path' ++ [c']) :=
      (h.map_id_eq_some_iff _ id).1 (by rw [hm', Option.map_some, hid'])
    obtain ⟨rfl, hc⟩ := List.append_inj' (Option.some.inj (hpath'.symm.trans hpath)) rfl
    rw [List.singleton_inj.1 hc]

end Numbered

/-- The trie of entries with distinct labels represents them. -/
theorem represents_insertAll (fold : CaseFold) {entries : List (Entry V)}
    (hnodup : (entries.map Entry.label).Nodup) :
    ((empty fold).insertAll entries).Represents entries := by
  have hnumbered := numbered_insertAll fold entries
  have hvalid : ((empty fold).insertAll entries).root.Valid :=
    valid_root_insertAll (Node.valid_bare ..) entries
  have hvalidNode : ∀ {path n}, ((empty fold).insertAll entries).node? path = some n → n.Valid :=
    fun hn => hvalid.of_follow? hn
  refine
    { isSome_node?_iff := fun path => hnumbered.isSome_node?_iff.trans mem_prefixes
      payload_node?_iff := fun path n hn payload => ?_
      size_eq_ncard := ?_
      count_root_eq := hnumbered.count_root
      map_id_node?_iff := hnumbered.map_id_eq_some_iff
      pairwise_children := fun path n hn => (hvalidNode hn).ascending
      child?_eq_some_iff := fun path n hn c m => Node.child?_eq_some_iff (hvalidNode hn).ascending
      id_lt_of_mem_children := fun path n hn m hm => ?_
      existsUnique_parent := fun id => hnumbered.existsUnique_parent
      isTerminal_of_isLeaf := fun hne path n hn =>
        hvalid.isTerminal_of_follow? (isTerminal_root_insertAll _ hne) hn }
  · have hlookup : ((empty fold).insertAll entries).root.lookup? path = n.payload :=
      congrArg (·.bind Node.payload) hn
    rw [← hlookup, lookup?_root_insertAll fold hnodup]
  · have hset : {path | path = [] ∨ ∃ entry ∈ entries, path <+: entry.label.toList} =
        ((prefixes entries).toFinset : Set (List Char)) := by
      ext path
      rw [Finset.mem_coe, List.mem_toFinset, mem_prefixes]
      rfl
    rw [hset, Set.ncard_coe_finset, List.toFinset_card_of_nodup hnumbered.nodup,
      hnumbered.size_eq]
  · have hchild := Node.child?_char (hvalidNode hn).ascending hm
    have hm' := node?_concat_eq_some_iff.2 ⟨n, hn, hchild⟩
    exact ⟨hnumbered.lt_of_concat path m.char n.id m.id (by rw [hn]; rfl) (by rw [hm']; rfl),
      hnumbered.lt_size (by rw [hm']; rfl)⟩

end Trie

/-- **A trie represents its entries.** The trie of a table holds the prefixes of the labels, in
order among siblings and numbered as they first occur, with a payload where a label ends. So does
what there is of it after any number of labels. -/
theorem trie_represents (table : Table V) :
    (Trie.ofTable table).Represents table.entries.toList ∧
      ∀ k, ((Trie.empty table.fold).insertAll (table.entries.toList.take k)).Represents
        (table.entries.toList.take k) := by
  refine ⟨?_, fun k => Trie.represents_insertAll table.fold ?_⟩
  · rw [Trie.ofTable_eq_insertAll]
    exact Trie.represents_insertAll table.fold table.nodup
  · exact table.nodup.sublist ((List.take_sublist k _).map _)

/-- The root is there without any label, though the empty path then begins none. -/
theorem isSome_node?_nil_of_empty :
    ((Trie.ofTable (.empty .ordinal : Table Nat)).node? []).isSome ∧
      ¬ ∃ entry ∈ (.empty .ordinal : Table Nat).entries, [] <+: entry.label.toList := by
  refine ⟨rfl, ?_⟩
  rintro ⟨entry, hentry, -⟩
  simp [Table.empty] at hentry

end Lexicon
