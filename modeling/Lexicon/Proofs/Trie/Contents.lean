import Lexicon.Proofs.Trie.Order
import Lexicon.Trie.Basic
import Mathlib.Data.List.Induction

/-!
# The contents of a trie

The trie of a table holds the labels of the table with their payloads, and nothing else
(`lookup?_root_ofTable`). Below its root the nodes are in order and every path ends at a label
(`valid_root_ofTable`); only the empty table has a root at which a path may end without one
(`isTerminal_root_ofTable`).
-/

namespace Lexicon

universe u

variable {V : Type u}

namespace Trie

/-- The trie after the entries of a list, one after the other. -/
def insertAll (t : Trie V) (entries : List (Entry V)) : Trie V :=
  entries.foldl (fun t entry => t.insert entry.label.toList entry.payload) t

@[simp] theorem insertAll_nil (t : Trie V) : t.insertAll [] = t := rfl

@[simp] theorem insertAll_concat (t : Trie V) (entries : List (Entry V)) (entry : Entry V) :
    t.insertAll (entries ++ [entry]) =
      (t.insertAll entries).insert entry.label.toList entry.payload := by
  rw [insertAll, List.foldl_append]
  rfl

theorem ofTable_eq_insertAll (table : Table V) :
    ofTable table = (empty table.fold).insertAll table.entries.toList := by
  rw [ofTable, ← Array.foldl_toList]
  rfl

@[simp] theorem fold_insertAll (t : Trie V) (entries : List (Entry V)) :
    (t.insertAll entries).fold = t.fold := by
  induction entries generalizing t with
  | nil => rfl
  | cons entry rest ih => exact ih _

/-- The labels of a trie are folded as those of its table. -/
@[simp] theorem fold_ofTable (table : Table V) : (ofTable table).fold = table.fold := by
  rw [ofTable_eq_insertAll, fold_insertAll]
  rfl

theorem labelCount_insertAll (t : Trie V) (entries : List (Entry V)) :
    (t.insertAll entries).labelCount = t.labelCount + entries.length := by
  induction entries using List.reverseRecOn with
  | nil => rfl
  | append_singleton entries entry ih =>
    rw [insertAll_concat, insert, ih, List.length_append, List.length_singleton, Nat.add_assoc]

/-- A trie counts the labels of its table. -/
@[simp] theorem labelCount_ofTable (table : Table V) : (ofTable table).labelCount = table.size := by
  rw [ofTable_eq_insertAll, labelCount_insertAll]
  exact Nat.zero_add _

theorem valid_root_insert {t : Trie V} (h : t.root.Valid) (label : List Char) (payload : V) :
    (t.insert label payload).root.Valid :=
  h.insert label payload t.size

theorem valid_root_insertAll {t : Trie V} (h : t.root.Valid) (entries : List (Entry V)) :
    (t.insertAll entries).root.Valid := by
  induction entries using List.reverseRecOn with
  | nil => exact h
  | append_singleton entries entry ih =>
    rw [insertAll_concat]
    exact valid_root_insert ih ..

/-- Nodes are in order, and below the root every path ends at a label. -/
theorem valid_root_ofTable (table : Table V) : (ofTable table).root.Valid := by
  rw [ofTable_eq_insertAll]
  exact valid_root_insertAll (Node.valid_bare ..) _

/-- Once a label is inserted the root is a leaf only if a label ends there. -/
theorem isTerminal_root_insertAll (t : Trie V) {entries : List (Entry V)} (h : entries ≠ [])
    (hleaf : (t.insertAll entries).root.isLeaf) : (t.insertAll entries).root.isTerminal := by
  obtain ⟨entries, entry, rfl⟩ := (List.eq_nil_or_concat' _).resolve_left h
  rw [insertAll_concat] at hleaf ⊢
  exact Node.isTerminal_insert_of_isLeaf _ _ _ _ hleaf

/-- The root of a trie with labels is a leaf only if a label ends there. -/
theorem isTerminal_root_ofTable {table : Table V} (h : table.entries.toList ≠ [])
    (hleaf : (ofTable table).root.isLeaf) : (ofTable table).root.isTerminal := by
  rw [ofTable_eq_insertAll] at hleaf ⊢
  exact isTerminal_root_insertAll _ h hleaf

/-- Distinct labels lead to their own payloads, and what is no label leads nowhere. -/
theorem lookup?_root_insertAll (fold : CaseFold) {entries : List (Entry V)}
    (hnodup : (entries.map Entry.label).Nodup) {path : List Char} {payload : V} :
    ((empty fold).insertAll entries).root.lookup? path = some payload ↔
      ∃ entry ∈ entries, entry.label.toList = path ∧ entry.payload = payload := by
  induction entries using List.reverseRecOn with
  | nil => simp [empty]
  | append_singleton entries entry ih =>
    rw [List.map_append, List.nodup_append] at hnodup
    obtain ⟨hfront, -, hne⟩ := hnodup
    have hvalid : ((empty fold).insertAll entries).root.Valid :=
      valid_root_insertAll (Node.valid_bare ..) entries
    have hinsert : ((empty fold).insertAll (entries ++ [entry])).root.lookup? path =
        if path = entry.label.toList then some entry.payload
        else ((empty fold).insertAll entries).root.lookup? path := by
      rw [insertAll_concat]
      exact Node.lookup?_insert hvalid ..
    have hsplit : (∃ e ∈ entries ++ [entry], e.label.toList = path ∧ e.payload = payload) ↔
        (∃ e ∈ entries, e.label.toList = path ∧ e.payload = payload) ∨
          entry.label.toList = path ∧ entry.payload = payload := by
      simp [or_and_right, exists_or]
    rw [hinsert, hsplit]
    split
    · rename_i heq
      -- none of the labels in front is the new one
      have hnone : ¬ ∃ e ∈ entries, e.label.toList = path ∧ e.payload = payload := by
        rintro ⟨e, he, hlabel, -⟩
        exact hne _ (List.mem_map_of_mem he) _ (by simp)
          (String.toList_inj.1 (hlabel.trans heq))
      rw [or_iff_right hnone]
      simp [heq]
    · rename_i hpath
      rw [ih hfront]
      simp [Ne.symm hpath]

/-- A label of the table leads to its payload, and what is no label leads to none. -/
theorem lookup?_root_ofTable {table : Table V} {path : List Char} {payload : V} :
    (ofTable table).root.lookup? path = some payload ↔
      ∃ entry ∈ table.entries, entry.label.toList = path ∧ entry.payload = payload := by
  rw [ofTable_eq_insertAll, lookup?_root_insertAll table.fold table.nodup]
  simp

/-! ### The labels through a node -/

section

variable {table : Table V}

theorem valid_of_node? {path : List Char} {n : Node V} (h : (ofTable table).node? path = some n) :
    n.Valid :=
  (valid_root_ofTable table).of_follow? h

/-- A trie with labels has one at every leaf. -/
theorem isTerminal_of_node? (hne : table.entries ≠ #[]) {path : List Char} {n : Node V}
    (h : (ofTable table).node? path = some n) (hleaf : n.isLeaf) : n.isTerminal :=
  (valid_root_ofTable table).isTerminal_of_follow?
    (isTerminal_root_ofTable fun hnil => hne (Array.toList_eq_nil_iff.1 hnil)) h hleaf

/-- The labels through a node are those of the table that begin with the characters that lead to
the node. -/
theorem lookup?_eq_some_iff {path : List Char} {n : Node V} (h : (ofTable table).node? path = some n)
    {rest : List Char} {payload : V} : n.lookup? rest = some payload ↔
      ∃ entry ∈ table.entries, entry.label.toList = path ++ rest ∧ entry.payload = payload := by
  rw [← Node.lookup?_append_of_follow? h, lookup?_root_ofTable]

theorem exists_entry_of_isSome {path : List Char} {n : Node V}
    (h : (ofTable table).node? path = some n) {rest : List Char} (hrest : (n.lookup? rest).isSome) :
    ∃ entry ∈ table.entries, entry.label.toList = path ++ rest ∧
      entry.label.length = path.length + rest.length := by
  obtain ⟨payload, hpayload⟩ := Option.isSome_iff_exists.1 hrest
  obtain ⟨entry, hentry, hlabel, -⟩ := (lookup?_eq_some_iff h).1 hpayload
  refine ⟨entry, hentry, hlabel, ?_⟩
  rw [← String.length_toList, hlabel, List.length_append]

/-- The payload of a node is that of the label which leads to the node. -/
theorem payload_eq_some_iff {path : List Char} {n : Node V}
    (h : (ofTable table).node? path = some n) {payload : V} : n.payload = some payload ↔
      ∃ entry ∈ table.entries, entry.label.toList = path ∧ entry.payload = payload := by
  rw [← Node.lookup?_nil, lookup?_eq_some_iff h, List.append_nil]

end

end Trie

end Lexicon
