import Lexicon.Proofs.Synthesis.Matching
import Lexicon.Proofs.Table

/-!
# What a compiled label set answers

From the entries of a table to the answer for an input: the matcher, the walk through the trie and
the decision under any fold answer the payload of the entry whose label the folded input equals, and
nothing where there is none (`exact_matching`).
-/

namespace Lexicon

open LengthRange (limit)

universe u

variable {V : Type u} {α : Type} [Subject α]

/-- The characters of an input, folded. -/
def CaseFold.applyInput (fold : CaseFold) (input : α) : List Char :=
  (Subject.chars input).map fold.apply

/-- Some entry has the payload, and its label, folded by `fold`, is the given text. -/
def HasEntry (fold : CaseFold) (source : List (String × V)) (text : List Char) (payload : V) :
    Prop :=
  ∃ entry ∈ source, (fold.applyText entry.1).toList = text ∧ entry.2 = payload

/-- The answer is the payload of the entry with the text as its folded label, if there is one. -/
def IsAnswer (fold : CaseFold) (source : List (String × V)) (text : List Char)
    (answer : Option V) : Prop :=
  (∀ payload, answer = some payload ↔ HasEntry fold source text payload) ∧
    (answer = none ↔ ∀ entry ∈ source, (fold.applyText entry.1).toList ≠ text)

namespace Trie

variable {fold : CaseFold} {source : List (String × V)} {table : Table V}

/-- The walk from the root of a trie along a text answers for the entries of its table. -/
theorem isAnswer_lookup?_root (hbuild : Table.build fold source = .ok table) (text : List Char) :
    IsAnswer fold source text ((ofTable table).root.lookup? text) := by
  have hsome : ∀ payload, (ofTable table).root.lookup? text = some payload ↔
      HasEntry fold source text payload := by
    intro payload
    rw [lookup?_root_ofTable]
    simp [HasEntry, ← Array.mem_toList_iff, Table.entries_of_build_eq_ok hbuild,
      Table.foldedEntry]
  refine ⟨hsome, ?_⟩
  rw [Option.eq_none_iff_forall_ne_some]
  constructor
  · intro hnone entry hentry htext
    exact hnone entry.2 ((hsome entry.2).2 ⟨entry, hentry, htext, rfl⟩)
  · intro hnone payload hpayload
    obtain ⟨entry, hentry, htext, -⟩ := (hsome payload).1 hpayload
    exact hnone entry hentry htext

/-- The root of a trie with short labels is reached by every input. -/
theorem reached_root {table : Table V} (hshort : ∀ entry ∈ table.entries, entry.label.length < limit)
    (length : Nat) : (ofTable table).root.Reached 0 .unconstrained length where
  valid := valid_root_ofTable table
  withinLimit := by
    intro path hpath
    obtain ⟨payload, hpayload⟩ := Option.isSome_iff_exists.1 hpath
    obtain ⟨entry, hentry, rfl, -⟩ := lookup?_root_ofTable.1 hpayload
    rw [Nat.zero_add, String.length_toList]
    exact hshort entry hentry
  index_le := Nat.zero_le _
  min_lt := by decide
  allows := LengthRange.allows_unconstrained length

/-- The decision of a trie with short labels answers as the walk through the trie does. -/
theorem eval_synthesize {table : Table V}
    (hshort : ∀ entry ∈ table.entries, entry.label.length < limit) (condense : Bool)
    (fold : CaseFold) (input : α) :
    ((ofTable table).synthesize condense).eval fold input =
      (ofTable table).root.lookup? (fold.applyInput input) :=
  Node.run_decision condense fold (reached_root hshort _)

end Trie

/-- The matcher of a table with short labels answers for the folded input. -/
theorem Matcher.get?_eq_lookup? {table : Table V}
    (hshort : ∀ entry ∈ table.entries, entry.label.length < limit) (options : Options)
    (input : α) : (ofTable table options).get? input =
      (Trie.ofTable table).root.lookup? (table.fold.applyInput input) := by
  have hfold : (ofTable table options).fold = table.fold := Trie.fold_ofTable table
  rw [get?, hfold]
  exact Trie.eval_synthesize hshort options.condense table.fold input

/-- Folding keeps the lengths of labels. -/
theorem Table.length_label_lt {fold : CaseFold} {source : List (String × V)} {table : Table V}
    (hbuild : Table.build fold source = .ok table) {n : Nat}
    (hshort : ∀ entry ∈ source, entry.1.length < n) :
    ∀ entry ∈ table.entries, entry.label.length < n := by
  intro entry hentry
  rw [← Array.mem_toList_iff, entries_of_build_eq_ok hbuild] at hentry
  obtain ⟨entry, hmem, rfl⟩ := List.mem_map.1 hentry
  have hlen : (fold.applyText entry.1).length = entry.1.length := by
    rw [← String.length_toList, CaseFold.toList_applyText, List.length_map, String.length_toList]
  exact hlen ▸ hshort entry hmem

/-- **Matching is exact.** Whatever the options, the matcher of a table answers the payload of the
entry whose folded label is the folded input, and nothing if there is none; the walk through the
trie answers the same. Evaluated under any other fold, the decision answers the entry whose folded
label is the input under that fold. -/
theorem exact_matching {fold : CaseFold} {source : List (String × V)} {table : Table V}
    (hbuild : Table.build fold source = .ok table)
    (hshort : ∀ entry ∈ source, entry.1.length < limit) (options : Options) (input : α) :
    IsAnswer fold source (fold.applyInput input) ((Matcher.ofTable table options).get? input) ∧
      (Trie.ofTable table).lookup (Subject.chars input) =
        (Matcher.ofTable table options).get? input ∧
      ∀ other : CaseFold, IsAnswer fold source (other.applyInput input)
        ((Matcher.ofTable table options).decision.eval other input) := by
  have heval : ∀ other : CaseFold, (Matcher.ofTable table options).decision.eval other input =
      (Trie.ofTable table).root.lookup? (other.applyInput input) := fun other =>
    Trie.eval_synthesize (Table.length_label_lt hbuild hshort) options.condense other input
  have hfold : (Trie.ofTable table).fold = fold := by
    rw [Trie.fold_ofTable, Table.fold_of_build_eq_ok hbuild]
  have hget : (Matcher.ofTable table options).get? input =
      (Trie.ofTable table).root.lookup? (fold.applyInput input) := by
    rw [← heval fold, ← hfold]
    rfl
  refine ⟨?_, ?_, fun other => ?_⟩
  · rw [hget]
    exact Trie.isAnswer_lookup?_root hbuild _
  · rw [hget, ← hfold]
    rfl
  · rw [heval other]
    exact Trie.isAnswer_lookup?_root hbuild _

/-- Of four labels, two of them prefixes of others and one empty, the input in another case finds
the longest under the table's fold, and none as it stands. -/
theorem exact_matching_getAll : ∃ table : Table Nat,
    Table.build .ignoreCase [("", 0), ("get", 1), ("getAll", 2), ("set", 3)] = .ok table ∧
    (∀ entry ∈ [("", 0), ("get", 1), ("getAll", 2), ("set", 3)], entry.1.length < limit) ∧
    (Matcher.ofTable table .ordinal).get? "gEtaLl" = some 2 ∧
    (Matcher.ofTable table .ordinal).decision.eval .ordinal "gEtaLl" = none := by
  have hok : (Table.build .ignoreCase
      [("", 0), ("get", 1), ("getAll", 2), ("set", 3)]).isOk := by decide +kernel
  obtain ⟨table, hbuild⟩ := Table.exists_of_isOk hok
  have hshort : ∀ entry ∈ [("", 0), ("get", 1), ("getAll", 2), ("set", 3)],
      entry.1.length < limit := by decide
  obtain ⟨⟨hsome, -⟩, -, hother⟩ := exact_matching hbuild hshort .ordinal "gEtaLl"
  refine ⟨table, hbuild, hshort, (hsome 2).2 ?_, (hother .ordinal).2.2 ?_⟩
  · exact ⟨("getAll", 2), by simp, by decide +kernel, rfl⟩
  · decide +kernel

end Lexicon
